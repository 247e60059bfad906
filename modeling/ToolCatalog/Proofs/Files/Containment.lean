import ToolCatalog.Proofs.Files.Canonical

/-!
# Reading within a root discloses nothing from outside

What a contained read resolves is canonical and lies at or below the root. The names that are followed
on the way may leave the root and come back, but only the layout of the tree is looked at there, and
bytes are read at the resolved path alone. So two trees of one layout that hold the same bytes at and
below the root give the same answer (`readContained_discloses_nothing`).
-/

namespace ToolCatalog.FileSystem

/-- A resolved path: names that lead through directories to a node that is no link, and that are
resolved to themselves wherever they can be asked for. -/
structure Canonical (fs : FileSystem) (names : List Text) : Prop where
  proper : ∀ name ∈ names, Path.isName name = true ∧ '/' ∉ name
  exists_node : ∃ n, fs.root.at? names = some n ∧ ∀ target, n ≠ .link target
  fixed : '\x00' ∉ Path.render names → fs.canonicalize (Path.render names) = .ok names

/-- Two file systems with the same directories, links and file names, and with the same bytes in the
files at and below a root. -/
structure SameWithin (root : Text) (fs₁ fs₂ : FileSystem) : Prop where
  workingDirectory : fs₁.workingDirectory = fs₂.workingDirectory
  layout : ∀ names, fs₁.root.layout names = fs₂.root.layout names
  bytes : ∀ base names content, fs₁.canonicalize root = .ok base → base <+: names →
    (fs₁.root.at? names = some (.file content) ↔ fs₂.root.at? names = some (.file content))

/-! ## Canonical paths -/

theorem canonical_of_canonicalize {fs : FileSystem} {p : Text} {names : List Text}
    (hp : Path.isAbsolute p = true) (h : fs.canonicalize p = .ok names) : fs.Canonical names := by
  have hreached := canonicalize_reached hp h
  have hfixed := canonicalize_render hreached (root_directory h)
  obtain ⟨hspelled, kind, hkind, hlink⟩ := hreached
  obtain ⟨n, hn, hnode⟩ := Option.map_eq_some_iff.1 hkind
  refine ⟨hspelled.proper, ⟨n, hn, ?_⟩, hfixed⟩
  rintro target rfl
  exact hlink target hnode.symm

/-! ## Contained paths -/

/-- What a contained path is resolved to, once the root is. -/
theorem resolveContained_of_root {fs : FileSystem} {root : Text} {base : List Text} (path : Text)
    (h : fs.canonicalize root = .ok base) :
    fs.resolveContained root path =
      if base <+: Path.normalForm base path then
        match fs.canonicalize (Path.render (Path.normalForm base path)) with
        | .ok p => if base <+: p then .ok p else .error (.outsideRoot path)
        | .error fault => .error (.file fault)
      else .error (.outsideRoot path) := by
  unfold resolveContained
  simp only [h, ← List.isPrefixOf_iff_prefix, liftFault, bind, Except.bind, pure, Except.pure]
  cases hnormal : base.isPrefixOf (Path.normalForm base path) with
  | false => rfl
  | true =>
    cases fs.canonicalize (Path.render (Path.normalForm base path)) with
    | error fault => rfl
    | ok p => cases hp : base.isPrefixOf p <;> simp [hp, throw, throwThe, MonadExceptOf.throw]

theorem resolveContained_of_fault {fs : FileSystem} {root : Text} {fault : FileFault} (path : Text)
    (h : fs.canonicalize root = .error fault) :
    fs.resolveContained root path = .error (.file fault) := by
  unfold resolveContained
  rw [h]
  rfl

theorem resolveContained_eq_ok_iff {fs : FileSystem} {root path : Text} {p : List Text} :
    fs.resolveContained root path = .ok p ↔
      ∃ base, fs.canonicalize root = .ok base ∧ base <+: Path.normalForm base path ∧
        fs.canonicalize (Path.render (Path.normalForm base path)) = .ok p ∧ base <+: p := by
  constructor
  · intro h
    cases hroot : fs.canonicalize root with
    | error fault =>
      rw [resolveContained_of_fault path hroot] at h
      cases h
    | ok base =>
      rw [resolveContained_of_root path hroot] at h
      split at h
      · rename_i hnormal
        split at h
        · rename_i q hq
          split at h
          · cases h
            exact ⟨base, rfl, hnormal, hq, ‹_›⟩
          · cases h
        · cases h
      · cases h
  · rintro ⟨base, hroot, hnormal, hp, hprefix⟩
    simp [resolveContained_of_root path hroot, hnormal, hp, hprefix]

/-! ## Two file systems -/

namespace SameWithin

variable {root : Text} {fs₁ fs₂ : FileSystem}

theorem canonicalize_eq (h : SameWithin root fs₁ fs₂) (p : Text) :
    fs₁.canonicalize p = fs₂.canonicalize p := by
  rw [canonicalize_eq_layout, canonicalize_eq_layout, h.workingDirectory, funext h.layout]

theorem resolveContained_eq (h : SameWithin root fs₁ fs₂) (path : Text) :
    fs₁.resolveContained root path = fs₂.resolveContained root path := by
  unfold resolveContained
  simp only [h.canonicalize_eq]

/-- A resolved path is read alike where it holds the same file, and nothing else can be read. -/
theorem readAt_eq (h : SameWithin root fs₁ fs₂) {base names : List Text}
    (hroot : fs₁.canonicalize root = .ok base) (hnames : base <+: names) :
    fs₁.readAt names = fs₂.readAt names := by
  have hbytes := h.bytes base names
  have hlayout := h.layout names
  unfold Node.layout at hlayout
  unfold readAt
  cases h₁ : fs₁.root.at? names with
  | none =>
    rw [h₁] at hlayout
    rw [Option.map_eq_none_iff.1 hlayout.symm]
  | some n₁ =>
    rw [h₁, Option.map_some] at hlayout
    obtain ⟨n₂, h₂, hkind⟩ := Option.map_eq_some_iff.1 hlayout.symm
    rw [h₂]
    cases n₁ with
    | file content =>
      have heq := (hbytes content hroot hnames).1 h₁
      rw [h₂] at heq
      rw [Option.some.inj heq]
    | directory entries => cases n₂ <;> simp_all [Node.kind]
    | link target => cases n₂ <;> simp_all [Node.kind]

theorem readContained_eq (h : SameWithin root fs₁ fs₂) (path : Text) :
    fs₁.readContained root path = fs₂.readContained root path := by
  unfold readContained
  rw [← h.resolveContained_eq]
  cases hresolved : fs₁.resolveContained root path with
  | error e => rfl
  | ok names =>
    obtain ⟨base, hroot, -, -, hnames⟩ := resolveContained_eq_ok_iff.1 hresolved
    show (liftFault (fs₁.readAt names)).bind decodeText = (liftFault (fs₂.readAt names)).bind decodeText
    rw [h.readAt_eq hroot hnames]

end SameWithin

/-! ## Containment -/

/-- A contained read resolves to what is canonical and within the root, its answer does not depend on
the bytes of files outside the root, and a path that leads out by its names alone is refused, whatever
is there. -/
theorem readContained_discloses_nothing (root path : Text) :
    (∀ (fs : FileSystem) (p : List Text), fs.resolveContained root path = .ok p →
      fs.Canonical p ∧ ∃ base, fs.canonicalize root = .ok base ∧ base <+: p) ∧
    (∀ fs₁ fs₂ : FileSystem, SameWithin root fs₁ fs₂ →
      fs₁.readContained root path = fs₂.readContained root path) ∧
    (∀ (fs : FileSystem) (base : List Text), fs.canonicalize root = .ok base →
      ¬ base <+: Path.normalForm base path →
        fs.readContained root path = .error (.outsideRoot path)) := by
  refine ⟨?_, ?_, ?_⟩
  · intro fs p h
    obtain ⟨base, hroot, -, hp, hprefix⟩ := resolveContained_eq_ok_iff.1 h
    exact ⟨canonical_of_canonicalize (Path.isAbsolute_render _) hp, base, hroot, hprefix⟩
  · intro fs₁ fs₂ h
    exact h.readContained_eq path
  · intro fs base hroot hout
    unfold readContained
    rw [resolveContained_of_root path hroot, if_neg hout]
    rfl

/-- A file within the root `/r`, a file without, and links that lead out of the root and back. -/
def linkedOut (secret : List UInt8) : FileSystem where
  root := .directory
    [("r".toList, .directory
        [("note".toList, .file [104, 105]), ("way".toList, .link "../s/back".toList),
          ("leak".toList, .link "/s/secret".toList)]),
      ("s".toList, .directory [("secret".toList, .file secret), ("back".toList, .link "/r/note".toList)])]

/-- In a directory, nodes of one layout can stand for each other. -/
theorem layout_entry_congr {k : Text} {n₁ n₂ : Node} (h : n₁.layout = n₂.layout)
    (after : List (Text × Node)) :
    ∀ before : List (Text × Node), (Node.directory (before ++ (k, n₁) :: after)).layout =
      (Node.directory (before ++ (k, n₂) :: after)).layout := by
  intro before
  funext names
  cases names with
  | nil => rfl
  | cons name names =>
    unfold Node.layout Node.at?
    induction before with
    | nil =>
      by_cases hk : k = name
      · simpa [Fields.get?, hk, Node.layout] using congrFun h names
      · simp [Fields.get?, hk]
    | cons entry before ih =>
      obtain ⟨m, n⟩ := entry
      by_cases hm : m = name
      · simp [Fields.get?, hm]
      · simpa [Fields.get?, hm] using ih

theorem linkedOut_sameWithin (secret₁ secret₂ : List UInt8) :
    SameWithin "/r".toList (linkedOut secret₁) (linkedOut secret₂) where
  workingDirectory := rfl
  layout := by
    intro names
    have hfile : (Node.file secret₁).layout = (Node.file secret₂).layout := by
      funext names
      cases names <;> rfl
    exact congrFun (layout_entry_congr (layout_entry_congr hfile _ []) [] [_]) names
  bytes := by
    intro base names content hbase hnames
    have hr : base = ["r".toList] := Except.ok.inj (hbase.symm.trans rfl)
    obtain ⟨names, rfl⟩ := hnames
    rw [hr]
    exact Iff.rfl

/-- A way that leaves the root and comes back is read, one that ends outside is not, and the bytes there
make no difference to either. -/
theorem linkedOut_discloses_nothing :
    (linkedOut [49]).Canonical ["r".toList, "note".toList] ∧
    (linkedOut [49]).readContained "/r".toList "./way".toList =
      (linkedOut [50]).readContained "/r".toList "./way".toList ∧
    (linkedOut [49]).readContained "/r".toList "leak".toList =
      (linkedOut [50]).readContained "/r".toList "leak".toList ∧
    (linkedOut [49]).readContained "/r".toList "../s/secret".toList =
      .error (.outsideRoot "../s/secret".toList) := by
  have hway := readContained_discloses_nothing "/r".toList "./way".toList
  have hleak := readContained_discloses_nothing "/r".toList "leak".toList
  have hout := readContained_discloses_nothing "/r".toList "../s/secret".toList
  refine ⟨?_, ?_, ?_, ?_⟩
  · exact (hway.1 (linkedOut [49]) _ rfl).1
  · exact hway.2.1 _ _ (linkedOut_sameWithin [49] [50])
  · exact hleak.2.1 _ _ (linkedOut_sameWithin [49] [50])
  · exact hout.2.2 (linkedOut [49]) ["r".toList] rfl (by decide)

end ToolCatalog.FileSystem
