import ToolCatalog.Proofs.Files.NormalForms
import ToolCatalog.Proofs.Files.Visibility
import ToolCatalog.Proofs.Files.Writes

/-!
# Contained paths are decided by their normal form

What a path within a root is resolved to depends on the path through its normal form alone, and is resolved to
itself (`resolveContained_normalForm`). For this a root must be as good as the path that it is resolved to, also
where it begins in the working directory (`WellFormed.canonicalize_render`). Where there is no link at or below
the root, names lead where they say or nowhere (`followWith_unlinked`), so that the normal form is the answer if
there is a node at it.
-/

namespace ToolCatalog

open Text

/-! ## Resolved paths are resolved to themselves -/

theorem Node.Named.spelled {root n : Node} (h : root.Named) {names : List Text}
    (hn : root.at? names = some n) (hshort : Path.isTooLong (Path.render names) = false) :
    Path.Spelled names where
  proper := fun name hname => ⟨((h.at? hn).2 name hname).1, ((h.at? hn).2 name hname).2.1⟩
  nameBytes := fun name hname => ((h.at? hn).2 name hname).2.2.2
  pathBytes := by
    rintro q ⟨rest, rfl⟩ hq
    rw [Path.render_append hq] at hshort
    exact Path.isTooLong_of_append _ hshort

theorem Node.Reached.exists_node {root : Node} {names : List Text} (h : root.Reached names) :
    ∃ n, root.at? names = some n := by
  obtain ⟨-, kind, hkind, -⟩ := h
  obtain ⟨n, hn, -⟩ := Option.map_eq_some_iff.1 hkind
  exact ⟨n, hn⟩

theorem Node.at?_of_layout_link {root : Node} {names : List Text} {target : Text}
    (h : root.layout names = some (.link target)) : root.at? names = some (.link target) := by
  obtain ⟨n, hn, hkind⟩ := Option.map_eq_some_iff.1 h
  cases n with
  | file bytes => cases hkind
  | directory entries => cases hkind
  | link target' =>
    cases hkind
    exact hn

namespace FileSystem

/-- A file system in which entries can be told by their names, with a working directory whose own path is
not too long to be handed over. -/
structure WellFormed (fs : FileSystem) : Prop where
  named : fs.root.Named
  workingDirectory : Path.isTooLong (Path.render fs.workingDirectory) = false

variable {fs : FileSystem} {root p : Text} {names : List Text}

theorem canonicalize_eq_ok_iff :
    fs.canonicalize p = .ok names ↔ checkPath p = .ok () ∧ ∃ here, fs.Begins p here ∧
      fs.root.layout.follow .spell maxLinks here (Path.parts p) = .ok names := by
  unfold canonicalize resolve Begins
  cases checkPath p with
  | error fault => simp [bind, Except.bind]
  | ok u =>
    simp only [bind, Except.bind, followFrom_eq_layout]
    by_cases habs : Path.isAbsolute p = true
    · simp [habs]
    · by_cases hnone : fs.root.layout fs.workingDirectory = none
      · simp [habs, hnone]
      · simp [habs, hnone]

/-- What a path is resolved to can be asked for, also where the path begins in the working directory. -/
theorem WellFormed.reached (h : fs.WellFormed) (hp : fs.canonicalize p = .ok names) :
    fs.root.Reached names := by
  obtain ⟨-, here, hbegins, hfollow⟩ := canonicalize_eq_ok_iff.1 hp
  have hhere : Path.Spelled here := by
    unfold Begins at hbegins
    split at hbegins
    · rw [hbegins]
      exact .nil
    · obtain ⟨rfl, hworking⟩ := hbegins
      obtain ⟨kind, hkind⟩ := Option.ne_none_iff_exists'.1 hworking
      obtain ⟨n, hn, -⟩ := Option.map_eq_some_iff.1 hkind
      exact h.named.spelled hn h.workingDirectory
  exact Node.follow_reached maxLinks here _ names hhere (splitOn_ne_nil _ _)
    (fun part hpart => notMem_of_mem_splitOn hpart) hfollow

theorem WellFormed.canonicalize_render (h : fs.WellFormed) (hp : fs.canonicalize p = .ok names) :
    fs.canonicalize (Path.render names) = .ok names := by
  obtain ⟨n, hn⟩ := (h.reached hp).exists_node
  refine FileSystem.canonicalize_render (h.reached hp) (root_directory hp) ?_
  exact Path.nul_notMem_render fun name hname => ((h.named.at? hn).2 name hname).2.2.1

end FileSystem

/-! ## What is spelled out is reached -/

namespace Layout

variable {layout : Layout} {here rest names : List Text} {part : Text}

/-- A part that does not fail when a path is spelled out does the same when it is only reached. -/
theorem move_reach (h : ∀ f, layout.move .spell here part rest ≠ .fault f) :
    layout.move .reach here part rest = layout.move .spell here part rest := by
  refine move_eq_move (by simp) (.inl rfl) ?_ move_spell_ne_settle
  intro hname
  by_contra hlong
  rw [Bool.not_eq_false] at hlong
  refine h .nameTooLong ?_
  unfold move
  simp [hname, hlong]

theorem followWith_reach {onLink onLink' : List Text → List Text → Except FileFault (List Text)}
    (hlink : ∀ here parts, onLink here parts = .ok names → onLink' here parts = .ok names) :
    ∀ parts here, layout.followWith .spell onLink here parts = .ok names →
      layout.followWith .reach onLink' here parts = .ok names
  | [], _, h => h
  | part :: rest, here, h => by
    have ih := followWith_reach hlink rest
    unfold followWith at h ⊢
    cases hmove : layout.move .spell here part rest with
    | fault f =>
      rw [hmove] at h
      cases h
    | goOn next =>
      rw [hmove] at h
      rw [move_reach (by simp [hmove]), hmove]
      exact ih next h
    | follow target =>
      rw [hmove] at h
      rw [move_reach (by simp [hmove]), hmove]
      exact hlink _ _ h
    | settle => exact absurd hmove move_spell_ne_settle

theorem follow_reach :
    ∀ (links : Nat) (parts here : List Text), layout.follow .spell links here parts = .ok names →
      layout.follow .reach links here parts = .ok names
  | 0, parts, here, h => followWith_reach (fun _ _ => id) parts here h
  | links + 1, parts, here, h =>
    followWith_reach (fun here' parts' => follow_reach links parts' here') parts here h

/-! ## Ways without links -/

/-- Where no link is on the way, names lead where they say, or nowhere. -/
theorem followWith_unlinked {purpose : Purpose} (hpurpose : purpose ≠ .write)
    {onLink : List Text → List Text → Except FileFault (List Text)} :
    ∀ parts here, (∀ name ∈ parts, Path.isName name = true) →
      (∀ q target, q <+: here ++ parts → layout q ≠ some (.link target)) → layout here ≠ none →
      layout.followWith purpose onLink here parts = .ok names →
        names = here ++ parts ∧ layout names ≠ none
  | [], here, _, _, hhere, h => by
    cases h
    simpa using hhere
  | part :: rest, here, hnames, hlinks, _, h => by
    -- by induction on the names still to come; those before them are no links
    have hentry : ∀ target, layout (here ++ [part]) ≠ some (.link target) :=
      fun target => hlinks _ target ⟨rest, by simp⟩
    unfold followWith at h
    cases hmove : layout.move purpose here part rest with
    | fault f =>
      rw [hmove] at h
      cases h
    | goOn next =>
      rw [hmove] at h
      obtain ⟨rfl, kind, hkind, -⟩ := move_goOn hmove (hnames part (by simp))
      have ih := followWith_unlinked hpurpose rest (here ++ [part])
        (fun n hn => hnames n (List.mem_cons_of_mem part hn)) (by simpa using hlinks) (by simp [hkind]) h
      simpa using ih
    | follow target => exact absurd (move_follow hmove) (hentry target)
    | settle =>
      rcases move_settle hmove with hwrite | ⟨target, htarget⟩
      · exact absurd hwrite hpurpose
      · exact absurd htarget (hentry target)

/-- An empty part stays in the directory where it is due. -/
theorem followWith_empty {purpose : Purpose}
    {onLink : List Text → List Text → Except FileFault (List Text)}
    (h : layout.followWith purpose onLink here ([] :: rest) = .ok names) :
    layout here = some .directory ∧ layout.followWith purpose onLink here rest = .ok names := by
  by_cases hdir : layout here = some .directory
  · have hmove : layout.move purpose here [] rest = .goOn here := by
      simp [move, hdir, Path.isName]
    rw [followWith, hmove] at h
    exact ⟨hdir, h⟩
  · have hnil := eq_nil_of_followWith hdir h
    cases hnil

/-- A resolved path without a link on its way leads where its names say, or nowhere. -/
theorem follow_render_unlinked {purpose : Purpose} (hpurpose : purpose ≠ .write) {links : Nat}
    (hnames : ∀ name ∈ names, Path.isName name = true ∧ '/' ∉ name)
    (hlinks : ∀ q target, q <+: names → layout q ≠ some (.link target)) {found : List Text}
    (h : layout.follow purpose links [] (Path.parts (Path.render names)) = .ok found) :
    found = names ∧ layout names ≠ none := by
  obtain ⟨onLink, hfollow⟩ : ∃ onLink, layout.follow purpose links [] (Path.parts (Path.render names)) =
      layout.followWith purpose onLink [] (Path.parts (Path.render names)) := by
    cases links with
    | zero => exact ⟨_, rfl⟩
    | succ links => exact ⟨_, rfl⟩
  rw [hfollow, Path.parts_render fun name hname => (hnames name hname).2] at h
  obtain ⟨hroot, h⟩ := followWith_empty h
  have hroot' : layout [] ≠ none := by simp [hroot]
  by_cases hnil : names = []
  · subst hnil
    obtain ⟨-, h⟩ := followWith_empty (by simpa using h)
    cases h
    exact ⟨rfl, hroot'⟩
  · rw [if_neg hnil] at h
    obtain ⟨rfl, hfound⟩ := followWith_unlinked hpurpose names [] (fun n hn => (hnames n hn).1) hlinks
      hroot' h
    exact ⟨rfl, hfound⟩

end Layout

namespace FileSystem

variable {fs : FileSystem} {root p : Text} {names : List Text}

theorem checkLength_eq_ok_iff :
    checkLength p = .ok () ↔ checkPath p = .ok () ∧ Path.isTooLong p = false := by
  unfold checkLength
  cases checkPath p with
  | error fault => simp [bind, Except.bind]
  | ok u =>
    cases Path.isTooLong p with
    | false => simp [bind, Except.bind, pure, Except.pure]
    | true => simp [bind, Except.bind, throw, throwThe, MonadExceptOf.throw]

/-- What a path is spelled out to, it also reaches, if it is not too long to be handed over. -/
theorem locate_of_canonicalize (h : fs.canonicalize p = .ok names) (hshort : Path.isTooLong p = false) :
    fs.locate .reach p = .ok names := by
  obtain ⟨hcheck, here, hbegins, hfollow⟩ := canonicalize_eq_ok_iff.1 h
  exact locate_eq_ok_iff.2 ⟨checkLength_eq_ok_iff.2 ⟨hcheck, hshort⟩, hcheck, here, hbegins,
    Layout.follow_reach maxLinks _ here hfollow⟩

section

variable (hfs : fs.WellFormed) (hnames : ∀ name ∈ names, Path.isName name = true ∧ '/' ∉ name)
  (hlinks : ∀ q target, q <+: names → fs.root.layout q ≠ some (.link target))
include hfs hnames hlinks

/-- A resolved path without a link on its way is resolved to itself, if there is a node and the path to it is
not too long. -/
theorem canonicalize_unlinked (hdir : fs.root.layout [] = some .directory) (found : List Text) :
    fs.canonicalize (Path.render names) = .ok found ↔
      found = names ∧ (∃ n, fs.root.at? names = some n) ∧
        Path.isTooLong (Path.render names) = false := by
  constructor
  · intro h
    have hfollow := follow_of_canonicalize (Path.isAbsolute_render names) h
    obtain ⟨rfl, -⟩ := Layout.follow_render_unlinked (by simp) hnames hlinks hfollow
    have hreached := hfs.reached h
    refine ⟨rfl, hreached.exists_node, ?_⟩
    by_cases hnil : found = []
    · subst hnil
      decide
    · exact hreached.1.pathBytes found List.prefix_rfl hnil
  · rintro ⟨rfl, ⟨n, hn⟩, hshort⟩
    have hkind : fs.root.layout found = some n.kind := by rw [Node.layout, hn, Option.map_some]
    have hreached : fs.root.Reached found := by
      refine ⟨hfs.named.spelled hn hshort, n.kind, hkind, ?_⟩
      intro target htarget
      exact hlinks found target List.prefix_rfl (by rw [hkind, htarget])
    refine canonicalize_render hreached hdir ?_
    exact Path.nul_notMem_render fun name hname => ((hfs.named.at? hn).2 name hname).2.2.1

/-- Where no link is on the way, a resolved path exists if it is resolved to itself. -/
theorem pathExists_unlinked (hdir : fs.root.layout [] = some .directory) :
    fs.pathExists (Path.render names) = true ↔
      (∃ n, fs.root.at? names = some n) ∧ Path.isTooLong (Path.render names) = false := by
  unfold pathExists
  constructor
  · intro h
    cases hlocate : fs.locate .reach (Path.render names) with
    | error fault =>
      rw [hlocate] at h
      cases h
    | ok found =>
      obtain ⟨hlength, -, here, hbegins, hfollow⟩ := locate_eq_ok_iff.1 hlocate
      rw [Begins, if_pos (Path.isAbsolute_render names)] at hbegins
      subst hbegins
      obtain ⟨-, hnode⟩ := Layout.follow_render_unlinked (by simp) hnames hlinks hfollow
      obtain ⟨kind, hkind⟩ := Option.ne_none_iff_exists'.1 hnode
      obtain ⟨n, hn, -⟩ := Option.map_eq_some_iff.1 hkind
      exact ⟨⟨n, hn⟩, (checkLength_eq_ok_iff.1 hlength).2⟩
  · rintro ⟨hnode, hshort⟩
    have hspell := (canonicalize_unlinked hfs hnames hlinks hdir names).2 ⟨rfl, hnode, hshort⟩
    rw [locate_of_canonicalize hspell hshort]
    rfl

end

/-! ## Contained paths -/

/-- There is no link at or below a resolved path. -/
def Unlinked (fs : FileSystem) (base : List Text) : Prop :=
  ∀ names target, base <+: names → fs.root.at? names ≠ some (.link target)

/-- Above a node there are directories alone, so with no link below it there is none on the way. -/
theorem Unlinked.layout_ne_link {base q : List Text} (h : fs.Unlinked base)
    (hbase : ∃ n, fs.root.at? base = some n) (hnames : base <+: names) (hq : q <+: names)
    (target : Text) : fs.root.layout q ≠ some (.link target) := by
  intro hlink
  rcases List.prefix_or_prefix_of_prefix hnames hq with hbelow | ⟨rest, rfl⟩
  · exact h q target hbelow (Node.at?_of_layout_link hlink)
  · by_cases hrest : rest = []
    · exact h q target (by simp [hrest]) (Node.at?_of_layout_link hlink)
    · obtain ⟨n, hn⟩ := hbase
      have hdir : fs.root.layout q = some .directory :=
        Node.layout_of_append (by simp [Node.layout, hn]) hrest
      rw [hlink] at hdir
      cases hdir

section

variable {base : List Text} (hfs : fs.WellFormed) (hroot : fs.canonicalize root = .ok base)
include hfs hroot

theorem isNormalForm_iff_of_root {path : Text} :
    Path.IsNormalForm base path names ↔ Path.normalForm base path = names :=
  Path.isNormalForm_iff fun name hname => ((hfs.reached hroot).1.proper name hname).1

theorem proper_of_isNormalForm {path : Text} (h : Path.IsNormalForm base path names) :
    ∀ name ∈ names, Path.isName name = true ∧ '/' ∉ name := by
  intro name hname
  refine ⟨h.2 name hname, ?_⟩
  rw [isNormalForm_iff_of_root hfs hroot] at h
  rw [← h] at hname
  have hparts : ∀ part ∈ Path.parts path, '/' ∉ part := fun part hpart => notMem_of_mem_splitOn hpart
  rcases Path.mem_foldl_normalStep _ _ hname with hbase | hpart
  · split at hbase
    · cases hbase
    · exact ((hfs.reached hroot).1.proper name hbase).2
  · exact hparts name hpart

/-- A root and the path that it is resolved to are the same root. -/
theorem resolveContained_render_root (path : Text) :
    fs.resolveContained (Path.render base) path = fs.resolveContained root path := by
  rw [resolveContained_of_root path hroot, resolveContained_of_root path (hfs.canonicalize_render hroot)]

/-- Paths with one normal form are resolved alike, but that a refusal names the path as it was given. -/
theorem resolveContained_alike {path₁ path₂ : Text} (h₁ : Path.IsNormalForm base path₁ names)
    (h₂ : Path.IsNormalForm base path₂ names) :
    fs.resolveContained root path₁ = fs.resolveContained root path₂ ∨
      fs.resolveContained root path₁ = .error (.outsideRoot path₁) ∧
        fs.resolveContained root path₂ = .error (.outsideRoot path₂) := by
  rw [resolveContained_of_root path₁ hroot, resolveContained_of_root path₂ hroot,
    (isNormalForm_iff_of_root hfs hroot).1 h₁, (isNormalForm_iff_of_root hfs hroot).1 h₂]
  by_cases hbelow : base <+: names
  · simp only [if_pos hbelow]
    cases fs.canonicalize (Path.render names) with
    | error fault => exact .inl rfl
    | ok p =>
      by_cases hp : base <+: p
      · simp [hp]
      · simp [hp]
  · simp [hbelow]

/-- Where no link is at or below the root, the normal form tells what becomes of a path. -/
theorem resolveContained_unlinked (hlinks : fs.Unlinked base) {path : Text}
    (h : Path.IsNormalForm base path names) :
    ¬ base <+: names ∧ fs.resolveContained root path = .error (.outsideRoot path) ∨
    base <+: names ∧ fs.pathExists (Path.render names) = true ∧
      fs.resolveContained root path = .ok names ∨
    base <+: names ∧ fs.pathExists (Path.render names) = false ∧
      ∃ fault, fs.resolveContained root path = .error (.file fault) := by
  have hproper := proper_of_isNormalForm hfs hroot h
  rw [resolveContained_of_root path hroot, (isNormalForm_iff_of_root hfs hroot).1 h]
  by_cases hbelow : base <+: names
  · have hway : ∀ q target, q <+: names → fs.root.layout q ≠ some (.link target) :=
      fun q target hq => hlinks.layout_ne_link (hfs.reached hroot).exists_node hbelow hq target
    have hspell := canonicalize_unlinked hfs hproper hway (root_directory hroot)
    have hexists := pathExists_unlinked hfs hproper hway (root_directory hroot)
    rw [if_pos hbelow]
    cases hpath : fs.pathExists (Path.render names) with
    | true =>
      rw [(hspell names).2 ⟨rfl, hexists.1 hpath⟩]
      exact .inr (.inl ⟨hbelow, rfl, if_pos hbelow⟩)
    | false =>
      refine .inr (.inr ⟨hbelow, rfl, ?_⟩)
      cases hfound : fs.canonicalize (Path.render names) with
      | error fault => exact ⟨fault, rfl⟩
      | ok found =>
        rw [hexists.2 ((hspell found).1 hfound).2] at hpath
        cases hpath
  · rw [if_neg hbelow]
    exact .inl ⟨hbelow, rfl⟩

omit hroot in
/-- What a path is resolved to within a root is resolved there to itself. -/
theorem resolveContained_again {path : Text} (h : fs.resolveContained root path = .ok names) :
    fs.resolveContained root (Path.render names) = .ok names := by
  obtain ⟨base', hroot', -, hnames, hbelow⟩ := resolveContained_eq_ok_iff.1 h
  have hnormal : Path.normalForm base' (Path.render names) = names :=
    Path.normalForm_render (hfs.reached hnames).1.proper base'
  refine resolveContained_eq_ok_iff.2 ⟨base', hroot', ?_, ?_, hbelow⟩
  · rwa [hnormal]
  · rw [hnormal]
    exact hfs.canonicalize_render hnames

end

/-- **A contained path is decided by its normal form.** A path has one normal form over what the root is
resolved to. Two paths with the same are resolved alike, or both are refused, and the root may be replaced by
what it is resolved to. Where there is no link at or below that, a path is refused if its normal form is not
within it, and is otherwise resolved to its normal form if that exists, and to a fault if not. What a path is
resolved to is resolved to itself. -/
theorem resolveContained_normalForm {base : List Text} (hfs : fs.WellFormed)
    (hroot : fs.canonicalize root = .ok base) :
    (∀ path, ∃! names, Path.IsNormalForm base path names) ∧
    (∀ path₁ path₂ names, Path.IsNormalForm base path₁ names → Path.IsNormalForm base path₂ names →
      fs.resolveContained root path₁ = fs.resolveContained root path₂ ∨
        fs.resolveContained root path₁ = .error (.outsideRoot path₁) ∧
          fs.resolveContained root path₂ = .error (.outsideRoot path₂)) ∧
    (∀ path, fs.resolveContained (Path.render base) path = fs.resolveContained root path) ∧
    (fs.Unlinked base → ∀ path names, Path.IsNormalForm base path names →
      (fs.resolveContained root path = .error (.outsideRoot path) ↔ ¬ base <+: names) ∧
      (∀ p, fs.resolveContained root path = .ok p ↔
        p = names ∧ base <+: names ∧ fs.pathExists (Path.render names) = true) ∧
      ((∃ fault, fs.resolveContained root path = .error (.file fault)) ↔
        base <+: names ∧ fs.pathExists (Path.render names) = false) ∧
      (base <+: names → Path.isTooLong (Path.render names) = false →
        (fs.pathExists (Path.render names) = true ↔ ∃ n, fs.root.at? names = some n))) ∧
    ∀ path p, fs.resolveContained root path = .ok p →
      fs.resolveContained root (Path.render p) = .ok p := by
  refine ⟨?_, ?_, resolveContained_render_root hfs hroot, ?_, ?_⟩
  · intro path
    refine ⟨Path.normalForm base path, (isNormalForm_iff_of_root hfs hroot).2 rfl, ?_⟩
    intro names hnames
    exact ((isNormalForm_iff_of_root hfs hroot).1 hnames).symm
  · intro path₁ path₂ names h₁ h₂
    exact resolveContained_alike hfs hroot h₁ h₂
  · intro hlinks path names hnames
    have hproper := proper_of_isNormalForm hfs hroot hnames
    have hexists : base <+: names → Path.isTooLong (Path.render names) = false →
        (fs.pathExists (Path.render names) = true ↔ ∃ n, fs.root.at? names = some n) := by
      intro hbelow hshort
      have hiff := pathExists_unlinked hfs hproper
        (fun q target hq => hlinks.layout_ne_link (hfs.reached hroot).exists_node hbelow hq target)
        (root_directory hroot)
      rw [hiff, and_iff_left hshort]
    -- outside, inside and there, or inside and not there: each statement is read off the case
    rcases resolveContained_unlinked hfs hroot hlinks hnames with
      ⟨hout, hres⟩ | ⟨hin, hpath, hres⟩ | ⟨hin, hpath, fault, hres⟩
    · refine ⟨?_, ?_, ?_, hexists⟩ <;> simp [hres, hout]
    · refine ⟨?_, ?_, ?_, hexists⟩ <;> simp [hres, hin, hpath, eq_comm]
    · refine ⟨?_, ?_, ?_, hexists⟩ <;> simp [hres, hin, hpath]
  · intro path p h
    exact resolveContained_again hfs h

/-- A directory without links, beside one whose name begins like its own. A link leads to it, and the working
directory is within it. -/
def besideTree : FileSystem where
  root := .directory
    [("repo".toList, .directory
        [("src".toList, .directory [("a.py".toList, .file [])]), ("note".toList, .file [])]),
      ("repo-old".toList, .directory [("x.py".toList, .file [])]), ("way".toList, .link "repo".toList)]
  workingDirectory := ["repo".toList, "src".toList]

theorem besideTree_unlinked : besideTree.Unlinked ["repo".toList] := by
  rintro names target ⟨rest, rfl⟩
  have hfile : ∀ rest, (Node.file []).at? rest ≠ some (.link target) := by
    intro rest
    cases rest <;> simp [Node.at?]
  have hsrc : ∀ rest, (Node.directory [("a.py".toList, .file [])]).at? rest ≠ some (.link target) := by
    intro rest
    cases rest with
    | nil => simp [Node.at?]
    | cons k rest =>
      simp only [Node.at?, Fields.get?]
      split
      · exact hfile rest
      · simp
  show (Node.directory [("src".toList, .directory [("a.py".toList, .file [])]),
    ("note".toList, .file [])]).at? rest ≠ some (.link target)
  cases rest with
  | nil => simp [Node.at?]
  | cons k rest =>
    simp only [Node.at?, Fields.get?]
    split
    · exact hsrc rest
    · split
      · exact hfile rest
      · simp

/-- The root leads through a link. The way of a path may go over a missing entry and a file if its normal form
does not, and may end in a slash behind a file. -/
theorem resolveContained_besideTree :
    besideTree.WellFormed ∧ besideTree.canonicalize "../../way" = .ok ["repo".toList] ∧
    besideTree.Unlinked ["repo".toList] ∧
    besideTree.resolveContained "../../way" "nope/../note/../src//./a.py/" =
      .ok ["repo".toList, "src".toList, "a.py".toList] ∧
    besideTree.resolveContained "../../way" "/repo/src/a.py" =
      .ok ["repo".toList, "src".toList, "a.py".toList] ∧
    besideTree.resolveContained "../../way" "../repo-old/x.py" =
      .error (.outsideRoot "../repo-old/x.py".toList) ∧
    ∃ fault, besideTree.resolveContained "../../way" "src/b.py" = .error (.file fault) := by
  have hfs : besideTree.WellFormed :=
    ⟨Node.Valid.named (show besideTree.root.Valid [] by decide +kernel), by decide +kernel⟩
  have hroot : besideTree.canonicalize "../../way" = .ok ["repo".toList] := by decide +kernel
  obtain ⟨-, -, -, hunlinked, hagain⟩ := resolveContained_normalForm hfs hroot
  have hdecided := hunlinked besideTree_unlinked
  have hform : ∀ path, Path.IsNormalForm ["repo".toList] path (Path.normalForm ["repo".toList] path) :=
    fun path => (isNormalForm_iff_of_root hfs hroot).2 rfl
  have hinside : besideTree.resolveContained "../../way" "nope/../note/../src//./a.py/" =
      .ok ["repo".toList, "src".toList, "a.py".toList] := by
    refine ((hdecided _ _ (hform _)).2.1 _).2 ⟨?_, ?_, ?_⟩ <;> decide +kernel
  have houtside : besideTree.resolveContained "../../way" "../repo-old/x.py" =
      .error (.outsideRoot "../repo-old/x.py".toList) :=
    (hdecided _ _ (hform _)).1.2 (by decide +kernel)
  have hmissing : ∃ fault, besideTree.resolveContained "../../way" "src/b.py" = .error (.file fault) :=
    (hdecided _ _ (hform _)).2.2.1.2 (by decide +kernel)
  exact ⟨hfs, hroot, besideTree_unlinked, hinside, hagain _ _ hinside, houtside, hmissing⟩

end FileSystem

end ToolCatalog
