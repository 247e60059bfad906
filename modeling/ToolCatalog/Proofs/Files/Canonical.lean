import ToolCatalog.Proofs.Files.Layout
import ToolCatalog.Proofs.Text.Pieces

/-!
# Resolved paths are canonical

Whatever links and dots are on the way, the resolved form of an absolute path consists of names, leads
through directories alone, and ends at a node that is no link (`canonicalize_reached`). Every part of
it was short enough to be asked for, so that it is resolved to itself (`canonicalize_render`).
-/

namespace ToolCatalog

open Text

/-! ## Names and lengths -/

theorem Path.isName_iff {part : Text} :
    Path.isName part = true ↔ part ≠ [] ∧ part ≠ "." ∧ part ≠ ".." := by
  simp only [Path.isName, Bool.and_eq_true, bne_iff_ne, and_assoc]

theorem Path.isTooLong_of_append {p : Text} (s : Text) (h : Path.isTooLong (p ++ s) = false) :
    Path.isTooLong p = false := by
  unfold Path.isTooLong Utf8.encode at h ⊢
  rw [List.flatMap_append, List.length_append, decide_eq_false_iff_not] at h
  rw [decide_eq_false_iff_not]
  omega

/-- Names that can be asked for one after the other from the root: each is short enough, and so is the
path to it. -/
structure Path.Spelled (names : List Text) : Prop where
  proper : ∀ name ∈ names, Path.isName name = true ∧ '/' ∉ name
  nameBytes : ∀ name ∈ names, (Utf8.encode name).length ≤ maxNameBytes
  pathBytes : ∀ q, q <+: names → q ≠ [] → Path.isTooLong (Path.render q) = false

namespace Path.Spelled

theorem nil : Path.Spelled [] where
  proper := by simp
  nameBytes := by simp
  pathBytes := by
    intro q hq hne
    exact absurd (List.prefix_nil.1 hq) hne

theorem of_prefix {names q : List Text} (h : Path.Spelled names) (hq : q <+: names) :
    Path.Spelled q where
  proper := fun name hname => h.proper name (hq.subset hname)
  nameBytes := fun name hname => h.nameBytes name (hq.subset hname)
  pathBytes := fun r hr hne => h.pathBytes r (hr.trans hq) hne

theorem concat {names : List Text} {name : Text} (h : Path.Spelled names)
    (hname : Path.isName name = true ∧ '/' ∉ name) (hbytes : (Utf8.encode name).length ≤ maxNameBytes)
    (hpath : Path.isTooLong (Path.render (names ++ [name])) = false) :
    Path.Spelled (names ++ [name]) where
  proper := by
    intro m hm
    rcases List.mem_append.1 hm with hm | hm
    · exact h.proper m hm
    · rw [List.mem_singleton.1 hm]; exact hname
  nameBytes := by
    intro m hm
    rcases List.mem_append.1 hm with hm | hm
    · exact h.nameBytes m hm
    · rw [List.mem_singleton.1 hm]; exact hbytes
  pathBytes := by
    intro q hq hne
    rcases List.prefix_concat_iff.1 hq with rfl | hq
    · exact hpath
    · exact h.pathBytes q hq hne

end Path.Spelled

/-! ## One part -/

/-- Names that can be asked for and lead to a node that is no link. -/
def Node.Reached (root : Node) (names : List Text) : Prop :=
  Path.Spelled names ∧ ∃ kind, root.layout names = some kind ∧ ∀ target, kind ≠ .link target

theorem Layout.entryTooLong_eq_false {layout : Layout} {here : List Text} {name : Text}
    {rest : List Text} (h : layout.entryTooLong here name rest = false) :
    Path.isTooLong (Path.render (here ++ [name])) = false := by
  unfold Layout.entryTooLong at h
  split at h
  · exact h
  · split at h
    · exact Path.isTooLong_of_append _ h
    · exact h

/-- What one part does when a path is spelled out: the way goes on at a node that is no link. -/
theorem Node.move_spell {root : Node} {here names rest : List Text} {part : Text}
    (h : Path.Spelled here) (hslash : '/' ∉ part)
    (hm : root.layout.move .spell here part rest = .goOn names) : root.Reached names := by
  unfold Layout.move at hm
  split at hm
  · cases hm
  rename_i hlong
  split at hm
  · cases hm
  rename_i hdir
  rw [Decidable.not_not] at hdir
  split at hm
  · -- an empty part or a dot stays in the directory
    cases hm
    exact ⟨h, .directory, hdir, by simp⟩
  rename_i hdot
  split at hm
  · -- a double dot: the directory has a parent, or is the root
    cases hm
    refine ⟨h.of_prefix (List.dropLast_prefix here), .directory, ?_, by simp⟩
    by_cases hnil : here = []
    · rw [hnil] at hdir ⊢
      exact hdir
    · rw [← List.dropLast_concat_getLast hnil] at hdir
      exact Node.layout_of_append (by rw [hdir]; simp) (by simp)
  rename_i hdots
  split at hm
  · cases hm
  split at hm
  · cases hm
  rename_i hbytes
  have hname : Path.isName part = true := by
    simp only [Bool.or_eq_true, beq_iff_eq, not_or] at hdot hdots
    exact Path.isName_iff.2 ⟨hdot.1, hdot.2, hdots⟩
  have hshort : root.layout.entryTooLong here part rest = false := by
    simpa [hname] using hlong
  have hspelled : Path.Spelled (here ++ [part]) :=
    h.concat ⟨hname, hslash⟩ (by omega) (Layout.entryTooLong_eq_false hshort)
  split at hm
  · split at hm <;> cases hm
  · split at hm <;> cases hm
  · rename_i kind hlink hkind
    cases hm
    exact ⟨hspelled, kind, hkind, fun target htarget => hlink target (by rw [htarget])⟩

theorem Layout.move_spell_ne_settle {layout : Layout} {here rest : List Text} {part : Text} :
    layout.move .spell here part rest ≠ .settle := by
  intro hm
  unfold Layout.move at hm
  repeat' split at hm
  all_goals simp_all

/-! ## Whole paths -/

/-- What a run reaches, if what it reaches after a link is of that kind. A path without parts stays
where it is. -/
theorem Node.followWith_reached {root : Node}
    {onLink : List Text → List Text → Except FileFault (List Text)}
    (hlink : ∀ here parts names, Path.Spelled here → parts ≠ [] → (∀ part ∈ parts, '/' ∉ part) →
      onLink here parts = .ok names → root.Reached names) :
    ∀ (parts here names : List Text), Path.Spelled here → (parts = [] → root.Reached here) →
      (∀ part ∈ parts, '/' ∉ part) → root.layout.followWith .spell onLink here parts = .ok names →
      root.Reached names
  | [], here, names, _, hend, _, h => by
    cases h
    exact hend rfl
  | part :: rest, here, names, hhere, _, hslash, h => by
    unfold Layout.followWith at h
    split at h
    · cases h
    · rename_i next hm
      have hnext := Node.move_spell hhere (hslash part (by simp)) hm
      exact Node.followWith_reached hlink rest next names hnext.1 (fun _ => hnext)
        (fun p hp => hslash p (List.mem_cons_of_mem _ hp)) h
    · rename_i target _
      -- after a link there is always a part to come, if only an empty one
      refine hlink _ _ names ?_ ?_ ?_ h
      · split
        · exact Path.Spelled.nil
        · exact hhere
      · simp [Path.parts, splitOn_ne_nil]
      · intro p hp
        rcases List.mem_append.1 hp with hp | hp
        · exact notMem_of_mem_splitOn hp
        · exact hslash p (List.mem_cons_of_mem _ hp)
    · rename_i hm
      exact absurd hm Layout.move_spell_ne_settle

theorem Node.follow_reached {root : Node} :
    ∀ (links : Nat) (here parts names : List Text), Path.Spelled here → parts ≠ [] →
      (∀ part ∈ parts, '/' ∉ part) → root.layout.follow .spell links here parts = .ok names →
      root.Reached names
  | 0, here, parts, names, hhere, hne, hslash, h => by
    unfold Layout.follow at h
    refine Node.followWith_reached ?_ parts here names hhere (fun hnil => absurd hnil hne) hslash h
    intro here' parts' names' _ _ _ h'
    cases h'
  | links + 1, here, parts, names, hhere, hne, hslash, h => by
    unfold Layout.follow at h
    refine Node.followWith_reached ?_ parts here names hhere (fun hnil => absurd hnil hne) hslash h
    intro here' parts' names' hhere' hne' hslash' h'
    exact Node.follow_reached links here' parts' names' hhere' hne' hslash' h'

theorem FileSystem.checkPath_eq_ok_iff {p : Text} :
    FileSystem.checkPath p = .ok () ↔ '\x00' ∉ p ∧ p ≠ [] := by
  unfold FileSystem.checkPath
  by_cases hnul : '\x00' ∈ p
  · simp [hnul]
  · by_cases hnil : p = []
    · simp [hnil]
    · simp [hnul, hnil]

theorem Layout.canonicalize_of_absolute {layout : Layout} {directory : List Text} {p : Text}
    (hp : Path.isAbsolute p = true) (hnul : '\x00' ∉ p) :
    layout.canonicalize directory p = layout.follow .spell maxLinks [] (Path.parts p) := by
  have hne : p ≠ [] := by
    rintro rfl
    cases hp
  unfold Layout.canonicalize
  rw [FileSystem.checkPath_eq_ok_iff.2 ⟨hnul, hne⟩]
  simp only [hp, if_true]
  rfl

theorem FileSystem.follow_of_canonicalize {fs : FileSystem} {p : Text} {names : List Text}
    (hp : Path.isAbsolute p = true) (h : fs.canonicalize p = .ok names) :
    fs.root.layout.follow .spell maxLinks [] (Path.parts p) = .ok names := by
  rw [FileSystem.canonicalize_eq_layout] at h
  by_cases hnul : '\x00' ∈ p
  · have hcheck : FileSystem.checkPath p = .error .nulInPath := by
      simp [FileSystem.checkPath, hnul]
    unfold Layout.canonicalize at h
    rw [hcheck] at h
    cases h
  · rw [← h, Layout.canonicalize_of_absolute hp hnul]

/-- The resolved form of an absolute path leads by names to a node that is no link. -/
theorem FileSystem.canonicalize_reached {fs : FileSystem} {p : Text} {names : List Text}
    (hp : Path.isAbsolute p = true) (h : fs.canonicalize p = .ok names) : fs.root.Reached names := by
  refine Node.follow_reached maxLinks [] _ names Path.Spelled.nil (splitOn_ne_nil _ _) ?_
    (FileSystem.follow_of_canonicalize hp h)
  intro part hpart
  exact notMem_of_mem_splitOn hpart

/-- No way leads on from what is no directory. -/
theorem Layout.eq_nil_of_followWith {layout : Layout} {purpose : Purpose} {here parts names : List Text}
    {onLink : List Text → List Text → Except FileFault (List Text)}
    (hdir : layout here ≠ some .directory)
    (h : layout.followWith purpose onLink here parts = .ok names) : parts = [] := by
  cases parts with
  | nil => rfl
  | cons part rest =>
    obtain ⟨f, hf⟩ : ∃ f, layout.move purpose here part rest = .fault f := by
      unfold Layout.move
      rw [if_pos hdir]
      split
      · exact ⟨_, rfl⟩
      · exact ⟨_, rfl⟩
    unfold Layout.followWith at h
    rw [hf] at h
    cases h

/-- Nothing can be resolved from a root that is no directory. -/
theorem FileSystem.root_directory {fs : FileSystem} {p : Text} {names : List Text}
    (h : fs.canonicalize p = .ok names) : fs.root.layout [] = some .directory := by
  refine Decidable.byContradiction fun hdir => ?_
  have hstuck : fs.root.layout.follow .spell maxLinks [] (Path.parts p) ≠ .ok names := fun hfollow =>
    splitOn_ne_nil '/' p (Layout.eq_nil_of_followWith hdir hfollow)
  rw [FileSystem.canonicalize_eq_layout] at h
  unfold Layout.canonicalize at h
  cases hcheck : FileSystem.checkPath p with
  | error fault =>
    rw [hcheck] at h
    cases h
  | ok u =>
    rw [hcheck] at h
    simp only [bind, Except.bind] at h
    split at h
    · exact hstuck h
    split at h
    · cases h
    rename_i hworking
    -- a relative path begins at the root, or the root is on the way to where it begins
    by_cases hnil : fs.workingDirectory = []
    · rw [hnil] at h
      exact hstuck h
    · exact hdir (Node.layout_of_append (a := []) hworking hnil)

/-! ## Canonical paths are resolved to themselves -/

theorem Path.isAbsolute_render (names : List Text) : Path.isAbsolute (Path.render names) = true := by
  cases names with
  | nil => rfl
  | cons name names => rfl

theorem Path.splitOn_slashes : ∀ {names : List Text} {a : Text}, '/' ∉ a → (∀ name ∈ names, '/' ∉ name) →
    splitOn '/' (a ++ names.flatMap fun n => '/' :: n) = a :: names
  | [], a, ha, _ => by simpa using splitOn_of_notMem ha
  | name :: names, a, ha, h => by
    have ih := Path.splitOn_slashes (h name (by simp)) fun n hn => h n (List.mem_cons_of_mem _ hn)
    rw [List.flatMap_cons, List.cons_append, splitOn_append_sep _ ha, ih]

/-- A resolved path begins with an empty part, and so does the root, which has another. -/
theorem Path.parts_render {names : List Text} (h : ∀ name ∈ names, '/' ∉ name) :
    Path.parts (Path.render names) = [] :: if names = [] then [[]] else names := by
  cases names with
  | nil => rfl
  | cons name names =>
    have hsplit := Path.splitOn_slashes (a := []) (by simp) h
    simpa [Path.parts, Path.render] using hsplit

theorem Path.asksDirectory_eq_false {names : List Text} (h : ∀ name ∈ names, Path.isName name = true) :
    Path.asksDirectory names = false := by
  cases names with
  | nil => rfl
  | cons name names =>
    obtain ⟨hne, hdot, hdots⟩ := Path.isName_iff.1 (h name (by simp))
    unfold Path.asksDirectory
    simp_all

theorem Node.move_name {root : Node} {here rest : List Text} {name : Text}
    (h : root.Reached (here ++ name :: rest)) :
    root.layout.move .spell here name rest = .goOn (here ++ [name]) := by
  obtain ⟨hspelled, kind, hkind, hlink⟩ := h
  have hname := (hspelled.proper name (by simp)).1
  have hbytes := hspelled.nameBytes name (by simp)
  have hdir : root.layout here = some .directory :=
    Node.layout_of_append (by rw [hkind]; simp) (List.cons_ne_nil name rest)
  -- the entry is the node at the end, or a directory on the way to it
  have hentry : ∃ k, root.layout (here ++ [name]) = some k ∧ ∀ target, k ≠ .link target := by
    rw [List.append_cons] at hkind
    by_cases hrest : rest = []
    · rw [hrest, List.append_nil] at hkind
      exact ⟨kind, hkind, hlink⟩
    · exact ⟨.directory, Node.layout_of_append (by rw [hkind]; simp) hrest, by simp⟩
  obtain ⟨k, hk, hnotLink⟩ := hentry
  have hpath : Path.isTooLong (Path.render (here ++ [name])) = false :=
    hspelled.pathBytes _ ⟨rest, by simp⟩ (by simp)
  have hasks : Path.asksDirectory rest = false :=
    Path.asksDirectory_eq_false fun n hn => (hspelled.proper n (by simp [hn])).1
  have hshort : root.layout.entryTooLong here name rest = false := by
    unfold Layout.entryTooLong
    rw [hk]
    cases k with
    | link target => exact hpath
    | file => simpa [hasks] using hpath
    | directory => simpa [hasks] using hpath
  obtain ⟨hne, hdot, hdots⟩ := Path.isName_iff.1 hname
  unfold Layout.move
  simp only [hshort, hdir, hk, hne, hdot, hdots, beq_iff_eq, Bool.and_false, Bool.or_eq_true, or_self,
    ne_eq, not_true_eq_false, if_false, Bool.false_eq_true, Nat.not_lt.2 hbytes]
  cases k with
  | link target => exact absurd rfl (hnotLink target)
  | file => rfl
  | directory => rfl

theorem Node.followWith_names {root : Node}
    {onLink : List Text → List Text → Except FileFault (List Text)} :
    ∀ (rest here : List Text), root.Reached (here ++ rest) →
      root.layout.followWith .spell onLink here rest = .ok (here ++ rest)
  | [], here, _ => by simp [Layout.followWith]
  | name :: rest, here, h => by
    unfold Layout.followWith
    rw [Node.move_name h]
    rw [List.append_cons] at h
    simpa using Node.followWith_names rest (here ++ [name]) h

/-- Names that lead to a node that is no link are their own resolved form. -/
theorem FileSystem.canonicalize_render {fs : FileSystem} {names : List Text}
    (h : fs.root.Reached names) (hdir : fs.root.layout [] = some .directory)
    (hnul : '\x00' ∉ Path.render names) : fs.canonicalize (Path.render names) = .ok names := by
  have hstay : ∀ rest, fs.root.layout.move .spell [] [] rest = .goOn [] := by
    intro rest
    simp [Layout.move, hdir, Path.isName]
  rw [FileSystem.canonicalize_eq_layout,
    Layout.canonicalize_of_absolute (Path.isAbsolute_render names) hnul,
    Path.parts_render fun name hname => (h.1.proper name hname).2]
  unfold maxLinks Layout.follow Layout.followWith
  simp only [hstay]
  by_cases hnil : names = []
  · simp [hnil, Layout.followWith, hstay]
  · rw [if_neg hnil]
    exact Node.followWith_names names [] h

end ToolCatalog
