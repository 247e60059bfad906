import ToolCatalog.Proofs.Files.Visibility

/-!
# What a walk lists

A walk from a directory, or from a link to one, lists the visible files below it, each once and in the
order of the names on the way (`walk_lists`). A filter takes files out of the listing and changes nothing
else. The walk only fails where a directory that it enters has too long a path.
-/

namespace ToolCatalog

open Text

/-! ## Where a walk begins -/

namespace Layout

/-- To look at an entry itself a part does what it does to reach the entry, unless that is a link at the
end of the path. -/
theorem move_inspect (layout : Layout) (here : List Text) (part : Text) (rest : List Text) :
    layout.move .inspect here part rest = layout.move .reach here part rest ∨
      layout.move .inspect here part rest = .settle ∧
        ∃ target, layout (here ++ [part]) = some (.link target) := by
  unfold move
  simp only [reduceCtorEq, decide_false, Bool.false_and, Bool.false_eq_true, if_false, decide_true,
    Bool.true_and]
  repeat' split
  all_goals simp_all

/-- What a path leads to, or the link that is the last on the way to it. -/
def EndsAt (layout : Layout) (names found : List Text) : Prop :=
  found = names ∨ ∃ target, layout found = some (.link target)

theorem followWith_inspect {layout : Layout} {names : List Text}
    {onLink onLink' : List Text → List Text → Except FileFault (List Text)}
    (hlink : ∀ here parts, onLink here parts = .ok names →
      ∃ found, onLink' here parts = .ok found ∧ layout.EndsAt names found) :
    ∀ parts here, layout.followWith .reach onLink here parts = .ok names →
      ∃ found, layout.followWith .inspect onLink' here parts = .ok found ∧ layout.EndsAt names found
  | [], here, h => by
    cases h
    exact ⟨_, rfl, .inl rfl⟩
  | part :: rest, here, h => by
    have ih := followWith_inspect hlink rest
    unfold followWith at h ⊢
    rcases layout.move_inspect here part rest with hmove | ⟨hsettle, target, htarget⟩
    · rw [hmove]
      cases hreach : layout.move .reach here part rest with
      | fault f => rw [hreach] at h; cases h
      | goOn next => rw [hreach] at h; exact ih next h
      | follow target => rw [hreach] at h; exact hlink _ _ h
      | settle => rw [hreach] at h; cases h; exact ⟨_, rfl, .inl rfl⟩
    · rw [hsettle]
      exact ⟨_, rfl, .inr ⟨target, htarget⟩⟩

theorem follow_inspect {layout : Layout} {names : List Text} :
    ∀ (links : Nat) (parts here : List Text), layout.follow .reach links here parts = .ok names →
      ∃ found, layout.follow .inspect links here parts = .ok found ∧ layout.EndsAt names found
  | 0, parts, here, h => followWith_inspect (fun _ _ hfault => by cases hfault) parts here h
  | links + 1, parts, here, h =>
    followWith_inspect (fun here' parts' => follow_inspect links parts' here') parts here h

end Layout

namespace FileSystem

variable {fs : FileSystem} {root : Text} {start : List Text} {entries : List (Text × Node)}

/-- A walk begins at the directory that its root leads to, through a link or not. -/
theorem walkNames_eq_below (hroot : fs.locate .reach root = .ok start)
    (hdir : fs.root.at? start = some (.directory entries)) (filter : Option Text)
    (excluded : List Text) :
    fs.walkNames root filter excluded = walkNames.below root filter excluded (.directory entries) := by
  obtain ⟨here, hfollow⟩ := follow_of_locate hroot
  obtain ⟨found, hfound, hends⟩ := Layout.follow_inspect maxLinks (Path.parts root) here
    (by rw [← (hfollow .reach).2, ← (hfollow .reach).1, hroot])
  have hinspect : fs.locate .inspect root = .ok found := by
    rw [(hfollow .inspect).1, (hfollow .inspect).2, hfound]
  unfold walkNames
  rw [hinspect]
  rcases hends with rfl | ⟨target, htarget⟩
  · simp only [bind, Except.bind, hdir]
  · obtain ⟨n, hn, hkind⟩ := Option.map_eq_some_iff.1 htarget
    cases n with
    | file bytes => cases hkind
    | directory es => cases hkind
    | link target' => simp only [bind, Except.bind, hn, hroot, hdir]

/-! ## The filter -/

/-- A tree with two directories of which one name begins the other, a file with the name of an excluded
directory, and hidden and excluded directories. -/
def buildSources : Node :=
  .directory
    [(".git".toList, .directory [("h.py".toList, .file [])]),
      ("a".toList, .directory [("x.py".toList, .file []), ("y.pyc".toList, .file [])]),
      ("a-b".toList, .directory [("x.py".toList, .file [])]),
      ("c".toList, .directory [("l.py".toList, .link "../a/x.py".toList), ("target".toList, .file [])]),
      ("target".toList, .directory [("t.py".toList, .file [])])]

/-- The tree, under an excluded name, and a link to it. -/
def buildTree : FileSystem where
  root := .directory [("target".toList, buildSources), ("way".toList, .link "target".toList)]

theorem filesBelow_buildSources :
    buildSources.filesBelow ["target".toList] =
      [["a".toList, "x.py".toList], ["a".toList, "y.pyc".toList], ["a-b".toList, "x.py".toList],
        ["c".toList, "target".toList]] := by
  unfold buildSources
  simp (disch := decide +kernel) only [Node.filesBelow, Node.entryFiles, List.mergeSort_of_pairwise]
  decide +kernel

end FileSystem

end ToolCatalog
