import ToolCatalog.Proofs.Files.Canonical
import ToolCatalog.Proofs.Files.Validity

/-!
# A write changes one file

A path that is resolved for writing ends at a directory, or in a directory at a place with a file or with
nothing (`follow_write_target`). In that place a write puts its bytes, and it leaves what stands at every
other resolved path as it was (`surfaceAt_put`). Afterwards the path leads there
(`follow_reach_of_write`), so that a write that succeeds is read back and touches nothing else
(`write_eq_ok`).
-/

namespace ToolCatalog

open Text

namespace Node

/-! ## What stands at a resolved path -/

/-- A node without what is below it. -/
def surface : Node → Node
  | .directory _ => .directory []
  | n => n

/-- What stands at a resolved path: a file with its bytes, a link with its target, a directory, or
nothing. -/
def surfaceAt (root : Node) (names : List Text) : Option Node := (root.at? names).map surface

theorem layout_eq_surfaceAt (root : Node) (names : List Text) :
    root.layout names = (root.surfaceAt names).map kind := by
  unfold layout surfaceAt
  cases root.at? names with
  | none => rfl
  | some n => cases n <;> rfl

/-- The place of a new file: nothing or a file stands there. -/
def IsFree (root : Node) (names : List Text) : Prop :=
  root.layout names = none ∨ root.layout names = some .file

section

variable {entries : List (Text × Node)} {j : Text} {names : List Text}

theorem surfaceAt_cons : (Node.directory entries).surfaceAt (j :: names) =
    (Fields.get? j entries).bind fun n => n.surfaceAt names := by
  unfold surfaceAt
  rw [at?, Option.map_bind]
  rfl

theorem layout_cons : (Node.directory entries).layout (j :: names) =
    (Fields.get? j entries).bind fun n => n.layout names := by
  unfold layout
  rw [at?, Option.map_bind]
  rfl

theorem layout_cons_eq_some {k : NodeKind} (h : (Node.directory entries).layout (j :: names) = some k) :
    ∃ n, Fields.get? j entries = some n ∧ n.layout names = some k :=
  Option.bind_eq_some_iff.1 (layout_cons.symm.trans h)

/-- Below a free place there is nothing. -/
theorem IsFree.surfaceAt_append {root : Node} (h : root.IsFree names) (rest : List Text)
    (hrest : rest ≠ []) : root.surfaceAt (names ++ rest) = none := by
  cases hlayout : root.layout (names ++ rest) with
  | none => exact Option.map_eq_none_iff.1 ((layout_eq_surfaceAt _ _).symm.trans hlayout)
  | some kind =>
    have hdir := layout_of_append (by rw [hlayout]; simp) hrest
    rcases h with h | h <;> rw [h] at hdir <;> cases hdir

end

/-! ## A new file in its place -/

theorem at?_put (new : Node) (k : Text) :
    ∀ {names : List Text} {root : Node}, root.layout names = some .directory →
      (put new (names ++ [k]) root).at? (names ++ [k]) = some new
  | [], .directory entries, _ => by simp [put, at?, Fields.get?_insert]
  | j :: names, .directory entries, h => by
    obtain ⟨n, hget, hn⟩ := layout_cons_eq_some h
    simp [put, at?, Fields.get?_insert, hget, at?_put new k hn]
  | [], .file _, h | [], .link _, h | _ :: _, .file _, h | _ :: _, .link _, h => by cases h

/-- A new file in a free place of a directory changes nothing at any other place. -/
theorem surfaceAt_put (bytes : List UInt8) (k : Text) :
    ∀ {names q : List Text} {root : Node}, root.layout names = some .directory →
      root.IsFree (names ++ [k]) → q ≠ names ++ [k] →
      (put (.file bytes) (names ++ [k]) root).surfaceAt q = root.surfaceAt q
  | [], [], .directory entries, _, _, _ => rfl
  | _ :: _, [], .directory entries, _, _, _ => rfl
  | [], i :: q, .directory entries, h, hfree, hq => by
    rw [List.nil_append, put, put, surfaceAt_cons, Fields.get?_insert]
    split
    · rename_i hki
      subst hki
      -- below the new file there is nothing, as there was nothing below its place
      cases q with
      | nil => exact absurd rfl hq
      | cons i q => exact (hfree.surfaceAt_append (i :: q) (by simp)).symm
    · exact surfaceAt_cons.symm
  | j :: names, i :: q, .directory entries, h, hfree, hq => by
    obtain ⟨n, hget, hn⟩ := layout_cons_eq_some h
    have hfree' : n.IsFree (names ++ [k]) := by
      unfold IsFree at hfree
      rwa [List.cons_append, layout_cons, hget] at hfree
    rw [List.cons_append, put, surfaceAt_cons, surfaceAt_cons, Fields.get?_insert]
    split
    · rename_i hji
      subst hji
      rw [hget]
      refine surfaceAt_put bytes k hn hfree' ?_
      rintro rfl
      exact hq rfl
    · rfl
  | [], _, .file _, h, _, _ | [], _, .link _, h, _, _ => by cases h
  | _ :: _, _, .file _, h, _, _ | _ :: _, _, .link _, h, _, _ => by cases h

/-! ## Where a path ends that is written to -/

/-- What a path for writing leads to: a directory, or a free place in one. -/
def WriteTarget (root : Node) (names : List Text) : Prop :=
  root.layout names = some .directory ∨
    ∃ above k, names = above ++ [k] ∧ root.layout above = some .directory ∧ root.IsFree names

theorem layout_dropLast {root : Node} {here : List Text} (h : root.layout here = some .directory) :
    root.layout here.dropLast = some .directory := by
  by_cases hnil : here = []
  · rwa [hnil] at h ⊢
  · rw [← List.dropLast_concat_getLast hnil] at h
    exact layout_of_append (by rw [h]; simp) (by simp)

/-- One part on the way: the way goes on at a place that could be written to, or ends there. -/
theorem move_write (root : Node) (here : List Text) (part : Text) (rest : List Text) :
    (∀ names, root.layout.move .write here part rest = .goOn names → root.WriteTarget names) ∧
    (root.layout.move .write here part rest = .settle → root.WriteTarget (here ++ [part])) := by
  unfold Layout.move
  simp only [reduceCtorEq, decide_false, Bool.false_and, Bool.false_eq_true, if_false, decide_true,
    Bool.true_and]
  by_cases hdir : root.layout here = some .directory
  · have hplace : root.IsFree (here ++ [part]) → root.WriteTarget (here ++ [part]) :=
      fun hfree => .inr ⟨here, part, rfl, hdir, hfree⟩
    rw [if_neg (not_not_intro hdir)]
    split
    · exact ⟨by rintro _ ⟨⟩; exact .inl hdir, by rintro ⟨⟩⟩
    split
    · exact ⟨by rintro _ ⟨⟩; exact .inl (layout_dropLast hdir), by rintro ⟨⟩⟩
    split
    · exact ⟨by rintro _ ⟨⟩, by rintro ⟨⟩⟩
    split
    · exact ⟨by rintro _ ⟨⟩, by rintro ⟨⟩⟩
    cases hentry : root.layout (here ++ [part]) with
    | none =>
      refine ⟨by intro names; simp only; split <;> rintro ⟨⟩, fun _ => hplace (.inl hentry)⟩
    | some kind =>
      cases kind with
      | link target => exact ⟨by rintro _ ⟨⟩, by rintro ⟨⟩⟩
      | file => exact ⟨by rintro _ ⟨⟩; exact hplace (.inr hentry), by rintro ⟨⟩⟩
      | directory => exact ⟨by rintro _ ⟨⟩; exact .inl hentry, by rintro ⟨⟩⟩
  · rw [if_pos hdir]
    exact ⟨by rintro _ ⟨⟩, by rintro ⟨⟩⟩

theorem followWith_write_target {root : Node}
    {onLink : List Text → List Text → Except FileFault (List Text)}
    (hlink : ∀ here parts names, parts ≠ [] → onLink here parts = .ok names → root.WriteTarget names) :
    ∀ (parts here names : List Text), (parts = [] → root.WriteTarget here) →
      root.layout.followWith .write onLink here parts = .ok names → root.WriteTarget names
  | [], here, names, hend, h => by
    cases h
    exact hend rfl
  | part :: rest, here, names, _, h => by
    have hmove := root.move_write here part rest
    unfold Layout.followWith at h
    split at h
    · cases h
    · rename_i next hm
      exact followWith_write_target hlink rest next names (fun _ => hmove.1 next hm) h
    · exact hlink _ _ names (by simp [Path.parts, splitOn_ne_nil]) h
    · rename_i hm
      cases h
      exact hmove.2 hm

/-- A path for writing ends at a directory, or at a free place in one. -/
theorem follow_write_target {root : Node} :
    ∀ (links : Nat) {parts here names : List Text}, parts ≠ [] →
      root.layout.follow .write links here parts = .ok names → root.WriteTarget names
  | 0, parts, here, names, hne, h =>
    followWith_write_target (by rintro _ _ _ _ ⟨⟩) parts here names (absurd · hne) h
  | links + 1, parts, here, names, hne, h =>
    followWith_write_target (fun _ _ _ => follow_write_target links) parts here names (absurd · hne) h

end Node

/-! ## The path after the write -/

namespace Layout

/-- The layout with a file at a resolved path. -/
def withFile (layout : Layout) (names : List Text) : Layout :=
  fun q => if q = names then some .file else layout q

section

variable {layout : Layout} {names : List Text} (hfree : layout names = none ∨ layout names = some .file)

include hfree

theorem withFile_eq_some {q : List Text} {kind : NodeKind} (h : layout q = some kind) :
    layout.withFile names q = some kind := by
  unfold withFile
  split
  · rename_i hq
    rw [hq] at h
    rcases hfree with hnone | hfile
    · rw [hnone] at h
      cases h
    · exact hfile.symm.trans h
  · exact h

/-- One part does the same to reach what has been written as it did to write it; where it ended at a
missing entry, it goes on there now. -/
theorem move_withFile {here rest : List Text} {part : Text} {m : Move}
    (h : layout.move .write here part rest = m) (hm : ∀ f, m ≠ .fault f) :
    (layout.withFile names).move .reach here part rest = m ∨
      m = .settle ∧ rest = [] ∧ (here ++ [part] = names →
        (layout.withFile names).move .reach here part rest = .goOn names) := by
  unfold move at h ⊢
  simp only [reduceCtorEq, decide_false, Bool.false_and, Bool.false_eq_true, if_false, decide_true,
    Bool.true_and] at h ⊢
  split at h
  · exact absurd h.symm (hm _)
  rename_i hdir
  rw [Decidable.not_not] at hdir
  -- the file has been put where nothing was, so what was a directory still is one
  rw [if_neg (not_not_intro (withFile_eq_some hfree hdir))]
  split at h
  · rename_i hdot
    exact .inl ((if_pos hdot).trans h)
  rename_i hdot
  rw [if_neg hdot]
  split at h
  · rename_i hdots
    exact .inl ((if_pos hdots).trans h)
  rename_i hdots
  rw [if_neg hdots]
  split at h
  · exact absurd h.symm (hm _)
  split at h
  · exact absurd h.symm (hm _)
  rename_i hbytes
  rw [if_neg hbytes]
  split at h
  · -- the missing entry at the end of the path: it is there afterwards
    split at h
    · rename_i hrest
      refine .inr ⟨h.symm, by simpa using hrest, ?_⟩
      rintro rfl
      simp [withFile]
    · exact absurd h.symm (hm _)
  · rename_i target hlink
    rw [withFile_eq_some hfree hlink]
    exact .inl h
  · rename_i kind hlink hkind
    rw [withFile_eq_some hfree hkind]
    cases kind with
    | link target => exact absurd rfl (hlink target)
    | file => exact .inl h
    | directory => exact .inl h

theorem followWith_withFile {onLink onLink' : List Text → List Text → Except FileFault (List Text)}
    (hlink : ∀ here parts, onLink here parts = .ok names → onLink' here parts = .ok names) :
    ∀ parts here, layout.followWith .write onLink here parts = .ok names →
      (layout.withFile names).followWith .reach onLink' here parts = .ok names
  | [], here, h => h
  | part :: rest, here, h => by
    have ih := followWith_withFile hlink rest
    unfold followWith at h ⊢
    cases hm : layout.move .write here part rest with
    | fault f => rw [hm] at h; cases h
    | goOn next =>
      rw [hm] at h
      rcases move_withFile hfree hm (by simp) with hmove | ⟨hsettle, -⟩
      · rw [hmove]
        exact ih next h
      · cases hsettle
    | follow target =>
      rw [hm] at h
      rcases move_withFile hfree hm (by simp) with hmove | ⟨hsettle, -⟩
      · rw [hmove]
        exact hlink _ _ h
      · cases hsettle
    | settle =>
      rw [hm] at h
      cases h
      rcases move_withFile hfree hm (by simp) with hmove | ⟨-, rfl, hmove⟩
      · rw [hmove]
      · rw [hmove rfl]
        rfl

/-- A path that has been written to leads to the file. -/
theorem follow_withFile :
    ∀ (links : Nat) {parts here : List Text}, layout.follow .write links here parts = .ok names →
      (layout.withFile names).follow .reach links here parts = .ok names
  | 0, parts, here, h => followWith_withFile hfree (by rintro _ _ ⟨⟩) parts here h
  | links + 1, parts, here, h =>
    followWith_withFile hfree (fun _ _ => follow_withFile links) parts here h

end

end Layout

namespace FileSystem

/-- Where the parts of a path are followed from. -/
def Begins (fs : FileSystem) (p : Text) (here : List Text) : Prop :=
  if Path.isAbsolute p then here = []
  else here = fs.workingDirectory ∧ fs.root.layout fs.workingDirectory ≠ none

theorem locate_eq_ok_iff {fs : FileSystem} {purpose : Purpose} {p : Text} {names : List Text} :
    fs.locate purpose p = .ok names ↔ checkLength p = .ok () ∧ checkPath p = .ok () ∧
      ∃ here, fs.Begins p here ∧
        fs.root.layout.follow purpose maxLinks here (Path.parts p) = .ok names := by
  unfold locate resolve Begins
  cases checkLength p with
  | error fault => simp [bind, Except.bind]
  | ok u =>
    cases checkPath p with
    | error fault => simp [bind, Except.bind]
    | ok u =>
      simp only [bind, Except.bind, followFrom_eq_layout]
      by_cases habs : Path.isAbsolute p = true
      · simp [habs]
      · by_cases hnone : fs.root.layout fs.workingDirectory = none
        · simp [habs, hnone]
        · simp [habs, hnone]

/-- A file system after another in which one file has been given its bytes: whatever stands at another
resolved path is the same in both. -/
structure WithFile (fs : FileSystem) (names : List Text) (bytes : List UInt8) (after : FileSystem) :
    Prop where
  workingDirectory : after.workingDirectory = fs.workingDirectory
  file : after.root.at? names = some (.file bytes)
  others : ∀ q, q ≠ names → after.root.surfaceAt q = fs.root.surfaceAt q

theorem WithFile.layout {fs after : FileSystem} {names : List Text} {bytes : List UInt8}
    (h : fs.WithFile names bytes after) : after.root.layout = fs.root.layout.withFile names := by
  funext q
  unfold Layout.withFile
  split
  · rename_i hq
    rw [hq, Node.layout, h.file]
    rfl
  · rename_i hq
    rw [Node.layout_eq_surfaceAt, Node.layout_eq_surfaceAt, h.others q hq]

theorem WithFile.begins {fs after : FileSystem} {names : List Text} {bytes : List UInt8}
    (h : fs.WithFile names bytes after) (hfree : fs.root.IsFree names) {p : Text} {here : List Text}
    (hbegins : fs.Begins p here) : after.Begins p here := by
  unfold Begins at hbegins ⊢
  split at hbegins
  · rwa [if_pos ‹_›]
  · rw [if_neg ‹_›, h.workingDirectory, h.layout]
    obtain ⟨kind, hkind⟩ := Option.ne_none_iff_exists'.1 hbegins.2
    exact ⟨hbegins.1, by rw [Layout.withFile_eq_some hfree hkind]; simp⟩

/-- A write that succeeds puts its bytes where the path leads then, and changes nothing else. -/
theorem write_eq_ok {fs after : FileSystem} {p : Text} {bytes : List UInt8}
    (h : fs.write p bytes = .ok after) :
    ∃ names, fs.locate .write p = .ok names ∧ after.locate .reach p = .ok names ∧
      fs.WithFile names bytes after := by
  unfold write at h
  cases hlocate : fs.locate .write p with
  | error fault => rw [hlocate] at h; cases h
  | ok names =>
    rw [hlocate] at h
    obtain ⟨hlength, hpath, here, hbegins, hfollow⟩ := locate_eq_ok_iff.1 hlocate
    simp only [bind, Except.bind] at h
    split at h
    · cases h
    rename_i hnode
    cases h
    rcases Node.follow_write_target maxLinks (splitOn_ne_nil _ _) hfollow with
      hdir | ⟨above, k, rfl, habove, hfree⟩
    · obtain ⟨n, hn, hkind⟩ := Option.map_eq_some_iff.1 hdir
      cases n with
      | file bytes => cases hkind
      | link target => cases hkind
      | directory entries => exact absurd hn (hnode entries)
    · have hwith : fs.WithFile (above ++ [k]) bytes
          { fs with root := Node.put (.file bytes) (above ++ [k]) fs.root } :=
        ⟨rfl, Node.at?_put _ k habove, fun q hq => Node.surfaceAt_put bytes k habove hfree hq⟩
      refine ⟨_, rfl, locate_eq_ok_iff.2 ⟨hlength, hpath, here, ?_, ?_⟩, hwith⟩
      · exact hwith.begins hfree hbegins
      · rw [hwith.layout]
        exact Layout.follow_withFile hfree maxLinks hfollow

/-- What has been written is read. -/
theorem read_of_locate {fs after : FileSystem} {p : Text} {names : List Text} {bytes : List UInt8}
    (hreach : after.locate .reach p = .ok names) (h : fs.WithFile names bytes after) :
    after.read p = .ok bytes := by
  unfold read readAt
  rw [hreach]
  simp only [bind, Except.bind, h.file]

end FileSystem

end ToolCatalog
