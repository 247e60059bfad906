import ToolCatalog.Proofs.Files.Canonical

/-!
# Valid trees

A file tree is valid if it could be on a disk: the entries of each directory have names of their own,
these are names, and the path to each node is short enough to be handed over. In a valid tree it makes
no difference whether a path is followed to reach a node or to spell out the way to it, since no entry
on the way is asked for by a path that is too long (`reach_of_locate`).
-/

namespace ToolCatalog

open Text

/-- A text that can name an entry of a directory. -/
def Path.EntryName (name : Text) : Prop :=
  Path.isName name = true ∧ '/' ∉ name ∧ '\x00' ∉ name ∧ (Utf8.encode name).length ≤ maxNameBytes

instance (name : Text) : Decidable (Path.EntryName name) :=
  inferInstanceAs (Decidable (_ ∧ _))

namespace Node

mutual

/-- A tree that can stand at a resolved path. The path of a directory has a slash behind it, as it must
have for anything in the directory to be asked for. -/
def Valid (here : List Text) : Node → Prop
  | .file _ | .link _ => Path.isTooLong (Path.render here) = false
  | .directory entries => Path.isTooLong (Path.render here ++ "/") = false ∧ ValidEntries here entries

/-- Entries that can stand in the directory at a resolved path. -/
def ValidEntries (here : List Text) : List (Text × Node) → Prop
  | [] => True
  | (name, n) :: entries =>
    Path.EntryName name ∧ name ∉ Fields.keys entries ∧ n.Valid (here ++ [name]) ∧
      ValidEntries here entries

end

mutual

/-- Whether a tree is valid. -/
def decideValid (here : List Text) : (n : Node) → Decidable (n.Valid here)
  | .file _ | .link _ => inferInstanceAs (Decidable (_ = false))
  | .directory entries =>
    have := decideValidEntries here entries
    inferInstanceAs (Decidable (_ ∧ _))

/-- Whether the entries of a directory are valid. -/
def decideValidEntries (here : List Text) :
    (entries : List (Text × Node)) → Decidable (ValidEntries here entries)
  | [] => inferInstanceAs (Decidable True)
  | (name, n) :: entries =>
    have := decideValid (here ++ [name]) n
    have := decideValidEntries here entries
    inferInstanceAs (Decidable (_ ∧ _ ∧ _ ∧ _))

end

instance (here : List Text) (n : Node) : Decidable (n.Valid here) := decideValid here n

/-! ## Nodes of a valid tree -/

theorem Valid.isTooLong {here : List Text} {n : Node} (h : n.Valid here) :
    Path.isTooLong (Path.render here) = false := by
  cases n with
  | file bytes => exact h
  | link target => exact h
  | directory entries => exact Path.isTooLong_of_append _ h.1

theorem ValidEntries.get? {here : List Text} {name : Text} {n : Node} :
    ∀ {entries : List (Text × Node)}, ValidEntries here entries → Fields.get? name entries = some n →
      Path.EntryName name ∧ n.Valid (here ++ [name])
  | (k, m) :: entries, ⟨hk, _, hm, hentries⟩, hget => by
    unfold Fields.get? at hget
    split at hget
    · rename_i heq
      cases hget
      exact heq ▸ ⟨hk, hm⟩
    · exact hentries.get? hget

theorem ValidEntries.get?_of_mem {here : List Text} {name : Text} {n : Node} :
    ∀ {entries : List (Text × Node)}, ValidEntries here entries → (name, n) ∈ entries →
      Fields.get? name entries = some n
  | (k, m) :: entries, ⟨_, hfresh, _, hentries⟩, hmem => by
    unfold Fields.get?
    rcases List.mem_cons.1 hmem with heq | hmem
    · cases heq
      exact if_pos rfl
    · have hne : k ≠ name := by
        rintro rfl
        exact hfresh (List.mem_map.2 ⟨(k, n), hmem, rfl⟩)
      rw [if_neg hne]
      exact hentries.get?_of_mem hmem

/-- What names lead to in a valid tree. -/
theorem Valid.at? {n : Node} :
    ∀ {names here : List Text} {m : Node}, m.Valid here → m.at? names = some n →
      n.Valid (here ++ names) ∧ ∀ name ∈ names, Path.EntryName name
  | [], here, m, h, hn => by
    cases hn
    simpa using h
  | k :: names, here, .directory entries, h, hn => by
    obtain ⟨m, hget, hn⟩ := Option.bind_eq_some_iff.1 hn
    obtain ⟨hk, hm⟩ := h.2.get? hget
    obtain ⟨hvalid, hnames⟩ := hm.at? hn
    rw [List.append_assoc] at hvalid
    exact ⟨hvalid, List.forall_mem_cons.2 ⟨hk, hnames⟩⟩
  | _ :: _, _, .file _, _, hn => by cases hn
  | _ :: _, _, .link _, _, hn => by cases hn

theorem at?_of_isPrefix {root n : Node} {q names : List Text} (h : root.at? names = some n)
    (hq : q <+: names) : ∃ m, root.at? q = some m := by
  obtain ⟨rest, rfl⟩ := hq
  rw [at?_append] at h
  obtain ⟨m, hm, -⟩ := Option.bind_eq_some_iff.1 h
  exact ⟨m, hm⟩

/-- Every path in a valid tree can be asked for name by name. -/
theorem Valid.spelled {root n : Node} {names : List Text} (h : root.Valid [])
    (hn : root.at? names = some n) : Path.Spelled names where
  proper := fun name hname => ⟨((h.at? hn).2 name hname).1, ((h.at? hn).2 name hname).2.1⟩
  nameBytes := fun name hname => ((h.at? hn).2 name hname).2.2.2
  pathBytes := by
    intro q hq _
    obtain ⟨m, hm⟩ := at?_of_isPrefix hn hq
    exact (h.at? hm).1.isTooLong

end Node

theorem Path.nul_notMem_render {names : List Text} (h : ∀ name ∈ names, '\x00' ∉ name) :
    '\x00' ∉ Path.render names := by
  unfold Path.render
  split
  · decide
  · intro hmem
    obtain ⟨name, hname, hc⟩ := List.mem_flatMap.1 hmem
    rcases List.mem_cons.1 hc with hc | hc
    · exact absurd hc (by decide)
    · exact h name hname hc

/-! ## What one part does, whatever it is for -/

namespace Layout

variable {layout : Layout} {purpose : Purpose} {here names rest : List Text} {part target : Text}

theorem move_goOn (h : layout.move purpose here part rest = .goOn names)
    (hname : Path.isName part = true) :
    names = here ++ [part] ∧ ∃ kind, layout names = some kind ∧ ∀ target, kind ≠ .link target := by
  obtain ⟨hne, hdot, hdots⟩ := Path.isName_iff.1 hname
  unfold move at h
  simp only [hne, hdot, hdots, beq_iff_eq, Bool.or_eq_true, or_self, if_false] at h
  repeat' split at h
  all_goals cases h
  rename_i kind hlink hkind
  exact ⟨rfl, kind, hkind, fun target htarget => hlink target (by rw [htarget])⟩

theorem move_follow (h : layout.move purpose here part rest = .follow target) :
    layout (here ++ [part]) = some (.link target) := by
  unfold move at h
  repeat' split at h
  all_goals cases h
  assumption

/-- Only a link that is looked at itself, or an entry that is about to be made, is settled for. -/
theorem move_settle (h : layout.move purpose here part rest = .settle) :
    purpose = .write ∨ ∃ target, layout (here ++ [part]) = some (.link target) := by
  unfold move at h
  repeat' split at h
  all_goals cases h
  · rename_i hwrite
    rw [Bool.and_eq_true, decide_eq_true_eq] at hwrite
    exact .inl hwrite.1
  · rename_i target hlink _
    exact .inr ⟨target, hlink⟩

/-- Where an entry is not too long to be asked for, a part does the same for every purpose that reaches
a node. -/
theorem move_eq_move {purpose' : Purpose} (hwrite : purpose ≠ .write)
    (hpurpose : purpose' = .reach ∨ purpose' = .spell)
    (hshort : Path.isName part = true → layout.entryTooLong here part rest = false)
    (hsettle : layout.move purpose here part rest ≠ .settle) :
    layout.move purpose' here part rest = layout.move purpose here part rest := by
  have hlong : (Path.isName part && layout.entryTooLong here part rest) = false := by
    cases hname : Path.isName part with
    | false => rfl
    | true => exact hshort hname
  have hneither : purpose' ≠ .write ∧ purpose' ≠ .inspect := by
    rcases hpurpose with rfl | rfl <;> simp
  unfold move at hsettle ⊢
  simp only [Bool.and_assoc, hlong, hwrite, hneither.1, hneither.2, Bool.and_false, Bool.false_and,
    decide_false, Bool.false_eq_true, if_false] at hsettle ⊢
  repeat' split
  all_goals simp_all

end Layout

/-! ## Whole paths -/

namespace Node

/-- In a valid tree no entry that is there is too long to be asked for, unless a directory is asked for
where a file is. -/
theorem Valid.entryTooLong {root : Node} (h : root.Valid []) {here rest : List Text} {part : Text}
    {kind : NodeKind} (hkind : root.layout (here ++ [part]) = some kind)
    (hfile : kind = .file → rest = []) : root.layout.entryTooLong here part rest = false := by
  obtain ⟨n, hn, rfl⟩ := Option.map_eq_some_iff.1 hkind
  have hvalid := (h.at? hn).1
  unfold Layout.entryTooLong
  rw [hkind]
  cases n with
  | link target => exact hvalid.isTooLong
  | file bytes =>
    rw [hfile rfl]
    exact hvalid.isTooLong
  | directory entries =>
    simp only [kind]
    split
    · exact hvalid.1
    · exact hvalid.isTooLong

section

variable {root : Node} {purpose purpose' : Purpose} {names : List Text}

/-- What a run leads to, if it is no link, another run leads to whose links lead on alike. -/
theorem Valid.followWith_of_followWith (h : root.Valid []) (hwrite : purpose ≠ .write)
    (hpurpose : purpose' = .reach ∨ purpose' = .spell)
    (hnames : ∀ target, root.layout names ≠ some (.link target))
    {onLink onLink' : List Text → List Text → Except FileFault (List Text)}
    (hlink : ∀ here parts, onLink here parts = .ok names → onLink' here parts = .ok names) :
    ∀ parts here, root.layout.followWith purpose onLink here parts = .ok names →
      root.layout.followWith purpose' onLink' here parts = .ok names
  | [], _, hfollow => hfollow
  | part :: rest, here, hfollow => by
    have ih := Valid.followWith_of_followWith h hwrite hpurpose hnames hlink rest
    unfold Layout.followWith at hfollow ⊢
    cases hmove : root.layout.move purpose here part rest with
    | fault f =>
      rw [hmove] at hfollow
      cases hfollow
    | goOn next =>
      rw [hmove] at hfollow
      -- in a valid tree no entry has too long a path, so the two purposes differ only at the end
      have hshort : Path.isName part = true → root.layout.entryTooLong here part rest = false := by
        intro hname
        obtain ⟨rfl, kind, hkind, -⟩ := Layout.move_goOn hmove hname
        refine h.entryTooLong hkind fun hfile => Layout.eq_nil_of_followWith ?_ hfollow
        rw [hkind, hfile]
        simp
      rw [Layout.move_eq_move hwrite hpurpose hshort (by rw [hmove]; simp), hmove]
      exact ih next hfollow
    | follow target =>
      rw [hmove] at hfollow
      have hshort : root.layout.entryTooLong here part rest = false :=
        h.entryTooLong (Layout.move_follow hmove) (by simp)
      rw [Layout.move_eq_move hwrite hpurpose (fun _ => hshort) (by rw [hmove]; simp), hmove]
      exact hlink _ _ hfollow
    | settle =>
      rw [hmove] at hfollow
      cases hfollow
      rcases Layout.move_settle hmove with hw | ⟨target, htarget⟩
      · exact absurd hw hwrite
      · exact absurd htarget (hnames target)

theorem Valid.follow_of_follow (h : root.Valid []) (hwrite : purpose ≠ .write)
    (hpurpose : purpose' = .reach ∨ purpose' = .spell)
    (hnames : ∀ target, root.layout names ≠ some (.link target)) :
    ∀ (links : Nat) (parts here : List Text),
      root.layout.follow purpose links here parts = .ok names →
      root.layout.follow purpose' links here parts = .ok names
  | 0, parts, here, hfollow =>
    h.followWith_of_followWith hwrite hpurpose hnames (fun _ _ => id) parts here hfollow
  | links + 1, parts, here, hfollow =>
    h.followWith_of_followWith hwrite hpurpose hnames
      (fun here' parts' => h.follow_of_follow hwrite hpurpose hnames links parts' here')
      parts here hfollow

end

end Node

namespace FileSystem

/-- A path that leads somewhere begins in one place, whatever it is resolved for. -/
theorem follow_of_locate {fs : FileSystem} {purpose : Purpose} {p : Text} {names : List Text}
    (h : fs.locate purpose p = .ok names) :
    ∃ here, ∀ purpose', fs.locate purpose' p = fs.resolve purpose' p ∧
      fs.resolve purpose' p = fs.root.layout.follow purpose' maxLinks here (Path.parts p) := by
  unfold locate at h
  cases hlength : checkLength p with
  | error fault => rw [hlength] at h; cases h
  | ok u =>
    rw [hlength] at h
    unfold resolve at h
    cases hpath : checkPath p with
    | error fault => rw [hpath] at h; cases h
    | ok v =>
      rw [hpath] at h
      have hfrom : fs.followFrom purpose p (Path.parts p) = .ok names := h
      unfold followFrom at hfrom
      split at hfrom
      · rename_i t ht
        have hfollows : Trail.Follows fs.root t := by
          split at ht
          · cases ht; trivial
          · exact (Node.trail?_eq_some ht).1
        refine ⟨Trail.names t, fun purpose' => ⟨?_, ?_⟩⟩
        · unfold locate
          rw [hlength]
          rfl
        · unfold resolve followFrom
          rw [hpath, ht, ← Node.follow_eq_layout purpose' maxLinks _ t hfollows]
          rfl
      · cases hfrom

/-- What a path leads to in a valid tree, if it is no link, is reached and spelled out. -/
theorem reach_of_locate {fs : FileSystem} (hvalid : fs.root.Valid []) {purpose : Purpose} {p : Text}
    {names : List Text} {n : Node} (hwrite : purpose ≠ .write) (h : fs.locate purpose p = .ok names)
    (hn : fs.root.at? names = some n) (hlink : ∀ target, n ≠ .link target) :
    fs.locate .reach p = .ok names ∧ fs.canonicalize p = .ok names := by
  obtain ⟨here, hfollow⟩ := follow_of_locate h
  rw [(hfollow purpose).1, (hfollow purpose).2] at h
  have hnames : ∀ target, fs.root.layout names ≠ some (.link target) := by
    intro target htarget
    rw [Node.layout, hn] at htarget
    cases n with
    | link target' => exact hlink target' rfl
    | file bytes => cases htarget
    | directory entries => cases htarget
  have hreach := hvalid.follow_of_follow hwrite (.inl rfl) hnames maxLinks _ here h
  have hspell := hvalid.follow_of_follow hwrite (.inr rfl) hnames maxLinks _ here h
  rw [(hfollow .reach).1, (hfollow .reach).2]
  exact ⟨hreach, (hfollow .spell).2.trans hspell⟩

end FileSystem

end ToolCatalog
