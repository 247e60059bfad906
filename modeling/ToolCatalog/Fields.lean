import ToolCatalog.Text.Basic

/-!
# Fields in insertion order

A list of named values without repeated names. A new name goes to the end; a name that is already
there keeps its place and takes the new value. `keys_insert` says where names go, `get?_insert`
what a look-up finds afterwards, and `mem_iff_get?` that a look-up finds all there is.
-/

namespace ToolCatalog

/-- Named values in the order in which their names came first. -/
abbrev Fields (α : Type) := List (Text × α)

namespace Fields

variable {α : Type}

def keys (fs : Fields α) : List Text := fs.map (·.1)

def get? (k : Text) : Fields α → Option α
  | [] => none
  | (n, v) :: fs => if n = k then some v else get? k fs

def contains (k : Text) (fs : Fields α) : Bool := (get? k fs).isSome

/-- Puts a value under a name, in the name's place or at the end. -/
def insert (k : Text) (v : α) : Fields α → Fields α
  | [] => [(k, v)]
  | (n, w) :: fs => if n = k then (n, v) :: fs else (n, w) :: insert k v fs

/-- The fields of a list in which a name may come again: the first place and the last value count. -/
def ofList (l : List (Text × α)) : Fields α := l.foldl (fun fs p => insert p.1 p.2 fs) []

theorem contains_iff_mem_keys {k : Text} {fs : Fields α} : contains k fs = true ↔ k ∈ keys fs := by
  induction fs with
  | nil => simp [contains, get?, keys]
  | cons p fs ih =>
    obtain ⟨n, v⟩ := p
    simp only [contains, keys, get?, List.map_cons, List.mem_cons] at ih ⊢
    by_cases h : n = k
    · simp [h]
    · simp [h, ih, Ne.symm h]

/-- A new name goes to the end, a present one changes no name. -/
theorem keys_insert (k : Text) (v : α) (fs : Fields α) :
    keys (insert k v fs) = if k ∈ keys fs then keys fs else keys fs ++ [k] := by
  induction fs with
  | nil => simp [insert, keys]
  | cons p fs ih =>
    obtain ⟨n, w⟩ := p
    simp only [insert, keys, List.map_cons, List.mem_cons] at ih ⊢
    by_cases h : n = k
    · simp [h]
    · by_cases hk : k ∈ List.map (fun x => x.1) fs
      · simp only [hk, if_true] at ih
        simp [h, hk, ih]
      · simp only [hk, if_false] at ih
        simp only [h, if_false, List.map_cons, ih, Ne.symm h, false_or, hk, List.cons_append]

theorem get?_insert (k j : Text) (v : α) (fs : Fields α) :
    get? j (insert k v fs) = if k = j then some v else get? j fs := by
  induction fs with
  | nil => simp [insert, get?]
  | cons p fs ih =>
    obtain ⟨n, w⟩ := p
    by_cases h : n = k
    · subst h
      by_cases hj : n = j <;> simp [insert, get?, hj]
    · by_cases hj : n = j
      · subst hj
        simp [insert, get?, h, Ne.symm h]
      · simp [insert, get?, h, hj, ih]

/-- Insertion keeps names distinct. -/
theorem nodup_keys_insert (k : Text) (v : α) {fs : Fields α} (h : (keys fs).Nodup) :
    (keys (insert k v fs)).Nodup := by
  rw [keys_insert]
  split
  · exact h
  · next hk =>
    rw [List.nodup_append]
    refine ⟨h, by simp, ?_⟩
    intro a ha b hb
    simp only [List.mem_singleton] at hb
    subst hb
    exact fun e => hk (e ▸ ha)

/-- What is found after an insertion is the new value or was there before. -/
theorem mem_insert {k n : Text} {v w : α} :
    ∀ {fs : Fields α}, (n, w) ∈ insert k v fs → (n, w) = (k, v) ∨ (n, w) ∈ fs
  | [], h => .inl (List.mem_singleton.1 h)
  | (j, u) :: fs, h => by
    unfold insert at h
    split at h
    · rename_i hj
      rcases List.mem_cons.1 h with h | h
      · exact .inl (hj ▸ h)
      · exact .inr (List.mem_cons_of_mem _ h)
    · rcases List.mem_cons.1 h with h | h
      · exact .inr (h ▸ List.mem_cons_self)
      · exact (mem_insert h).imp_right (List.mem_cons_of_mem _)

/-- Where no name comes twice, a look-up finds every field. -/
theorem mem_iff_get? {k : Text} {v : α} :
    ∀ {fs : Fields α}, (keys fs).Nodup → ((k, v) ∈ fs ↔ get? k fs = some v)
  | [], _ => by simp [get?]
  | (n, w) :: fs, h => by
    obtain ⟨hn, hfs⟩ := List.nodup_cons.1 h
    have ih : (k, v) ∈ fs ↔ get? k fs = some v := mem_iff_get? hfs
    unfold get?
    by_cases hk : n = k
    · have hnot : (k, v) ∉ fs := by
        intro hmem
        exact hn (List.mem_map.2 ⟨(k, v), hmem, hk.symm⟩)
      simp [hk, hnot, eq_comm]
    · simp [hk, Ne.symm hk, ih]

end Fields

end ToolCatalog
