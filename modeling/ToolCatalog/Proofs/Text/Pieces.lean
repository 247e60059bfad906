import ToolCatalog.Text.Basic

/-!
# Pieces of a text

What splitting at a character gives: pieces that do not hold it (`notMem_of_mem_splitOn`), the pieces of
both sides for a text around the character (`splitOn_append`), and for a text that was put together from
such pieces the pieces again (`splitOn_append_sep`, `splitOn_of_notMem`).
-/

namespace ToolCatalog.Text

/-- Splitting a text with one more character in front that is not split at. -/
theorem splitOn_cons_ne {sep c : Char} (h : c ≠ sep) (s : Text) :
    ∃ piece rest, splitOn sep s = piece :: rest ∧ splitOn sep (c :: s) = (c :: piece) :: rest := by
  cases hs : splitOn sep s with
  | nil => exact absurd hs (splitOn_ne_nil sep s)
  | cons piece rest => exact ⟨piece, rest, rfl, by simp [splitOn, h, hs]⟩

theorem splitOn_of_notMem {sep : Char} : ∀ {s : Text}, sep ∉ s → splitOn sep s = [s]
  | [], _ => rfl
  | c :: s, h => by
    rw [List.mem_cons, not_or] at h
    obtain ⟨piece, rest, hs, hcs⟩ := splitOn_cons_ne (Ne.symm h.1) s
    rw [splitOn_of_notMem h.2] at hs
    cases hs
    exact hcs

/-- A text is cut at every separator, so what stands on both sides of one is cut by itself. -/
theorem splitOn_append (sep : Char) (t : Text) :
    ∀ s : Text, splitOn sep (s ++ sep :: t) = splitOn sep s ++ splitOn sep t
  | [] => by simp [splitOn]
  | c :: s => by
    have ih := splitOn_append sep t s
    by_cases hc : c = sep
    · rw [List.cons_append, hc, splitOn, splitOn, ih]
      simp
    · obtain ⟨piece, pieces, hpieces, hcut⟩ := splitOn_cons_ne hc s
      obtain ⟨piece', pieces', hpieces', hcut'⟩ := splitOn_cons_ne hc (s ++ sep :: t)
      rw [hpieces, hpieces', List.cons_append, List.cons.injEq] at ih
      rw [List.cons_append, hcut', hcut, ih.1, ih.2, List.cons_append]

theorem splitOn_append_sep {sep : Char} (s : Text) {a : Text} (h : sep ∉ a) :
    splitOn sep (a ++ sep :: s) = a :: splitOn sep s := by
  rw [splitOn_append, splitOn_of_notMem h, List.singleton_append]

/-- No piece holds the character that was split at. -/
theorem notMem_of_mem_splitOn {sep : Char} :
    ∀ {s piece : Text}, piece ∈ splitOn sep s → sep ∉ piece
  | [], piece, h => by
    rw [splitOn, List.mem_singleton] at h
    simp [h]
  | c :: s, piece, h => by
    by_cases hc : c = sep
    · rw [splitOn, if_pos hc] at h
      rcases List.mem_cons.1 h with rfl | h
      · simp
      · exact notMem_of_mem_splitOn h
    · obtain ⟨first, rest, hs, hcs⟩ := splitOn_cons_ne hc s
      rw [hcs] at h
      rcases List.mem_cons.1 h with rfl | h
      · have hfirst : sep ∉ first := notMem_of_mem_splitOn (by rw [hs]; simp)
        simp [Ne.symm hc, hfirst]
      · exact notMem_of_mem_splitOn (by rw [hs]; simp [h])

end ToolCatalog.Text
