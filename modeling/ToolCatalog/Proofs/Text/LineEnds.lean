import Mathlib.Data.List.DropRight
import ToolCatalog.Proofs.Text.Trimming

/-!
# Ends of lines

The bare lines of a text are its lines without trailing blanks, up to the last one that is not blank.
How lines are ended does not show in them: they are the same when the text is merely split at its line
feeds (`bareLines_eq_pieces`), so a carriage return before a line feed, blanks before it, or a line feed
at the end of the text make no difference.
-/

namespace ToolCatalog.Text

/-- The lines of a text without their trailing blanks, and without the empty ones at the end. -/
def bareLines (s : Text) : List Text := ((lines s).map trimEnd).rdropWhile List.isEmpty

/-! ## Trailing blanks -/

theorem trimEnd_trimEnd (s : Text) : trimEnd (trimEnd s) = trimEnd s :=
  trimEnd_eq_self (getLast?_trimEnd_any s)

theorem trim_trimEnd (s : Text) : trim (trimEnd s) = trim s := by
  obtain ⟨w, hs, hw⟩ := trimEnd_append_blanks s
  have htrim := trim_blanks (u := []) rfl (trimEnd s) hw
  rw [List.nil_append, ← hs] at htrim
  exact htrim.symm

theorem allBlank_trimEnd (s : Text) : allBlank (trimEnd s) = allBlank s := by
  rw [Bool.eq_iff_iff, ← trimEnd_eq_nil_iff, ← trimEnd_eq_nil_iff, trimEnd_trimEnd]

/-- A text that is not blank begins with the same blanks, whatever comes after it. -/
theorem takeWhile_blank_append {s : Text} (h : allBlank s = false) (t : Text) :
    (s ++ t).takeWhile isBlank = s.takeWhile isBlank := by
  rw [List.takeWhile_append]
  split
  · rename_i hall
    -- only a blank text is blanks from one end to the other
    have hself := (List.takeWhile_prefix isBlank).eq_of_length hall
    rw [List.takeWhile_eq_self_iff] at hself
    rw [allBlank, List.all_eq_true.2 hself] at h
    cases h
  · rfl

/-- A text that is not blank begins as it does without its trailing blanks. -/
theorem takeWhile_blank_trimEnd {s : Text} (h : allBlank s = false) :
    (trimEnd s).takeWhile isBlank = s.takeWhile isBlank := by
  obtain ⟨w, hs, -⟩ := trimEnd_append_blanks s
  rw [← allBlank_trimEnd] at h
  have happend := takeWhile_blank_append h w
  rw [← hs] at happend
  exact happend.symm

theorem trimEnd_drop_trimEnd (n : Nat) (s : Text) : trimEnd ((trimEnd s).drop n) = trimEnd (s.drop n) := by
  obtain ⟨w, hs, hw⟩ := trimEnd_append_blanks s
  have hrest : allBlank (w.drop (n - (trimEnd s).length)) = true :=
    List.all_eq_true.2 fun c hc => List.all_eq_true.1 hw c (List.mem_of_mem_drop hc)
  have hdrop : s.drop n = (trimEnd s).drop n ++ w.drop (n - (trimEnd s).length) := by
    rw [← List.drop_append, ← hs]
  rw [hdrop, trimEnd_append_of_blank _ hrest]

/-! ## Empty lines at the end -/

theorem rdropWhile_append_empty (ls : List Text) :
    ∀ n : Nat, (ls ++ List.replicate n []).rdropWhile List.isEmpty = ls.rdropWhile List.isEmpty
  | 0 => by simp
  | n + 1 => by
    rw [List.replicate_succ', ← List.append_assoc, List.rdropWhile_concat_pos _ _ _ rfl,
      rdropWhile_append_empty ls n]

theorem trim_join_append_empty (t : Text) (ts : List Text) :
    ∀ n : Nat, trim (join "\n" (t :: (ts ++ List.replicate n []))) = trim (join "\n" (t :: ts))
  | 0 => by simp
  | n + 1 => by
    have ih := trim_join_append_empty t ts n
    have hconcat : join "\n" (t :: (ts ++ List.replicate (n + 1) [])) =
        [] ++ join "\n" (t :: (ts ++ List.replicate n [])) ++ ['\n'] := by
      rw [List.replicate_succ', ← List.append_assoc, ← List.cons_append, join_concat _ _ (by simp)]
      simp
    rw [hconcat, trim_blanks rfl _ (by decide), ih]

/-- All lines without their trailing blanks are the bare lines with empty ones after them. -/
theorem exists_bareLines_append (s : Text) :
    ∃ n, (lines s).map trimEnd = bareLines s ++ List.replicate n [] := by
  refine ⟨(((lines s).map trimEnd).rtakeWhile List.isEmpty).length, ?_⟩
  have hempty : ∀ l ∈ ((lines s).map trimEnd).rtakeWhile List.isEmpty, l = [] := by
    intro l hl
    exact List.isEmpty_iff.1 (List.mem_rtakeWhile_imp hl)
  rw [← List.eq_replicate_of_mem hempty]
  exact List.rdropWhile_append_rtakeWhile.symm

/-! ## Lines and pieces -/

/-- But for trailing blanks, the pieces between the line feeds of a text are its lines, perhaps with an
empty one after them. -/
theorem exists_pieces_eq_lines (s : Text) :
    ∃ n, (splitOn '\n' s).map trimEnd = (lines s).map trimEnd ++ List.replicate n [] := by
  fun_induction lines s with
  | case1 => exact ⟨1, rfl⟩
  | case2 s ih =>
    obtain ⟨n, hn⟩ := ih
    exact ⟨n, by simp [splitOn, hn]⟩
  | case3 s ih =>
    obtain ⟨n, hn⟩ := ih
    have hpiece : splitOn '\n' ('\r' :: '\n' :: s) = ['\r'] :: splitOn '\n' s :=
      splitOn_append_sep s (show '\n' ∉ ['\r'] by decide)
    -- the carriage return that a piece keeps is a trailing blank
    have hblank : trimEnd ['\r'] = [] := by decide
    refine ⟨n, ?_⟩
    rw [hpiece, List.map_cons, hblank, hn]
    rfl
  | case4 c s hc _ hs _ =>
    rw [lines_eq_nil_iff] at hs
    subst hs
    have hcut : splitOn '\n' [c] = [[c]] := splitOn_of_notMem (by simpa using fun e => hc e.symm)
    exact ⟨0, by rw [hcut]; rfl⟩
  | case5 c s hc _ line rest hs ih =>
    obtain ⟨n, hn⟩ := ih
    obtain ⟨piece, pieces, hpieces, hcut⟩ := splitOn_cons_ne hc s
    rw [hs, hpieces, List.map_cons, List.map_cons, List.cons_append, List.cons.injEq] at hn
    refine ⟨n, ?_⟩
    rw [hcut, List.map_cons, List.map_cons, List.cons_append, trimEnd, hn.1, hn.2, trimEnd]

/-- The bare lines of a text are found by splitting it at its line feeds. -/
theorem bareLines_eq_pieces (s : Text) :
    bareLines s = ((splitOn '\n' s).map trimEnd).rdropWhile List.isEmpty := by
  obtain ⟨n, hn⟩ := exists_pieces_eq_lines s
  rw [hn, rdropWhile_append_empty, bareLines]

/-! ## Other ends for the same lines -/

/-- A text with a carriage return before every line feed. -/
def withReturns (s : Text) : Text := s.flatMap fun c => if c = '\n' then ['\r', '\n'] else [c]

/-- A text without the blanks before its line feeds and at its end. -/
def withoutTrailing (s : Text) : Text := join "\n" ((splitOn '\n' s).map trimEnd)

theorem pieces_withReturns :
    ∀ s : Text, (splitOn '\n' (withReturns s)).map trimEnd = (splitOn '\n' s).map trimEnd
  | [] => rfl
  | c :: s => by
    have ih := pieces_withReturns s
    by_cases hc : c = '\n'
    · have hpiece : splitOn '\n' (['\r'] ++ '\n' :: withReturns s) =
          ['\r'] :: splitOn '\n' (withReturns s) := splitOn_append_sep _ (by decide)
      have hblank : trimEnd ['\r'] = trimEnd [] := by decide
      have hcons : withReturns (c :: s) = ['\r'] ++ '\n' :: withReturns s := by simp [withReturns, hc]
      rw [hcons, hpiece, List.map_cons, ih, hblank, hc]
      simp [splitOn]
    · have hcons : withReturns (c :: s) = c :: withReturns s := by simp [withReturns, hc]
      obtain ⟨piece, pieces, hpieces, hcut⟩ := splitOn_cons_ne hc s
      obtain ⟨piece', pieces', hpieces', hcut'⟩ := splitOn_cons_ne hc (withReturns s)
      rw [hpieces, hpieces', List.map_cons, List.map_cons, List.cons.injEq] at ih
      rw [hcons, hcut, hcut', List.map_cons, List.map_cons, trimEnd, ih.1, ih.2, trimEnd]

theorem bareLines_withReturns (s : Text) : bareLines (withReturns s) = bareLines s := by
  rw [bareLines_eq_pieces, pieces_withReturns, ← bareLines_eq_pieces]

theorem splitOn_join {sep : Char} :
    ∀ {t : Text} {ts : List Text}, (∀ u ∈ t :: ts, sep ∉ u) → splitOn sep (join [sep] (t :: ts)) = t :: ts
  | t, [], h => splitOn_of_notMem (h t (by simp))
  | t, u :: ts, h => by
    have ih := splitOn_join fun v hv => h v (List.mem_cons_of_mem t hv)
    have hcut := splitOn_append_sep (join [sep] (u :: ts)) (h t (by simp))
    rw [ih] at hcut
    simpa [join_cons] using hcut

theorem bareLines_withoutTrailing (s : Text) : bareLines (withoutTrailing s) = bareLines s := by
  have hpieces : splitOn '\n' (withoutTrailing s) = (splitOn '\n' s).map trimEnd := by
    have hnewline : ∀ p ∈ (splitOn '\n' s).map trimEnd, '\n' ∉ p := by
      intro p hp hmem
      obtain ⟨piece, hpiece, rfl⟩ := List.mem_map.1 hp
      exact notMem_of_mem_splitOn hpiece ((trimEnd_isPrefix piece).subset hmem)
    unfold withoutTrailing
    cases hs : (splitOn '\n' s).map trimEnd with
    | nil => exact absurd (List.map_eq_nil_iff.1 hs) (splitOn_ne_nil _ _)
    | cons p ps =>
      rw [hs] at hnewline
      exact splitOn_join hnewline
  have hidem : trimEnd ∘ trimEnd = trimEnd := funext trimEnd_trimEnd
  rw [bareLines_eq_pieces, hpieces, List.map_map, hidem, ← bareLines_eq_pieces]

theorem bareLines_append_newline (s : Text) : bareLines (s ++ "\n") = bareLines s := by
  have hpieces : splitOn '\n' (s ++ "\n") = splitOn '\n' s ++ [[]] := splitOn_append '\n' [] s
  rw [bareLines_eq_pieces, hpieces, List.map_append, bareLines_eq_pieces]
  exact rdropWhile_append_empty ((splitOn '\n' s).map trimEnd) 1

end ToolCatalog.Text
