import ToolCatalog.Proofs.Text.Pieces
import ToolCatalog.Proofs.Text.Runs
import ToolCatalog.Text.Lines

/-!
# Trimmed texts, joined texts and lines

Laws of putting texts together: what trimming does to blanks around a text, what splitting does to a
text that was joined, and that the lines of a text written line by line are the lines that were
written (`lines_unlines`, `lines_join`).
-/

namespace ToolCatalog.Text

/-! ## Trimming -/

theorem trimEnd_append_of_blank (s : Text) {t : Text} (h : allBlank t = true) :
    trimEnd (s ++ t) = trimEnd s := by
  induction s with
  | nil => exact trimEnd_eq_nil_iff.2 h
  | cons c s ih => rw [List.cons_append, trimEnd, ih, trimEnd]

theorem trimEnd_append_of_ne_nil (s : Text) {t : Text} (h : trimEnd t ≠ []) :
    trimEnd (s ++ t) = s ++ trimEnd t := by
  induction s with
  | nil => rfl
  | cons c s ih =>
    rw [List.cons_append, trimEnd, ih]
    split
    · rename_i hnil
      exact absurd (List.append_eq_nil_iff.1 hnil).2 h
    · rename_i d u hcons
      rw [← hcons, List.cons_append]

theorem trimEnd_cons_of_not_blank {c : Char} (h : isBlank c = false) (s : Text) :
    trimEnd (c :: s) = c :: trimEnd s := by
  rw [trimEnd]
  cases trimEnd s <;> simp [h]

theorem trimStart_append_of_not_blank {c : Char} (hc : isBlank c = false) (a r : Text) :
    trimStart (a ++ c :: r) = trimStart a ++ c :: r := by
  unfold trimStart
  rw [List.dropWhile_append]
  split
  · rename_i hnil
    rw [List.isEmpty_iff.1 hnil, List.dropWhile_cons, hc]
    rfl
  · rfl

theorem trimEnd_eq_self {s : Text} (h : s.getLast?.any isBlank = false) : trimEnd s = s := by
  rcases List.eq_nil_or_concat s with rfl | ⟨t, c, rfl⟩
  · rfl
  · have hblank : isBlank c = false := by simpa using h
    have hc : trimEnd [c] = [c] := by simp [trimEnd, hblank]
    rw [List.concat_eq_append, trimEnd_append_of_ne_nil t (by rw [hc]; simp), hc]

theorem trimStart_eq_self {s : Text} (h : Stops isBlank s) : trimStart s = s := dropWhile_of_stops h

/-- Blanks around a text make no difference once it is trimmed. -/
theorem trim_blanks {u w : Text} (hu : allBlank u = true) (s : Text) (hw : allBlank w = true) :
    trim (u ++ s ++ w) = trim s := by
  unfold trim trimStart
  rw [List.append_assoc, List.dropWhile_append_of_pos (List.all_eq_true.1 hu), List.dropWhile_append]
  split
  · rename_i hnil
    rw [List.isEmpty_iff.1 hnil, trimEnd_eq_nil_iff.2]
    · rfl
    · exact List.all_eq_true.2 fun c hc => List.all_eq_true.1 hw c (List.dropWhile_subset _ hc)
  · exact trimEnd_append_of_blank _ hw

theorem stops_blank_of_trim {s : Text} (h : trim s = s) : Stops isBlank s := by
  obtain ⟨u, hu, -⟩ := trimStart_append_blanks s
  obtain ⟨w, hw, -⟩ := trimEnd_append_blanks (trimStart s)
  have htrim : trimStart s = s ++ w := by rw [hw, ← trim, h]
  have hlen := congrArg List.length hu
  rw [htrim, List.length_append, List.length_append] at hlen
  have hwnil : w = [] := List.eq_nil_of_length_eq_zero (by omega)
  have hstops := stops_dropWhile isBlank s
  rwa [← trimStart, htrim, hwnil, List.append_nil] at hstops

theorem trimEnd_isPrefix (s : Text) : trimEnd s <+: s := by
  obtain ⟨w, hw, -⟩ := trimEnd_append_blanks s
  exact ⟨w, hw.symm⟩

theorem trim_isInfix (s : Text) : trim s <:+: s := by
  obtain ⟨u, w, hs, -, -⟩ := trim_infix s
  exact ⟨u, w, hs.symm⟩

/-- The beginning of a text stops a run that the text stops. -/
theorem Stops.of_isPrefix {p : Char → Bool} {s t : Text} (h : Stops p s) (ht : t <+: s) : Stops p t := by
  obtain ⟨r, rfl⟩ := ht
  cases t with
  | nil => rfl
  | cons c t => exact h

theorem getLast?_trimEnd_any (s : Text) : (trimEnd s).getLast?.any isBlank = false := by
  cases hlast : (trimEnd s).getLast? with
  | none => rfl
  | some c => exact getLast_trimEnd hlast

/-- A text is trimmed just when it neither begins nor ends with a blank. -/
theorem trim_eq_self_iff {s : Text} :
    trim s = s ↔ Stops isBlank s ∧ s.getLast?.any isBlank = false := by
  constructor
  · intro h
    refine ⟨stops_blank_of_trim h, ?_⟩
    rw [← h]
    exact getLast?_trimEnd_any _
  · rintro ⟨hstart, hend⟩
    rw [trim, trimStart_eq_self hstart, trimEnd_eq_self hend]

theorem trim_trim (s : Text) : trim (trim s) = trim s :=
  trim_eq_self_iff.2
    ⟨(stops_dropWhile isBlank s).of_isPrefix (trimEnd_isPrefix _), getLast?_trimEnd_any _⟩

/-- A trimmed text has no blanks at its end. -/
theorem eq_nil_of_blank_end {t a b : Text} (ht : trim t = t) (h : t = a ++ b) (hb : allBlank b = true) :
    b = [] := by
  rcases List.eq_nil_or_concat b with rfl | ⟨c, d, rfl⟩
  · rfl
  · have hend := (trim_eq_self_iff.1 ht).2
    have hd : isBlank d = true := List.all_eq_true.1 hb d (by simp)
    rw [h] at hend
    simp [hd] at hend

/-- Trimmed texts stay trimmed when they are put together, whatever stands between them. -/
theorem trim_append_eq_self {a b : Text} (ha : trim a = a ∧ a ≠ []) (w : Text)
    (hb : trim b = b ∧ b ≠ []) : trim (a ++ w ++ b) = a ++ w ++ b := by
  rw [trim_eq_self_iff] at ha hb ⊢
  obtain ⟨⟨hstart, -⟩, hane⟩ := ha
  obtain ⟨⟨-, hend⟩, hbne⟩ := hb
  constructor
  · cases a with
    | nil => exact absurd rfl hane
    | cons c a => exact hstart
  · rw [List.getLast?_append, List.getLast?_eq_some_getLast hbne, Option.some_or]
    rwa [List.getLast?_eq_some_getLast hbne] at hend

/-! ## Joined texts -/

theorem join_cons (sep t : Text) {ts : List Text} (h : ts ≠ []) :
    join sep (t :: ts) = t ++ sep ++ join sep ts := by
  cases ts with
  | nil => exact absurd rfl h
  | cons u ts => rfl

theorem join_concat (sep t : Text) :
    ∀ {ts : List Text}, ts ≠ [] → join sep (ts ++ [t]) = join sep ts ++ sep ++ t
  | [], h => absurd rfl h
  | [u], _ => rfl
  | u :: v :: ts, _ => by
    rw [List.cons_append, join_cons sep u (by simp), join_concat sep t (by simp),
      join_cons sep u (by simp)]
    simp

theorem trim_join (sep : Text) :
    ∀ {ts : List Text}, (∀ t ∈ ts, trim t = t ∧ t ≠ []) → trim (join sep ts) = join sep ts
  | [], _ => rfl
  | [t], h => (h t (by simp)).1
  | t :: u :: ts, h => by
    have ih := trim_join sep fun v hv => h v (List.mem_cons_of_mem t hv)
    have hne : join sep (u :: ts) ≠ [] := by
      intro hnil
      have hu := (h u (by simp)).2
      cases ts with
      | nil => exact hu hnil
      | cons v ts => simp [join_cons, hu] at hnil
    rw [join_cons sep t (by simp)]
    exact trim_append_eq_self (h t (by simp)) sep ⟨ih, hne⟩

theorem infix_join (sep : Text) {t : Text} : ∀ {ts : List Text}, t ∈ ts → t <:+: join sep ts
  | [u], h => by
    rw [List.mem_singleton.1 h]
    exact List.infix_refl u
  | u :: v :: ts, h => by
    rw [join_cons sep u (by simp)]
    rcases List.mem_cons.1 h with rfl | h
    · rw [List.append_assoc]
      exact (List.prefix_append _ _).isInfix
    · exact (infix_join sep h).trans (List.suffix_append _ _).isInfix

theorem infix_of_mem_splitOn {sep : Char} {s piece : Text} (h : piece ∈ splitOn sep s) :
    piece <:+: s := by
  have hjoin := infix_join [sep] h
  rwa [join_splitOn] at hjoin

/-- Pieces joined around a comma and a blank are split at the comma, and all but the first keep the
blank. -/
theorem splitOn_join_comma :
    ∀ {t : Text} {ts : List Text}, ',' ∉ t → (∀ u ∈ ts, ',' ∉ u) →
      splitOn ',' (join ", " (t :: ts)) = t :: ts.map (' ' :: ·)
  | t, [], ht, _ => splitOn_of_notMem ht
  | t, u :: ts, ht, h => by
    have ih := splitOn_join_comma (h u (by simp)) fun v hv => h v (List.mem_cons_of_mem u hv)
    obtain ⟨piece, rest, hs, hcs⟩ := splitOn_cons_ne (by decide : ' ' ≠ ',') (join ", " (u :: ts))
    rw [ih] at hs
    cases hs
    have hcut := splitOn_append_sep (' ' :: join ", " (u :: ts)) ht
    rw [hcs] at hcut
    simpa [join_cons] using hcut

/-! ## Characters that a text lacks -/

/-- None of some characters stands in a text. -/
def Lacks (marks s : Text) : Prop := ∀ c ∈ s, c ∉ marks

instance (marks s : Text) : Decidable (Lacks marks s) :=
  List.decidableBAll (fun c => c ∉ marks) s

namespace Lacks

variable {marks marks' s t : Text}

theorem nil : Lacks marks [] := fun _ hc => absurd hc List.not_mem_nil

theorem append (hs : Lacks marks s) (ht : Lacks marks t) : Lacks marks (s ++ t) := by
  intro c hc
  rcases List.mem_append.1 hc with hc | hc
  · exact hs c hc
  · exact ht c hc

theorem append_iff : Lacks marks (s ++ t) ↔ Lacks marks s ∧ Lacks marks t :=
  ⟨fun h => ⟨fun c hc => h c (List.mem_append_left t hc), fun c hc => h c (List.mem_append_right s hc)⟩,
    fun h => h.1.append h.2⟩

theorem mono (h : Lacks marks s) (hsub : marks' ⊆ marks) : Lacks marks' s :=
  fun c hc hmark => h c hc (hsub hmark)

theorem notMem {c : Char} (h : Lacks marks s) (hc : c ∈ marks) : c ∉ s := fun hs => h c hs hc

theorem join {sep : Text} (hsep : Lacks marks sep) :
    ∀ {ts : List Text}, (∀ t ∈ ts, Lacks marks t) → Lacks marks (Text.join sep ts)
  | [], _ => Lacks.nil
  | [t], h => h t (by simp)
  | t :: u :: ts, h => by
    rw [join_cons _ _ (by simp)]
    exact ((h t (by simp)).append hsep).append
      (Lacks.join hsep fun v hv => h v (List.mem_cons_of_mem t hv))

end Lacks

/-! ## Lines -/

/-- A line as it can be read back: it holds no line feed and ends in no carriage return. -/
def IsLine (l : Text) : Prop := '\n' ∉ l ∧ l.getLast? ≠ some '\r'

instance (l : Text) : Decidable (IsLine l) :=
  inferInstanceAs (Decidable ('\n' ∉ l ∧ l.getLast? ≠ some '\r'))

theorem isLine_of_getLast? {l : Text} (hnewline : '\n' ∉ l)
    (hend : l.getLast?.any isBlank = false) : IsLine l := by
  refine ⟨hnewline, ?_⟩
  intro hlast
  rw [hlast] at hend
  cases hend

theorem IsLine.append {a b : Text} (ha : IsLine a) (hb : IsLine b) : IsLine (a ++ b) := by
  refine ⟨by simp [ha.1, hb.1], ?_⟩
  rw [List.getLast?_append]
  cases hlast : b.getLast? with
  | none => exact ha.2
  | some c =>
    have hc := hb.2
    rwa [hlast] at hc

/-- A text that ends at the end of a line: it is empty, or its last character is a line feed. -/
def EndsLine (s : Text) : Prop := s = [] ∨ s.getLast? = some '\n'

instance (s : Text) : Decidable (EndsLine s) :=
  inferInstanceAs (Decidable (s = [] ∨ s.getLast? = some '\n'))

theorem EndsLine.tail {c : Char} {s : Text} (h : EndsLine (c :: s)) : EndsLine s := by
  cases s with
  | nil => exact .inl rfl
  | cons d s => exact .inr (by simpa [EndsLine] using h)

theorem lines_eq_nil_iff {s : Text} : lines s = [] ↔ s = [] := by
  fun_cases lines s <;> simp

/-- The lines of a text that ends at the end of a line do not run into what comes after it. -/
theorem lines_append {a : Text} (h : EndsLine a) (b : Text) : lines (a ++ b) = lines a ++ lines b := by
  fun_induction lines a with
  | case1 => rfl
  | case2 s ih => simp [lines, ih h.tail]
  | case3 s ih => simp [lines, ih h.tail.tail]
  | case4 c s hc _ hs _ =>
    -- the last line has no line feed at its end
    rw [lines_eq_nil_iff] at hs
    subst hs
    exact absurd (by simpa [EndsLine] using h) hc
  | case5 c s hc hreturn line rest hs ih =>
    have ih := ih h.tail
    rw [hs] at ih
    rw [List.cons_append, lines, ih]
    · rfl
    · exact hc
    · intro t hc' ht
      cases s with
      | nil => cases hs
      | cons d s =>
        cases ht
        exact hreturn s hc' rfl

/-- The text of some lines, each with a line feed at its end. -/
def unlines (ls : List Text) : Text := ls.flatMap (· ++ "\n")

theorem lines_append_newline (s : Text) :
    ∀ {l : Text}, IsLine l → lines (l ++ '\n' :: s) = l :: lines s
  | [], _ => rfl
  | c :: l, h => by
    obtain ⟨hnewline, hreturn⟩ := h
    rw [List.mem_cons, not_or] at hnewline
    have hl : IsLine l := by
      refine ⟨hnewline.2, ?_⟩
      intro hlast
      rw [List.getLast?_cons, hlast] at hreturn
      exact hreturn rfl
    rw [List.cons_append, lines.eq_def]
    split
    · rename_i heq
      cases heq
    · rename_i heq
      cases heq
      exact absurd rfl hnewline.1
    · -- a carriage return before the line feed would be the last of the line
      rename_i rest heq
      cases l with
      | nil =>
        cases heq
        exact absurd rfl hreturn
      | cons d l =>
        cases heq
        exact absurd (by simp) hnewline.2
    · rename_i heq
      cases heq
      rw [lines_append_newline s hl]

theorem lines_of_notMem : ∀ {l : Text}, '\n' ∉ l → l ≠ [] → lines l = [l]
  | [], _, h => absurd rfl h
  | c :: l, h, _ => by
    rw [List.mem_cons, not_or] at h
    rw [lines.eq_def]
    split
    · rename_i heq
      cases heq
    · rename_i heq
      cases heq
      exact absurd rfl h.1
    · rename_i heq
      cases heq
      exact absurd (by simp) h.2
    · rename_i heq
      cases heq
      by_cases hnil : l = []
      · rw [hnil]
        rfl
      · rw [lines_of_notMem h.2 hnil]

theorem lines_unlines : ∀ {ls : List Text}, (∀ l ∈ ls, IsLine l) → lines (unlines ls) = ls
  | [], _ => rfl
  | l :: ls, h => by
    have ih := lines_unlines fun m hm => h m (List.mem_cons_of_mem l hm)
    have hl := lines_append_newline (unlines ls) (h l (by simp))
    rw [ih] at hl
    simpa [unlines] using hl

theorem lines_join : ∀ {ls : List Text}, (∀ l ∈ ls, IsLine l ∧ l ≠ []) → lines (join "\n" ls) = ls
  | [], _ => rfl
  | [l], h => lines_of_notMem (h l (by simp)).1.1 (h l (by simp)).2
  | l :: m :: ls, h => by
    have ih := lines_join fun k hk => h k (List.mem_cons_of_mem l hk)
    have hl := lines_append_newline (join "\n" (m :: ls)) (h l (by simp)).1
    rw [ih] at hl
    simpa [join_cons] using hl

end ToolCatalog.Text
