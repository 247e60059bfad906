import ToolCatalog.Proofs.Text.LineEnds

/-!
# Lines that were joined and trimmed

Lines are put together around line feeds, and the whole is trimmed. A mark without a line feed stands in the
whole only if it stands in one of the lines (`exists_infix_of_join`). If no line ends in a blank, trimming
takes away the empty lines at both ends and the blanks at the start of the first other line, and nothing
else (`splitOn_trim_join`).
-/

namespace ToolCatalog.Text

/-! ## Marks in joined lines -/

theorem isPrefix_of_append_sep {sep : Char} {mark a b : Text} (hsep : sep ∉ mark)
    (h : mark <+: a ++ sep :: b) : mark <+: a := by
  have ha : a ++ [sep] <+: a ++ sep :: b := by simp
  by_cases hlength : mark.length ≤ a.length
  · exact List.prefix_of_prefix_length_le h (List.prefix_append a _) hlength
  · have hlong : a ++ [sep] <+: mark := by
      refine List.prefix_of_prefix_length_le ha h ?_
      simp only [List.length_append, List.length_singleton]
      omega
    exact absurd (hlong.subset (by simp)) hsep

theorem isInfix_of_append_sep {sep : Char} {mark b : Text} (hsep : sep ∉ mark) :
    ∀ {a : Text}, mark <:+: a ++ sep :: b → mark <:+: a ∨ mark <:+: b
  | [], h => by
    rcases List.infix_cons_iff.1 h with hstart | hinner
    · exact .inl (isPrefix_of_append_sep (a := []) hsep hstart).isInfix
    · exact .inr hinner
  | c :: a, h => by
    rcases List.infix_cons_iff.1 h with hstart | hinner
    · exact .inl (isPrefix_of_append_sep (a := c :: a) hsep hstart).isInfix
    · rcases isInfix_of_append_sep hsep hinner with ha | hb
      · exact .inl (ha.trans (List.suffix_cons c a).isInfix)
      · exact .inr hb

/-- What holds no separator and stands in joined pieces stands in one of them. -/
theorem exists_infix_of_join {sep : Char} {mark : Text} (hsep : sep ∉ mark) :
    ∀ {t : Text} {ts : List Text}, mark <:+: join [sep] (t :: ts) → ∃ u ∈ t :: ts, mark <:+: u
  | t, [], h => ⟨t, by simp, h⟩
  | t, u :: ts, h => by
    rw [join_cons _ _ (by simp), List.append_assoc, List.singleton_append] at h
    rcases isInfix_of_append_sep hsep h with ht | hrest
    · exact ⟨t, by simp, ht⟩
    · obtain ⟨v, hv, hmark⟩ := exists_infix_of_join hsep hrest
      exact ⟨v, List.mem_cons_of_mem t hv, hmark⟩

/-! ## The ends of joined lines -/

theorem join_append_cons (sep w t : Text) (ts : List Text) :
    join sep ((w ++ t) :: ts) = w ++ join sep (t :: ts) := by
  cases ts with
  | nil => rfl
  | cons u ts => simp [join_cons]

theorem getLast?_join_concat (sep : Text) (ts : List Text) {t : Text} (ht : t ≠ []) :
    (join sep (ts ++ [t])).getLast? = t.getLast? := by
  by_cases hts : ts = []
  · simp [hts, join]
  · rw [join_concat sep t hts, List.getLast?_append, List.getLast?_eq_some_getLast ht, Option.some_or]

theorem getLast?_trimStart {s : Text} (h : trimStart s ≠ []) : (trimStart s).getLast? = s.getLast? := by
  obtain ⟨w, hs, -⟩ := trimStart_append_blanks s
  have hlast := congrArg List.getLast? hs
  rw [List.getLast?_append, List.getLast?_eq_some_getLast h, Option.some_or] at hlast
  rw [hlast, List.getLast?_eq_some_getLast h]

theorem trimStart_eq_nil_iff {s : Text} : trimStart s = [] ↔ allBlank s = true := by
  simp [trimStart, allBlank, List.dropWhile_eq_nil_iff]

theorem trim_trimStart (s : Text) : trim (trimStart s) = trim s := by
  have hself : trimStart (trimStart s) = trimStart s := trimStart_eq_self (stops_dropWhile isBlank s)
  rw [trim, hself, trim]

theorem trim_eq_nil_iff {s : Text} : trim s = [] ↔ allBlank s = true := by
  rw [trim, trimEnd_eq_nil_iff]
  constructor
  · intro h
    obtain ⟨w, hs, hw⟩ := trimStart_append_blanks s
    rw [hs, allBlank, List.all_append, Bool.and_eq_true]
    exact ⟨hw, h⟩
  · intro h
    rw [trimStart_eq_nil_iff.2 h]
    rfl

theorem stops_join {p : Char → Bool} {t : Text} (hne : t ≠ []) (h : Stops p t) (sep : Text)
    (ts : List Text) : Stops p (join sep (t :: ts)) := by
  cases t with
  | nil => exact absurd rfl hne
  | cons c t =>
    cases ts with
    | nil => exact h
    | cons u ts => exact h

/-- Joined lines end in no blank, if none of them does and the last is not empty. -/
theorem getLast?_join_any {t : Text} {ts : List Text} (ht : t.getLast?.any isBlank = false)
    (hends : ∀ u ∈ ts, trimEnd u = u) (hlast : ∀ u, ts.getLast? = some u → u ≠ []) (sep : Text) :
    (join sep (t :: ts)).getLast?.any isBlank = false := by
  rcases List.eq_nil_or_concat ts with rfl | ⟨us, u, rfl⟩
  · exact ht
  · have hu : u ≠ [] := hlast u (by simp)
    rw [List.concat_eq_append, ← List.cons_append, getLast?_join_concat _ _ hu, ← hends u (by simp)]
    exact getLast?_trimEnd_any u

/-- Where neither the first nor the last line is empty, all that trimming does is done to the first. -/
theorem trim_join_of_ne_nil {t : Text} {ts : List Text} (ht : trimEnd t = t) (hne : t ≠ [])
    (hends : ∀ u ∈ ts, trimEnd u = u) (hlast : ∀ u, ts.getLast? = some u → u ≠ []) :
    trim (join "\n" (t :: ts)) = join "\n" (trimStart t :: ts) := by
  obtain ⟨w, hw, hblank⟩ := trimStart_append_blanks t
  have hstart : trimStart t ≠ [] := by
    intro hnil
    rw [← ht] at hne
    exact hne (trimEnd_eq_nil_iff.2 (trimStart_eq_nil_iff.1 hnil))
  have hend : (trimStart t).getLast?.any isBlank = false := by
    rw [getLast?_trimStart hstart, ← ht]
    exact getLast?_trimEnd_any t
  have hself : trim (join "\n" (trimStart t :: ts)) = join "\n" (trimStart t :: ts) :=
    trim_eq_self_iff.2 ⟨stops_join hstart (stops_dropWhile isBlank t) _ ts,
      getLast?_join_any hend hends hlast _⟩
  have hjoin : join "\n" (t :: ts) = w ++ join "\n" (trimStart t :: ts) := by
    conv_lhs => rw [hw]
    exact join_append_cons _ _ _ _
  have htrim := trim_blanks (w := []) hblank (join "\n" (trimStart t :: ts)) rfl
  rw [List.append_nil, ← hjoin] at htrim
  rw [htrim, hself]

/-- Lines are such that do not end in an empty one, and empty lines after them. -/
theorem exists_append_empty (ts : List Text) :
    ∃ us n, ts = us ++ List.replicate n [] ∧ ∀ u, us.getLast? = some u → u ≠ [] := by
  induction ts using List.reverseRecOn with
  | nil => exact ⟨[], 0, rfl, by simp⟩
  | append_singleton ts t ih =>
    by_cases ht : t = []
    · obtain ⟨us, n, rfl, hlast⟩ := ih
      exact ⟨us, n + 1, by rw [ht, List.append_assoc, List.replicate_succ'], hlast⟩
    · exact ⟨ts ++ [t], 0, by simp, by simpa using ht⟩

/-- **The lines that are left when joined lines are trimmed** are those from the first that is not empty to
the last; the first of them loses its leading blanks. -/
theorem splitOn_trim_join :
    ∀ {t : Text} {ts : List Text}, (∀ u ∈ t :: ts, '\n' ∉ u ∧ trimEnd u = u) →
      ∃ (skipped : List Text) (first : Text) (rest trailing : List Text),
        t :: ts = skipped ++ first :: rest ++ trailing ∧ (∀ u ∈ skipped ++ trailing, u = []) ∧
        splitOn '\n' (trim (join "\n" (t :: ts))) = trimStart first :: rest
  | [], [], _ => ⟨[], [], [], [], rfl, by simp, rfl⟩
  | [], u :: us, h => by
    obtain ⟨skipped, first, rest, trailing, hparts, hempty, hsplit⟩ :=
      splitOn_trim_join fun v hv => h v (List.mem_cons_of_mem [] hv)
    refine ⟨[] :: skipped, first, rest, trailing, by rw [hparts]; rfl, ?_, ?_⟩
    · intro v hv
      rw [List.cons_append, List.mem_cons] at hv
      rcases hv with rfl | hv
      · rfl
      · exact hempty v hv
    · have hjoin : join "\n" ([] :: u :: us) = ['\n'] ++ join "\n" (u :: us) ++ [] := by
        rw [List.append_nil]
        rfl
      rw [hjoin, trim_blanks (by decide) _ rfl, hsplit]
  | c :: t, ts, h => by
    obtain ⟨us, n, rfl, hlast⟩ := exists_append_empty ts
    have hends : ∀ u ∈ us, trimEnd u = u := by
      intro u hu
      exact (h u (by simp [hu])).2
    have hnewline : ∀ u ∈ trimStart (c :: t) :: us, '\n' ∉ u := by
      intro u hu
      rcases List.mem_cons.1 hu with rfl | hu
      · intro hmem
        exact (h (c :: t) (by simp)).1 (List.dropWhile_subset _ hmem)
      · exact (h u (by simp [hu])).1
    refine ⟨[], c :: t, us, List.replicate n [], by simp, ?_, ?_⟩
    · intro u hu
      exact List.eq_of_mem_replicate hu
    · rw [trim_join_append_empty,
        trim_join_of_ne_nil (h (c :: t) (by simp)).2 (by simp) hends hlast]
      exact splitOn_join hnewline

end ToolCatalog.Text
