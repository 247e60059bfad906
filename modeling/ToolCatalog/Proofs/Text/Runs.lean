import ToolCatalog.Text.Word

/-!
# Runs of characters

A reader that takes all characters of a class from the start of a text finds the one way to write the
text as such a run and a rest that does not go on with the class (`run_unique`). Blanks and word
characters exclude each other, so where blanks, a name and again blanks follow one another each of
them ends where the next begins.

Main statements: `isWord_of_isBlank`, `run_unique`, `occursIn_iff_exists`, `upTo?_eq_some_iff`.
-/

namespace ToolCatalog.Text

/-! ## Character classes -/

theorem exists_range_of_inRanges {n : Nat} :
    ∀ {rs : List (Nat × Nat)}, inRanges n rs = true → ∃ r ∈ rs, r.1 ≤ n ∧ n ≤ r.2
  | [], h => by simp [inRanges] at h
  | (first, last) :: rs, h => by
    unfold inRanges at h
    split at h
    · simp at h
    · rename_i hfirst
      split at h
      · rename_i hlast
        exact ⟨(first, last), by simp, by simpa using hfirst, hlast⟩
      · obtain ⟨r, hr, hn⟩ := exists_range_of_inRanges h
        exact ⟨r, List.mem_cons_of_mem _ hr, hn⟩

/-- No blank is a word character. -/
theorem isWord_of_isBlank {c : Char} (h : isBlank c = true) : isWord c = false := by
  have hall : ∀ r ∈ blankRanges, ∀ k < r.2 - r.1 + 1, inRanges (r.1 + k) wordRanges = false := by
    decide +kernel
  obtain ⟨r, hr, hlow, hhigh⟩ := exists_range_of_inRanges h
  have hk := hall r hr (c.toNat - r.1) (by omega)
  rwa [show r.1 + (c.toNat - r.1) = c.toNat by omega] at hk

theorem isBlank_of_isWord {c : Char} (h : isWord c = true) : isBlank c = false := by
  cases hb : isBlank c with
  | false => rfl
  | true => rw [isWord_of_isBlank hb] at h; cases h

/-! ## Runs -/

/-- The text does not begin with a character of the class `p`. -/
def Stops (p : Char → Bool) (s : Text) : Prop := s.head?.any p = false

@[simp] theorem stops_nil (p : Char → Bool) : Stops p [] := rfl

@[simp] theorem stops_cons {p : Char → Bool} {c : Char} {s : Text} :
    Stops p (c :: s) ↔ p c = false := Iff.rfl

theorem stops_dropWhile (p : Char → Bool) : ∀ s : Text, Stops p (s.dropWhile p)
  | [] => rfl
  | c :: s => by
    rw [List.dropWhile_cons]
    split
    · exact stops_dropWhile p s
    · rename_i hc
      simpa using hc

theorem dropWhile_of_stops {p : Char → Bool} {s : Text} (h : Stops p s) : s.dropWhile p = s := by
  cases s with
  | nil => rfl
  | cons c s => rw [List.dropWhile_cons, stops_cons.1 h]; simp

theorem takeWhile_of_stops {p : Char → Bool} {s : Text} (h : Stops p s) : s.takeWhile p = [] := by
  cases s with
  | nil => rfl
  | cons c s => rw [List.takeWhile_cons, stops_cons.1 h]; simp

theorem dropWhile_run {p : Char → Bool} {w s : Text} (hw : w.all p = true) (hs : Stops p s) :
    (w ++ s).dropWhile p = s := by
  rw [List.dropWhile_append_of_pos (List.all_eq_true.1 hw), dropWhile_of_stops hs]

theorem takeWhile_run {p : Char → Bool} {w s : Text} (hw : w.all p = true) (hs : Stops p s) :
    (w ++ s).takeWhile p = w := by
  rw [List.takeWhile_append_of_pos (List.all_eq_true.1 hw), takeWhile_of_stops hs, List.append_nil]

/-- A text is in one way a run of a class and a rest that does not go on with it. -/
theorem run_unique {p : Char → Bool} {w w' s s' : Text} (hw : w.all p = true) (hs : Stops p s)
    (hw' : w'.all p = true) (hs' : Stops p s') (h : w ++ s = w' ++ s') : w = w' ∧ s = s' := by
  constructor
  · rw [← takeWhile_run hw hs, h, takeWhile_run hw' hs']
  · rw [← dropWhile_run hw hs, h, dropWhile_run hw' hs']

/-- Word characters stop a run of blanks. -/
theorem stops_blank_of_word {n s : Text} (hne : n ≠ []) (hn : n.all isWord = true) :
    Stops isBlank (n ++ s) := by
  cases n with
  | nil => exact absurd rfl hne
  | cons c n =>
    rw [List.all_cons, Bool.and_eq_true] at hn
    exact isBlank_of_isWord hn.1

/-- Blanks stop a run of word characters, and so does what stops it after them. -/
theorem stops_word_of_blank {w s : Text} (hw : allBlank w = true) (hs : Stops isWord s) :
    Stops isWord (w ++ s) := by
  cases w with
  | nil => exact hs
  | cons c w =>
    rw [allBlank, List.all_cons, Bool.and_eq_true] at hw
    exact isWord_of_isBlank hw.1

theorem trimStart_blanks {w s : Text} (hw : allBlank w = true) (hs : Stops isBlank s) :
    trimStart (w ++ s) = s := dropWhile_run hw hs

/-! ## Occurrences -/

theorem startsWith_iff_isPrefix {s lead : Text} : startsWith s lead = true ↔ lead <+: s := by
  rw [startsWith_iff]
  exact ⟨fun ⟨r, hr⟩ => ⟨r, hr.symm⟩, fun ⟨r, hr⟩ => ⟨r, hr.symm⟩⟩

theorem eq_append_of_upTo? {mark : Text} :
    ∀ {s a : Text}, upTo? mark s = some a → ∃ b, s = a ++ mark ++ b
  | [], a, h => by
    unfold upTo? at h
    split at h
    · rename_i hm
      cases h
      exact ⟨[], by simp [hm]⟩
    · cases h
  | c :: s, a, h => by
    unfold upTo? at h
    split at h
    · rename_i hs
      cases h
      obtain ⟨b, hb⟩ := startsWith_iff.1 hs
      exact ⟨b, by simpa using hb⟩
    · obtain ⟨a', ha', rfl⟩ := Option.map_eq_some_iff.1 h
      obtain ⟨b, rfl⟩ := eq_append_of_upTo? ha'
      exact ⟨b, by simp⟩

theorem upTo?_of_startsWith {mark s : Text} (h : startsWith s mark = true) : upTo? mark s = some [] := by
  cases s with
  | nil =>
    cases mark with
    | nil => rfl
    | cons c mark => cases h
  | cons c s => rw [upTo?, if_pos h]

theorem upTo?_ne_none (mark b : Text) : ∀ a : Text, upTo? mark (a ++ mark ++ b) ≠ none
  | [] => by
    rw [List.nil_append, upTo?_of_startsWith (startsWith_iff.2 ⟨b, rfl⟩)]
    simp
  | c :: a => by
    have ih := upTo?_ne_none mark b a
    rw [List.cons_append, List.cons_append]
    unfold upTo?
    split
    · simp
    · simpa using ih

/-- A text occurs in another just when it can be cut out of it. -/
theorem occursIn_iff_exists {mark s : Text} :
    occursIn mark s = true ↔ ∃ a b, s = a ++ mark ++ b := by
  rw [occursIn, Option.isSome_iff_exists]
  constructor
  · rintro ⟨a, ha⟩
    exact ⟨a, eq_append_of_upTo? ha⟩
  · rintro ⟨a, b, rfl⟩
    exact Option.ne_none_iff_exists'.1 (upTo?_ne_none mark b a)

theorem startsWith_append_of_length {mark s : Text} (b : Text) (h : mark.length ≤ s.length) :
    startsWith (s ++ b) mark = startsWith s mark := by
  rw [Bool.eq_iff_iff, startsWith_iff, startsWith_iff]
  constructor
  · rintro ⟨r, hr⟩
    have hmark : mark <+: s ++ b := ⟨r, hr.symm⟩
    obtain ⟨r', hr'⟩ := List.prefix_of_prefix_length_le hmark (List.prefix_append s b) h
    exact ⟨r', hr'.symm⟩
  · rintro ⟨r, rfl⟩
    exact ⟨r ++ b, by simp⟩

/-- A mark does not occur before its first occurrence. -/
theorem first_of_upTo? {mark : Text} :
    ∀ {s a : Text}, upTo? mark s = some a → ∀ x y, a ++ mark = x ++ mark ++ y → x = a
  | [], a, h, x, y, hxy => by
    unfold upTo? at h
    split at h
    · rename_i hmark
      cases h
      rw [hmark] at hxy
      exact (List.append_eq_nil_iff.1 (by simpa using hxy.symm)).1
    · cases h
  | c :: s, a, h, x, y, hxy => by
    unfold upTo? at h
    split at h
    · cases h
      have hlength := congrArg List.length hxy
      simp only [List.length_append, List.length_nil] at hlength
      exact List.eq_nil_of_length_eq_zero (by omega)
    · rename_i hstart
      obtain ⟨a, ha, rfl⟩ := Option.map_eq_some_iff.1 h
      cases x with
      | nil =>
        -- then the mark stands at the very start
        obtain ⟨b, rfl⟩ := eq_append_of_upTo? ha
        have hs : startsWith (c :: a ++ mark ++ b) mark = true := by
          rw [hxy, startsWith_iff]
          exact ⟨y ++ b, by simp⟩
        exact absurd hs hstart
      | cons d x =>
        rw [List.cons_append, List.cons_append, List.cons_append, List.cons.injEq] at hxy
        rw [hxy.1, first_of_upTo? ha x y hxy.2]

/-- A text before a mark is found, if the mark does not occur earlier. -/
theorem upTo?_append {mark : Text} (b : Text) :
    ∀ {a : Text}, (∀ x y, a ++ mark = x ++ mark ++ y → x = a) → upTo? mark (a ++ mark ++ b) = some a
  | [], _ => upTo?_of_startsWith (startsWith_iff.2 ⟨b, rfl⟩)
  | c :: a, h => by
    have ih : upTo? mark (a ++ mark ++ b) = some a := by
      refine upTo?_append b ?_
      intro x y hxy
      have hcons := h (c :: x) y (by simp [hxy])
      exact (List.cons.inj hcons).2
    have hstart : ¬ startsWith (c :: (a ++ mark ++ b)) mark = true := by
      intro hs
      have hlength : mark.length ≤ (c :: a ++ mark).length := by
        rw [List.length_append]
        omega
      have hshort : startsWith (c :: a ++ mark) mark = true := by
        rw [← startsWith_append_of_length b hlength]
        exact hs
      obtain ⟨y, hy⟩ := startsWith_iff.1 hshort
      cases h [] y hy
    rw [List.cons_append, List.cons_append, upTo?, if_neg hstart, ih]
    rfl

theorem upTo?_eq_some_iff {mark s a : Text} :
    upTo? mark s = some a ↔ (∃ b, s = a ++ mark ++ b) ∧ ∀ x y, a ++ mark = x ++ mark ++ y → x = a := by
  constructor
  · intro h
    exact ⟨eq_append_of_upTo? h, first_of_upTo? h⟩
  · rintro ⟨⟨b, rfl⟩, hfirst⟩
    exact upTo?_append b hfirst

end ToolCatalog.Text
