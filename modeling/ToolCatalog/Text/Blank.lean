import ToolCatalog.Text.Basic

/-!
# Blanks and trimming

A blank is a character with the Unicode property White_Space. Trimming removes blanks from the ends
of a text and nothing else: `trim_infix` says that a text is its trimmed form between blanks.
-/

namespace ToolCatalog.Text

/-- The Unicode property White_Space, as inclusive ranges of code points in increasing order. -/
def blankRanges : List (Nat × Nat) :=
  [(0x09, 0x0D), (0x20, 0x20), (0x85, 0x85), (0xA0, 0xA0), (0x1680, 0x1680), (0x2000, 0x200A),
   (0x2028, 0x2029), (0x202F, 0x202F), (0x205F, 0x205F), (0x3000, 0x3000)]

/-- Membership in a list of inclusive ranges in increasing order: the search stops at the first range
that begins above the number. -/
def inRanges (n : Nat) : List (Nat × Nat) → Bool
  | [] => false
  | (first, last) :: rest =>
    if n < first then false else if n ≤ last then true else inRanges n rest

/-- A character of the Unicode property White_Space. -/
def isBlank (c : Char) : Bool := inRanges c.toNat blankRanges

def trimStart (s : Text) : Text := s.dropWhile isBlank

def trimEnd : Text → Text
  | [] => []
  | c :: s =>
    match trimEnd s with
    | [] => if isBlank c then [] else [c]
    | d :: t => c :: d :: t

def trim (s : Text) : Text := trimEnd (trimStart s)

def allBlank (s : Text) : Bool := s.all isBlank

theorem trimEnd_append_blanks (s : Text) : ∃ w, s = trimEnd s ++ w ∧ allBlank w = true := by
  induction s with
  | nil => exact ⟨[], rfl, rfl⟩
  | cons c s ih =>
    obtain ⟨w, hs, hw⟩ := ih
    simp only [trimEnd]
    split
    · next h =>
      rw [h] at hs
      split
      · next hc => exact ⟨c :: s, rfl, by simpa [allBlank, hc, hs] using hw⟩
      · exact ⟨w, by simpa using hs, hw⟩
    · next d t h =>
      rw [h] at hs
      exact ⟨w, by rw [hs]; rfl, hw⟩

theorem trimEnd_eq_nil_iff {s : Text} : trimEnd s = [] ↔ allBlank s = true := by
  constructor
  · intro h
    obtain ⟨w, hs, hw⟩ := trimEnd_append_blanks s
    rw [h] at hs
    rw [hs]
    exact hw
  · intro h
    induction s with
    | nil => rfl
    | cons c s ih =>
      simp only [allBlank, List.all_cons, Bool.and_eq_true] at h
      simp [trimEnd, ih h.2, h.1]

/-- A text without trailing blanks ends in no blank. -/
theorem getLast_trimEnd {s : Text} {c : Char} (h : (trimEnd s).getLast? = some c) :
    isBlank c = false := by
  induction s with
  | nil => simp [trimEnd] at h
  | cons d s ih =>
    simp only [trimEnd] at h
    split at h
    · split at h
      · simp at h
      · next hd =>
        simp only [List.getLast?_singleton, Option.some.injEq] at h
        subst h
        simpa using hd
    · next e t hst =>
      rw [hst] at ih
      exact ih (by simpa using h)

theorem trimStart_append_blanks (s : Text) : ∃ w, s = w ++ trimStart s ∧ allBlank w = true := by
  refine ⟨s.takeWhile isBlank, (List.takeWhile_append_dropWhile).symm, ?_⟩
  simp [allBlank]

/-- A text is its trimmed form between blanks. -/
theorem trim_infix (s : Text) :
    ∃ u w, s = u ++ trim s ++ w ∧ allBlank u = true ∧ allBlank w = true := by
  obtain ⟨u, hu, hub⟩ := trimStart_append_blanks s
  obtain ⟨w, hw, hwb⟩ := trimEnd_append_blanks (trimStart s)
  exact ⟨u, w, by rw [trim, List.append_assoc, ← hw, ← hu], hub, hwb⟩

end ToolCatalog.Text
