/-!
# Texts

A text is the list of its characters, so that recognisers, printers and their laws are plain
recursions on lists. This file defines the operations the rest of the library needs on texts of any
kind: what follows a given beginning, what precedes a given end, the place of the first occurrence
of a text in another, and taking apart and putting together around a separator.

Main statements: `after?_eq_some_iff`, `before?_eq_some_iff`, `join_splitOn`.
-/

namespace ToolCatalog

/-- A text, as the list of its characters. -/
abbrev Text := List Char

instance : Coe String Text := ⟨String.toList⟩

namespace Text

/-- What follows `lead` at the start of a text. -/
def after? : Text → Text → Option Text
  | [], s => some s
  | _ :: _, [] => none
  | c :: lead, d :: s => if c = d then after? lead s else none

def startsWith (s lead : Text) : Bool := (after? lead s).isSome

/-- What precedes `tail` at the end of a text. -/
def before? (tail s : Text) : Option Text := (after? tail.reverse s.reverse).map List.reverse

/-- The part before the first occurrence of `mark`, if it occurs. -/
def upTo? (mark : Text) : Text → Option Text
  | [] => if mark = [] then some [] else none
  | c :: s => if startsWith (c :: s) mark then some [] else (upTo? mark s).map (c :: ·)

def occursIn (mark s : Text) : Bool := (upTo? mark s).isSome

/-- The pieces of a text between the occurrences of a separating character; never empty. -/
def splitOn (sep : Char) : Text → List Text
  | [] => [[]]
  | c :: s =>
    if c = sep then [] :: splitOn sep s
    else match splitOn sep s with
      | [] => [[c]]
      | piece :: rest => (c :: piece) :: rest

/-- Texts put together around a separator. -/
def join (sep : Text) : List Text → Text
  | [] => []
  | [t] => t
  | t :: rest => t ++ sep ++ join sep rest

def ofNat (n : Nat) : Text := Nat.toDigits 10 n

theorem after?_eq_some_iff {lead s r : Text} : after? lead s = some r ↔ s = lead ++ r := by
  induction lead generalizing s with
  | nil => simp [after?]
  | cons c lead ih =>
    cases s with
    | nil => simp [after?]
    | cons d s =>
      by_cases h : c = d
      · simp [after?, h, ih]
      · simp [after?, h, Ne.symm h]

@[simp] theorem after?_append (lead r : Text) : after? lead (lead ++ r) = some r :=
  after?_eq_some_iff.2 rfl

theorem startsWith_iff {lead s : Text} : startsWith s lead = true ↔ ∃ r, s = lead ++ r := by
  simp [startsWith, Option.isSome_iff_exists, after?_eq_some_iff]

theorem before?_eq_some_iff {tail s r : Text} : before? tail s = some r ↔ s = r ++ tail := by
  simp only [before?, Option.map_eq_some_iff, after?_eq_some_iff]
  constructor
  · rintro ⟨t, h, rfl⟩
    have := congrArg List.reverse h
    simpa using this
  · rintro rfl
    exact ⟨r.reverse, by simp, by simp⟩

theorem splitOn_ne_nil (sep : Char) (s : Text) : splitOn sep s ≠ [] := by
  cases s with
  | nil => simp [splitOn]
  | cons c s =>
    simp only [splitOn]
    split
    · simp
    · split <;> simp

/-- Putting the pieces together around the separator gives the text back. -/
theorem join_splitOn (sep : Char) (s : Text) : join [sep] (splitOn sep s) = s := by
  induction s with
  | nil => rfl
  | cons c s ih =>
    simp only [splitOn]
    have hne := splitOn_ne_nil sep s
    split
    · next h =>
      subst h
      cases hs : splitOn c s with
      | nil => exact absurd hs hne
      | cons p ps => rw [hs] at ih; simp [join, ih]
    · cases hs : splitOn sep s with
      | nil => exact absurd hs hne
      | cons p ps =>
        rw [hs] at ih
        cases ps with
        | nil => simpa [join] using ih
        | cons q qs => simpa [join] using ih

end Text

end ToolCatalog
