import ToolCatalog.Json.Document
import ToolCatalog.Json.Printer

/-!
# Printed strings are read back

A string is printed character by character, and each printed character is read as one piece
(`readString_escapeChar`), whatever comes after it. So a printed text is read up to its closing quote, and
its pieces spell the text (`piecesText?_ofText`).
-/

namespace ToolCatalog.Json

theorem Source.ofText_append (s t : Text) : Source.ofText (s ++ t) = Source.ofText s ++ Source.ofText t :=
  List.map_append

theorem Source.ofText_cons (c : Char) (s : Text) : Source.ofText (c :: s) = some c :: Source.ofText s := rfl

theorem Source.length_ofText (s : Text) : (Source.ofText s).length = s.length := List.length_map _

/-! ## One character -/

/-- The characters that are printed as a backslash and a letter or a mark. -/
def hasShortEscape (c : Char) : Bool := ("\"\\\x08\x0c\n\r\t" : Text).contains c

/-- The piece that a character is read as after it has been printed. -/
def Piece.ofChar (c : Char) : Piece :=
  if c.toNat < 0x20 && !hasShortEscape c then .unit c.toNat else .char c

theorem hexValue?_hexDigit : ∀ n < 16, hexValue? (hexDigit n) = some n := by decide

/-- The unit that is printed for a character below U+0020. -/
theorem hexUnit?_hexDigit {n : Nat} (h : n < 0x20) :
    hexUnit? '0' '0' (hexDigit (n / 16)) (hexDigit (n % 16)) = some n := by
  have hzero : hexValue? '0' = some 0 := by decide
  have hvalue : ((0 * 16 + 0) * 16 + n / 16) * 16 + n % 16 = n := by omega
  unfold hexUnit?
  rw [hzero, hexValue?_hexDigit (n / 16) (by omega), hexValue?_hexDigit (n % 16) (by omega)]
  exact congrArg some hvalue

/-- A character that needs no escape is read as it stands. -/
theorem readString_char {c : Char} (hquote : c ≠ '"') (hslash : c ≠ '\\') (hprinted : ¬ c.toNat < 0x20)
    (rest : Source) :
    readString (some c :: rest) = (readString rest).map fun (ps, r) => (.char c :: ps, r) := by
  have hplain : ¬ (decide (c = '\\') || decide (c.toNat < 0x20)) = true := by simp [hslash, hprinted]
  rw [readString.eq_def]
  -- the quote and the two kinds of escape come before the last equation, which is the one that applies
  split
  case h_6 heq =>
    cases heq
    rw [if_neg hplain]
  all_goals simp_all

/-- A printed character is read as its piece. -/
theorem readString_escapeChar (c : Char) (rest : Source) :
    readString (Source.ofText (escapeChar c) ++ rest) =
      (readString rest).map fun (ps, r) => (Piece.ofChar c :: ps, r) := by
  by_cases hshort : hasShortEscape c = true
  · have hpiece : Piece.ofChar c = .char c := by simp [Piece.ofChar, hshort]
    have hcases : c = '"' ∨ c = '\\' ∨ c = '\x08' ∨ c = '\x0c' ∨ c = '\n' ∨ c = '\r' ∨ c = '\t' := by
      simpa [hasShortEscape] using hshort
    rw [hpiece]
    rcases hcases with rfl | rfl | rfl | rfl | rfl | rfl | rfl <;> rfl
  · have hcases : c ≠ '"' ∧ c ≠ '\\' ∧ c ≠ '\x08' ∧ c ≠ '\x0c' ∧ c ≠ '\n' ∧ c ≠ '\r' ∧ c ≠ '\t' := by
      simpa [hasShortEscape, not_or] using hshort
    obtain ⟨hquote, hslash, hb, hf, hn, hr, ht⟩ := hcases
    unfold escapeChar
    simp only [hquote, hslash, hb, hf, hn, hr, ht, if_false]
    by_cases hcontrol : c.toNat < 0x20
    · have hpiece : Piece.ofChar c = .unit c.toNat := by simp [Piece.ofChar, hshort, hcontrol]
      rw [hpiece, if_pos hcontrol]
      simp [Source.ofText, readString, hexUnit?_hexDigit hcontrol]
    · have hpiece : Piece.ofChar c = .char c := by simp [Piece.ofChar, hcontrol]
      rw [hpiece, if_neg hcontrol]
      exact readString_char hquote hslash hcontrol rest

theorem piecesText?_cons (c : Char) (ps : List Piece) :
    piecesText? (Piece.ofChar c :: ps) = (piecesText? ps).map (c :: ·) := by
  unfold Piece.ofChar
  split
  · rename_i h
    simp only [Bool.and_eq_true, decide_eq_true_eq] at h
    have hhigh : ¬ (0xD800 ≤ c.toNat ∧ c.toNat ≤ 0xDBFF) := by omega
    have hlow : ¬ (0xDC00 ≤ c.toNat ∧ c.toNat ≤ 0xDFFF) := by omega
    rw [piecesText?.eq_def]
    simp [hhigh, hlow]
  · rfl

/-! ## Whole strings -/

/-- The pieces of a text that has been printed. -/
def Piece.ofText (s : Text) : List Piece := s.map Piece.ofChar

/-- A printed text is read up to its closing quote. -/
theorem readString_flatMap (rest : Source) :
    ∀ s : Text, readString (Source.ofText (s.flatMap escapeChar) ++ some '"' :: rest) =
      some (Piece.ofText s, rest)
  | [] => rfl
  | c :: s => by
    rw [List.flatMap_cons, Source.ofText_append, List.append_assoc, readString_escapeChar,
      readString_flatMap rest s]
    rfl

theorem ofText_quote (s : Text) (rest : Source) :
    Source.ofText (quote s) ++ rest =
      some '"' :: (Source.ofText (s.flatMap escapeChar) ++ some '"' :: rest) := by
  simp [quote, Source.ofText]

/-- The pieces of a printed text spell the text. -/
theorem piecesText?_ofText : ∀ s : Text, piecesText? (Piece.ofText s) = some s
  | [] => rfl
  | c :: s => by
    rw [Piece.ofText, List.map_cons, piecesText?_cons]
    exact congrArg (Option.map (c :: ·)) (piecesText?_ofText s)

end ToolCatalog.Json
