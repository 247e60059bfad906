import ToolCatalog.Proofs.Declaration.Passages
import ToolCatalog.Proofs.Doc.LineEnds

/-!
# Declarations do not hang on the ends of lines

What is declared in a source is declared in its bare lines (`extract_eq_bareLines`): trailing blanks make
no difference on any line, be it a header or a line of documentation, and neither do blank lines at the
end. So line feeds may be turned into carriage returns and line feeds, trailing blanks taken away and a
line feed put at the end or left out (`extract_line_ends`).
-/

namespace ToolCatalog.Declaration

open Text

/-! ## Trailing blanks -/

theorem scanned_trimEnd (options : ScanOptions) (line : Text) :
    scanned options (trimEnd line) = scanned options line := by
  unfold scanned
  rw [trim_trimEnd]
  cases hblank : allBlank line with
  | true =>
    -- a blank line is not looked at
    have htrim : trim line = [] := by
      rw [← trim_trimEnd, trimEnd_eq_nil_iff.2 hblank]
      rfl
    simp [htrim]
  | false =>
    obtain ⟨w, hline, -⟩ := trimEnd_append_blanks line
    have hhead : (trimEnd line).head? = line.head? := by
      cases htrim : trimEnd line with
      | nil =>
        rw [trimEnd_eq_nil_iff, hblank] at htrim
        cases htrim
      | cons c s =>
        rw [htrim] at hline
        rw [hline]
        rfl
    rw [hhead]

theorem describe_map_trimEnd (language : Language) (above : List Text) (line : Text)
    (below : List Text) :
    language.describe (above.map trimEnd ++ trimEnd line :: below.map trimEnd)
        (above.map trimEnd).length =
      language.describe (above ++ line :: below) above.length := by
  by_cases h : language = .python
  · rw [h, describe_python, describe_python, Doc.docstring_map_trimEnd]
  · rw [describe_script h, describe_script h, ← List.map_reverse, Doc.commentUpwards_map_trimEnd]

/-- Trailing blanks make no difference to a passage, on its own lines or on those around it. -/
theorem passage_map_trimEnd (language : Language) (options : ScanOptions) (below : List Text) :
    ∀ ls above : List Text,
      passage language options (above.map trimEnd) (below.map trimEnd) (ls.map trimEnd) =
        passage language options above below ls
  | [], _ => rfl
  | line :: ls, above => by
    have ih := passage_map_trimEnd language options below ls (above ++ [line])
    rw [List.map_append, List.map_cons, List.map_nil] at ih
    have hdescribe := describe_map_trimEnd language above line (ls ++ below)
    rw [List.map_append] at hdescribe
    rw [List.map_cons, passage, passage, ih]
    unfold atLine
    rw [hdescribe, scanned_trimEnd, trim_trimEnd]

/-! ## Empty lines at the end -/

/-- Empty lines at the end of the source make no difference to a passage. -/
theorem passage_below_empty (language : Language) (options : ScanOptions) (n : Nat)
    (ls above : List Text) :
    passage language options above (List.replicate n []) ls = passage language options above [] ls := by
  have hall : List.Forall₂ Eq (passage language options (above ++ []) (List.replicate n []) ls)
      (passage language options (above ++ []) [] ls) := by
    refine forall₂_passage language options Eq ?_ ls []
    intro pre post line signature header
    by_cases h : language = .python
    · rw [h, describe_python, describe_python, Doc.docstring_append_empty, List.append_nil]
    · rw [describe_script h, describe_script h]
  rw [List.append_nil] at hall
  exact List.forall₂_eq_eq_eq ▸ hall

theorem passage_append_empty (language : Language) (options : ScanOptions) (ls : List Text) (n : Nat) :
    passage language options [] [] (ls ++ List.replicate n []) = passage language options [] [] ls := by
  have hempty : passage language options ([] ++ ls) [] (List.replicate n []) = [] := by
    refine passage_eq_nil options [] _ _ ?_
    intro l hl header hheader
    rw [List.eq_of_mem_replicate hl] at hheader
    have hnil : language.headers (trim []) = [] := by cases language <;> decide
    rw [hnil] at hheader
    cases hheader
  rw [passage_append, hempty, List.append_nil, List.append_nil, passage_below_empty]

/-! ## Whole sources -/

/-- A source declares what its bare lines declare. -/
theorem extract_eq_bareLines (language : Language) (options : ScanOptions) (source : Text) :
    extract language options source = passage language options [] [] (bareLines source) := by
  obtain ⟨n, hn⟩ := exists_bareLines_append source
  calc extract language options source
      = passage language options [] [] (lines source) := extract_eq_passage language options source
    _ = passage language options [] [] ((lines source).map trimEnd) :=
      (passage_map_trimEnd language options [] (lines source) []).symm
    _ = passage language options [] [] (bareLines source) := by
      rw [hn, passage_append_empty]

/-- **The ends of lines make no difference.** Two sources with the same bare lines declare the same. So
does a source with a carriage return before each line feed, one without its trailing blanks, and one
with a line feed at its end. -/
theorem extract_line_ends (language : Language) (options : ScanOptions) :
    (∀ source source' : Text, bareLines source = bareLines source' →
      extract language options source = extract language options source') ∧
    (∀ source : Text,
      extract language options (withReturns source) = extract language options source) ∧
    (∀ source : Text,
      extract language options (withoutTrailing source) = extract language options source) ∧
    (∀ source : Text,
      extract language options (source ++ "\n") = extract language options source) := by
  have hsame : ∀ source source' : Text, bareLines source = bareLines source' →
      extract language options source = extract language options source' := by
    intro source source' h
    rw [extract_eq_bareLines, h, ← extract_eq_bareLines]
  refine ⟨hsame, ?_, ?_, ?_⟩
  · intro source
    exact hsame _ _ (bareLines_withReturns source)
  · intro source
    exact hsame _ _ (bareLines_withoutTrailing source)
  · intro source
    exact hsame _ _ (bareLines_append_newline source)

/-- A documentation string that is never closed takes in the blank lines at the end, which have blanks of
several kinds in the one source and are missing in the other. -/
theorem extract_line_ends_unclosed :
    bareLines "def f(x):\n  '''Adds\n     more\n    one." =
      bareLines "def f(x):\u3000\r\n  '''Adds \n     more\t\r\n    one.\r\n  \n\u2003\r" ∧
    extract .python {} "def f(x):\u3000\r\n  '''Adds \n     more\t\r\n    one.\r\n  \n\u2003\r" =
      extract .python {} "def f(x):\n  '''Adds\n     more\n    one." ∧
    (extract .python {} "def f(x):\n  '''Adds\n     more\n    one.").map (·.description) =
      ["Adds\n more\none.".toList] := by
  have hbare : bareLines "def f(x):\n  '''Adds\n     more\n    one." =
      bareLines "def f(x):\u3000\r\n  '''Adds \n     more\t\r\n    one.\r\n  \n\u2003\r" := by
    decide +kernel
  exact ⟨hbare, ((extract_line_ends .python {}).1 _ _ hbare).symm, by decide +kernel⟩

end ToolCatalog.Declaration
