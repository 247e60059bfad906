import ToolCatalog.Proofs.Declaration.LineEnds
import ToolCatalog.Proofs.Doc.Reindentation

/-!
# Declarations do not hang on the place of their source

Where nested declarations count, a header is what a trimmed line is, so only documentation could tell
where a line begins. A script may be indented in any way, line by line; a Python source may be moved to
the right as a whole, as a method is in its class (`extract_reindented`).

The lines are taken as what stands between the line feeds: carriage returns before these are trailing
blanks, which make no difference (`extract_eq_pieces`).
-/

namespace ToolCatalog.Declaration

open Text

/-! ## Pieces instead of lines -/

/-- A source declares what the pieces between its line feeds declare. -/
theorem extract_eq_pieces (language : Language) (options : ScanOptions) (source : Text) :
    extract language options source = passage language options [] [] (splitOn '\n' source) := by
  obtain ⟨n, hn⟩ := exists_pieces_eq_lines source
  calc extract language options source
      = passage language options [] [] (lines source) := extract_eq_passage language options source
    _ = passage language options [] [] ((lines source).map trimEnd) :=
      (passage_map_trimEnd language options [] (lines source) []).symm
    _ = passage language options [] [] ((splitOn '\n' source).map trimEnd) := by
      rw [hn, passage_append_empty]
    _ = passage language options [] [] (splitOn '\n' source) :=
      passage_map_trimEnd language options [] (splitOn '\n' source) []

/-! ## Passages with the same trimmed lines -/

/-- Lines with the same trimmed texts declare the same, if documentation is looked up in them with the
same result. -/
theorem passage_forall₂ {language : Language} {R : Text → Text → Prop}
    (htrim : ∀ {l l' : Text}, R l l' → trim l' = trim l)
    (hdescribe : ∀ {above above' below below' : List Text} (line line' : Text),
      List.Forall₂ R above above' → List.Forall₂ R below below' →
        language.describe (above' ++ line' :: below') above'.length =
          language.describe (above ++ line :: below) above.length)
    {ls ls' : List Text} (h : List.Forall₂ R ls ls') :
    ∀ {above above' : List Text}, List.Forall₂ R above above' →
      passage language {} above' [] ls' = passage language {} above [] ls := by
  induction h with
  | nil =>
    intro above above' _
    rfl
  | @cons line line' ls ls' hline hrest ih =>
    intro above above' habove
    have hnext : List.Forall₂ R (above ++ [line]) (above' ++ [line']) :=
      List.rel_append habove (.cons hline .nil)
    have hscanned : scanned {} line' = scanned {} line := by simp [scanned, htrim hline]
    rw [passage, passage, ih hnext]
    unfold atLine
    simp only [List.append_nil, hscanned, htrim hline, hdescribe line line' habove hrest]

theorem passage_python_indented {w : Text} (hw : allBlank w = true) {ls ls' : List Text}
    (h : List.Forall₂ (Doc.Indented w) ls ls') :
    passage .python {} [] [] ls' = passage .python {} [] [] ls := by
  refine passage_forall₂ (fun hline => hline.trim_eq hw) ?_ h .nil
  intro above above' below below' line line' _ hbelow
  rw [describe_python, describe_python, Doc.docstring_indented hw hbelow]

theorem passage_script_reindented {language : Language} (hlang : language ≠ .python)
    {ls ls' : List Text} (h : List.Forall₂ (fun l l' => trim l' = trim l) ls ls') :
    passage language {} [] [] ls' = passage language {} [] [] ls := by
  refine passage_forall₂ id ?_ h .nil
  intro above above' below below' line line' habove _
  rw [describe_script hlang, describe_script hlang]
  exact Doc.commentUpwards_trimmed (List.rel_reverse habove) []

/-! ## Whole sources -/

/-- **The place of a source makes no difference.** With the usual options, a Python source declares the
same when the same blanks are put in front of each of its lines, whether or not its blank lines get them.
A JavaScript or TypeScript source declares the same whatever blanks its lines begin with. -/
theorem extract_reindented :
    (∀ w source source' : Text, allBlank w = true →
      List.Forall₂ (Doc.Indented w) (splitOn '\n' source) (splitOn '\n' source') →
        extract .python {} source' = extract .python {} source) ∧
    (∀ (language : Language) (source source' : Text), language ≠ .python →
      (splitOn '\n' source').map trimStart = (splitOn '\n' source).map trimStart →
        extract language {} source' = extract language {} source) := by
  constructor
  · intro w source source' hw h
    rw [extract_eq_pieces, extract_eq_pieces, passage_python_indented hw h]
  · intro language source source' hlang h
    have htrim : List.Forall₂ (fun l l' => trim l' = trim l) (splitOn '\n' source)
        (splitOn '\n' source') := by
      rw [← List.forall₂_eq_eq_eq, List.forall₂_map_left_iff, List.forall₂_map_right_iff] at h
      exact h.flip.imp fun l l' hl => congrArg trimEnd hl
    rw [extract_eq_pieces, extract_eq_pieces, passage_script_reindented hlang htrim]

/-- A method whose documentation keeps an indented line, moved by a tab and a wide space, with a blank line
that gets one space only and no blanks after the last line feed; and a comment whose lines begin anywhere. -/
theorem extract_reindented_method :
    extract .python {} "\t\u3000def f(x):\n\t\u3000  '''Adds\n \n\t\u3000     more\n\t\u3000   one.\n" =
      extract .python {} "def f(x):\n  '''Adds\n\n     more\n   one.\n" ∧
    (extract .python {} "def f(x):\n  '''Adds\n\n     more\n   one.\n").map (·.description) =
      ["Adds\n\n  more\none.".toList] ∧
    extract .typescript {} "  /**\n\t* Adds\n* one. */\n\r\n function f(x) \x7b\n" =
      extract .typescript {} "/**\n * Adds\n   * one. */\n\t\n\u3000function f(x) \x7b\n" ∧
    (extract .typescript {} "/**\n * Adds\n   * one. */\n\t\n\u3000function f(x) \x7b\n").map
      (·.description) = ["Adds one.".toList] := by
  refine ⟨?_, by decide +kernel, ?_, by decide +kernel⟩
  · exact extract_reindented.1 "\t\u3000" _ _ (by decide) (by decide +kernel)
  · exact extract_reindented.2 .typescript _ _ (by decide) (by decide +kernel)

end ToolCatalog.Declaration
