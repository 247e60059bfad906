import ToolCatalog.Proofs.Declaration.Passages
import ToolCatalog.Proofs.Declaration.PythonHeaders
import ToolCatalog.Proofs.Declaration.ScriptHeaders
import ToolCatalog.Proofs.Text.Trimming

/-!
# A signature is a source of its own

The signature of a declaration is the trimmed line of its header. As a source it is a single line at the top
level, with no other line to look for documentation in (`extract_header`). So it declares what the header
declared in its place, but for the documentation (`extract_signature`).
-/

namespace ToolCatalog

open Text

/-- In no language a line is more than one header. -/
theorem Language.length_headers_le (language : Language) (line : Text) :
    (language.headers line).length ≤ 1 := by
  cases language with
  | python => exact Header.length_headers_python line
  | javascript => exact Header.length_headers_script line
  | typescript => exact Header.length_headers_script line

/-- A line on its own has no documentation. -/
theorem Language.describe_singleton (language : Language) (line : Text) :
    language.describe [line] 0 = [] := by
  cases language <;> rfl

namespace Declaration

/-- A trimmed text is looked at, whether only the top level counts or not. -/
theorem scanned_of_trimmed (options : ScanOptions) {s : Text} (htrim : trim s = s) (hne : s ≠ []) :
    scanned options s = true := by
  refine scanned_iff.2 ⟨?_, by rwa [htrim]⟩
  rintro - c rest rfl
  exact stops_cons.1 (stops_blank_of_trim htrim)

/-- A source that is one trimmed line with a public header declares what the header does. -/
theorem extract_header {language : Language} {s : Text} {h : Header} (htrim : trim s = s)
    (hnewline : '\n' ∉ s) (hmem : h ∈ language.headers s) (hpub : h.isPublic = true) (hne : s ≠ [])
    (options : ScanOptions) : extract language options s = [ofHeader language s [] h] := by
  have hline : atLine language options [s] 0 s =
      [ofHeader language (trim s) (language.describe [s] 0) h] :=
    atLine_of_header language.length_headers_le (scanned_of_trimmed options htrim hne)
      (by rwa [htrim]) hpub [s] 0
  rw [htrim, language.describe_singleton] at hline
  rw [extract_eq_passage, lines_of_notMem hnewline hne]
  simpa [passage] using hline

/-- **The signature of a declaration declares it again, without its documentation.** -/
theorem extract_signature {language : Language} {options : ScanOptions} {source : Text}
    {d : Declaration} (hd : d ∈ extract language options source) (options' : ScanOptions) :
    extract language options' d.signature = [d.undescribed] := by
  obtain ⟨line, hline, hne, i, h, hmem, hpub, rfl⟩ := exists_of_mem_extract hd
  have hnewline : '\n' ∉ trim line := fun hc =>
    newline_notMem_of_mem_lines hline ((trim_isInfix line).subset hc)
  have hagain := extract_header (trim_trim line) hnewline hmem hpub hne options'
  cases h with
  | function n params => exact hagain
  | classDef n => exact hagain

/-- A documented constant that holds an arrow function. -/
def documentedArrow : Declaration where
  name := "f"
  kind := .function
  signature := "export const f = (a, b?: B): C => a;"
  description := "Adds."
  parameters := some
    { properties := [("a".toList, ParameterSchema.property "a"), ("b".toList, ParameterSchema.property "b")] }
  required := ["a".toList]

/-- The header stands below a comment, with blanks around it that would hide it where only the top level
counts; on its own it is at the top level. -/
theorem extract_documentedArrow :
    documentedArrow ∈
      extract .typescript {} "/** Adds. */\r\n  export const f = (a, b?: B): C => a; \r\n" ∧
    extract .typescript { topLevelOnly := true } "export const f = (a, b?: B): C => a;" =
      [{ documentedArrow with description := [] }] := by
  have hextract : extract .typescript {} "/** Adds. */\r\n  export const f = (a, b?: B): C => a; \r\n" =
      [documentedArrow] := rfl
  have hmem : documentedArrow ∈
      extract .typescript {} "/** Adds. */\r\n  export const f = (a, b?: B): C => a; \r\n" := by
    rw [hextract]
    exact List.mem_singleton_self _
  exact ⟨hmem, extract_signature hmem { topLevelOnly := true }⟩

end Declaration

end ToolCatalog
