import ToolCatalog.Proofs.Declaration.ParameterNames
import ToolCatalog.Proofs.Declaration.PythonHeaders
import ToolCatalog.Proofs.Declaration.ScriptHeaders
import ToolCatalog.Proofs.Doc.Comments

/-!
# Declarations are well formed

A scan refuses nothing, so a declaration can come from a text of any kind. Still every declaration that
is extracted is well formed (`wellFormed_of_mem_extract`): its name is a public one that its header line
holds, its documentation is trimmed, and the properties and the required names of its parameters agree
with each other.
-/

namespace ToolCatalog

open Text Header

/-- A schema as it describes the parameters of a function. -/
structure ParameterSchema.WellFormed (language : Language) (schema : ParameterSchema) : Prop where
  object : schema.type = "object"
  nodup : schema.names.Nodup
  names : ∀ n ∈ schema.names, PropertyName language n
  property : ∀ n v, (n, v) ∈ schema.properties →
    v = .object [("type", .string "string"), ("description", .string ("Parameter " ++ n))]

namespace Declaration

/-- A declaration as it can be found in a source. -/
structure WellFormed (language : Language) (source : Text) (d : Declaration) : Prop where
  name : Identifier d.name ∧ d.name.head? ≠ some '_'
  signature_ne_nil : d.signature ≠ []
  signature_trimmed : trim d.signature = d.signature
  signature_name : d.name <:+: d.signature
  signature_line : ∃ line ∈ lines source, d.signature = trim line
  description_trimmed : trim d.description = d.description
  description_oneLine : language ≠ .python → '\n' ∉ d.description
  function_iff : d.kind = .function ↔ d.parameters.isSome = true
  class_required : d.kind = .classDef → d.required = []
  schema : ∀ schema ∈ d.parameters,
    schema.WellFormed language ∧ ∀ n ∈ d.required, n ∈ schema.names

end Declaration

/-! ## The parts of a header -/

namespace Header

theorem Optionally.isSuffix {word s t : Text} (h : Optionally word s t) : t <:+ s := by
  rcases h with rfl | ⟨w, -, rfl⟩
  · exact List.suffix_refl s
  · exact List.suffix_append _ t

/-- A header on a line: its name is a name, and with its parameters it stands in the line. -/
def StandsIn (line : Text) : Header → Prop
  | .function n params => Identifier n ∧ n <:+: line ∧ params <:+: line
  | .classDef n => Identifier n ∧ n <:+: line

theorem PythonFunction.standsIn {line n p : Text} (h : PythonFunction line n p) :
    StandsIn line (.function n p) := by
  obtain ⟨w, w', result, -, hn, -, -, rfl⟩ := h
  refine ⟨hn, ⟨"def" ++ w, w' ++ "(" ++ p ++ ")" ++ result, by simp⟩, ?_⟩
  exact ⟨"def" ++ w ++ n ++ w' ++ "(", ")" ++ result, by simp⟩

theorem PythonClass.standsIn {line n : Text} (h : PythonClass line n) :
    StandsIn line (.classDef n) := by
  obtain ⟨w, bases, -, hn, -, rfl⟩ := h
  exact ⟨hn, "class" ++ w, bases, rfl⟩

theorem ScriptFunction.standsIn {line n p : Text} (h : ScriptFunction line n p) :
    StandsIn line (.function n p) := by
  obtain ⟨a, b, w, w', rest, ha, hb, -, hn, -, rfl⟩ := h
  have hsuffix := (hb.isSuffix.trans ha.isSuffix).isInfix
  refine ⟨hn, List.IsInfix.trans ?_ hsuffix, List.IsInfix.trans ?_ hsuffix⟩
  · exact ⟨"function" ++ w, w' ++ "(" ++ p ++ ")" ++ rest, by simp⟩
  · exact ⟨"function" ++ w ++ n ++ w' ++ "(", ")" ++ rest, by simp⟩

theorem ScriptArrow.standsIn {line n p : Text} (h : ScriptArrow line n p) :
    StandsIn line (.function n p) := by
  obtain ⟨a, w, w₁, w₂, s, result, ha, -, hn, -, -, hs, -, rfl⟩ := h
  have hsuffix := ha.isSuffix.isInfix
  have hlast : s <:+: "const" ++ w ++ n ++ w₁ ++ "=" ++ w₂ ++ s := (List.suffix_append _ s).isInfix
  refine ⟨hn, List.IsInfix.trans ?_ hsuffix, List.IsInfix.trans ?_ (hlast.trans hsuffix)⟩
  · exact ⟨"const" ++ w, w₁ ++ "=" ++ w₂ ++ s, by simp⟩
  · exact List.IsInfix.trans ⟨"(", ")" ++ result, by simp⟩ hs.isSuffix.isInfix

theorem ScriptClass.standsIn {line n : Text} (h : ScriptClass line n) :
    StandsIn line (.classDef n) := by
  obtain ⟨a, b, w, rest, ha, hb, -, hn, -, rfl⟩ := h
  exact ⟨hn, List.IsInfix.trans ⟨"class" ++ w, rest, rfl⟩ (hb.isSuffix.trans ha.isSuffix).isInfix⟩

theorem standsIn_of_mem_script {line : Text} {h : Header}
    (hmem : h ∈ Language.headers .typescript line) : StandsIn line h := by
  rcases mem_headers_script.1 hmem with hf | ha | hc
  · obtain ⟨n, p, hfun, rfl⟩ := scriptFunction?_eq_some_iff.1 hf
    exact hfun.1.standsIn
  · obtain ⟨n, p, harrow, rfl⟩ := scriptArrow?_eq_some_iff.1 ha
    exact harrow.1.standsIn
  · obtain ⟨n, hclass, rfl⟩ := scriptClass?_eq_some_iff.1 hc
    exact hclass.standsIn

theorem standsIn_of_mem {language : Language} {line : Text} {h : Header}
    (hmem : h ∈ language.headers line) : StandsIn line h := by
  cases language with
  | python =>
    rcases mem_headers_python.1 hmem with hf | hc
    · obtain ⟨n, p, hfun, rfl⟩ := pythonFunction?_eq_some_iff.1 hf
      exact hfun.1.standsIn
    · obtain ⟨n, hclass, rfl⟩ := pythonClass?_eq_some_iff.1 hc
      exact hclass.standsIn
  | javascript => exact standsIn_of_mem_script hmem
  | typescript => exact standsIn_of_mem_script hmem

end Header

/-! ## Documentation -/

theorem Doc.trim_docstring (lines : List Text) (start : Nat) :
    trim (Doc.docstring lines start) = Doc.docstring lines start := by
  unfold Doc.docstring
  split
  · rfl
  split
  · rfl
  split
  · exact trim_trim _
  · exact trim_trim _

theorem Doc.blockComment_oneLine {lines : List Text} (h : ∀ l ∈ lines, '\n' ∉ l) (i : Nat) :
    trim (Doc.blockComment lines i) = Doc.blockComment lines i ∧ '\n' ∉ Doc.blockComment lines i := by
  have hlines : ∀ l ∈ (lines.take i).reverse, '\n' ∉ l := fun l hl =>
    h l (List.mem_of_mem_take (List.mem_reverse.1 hl))
  obtain ⟨found, heq, hfound⟩ := Doc.commentUpwards_eq_join _ [] hlines (by simp)
  unfold Doc.blockComment
  rw [heq]
  refine ⟨trim_join " " fun t ht => ⟨(hfound t ht).trimmed, (hfound t ht).ne_nil⟩, ?_⟩
  have hlacks : Lacks ['\n'] (join " " found) := by
    refine Lacks.join (by decide) ?_
    intro t ht c hc hnewline
    rw [List.mem_singleton.1 hnewline] at hc
    exact (hfound t ht).oneLine hc
  exact hlacks.notMem (by simp)

theorem Language.describe_wellFormed (language : Language) {lines : List Text}
    (h : ∀ l ∈ lines, '\n' ∉ l) (i : Nat) :
    trim (language.describe lines i) = language.describe lines i ∧
      (language ≠ .python → '\n' ∉ language.describe lines i) := by
  cases language with
  | python => exact ⟨Doc.trim_docstring _ _, (absurd rfl ·)⟩
  | javascript => exact (Doc.blockComment_oneLine h i).imp_right fun hline _ => hline
  | typescript => exact (Doc.blockComment_oneLine h i).imp_right fun hline _ => hline

/-! ## Parameters -/

/-- The parameters in a text on one line have a schema that is well formed and holds their required
names. -/
theorem Language.parameters_wellFormed {language : Language} {params : Text} (h : '\n' ∉ params) :
    (language.parameters params).schema.WellFormed language ∧
      ∀ n ∈ (language.parameters params).required, n ∈ (language.parameters params).schema.names := by
  obtain ⟨ps, hps, hnames⟩ := Language.parameters_eq h
  rw [hps]
  refine ⟨⟨?_, ParameterList.nodup_names_ofParameters ps, ?_, ?_⟩, ?_⟩
  · rw [ParameterList.schema_ofParameters]
    rfl
  · intro n hn
    obtain ⟨p, hp, rfl⟩ := ParameterList.mem_names_ofParameters.1 hn
    exact hnames p hp
  · intro n v hv
    exact ParameterList.property_ofParameters hv
  · intro n hn
    exact ParameterList.mem_required_ofParameters hn

namespace Declaration

/-- What a public header on a line declares. -/
theorem wellFormed_ofHeader {language : Language} {source line : Text} (hline : line ∈ lines source)
    {h : Header} (hmem : h ∈ language.headers (trim line)) (hpub : h.isPublic = true)
    (hne : trim line ≠ []) (i : Nat) :
    (ofHeader language (trim line) (language.describe (lines source) i) h).WellFormed language
      source := by
  have hnewline : ∀ l ∈ lines source, '\n' ∉ l := fun l hl => newline_notMem_of_mem_lines hl
  obtain ⟨htrim, hdescription⟩ := language.describe_wellFormed hnewline i
  have hstands := standsIn_of_mem hmem
  rw [isPublic_iff] at hpub
  cases h with
  | function n params =>
    obtain ⟨hname, hinfix, hparams⟩ := hstands
    have hinner : '\n' ∉ params := fun hc =>
      hnewline line hline ((trim_isInfix line).subset (hparams.subset hc))
    refine ⟨⟨hname, hpub⟩, hne, trim_trim line, hinfix, ⟨line, hline, rfl⟩, htrim, hdescription,
      ⟨fun _ => rfl, fun _ => rfl⟩, by rintro ⟨⟩, ?_⟩
    intro schema hschema
    cases hschema
    exact Language.parameters_wellFormed hinner
  | classDef n =>
    refine ⟨⟨hstands.1, hpub⟩, hne, trim_trim line, hstands.2, ⟨line, hline, rfl⟩, htrim, hdescription,
      ⟨by rintro ⟨⟩, by rintro ⟨⟩⟩, fun _ => rfl, ?_⟩
    intro schema hschema
    cases hschema

/-- **Every declaration of every source is well formed.** -/
theorem wellFormed_of_mem_extract {language : Language} {options : ScanOptions} {source : Text}
    {d : Declaration} (h : d ∈ extract language options source) : d.WellFormed language source := by
  obtain ⟨line, hline, hne, i, header, hheader, hpub, rfl⟩ := exists_of_mem_extract h
  exact wellFormed_ofHeader hline hheader hpub hne i

/-- A function whose first parameter comes twice, beside a rest parameter and a piece without a name. -/
def repeatedParameter : Declaration where
  name := "f"
  kind := .function
  signature := "const f = (a?, ...r, a : x = 1, =) => b"
  description := []
  parameters := some { properties := [("a".toList, ParameterSchema.property "a")] }
  required := []

/-- The header stands on its line with blanks around it. -/
theorem wellFormed_repeated :
    repeatedParameter ∈ extract .typescript {} "  const f = (a?, ...r, a : x = 1, =) => b \n" ∧
    repeatedParameter.WellFormed .typescript "  const f = (a?, ...r, a : x = 1, =) => b \n" := by
  have hextract : extract .typescript {} "  const f = (a?, ...r, a : x = 1, =) => b \n" =
      [repeatedParameter] := rfl
  have hmem : repeatedParameter ∈
      extract .typescript {} "  const f = (a?, ...r, a : x = 1, =) => b \n" := by
    rw [hextract]
    exact List.mem_singleton_self _
  exact ⟨hmem, wellFormed_of_mem_extract hmem⟩

end Declaration

end ToolCatalog
