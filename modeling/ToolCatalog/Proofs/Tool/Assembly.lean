import ToolCatalog.Proofs.Declaration.WellFormed
import ToolCatalog.Tool.Assembly

/-!
# Functions become tools

No descriptor that comes from a source is at fault: a declaration that was extracted has a name, and its
parameters are an object. So the functions of a source are assembled to one tool each, in their order
(`assemble_regular`, `forall₂_wraps`), and assembly fails only where there is no function
(`assemble_extract`).
-/

namespace ToolCatalog

/-- A declaration with a name that has parameters exactly if it is a function. -/
def Declaration.Regular (d : Declaration) : Prop :=
  d.name ≠ [] ∧ (d.kind = .function ↔ d.parameters.isSome = true)

theorem Declaration.regular_of_mem_extract {language : Language} {options : ScanOptions} {source : Text}
    {d : Declaration} (h : d ∈ Declaration.extract language options source) : d.Regular := by
  obtain ⟨line, -, -, i, header, hheader, -, rfl⟩ := Declaration.exists_of_mem_extract h
  have hstands := Header.standsIn_of_mem hheader
  cases header with
  | function n params => exact ⟨hstands.1.1, fun _ => rfl, fun _ => rfl⟩
  | classDef n => exact ⟨hstands.1.1, by rintro ⟨⟩, by rintro ⟨⟩⟩

/-- A function among declarations. -/
def Declaration.isFunction (d : Declaration) : Bool := d.kind == .function

theorem Declaration.Regular.isFunction_eq {d : Declaration} (h : d.Regular) :
    d.isFunction = (Descriptor.ofDeclaration? d).isSome := by
  rw [Bool.eq_iff_iff, Declaration.isFunction, beq_iff_eq, h.2, Descriptor.ofDeclaration?,
    Option.isSome_map]

theorem Descriptor.ofDeclarations_eq_nil_iff {ds : List Declaration} (h : ∀ d ∈ ds, d.Regular) :
    Descriptor.ofDeclarations ds = [] ↔ ds.any Declaration.isFunction = false := by
  unfold Descriptor.ofDeclarations
  rw [List.filterMap_eq_nil_iff, List.any_eq_false]
  refine forall₂_congr fun d hd => ?_
  rw [(h d hd).isFunction_eq]
  simp

theorem Descriptor.ofDeclarations_eq_nil_iff_kind {ds : List Declaration} (h : ∀ d ∈ ds, d.Regular) :
    Descriptor.ofDeclarations ds = [] ↔ ∀ d ∈ ds, d.kind ≠ .function := by
  rw [Descriptor.ofDeclarations_eq_nil_iff h, List.any_eq_false]
  simp [Declaration.isFunction]

namespace Tool

/-- The tool of a function has its name, its description and the schema of its parameters, with the
required names in it on demand. -/
structure Wraps (options : AssemblyOptions) (d : Declaration) (t : Tool) : Prop where
  name : t.name = d.name
  description : t.description = d.description
  parameters : ∃ schema, d.parameters = some schema ∧ t.parameters =
    if options.embedRequired then withRequired d.required schema.toJson else schema.toJson

theorem wraps_ofDescriptor (options : AssemblyOptions) {d : Declaration} {x : Descriptor}
    (h : Descriptor.ofDeclaration? d = some x) : Wraps options d (ofDescriptor options x) := by
  obtain ⟨schema, hschema, rfl⟩ := Option.map_eq_some_iff.1 h
  exact ⟨rfl, rfl, schema, hschema, rfl⟩

theorem faultOf?_of_regular {d : Declaration} (hd : d.Regular) {x : Descriptor}
    (h : Descriptor.ofDeclaration? d = some x) : faultOf? x = none := by
  obtain ⟨schema, -, rfl⟩ := Option.map_eq_some_iff.1 h
  simp [faultOf?, hd.1, ParameterSchema.toJson]

theorem firstFault?_eq_none :
    ∀ {ds : List Descriptor} (index : Nat), (∀ d ∈ ds, faultOf? d = none) → firstFault? index ds = none
  | [], _, _ => rfl
  | d :: ds, index, h => by
    rw [firstFault?, h d (by simp)]
    exact firstFault?_eq_none (index + 1) fun x hx => h x (List.mem_cons_of_mem d hx)

/-- Descriptors without a fault are assembled one by one. -/
theorem assemble_of_faultless (options : AssemblyOptions) {ds : List Descriptor} (hne : ds ≠ [])
    (h : ∀ d ∈ ds, faultOf? d = none) : assemble options ds = .ok (ds.map (ofDescriptor options)) := by
  unfold assemble
  rw [firstFault?_eq_none 0 h]
  simp [hne]

/-- Regular declarations with a function among them are assembled. -/
theorem assemble_regular (options : AssemblyOptions) {ds : List Declaration} (h : ∀ d ∈ ds, d.Regular)
    (hne : Descriptor.ofDeclarations ds ≠ []) :
    assemble options (Descriptor.ofDeclarations ds) =
      .ok ((Descriptor.ofDeclarations ds).map (ofDescriptor options)) := by
  refine assemble_of_faultless options hne ?_
  intro x hx
  obtain ⟨d, hd, hx⟩ := List.mem_filterMap.1 hx
  exact faultOf?_of_regular (h d hd) hx

/-- The tools of regular declarations are one for each function, in order. -/
theorem forall₂_wraps (options : AssemblyOptions) {ds : List Declaration} (h : ∀ d ∈ ds, d.Regular) :
    List.Forall₂ (Wraps options) (ds.filter Declaration.isFunction)
      ((Descriptor.ofDeclarations ds).map (ofDescriptor options)) := by
  have hkept : ds.filter Declaration.isFunction =
      ds.filter fun d => (Descriptor.ofDeclaration? d).isSome :=
    List.filter_congr fun d hd => (h d hd).isFunction_eq
  rw [hkept, List.forall₂_map_right_iff]
  refine (Declaration.forall₂_filterMap Descriptor.ofDeclaration? ds).imp ?_
  rintro d x ⟨-, hx⟩
  exact wraps_ofDescriptor options hx

/-! ## The functions of a source -/

/-- The fields that the parameters of a tool have besides the type and the properties. -/
def requiredFields (options : AssemblyOptions) (required : List Text) : Fields Json :=
  if options.embedRequired = true ∧ required ≠ [] then [("required", Json.ofTexts required)] else []

/-- The tool of a function in a source. Its parameters are an object with the type, the properties in their
order, and, on demand and where there are some, the required names, all of which are properties. -/
structure Carries (options : AssemblyOptions) (d : Declaration) (t : Tool) : Prop where
  name : t.name = d.name
  description : t.description = d.description
  parameters : ∃ schema, d.parameters = some schema ∧
    t.parameters = .object (("type", .string "object") :: ("properties", .object schema.properties) ::
      requiredFields options d.required) ∧
    ∀ n ∈ d.required, n ∈ Fields.keys schema.properties

theorem withRequired_toJson (options : AssemblyOptions) (required : List Text) (schema : ParameterSchema) :
    (if options.embedRequired then withRequired required schema.toJson else schema.toJson) =
      .object (("type", .string schema.type) :: ("properties", .object schema.properties) ::
        requiredFields options required) := by
  unfold requiredFields
  cases options.embedRequired with
  | false => rfl
  | true =>
    cases required with
    | nil => rfl
    | cons n names => rfl

theorem Wraps.carries {options : AssemblyOptions} {language : Language} {source : Text} {d : Declaration}
    {t : Tool} (h : Wraps options d t) (hd : d.WellFormed language source) : Carries options d t := by
  obtain ⟨schema, hschema, hparameters⟩ := h.parameters
  obtain ⟨hwell, hrequired⟩ := hd.schema schema hschema
  rw [withRequired_toJson, hwell.object] at hparameters
  exact ⟨h.name, h.description, schema, hschema, hparameters, hrequired⟩

/-- The tools of the functions of a source carry them, one for each, in order. -/
theorem forall₂_carries (language : Language) (scan : ScanOptions) (options : AssemblyOptions)
    (source : Text) :
    let ds := Declaration.extract language scan source
    List.Forall₂ (Carries options) (ds.filter Declaration.isFunction)
      ((Descriptor.ofDeclarations ds).map (ofDescriptor options)) := by
  intro ds
  have hwraps := forall₂_wraps options fun d (hd : d ∈ ds) => Declaration.regular_of_mem_extract hd
  have hwell : ∀ d ∈ ds.filter Declaration.isFunction, d.WellFormed language source := by
    intro d hd
    obtain ⟨line, hline, hne, i, header, hheader, hpub, rfl⟩ :=
      Declaration.exists_of_mem_extract (List.mem_filter.1 hd).1
    exact Declaration.wellFormed_ofHeader hline hheader hpub hne i
  exact ((List.forall₂_and_left _ _).2 ⟨hwell, hwraps⟩).imp fun d t h => h.2.carries h.1

/-- **The functions of a source are assembled to one tool each, in their order.** Assembly fails only where
there is none. -/
theorem assemble_extract (language : Language) (scan : ScanOptions) (options : AssemblyOptions)
    (source : Text) :
    let ds := Declaration.extract language scan source
    let result := assemble options (Descriptor.ofDeclarations ds)
    ((∀ d ∈ ds, d.kind ≠ .function) ∧ result = .error .noFunctions ∨
      (∃ d ∈ ds, d.kind = .function) ∧ ∃ tools, result = .ok tools ∧
        List.Forall₂ (Carries options) (ds.filter fun d => d.kind == .function) tools) ∧
    ∀ index part, result ≠ .error (.malformedDescriptor index part) := by
  intro ds result
  have hregular : ∀ d ∈ ds, d.Regular := fun d hd => Declaration.regular_of_mem_extract hd
  have hempty := Descriptor.ofDeclarations_eq_nil_iff_kind hregular
  by_cases hnone : ∀ d ∈ ds, d.kind ≠ .function
  · have hresult : result = .error .noFunctions := by
      simp only [result, hempty.2 hnone]
      rfl
    exact ⟨.inl ⟨hnone, hresult⟩, by simp [hresult]⟩
  · have hresult : result = .ok _ := assemble_regular options hregular (mt hempty.1 hnone)
    have hany : ∃ d ∈ ds, d.kind = .function := by
      push Not at hnone
      exact hnone
    exact ⟨.inr ⟨hany, _, hresult, forall₂_carries language scan options source⟩, by simp [hresult]⟩

end Tool

end ToolCatalog
