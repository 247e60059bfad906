import ToolCatalog.Proofs.CommandLine.Sessions
import ToolCatalog.Proofs.Declaration.JsonForm
import ToolCatalog.Proofs.Text.Utf8
import ToolCatalog.Proofs.Tool.Reading

/-!
# Declarations fed back as descriptors

The JSON form of a declaration has the keys of a descriptor, so that what `extract` prints can be piped
into `emit`. For functions this is the same as making descriptors of the declarations themselves. A class
has no parameters, and where the declarations themselves leave it out, the reader of descriptors refuses it:
the first class among the declarations makes it fail (`emit_extract`).
-/

namespace ToolCatalog

open Text

/-! ## Reading a declaration as a descriptor -/

namespace Descriptor

section

variable {d : Declaration}

theorem readName_fields (hname : d.name ≠ []) :
    readName (d.plainFields ++ d.parameterFields ++ d.requiredFields) = some d.name := by
  have hget : Fields.get? "name" (d.plainFields ++ d.parameterFields ++ d.requiredFields) =
      some (.string d.name) := rfl
  unfold readName
  rw [hget]
  simp [hname]

theorem readDescription_fields :
    readDescription (d.plainFields ++ d.parameterFields ++ d.requiredFields) = some d.description := rfl

theorem given?_parameters_fields :
    given? "parameters" (d.plainFields ++ d.parameterFields ++ d.requiredFields) =
      d.parameters.map ParameterSchema.toJson := by
  unfold given? Declaration.parameterFields Declaration.requiredFields
  cases d.parameters <;> cases d.required.isEmpty <;> rfl

theorem readRequired_fields :
    readRequired (d.plainFields ++ d.parameterFields ++ d.requiredFields) = some d.required := by
  have hget : given? "required" (d.plainFields ++ d.parameterFields ++ d.requiredFields) =
      if d.required.isEmpty then none else some (Json.ofTexts d.required) := by
    unfold given? Declaration.parameterFields Declaration.requiredFields
    cases d.parameters <;> cases d.required.isEmpty <;> rfl
  unfold readRequired
  rw [hget]
  cases hrequired : d.required with
  | nil => rfl
  | cons n names => exact Json.mapM_text?_eq_some_iff.2 rfl

/-- A function is read as the descriptor that it makes; a class lacks parameters. -/
theorem readItem_toJson (hname : d.name ≠ []) (index : Nat) :
    readItem index d.toJson = demand index .parameters (ofDeclaration? d) := by
  unfold readItem Declaration.toJson
  simp only [Json.fields?, demand, readName_fields hname, readDescription_fields,
    given?_parameters_fields, readRequired_fields, bind, Except.bind, ofDeclaration?]
  cases d.parameters <;> rfl

end

/-- What the reader makes of declarations: their descriptors, unless there is a class among them, which
is then at fault for its parameters. -/
def fedBack (ds : List Declaration) : Except Error (List Descriptor) :=
  match ds.findIdx? (·.kind == .classDef) with
  | none => .ok (ofDeclarations ds)
  | some i => .error (.malformedDescriptor i .parameters)

theorem readFrom_toJson :
    ∀ {ds : List Declaration} (index : Nat), (∀ d ∈ ds, d.Regular) →
      readFrom index (ds.map Declaration.toJson) =
        match ds.findIdx? (·.kind == .classDef) with
        | none => .ok (ofDeclarations ds)
        | some i => .error (.malformedDescriptor (index + i) .parameters)
  | [], _, _ => rfl
  | d :: ds, index, h => by
    have ih := readFrom_toJson (index + 1) fun x hx => h x (List.mem_cons_of_mem d hx)
    have hd := h d (by simp)
    -- a regular declaration is a class exactly if it has no parameters
    have hclass : (d.kind == .classDef) = !(ofDeclaration? d).isSome := by
      rw [← hd.isFunction_eq, Declaration.isFunction]
      cases d.kind <;> rfl
    rw [List.map_cons, readFrom, readItem_toJson hd.1, ih, List.findIdx?_cons, hclass]
    cases hx : ofDeclaration? d with
    | none => rfl
    | some x =>
      have hcons : ofDeclarations (d :: ds) = x :: ofDeclarations ds := List.filterMap_cons_some hx
      rw [hcons]
      cases ds.findIdx? (·.kind == .classDef) with
      | none => rfl
      | some i =>
        have hindex : index + 1 + i = index + (i + 1) := by omega
        simp [demand, bind, Except.bind, hindex]

/-- The reader of the JSON form of declarations. -/
theorem read_toJson {ds : List Declaration} (h : ∀ d ∈ ds, d.Regular) :
    read (.array (ds.map Declaration.toJson)) = fedBack ds := by
  have hfrom := readFrom_toJson 0 h
  simp only [Nat.zero_add] at hfrom
  exact hfrom

end Descriptor

/-! ## The declarations of a source -/

namespace Declaration

/-- The printed declarations of a source are read. -/
theorem read_extract (language : Language) (options : ScanOptions) (source : Text) :
    (Json.parse? (renderJson (extract language options source))).map Descriptor.read =
      some (Descriptor.fedBack (extract language options source)) := by
  rw [parse?_renderJson fun d hd => describes_of_mem_extract hd]
  exact congrArg some (Descriptor.read_toJson fun d hd => regular_of_mem_extract hd)

end Declaration

namespace CommandLine

open Session

theorem readInput_hyphen (fs : FileSystem) (stdin : List UInt8) : readInput fs stdin "-" = .ok stdin := by
  have hinput : isInput "-" = true := by decide
  unfold readInput
  rw [hinput]
  rfl

/-- The tools of declarations that a source holds, read back from what is printed of them. -/
theorem readTools_renderJson (settings : Settings) (embed : Bool) (language : Language)
    (options : ScanOptions) (source : Text) :
    readTools settings embed
        (Utf8.encode (Declaration.renderJson (Declaration.extract language options source))) =
      Descriptor.fedBack (Declaration.extract language options source) >>=
        Tool.assemble { embedRequired := embed || settings.emit.embedRequired } := by
  obtain ⟨v, hv, hread⟩ := Option.map_eq_some_iff.1 (Declaration.read_extract language options source)
  unfold readTools
  rw [← hread]
  simp only [Utf8.decode_eq_ok_iff.2 rfl, Except.toOption, Option.bind_some, hv]

theorem runEmit_hyphen (fs : FileSystem) (settings : Settings) (stdin : List UInt8) (embed : Bool) :
    runEmit settings stdin "-" embed { files := fs } =
      match readTools settings embed stdin with
      | .ok ts => .ok 0 ⟨Tool.renderJson ts, [], fs⟩
      | .error e => .error e { files := fs } := by
  unfold runEmit
  rw [SessionM.getFiles_bind, SessionM.ofExcept_bind (readInput_hyphen fs stdin)]
  cases readTools settings embed stdin <;> rfl

theorem runExtract_hyphen (fs : FileSystem) (settings : Settings) (topLevelOnly : Bool)
    (language : Language) (source : Text) :
    runExtract settings (Utf8.encode source) "-" (some language.tag) "json" topLevelOnly { files := fs } =
      .ok 0 ⟨Declaration.renderJson (Declaration.extract language
        { topLevelOnly := settings.scan.topLevelOnly || topLevelOnly } source), [], fs⟩ := by
  have hformat : chooseFormat "json" { files := fs } = .ok .json { files := fs } := rfl
  have hsource : readInput fs (Utf8.encode source) "-" >>= FileSystem.decodeText = .ok source := by
    rw [readInput_hyphen]
    simp only [bind, Except.bind, FileSystem.decodeText, Utf8.decode_eq_ok_iff.2 rfl]
  unfold runExtract
  rw [SessionM.bind_of_ok hformat, SessionM.ofExcept_bind (Language.ofTag_tag language),
    SessionM.getFiles_bind, SessionM.ofExcept_bind hsource]
  rfl

/-- **What `extract` prints is read as the descriptors of the functions, unless there is a class among the
declarations.** -/
theorem emit_extract (language : Language) (source : Text) :
    (∃ ds, Declaration.extractTagged source language.tag = .ok ds ∧
      (Json.parse? (Declaration.renderJson ds)).map Descriptor.read = some (Descriptor.fedBack ds)) ∧
    ∀ (fs : FileSystem) (settings : Settings) (topLevelOnly embed : Bool),
      let ds := Declaration.extract language
        { topLevelOnly := settings.scan.topLevelOnly || topLevelOnly } source
      runExtract settings (Utf8.encode source) "-" (some language.tag) "json" topLevelOnly
          { files := fs } = .ok 0 ⟨Declaration.renderJson ds, [], fs⟩ ∧
      runEmit settings (Utf8.encode (Declaration.renderJson ds)) "-" embed { files := fs } =
        match Descriptor.fedBack ds >>=
          Tool.assemble { embedRequired := embed || settings.emit.embedRequired } with
        | .ok ts => .ok 0 ⟨Tool.renderJson ts, [], fs⟩
        | .error e => .error e { files := fs } := by
  constructor
  · refine ⟨Declaration.extract language {} source, ?_, Declaration.read_extract language {} source⟩
    unfold Declaration.extractTagged
    rw [Language.ofTag_tag]
    rfl
  · intro fs settings topLevelOnly embed ds
    refine ⟨runExtract_hyphen fs settings topLevelOnly language source, ?_⟩
    rw [runEmit_hyphen, readTools_renderJson]

/-- A class before a function: the declarations make a tool, and their printed form is refused. -/
theorem read_classBeforeFunction :
    ∃ ds v ts, Declaration.extractTagged "class A:\n    pass\n\ndef f(x):\n    pass\n" "python" = .ok ds ∧
      Json.parse? (Declaration.renderJson ds) = some v ∧
      Descriptor.read v = .error (.malformedDescriptor 0 .parameters) ∧
      Tool.assemble {} (Descriptor.ofDeclarations ds) = .ok ts ∧ ts.map (·.name) = ["f".toList] := by
  have hread := Declaration.read_extract .python {} "class A:\n    pass\n\ndef f(x):\n    pass\n"
  obtain ⟨v, hv, hv'⟩ := Option.map_eq_some_iff.1 hread
  exact ⟨_, v, _, rfl, hv, hv'.trans rfl, rfl, rfl⟩

end CommandLine

end ToolCatalog
