import ToolCatalog.Declaration.Wire
import ToolCatalog.Proofs.Declaration.ParameterNames
import ToolCatalog.Proofs.Declaration.Scanning
import ToolCatalog.Proofs.Json.RoundTrip

/-!
# The JSON form of declarations

A declaration is written as an object whose keys are some of a fixed list, in its order (`keys_sublist`).
With a schema as it is built up from parameter names that object is a plain value, so the printed form of
declarations can be read back (`parse?_renderJson`). Every schema in a source is built up so
(`describes_of_mem_extract`).
-/

namespace ToolCatalog

theorem Json.plain_ofTexts (l : List Text) (depth : Nat) : (Json.ofTexts l).Plain (depth + 1) := by
  refine ⟨by omega, Json.plainItems_iff.2 ?_⟩
  intro v hv
  obtain ⟨s, -, rfl⟩ := List.mem_map.1 hv
  trivial

namespace ParameterSchema

theorem plain_property (name : Text) (depth : Nat) : (property name).Plain (depth + 1) :=
  ⟨by omega, (by decide : (["type", "description"] : List Text).Nodup), trivial, trivial, trivial⟩

/-- A schema with one property for each of its parameters, as it is built up from their names. -/
def Describes (s : ParameterSchema) : Prop :=
  s.names.Nodup ∧ ∀ n v, (n, v) ∈ s.properties → v = property n

theorem Describes.plain_toJson {s : ParameterSchema} (h : s.Describes) (depth : Nat) :
    s.toJson.Plain (depth + 3) := by
  have hproperties : (Json.object s.properties).Plain (depth + 2) := by
    refine ⟨by omega, h.1, Json.plainFields_iff.2 ?_⟩
    intro f hf
    rw [h.2 f.1 f.2 hf]
    exact plain_property f.1 depth
  exact ⟨by omega, (by decide : (["type", "properties"] : List Text).Nodup), trivial, hproperties, trivial⟩

end ParameterSchema

namespace Declaration

/-- The fields of a declaration are some of those that there are, in their order. -/
theorem keys_sublist (d : Declaration) :
    (Fields.keys (d.plainFields ++ d.parameterFields ++ d.requiredFields)).Sublist keys := by
  have hparameters : (Fields.keys d.parameterFields).Sublist ["parameters".toList] := by
    unfold parameterFields
    cases d.parameters <;> simp [Fields.keys]
  have hrequired : (Fields.keys d.requiredFields).Sublist ["required".toList] := by
    unfold requiredFields
    cases d.required.isEmpty <;> simp [Fields.keys]
  unfold Fields.keys at *
  rw [List.map_append, List.map_append, List.append_assoc]
  exact (List.Sublist.refl _).append (hparameters.append hrequired)

theorem plain_toJson {d : Declaration} (h : ∀ schema ∈ d.parameters, schema.Describes) (depth : Nat) :
    d.toJson.Plain (depth + 4) := by
  have hplain : Json.PlainFields (depth + 3) d.plainFields := ⟨trivial, trivial, trivial, trivial, trivial⟩
  refine ⟨by omega, d.keys_sublist.nodup (by decide), Json.plainFields_iff.2 ?_⟩
  intro f hf
  rw [List.mem_append, List.mem_append] at hf
  rcases hf with (hf | hf) | hf
  · exact Json.plainFields_iff.1 hplain f hf
  · unfold parameterFields at hf
    split at hf
    · rename_i schema hschema
      rw [List.mem_singleton.1 hf]
      exact (h schema hschema).plain_toJson depth
    · cases hf
  · unfold requiredFields at hf
    split at hf
    · cases hf
    · rw [List.mem_singleton.1 hf]
      exact Json.plain_ofTexts d.required (depth + 2)

theorem plain_array_toJson {ds : List Declaration}
    (h : ∀ d ∈ ds, ∀ schema ∈ d.parameters, schema.Describes) :
    (Json.array (ds.map toJson)).Plain Json.maxDepth := by
  refine ⟨by decide, Json.plainItems_iff.2 ?_⟩
  intro v hv
  obtain ⟨d, hd, rfl⟩ := List.mem_map.1 hv
  exact plain_toJson (h d hd) 122

/-- The JSON text of declarations holds their JSON forms. -/
theorem parse?_renderJson {ds : List Declaration}
    (h : ∀ d ∈ ds, ∀ schema ∈ d.parameters, schema.Describes) :
    Json.parse? (renderJson ds) = some (.array (ds.map toJson)) :=
  (plain_array_toJson h).parse?_render

theorem describes_of_mem_extract {language : Language} {options : ScanOptions} {source : Text}
    {d : Declaration} (h : d ∈ extract language options source) :
    ∀ schema ∈ d.parameters, schema.Describes := by
  obtain ⟨line, -, -, i, header, -, -, rfl⟩ := exists_of_mem_extract h
  cases header with
  | classDef n => rintro schema ⟨⟩
  | function n params =>
    rintro schema ⟨⟩
    cases language <;>
      exact ⟨ParameterList.nodup_names_ofParameters _, fun _ _ => ParameterList.property_ofParameters⟩

end Declaration

end ToolCatalog
