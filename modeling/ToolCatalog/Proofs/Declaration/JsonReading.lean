import ToolCatalog.Proofs.Declaration.JsonForm

/-!
# Declarations are read back from their JSON form

The printed form of declarations is taken apart into the documents of their JSON objects. In such an object
no key comes twice, so each part of a declaration is found under its key, or is missing where the declaration
has none (`parts?_document`). Read part by part, the document of a declaration gives the declaration
(`ofDocument?_document`), and the text of some declarations gives them all (`readJson?_renderJson`).
-/

namespace ToolCatalog

open Json

/-! ## Members of printed objects -/

theorem Fields.get?_map {α β : Type} (g : α → β) (k : Text) :
    ∀ fs : Fields α, Fields.get? k (fs.map fun f => (f.1, g f.2)) = (Fields.get? k fs).map g
  | [] => rfl
  | (j, v) :: fs => by
    rw [List.map_cons, Fields.get?, Fields.get?, Fields.get?_map g k fs]
    split <;> rfl

namespace Json.Document

/-- Where no name comes twice, the member under a name is the first one. -/
theorem once?_of_nodup (k : Text) :
    ∀ {ms : Fields Document}, (Fields.keys ms).Nodup → once? k ms = some (Fields.get? k ms)
  | [], _ => rfl
  | (j, v) :: ms, h => by
    obtain ⟨hj, hms⟩ := List.nodup_cons.1 h
    have ih := once?_of_nodup k hms
    unfold once? at ih ⊢
    unfold Fields.get?
    by_cases hk : j = k
    · subst hk
      have hnone : ms.filter (fun m => m.1 = j) = [] := by
        rw [List.filter_eq_nil_iff]
        intro m hm hmj
        exact hj (List.mem_map.2 ⟨m, hm, by simpa using hmj⟩)
      rw [List.filter_cons_of_pos (by simp), hnone, if_pos rfl]
    · rw [List.filter_cons_of_neg (by simp [hk]), if_neg hk]
      exact ih

theorem named?_memberDocuments :
    ∀ fields : List (Text × Json),
      named? (memberDocuments fields) = some (fields.map fun f => (f.1, f.2.document))
  | [] => rfl
  | (k, v) :: fields => by
    rw [memberDocuments, named?, piecesText?_ofText, named?_memberDocuments fields]
    rfl

/-- The parts of a printed object under some keys. -/
theorem parts?_document {fields : Fields Json} (h : (Fields.keys fields).Nodup) (keys : List Text) :
    (Json.object fields).document.parts? keys =
      some (keys.map fun k => (Fields.get? k fields).map Json.document) := by
  have hkeys : (Fields.keys (fields.map fun f => (f.1, f.2.document))).Nodup := by
    unfold Fields.keys
    rwa [List.map_map]
  have honce : (fun k => once? k (fields.map fun f => (f.1, f.2.document))) =
      fun k => some ((Fields.get? k fields).map Json.document) := by
    funext k
    rw [once?_of_nodup k hkeys, Fields.get?_map]
  rw [Json.document, parts?, named?_memberDocuments, Option.bind_some, honce]
  exact List.mapM_pure

theorem text?_document (s : Text) : (Json.string s).document.text? = some s := piecesText?_ofText s

theorem texts?_document {depth : Nat} (hdepth : 0 < depth) (l : List Text) :
    (Json.ofTexts l).document.texts? depth = some l := by
  have hitems : ∀ l : List Text, (itemDocuments (l.map Json.string)).mapM text? = some l := by
    intro l
    induction l with
    | nil => rfl
    | cons s l ih =>
      rw [List.map_cons, itemDocuments, List.mapM_cons, text?_document, ih]
      rfl
  rw [Json.ofTexts, Json.document, texts?, if_neg (Nat.pos_iff_ne_zero.1 hdepth), hitems]

end Json.Document

/-! ## The parts of a declaration -/

theorem Kind.ofDocument?_document (depth : Nat) (k : Kind) :
    Kind.ofDocument? depth (Json.string k.word).document = some k := by
  rw [Json.document, Kind.ofDocument?, piecesText?_ofText]
  cases k <;> rfl

namespace ParameterSchema

/-- One more insertion keeps a schema that describes its parameters one. -/
theorem Describes.insert {s : ParameterSchema} (h : s.Describes) (name : Text) :
    (s.insert name).Describes := by
  refine ⟨Fields.nodup_keys_insert _ _ h.1, ?_⟩
  intro n v hv
  rcases Fields.mem_insert hv with heq | hv
  · cases heq
    rfl
  · exact h.2 n v hv

/-- Any insertions, one after the other, keep it one. -/
theorem Describes.foldl_insert :
    ∀ (names : List Text) {s : ParameterSchema}, s.Describes →
      (names.foldl (fun s name => s.insert name) s).Describes
  | [], _, h => h
  | name :: names, _, h => Describes.foldl_insert names (h.insert name)

/-- The document of a schema that describes its parameters is read as the schema. -/
theorem Describes.ofDocument?_document {s : ParameterSchema} (h : s.Describes) (depth : Nat) :
    ofDocument? (depth + 3) s.toJson.document = some s := by
  obtain ⟨-, hkeys, -, hproperties, -⟩ := h.plain_toJson depth
  have hparts : s.toJson.document.parts? ["type", "properties"] =
      some [some (Json.string s.type).document, some (Json.object s.properties).document] :=
    Document.parts?_document hkeys ["type", "properties"]
  have hvalue : (Json.object s.properties).document.value? (depth + 3 - 1) = some (.object s.properties) :=
    hproperties.value?_document
  unfold ofDocument?
  rw [hparts]
  simp only [guard, Nat.zero_lt_succ, if_true, bind, Option.bind, pure, Document.text?_document, hvalue]
  rfl

end ParameterSchema

namespace Declaration

/-- What stands under the keys of a declaration. -/
theorem parts?_toJson (d : Declaration) :
    d.toJson.document.parts? keys =
      some [some (Json.string d.name).document, some (Json.string d.kind.word).document,
        some (Json.string d.signature).document, some (Json.string d.description).document,
        d.parameters.map fun schema => schema.toJson.document,
        if d.required.isEmpty then none else some (Json.ofTexts d.required).document] := by
  refine (Document.parts?_document (d.keys_sublist.nodup (by decide)) keys).trans ?_
  unfold parameterFields requiredFields
  cases d.parameters <;> cases d.required.isEmpty <;> rfl

/-- The document of a declaration is read as the declaration. -/
theorem ofDocument?_document {d : Declaration} (h : ∀ schema ∈ d.parameters, schema.Describes)
    (depth : Nat) : ofDocument? (depth + 4) d.toJson.document = some d := by
  have hparts := d.parts?_toJson
  obtain ⟨name, kind, signature, description, parameters, required⟩ := d
  have hkind := Kind.ofDocument?_document (depth + 3) kind
  have htexts := Document.texts?_document (show 0 < depth + 3 by omega) required
  unfold ofDocument?
  simp only [hparts, guard, Nat.zero_lt_succ, if_true, bind, Option.bind, pure, Document.text?_document,
    Nat.add_one_sub_one, hkind]
  -- what is left are the two parts that may be missing
  cases parameters with
  | none =>
    cases required with
    | nil => rfl
    | cons n names => simp only [Option.map_none, List.isEmpty_cons, Bool.false_eq_true, if_false, htexts]
  | some schema =>
    have hschema := (h schema rfl).ofDocument?_document depth
    rw [ParameterSchema.toJson, Json.document] at hschema
    simp only [Option.map_some, ParameterSchema.toJson, Json.document, hschema]
    cases required with
    | nil => rfl
    | cons n names => simp only [List.isEmpty_cons, Bool.false_eq_true, if_false, htexts]

/-! ## Lists of declarations -/

theorem mapM_ofDocument? (depth : Nat) :
    ∀ {ds : List Declaration}, (∀ d ∈ ds, ∀ schema ∈ d.parameters, schema.Describes) →
      (itemDocuments (ds.map toJson)).mapM (ofDocument? (depth + 4)) = some ds
  | [], _ => rfl
  | d :: ds, h => by
    have ih := mapM_ofDocument? depth fun x hx => h x (List.mem_cons_of_mem d hx)
    rw [List.map_cons, itemDocuments, List.mapM_cons, ofDocument?_document (h d (by simp)), ih]
    rfl

/-- Declarations whose schemas describe their parameters are read back from their text. -/
theorem readJson?_of_describes {ds : List Declaration}
    (h : ∀ d ∈ ds, ∀ schema ∈ d.parameters, schema.Describes) : readJson? (renderJson ds) = some ds := by
  have hitems := mapM_ofDocument? 122 h
  unfold readJson? readSource? renderJson
  rw [(plain_array_toJson h).read?_render, Json.document]
  exact hitems

/-- A declaration as it is put together from its parts: a function with a schema that some insertions make
of the empty one, or a class, which has neither a schema nor required names. -/
inductive Built : Declaration → Prop where
  | function (name signature description : Text) (names required : List Text) :
    Built
      { name, kind := .function, signature, description,
        parameters := some (names.foldl (fun s name => s.insert name) {}), required }
  | classDef (name signature description : Text) :
    Built { name, kind := .classDef, signature, description, parameters := none, required := [] }

theorem Built.describes {d : Declaration} (h : d.Built) : ∀ schema ∈ d.parameters, schema.Describes := by
  cases h with
  | function name signature description names required =>
    rintro schema ⟨⟩
    exact ParameterSchema.Describes.foldl_insert names ⟨List.nodup_nil, by simp⟩
  | classDef name signature description =>
    rintro schema ⟨⟩

/-- The schema of pushed parameters is that of their inserted names. -/
theorem schema_foldl_push :
    ∀ (ps : List Parameter) (l : ParameterList),
      (ps.foldl ParameterList.push l).schema =
        (ps.map (·.name)).foldl (fun s name => s.insert name) l.schema
  | [], _ => rfl
  | p :: ps, l => schema_foldl_push ps (l.push p)

theorem built_of_mem_extract {language : Language} {options : ScanOptions} {source : Text}
    {d : Declaration} (h : d ∈ extract language options source) : d.Built := by
  obtain ⟨line, -, -, i, header, -, -, rfl⟩ := exists_of_mem_extract h
  cases header with
  | classDef n => exact .classDef n _ _
  | function n params =>
    obtain ⟨ps, hps⟩ : ∃ ps, language.parameters params = ParameterList.ofParameters ps := by
      cases language <;> exact ⟨_, rfl⟩
    unfold ofHeader
    simp only [hps, ParameterList.ofParameters, schema_foldl_push]
    exact .function n _ _ _ _

/-- **Declarations are read back from their JSON text,** however they are put together, and so are those
of every source. -/
theorem readJson?_renderJson :
    (∀ ds : List Declaration, (∀ d ∈ ds, d.Built) → readJson? (renderJson ds) = some ds) ∧
    ∀ (language : Language) (options : ScanOptions) (source : Text),
      (∀ d ∈ extract language options source, d.Built) ∧
      readJson? (renderJson (extract language options source)) =
        some (extract language options source) := by
  have hbuilt : ∀ ds : List Declaration, (∀ d ∈ ds, d.Built) → readJson? (renderJson ds) = some ds :=
    fun ds h => readJson?_of_describes fun d hd => (h d hd).describes
  refine ⟨hbuilt, ?_⟩
  intro language options source
  have h : ∀ d ∈ extract language options source, d.Built := fun d hd => built_of_mem_extract hd
  exact ⟨h, hbuilt _ h⟩

/-- A class and a function with characters that are escaped, a name that is inserted twice, and a required
name that is no parameter. -/
def oddDeclarations : List Declaration :=
  [{ name := "\"\\", kind := .classDef, signature := "", description := "\x01\n\u2028",
     parameters := none, required := [] },
   { name := "", kind := .function, signature := "\t/", description := "\x7f😀",
     parameters := some
       { properties := [("a".toList, ParameterSchema.property "a"), ("\r".toList, ParameterSchema.property "\r")] },
     required := ["z".toList, "".toList] }]

theorem readJson?_oddDeclarations :
    (∀ d ∈ oddDeclarations, d.Built) ∧ readJson? (renderJson oddDeclarations) = some oddDeclarations := by
  have hbuilt : ∀ d ∈ oddDeclarations, d.Built := by
    unfold oddDeclarations
    simp only [List.forall_mem_cons]
    exact ⟨.classDef _ _ _, .function _ _ _ ["a".toList, "\r".toList, "a".toList] _, by simp⟩
  exact ⟨hbuilt, readJson?_renderJson.1 oddDeclarations hbuilt⟩

end Declaration

end ToolCatalog
