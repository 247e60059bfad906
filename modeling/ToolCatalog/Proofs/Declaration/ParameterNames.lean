import ToolCatalog.Declaration.Extract
import ToolCatalog.Proofs.Declaration.ParameterLists

/-!
# The names of parameters

Whatever stands between the parentheses of a header, the names that are read from it are fit for a
schema: not empty, trimmed, and free of the characters that separate names from what follows them
(`propertyName_of_mem`). A name is the beginning of a trimmed piece (`nameIn_isPrefix`), so marks that
make a reader pass over a piece are at the beginning of no name.
-/

namespace ToolCatalog

open Text

/-- A name that a property of a schema can have in a language. -/
structure PropertyName (language : Language) (n : Text) : Prop where
  ne_nil : n ≠ []
  trimmed : trim n = n
  lacks : Lacks ",:=\n" n
  python : language = .python → n ≠ "self" ∧ n.head? ≠ some '*'
  script : language ≠ .python → ¬ ("..." : Text) <+: n

namespace Parameter

/-! ## One piece -/

theorem nameIn_isPrefix {t : Text} (h : trim t = t) : nameIn t <+: t := by
  have htake := List.takeWhile_prefix (l := t) (fun c => c != ':' && c != '=')
  have hstops : Stops isBlank (t.takeWhile fun c => c != ':' && c != '=') :=
    (stops_blank_of_trim h).of_isPrefix htake
  unfold nameIn
  rw [trim, trimStart_eq_self hstops]
  exact (trimEnd_isPrefix _).trans htake

theorem nameIn_lacks (t : Text) : Lacks ":=" (nameIn t) := by
  have hmarks : (":=" : Text).all (fun c => !(c != ':' && c != '=')) = true := by decide
  intro c hc hmark
  have hmem := (trim_isInfix _).subset hc
  have hpass := List.all_eq_true.1 (List.all_takeWhile (l := t)) c hmem
  have hends := List.all_eq_true.1 hmarks c hmark
  rw [hpass] at hends
  cases hends

/-- The beginning of a name of a piece lacks what the piece lacks, and the marks that end a name. -/
theorem lacks_of_prefix_nameIn {piece n : Text} (hpiece : Lacks ",\n" piece)
    (hn : n <+: nameIn (trim piece)) : Lacks ",:=\n" n := by
  have hsub : n ⊆ piece := fun c hc =>
    (trim_isInfix piece).subset ((nameIn_isPrefix (trim_trim piece)).subset (hn.subset hc))
  have hmarks : (",:=\n" : Text) ⊆ ":=" ++ ",\n" := by decide
  intro c hc hmark
  rcases List.mem_append.1 (hmarks hmark) with hends | hinner
  · exact nameIn_lacks (trim piece) c (hn.subset hc) hends
  · exact hpiece c (hsub hc) hinner

/-- What a piece is read from has no star at its beginning, and the name is what stands before the first colon
or equals sign. -/
theorem python?_name {piece : Text} {p : Parameter} (h : python? piece = some p) :
    trim piece ≠ [] ∧ startsWith (trim piece) "*" = false ∧ p.name ≠ [] ∧ p.name ≠ "self" ∧
      p = ⟨nameIn (trim piece), !(trim piece).contains '='⟩ := by
  unfold python? at h
  simp only at h
  split at h
  · cases h
  rename_i ht
  split at h
  · cases h
  rename_i hname
  cases h
  simp only [Bool.or_eq_true, List.isEmpty_iff, beq_iff_eq, not_or, Bool.not_eq_true] at ht hname
  exact ⟨ht.1.1, ht.2, hname.1, hname.2, rfl⟩

theorem python?_propertyName {piece : Text} {p : Parameter} (hpiece : Lacks ",\n" piece)
    (h : python? piece = some p) : PropertyName .python p.name := by
  obtain ⟨-, hplain, hne, hself, rfl⟩ := python?_name h
  have hprefix := nameIn_isPrefix (trim_trim piece)
  refine ⟨hne, trim_trim _, lacks_of_prefix_nameIn hpiece (List.prefix_refl _), ?_, by simp⟩
  intro _
  refine ⟨hself, ?_⟩
  -- a name that begins with a star would be the beginning of a piece that does
  intro hstar
  cases hn : nameIn (trim piece) with
  | nil => exact hne hn
  | cons c s =>
    simp only [hn] at hprefix hstar
    obtain ⟨r, hr⟩ := hprefix
    have hc : c = '*' := by simpa using hstar
    rw [startsWith_iff.2 ⟨s ++ r, by rw [← hr, hc]; rfl⟩] at hplain
    cases hplain

/-- What a piece is read from has no dots at its beginning, and the name is a beginning of what stands
before the first colon or equals sign. -/
theorem script?_name {piece : Text} {p : Parameter} (h : script? piece = some p) :
    startsWith (trim piece) "..." = false ∧ p.name ≠ [] ∧ trim p.name = p.name ∧
      p.name <+: nameIn (trim piece) := by
  have htrim : trim (nameIn (trim piece)) = nameIn (trim piece) := trim_trim _
  unfold script? at h
  simp only at h
  split at h
  · cases h
  rename_i ht
  simp only [Bool.or_eq_true, not_or, Bool.not_eq_true] at ht
  cases hstem : before? "?" (nameIn (trim piece)) with
  | some stem =>
    have hprefix : trimEnd stem <+: nameIn (trim piece) :=
      (trimEnd_isPrefix stem).trans ⟨_, (before?_eq_some_iff.1 hstem).symm⟩
    simp only [hstem] at h
    split at h
    · cases h
    rename_i hne
    cases h
    refine ⟨ht.2, by simpa using hne, ?_, hprefix⟩
    exact trim_eq_self_iff.2
      ⟨(stops_blank_of_trim htrim).of_isPrefix hprefix, getLast?_trimEnd_any stem⟩
  | none =>
    simp only [hstem] at h
    split at h
    · cases h
    rename_i hne
    cases h
    exact ⟨ht.2, by simpa using hne, htrim, List.prefix_refl _⟩

theorem script?_propertyName {language : Language} (hscript : language ≠ .python) {piece : Text}
    {p : Parameter} (hpiece : Lacks ",\n" piece) (h : script? piece = some p) :
    PropertyName language p.name := by
  obtain ⟨hstart, hne, htrim, hprefix⟩ := script?_name h
  refine ⟨hne, htrim, lacks_of_prefix_nameIn hpiece hprefix, (absurd · hscript), ?_⟩
  -- a name that begins with dots would be the beginning of a piece that does
  intro _ hdots
  obtain ⟨r, hr⟩ := (hdots.trans hprefix).trans (nameIn_isPrefix (trim_trim piece))
  rw [startsWith_iff.2 ⟨r, hr.symm⟩] at hstart
  cases hstart

end Parameter

/-! ## A list of pieces -/

/-- The parameters that are read from a text on one line have names fit for a schema. -/
theorem Language.parameters_eq {language : Language} {params : Text} (h : '\n' ∉ params) :
    ∃ ps : List Parameter, language.parameters params = ParameterList.ofParameters ps ∧
      ∀ p ∈ ps, PropertyName language p.name := by
  have hpiece : ∀ piece ∈ splitOn ',' params, Lacks ",\n" piece := by
    have hmarks : (",\n" : Text) ⊆ [','] ++ ['\n'] := by decide
    intro piece hmem c hc hmark
    rcases (List.mem_append.1 (hmarks hmark)).imp List.mem_singleton.1 List.mem_singleton.1 with
      rfl | rfl
    · exact notMem_of_mem_splitOn hmem hc
    · exact h ((infix_of_mem_splitOn hmem).subset hc)
  obtain ⟨piece?, hparams, hread⟩ : ∃ piece? : Text → Option Parameter,
      language.parameters params = ParameterList.read piece? params ∧
      ∀ piece p, Lacks ",\n" piece → piece? piece = some p → PropertyName language p.name := by
    cases language with
    | python => exact ⟨Parameter.python?, rfl, fun _ _ => Parameter.python?_propertyName⟩
    | javascript =>
      exact ⟨Parameter.script?, rfl, fun _ _ => Parameter.script?_propertyName (by decide)⟩
    | typescript =>
      exact ⟨Parameter.script?, rfl, fun _ _ => Parameter.script?_propertyName (by decide)⟩
  refine ⟨_, hparams, ?_⟩
  intro p hp
  obtain ⟨piece, hmem, hp⟩ := List.mem_filterMap.1 hp
  exact hread piece p (hpiece piece hmem) hp

namespace ParameterList

theorem nodup_names_ofParameters (ps : List Parameter) : (ofParameters ps).schema.names.Nodup := by
  rcases List.eq_nil_or_concat ps with rfl | ⟨qs, p, rfl⟩
  · exact List.nodup_nil
  · rw [List.concat_eq_append, ofParameters_concat]
    exact Fields.nodup_keys_insert _ _ (nodup_names_ofParameters qs)
termination_by ps.length

theorem mem_names_ofParameters {ps : List Parameter} {n : Text} :
    n ∈ (ofParameters ps).schema.names ↔ ∃ p ∈ ps, p.name = n := by
  rw [schema_ofParameters, ParameterSchema.names_ofNames, List.mem_eraseDups, List.mem_map]

theorem mem_required_ofParameters {ps : List Parameter} {n : Text}
    (h : n ∈ (ofParameters ps).required) : n ∈ (ofParameters ps).schema.names := by
  rw [required_ofParameters, List.mem_map] at h
  obtain ⟨p, hp, hn⟩ := h
  exact mem_names_ofParameters.2 ⟨p, (List.mem_filter.1 hp).1, hn⟩

theorem property_ofParameters {ps : List Parameter} {n : Text} {v : Json}
    (h : (n, v) ∈ (ofParameters ps).schema.properties) : v = ParameterSchema.property n := by
  rw [schema_ofParameters] at h
  obtain ⟨m, -, hm⟩ := List.mem_map.1 h
  cases hm
  rfl

end ParameterList

end ToolCatalog
