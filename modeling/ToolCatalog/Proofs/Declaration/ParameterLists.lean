import ToolCatalog.Declaration.Parameters
import ToolCatalog.Proofs.Declaration.Recognisers
import ToolCatalog.Proofs.Text.Trimming

/-!
# What a list of parameters describes

Parameters are pushed one after the other onto an empty list. In closed form, the schema has one
property for each name, in the order in which the names come first, and the required names are those
of the required parameters, as often as they occur.
-/

namespace ToolCatalog

/-- The schema with a property for each of some names, in the order in which they come first. -/
def ParameterSchema.ofNames (names : List Text) : ParameterSchema where
  properties := names.eraseDups.map fun n => (n, ParameterSchema.property n)

/-- A name that is there changes nothing, a new one goes to the end. -/
theorem Fields.insert_map {α : Type} (f : Text → α) (k : Text) :
    ∀ names : List Text, Fields.insert k (f k) (names.map fun n => (n, f n)) =
      (if k ∈ names then names else names ++ [k]).map fun n => (n, f n)
  | [] => rfl
  | n :: names => by
    have ih := Fields.insert_map f k names
    rw [List.map_cons, Fields.insert]
    by_cases hn : n = k
    · simp [hn]
    · rw [if_neg hn, ih]
      by_cases hk : k ∈ names
      · simp [hk]
      · simp [hk, Ne.symm hn]

theorem eraseDups_concat (names : List Text) (k : Text) :
    (names ++ [k]).eraseDups =
      if k ∈ names.eraseDups then names.eraseDups else names.eraseDups ++ [k] := by
  rw [List.eraseDups_append]
  by_cases hk : k ∈ names
  · simp [List.removeAll, List.mem_eraseDups, hk]
  · simp [List.removeAll, List.mem_eraseDups, hk, List.eraseDups_cons]

theorem ParameterSchema.insert_ofNames (names : List Text) (k : Text) :
    (ParameterSchema.ofNames names).insert k = ParameterSchema.ofNames (names ++ [k]) := by
  unfold ParameterSchema.insert ParameterSchema.ofNames
  rw [Fields.insert_map, eraseDups_concat]

theorem ParameterSchema.names_ofNames (names : List Text) : (ofNames names).names = names.eraseDups :=
  List.map_map.trans (List.map_id _)

namespace ParameterList

theorem ofParameters_concat (ps : List Parameter) (p : Parameter) :
    ofParameters (ps ++ [p]) = (ofParameters ps).push p := by
  unfold ofParameters
  rw [List.foldl_append]
  rfl

theorem schema_ofParameters (ps : List Parameter) :
    (ofParameters ps).schema = ParameterSchema.ofNames (ps.map (·.name)) := by
  rcases List.eq_nil_or_concat ps with rfl | ⟨qs, p, rfl⟩
  · rfl
  · rw [List.concat_eq_append, ofParameters_concat]
    show (ofParameters qs).schema.insert p.name = _
    rw [schema_ofParameters qs, ParameterSchema.insert_ofNames, List.map_append]
    rfl
termination_by ps.length

theorem required_ofParameters (ps : List Parameter) :
    (ofParameters ps).required = (ps.filter (·.required)).map (·.name) := by
  rcases List.eq_nil_or_concat ps with rfl | ⟨qs, p, rfl⟩
  · rfl
  · rw [List.concat_eq_append, ofParameters_concat, List.filter_append, List.map_append,
      ← required_ofParameters qs]
    unfold push
    cases hp : p.required <;> simp [hp]
termination_by ps.length

/-- Written parameters, joined by a comma and a blank, are read one by one: a reader of pieces that passes
over an empty piece and does not mind the blank finds in the whole what it finds in each of them. -/
theorem read_join_render {α : Type} {piece? : Text → Option Parameter} {render : α → Text}
    {meant? : α → Option Parameter} (hnil : piece? [] = none)
    (hblank : ∀ s, piece? (' ' :: s) = piece? s) (hcomma : ∀ a, ',' ∉ render a)
    (hrender : ∀ a, piece? (render a) = meant? a) (as : List α) :
    read piece? (Text.join ", " (as.map render)) = ofParameters (as.filterMap meant?) := by
  have hpieces : ∀ as : List α, (as.map render).filterMap piece? = as.filterMap meant? := by
    intro as
    rw [List.filterMap_map]
    congr 1
    funext a
    exact hrender a
  unfold read
  cases as with
  | nil => simp [Text.join, Text.splitOn, hnil]
  | cons a as =>
    -- all pieces but the first keep the blank after the comma
    have hsplit : Text.splitOn ',' (Text.join ", " (render a :: as.map render)) =
        render a :: (as.map render).map (' ' :: ·) := by
      refine Text.splitOn_join_comma (hcomma a) ?_
      intro u hu
      obtain ⟨b, -, rfl⟩ := List.mem_map.1 hu
      exact hcomma b
    have hunblank : ((as.map render).map (' ' :: ·)).filterMap piece? =
        (as.map render).filterMap piece? := by
      rw [List.filterMap_map]
      congr 1
      funext s
      exact hblank s
    rw [List.map_cons, hsplit, ← hpieces, List.map_cons, List.filterMap_cons, List.filterMap_cons,
      hunblank]

end ParameterList

/-! ## Names -/

namespace Header.Identifier

open Text

variable {n : Text}

theorem lacks (h : Identifier n) {marks : Text} (hmarks : marks.any isWord = false) :
    Lacks marks n := by
  intro c hc hmark
  exact List.any_eq_false.1 hmarks c hmark (List.all_eq_true.1 h.2 c hc)

theorem trimEnd_eq (h : Identifier n) : trimEnd n = n := by
  refine trimEnd_eq_self ?_
  cases hlast : n.getLast? with
  | none => rfl
  | some c => exact isBlank_of_isWord (List.all_eq_true.1 h.2 c (List.mem_of_getLast? hlast))

theorem trim_append (h : Identifier n) (s : Text) : trim (n ++ s) = n ++ trimEnd s := by
  rw [trim, trimStart_eq_self h.stops]
  by_cases hs : trimEnd s = []
  · rw [hs, List.append_nil, trimEnd_append_of_blank n (trimEnd_eq_nil_iff.1 hs), h.trimEnd_eq]
  · exact trimEnd_append_of_ne_nil n hs

theorem startsWith_eq_false (h : Identifier n) (s : Text) {c : Char} (hc : isWord c = false)
    (lead : Text) : startsWith (n ++ s) (c :: lead) = false := by
  cases n with
  | nil => exact absurd rfl h.1
  | cons d n =>
    have hne : c ≠ d := by
      rintro rfl
      have hd := List.all_eq_true.1 h.2 c (by simp)
      rw [hc] at hd
      cases hd
    simp [startsWith, after?, hne]

end Header.Identifier

/-! ## Annotations and defaults -/

namespace Parameter

open Text

/-- What is written after the name of a parameter. -/
def tail (typeHint defaultValue : Option Text) : Text :=
  (match typeHint with
    | some a => ": " ++ a
    | none => []) ++
  (match defaultValue with
    | some d => " = " ++ d
    | none => [])

variable {typeHint defaultValue : Option Text}

theorem tail_lacks (ha : ∀ a ∈ typeHint, Lacks ",=)\n" a) (hd : ∀ d ∈ defaultValue, Lacks ",)\n" d) :
    Lacks ",)\n" (tail typeHint defaultValue) := by
  unfold tail
  refine Lacks.append ?_ ?_
  · cases typeHint with
    | none => exact Lacks.nil
    | some a => exact Lacks.append (by decide) ((ha a rfl).mono (by decide))
  · cases defaultValue with
    | none => exact Lacks.nil
    | some d => exact Lacks.append (by decide) (hd d rfl)

/-- An equals sign tells that there is a default. -/
theorem mem_tail_iff (ha : ∀ a ∈ typeHint, Lacks ",=)\n" a) :
    '=' ∈ tail typeHint defaultValue ↔ defaultValue.isSome = true := by
  have hhint : '=' ∉ tail typeHint none := by
    cases typeHint with
    | none => exact List.not_mem_nil
    | some a => simpa [tail] using (ha a rfl).notMem (c := '=') (by decide)
  cases defaultValue with
  | none => simpa using hhint
  | some d => simp [tail]

/-- After blanks at the end are dropped, the annotation and the default still begin with a colon, or with
a blank and an equals sign. -/
theorem trimEnd_tail (typeHint defaultValue : Option Text) :
    trimEnd (tail typeHint defaultValue) = [] ∨
      (∃ r, trimEnd (tail typeHint defaultValue) = ':' :: r) ∨
      ∃ r, trimEnd (tail typeHint defaultValue) = ' ' :: '=' :: r := by
  cases typeHint with
  | some a => exact .inr (.inl ⟨_, trimEnd_cons_of_not_blank (by decide) _⟩)
  | none =>
    cases defaultValue with
    | none => exact .inl rfl
    | some d =>
      have hd : trimEnd ('=' :: ' ' :: d) = '=' :: trimEnd (' ' :: d) :=
        trimEnd_cons_of_not_blank (by decide) _
      have htrim := trimEnd_append_of_ne_nil [' '] (by rw [hd]; simp)
      rw [hd] at htrim
      exact .inr (.inr ⟨_, htrim⟩)

theorem mem_trimEnd_tail_iff (defaultValue : Option Text)
    (ha : ∀ a ∈ typeHint, Lacks ",=)\n" a) :
    '=' ∈ trimEnd (tail typeHint defaultValue) ↔ defaultValue.isSome = true := by
  obtain ⟨w, hw, hblank⟩ := trimEnd_append_blanks (tail typeHint defaultValue)
  have hnot : '=' ∉ w := by
    intro h
    cases List.all_eq_true.1 hblank '=' h
  rw [← mem_tail_iff ha]
  constructor
  · intro h
    rw [hw]
    exact List.mem_append_left w h
  · intro h
    rw [hw] at h
    exact (List.mem_append.1 h).resolve_right hnot

theorem stops_tail (typeHint defaultValue : Option Text) :
    Stops isWord (trimEnd (tail typeHint defaultValue)) := by
  rcases trimEnd_tail typeHint defaultValue with h | ⟨r, h⟩ | ⟨r, h⟩
  · rw [h]
    rfl
  · rw [h]
    rfl
  · rw [h]
    rfl

theorem nameIn_append {stem : Text} (hstem : Lacks ":=" stem) (htrim : trim stem = stem)
    (typeHint defaultValue : Option Text) :
    nameIn (stem ++ trimEnd (tail typeHint defaultValue)) = stem := by
  have hmarks : ∀ c ∈ stem, (c != ':' && c != '=') = true := by
    intro c hc
    simpa using hstem c hc
  unfold nameIn
  rw [List.takeWhile_append_of_pos hmarks]
  rcases trimEnd_tail typeHint defaultValue with htail | ⟨r, htail⟩ | ⟨r, htail⟩
  · rw [htail]
    simpa using htrim
  · rw [htail]
    simpa using htrim
  · rw [htail]
    exact (trim_blanks (u := []) rfl stem (w := " ") (by decide)).trans htrim

end Parameter

end ToolCatalog
