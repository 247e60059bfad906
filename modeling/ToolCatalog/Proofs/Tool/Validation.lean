import ToolCatalog.Proofs.Json.RoundTrip
import ToolCatalog.Proofs.Tool.Assembly

/-!
# Assembly from any descriptors

All descriptors are looked through before the first tool is made. The first that no tool can be made of is
reported with its place and the part that is at fault, and neither depends on how tools are made
(`assemble_of_firstAt`). Otherwise each descriptor makes one tool (`madeOf_ofDescriptor`). Embedding adds the
required names as a last field where there is none, so a second embedding finds them there
(`withRequired_withRequired`). `assemble_embedRequired` says all of this of every list of descriptors.
-/

namespace ToolCatalog

/-! ## The first of a list -/

/-- At this place of a list stands the first of its members that have a property. -/
structure FirstAt {α : Type} (P : α → Prop) (l : List α) (i : Nat) (a : α) : Prop where
  found : l[i]? = some a
  holds : P a
  earlier : ∀ j < i, ∀ b, l[j]? = some b → ¬ P b

namespace FirstAt

variable {α : Type} {P : α → Prop} {a b : α} {l : List α} {i j : Nat}

theorem head (h : P a) : FirstAt P (a :: l) 0 a := ⟨rfl, h, by omega⟩

theorem cons (hb : ¬ P b) (h : FirstAt P l i a) : FirstAt P (b :: l) (i + 1) a := by
  refine ⟨h.found, h.holds, ?_⟩
  intro j hj c hc
  cases j with
  | zero =>
    cases hc
    exact hb
  | succ j => exact h.earlier j (by omega) c hc

/-- The first of a list is its head, or the first of its tail if the head is none. -/
theorem head_or_tail (h : FirstAt P (b :: l) i a) :
    (i = 0 ∧ a = b ∧ P b) ∨ ∃ j, i = j + 1 ∧ ¬ P b ∧ FirstAt P l j a := by
  cases i with
  | zero =>
    obtain rfl : b = a := by simpa using h.found
    exact .inl ⟨rfl, rfl, h.holds⟩
  | succ i =>
    refine .inr ⟨i, rfl, h.earlier 0 (by omega) b rfl, h.found, h.holds, ?_⟩
    intro j hj c hc
    exact h.earlier (j + 1) (by omega) c hc

theorem unique (ha : FirstAt P l i a) (hb : FirstAt P l j b) : i = j ∧ a = b := by
  have hij : i = j := by
    by_contra hne
    rcases Nat.lt_or_gt_of_ne hne with hlt | hlt
    · exact hb.earlier i hlt a ha.found ha.holds
    · exact ha.earlier j hlt b hb.found hb.holds
  subst hij
  have hfound := ha.found
  rw [hb.found] at hfound
  exact ⟨rfl, (Option.some.inj hfound).symm⟩

theorem mem (h : FirstAt P l i a) : a ∈ l := List.mem_of_getElem? h.found

end FirstAt

/-- Some member of a list has a property, and one is the first, or none has it. -/
theorem firstAt_or_none {α : Type} (P : α → Prop) :
    ∀ l : List α, (∃ i a, FirstAt P l i a) ∨ ∀ a ∈ l, ¬ P a
  | [] => .inr (by simp)
  | b :: l => by
    by_cases hb : P b
    · exact .inl ⟨0, b, .head hb⟩
    · rcases firstAt_or_none P l with ⟨i, a, h⟩ | hnone
      · exact .inl ⟨i + 1, a, h.cons hb⟩
      · exact .inr (by simpa [hb] using hnone)

namespace Tool

/-! ## Descriptors at fault -/

/-- No tool can be made of a descriptor without a name or without parameters. -/
def Unfit (d : Descriptor) : Prop := d.name = [] ∨ d.parameters = .null

/-- The part at fault: the name comes before the parameters. -/
def blamed (d : Descriptor) : DescriptorPart := if d.name = [] then .name else .parameters

theorem faultOf?_of_unfit {d : Descriptor} (h : Unfit d) : faultOf? d = some (blamed d) := by
  unfold faultOf? blamed
  by_cases hname : d.name = []
  · simp [hname]
  · have hparameters := h.resolve_left hname
    simp [hname, hparameters]

theorem faultOf?_of_fit {d : Descriptor} (h : ¬ Unfit d) : faultOf? d = none := by
  obtain ⟨hname, hparameters⟩ := not_or.1 h
  unfold faultOf?
  rw [if_neg (by simpa using hname)]
  split
  · rename_i hnull
    exact absurd hnull hparameters
  · rfl

theorem firstFault?_of_firstAt :
    ∀ {ds : List Descriptor} {i : Nat} {d : Descriptor} (index : Nat), FirstAt Unfit ds i d →
      firstFault? index ds = some (index + i, blamed d)
  | [], _, _, _, h => by cases h.found
  | x :: ds, _, _, index, h => by
    rw [firstFault?]
    rcases h.head_or_tail with ⟨rfl, rfl, hx⟩ | ⟨j, rfl, hx, htail⟩
    · rw [faultOf?_of_unfit hx]
      rfl
    · rw [faultOf?_of_fit hx]
      have ih := firstFault?_of_firstAt (index + 1) htail
      rw [show index + (j + 1) = index + 1 + j by omega]
      exact ih

/-- The first descriptor at fault is reported, whatever the tools were to be. -/
theorem assemble_of_firstAt (options : AssemblyOptions) {ds : List Descriptor} {i : Nat} {d : Descriptor}
    (h : FirstAt Unfit ds i d) : assemble options ds = .error (.malformedDescriptor i (blamed d)) := by
  have hne : ds ≠ [] := List.ne_nil_of_mem h.mem
  unfold assemble
  rw [firstFault?_of_firstAt 0 h, Nat.zero_add, if_neg (by simpa using hne)]

theorem assemble_of_fit (options : AssemblyOptions) {ds : List Descriptor} (hne : ds ≠ [])
    (h : ∀ d ∈ ds, ¬ Unfit d) : assemble options ds = .ok (ds.map (ofDescriptor options)) :=
  assemble_of_faultless options hne fun d hd => faultOf?_of_fit (h d hd)

/-! ## Required names -/

/-- The required names are to be written into the parameters of a descriptor, which are an object of these
fields that does not name them. -/
def Embeds (options : AssemblyOptions) (d : Descriptor) (fields : Fields Json) : Prop :=
  options.embedRequired = true ∧ d.parameters = .object fields ∧
    ("required" : Text) ∉ Fields.keys fields ∧ d.required ≠ []

/-- The tool that is made of a descriptor. -/
structure MadeOf (options : AssemblyOptions) (d : Descriptor) (t : Tool) : Prop where
  name : t.name = d.name
  description : t.description = d.description
  /-- The required names are the last field, after all others as they were. -/
  embedded : ∀ fields, Embeds options d fields →
    t.parameters = .object (fields ++ [(("required" : Text), Json.array (d.required.map .string))])
  kept : (¬ ∃ fields, Embeds options d fields) → t.parameters = d.parameters

theorem withRequired_of_notMem {required : List Text} {fields : Fields Json} (hrequired : required ≠ [])
    (h : ("required" : Text) ∉ Fields.keys fields) :
    withRequired required (.object fields) =
      .object (fields ++ [(("required" : Text), Json.ofTexts required)]) := by
  have hlacks : Fields.contains "required" fields = false := by
    rw [← Bool.not_eq_true, Fields.contains_iff_mem_keys]
    exact h
  rw [withRequired, hlacks, Bool.or_false, if_neg (by simpa using hrequired), Fields.insert_of_notMem h]

theorem withRequired_of_mem (required : List Text) {fields : Fields Json}
    (h : ("required" : Text) ∈ Fields.keys fields) : withRequired required (.object fields) = .object fields := by
  rw [withRequired, Fields.contains_iff_mem_keys.2 h, Bool.or_true, if_pos rfl]

theorem withRequired_nil (v : Json) : withRequired [] v = v := by
  cases v <;> rfl

/-- Parameters are changed only if they are an object without the required names, and there are some. -/
theorem withRequired_eq_self {required : List Text} {v : Json}
    (h : ¬ ∃ fields, v = .object fields ∧ ("required" : Text) ∉ Fields.keys fields ∧ required ≠ []) :
    withRequired required v = v := by
  cases v with
  | object fields =>
    by_cases hmem : ("required" : Text) ∈ Fields.keys fields
    · exact withRequired_of_mem required hmem
    · have hrequired : required = [] := by
        by_contra hne
        exact h ⟨fields, rfl, hmem, hne⟩
      rw [hrequired, withRequired_nil]
  | _ => rfl

theorem withRequired_withRequired (required : List Text) (v : Json) :
    withRequired required (withRequired required v) = withRequired required v := by
  by_cases h : ∃ fields, v = .object fields ∧ ("required" : Text) ∉ Fields.keys fields ∧ required ≠ []
  · obtain ⟨fields, rfl, hmem, hrequired⟩ := h
    rw [withRequired_of_notMem hrequired hmem]
    -- the names are a field now, so the second time there is nothing to add
    exact withRequired_of_mem required (by simp [Fields.keys])
  · rw [withRequired_eq_self h, withRequired_eq_self h]

theorem withRequired_eq_null_iff {required : List Text} {v : Json} :
    withRequired required v = .null ↔ v = .null := by
  cases v with
  | object fields =>
    rw [withRequired]
    split <;> simp
  | _ => rfl

theorem madeOf_ofDescriptor (options : AssemblyOptions) (d : Descriptor) :
    MadeOf options d (ofDescriptor options d) := by
  refine ⟨rfl, rfl, ?_, ?_⟩
  · rintro fields ⟨hoption, hfields, hmem, hrequired⟩
    rw [ofDescriptor, if_pos hoption, hfields]
    exact withRequired_of_notMem hrequired hmem
  · intro hnone
    rw [ofDescriptor]
    split
    · rename_i hoption
      refine withRequired_eq_self ?_
      rintro ⟨fields, hfields, hmem, hrequired⟩
      exact hnone ⟨fields, hoption, hfields, hmem, hrequired⟩
    · rfl

/-! ## Assembling again -/

/-- The descriptor with the parameters of its tool. -/
def reassembled (d : Descriptor) (t : Tool) : Descriptor := ⟨t.name, t.description, t.parameters, d.required⟩

theorem unfit_reassembled_iff {options : AssemblyOptions} {d : Descriptor} :
    Unfit (reassembled d (ofDescriptor options d)) ↔ Unfit d := by
  have hnull : (ofDescriptor options d).parameters = .null ↔ d.parameters = .null := by
    rw [ofDescriptor]
    split
    · exact withRequired_eq_null_iff
    · rfl
  exact or_congr Iff.rfl hnull

/-- A tool made again, without embedding what was not embedded before, is the same. -/
theorem ofDescriptor_reassembled {options again : AssemblyOptions}
    (h : again.embedRequired = true → options.embedRequired = true) (d : Descriptor) :
    ofDescriptor again (reassembled d (ofDescriptor options d)) = ofDescriptor options d := by
  have hparameters : (ofDescriptor again (reassembled d (ofDescriptor options d))).parameters =
      (ofDescriptor options d).parameters := by
    by_cases hagain : again.embedRequired = true
    · simp only [ofDescriptor, reassembled, hagain, h hagain, if_true]
      exact withRequired_withRequired d.required d.parameters
    · simp only [ofDescriptor, reassembled, hagain, Bool.false_eq_true, if_false]
  exact congrArg (Tool.mk d.name d.description) hparameters

theorem assemble_reassembled {options again : AssemblyOptions} {ds : List Descriptor} (hne : ds ≠ [])
    (hfit : ∀ d ∈ ds, ¬ Unfit d) (h : again.embedRequired = true → options.embedRequired = true) :
    assemble again (List.zipWith reassembled ds (ds.map (ofDescriptor options))) =
      .ok (ds.map (ofDescriptor options)) := by
  have hzip : List.zipWith reassembled ds (ds.map (ofDescriptor options)) =
      ds.map fun d => reassembled d (ofDescriptor options d) := by
    rw [List.zipWith_map_right, List.zipWith_self]
  rw [hzip, assemble_of_fit again (by simpa using hne), List.map_map]
  · congr 1
    exact List.map_congr_left fun d _ => ofDescriptor_reassembled h d
  · intro x hx
    obtain ⟨d, hd, rfl⟩ := List.mem_map.1 hx
    rw [unfit_reassembled_iff]
    exact hfit d hd

/-! ## Every list of descriptors -/

/-- **Tools are assembled all together or not at all, and embedding the required names adds nothing else.** The
verdict is the same with and without embedding: no descriptor, the first that is at fault, or one tool for
each in order. Assembling the tools again changes nothing. -/
theorem assemble_embedRequired (ds : List Descriptor) :
    (∀ options, ds = [] → assemble options ds = .error .noFunctions) ∧
    (∀ options i d, FirstAt Unfit ds i d →
      assemble options ds =
        .error (.malformedDescriptor i (if d.name = [] then .name else .parameters))) ∧
    (∀ options, ds ≠ [] → (∀ d ∈ ds, ¬ Unfit d) →
      ∃ tools, assemble options ds = .ok tools ∧ List.Forall₂ (MadeOf options) ds tools ∧
        ∀ again, (again.embedRequired = true → options.embedRequired = true) →
          assemble again (List.zipWith reassembled ds tools) = .ok tools) ∧
    ∀ options options' e, assemble options ds = .error e → assemble options' ds = .error e := by
  refine ⟨?_, ?_, ?_, ?_⟩
  · rintro options rfl
    rfl
  · intro options i d h
    exact assemble_of_firstAt options h
  · intro options hne hfit
    refine ⟨_, assemble_of_fit options hne hfit, ?_, ?_⟩
    · rw [List.forall₂_map_right_iff, List.forall₂_same]
      exact fun d _ => madeOf_ofDescriptor options d
    · intro again h
      exact assemble_reassembled hne hfit h
  · intro options options' e he
    by_cases hempty : ds = []
    · subst hempty
      exact he
    rcases firstAt_or_none Unfit ds with ⟨i, d, h⟩ | hfit
    · rw [assemble_of_firstAt options h] at he
      rw [assemble_of_firstAt options' h, he]
    · rw [assemble_of_fit options hempty hfit] at he
      cases he

/-- A descriptor whose parameters do not name the required ones. -/
def searchDescriptor : Descriptor :=
  ⟨"search", "Finds text.", .object [("type", .string "object")], ["query".toList]⟩

/-- A descriptor without anything. -/
def emptyDescriptor : Descriptor := ⟨[], [], .null, []⟩

/-- One descriptor at fault is enough to make no tool, and its name is blamed. Without it the required names
are embedded once. -/
theorem assemble_searchDescriptor :
    FirstAt Unfit [searchDescriptor, emptyDescriptor] 1 emptyDescriptor ∧
    assemble {} [searchDescriptor, emptyDescriptor] = .error (.malformedDescriptor 1 .name) ∧
    ¬ Unfit searchDescriptor ∧ Embeds { embedRequired := true } searchDescriptor [("type", .string "object")] ∧
    ∃ t, t.parameters =
        .object [("type", .string "object"), ("required", .array [.string "query".toList])] ∧
      assemble { embedRequired := true } [searchDescriptor] = .ok [t] ∧
      assemble { embedRequired := true } [reassembled searchDescriptor t] = .ok [t] := by
  have hfit : ¬ Unfit searchDescriptor := by
    rintro (hname | hparameters)
    · cases hname
    · cases hparameters
  have hfirst : FirstAt Unfit [searchDescriptor, emptyDescriptor] 1 emptyDescriptor :=
    (FirstAt.head (.inl rfl)).cons hfit
  have hembeds : Embeds { embedRequired := true } searchDescriptor [("type", .string "object")] :=
    ⟨rfl, rfl, by decide, by decide⟩
  refine ⟨hfirst, (assemble_embedRequired _).2.1 {} 1 _ hfirst, hfit, hembeds, ?_⟩
  obtain ⟨tools, htools, hmade, hagain⟩ := (assemble_embedRequired [searchDescriptor]).2.2.1
    { embedRequired := true } (by simp) (by simpa using hfit)
  cases hmade with
  | cons ht hrest =>
    cases hrest
    exact ⟨_, ht.embedded _ hembeds, htools, hagain _ id⟩

end Tool

end ToolCatalog
