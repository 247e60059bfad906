import ToolCatalog.Proofs.Tool.Validation

/-!
# Descriptors read from a document

What an item of a document must be is said part by part (`Faulty`), and what it then means (`Reads`). An item
is read, or its first part at fault is reported (`readItem_outcome`); a list of items is read, or its first
item at fault (`readFrom_outcome`). So a document is accepted just when no item has a fault, and what is
accepted has a name and parameters, as assembly demands (`read_firstFault`).
-/

namespace ToolCatalog

/-- Where a reader takes just what is written for a value, it takes just the lists that are written so. -/
theorem mapM_eq_some_iff_map {α β : Type} {read : α → Option β} {written : β → α}
    (hread : ∀ v b, read v = some b ↔ v = written b) :
    ∀ {items : List α} {bs : List β}, items.mapM read = some bs ↔ items = bs.map written
  | [], bs => by cases bs <;> simp
  | item :: items, bs => by
    rw [List.mapM_cons]
    constructor
    · intro h
      obtain ⟨b, hb, h⟩ := Option.bind_eq_some_iff.1 h
      obtain ⟨rest, hrest, h⟩ := Option.bind_eq_some_iff.1 h
      cases h
      rw [(hread item b).1 hb, (mapM_eq_some_iff_map hread).1 hrest]
      rfl
    · intro h
      cases bs with
      | nil => cases h
      | cons b bs =>
        rw [List.map_cons, List.cons.injEq] at h
        rw [(hread item b).2 h.1, (mapM_eq_some_iff_map hread).2 h.2]
        rfl

theorem Json.text?_eq_some_iff {v : Json} {s : Text} : v.text? = some s ↔ v = .string s := by
  cases v <;> simp [Json.text?]

theorem Json.mapM_text?_eq_some_iff {items : List Json} {names : List Text} :
    items.mapM Json.text? = some names ↔ items = names.map .string :=
  mapM_eq_some_iff_map fun _ _ => Json.text?_eq_some_iff

namespace Descriptor

/-! ## Documents and their faults -/

/-- The items of a document: those of an array, or of the array under `functions` in an object. -/
inductive Holds : Json → List Json → Prop where
  | array (items : List Json) : Holds (.array items) items
  | wrapped {fields : Fields Json} {items : List Json} :
    Fields.get? "functions" fields = some (.array items) → Holds (.object fields) items

/-- A field of an item is missing or null. -/
def Absent (item : Json) (k : Text) : Prop := item.field? k = none ∨ item.field? k = some .null

/-- The parts in which an item is at fault. What is no object has no fields, so that its name is at fault. -/
def Faulty (item : Json) : DescriptorPart → Prop
  | .functions => False
  | .name => ¬ ∃ s, item.field? "name" = some (.string s) ∧ s ≠ []
  | .description => ¬ Absent item "description" ∧ ¬ ∃ s, item.field? "description" = some (.string s)
  | .parameters => Absent item "parameters"
  | .required => ¬ Absent item "required" ∧
    ¬ ∃ names : List Text, item.field? "required" = some (.array (names.map .string))

/-- The parts of an item in the order in which they are checked. -/
def checkedParts : List DescriptorPart := [.name, .description, .parameters, .required]

/-- The first part in which an item is at fault. -/
def FirstFault (item : Json) (part : DescriptorPart) : Prop :=
  ∃ n, FirstAt (Faulty item) checkedParts n part

/-- An item with a fault. -/
def AtFault (item : Json) : Prop := ∃ part, Faulty item part

/-- The descriptor that an item without a fault means. -/
structure Reads (item : Json) (d : Descriptor) : Prop where
  name : item.field? "name" = some (.string d.name) ∧ d.name ≠ []
  description : item.field? "description" = some (.string d.description) ∨
    Absent item "description" ∧ d.description = []
  parameters : item.field? "parameters" = some d.parameters ∧ d.parameters ≠ .null
  required : item.field? "required" = some (.array (d.required.map .string)) ∨
    Absent item "required" ∧ d.required = []

/-! ## The parts of an item -/

theorem not_absent {item v : Json} {k : Text} (h : item.field? k = some v) (hv : v ≠ .null) :
    ¬ Absent item k := by
  rintro (hnone | hnull)
  · rw [h] at hnone
    cases hnone
  · rw [h] at hnull
    exact hv (Option.some.inj hnull)

section

variable {fields : Fields Json} {k : Text}

theorem readName_eq_some_iff {s : Text} :
    readName fields = some s ↔ Fields.get? "name" fields = some (.string s) ∧ s ≠ [] := by
  unfold readName
  split
  · rename_i t ht
    rw [ht]
    by_cases hnil : t = []
    · simp only [hnil, List.isEmpty_nil, if_true, reduceCtorEq, false_iff]
      rintro ⟨hs, hne⟩
      cases hs
      exact hne rfl
    · simp only [List.isEmpty_iff, hnil, if_false, Option.some.injEq, Json.string.injEq]
      constructor
      · rintro rfl
        exact ⟨rfl, hnil⟩
      · exact fun h => h.1
  · rename_i hnot
    constructor
    · intro h
      cases h
    · intro h
      exact absurd h.1 (hnot s)

theorem readName_eq_none_iff : readName fields = none ↔ Faulty (.object fields) .name := by
  rw [Option.eq_none_iff_forall_ne_some]
  simp only [Faulty, Json.field?, not_exists, ne_eq, readName_eq_some_iff]

theorem given?_eq_some_iff {v : Json} :
    given? k fields = some v ↔ Fields.get? k fields = some v ∧ v ≠ .null := by
  unfold given?
  split
  · rename_i h
    simp [h]
  · rename_i h
    rw [h]
    constructor
    · intro hv
      cases hv
    · rintro ⟨hv, hne⟩
      exact absurd (Option.some.inj hv).symm hne
  · rename_i w hw h
    rw [h]
    constructor
    · intro hv
      cases hv
      exact ⟨rfl, hw⟩
    · exact fun hv => hv.1

theorem given?_eq_none_iff : given? k fields = none ↔ Absent (.object fields) k := by
  constructor
  · intro h
    cases hget : Fields.get? k fields with
    | none => exact .inl hget
    | some v =>
      by_cases hv : v = .null
      · exact .inr (by rw [← hv]; exact hget)
      · rw [given?_eq_some_iff.2 ⟨hget, hv⟩] at h
        cases h
  · intro h
    rw [Option.eq_none_iff_forall_ne_some]
    intro v hv
    obtain ⟨hget, hne⟩ := given?_eq_some_iff.1 hv
    exact absurd h (not_absent hget hne)

section

variable {α : Type} {read? : Json → Option α} {written : α → Json} {default : α}

/-- A part that may be absent and then has a default: it is read just when it is absent or as it is
written. -/
theorem elim_given?_eq_some_iff (hread : ∀ v a, read? v = some a ↔ v = written a)
    (hnull : ∀ a, written a ≠ .null) {a : α} :
    (given? k fields).elim (some default) read? = some a ↔
      Fields.get? k fields = some (written a) ∨ Absent (.object fields) k ∧ a = default := by
  cases h : given? k fields with
  | none =>
    rw [given?_eq_none_iff] at h
    constructor
    · intro ha
      exact .inr ⟨h, (Option.some.inj ha).symm⟩
    · rintro (hget | ⟨-, rfl⟩)
      · exact absurd h (not_absent hget (hnull a))
      · rfl
  | some v =>
    obtain ⟨hget, hne⟩ := given?_eq_some_iff.1 h
    constructor
    · intro ha
      rw [(hread v a).1 ha] at hget
      exact .inl hget
    · rintro (hwritten | ⟨habsent, -⟩)
      · rw [hget] at hwritten
        exact (hread v a).2 (Option.some.inj hwritten)
      · exact absurd habsent (not_absent hget hne)

theorem elim_given?_eq_none_iff (hread : ∀ v a, read? v = some a ↔ v = written a)
    (hnull : ∀ a, written a ≠ .null) :
    (given? k fields).elim (some default) read? = none ↔
      ¬ Absent (.object fields) k ∧ ¬ ∃ a, Fields.get? k fields = some (written a) := by
  rw [Option.eq_none_iff_forall_ne_some]
  simp only [ne_eq, elim_given?_eq_some_iff hread hnull, not_or]
  constructor
  · intro h
    exact ⟨fun habsent => (h default).2 ⟨habsent, rfl⟩, fun ⟨a, ha⟩ => (h a).1 ha⟩
  · rintro ⟨habsent, hnone⟩ a
    exact ⟨fun ha => hnone ⟨a, ha⟩, fun ha => habsent ha.1⟩

end

theorem readDescription_eq_elim :
    readDescription fields = (given? "description" fields).elim (some []) Json.text? := by
  unfold readDescription
  cases given? "description" fields <;> rfl

/-- The required names in a value that is given. -/
def names? (v : Json) : Option (List Text) := v.items?.bind fun items => items.mapM Json.text?

theorem names?_eq_some_iff (v : Json) (names : List Text) :
    names? v = some names ↔ v = .array (names.map .string) := by
  cases v <;> simp [names?, Json.items?, Json.mapM_text?_eq_some_iff]

theorem readRequired_eq_elim :
    readRequired fields = (given? "required" fields).elim (some []) names? := by
  unfold readRequired
  cases given? "required" fields <;> rfl

theorem readDescription_eq_some_iff {s : Text} :
    readDescription fields = some s ↔ Fields.get? "description" fields = some (.string s) ∨
      Absent (.object fields) "description" ∧ s = [] := by
  rw [readDescription_eq_elim]
  exact elim_given?_eq_some_iff (fun _ _ => Json.text?_eq_some_iff) (by simp)

theorem readDescription_eq_none_iff :
    readDescription fields = none ↔ Faulty (.object fields) .description := by
  rw [readDescription_eq_elim]
  exact elim_given?_eq_none_iff (fun _ _ => Json.text?_eq_some_iff) (by simp)

theorem parameters_eq_none_iff : given? "parameters" fields = none ↔ Faulty (.object fields) .parameters :=
  given?_eq_none_iff

theorem readRequired_eq_some_iff {names : List Text} :
    readRequired fields = some names ↔ Fields.get? "required" fields = some (.array (names.map .string)) ∨
      Absent (.object fields) "required" ∧ names = [] := by
  rw [readRequired_eq_elim]
  exact elim_given?_eq_some_iff names?_eq_some_iff (by simp)

theorem readRequired_eq_none_iff : readRequired fields = none ↔ Faulty (.object fields) .required := by
  rw [readRequired_eq_elim]
  exact elim_given?_eq_none_iff names?_eq_some_iff (by simp)

end

/-! ## Items -/

theorem Reads.not_faulty {item : Json} {d : Descriptor} (h : Reads item d) : ¬ AtFault item := by
  rintro ⟨part, hpart⟩
  cases part with
  | functions => exact hpart
  | name => exact hpart ⟨_, h.name⟩
  | description =>
    rcases h.description with hgiven | ⟨habsent, -⟩
    · exact hpart.2 ⟨_, hgiven⟩
    · exact hpart.1 habsent
  | parameters => exact not_absent h.parameters.1 h.parameters.2 hpart
  | required =>
    rcases h.required with hgiven | ⟨habsent, -⟩
    · exact hpart.2 ⟨_, hgiven⟩
    · exact hpart.1 habsent

theorem Reads.fit {item : Json} {d : Descriptor} (h : Reads item d) : ¬ Tool.Unfit d :=
  not_or.2 ⟨h.name.2, h.parameters.2⟩

theorem FirstFault.unique {item : Json} {part part' : DescriptorPart} (h : FirstFault item part)
    (h' : FirstFault item part') : part = part' := by
  obtain ⟨n, hn⟩ := h
  obtain ⟨m, hm⟩ := h'
  exact (hn.unique hm).2

theorem FirstFault.atFault {item : Json} {part : DescriptorPart} (h : FirstFault item part) : AtFault item := by
  obtain ⟨n, hn⟩ := h
  exact ⟨part, hn.holds⟩

/-- An item is read, or its first part at fault is reported. -/
theorem readItem_outcome (index : Nat) (item : Json) :
    (∃ d, readItem index item = .ok d ∧ Reads item d) ∨
      ∃ part, readItem index item = .error (.malformedDescriptor index part) ∧ FirstFault item part := by
  cases item with
  | object fields =>
    unfold readItem
    simp only [Json.fields?, demand, bind, Except.bind]
    -- a part that is there is no fault, so the next one is the first that can be
    rcases hname : readName fields with _ | name
    · exact .inr ⟨.name, rfl, 0, .head (readName_eq_none_iff.1 hname)⟩
    have hname' := mt readName_eq_none_iff.2 (by rw [hname]; exact Option.some_ne_none name)
    rcases hdescription : readDescription fields with _ | description
    · have hfault := readDescription_eq_none_iff.1 hdescription
      exact .inr ⟨.description, rfl, 1, (FirstAt.head hfault).cons hname'⟩
    have hdescription' := mt readDescription_eq_none_iff.2
      (by rw [hdescription]; exact Option.some_ne_none description)
    rcases hparameters : given? "parameters" fields with _ | parameters
    · have hfault := parameters_eq_none_iff.1 hparameters
      exact .inr ⟨.parameters, rfl, 2, ((FirstAt.head hfault).cons hdescription').cons hname'⟩
    have hparameters' := mt parameters_eq_none_iff.2
      (by rw [hparameters]; exact Option.some_ne_none parameters)
    rcases hrequired : readRequired fields with _ | required
    · have hfault := readRequired_eq_none_iff.1 hrequired
      exact .inr ⟨.required, rfl, 3,
        (((FirstAt.head hfault).cons hparameters').cons hdescription').cons hname'⟩
    refine .inl ⟨⟨name, description, parameters, required⟩, rfl, ?_⟩
    exact ⟨readName_eq_some_iff.1 hname, readDescription_eq_some_iff.1 hdescription,
      given?_eq_some_iff.1 hparameters, readRequired_eq_some_iff.1 hrequired⟩
  | _ =>
    refine .inr ⟨.name, rfl, 0, .head ?_⟩
    rintro ⟨s, hs, -⟩
    cases hs

/-- A list of items is read, or its first item at fault is reported. -/
theorem readFrom_outcome :
    ∀ (index : Nat) (items : List Json),
      (∃ ds, readFrom index items = .ok ds ∧ List.Forall₂ Reads items ds) ∨
        ∃ i item part, readFrom index items = .error (.malformedDescriptor (index + i) part) ∧
          FirstAt AtFault items i item ∧ FirstFault item part
  | _, [] => .inl ⟨[], rfl, .nil⟩
  | index, item :: items => by
    rw [readFrom]
    rcases readItem_outcome index item with ⟨d, hd, hreads⟩ | ⟨part, hpart, hfirst⟩
    · rw [hd]
      rcases readFrom_outcome (index + 1) items with ⟨ds, hds, hall⟩ | ⟨i, bad, part, hpart, hat, hfirst⟩
      · rw [hds]
        exact .inl ⟨d :: ds, rfl, .cons hreads hall⟩
      · rw [hpart, show index + 1 + i = index + (i + 1) by omega]
        exact .inr ⟨i + 1, bad, part, rfl, hat.cons hreads.not_faulty, hfirst⟩
    · rw [hpart]
      exact .inr ⟨0, item, part, rfl, .head hfirst.atFault, hfirst⟩

/-! ## Documents -/

theorem items?_eq_some_iff {v : Json} {items : List Json} : items? v = some items ↔ Holds v items := by
  constructor
  · intro h
    cases v with
    | array own =>
      cases h
      exact .array items
    | object fields =>
      obtain ⟨w, hw, hitems⟩ := Option.bind_eq_some_iff.1 h
      cases w <;> cases hitems
      exact .wrapped hw
    | _ => cases h
  · intro h
    cases h with
    | array => rfl
    | wrapped hget => exact Option.bind_eq_some_iff.2 ⟨_, hget, rfl⟩

theorem read_of_holds {v : Json} {items : List Json} (h : Holds v items) : read v = readFrom 0 items := by
  unfold read
  rw [items?_eq_some_iff.2 h]
  rfl

theorem read_of_not_holds {v : Json} (h : ¬ ∃ items, Holds v items) :
    read v = .error (.malformedDescriptor 0 .functions) := by
  have hnone : items? v = none := by
    rw [Option.eq_none_iff_forall_ne_some]
    intro items hitems
    exact h ⟨items, items?_eq_some_iff.1 hitems⟩
  unfold read
  rw [hnone]
  rfl

/-- A document with items is read, or the first fault of its first item at fault is reported. -/
theorem read_outcome {v : Json} {items : List Json} (h : Holds v items) :
    (∃ ds, read v = .ok ds ∧ List.Forall₂ Reads items ds) ∨
      ∃ i item part, read v = .error (.malformedDescriptor i part) ∧
        FirstAt AtFault items i item ∧ FirstFault item part := by
  have houtcome := readFrom_outcome 0 items
  simp only [Nat.zero_add, ← read_of_holds h] at houtcome
  exact houtcome

section

variable {items : List Json} {ds : List Descriptor}

theorem not_atFault_of_forall₂ (h : List.Forall₂ Reads items ds) : ∀ item ∈ items, ¬ AtFault item :=
  ((List.forall₂_and_left _ _).1 (h.imp fun _ _ hreads => ⟨hreads.not_faulty, hreads⟩)).1

theorem fit_of_forall₂ (h : List.Forall₂ Reads items ds) : ∀ d ∈ ds, ¬ Tool.Unfit d :=
  ((List.forall₂_and_left _ _).1 (h.flip.imp fun _ _ hreads => ⟨hreads.fit, hreads⟩)).1

/-- The checks of assembly find no fault in what was read. -/
theorem assemble_of_forall₂ (h : List.Forall₂ Reads items ds) (hne : items ≠ []) (options : AssemblyOptions) :
    ∃ tools, Tool.assemble options ds = .ok tools ∧ List.Forall₂ (Tool.MadeOf options) ds tools := by
  have hds : ds ≠ [] := by
    rintro rfl
    cases h
    exact hne rfl
  refine ⟨_, Tool.assemble_of_fit options hds (fit_of_forall₂ h), ?_⟩
  rw [List.forall₂_map_right_iff, List.forall₂_same]
  exact fun d _ => Tool.madeOf_ofDescriptor options d

end

/-- **A document is read just when none of its items has a fault, and otherwise the first fault is reported:**
of the first item at fault, the first part. What is read corresponds to the items one by one, and the assembly
of tools accepts it, unless it is empty. -/
theorem read_firstFault (v : Json) :
    ((¬ ∃ items, Holds v items) → read v = .error (.malformedDescriptor 0 .functions)) ∧
    ∀ items, Holds v items →
      read v = read (.array items) ∧
      ((∃ ds, read v = .ok ds) ↔ ∀ item ∈ items, ∀ part, ¬ Faulty item part) ∧
      (∀ e, read v = .error e ↔ ∃ i item part, e = .malformedDescriptor i part ∧
        FirstAt AtFault items i item ∧ FirstFault item part) ∧
      ∀ ds, read v = .ok ds → List.Forall₂ Reads items ds ∧
        ∀ options, (items = [] → Tool.assemble options ds = .error .noFunctions) ∧
          (items ≠ [] → ∃ tools, Tool.assemble options ds = .ok tools ∧
            List.Forall₂ (Tool.MadeOf options) ds tools) := by
  refine ⟨read_of_not_holds, ?_⟩
  intro items hitems
  refine ⟨(read_of_holds hitems).trans (read_of_holds (.array items)).symm, ?_⟩
  rcases read_outcome hitems with ⟨ds, hds, hall⟩ | ⟨i, item, part, herror, hat, hfirst⟩
  · have hnone := not_atFault_of_forall₂ hall
    rw [hds]
    refine ⟨⟨fun _ item hitem part hpart => hnone item hitem ⟨part, hpart⟩, fun _ => ⟨ds, rfl⟩⟩, ?_, ?_⟩
    · intro e
      constructor
      · intro h
        cases h
      · rintro ⟨i, item, part, -, hat, -⟩
        exact absurd hat.holds (hnone item hat.mem)
    · intro ds' h
      cases h
      refine ⟨hall, fun options => ⟨?_, fun hne => assemble_of_forall₂ hall hne options⟩⟩
      rintro rfl
      cases hall
      rfl
  · rw [herror]
    refine ⟨⟨?_, ?_⟩, ?_, ?_⟩
    · rintro ⟨ds, h⟩
      cases h
    · intro hnone
      obtain ⟨bad, hbad⟩ := hat.holds
      exact absurd hbad (hnone item hat.mem bad)
    · intro e
      constructor
      · intro h
        cases h
        exact ⟨i, item, part, rfl, hat, hfirst⟩
      · rintro ⟨i', item', part', rfl, hat', hfirst'⟩
        obtain ⟨rfl, rfl⟩ := hat.unique hat'
        rw [hfirst.unique hfirst']
    · intro ds h
      cases h

/-- An item with nothing but what it needs, and a null for its description. -/
def plainItem : Json :=
  .object [("name", .string "f"), ("description", .null), ("parameters", .object [])]

/-- An item with a number for its description and no parameters. -/
def faultyItem : Json := .object [("name", .string "g"), ("description", .number (.whole 3))]

/-- Both items in an object that has another key. -/
def wrappedItems : Json := .object [("version", .null), ("functions", .array [plainItem, faultyItem])]

/-- The description of the second item is reported and not its parameters. The first alone is read, and
assembled. -/
theorem read_wrappedItems :
    Holds wrappedItems [plainItem, faultyItem] ∧ Faulty faultyItem .parameters ∧
    read wrappedItems = .error (.malformedDescriptor 1 .description) ∧
    (∃ ds, read (.array [plainItem]) = .ok ds ∧ List.Forall₂ Reads [plainItem] ds ∧
      ∃ tools, Tool.assemble {} ds = .ok tools) ∧
    read .null = .error (.malformedDescriptor 0 .functions) := by
  have hholds : Holds wrappedItems [plainItem, faultyItem] := .wrapped rfl
  have hplain : Reads plainItem ⟨"f", [], .object [], []⟩ :=
    ⟨⟨rfl, by decide⟩, .inr ⟨.inr rfl, rfl⟩, ⟨rfl, by simp⟩, .inr ⟨.inl rfl, rfl⟩⟩
  have hname : ¬ Faulty faultyItem .name := fun h => h ⟨"g", rfl, by decide⟩
  have hdescription : Faulty faultyItem .description := by
    refine ⟨not_absent rfl (by simp), ?_⟩
    rintro ⟨s, hs⟩
    cases hs
  have hat : FirstAt AtFault [plainItem, faultyItem] 1 faultyItem :=
    (FirstAt.head ⟨_, hdescription⟩).cons hplain.not_faulty
  have hfirst : FirstFault faultyItem .description := ⟨1, (FirstAt.head hdescription).cons hname⟩
  have hwrapped := (read_firstFault wrappedItems).2 _ hholds
  have halone := (read_firstFault (.array [plainItem])).2 _ (.array [plainItem])
  refine ⟨hholds, .inl rfl, (hwrapped.2.2.1 _).2 ⟨1, _, _, rfl, hat, hfirst⟩, ?_, ?_⟩
  · obtain ⟨ds, hds⟩ := halone.2.1.2 (by simpa [AtFault] using hplain.not_faulty)
    obtain ⟨hreads, hassemble⟩ := halone.2.2.2 ds hds
    obtain ⟨tools, htools, -⟩ := (hassemble {}).2 (by simp)
    exact ⟨ds, hds, hreads, tools, htools⟩
  · refine (read_firstFault .null).1 ?_
    rintro ⟨items, hitems⟩
    cases hitems

end Descriptor

end ToolCatalog
