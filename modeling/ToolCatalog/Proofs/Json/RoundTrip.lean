import ToolCatalog.Proofs.Json.Strings

/-!
# Printed values are read back

A value without numbers is printed as a text that is taken apart into the document of the value
(`read?_render`). Where names do not come twice and the nesting is not too deep, the value of that document
is the value that was printed (`parse?_render`).

The reader is bounded by a number of steps and the printer indents by levels, so what is read back is
stated of any level, with anything after the printed text, for every bound above the length of that text.
-/

namespace ToolCatalog.Fields

variable {α : Type}

theorem insert_of_notMem {k : Text} {v : α} :
    ∀ {fs : Fields α}, k ∉ keys fs → insert k v fs = fs ++ [(k, v)]
  | [], _ => rfl
  | (j, w) :: fs, h => by
    simp only [keys, List.map_cons, List.mem_cons, not_or] at h
    rw [insert, if_neg (Ne.symm h.1), insert_of_notMem h.2]
    rfl

theorem foldl_insert :
    ∀ {l fs : Fields α}, (keys (fs ++ l)).Nodup → l.foldl (fun fs p => insert p.1 p.2 fs) fs = fs ++ l
  | [], _, _ => (List.append_nil _).symm
  | (k, v) :: l, fs, h => by
    have happend : fs ++ (k, v) :: l = (fs ++ [(k, v)]) ++ l := by simp
    have hfresh : k ∉ keys fs := by
      intro hk
      rw [keys, List.map_append, List.nodup_append] at h
      exact h.2.2 k hk k (by simp) rfl
    rw [List.foldl_cons, insert_of_notMem hfresh, happend]
    exact foldl_insert (happend ▸ h)

/-- A list that repeats no name makes fields as it stands. -/
theorem ofList_eq_self {l : Fields α} (h : (keys l).Nodup) : ofList l = l :=
  foldl_insert (show (keys ([] ++ l)).Nodup from h)

end ToolCatalog.Fields

namespace ToolCatalog.Json

/-! ## Documents of values -/

mutual

/-- A value without numbers that nests at most `depth` deep and repeats no name in an object. -/
def Plain (depth : Nat) : Json → Prop
  | .number _ => False
  | .array items => 0 < depth ∧ PlainItems (depth - 1) items
  | .object fields => 0 < depth ∧ (Fields.keys fields).Nodup ∧ PlainFields (depth - 1) fields
  | _ => True

/-- Items that are plain. -/
def PlainItems (depth : Nat) : List Json → Prop
  | [] => True
  | v :: vs => v.Plain depth ∧ PlainItems depth vs

/-- Fields with plain values. -/
def PlainFields (depth : Nat) : List (Text × Json) → Prop
  | [] => True
  | (_, v) :: fields => v.Plain depth ∧ PlainFields depth fields

end

theorem plainItems_iff {depth : Nat} :
    ∀ {items : List Json}, PlainItems depth items ↔ ∀ v ∈ items, v.Plain depth
  | [] => by simp [PlainItems]
  | v :: vs => by rw [PlainItems, plainItems_iff, List.forall_mem_cons]

theorem plainFields_iff {depth : Nat} :
    ∀ {fields : List (Text × Json)}, PlainFields depth fields ↔ ∀ f ∈ fields, f.2.Plain depth
  | [] => by simp [PlainFields]
  | (k, v) :: fields => by rw [PlainFields, plainFields_iff, List.forall_mem_cons]

mutual

/-- The document that a plain value is printed as. A number is not plain, and has none of its own. -/
def document : Json → Document
  | .null | .number _ => .null
  | .bool b => .bool b
  | .string s => .string (Piece.ofText s)
  | .array items => .array (itemDocuments items)
  | .object fields => .object (memberDocuments fields)

/-- The documents of the items of an array. -/
def itemDocuments : List Json → List Document
  | [] => []
  | v :: vs => v.document :: itemDocuments vs

/-- The members that the fields of an object are printed as. -/
def memberDocuments : List (Text × Json) → List (List Piece × Document)
  | [] => []
  | (k, v) :: fields => (Piece.ofText k, v.document) :: memberDocuments fields

end

/-! ## Spaces -/

theorem skipSpace_cons {c : Char} (h : isSpace c = false) (s : Source) :
    skipSpace (some c :: s) = some c :: s := by
  simp [skipSpace, h]

theorem skipSpace_replicate (n : Nat) (s : Source) :
    skipSpace (Source.ofText (List.replicate n ' ') ++ s) = skipSpace s := by
  induction n with
  | zero => rfl
  | succ n ih => exact ih

theorem skipSpace_lineAt (level : Nat) (s : Source) :
    skipSpace (Source.ofText (lineAt level) ++ s) = skipSpace s :=
  skipSpace_replicate (2 * level) s

theorem skipSpace_skipSpace : ∀ s : Source, skipSpace (skipSpace s) = skipSpace s
  | [] => rfl
  | none :: _ => rfl
  | some c :: s => by
    cases h : isSpace c with
    | true => simpa [skipSpace, h] using skipSpace_skipSpace s
    | false => simp [skipSpace, h]

theorem readValue_skipSpace (fuel : Nat) (s : Source) :
    readValue fuel (skipSpace s) = readValue fuel s := by
  cases fuel with
  | zero => rfl
  | succ fuel =>
    unfold readValue
    rw [skipSpace_skipSpace]

theorem readItems_skipSpace (fuel : Nat) (s : Source) :
    readItems fuel (skipSpace s) = readItems fuel s := by
  cases fuel with
  | zero => rfl
  | succ fuel =>
    unfold readItems
    rw [readValue_skipSpace]

theorem readMembers_skipSpace (fuel : Nat) (s : Source) :
    readMembers fuel (skipSpace s) = readMembers fuel s := by
  cases fuel with
  | zero => rfl
  | succ fuel =>
    unfold readMembers
    rw [skipSpace_skipSpace]

/-! ## Taking a printed value apart -/

/-- A value is read back where it is printed at a level. -/
def Reads (level : Nat) (v : Json) : Prop :=
  ∀ (fuel : Nat) (rest : Source), (printAt level v).length < fuel →
    readValue fuel (Source.ofText (printAt level v) ++ rest) = some (v.document, rest)

theorem reads_of_succ {level : Nat} {v : Json}
    (h : ∀ (fuel : Nat) (rest : Source),
      readValue (fuel + 1) (Source.ofText (printAt level v) ++ rest) = some (v.document, rest)) :
    Reads level v := by
  intro fuel rest hfuel
  cases fuel with
  | zero => exact absurd hfuel (Nat.not_lt_zero _)
  | succ fuel => exact h fuel rest

section

variable (level outer : Nat) (rest : Source)

theorem skipSpace_close {c : Char} (h : isSpace c = false) :
    skipSpace (Source.ofText (lineAt outer) ++ some c :: rest) = some c :: rest := by
  rw [skipSpace_lineAt, skipSpace_cons h]

theorem ofText_printItems_cons (v : Json) (vs : List Json) :
    Source.ofText (printItems level (v :: vs)) ++ rest =
      some ',' :: (Source.ofText (lineAt level) ++
        (Source.ofText (printAt level v) ++ (Source.ofText (printItems level vs) ++ rest))) := by
  simp [printItems, Source.ofText]

/-- The items of an array are read up to its closing bracket. -/
theorem readItems_print :
    ∀ (v : Json) (vs : List Json) (fuel : Nat), (∀ u ∈ v :: vs, Reads level u) →
      (printAt level v ++ printItems level vs).length + 1 < fuel →
      readItems fuel (Source.ofText (printAt level v) ++ (Source.ofText (printItems level vs) ++
          (Source.ofText (lineAt outer) ++ some ']' :: rest))) =
        some (v.document :: itemDocuments vs, rest)
  | v, [], fuel + 1, hreads, hfuel => by
    rw [List.length_append] at hfuel
    rw [readItems, hreads v (by simp) _ _ (by omega)]
    simp only [Option.bind_some]
    rw [show Source.ofText (printItems level []) = [] from rfl, List.nil_append,
      skipSpace_close outer rest (by decide)]
    rfl
  | v, w :: vs, fuel + 1, hreads, hfuel => by
    rw [List.length_append, printItems] at hfuel
    simp only [List.length_append, List.length_cons] at hfuel
    -- one step is spent on the item, and its comma and line end are longer than that
    have hline : 1 ≤ (lineAt level).length := by simp [lineAt]
    have ih := readItems_print w vs fuel
      (fun u hu => hreads u (List.mem_cons_of_mem v hu)) (by rw [List.length_append]; omega)
    rw [readItems, hreads v (by simp) _ _ (by omega)]
    simp only [Option.bind_some]
    rw [ofText_printItems_cons, skipSpace_cons (by decide)]
    simp only
    rw [← readItems_skipSpace, skipSpace_lineAt, readItems_skipSpace, ih]
    rfl

theorem ofText_printFields_cons (k : Text) (v : Json) (fields : List (Text × Json)) :
    Source.ofText (printFields level ((k, v) :: fields)) ++ rest =
      some ',' :: (Source.ofText (lineAt level) ++ (Source.ofText (quote k) ++ some ':' :: some ' ' ::
        (Source.ofText (printAt level v) ++ (Source.ofText (printFields level fields) ++ rest)))) := by
  simp [printFields, Source.ofText]

/-- A printed name with its colon is read, and then its value. -/
theorem readMembers_cons {k : Text} {v : Json} {fuel : Nat} (h : Reads level v)
    (hfuel : (printAt level v).length < fuel) :
    readMembers (fuel + 1) (Source.ofText (quote k) ++ some ':' :: some ' ' ::
        (Source.ofText (printAt level v) ++ rest)) =
      match skipSpace rest with
      | some ',' :: s =>
        (readMembers fuel s).map fun (ms, r) => ((Piece.ofText k, v.document) :: ms, r)
      | some '\x7d' :: r => some ([(Piece.ofText k, v.document)], r)
      | _ => none := by
  rw [readMembers, ofText_quote, skipSpace_cons (by decide)]
  simp only [readString_flatMap, Option.bind_some]
  rw [skipSpace_cons (by decide)]
  simp only
  rw [← readValue_skipSpace, show skipSpace (some ' ' :: (Source.ofText (printAt level v) ++ rest)) =
    skipSpace (Source.ofText (printAt level v) ++ rest) from rfl, readValue_skipSpace, h _ _ hfuel]
  rfl

/-- The members of an object are read up to its closing brace. -/
theorem readMembers_print :
    ∀ (k : Text) (v : Json) (fields : List (Text × Json)) (fuel : Nat),
      (∀ f ∈ (k, v) :: fields, Reads level f.2) →
      (printAt level v ++ printFields level fields).length + 1 < fuel →
      readMembers fuel (Source.ofText (quote k) ++ some ':' :: some ' ' ::
          (Source.ofText (printAt level v) ++ (Source.ofText (printFields level fields) ++
            (Source.ofText (lineAt outer) ++ some '\x7d' :: rest)))) =
        some ((Piece.ofText k, v.document) :: memberDocuments fields, rest)
  | k, v, [], fuel + 1, hreads, hfuel => by
    have hv : Reads level v := hreads (k, v) (by simp)
    rw [List.length_append] at hfuel
    rw [readMembers_cons level _ hv (by omega),
      show Source.ofText (printFields level []) = [] from rfl, List.nil_append,
      skipSpace_close outer rest (by decide)]
    rfl
  | k, v, (j, w) :: fields, fuel + 1, hreads, hfuel => by
    have hv : Reads level v := hreads (k, v) (by simp)
    rw [List.length_append, printFields] at hfuel
    simp only [List.length_append, List.length_cons] at hfuel
    have hline : 1 ≤ (lineAt level).length := by simp [lineAt]
    have ih := readMembers_print j w fields fuel
      (fun f hf => hreads f (List.mem_cons_of_mem _ hf)) (by rw [List.length_append]; omega)
    rw [readMembers_cons level _ hv (by omega), ofText_printFields_cons,
      skipSpace_cons (by decide)]
    simp only
    rw [← readMembers_skipSpace, skipSpace_lineAt, readMembers_skipSpace, ih]
    rfl

end

/-- A printed value begins with a character that is neither a space nor a closing bracket. -/
theorem printAt_eq_cons {depth : Nat} {v : Json} (h : v.Plain depth) (level : Nat) :
    ∃ c s, printAt level v = c :: s ∧ isSpace c = false ∧ c ≠ ']' := by
  cases v with
  | number n => cases h
  | null => exact ⟨_, _, rfl, by decide, by decide⟩
  | string s => exact ⟨_, _, rfl, by decide, by decide⟩
  | bool b => cases b <;> exact ⟨_, _, rfl, by decide, by decide⟩
  | array items => cases items <;> exact ⟨_, _, by unfold printAt; rfl, by decide, by decide⟩
  | object fields => cases fields <;> exact ⟨_, _, by unfold printAt; rfl, by decide, by decide⟩

theorem reads_array {level depth : Nat} {v : Json} {vs : List Json} (hv : v.Plain depth)
    (h : ∀ u ∈ v :: vs, Reads (level + 1) u) : Reads level (.array (v :: vs)) := by
  intro fuel rest hfuel
  obtain ⟨c, s, hcons, hspace, hc⟩ := printAt_eq_cons hv (level + 1)
  have hline : 1 ≤ (lineAt (level + 1)).length := by simp [lineAt]
  have hsource : Source.ofText (printAt level (.array (v :: vs))) ++ rest =
      some '[' :: (Source.ofText (lineAt (level + 1)) ++ (Source.ofText (printAt (level + 1) v) ++
        (Source.ofText (printItems (level + 1) vs) ++
          (Source.ofText (lineAt level) ++ some ']' :: rest)))) := by
    simp [printAt, Source.ofText]
  unfold printAt at hfuel
  simp only [List.length_append, List.length_cons] at hfuel
  obtain ⟨fuel, rfl⟩ : ∃ n, fuel = n + 1 := ⟨fuel - 1, by omega⟩
  have hitems := readItems_print (level + 1) level rest v vs fuel h
    (by rw [List.length_append]; omega)
  rw [hsource, readValue, skipSpace_cons (by decide)]
  simp only
  rw [skipSpace_lineAt]
  rw [hcons, Source.ofText_cons, List.cons_append] at hitems ⊢
  rw [skipSpace_cons hspace]
  -- the array is not empty: its first item does not begin with the bracket that would close it
  split
  · rename_i heq
    cases heq
    exact absurd rfl hc
  · rw [hitems]
    rfl

theorem reads_object {level : Nat} {k : Text} {v : Json} {fields : List (Text × Json)}
    (h : ∀ f ∈ (k, v) :: fields, Reads (level + 1) f.2) : Reads level (.object ((k, v) :: fields)) := by
  intro fuel rest hfuel
  have hline : 1 ≤ (lineAt (level + 1)).length := by simp [lineAt]
  have hsource : Source.ofText (printAt level (.object ((k, v) :: fields))) ++ rest =
      some '\x7b' :: (Source.ofText (lineAt (level + 1)) ++ (Source.ofText (quote k) ++ some ':' ::
        some ' ' :: (Source.ofText (printAt (level + 1) v) ++
          (Source.ofText (printFields (level + 1) fields) ++
            (Source.ofText (lineAt level) ++ some '\x7d' :: rest))))) := by
    simp [printAt, Source.ofText]
  unfold printAt at hfuel
  simp only [List.length_append, List.length_cons] at hfuel
  obtain ⟨fuel, rfl⟩ : ∃ n, fuel = n + 1 := ⟨fuel - 1, by omega⟩
  have hmembers := readMembers_print (level + 1) level rest k v fields fuel h
    (by rw [List.length_append]; omega)
  rw [hsource, readValue, skipSpace_cons (by decide)]
  simp only
  rw [skipSpace_lineAt]
  rw [ofText_quote] at hmembers ⊢
  rw [skipSpace_cons (by decide)]
  split
  · rename_i heq
    cases heq
  · rw [hmembers]
    rfl

mutual

/-- A plain value is read back at every level. -/
theorem Plain.reads : ∀ {depth : Nat} {v : Json}, v.Plain depth → ∀ level, Reads level v
  | _, .null, _, _ => reads_of_succ fun _ _ => rfl
  | _, .bool true, _, _ => reads_of_succ fun _ _ => rfl
  | _, .bool false, _, _ => reads_of_succ fun _ _ => rfl
  | _, .string s, _, _ => by
    refine reads_of_succ fun fuel rest => ?_
    rw [printAt, ofText_quote, readValue, skipSpace_cons (by decide)]
    simp only [readString_flatMap]
    rfl
  | _, .array [], _, _ => reads_of_succ fun _ _ => rfl
  | _, .array (v :: vs), h, level => reads_array h.2.1 (PlainItems.reads h.2 (level + 1))
  | _, .object [], _, _ => reads_of_succ fun _ _ => rfl
  | _, .object ((k, v) :: fields), h, level => reads_object (PlainFields.reads h.2.2 (level + 1))

theorem PlainItems.reads :
    ∀ {depth : Nat} {items : List Json}, PlainItems depth items → ∀ level, ∀ v ∈ items, Reads level v
  | _, v :: vs, h, level => List.forall_mem_cons.2 ⟨h.1.reads level, PlainItems.reads h.2 level⟩
  | _, [], _, _ => by simp

theorem PlainFields.reads :
    ∀ {depth : Nat} {fields : List (Text × Json)}, PlainFields depth fields →
      ∀ level, ∀ f ∈ fields, Reads level f.2
  | _, (k, v) :: fields, h, level =>
    List.forall_mem_cons.2 ⟨h.1.reads level, PlainFields.reads h.2 level⟩
  | _, [], _, _ => by simp

end

/-- The printed form of a plain value is the text of its document. -/
theorem Plain.read?_render {depth : Nat} {v : Json} (h : v.Plain depth) :
    Document.read? (.ofText (render v)) = some v.document := by
  unfold Document.read? render
  rw [Source.ofText_append, h.reads 0 _ _ (by rw [List.length_append, Source.length_ofText]; omega)]
  rfl

/-! ## The value of a document -/

mutual

theorem Plain.value?_document :
    ∀ {depth : Nat} {v : Json}, v.Plain depth → v.document.value? depth = some v
  | _, .null, _ => rfl
  | _, .bool b, _ => rfl
  | _, .string s, _ => by
    rw [document, Document.value?, piecesText?_ofText]
    rfl
  | depth, .array items, h => by
    rw [document, Document.value?, if_neg (Nat.pos_iff_ne_zero.1 h.1), PlainItems.itemValues?_documents h.2]
    rfl
  | depth, .object fields, h => by
    rw [document, Document.value?, if_neg (Nat.pos_iff_ne_zero.1 h.1), PlainFields.memberValues?_documents h.2.2]
    exact congrArg (some ∘ object) (Fields.ofList_eq_self h.2.1)

theorem PlainItems.itemValues?_documents :
    ∀ {depth : Nat} {items : List Json}, PlainItems depth items →
      itemValues? depth (itemDocuments items) = some items
  | _, [], _ => rfl
  | _, v :: vs, h => by
    rw [itemDocuments, itemValues?, h.1.value?_document, PlainItems.itemValues?_documents h.2]
    rfl

theorem PlainFields.memberValues?_documents :
    ∀ {depth : Nat} {fields : List (Text × Json)}, PlainFields depth fields →
      memberValues? depth (memberDocuments fields) = some fields
  | _, [], _ => rfl
  | _, (k, v) :: fields, h => by
    rw [memberDocuments, memberValues?, piecesText?_ofText, h.1.value?_document,
      PlainFields.memberValues?_documents h.2]
    rfl

end

/-- A plain value that is not too deep is the value of its printed form. -/
theorem Plain.parse?_render {v : Json} (h : v.Plain maxDepth) : parse? (render v) = some v := by
  unfold parse?
  rw [h.read?_render]
  exact h.value?_document

end ToolCatalog.Json
