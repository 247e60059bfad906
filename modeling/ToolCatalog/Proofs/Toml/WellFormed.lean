import ToolCatalog.Toml.Reader

/-!
# What is read is well formed

No table that is read holds a key twice, and headers in double brackets leave at least one table where they
stand. A change to a table deep inside another keeps this if it keeps it where it is made (`keeps_alter`). So
it holds of every value, by recursion along the readers (`readValue_wellFormed`), and of a document after every
line (`readLines_wellFormed`, `parse?_wellFormed`).
-/

namespace ToolCatalog.Toml

/-! ## Readers that give only values with a property -/

/-- Whatever is given has a property. -/
def Yields {α : Type} (P : α → Prop) (o : Option α) : Prop := ∀ a, o = some a → P a

section

variable {α β : Type} {P : α → Prop} {Q : β → Prop} {o : Option α}

theorem yields_none : Yields P none := by
  intro a h
  cases h

theorem yields_some {a : α} (h : P a) : Yields P (some a) := by
  intro b hb
  cases hb
  exact h

theorem yields_map {f : α → β} (h : ∀ a, o = some a → Q (f a)) : Yields Q (o.map f) := by
  intro b hb
  obtain ⟨a, ha, rfl⟩ := Option.map_eq_some_iff.1 hb
  exact h a ha

theorem yields_bind {f : α → Option β} (h : ∀ a, o = some a → Yields Q (f a)) : Yields Q (o.bind f) := by
  intro b hb
  obtain ⟨a, ha, hb⟩ := Option.bind_eq_some_iff.1 hb
  exact h a ha b hb

theorem yields_orElse {o' : Option α} (h : Yields P o) (h' : Yields P o') : Yields P (o <|> o') := by
  cases o with
  | none => exact h'
  | some a => exact h

end

/-! ## Well-formed values -/

/-- A value is a table. -/
def IsTable (v : Toml) : Prop := ∃ origin entries, v = .table origin entries

/-- A value in which no table holds a key twice, and in which what headers in double brackets made are tables,
at least one. -/
inductive WellFormed : Toml → Prop where
  | string (s : Text) : WellFormed (.string s)
  | integer (n : Int) : WellFormed (.integer n)
  | float : WellFormed .float
  | bool (b : Bool) : WellFormed (.bool b)
  | moment : WellFormed .moment
  | array {items : List Toml} (hitems : ∀ v ∈ items, WellFormed v) : WellFormed (.array items)
  | table {origin : Origin} {entries : Fields Toml} (hkeys : (Fields.keys entries).Nodup)
      (hvalues : ∀ k v, (k, v) ∈ entries → WellFormed v) : WellFormed (.table origin entries)
  | tables {items : List Toml} (hsome : items ≠ []) (htables : ∀ v ∈ items, IsTable v)
      (hitems : ∀ v ∈ items, WellFormed v) : WellFormed (.tables items)

/-- Entries under distinct keys, with values that are well formed. -/
structure WellFormedEntries (entries : Fields Toml) : Prop where
  keys : (Fields.keys entries).Nodup
  values : ∀ k v, (k, v) ∈ entries → WellFormed v

theorem wellFormed_table_iff {origin : Origin} {entries : Fields Toml} :
    WellFormed (.table origin entries) ↔ WellFormedEntries entries := by
  constructor
  · intro h
    cases h with
    | table hkeys hvalues => exact ⟨hkeys, hvalues⟩
  · intro h
    exact .table h.keys h.values

/-- Tables below one another, and one more after them. -/
theorem wellFormed_tables_concat {items : List Toml} {origin : Origin} {entries : Fields Toml}
    (htables : ∀ v ∈ items, IsTable v) (hitems : ∀ v ∈ items, WellFormed v)
    (hentries : WellFormedEntries entries) : WellFormed (.tables (items ++ [.table origin entries])) := by
  refine .tables (by simp) ?_ ?_
  · intro v hv
    rcases List.mem_append.1 hv with hv | hv
    · exact htables v hv
    · exact ⟨origin, entries, List.mem_singleton.1 hv⟩
  · intro v hv
    rcases List.mem_append.1 hv with hv | hv
    · exact hitems v hv
    · rw [List.mem_singleton.1 hv]
      exact wellFormed_table_iff.2 hentries

namespace WellFormedEntries

variable {entries : Fields Toml} {k : Text} {v : Toml}

theorem nil : WellFormedEntries [] := ⟨List.nodup_nil, by simp⟩

theorem mem_iff_get? (h : WellFormedEntries entries) : (k, v) ∈ entries ↔ Fields.get? k entries = some v :=
  Fields.mem_iff_get? h.keys

theorem get? (h : WellFormedEntries entries) (hget : Fields.get? k entries = some v) : WellFormed v :=
  h.values k v (h.mem_iff_get?.2 hget)

theorem insert (h : WellFormedEntries entries) (k : Text) (hv : WellFormed v) :
    WellFormedEntries (Fields.insert k v entries) := by
  refine ⟨Fields.nodup_keys_insert k v h.keys, ?_⟩
  intro n w hmem
  rcases Fields.mem_insert hmem with hnew | hold
  · cases hnew
    exact hv
  · exact h.values n w hold

end WellFormedEntries

/-! ## Changes to tables -/

/-- A table with well-formed entries. -/
def Table.WellFormed (t : Table) : Prop := WellFormedEntries t.entries

/-- A change of a table that keeps it well formed. -/
def Keeps (change : Table → Option Table) : Prop :=
  ∀ t : Table, t.WellFormed → Yields Table.WellFormed (change t)

namespace Table

variable {k : Text} {v : Toml}

/-- A change deep inside a table, by induction on the path to it. -/
theorem keeps_alter (making : Origin) {change : Table → Option Table} (hchange : Keeps change) :
    ∀ path, Keeps (alter making change path)
  | [] => hchange
  | k :: path => by
    intro t ht
    have ih := keeps_alter making hchange path
    rw [alter]
    split
    · refine yields_map fun u hu => ?_
      exact ht.insert k (wellFormed_table_iff.2 (ih ⟨making, []⟩ .nil u hu))
    · rename_i origin entries hget
      split
      · exact yields_none
      · refine yields_map fun u hu => ?_
        have hentries : WellFormedEntries entries := wellFormed_table_iff.1 (ht.get? hget)
        exact ht.insert k (wellFormed_table_iff.2 (ih ⟨origin, entries⟩ hentries u hu))
    · rename_i items hget
      cases ht.get? hget with
      | tables hsome htables hitems =>
      split
      · rename_i origin entries hlast
        refine yields_map fun u hu => ?_
        have hentries : WellFormedEntries entries :=
          wellFormed_table_iff.1 (hitems _ (List.mem_of_getLast? hlast))
        -- the tables before the last stay as they are
        exact ht.insert k (wellFormed_tables_concat (fun v hv => htables v (List.dropLast_subset _ hv))
          (fun v hv => hitems v (List.dropLast_subset _ hv)) (ih ⟨origin, entries⟩ hentries u hu))
      · exact yields_none
    · exact yields_none

theorem keeps_add (k : Text) (hv : v.WellFormed) : Keeps (add k v) := by
  intro t ht
  unfold add
  split
  · exact yields_none
  · exact yields_some (ht.insert k hv)

theorem keeps_addDotted (path : List Text) (k : Text) (hv : v.WellFormed) : Keeps (addDotted path k v) := by
  refine keeps_alter .dotted ?_ path
  intro t ht
  dsimp only
  split
  · exact yields_none
  · exact keeps_add k hv t ht

theorem keeps_openHeader (k : Text) : Keeps (openHeader k) := by
  intro t ht
  unfold openHeader
  split
  · exact yields_some (ht.insert k (wellFormed_table_iff.2 .nil))
  · rename_i entries hget
    have hentries : WellFormedEntries entries := wellFormed_table_iff.1 (ht.get? hget)
    exact yields_some (ht.insert k (wellFormed_table_iff.2 hentries))
  · exact yields_none

theorem keeps_openItem (k : Text) : Keeps (openItem k) := by
  intro t ht
  unfold openItem
  split
  · have hfirst : Toml.WellFormed (.tables ([] ++ [.table .header []])) :=
      wellFormed_tables_concat (by simp) (by simp) .nil
    exact yields_some (ht.insert k hfirst)
  · rename_i items hget
    cases ht.get? hget with
    | tables hsome htables hitems =>
    exact yields_some (ht.insert k (wellFormed_tables_concat htables hitems .nil))
  · exact yields_none

end Table

/-! ## Values -/

/-- A value that has been read, with what follows it. -/
def Reads (o : Option (Toml × Text)) : Prop := Yields (fun p => p.1.WellFormed) o

theorem reads_moment (s : Text) : Reads (readMoment s) := by
  unfold readMoment
  split
  · split
    · exact yields_map fun _ _ => .moment
    · exact yields_map fun _ _ => .moment
    · split <;> exact yields_some .moment
    · exact yields_some .moment
  · exact yields_map fun _ _ => .moment

theorem reads_fraction (s : Text) : Reads (readFraction s) := by
  have hfinite : ∀ (b : Bool) (r : Text), Reads (if b then some (.float, r) else none) := by
    intro b r
    cases b with
    | false => exact yields_none
    | true => exact yields_some .float
  unfold readFraction
  refine yields_bind fun _ _ => ?_
  dsimp only
  split
  · refine yields_bind fun _ _ => ?_
    split
    · exact yields_bind fun _ _ => hfinite _ _
    · exact yields_bind fun _ _ => hfinite _ _
    · exact hfinite _ _
  · exact yields_bind fun _ _ => hfinite _ _

theorem reads_special (s : Text) : Reads (readSpecial s) := by
  unfold readSpecial
  dsimp only
  split
  · exact yields_some .float
  · exact yields_some .float
  · exact yields_none

theorem integer?_wellFormed (negative : Bool) (n : Nat) : Yields WellFormed (integer? negative n) := by
  unfold integer?
  split <;> split
  · exact yields_some (.integer _)
  · exact yields_none
  · exact yields_some (.integer _)
  · exact yields_none

theorem reads_based (isDigit : Char → Bool) (base : Nat) (s : Text) : Reads (readBased isDigit base s) := by
  refine yields_bind fun _ _ => yields_bind fun _ _ => yields_map fun v hv => ?_
  exact integer?_wellFormed _ _ v hv

theorem reads_integer (s : Text) : Reads (readInteger s) := by
  unfold readInteger
  split
  · exact reads_based _ _ _
  · exact reads_based _ _ _
  · exact reads_based _ _ _
  · refine yields_bind fun _ _ => yields_map fun v hv => ?_
    exact integer?_wellFormed _ _ v hv

theorem reads_number (s : Text) : Reads (readNumber s) :=
  yields_orElse (reads_moment s)
    (yields_orElse (reads_fraction s) (yields_orElse (reads_special s) (reads_integer s)))

mutual

/-- A value is well formed: its items and entries are read with less fuel, and a table in braces grows by changes
that keep it so. -/
theorem readValue_wellFormed : ∀ (fuel depth : Nat) (s : Text), Reads (readValue fuel depth s)
  | 0, _, _ => by
    unfold readValue
    exact yields_none
  | fuel + 1, depth, s => by
    unfold readValue
    split
    · exact yields_map fun _ _ => .string _
    · exact yields_map fun _ _ => .string _
    · split
      · exact yields_none
      · exact yields_map fun p hp => .array (readItems_wellFormed fuel _ _ p hp)
    · split
      · exact yields_none
      · exact yields_map fun p hp => wellFormed_table_iff.2 (readClosed_wellFormed fuel _ _ p hp)
    · exact yields_map fun _ _ => .bool true
    · exact yields_map fun _ _ => .bool false
    · exact reads_number _

theorem readItems_wellFormed :
    ∀ (fuel depth : Nat) (s : Text), Yields (fun p => ∀ v ∈ p.1, v.WellFormed) (readItems fuel depth s)
  | 0, _, _ => by
    unfold readItems
    exact yields_none
  | fuel + 1, depth, s => by
    unfold readItems
    refine yields_bind fun _ _ => ?_
    split
    · exact yields_some (by simp)
    · refine yields_bind fun p hp => ?_
      have hv : p.1.WellFormed := readValue_wellFormed fuel depth _ p hp
      refine yields_bind fun _ _ => ?_
      split
      · refine yields_map fun q hq => ?_
        exact List.forall_mem_cons.2 ⟨hv, readItems_wellFormed fuel depth _ q hq⟩
      · exact yields_some (by simpa using hv)
      · exact yields_none

theorem readClosed_wellFormed :
    ∀ (fuel depth : Nat) (s : Text), Yields (fun p => p.1.WellFormed) (readClosed fuel depth s)
  | 0, _, _ => by
    unfold readClosed
    exact yields_none
  | fuel + 1, depth, s => by
    unfold readClosed
    split
    · exact yields_some .nil
    · exact readEntries_wellFormed fuel depth _ _ .nil

theorem readEntries_wellFormed :
    ∀ (fuel depth : Nat) (t : Table) (s : Text), t.WellFormed →
      Yields (fun p => p.1.WellFormed) (readEntries fuel depth t s)
  | 0, _, _, _, _ => by
    unfold readEntries
    exact yields_none
  | fuel + 1, depth, t, s, ht => by
    unfold readEntries
    refine yields_bind fun _ _ => yields_bind fun _ _ => yields_bind fun p hp => ?_
    have hv : p.1.WellFormed := readValue_wellFormed fuel depth _ p hp
    refine yields_bind fun u hu => ?_
    have hentries : u.WellFormed := Table.keeps_addDotted _ _ hv t ht u hu
    split
    · exact readEntries_wellFormed fuel depth u _ hentries
    · exact yields_some hentries
    · exact yields_none

end

/-! ## Documents -/

/-- What has been read so far, of a document that goes on. -/
def ReadsOn (o : Option (Progress × Text)) : Prop := Yields (fun q => q.1.root.WellFormed) o

variable {p : Progress}

theorem openAt_wellFormed (hp : p.root.WellFormed) {opening : Text → Table → Option Table}
    (hopening : ∀ k, Keeps (opening k)) (key : List Text) :
    Yields (fun q => q.root.WellFormed) (p.openAt opening key) :=
  yields_map fun root hroot => Table.keeps_alter .implied (hopening _) key.dropLast p.root hp root hroot

theorem add_wellFormed (hp : p.root.WellFormed) (key : List Text) {v : Toml} (hv : v.WellFormed) :
    Yields (fun q => q.root.WellFormed) (p.add key v) :=
  yields_map fun root hroot =>
    Table.keeps_alter .implied (Table.keeps_addDotted _ _ hv) p.path p.root hp root hroot

theorem readHeader_wellFormed (hp : p.root.WellFormed) (s : Text) : ReadsOn (readHeader p s) := by
  unfold readHeader
  split
  · refine yields_bind fun _ _ => yields_bind fun _ _ => yields_bind fun _ _ => yields_bind fun q hq => ?_
    exact yields_some (openAt_wellFormed hp Table.keeps_openItem _ q hq)
  · refine yields_bind fun _ _ => yields_bind fun _ _ => yields_bind fun _ _ => yields_bind fun q hq => ?_
    exact yields_some (openAt_wellFormed hp Table.keeps_openHeader _ q hq)

theorem readEntry_wellFormed (hp : p.root.WellFormed) (s : Text) : ReadsOn (readEntry p s) := by
  unfold readEntry
  refine yields_bind fun _ _ => yields_bind fun _ _ => yields_bind fun w hw => ?_
  have hv : w.1.WellFormed := readValue_wellFormed _ _ _ w hw
  refine yields_bind fun _ _ => yields_bind fun q hq => ?_
  exact yields_some (add_wellFormed hp _ hv q hq)

/-- Every line keeps the tables well formed, so all lines do. -/
theorem readLines_wellFormed :
    ∀ (fuel : Nat) (p : Progress) (s : Text), p.root.WellFormed →
      Yields (fun q => q.root.WellFormed) (readLines fuel p s)
  | 0, _, _, _ => yields_none
  | fuel + 1, p, s, hp => by
    rw [readLines]
    split
    · exact yields_some hp
    · exact yields_bind fun _ _ => readLines_wellFormed fuel p _ hp
    · exact readLines_wellFormed fuel p _ hp
    · exact yields_bind fun _ _ => readLines_wellFormed fuel p _ hp
    · exact yields_bind fun q hq => readLines_wellFormed fuel q.1 _ (readHeader_wellFormed hp _ q hq)
    · exact yields_bind fun q hq => readLines_wellFormed fuel q.1 _ (readEntry_wellFormed hp _ q hq)

/-- A document that can be read holds no key twice, in no table. -/
theorem parse?_wellFormed (s : Text) : Yields WellFormedEntries (parse? s) :=
  yields_map fun p hp => readLines_wellFormed _ {} _ .nil p hp

end ToolCatalog.Toml
