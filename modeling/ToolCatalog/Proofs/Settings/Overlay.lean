import ToolCatalog.Proofs.Toml.WellFormed
import ToolCatalog.Proofs.Tool.Reading
import ToolCatalog.Settings

/-!
# Settings lie over their defaults

A setting has a place in a document, a way in which its values are written there, and a default (`Setting`).
What a document gives is said by what stands in its tables, in any order and among anything else (`Gives`); as
tables that are read repeat no key, it is what a look-up finds (`gives_iff`). A setting takes the value that is
given or its default (`read?_eq_some_iff`), and it can take one just when what is given is of its type
(`exists_takes_iff`). So the settings in a document are those that lie over the defaults
(`ofDocument?_eq_some_iff`).
-/

namespace ToolCatalog.Settings

/-! ## What a document gives -/

/-- A value stands under a key in the table under a heading. -/
def Gives (document : Fields Toml) (heading key : Text) (v : Toml) : Prop :=
  ∃ origin entries, (heading, Toml.table origin entries) ∈ document ∧ (key, v) ∈ entries

/-- What stands under a heading, if anything, is a table. -/
def Heads (document : Fields Toml) (heading : Text) : Prop := ∀ v, (heading, v) ∈ document → v.IsTable

/-- The headings of settings are absent or head tables. -/
structure Sectioned (document : Fields Toml) : Prop where
  scan : Heads document "scan"
  listing : Heads document "listing"
  emit : Heads document "emit"

/-- A setting: its place in a document, how its values are written there, and its default. -/
structure Setting (α : Type) where
  heading : Text
  key : Text
  written : α → Toml
  default : α

namespace Setting

variable {α : Type}

/-- A document does not give the setting any value. -/
def Absent (f : Setting α) (document : Fields Toml) : Prop := ∀ v, ¬ Gives document f.heading f.key v

/-- What a document gives the setting, if anything, is of its type. -/
def Typed (f : Setting α) (document : Fields Toml) : Prop :=
  ∀ v, Gives document f.heading f.key v → ∃ a, v = f.written a

/-- The setting takes a value: the one that is given, or its default if none is. -/
def Takes (f : Setting α) (document : Fields Toml) (a : α) : Prop :=
  Gives document f.heading f.key (f.written a) ∨ f.Absent document ∧ a = f.default

/-- Two documents give the setting the same. -/
def Same (f : Setting α) (document document' : Fields Toml) : Prop :=
  ∀ v, Gives document f.heading f.key v ↔ Gives document' f.heading f.key v

def topLevelOnly : Setting Bool := ⟨"scan", "top_level_only", .bool, false⟩

/-- Its values are the whole numbers that are not negative. -/
def perPage : Setting Nat := ⟨"listing", "per_page", fun n => .integer n, 100⟩

def excludeDirs : Setting (List Text) :=
  ⟨"listing", "exclude_dirs", fun names => .array (names.map .string), defaultExcludeDirs⟩

def embedRequired : Setting Bool := ⟨"emit", "embed_required", .bool, false⟩

end Setting

/-- All that a document gives the settings is of their types. -/
structure Typed (document : Fields Toml) : Prop where
  topLevelOnly : Setting.topLevelOnly.Typed document
  perPage : Setting.perPage.Typed document
  excludeDirs : Setting.excludeDirs.Typed document
  embedRequired : Setting.embedRequired.Typed document

/-- Settings with every value that a document gives, and the default for every other. -/
structure Overlays (document : Fields Toml) (settings : Settings) : Prop where
  topLevelOnly : Setting.topLevelOnly.Takes document settings.scan.topLevelOnly
  perPage : Setting.perPage.Takes document settings.listing.perPage
  excludeDirs : Setting.excludeDirs.Takes document settings.listing.excludeDirs
  embedRequired : Setting.embedRequired.Takes document settings.emit.embedRequired

/-- Two documents give every setting the same, whatever the order of their keys and whatever else they hold. -/
structure Alike (document document' : Fields Toml) : Prop where
  topLevelOnly : Setting.topLevelOnly.Same document document'
  perPage : Setting.perPage.Same document document'
  excludeDirs : Setting.excludeDirs.Same document document'
  embedRequired : Setting.embedRequired.Same document document'

/-! ## Looking a value up -/

/-- The value under a key in the table under a heading. -/
def lookup? (document : Fields Toml) (heading key : Text) : Option Toml :=
  match Fields.get? heading document with
  | some (.table _ entries) => Fields.get? key entries
  | _ => none

/-- A look-up finds nothing or a table under a heading. -/
def headsTable (document : Fields Toml) (heading : Text) : Bool :=
  match Fields.get? heading document with
  | none | some (.table _ _) => true
  | _ => false

section

variable {document : Fields Toml} {heading key : Text} {v w : Toml}

theorem gives_iff (hdoc : Toml.WellFormedEntries document) :
    Gives document heading key v ↔ lookup? document heading key = some v := by
  unfold lookup?
  constructor
  · rintro ⟨origin, entries, hsection, hentry⟩
    rw [hdoc.mem_iff_get?] at hsection
    have hentries : Toml.WellFormedEntries entries := Toml.wellFormed_table_iff.1 (hdoc.get? hsection)
    rw [hsection]
    exact hentries.mem_iff_get?.1 hentry
  · intro h
    split at h
    · rename_i origin entries hsection
      have hentries : Toml.WellFormedEntries entries := Toml.wellFormed_table_iff.1 (hdoc.get? hsection)
      exact ⟨origin, entries, hdoc.mem_iff_get?.2 hsection, hentries.mem_iff_get?.2 h⟩
    · cases h

theorem Gives.unique (hdoc : Toml.WellFormedEntries document) (hv : Gives document heading key v)
    (hw : Gives document heading key w) : v = w := by
  rw [gives_iff hdoc] at hv hw
  exact Option.some.inj (hv.symm.trans hw)

theorem Gives.wellFormed (hdoc : Toml.WellFormedEntries document) (h : Gives document heading key v) :
    v.WellFormed := by
  obtain ⟨origin, entries, hsection, hentry⟩ := h
  have hentries : Toml.WellFormedEntries entries :=
    Toml.wellFormed_table_iff.1 (hdoc.values heading _ hsection)
  exact hentries.values key v hentry

theorem heads_iff (hdoc : Toml.WellFormedEntries document) :
    Heads document heading ↔ headsTable document heading = true := by
  unfold Heads headsTable
  simp only [hdoc.mem_iff_get?]
  split
  · rename_i hget
    simp [hget]
  · rename_i origin entries hget
    simp [hget, Toml.IsTable]
  · rename_i hnone htable
    cases hget : Fields.get? heading document with
    | none => exact absurd hget hnone
    | some v =>
      simp only [Option.some.injEq, forall_eq', Bool.false_eq_true, iff_false]
      rintro ⟨origin, entries, rfl⟩
      exact htable origin entries hget

/-- Whether the headings of settings head tables can be computed. -/
theorem sectioned_iff (hdoc : Toml.WellFormedEntries document) :
    Sectioned document ↔ [("scan" : Text), "listing", "emit"].all (headsTable document) = true := by
  simp only [List.all_cons, List.all_nil, Bool.and_true, Bool.and_eq_true, ← heads_iff hdoc]
  constructor
  · rintro ⟨hscan, hlisting, hemit⟩
    exact ⟨hscan, hlisting, hemit⟩
  · rintro ⟨hscan, hlisting, hemit⟩
    exact ⟨hscan, hlisting, hemit⟩

theorem section?_eq (hdoc : Toml.WellFormedEntries document)
    (htable : Heads document heading) (keys : List Text) :
    Settings.section? heading keys document = some (keys.map (lookup? document heading)) := by
  unfold section? lookup?
  cases hget : Fields.get? heading document with
  | none => rfl
  | some v =>
    obtain ⟨origin, entries, rfl⟩ := htable v (hdoc.mem_iff_get?.2 hget)
    rfl

end

/-! ## One setting -/

/-- A reader that takes what is written for a value, and nothing else that can stand in a document. -/
def Matches {α : Type} (written : α → Toml) (read : Toml → Option α) : Prop :=
  ∀ v : Toml, v.WellFormed → ∀ a, read v = some a ↔ v = written a

/-- The setting in a document, by a reader of its values. -/
def Setting.read? {α : Type} (f : Setting α) (read : Toml → Option α) (document : Fields Toml) : Option α :=
  readOr f.default read (lookup? document f.heading f.key)

section

variable {α : Type} {f : Setting α} {read : Toml → Option α} {document : Fields Toml} {a : α}

theorem Setting.read?_eq_some_iff (f : Setting α) (hdoc : Toml.WellFormedEntries document)
    (hread : Matches f.written read) : f.read? read document = some a ↔ f.Takes document a := by
  unfold Setting.read? Setting.Takes Setting.Absent
  simp only [gives_iff hdoc]
  cases hlookup : lookup? document f.heading f.key with
  | none => simp [readOr, eq_comm]
  | some v =>
    have hv : v.WellFormed := ((gives_iff hdoc).2 hlookup).wellFormed hdoc
    simp [readOr, hread v hv a]

/-- A setting can take a value just when what is given is of its type. -/
theorem exists_takes_iff (hdoc : Toml.WellFormedEntries document) :
    (∃ a, f.Takes document a) ↔ f.Typed document := by
  constructor
  · rintro ⟨a, hgiven | ⟨habsent, -⟩⟩ v hv
    · exact ⟨a, hv.unique hdoc hgiven⟩
    · exact absurd hv (habsent v)
  · intro htyped
    by_cases hgiven : ∃ v, Gives document f.heading f.key v
    · obtain ⟨v, hv⟩ := hgiven
      obtain ⟨a, rfl⟩ := htyped v hv
      exact ⟨a, .inl hv⟩
    · exact ⟨f.default, .inr ⟨not_exists.1 hgiven, rfl⟩⟩

theorem takes_congr {document' : Fields Toml} (hsame : f.Same document document') :
    f.Takes document a ↔ f.Takes document' a := by
  unfold Setting.Takes Setting.Absent
  simp only [hsame _]

end

theorem matches_readBool : Matches .bool readBool := by
  intro v _ b
  cases v <;> simp [readBool]

theorem matches_readNat : Matches (fun n : Nat => .integer n) readNat := by
  intro v _ n
  cases v with
  | integer m =>
    simp only [readNat, Toml.integer.injEq]
    split
    · rw [Option.some.injEq]
      omega
    · simp only [reduceCtorEq, false_iff]
      omega
  | _ => simp [readNat]

theorem readText_eq_some_iff {v : Toml} {s : Text} : readText v = some s ↔ v = .string s := by
  cases v <;> simp [readText]

/-- An array of tables is never empty, so that it cannot be taken for an array without texts. -/
theorem matches_readTexts : Matches (fun names : List Text => .array (names.map .string)) readTexts := by
  intro v hv names
  have hitems : ∀ {items : List Toml}, items.mapM readText = some names ↔ items = names.map .string :=
    mapM_eq_some_iff_map fun _ _ => readText_eq_some_iff
  cases hv with
  | array => simp [readTexts, hitems]
  | tables hsome htables =>
    -- all items would have to be texts, and there is a table among them
    simp only [readTexts, hitems, reduceCtorEq, iff_false]
    rintro rfl
    cases names with
    | nil => exact hsome rfl
    | cons s names =>
      obtain ⟨origin, entries, h⟩ := htables (.string s) (by simp)
      cases h
  | _ => simp [readTexts]

/-! ## All settings -/

section

variable {document : Fields Toml} {settings : Settings}

theorem ofDocument?_eq (hdoc : Toml.WellFormedEntries document) (hsections : Sectioned document) :
    ofDocument? document =
      (Setting.topLevelOnly.read? readBool document).bind fun topLevelOnly =>
      (Setting.perPage.read? readNat document).bind fun perPage =>
      (Setting.excludeDirs.read? readTexts document).bind fun excludeDirs =>
      (Setting.embedRequired.read? readBool document).bind fun embedRequired =>
      some ⟨⟨topLevelOnly⟩, ⟨perPage, excludeDirs⟩, ⟨embedRequired⟩⟩ := by
  unfold ofDocument?
  -- every section is a table, so its values are look-ups and none is missing from the list of them
  rw [section?_eq hdoc hsections.scan, section?_eq hdoc hsections.listing, section?_eq hdoc hsections.emit]
  rfl

/-- The settings in a document lie over their defaults. -/
theorem ofDocument?_eq_some_iff (hdoc : Toml.WellFormedEntries document) (hsections : Sectioned document) :
    ofDocument? document = some settings ↔ Overlays document settings := by
  rw [ofDocument?_eq hdoc hsections]
  simp only [Option.bind_eq_some_iff, Option.some.injEq,
    Setting.topLevelOnly.read?_eq_some_iff hdoc matches_readBool,
    Setting.perPage.read?_eq_some_iff hdoc matches_readNat,
    Setting.excludeDirs.read?_eq_some_iff hdoc matches_readTexts,
    Setting.embedRequired.read?_eq_some_iff hdoc matches_readBool]
  constructor
  · rintro ⟨topLevelOnly, htop, perPage, hper, excludeDirs, hdirs, embedRequired, hembed, rfl⟩
    exact ⟨htop, hper, hdirs, hembed⟩
  · rintro ⟨htop, hper, hdirs, hembed⟩
    exact ⟨_, htop, _, hper, _, hdirs, _, hembed, rfl⟩

/-- Settings can lie over the defaults just when all that a document gives them is of their types. -/
theorem exists_overlays_iff (hdoc : Toml.WellFormedEntries document) :
    (∃ settings, Overlays document settings) ↔ Typed document := by
  constructor
  · rintro ⟨settings, htop, hper, hdirs, hembed⟩
    exact ⟨(exists_takes_iff hdoc).1 ⟨_, htop⟩, (exists_takes_iff hdoc).1 ⟨_, hper⟩,
      (exists_takes_iff hdoc).1 ⟨_, hdirs⟩, (exists_takes_iff hdoc).1 ⟨_, hembed⟩⟩
  · rintro ⟨htop, hper, hdirs, hembed⟩
    obtain ⟨topLevelOnly, htop⟩ := (exists_takes_iff hdoc).2 htop
    obtain ⟨perPage, hper⟩ := (exists_takes_iff hdoc).2 hper
    obtain ⟨excludeDirs, hdirs⟩ := (exists_takes_iff hdoc).2 hdirs
    obtain ⟨embedRequired, hembed⟩ := (exists_takes_iff hdoc).2 hembed
    exact ⟨⟨⟨topLevelOnly⟩, ⟨perPage, excludeDirs⟩, ⟨embedRequired⟩⟩, htop, hper, hdirs, hembed⟩

/-- Whether all that is given is of its type can be computed. -/
theorem typed_iff (hdoc : Toml.WellFormedEntries document) (hsections : Sectioned document) :
    Typed document ↔ (ofDocument? document).isSome = true := by
  rw [← exists_overlays_iff hdoc, Option.isSome_iff_exists]
  exact exists_congr fun settings => (ofDocument?_eq_some_iff hdoc hsections).symm

theorem overlays_congr {document' : Fields Toml} (h : Alike document document') :
    Overlays document settings ↔ Overlays document' settings := by
  constructor
  · rintro ⟨htop, hper, hdirs, hembed⟩
    exact ⟨(takes_congr h.topLevelOnly).1 htop, (takes_congr h.perPage).1 hper,
      (takes_congr h.excludeDirs).1 hdirs, (takes_congr h.embedRequired).1 hembed⟩
  · rintro ⟨htop, hper, hdirs, hembed⟩
    exact ⟨(takes_congr h.topLevelOnly).2 htop, (takes_congr h.perPage).2 hper,
      (takes_congr h.excludeDirs).2 hdirs, (takes_congr h.embedRequired).2 hembed⟩

end

end ToolCatalog.Settings
