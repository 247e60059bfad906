import ToolCatalog.Proofs.Files.NameOrder
import ToolCatalog.Proofs.Settings.Overlay

/-!
# Settings that are loaded

A text gives settings, or is at fault, by what its document gives; a value of another type comes before a page
size that is out of range (`parse_of_not_typed`, `parse_of_overlays`). Settings are loaded from such a text or
are the defaults (`loadSettings_eq_ok_iff`). Either way their page size is within bounds, so that a listing takes
it as it is (`parse_overDefaults`).
-/

namespace ToolCatalog

namespace Settings

/-! ## Texts -/

section

variable {s s' : Text} {document document' : Fields Toml} {settings : Settings}

theorem parse_eq (s : Text) :
    parse s = (match (Toml.parse? s).bind ofDocument? with
      | none => .error .notToml
      | some settings =>
        if 1 ≤ settings.listing.perPage ∧ settings.listing.perPage ≤ 100 then .ok settings
        else .error (.pageSize settings.listing.perPage)) := by
  unfold parse
  simp only [Bool.and_eq_true, decide_eq_true_eq]
  rfl

theorem parse_of_overlays (hread : Toml.parse? s = some document) (hsections : Sectioned document)
    (h : Overlays document settings) :
    parse s = if 1 ≤ settings.listing.perPage ∧ settings.listing.perPage ≤ 100 then .ok settings
      else .error (.pageSize settings.listing.perPage) := by
  have hdoc := Toml.parse?_wellFormed s document hread
  rw [parse_eq, hread, Option.bind_some, (ofDocument?_eq_some_iff hdoc hsections).2 h]

/-- A value of another type is a fault of the document, whatever its page size. -/
theorem parse_of_not_typed (hread : Toml.parse? s = some document) (hsections : Sectioned document)
    (h : ¬ Typed document) : parse s = .error .notToml := by
  have hdoc := Toml.parse?_wellFormed s document hread
  have hnone : ofDocument? document = none := by
    rw [typed_iff hdoc hsections, Option.not_isSome_iff_eq_none] at h
    exact h
  rw [parse_eq, hread, Option.bind_some, hnone]

theorem parse_congr (hread : Toml.parse? s = some document) (hsections : Sectioned document)
    (hread' : Toml.parse? s' = some document') (hsections' : Sectioned document')
    (h : Alike document document') : parse s = parse s' := by
  have hdoc := Toml.parse?_wellFormed s document hread
  have hdoc' := Toml.parse?_wellFormed s' document' hread'
  have hsame : ofDocument? document = ofDocument? document' := by
    apply Option.ext
    intro settings
    rw [ofDocument?_eq_some_iff hdoc hsections, ofDocument?_eq_some_iff hdoc' hsections', overlays_congr h]
  rw [parse_eq, parse_eq, hread, hread', Option.bind_some, Option.bind_some, hsame]

/-- A page size that a document gives is that of the settings. -/
theorem Overlays.perPage_eq (hdoc : Toml.WellFormedEntries document) (h : Overlays document settings) {n : Nat}
    (hgiven : Gives document "listing" "per_page" (.integer n)) : settings.listing.perPage = n := by
  rcases h.perPage with hper | ⟨habsent, -⟩
  · have heq : Toml.integer settings.listing.perPage = .integer n := hper.unique hdoc hgiven
    rw [Toml.integer.injEq] at heq
    omega
  · exact absurd hgiven (habsent _)

/-- The default page size is within bounds, so it is a page size that is given that decides. -/
theorem Overlays.inRange_iff (hdoc : Toml.WellFormedEntries document) (h : Overlays document settings) :
    (1 ≤ settings.listing.perPage ∧ settings.listing.perPage ≤ 100) ↔
      Setting.perPage.Absent document ∨
        ∃ n : Nat, Gives document "listing" "per_page" (.integer n) ∧ 1 ≤ n ∧ n ≤ 100 := by
  constructor
  · intro hrange
    rcases h.perPage with hgiven | ⟨habsent, -⟩
    · exact .inr ⟨_, hgiven, hrange⟩
    · exact .inl habsent
  · rintro (habsent | ⟨n, hgiven, hrange⟩)
    · rcases h.perPage with hgiven | ⟨-, hdefault⟩
      · exact absurd hgiven (habsent _)
      · rw [hdefault]
        decide
    · rw [h.perPage_eq hdoc hgiven]
      exact hrange

/-- No page size that is out of range gets through. -/
theorem perPage_of_parse (h : parse s = .ok settings) :
    1 ≤ settings.listing.perPage ∧ settings.listing.perPage ≤ 100 := by
  rw [parse_eq] at h
  split at h
  · cases h
  · split at h
    · rename_i hrange
      cases h
      exact hrange
    · cases h

end

end Settings

/-! ## Files -/

/-- A page size within bounds is the size of a page. -/
theorem pageOf_of_inRange {α : Type} {size : Nat} (h : 1 ≤ size ∧ size ≤ 100) (page : Nat) (l : List α) :
    pageOf page size l = (l.drop (saturatingMul (max page 1 - 1) size)).take size := by
  have hsize : min (max size 1) maxPerPage = size := by
    unfold maxPerPage
    omega
  unfold pageOf
  rw [hsize]

namespace FileSystem

variable {fs : FileSystem} {path : Text}

/-- Settings are loaded just when there is no file, and then they are the defaults, or when the file holds a text
that gives them. -/
theorem loadSettings_eq_ok_iff {settings : Settings} :
    fs.loadSettings path = .ok settings ↔
      fs.pathExists path = false ∧ settings = {} ∨
      fs.pathExists path = true ∧
        ∃ text, fs.read path = .ok (Utf8.encode text) ∧ Settings.parse text = .ok settings := by
  unfold loadSettings
  cases hexists : fs.pathExists path with
  | false => simp [pure, Except.pure, eq_comm]
  | true =>
    cases hread : fs.read path with
    | error fault => simp [liftFault, bind, Except.bind]
    | ok bytes =>
      cases hdecode : Utf8.decode bytes with
      | error fault =>
        have hnot : ∀ text, bytes ≠ Utf8.encode text := by
          rintro text rfl
          rw [Utf8.decode_eq_ok_iff.2 rfl] at hdecode
          cases hdecode
        simp [liftFault, bind, Except.bind, hdecode, hnot, throw, throwThe, MonadExceptOf.throw]
      | ok text =>
        obtain rfl := Utf8.decode_eq_ok_iff.1 hdecode
        simp only [liftFault, bind, Except.bind, hdecode, Bool.not_true, Bool.false_eq_true, if_false,
          reduceCtorEq, false_and, false_or, true_and, Except.ok.injEq]
        constructor
        · intro h
          exact ⟨text, rfl, h⟩
        · rintro ⟨text', heq, h⟩
          rw [encode_injective heq]
          exact h

theorem perPage_of_loadSettings {settings : Settings} (h : fs.loadSettings path = .ok settings) :
    1 ≤ settings.listing.perPage ∧ settings.listing.perPage ≤ 100 := by
  rcases loadSettings_eq_ok_iff.1 h with ⟨-, rfl⟩ | ⟨-, text, -, hparse⟩
  · decide
  · exact Settings.perPage_of_parse hparse

end FileSystem

/-! ## Every document and every file -/

namespace Settings

/-- **Settings lie over their defaults, and only page sizes within bounds get through.** Of a document whose
headings head tables, all settings are read or it is at fault: with every value of its type, the page size
decides, and what is read has each value as it is written and the default for each that is absent; a value of
another type is a fault of the document even if the page size is out of range. The order of keys and all other
content are of no account. So the page size of settings that are loaded is never changed by a listing. -/
theorem parse_overDefaults :
    (∀ (s : Text) (document : Fields Toml), Toml.parse? s = some document → Sectioned document →
      (Typed document →
        ((∃ settings, parse s = .ok settings) ↔
          Setting.perPage.Absent document ∨
            ∃ n : Nat, Gives document "listing" "per_page" (.integer n) ∧ 1 ≤ n ∧ n ≤ 100) ∧
        (∀ settings, parse s = .ok settings → Overlays document settings) ∧
        ∀ n : Nat, Gives document "listing" "per_page" (.integer n) → ¬ (1 ≤ n ∧ n ≤ 100) →
          parse s = .error (.pageSize n) ∧
          Error.message (.pageSize n) =
            "Configuration error: listing.per_page must be between 1 and 100, got " ++ Text.ofNat n) ∧
      (¬ Typed document → parse s = .error .notToml) ∧
      ∀ s' document', Toml.parse? s' = some document' → Sectioned document' → Alike document document' →
        parse s = parse s') ∧
    ∀ (fs : FileSystem) (path : Text) (settings : Settings),
      (fs.loadSettings path = .ok settings ↔
        fs.pathExists path = false ∧ settings = {} ∨
        fs.pathExists path = true ∧
          ∃ text, fs.read path = .ok (Utf8.encode text) ∧ parse text = .ok settings) ∧
      (fs.loadSettings path = .ok settings →
        1 ≤ settings.listing.perPage ∧ settings.listing.perPage ≤ 100 ∧
        ∀ (tree : FileSystem) root extension page excludeDirs,
          tree.listFiles root { extension, page, perPage := settings.listing.perPage, excludeDirs } =
            (tree.walk root extension excludeDirs).map fun files =>
              (files.drop (saturatingMul (max page 1 - 1) settings.listing.perPage)).take
                settings.listing.perPage) := by
  refine ⟨?_, ?_⟩
  · intro s document hread hsections
    have hdoc := Toml.parse?_wellFormed s document hread
    refine ⟨?_, parse_of_not_typed hread hsections, ?_⟩
    · intro htyped
      obtain ⟨settings, hover⟩ := (exists_overlays_iff hdoc).2 htyped
      have hparse := parse_of_overlays hread hsections hover
      refine ⟨?_, ?_, ?_⟩
      · rw [← hover.inRange_iff hdoc, hparse]
        split
        · rename_i hrange
          exact iff_of_true ⟨settings, rfl⟩ hrange
        · rename_i hrange
          refine iff_of_false ?_ hrange
          rintro ⟨settings', hok⟩
          cases hok
      · intro settings' hok
        rw [hparse] at hok
        split at hok
        · cases hok
          exact hover
        · cases hok
      · intro n hgiven hrange
        rw [hover.perPage_eq hdoc hgiven, if_neg hrange] at hparse
        exact ⟨hparse, rfl⟩
    · intro s' document' hread' hsections' halike
      exact parse_congr hread hsections hread' hsections' halike
  · intro fs path settings
    refine ⟨FileSystem.loadSettings_eq_ok_iff, ?_⟩
    intro hload
    have hrange := FileSystem.perPage_of_loadSettings hload
    refine ⟨hrange.1, hrange.2, ?_⟩
    intro tree root extension page excludeDirs
    exact congrArg (Except.map · _) (funext (pageOf_of_inRange hrange page))

/-- Settings in three spellings of tables, among other keys. -/
def mixedText : Text :=
  "listing = { per_page = 25, x = [] }\n[emit.x]\n[scan]\ntop_level_only = true\n"

def mixedDocument : Fields Toml :=
  [("listing", .table .closed [("per_page".toList, .integer 25), ("x".toList, .array [])]),
    ("emit", .table .implied [("x".toList, .table .header [])]),
    ("scan", .table .header [("top_level_only".toList, .bool true)])]

/-- A page size that is out of range. -/
def largeText : Text := "listing.per_page = 500\n"

def largeDocument : Fields Toml := [("listing", .table .dotted [("per_page".toList, .integer 500)])]

/-- The same, and a number in place of a truth value. -/
def faultyText : Text := largeText ++ "emit.embed_required = 1\n"

def faultyDocument : Fields Toml :=
  largeDocument ++ [("emit".toList, .table .dotted [("embed_required".toList, .integer 1)])]

/-- A directory with a settings file. -/
def settingsTree : FileSystem where
  root := .directory [("settings.toml", .file (Utf8.encode mixedText))]

/-- One document of each kind, and pages of the size that a file asks for. -/
theorem parse_overDefaults_mixed :
    (Toml.parse? mixedText = some mixedDocument ∧ Sectioned mixedDocument ∧ Typed mixedDocument ∧
      ∃ settings, parse mixedText = .ok settings ∧ Overlays mixedDocument settings) ∧
    (Toml.parse? largeText = some largeDocument ∧ Sectioned largeDocument ∧ Typed largeDocument ∧
      parse largeText = .error (.pageSize 500)) ∧
    (Toml.parse? faultyText = some faultyDocument ∧ Sectioned faultyDocument ∧ ¬ Typed faultyDocument ∧
      parse faultyText = .error .notToml) ∧
    settingsTree.loadSettings "/settings.toml" = .ok ⟨⟨true⟩, { perPage := 25 }, {}⟩ ∧
    ∀ page, settingsTree.listFiles "/" { page, perPage := 25 } =
      (settingsTree.walk "/" none defaultExcludeDirs).map fun files =>
        (files.drop (saturatingMul (max page 1 - 1) 25)).take 25 := by
  refine ⟨?_, ?_, ?_, ?_⟩
  · have hread : Toml.parse? mixedText = some mixedDocument := by with_unfolding_all rfl
    have hdoc := Toml.parse?_wellFormed _ _ hread
    have hsections : Sectioned mixedDocument := (sectioned_iff hdoc).2 (by decide +kernel)
    have htyped : Typed mixedDocument := (typed_iff hdoc hsections).2 (by decide +kernel)
    have hgiven : Gives mixedDocument "listing" "per_page" (.integer 25) := (gives_iff hdoc).2 rfl
    obtain ⟨haccepted, hover, -⟩ := (parse_overDefaults.1 _ _ hread hsections).1 htyped
    obtain ⟨settings, hparse⟩ := haccepted.2 (.inr ⟨25, hgiven, by decide, by decide⟩)
    exact ⟨hread, hsections, htyped, settings, hparse, hover settings hparse⟩
  · have hread : Toml.parse? largeText = some largeDocument := by with_unfolding_all rfl
    have hdoc := Toml.parse?_wellFormed _ _ hread
    have hsections : Sectioned largeDocument := (sectioned_iff hdoc).2 (by decide +kernel)
    have htyped : Typed largeDocument := (typed_iff hdoc hsections).2 (by decide +kernel)
    have hgiven : Gives largeDocument "listing" "per_page" (.integer 500) := (gives_iff hdoc).2 rfl
    obtain ⟨-, -, hrefused⟩ := (parse_overDefaults.1 _ _ hread hsections).1 htyped
    exact ⟨hread, hsections, htyped, (hrefused 500 hgiven (by decide)).1⟩
  · have hread : Toml.parse? faultyText = some faultyDocument := by with_unfolding_all rfl
    have hdoc := Toml.parse?_wellFormed _ _ hread
    have hsections : Sectioned faultyDocument := (sectioned_iff hdoc).2 (by decide +kernel)
    have htyped : ¬ Typed faultyDocument := by
      rw [typed_iff hdoc hsections]
      decide +kernel
    exact ⟨hread, hsections, htyped, (parse_overDefaults.1 _ _ hread hsections).2.1 htyped⟩
  · have hload : settingsTree.loadSettings "/settings.toml" = .ok ⟨⟨true⟩, { perPage := 25 }, {}⟩ := by
      decide +kernel
    obtain ⟨-, -, hlist⟩ := (parse_overDefaults.2 _ _ _).2 hload
    exact ⟨hload, fun page => hlist settingsTree "/" none page defaultExcludeDirs⟩

end Settings

end ToolCatalog
