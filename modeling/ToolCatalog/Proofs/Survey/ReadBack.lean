import ToolCatalog.Proofs.Files.Listing
import ToolCatalog.Proofs.Survey.Agreement

/-!
# Listed files are read back

A listing goes to its root as it is given, and names files from there. A reader resolves the root first, and
then the root with the path behind it. In a valid tree the two meet (`readsBack_of_mem_walk`): a listed path
is resolved within the root to the file that was listed, and reading it fails only where the bytes of the file
are no text. So a survey passes over a source for that reason alone (`skipped_iff`).
-/

namespace ToolCatalog

open Text

/-- The parts that tell where a path of names leads are these names. -/
theorem Path.significantParts_relative {names : List Text}
    (h : ∀ name ∈ names, Path.isName name = true ∧ '/' ∉ name) :
    Path.significantParts (Path.relative names) = names := by
  cases names with
  | nil => rfl
  | cons name names =>
    have hkept : (names.filter fun part => part != [] && part != ".") = names := by
      refine List.filter_eq_self.2 fun part hpart => ?_
      obtain ⟨hne, hdot, -⟩ := Path.isName_iff.1 (h part (List.mem_cons_of_mem name hpart)).1
      rw [Bool.and_eq_true, bne_iff_ne, bne_iff_ne]
      exact ⟨hne, hdot⟩
    have hname : name ≠ [] := (Path.isName_iff.1 (h name (by simp)).1).1
    unfold Path.significantParts
    rw [Path.parts_relative (by simp) fun n hn => (h n hn).2]
    simp only [beq_iff_eq, hname, if_false, hkept]

namespace FileSystem

variable {fs : FileSystem} {root path : Text}

/-- A path leads from a root to a file with some bytes. Where the root leads is the same for a walk, which
takes the root as it is given, and for a reader, which resolves it. -/
structure LeadsTo (fs : FileSystem) (root path : Text) (base : List Text) (bytes : List UInt8) : Prop where
  walked : fs.locate .reach root = .ok base
  canonical : fs.canonicalize root = .ok base
  resolved : fs.resolveContained root path = .ok (base ++ Path.significantParts path)
  file : fs.root.at? (base ++ Path.significantParts path) = some (.file bytes)

/-- A path leads from a root to a file, and reading it gives the text of that file. Where the bytes of the
file are no text it tells what is wrong with them, and nothing else goes wrong. -/
def ReadsBack (fs : FileSystem) (root path : Text) : Prop :=
  ∃ base bytes, fs.LeadsTo root path base bytes ∧
    ((∃ text, bytes = Utf8.encode text ∧ fs.readContained root path = .ok text) ∨
      (∀ text, bytes ≠ Utf8.encode text) ∧ ∃ fault, Utf8.decode bytes = .error fault ∧
        fs.readContained root path = .error (.undecodable fault))

theorem LeadsTo.bytes_unique {base base' : List Text} {bytes bytes' : List UInt8}
    (h : fs.LeadsTo root path base bytes) (h' : fs.LeadsTo root path base' bytes') : bytes = bytes' := by
  have hbase : base = base' := Except.ok.inj (h.canonical.symm.trans h'.canonical)
  have hfile := h.file
  rw [hbase, h'.file] at hfile
  cases hfile
  rfl

/-- What is read of a file: its text, or what is wrong with its bytes. -/
theorem decodeText_cases (bytes : List UInt8) :
    (∃ text, bytes = Utf8.encode text ∧ decodeText bytes = .ok text) ∨
      (∀ text, bytes ≠ Utf8.encode text) ∧ ∃ fault, Utf8.decode bytes = .error fault ∧
        decodeText bytes = .error (.undecodable fault) := by
  unfold decodeText
  cases hdecode : Utf8.decode bytes with
  | ok text => exact .inl ⟨text, Utf8.decode_eq_ok_iff.1 hdecode, rfl⟩
  | error fault =>
    refine .inr ⟨?_, fault, rfl, rfl⟩
    intro text htext
    rw [Utf8.decode_eq_ok_iff.2 htext] at hdecode
    cases hdecode

/-- Every path of every walk is read back. -/
theorem readsBack_of_mem_walk (hvalid : fs.root.Valid []) {filter : Option Text}
    {excluded paths : List Text} (h : fs.walk root filter excluded = .ok paths) (hpath : path ∈ paths) :
    fs.ReadsBack root path := by
  obtain ⟨base, names, bytes, hreach, hspell, rfl, hfile⟩ := exists_of_mem_walk hvalid h hpath
  have hparts : Path.significantParts (Path.relative names) = names := by
    refine Path.significantParts_relative fun name hname => ?_
    have hentry := (hvalid.at? hfile).2 name (List.mem_append_right base hname)
    exact ⟨hentry.1, hentry.2.1⟩
  refine ⟨base, bytes, ⟨hreach, hspell, ?_, ?_⟩, ?_⟩
  · rw [hparts]
    exact resolveContained_below hvalid hspell hfile
  · rwa [hparts]
  · rw [readContained_below hvalid hspell hfile]
    exact decodeText_cases bytes

/-- A page of a listing holds some of the walked paths. -/
theorem walk_of_listFiles {q : FileQuery} {files : List Text} (h : fs.listFiles root q = .ok files) :
    ∃ paths, fs.walk root q.extension q.excludeDirs = .ok paths ∧ files.Sublist paths := by
  unfold listFiles at h
  cases hwalk : fs.walk root q.extension q.excludeDirs with
  | error e =>
    rw [hwalk] at h
    cases h
  | ok paths =>
    rw [hwalk] at h
    cases h
    exact ⟨paths, rfl, (List.take_sublist _ _).trans (List.drop_sublist _ _)⟩

end FileSystem

namespace Survey

variable {fs : FileSystem} {root : Text}

/-- The files of a survey are those that it takes from the walked paths. -/
theorem files_of_run {options : SurveyOptions} {s : Survey} (h : run fs root options = .ok s) :
    ∃ paths, fs.walk root none options.excludeDirs = .ok paths ∧
      s.files = paths.filterMap (file? fs root options.scan) := by
  unfold run at h
  cases hwalk : fs.walk root none options.excludeDirs with
  | error e =>
    rw [hwalk] at h
    cases h
  | ok paths =>
    simp only [hwalk, bind, Except.bind] at h
    split at h
    · cases h
    · cases h
      exact ⟨paths, rfl, rfl⟩

/-- A walked path with a language is passed over exactly if the bytes of its file are no text. -/
theorem skipped_iff (hvalid : fs.root.Valid []) {excluded paths : List Text}
    (hwalk : fs.walk root none excluded = .ok paths) {path : Text} (hpath : path ∈ paths)
    {language : Language} (hlanguage : (Path.extension? path).bind Language.ofExtension? = some language)
    (options : ScanOptions) :
    (∀ f ∈ paths.filterMap (file? fs root options), f.path ≠ path) ↔
      ∃ base bytes, fs.LeadsTo root path base bytes ∧ ∀ text, bytes ≠ Utf8.encode text := by
  obtain ⟨base, bytes, hleads, hread⟩ := FileSystem.readsBack_of_mem_walk hvalid hwalk hpath
  constructor
  · intro hskipped
    rcases hread with ⟨text, -, hread⟩ | ⟨hnot, -⟩
    · have hfile : file? fs root options path = some _ :=
        file?_eq_some_iff.2 ⟨language, text, ⟨hlanguage, hread⟩, rfl⟩
      exact absurd rfl (hskipped _ (List.mem_filterMap.2 ⟨path, hpath, hfile⟩))
    · exact ⟨base, bytes, hleads, hnot⟩
  · rintro ⟨base', bytes', hleads', hnot⟩ f hf rfl
    obtain ⟨path, -, hfile⟩ := List.mem_filterMap.1 hf
    obtain ⟨_, text, ⟨-, htext⟩, rfl⟩ := file?_eq_some_iff.1 hfile
    rcases hread with ⟨text', hbytes, -⟩ | ⟨-, fault, -, herror⟩
    · exact hnot text' ((hleads'.bytes_unique hleads).trans hbytes)
    · rw [htext] at herror
      cases herror

/-- **Every listed file is read back,** and a survey passes over a source only if its bytes are no text. -/
theorem listFiles_readsBack (fs : FileSystem) (hvalid : fs.root.Valid []) (root : Text) :
    (∀ (q : FileQuery) (files : List Text), fs.listFiles root q = .ok files →
      ∀ path ∈ files, fs.ReadsBack root path) ∧
    ∀ (options : SurveyOptions) (s : Survey), run fs root options = .ok s →
      ∃ paths, fs.walk root none options.excludeDirs = .ok paths ∧
        ∀ path ∈ paths, fs.ReadsBack root path ∧
          ∀ language, (Path.extension? path).bind Language.ofExtension? = some language →
            ((∀ f ∈ s.files, f.path ≠ path) ↔
              ∃ base bytes, fs.LeadsTo root path base bytes ∧ ∀ text, bytes ≠ Utf8.encode text) := by
  constructor
  · intro q files hfiles path hpath
    obtain ⟨paths, hwalk, hsublist⟩ := FileSystem.walk_of_listFiles hfiles
    exact FileSystem.readsBack_of_mem_walk hvalid hwalk (hsublist.subset hpath)
  · intro options s hrun
    obtain ⟨paths, hwalk, hs⟩ := files_of_run hrun
    refine ⟨paths, hwalk, fun path hpath => ?_⟩
    refine ⟨FileSystem.readsBack_of_mem_walk hvalid hwalk hpath, fun language hlanguage => ?_⟩
    rw [hs]
    exact skipped_iff hvalid hwalk hpath hlanguage options.scan

/-- The tree of mixed sources, seen from a directory within them. -/
def mixedWithin : FileSystem := { mixedTree with workingDirectory := ["r".toList, "s".toList] }

theorem listFiles_mixedWithin :
    mixedWithin.listFiles "../../way" { extension := some ".js".toList } = .ok ["c.js".toList] := by
  have hroot : mixedWithin.locate .reach "../../way" = .ok ["r".toList] := by decide +kernel
  have hsources : mixedWithin.root.at? ["r".toList] = some mixedSources := rfl
  have hbelow : FileSystem.walkNames.below "../../way" (some ".js".toList) defaultExcludeDirs mixedSources =
      .ok [["c.js".toList]] := by
    unfold FileSystem.walkNames.below
    rw [if_neg (by decide +kernel), filesBelow_mixedSources]
    decide +kernel
  have hnames := (FileSystem.walkNames_eq_below hroot hsources (some ".js".toList) defaultExcludeDirs).trans
    hbelow
  unfold FileSystem.listFiles FileSystem.walk
  rw [hnames]
  rfl

/-- The root is given from within, and leads through a link. A file that is no text is listed and refused when
it is read; a root that is a file lists itself, and is read. -/
theorem readsBack_mixedWithin :
    mixedWithin.root.Valid [] ∧
    mixedWithin.listFiles "../../way" { extension := some ".js".toList } = .ok ["c.js".toList] ∧
    mixedWithin.resolveContained "../../way" "c.js" = .ok ["r".toList, "c.js".toList] ∧
    mixedWithin.ReadsBack "../../way" "c.js" ∧
    mixedWithin.readContained "../../way" "c.js" = .error (.undecodable (.invalid 0 1)) ∧
    mixedWithin.listFiles "../note" {} = .ok [[]] ∧
    mixedWithin.ReadsBack "../note" [] ∧ mixedWithin.readContained "../note" [] = .ok "hi".toList := by
  have hvalid : mixedWithin.root.Valid [] := by decide +kernel
  have hnote : mixedWithin.listFiles "../note" {} = .ok [[]] := by decide +kernel
  have hway := (listFiles_readsBack mixedWithin hvalid "../../way").1 _ _ listFiles_mixedWithin
  have hself := (listFiles_readsBack mixedWithin hvalid "../note").1 _ _ hnote
  exact ⟨hvalid, listFiles_mixedWithin, by decide +kernel, hway _ (by simp), by decide +kernel, hnote,
    hself _ (by simp), by decide +kernel⟩

end Survey

end ToolCatalog
