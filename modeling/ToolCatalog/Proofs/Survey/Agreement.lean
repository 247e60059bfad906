import ToolCatalog.CommandLine.Run
import ToolCatalog.Proofs.Files.Walks
import ToolCatalog.Proofs.Text.Utf8
import ToolCatalog.Proofs.Tool.Assembly

/-!
# A survey is a walk, a scan of each source and an assembly

A survey passes over what it cannot read, and gives no tools where there is no function. In a valid tree
neither hides anything (`run_agrees`): each walked file that is a source is scanned, and the tools are
those of the functions that were found, the same as if each file were assembled on its own. After the
walk nothing fails.
-/

namespace ToolCatalog

open Text

/-! ## Languages -/

theorem Language.ofExtension?_eq_some_iff {ext : Text} {language : Language} :
    Language.ofExtension? ext = some language ↔ lower ext ∈ language.extensions := by
  have hown : ∀ e ∈ language.extensions,
      Language.all.find? (fun l => l.extensions.contains e) = some language := by
    cases language <;> decide
  unfold Language.ofExtension?
  constructor
  · intro h
    simpa using List.find?_some h
  · exact hown _

/-- The language of a path by its extension. -/
theorem CommandLine.inferLanguage_eq_ok_iff {path : Text} {language : Language} :
    CommandLine.inferLanguage path = .ok language ↔
      (Path.extension? path).bind Language.ofExtension? = some language := by
  have hempty : Language.ofExtension? [] = none := by decide
  unfold CommandLine.inferLanguage
  cases Path.extension? path with
  | none => simp [hempty]
  | some ext =>
    simp only [Option.getD_some, Option.bind_some]
    cases Language.ofExtension? ext <;> simp

namespace Survey

/-! ## What a survey should find -/

/-- A source below a root: the path ends in an extension of a language, in any case, and the file that it
leads to from where the root leads is the UTF-8 form of a text. -/
structure IsSource (fs : FileSystem) (root path : Text) (language : Language) (text : Text) : Prop where
  extension : ∃ ext, Path.extension? path = some ext ∧ lower ext ∈ language.extensions
  content : ∃ start, fs.locate .reach root = .ok start ∧
    fs.root.at? (start ++ Path.parts path) = some (.file (Utf8.encode text))

/-- The declarations of the sources among some paths, in the order of the paths. -/
inductive Collects (fs : FileSystem) (root : Text) (options : ScanOptions) :
    List Text → List FileDeclarations → Prop where
  | nil : Collects fs root options [] []
  | source {path : Text} {language : Language} {text : Text} {paths : List Text}
      {files : List FileDeclarations} :
    IsSource fs root path language text → Collects fs root options paths files →
    Collects fs root options (path :: paths)
      (⟨path, language, Declaration.extract language options text⟩ :: files)
  | other {path : Text} {paths : List Text} {files : List FileDeclarations} :
    (∀ language text, ¬ IsSource fs root path language text) →
    Collects fs root options paths files → Collects fs root options (path :: paths) files

/-- The functions of some files, in order. -/
def functions (files : List FileDeclarations) : List Declaration :=
  files.flatMap fun f => f.declarations.filter Declaration.isFunction

/-- The tools of some files, where each file with a function is assembled on its own. -/
def AssembledEach (options : AssemblyOptions) (files : List FileDeclarations) (tools : List Tool) :
    Prop :=
  ∃ parts, List.Forall₂
      (fun f part => Tool.assemble options (Descriptor.ofDeclarations f.declarations) = .ok part)
      (files.filter fun f => f.declarations.any Declaration.isFunction) parts ∧
    tools = parts.flatten

/-- A survey of the walked paths. -/
structure Agrees (fs : FileSystem) (root : Text) (options : SurveyOptions) (paths : List Text)
    (s : Survey) : Prop where
  files : Collects fs root options.scan paths s.files
  languages : ∀ f ∈ s.files, CommandLine.inferLanguage f.path = .ok f.language
  tools : List.Forall₂ (Tool.Wraps options.emit) (functions s.files) s.tools
  assembled : AssembledEach options.emit s.files s.tools

/-! ## Files -/

section Files

variable {fs : FileSystem} {root path : Text} {options : ScanOptions}

/-- In a valid tree a walked path is a source exactly if it has a language and is read. -/
theorem isSource_iff (hvalid : fs.root.Valid []) {excluded paths : List Text}
    (hwalk : fs.walk root none excluded = .ok paths) (hpath : path ∈ paths) {language : Language}
    {text : Text} :
    IsSource fs root path language text ↔
      (Path.extension? path).bind Language.ofExtension? = some language ∧
        fs.readContained root path = .ok text := by
  have hext : (∃ ext, Path.extension? path = some ext ∧ lower ext ∈ language.extensions) ↔
      (Path.extension? path).bind Language.ofExtension? = some language := by
    simp only [Option.bind_eq_some_iff, Language.ofExtension?_eq_some_iff]
  obtain ⟨start, names, bytes, hreach, hspell, rfl, hfile⟩ :=
    FileSystem.exists_of_mem_walk hvalid hwalk hpath
  by_cases hne : names = []
  · -- a root that is a file: its path has no extension
    subst hne
    constructor
    · rintro ⟨⟨ext, hnone, -⟩, -⟩
      cases hnone
    · rintro ⟨hnone, -⟩
      cases hnone
  · -- below a directory: the names on the way are what the path splits into
    have hparts : Path.parts (Path.relative names) = names := by
      refine Path.parts_relative hne ?_
      intro name hname
      exact ((hvalid.at? hfile).2 name (List.mem_append_right start hname)).2.1
    have hread := FileSystem.readContained_below hvalid hspell hfile
    constructor
    · rintro ⟨hlanguage, start', hstart', hcontent⟩
      rw [hreach] at hstart'
      cases hstart'
      rw [hparts, hfile] at hcontent
      cases hcontent
      exact ⟨hext.1 hlanguage, hread.trans (FileSystem.decodeText_eq_ok_iff.2 rfl)⟩
    · rintro ⟨hlanguage, htext⟩
      rw [hread, FileSystem.decodeText_eq_ok_iff] at htext
      refine ⟨hext.2 hlanguage, start, hreach, ?_⟩
      rw [hparts, hfile, htext]

/-- What a survey takes from a path. -/
theorem file?_eq_some_iff {f : FileDeclarations} :
    file? fs root options path = some f ↔ ∃ language text,
      ((Path.extension? path).bind Language.ofExtension? = some language ∧
        fs.readContained root path = .ok text) ∧
      f = ⟨path, language, Declaration.extract language options text⟩ := by
  unfold file?
  cases (Path.extension? path).bind Language.ofExtension? with
  | none => simp
  | some language =>
    cases fs.readContained root path with
    | error e => simp
    | ok text => simp [eq_comm]

theorem collects_filterMap : ∀ {paths : List Text},
    (∀ path ∈ paths, ∀ f, file? fs root options path = some f ↔ ∃ language text,
      IsSource fs root path language text ∧
        f = ⟨path, language, Declaration.extract language options text⟩) →
    Collects fs root options paths (paths.filterMap (file? fs root options))
  | [], _ => .nil
  | path :: paths, h => by
    have ih := collects_filterMap fun p hp => h p (List.mem_cons_of_mem path hp)
    have hpath := h path (by simp)
    cases hfile : file? fs root options path with
    | none =>
      rw [List.filterMap_cons_none hfile]
      refine .other ?_ ih
      intro language text hsource
      have hsome := (hpath _).2 ⟨language, text, hsource, rfl⟩
      rw [hfile] at hsome
      cases hsome
    | some f =>
      obtain ⟨language, text, hsource, rfl⟩ := (hpath f).1 hfile
      rw [List.filterMap_cons_some hfile]
      exact .source hsource ih

end Files

/-! ## Tools -/

/-- The tools of the functions of some files, in order. -/
def functionTools (options : AssemblyOptions) (files : List FileDeclarations) : List Tool :=
  files.flatMap fun f => (Descriptor.ofDeclarations f.declarations).map (Tool.ofDescriptor options)

section Tools

variable (options : AssemblyOptions) {files : List FileDeclarations}
  (h : ∀ f ∈ files, ∀ d ∈ f.declarations, d.Regular)
include h

theorem toolsOf_eq_ok : toolsOf options files = .ok (functionTools options files) := by
  have hflat : (files.flatMap fun f => Descriptor.ofDeclarations f.declarations) =
      Descriptor.ofDeclarations (files.flatMap (·.declarations)) := List.filterMap_flatMap.symm
  have hregular : ∀ d ∈ files.flatMap (·.declarations), d.Regular := by
    intro d hd
    obtain ⟨f, hf, hd⟩ := List.mem_flatMap.1 hd
    exact h f hf d hd
  unfold toolsOf functionTools
  rw [← List.map_flatMap, hflat]
  simp only
  split
  · rename_i hempty
    rw [List.isEmpty_iff.1 hempty]
    rfl
  · rename_i hne
    exact Tool.assemble_regular options hregular (by simpa using hne)

theorem forall₂_functions :
    List.Forall₂ (Tool.Wraps options) (functions files) (functionTools options files) := by
  induction files with
  | nil => exact .nil
  | cons f files ih =>
    have hf := Tool.forall₂_wraps options (h f (by simp))
    have hfiles := ih fun g hg => h g (List.mem_cons_of_mem f hg)
    exact List.rel_append hf hfiles

theorem assembledEach : AssembledEach options files (functionTools options files) := by
  induction files with
  | nil => exact ⟨[], .nil, rfl⟩
  | cons f files ih =>
    obtain ⟨parts, hparts, hflatten⟩ := ih fun g hg => h g (List.mem_cons_of_mem f hg)
    have hf := h f (by simp)
    have hcons : functionTools options (f :: files) =
        (Descriptor.ofDeclarations f.declarations).map (Tool.ofDescriptor options) ++ parts.flatten := by
      rw [← hflatten]
      exact List.flatMap_cons
    unfold AssembledEach
    rw [hcons]
    cases hany : f.declarations.any Declaration.isFunction with
    | false =>
      rw [List.filter_cons_of_neg (by simp [hany]), (Descriptor.ofDeclarations_eq_nil_iff hf).2 hany]
      exact ⟨parts, hparts, rfl⟩
    | true =>
      have hne : Descriptor.ofDeclarations f.declarations ≠ [] := by
        intro hnil
        rw [Descriptor.ofDeclarations_eq_nil_iff hf, hany] at hnil
        cases hnil
      rw [List.filter_cons_of_pos (by simp [hany])]
      exact ⟨_ :: parts, .cons (Tool.assemble_regular options hf hne) hparts, rfl⟩

end Tools

/-! ## The whole survey -/

/-- **A survey fails exactly as its walk does, and otherwise agrees with the walk.** -/
theorem run_agrees (fs : FileSystem) (root : Text) (options : SurveyOptions)
    (hvalid : fs.root.Valid []) :
    match fs.walk root none options.excludeDirs with
    | .error e => run fs root options = .error e
    | .ok paths => ∃ s, run fs root options = .ok s ∧ Agrees fs root options paths s := by
  unfold run
  cases hwalk : fs.walk root none options.excludeDirs with
  | error e => rfl
  | ok paths =>
    have hfile : ∀ path ∈ paths, ∀ f, file? fs root options.scan path = some f ↔ ∃ language text,
        IsSource fs root path language text ∧
          f = ⟨path, language, Declaration.extract language options.scan text⟩ := by
      intro path hpath f
      simp only [file?_eq_some_iff, isSource_iff hvalid hwalk hpath]
    have hregular : ∀ f ∈ paths.filterMap (file? fs root options.scan), ∀ d ∈ f.declarations,
        d.Regular := by
      intro f hf d hd
      obtain ⟨path, -, hf⟩ := List.mem_filterMap.1 hf
      obtain ⟨language, text, -, rfl⟩ := file?_eq_some_iff.1 hf
      exact Declaration.regular_of_mem_extract hd
    let files := paths.filterMap (file? fs root options.scan)
    refine ⟨⟨files, functionTools options.emit files⟩, ?_, ?_⟩
    · simp only [bind, Except.bind, toolsOf_eq_ok options.emit hregular]
      rfl
    · refine ⟨collects_filterMap hfile, ?_, forall₂_functions options.emit hregular,
        assembledEach options.emit hregular⟩
      intro f hf
      obtain ⟨path, -, hf⟩ := List.mem_filterMap.1 hf
      obtain ⟨language, text, ⟨hlanguage, -⟩, rfl⟩ := file?_eq_some_iff.1 hf
      exact CommandLine.inferLanguage_eq_ok_iff.2 hlanguage

/-- Sources in a directory and below it, one in capitals, and one that is no text. -/
def mixedSources : Node :=
  .directory
    [("B.PY".toList, .file (Utf8.encode "def f(a, b=1):\n")), ("c.js".toList, .file [0xFF]),
      ("note".toList, .file [104, 105]),
      ("s".toList, .directory [("k.ts".toList, .file (Utf8.encode "class K {}\nfunction g(x) {}"))])]

/-- The sources, and a link to them. -/
def mixedTree : FileSystem where
  root := .directory [("r".toList, mixedSources), ("way".toList, .link "r".toList)]

theorem filesBelow_mixedSources :
    mixedSources.filesBelow defaultExcludeDirs =
      [["B.PY".toList], ["c.js".toList], ["note".toList], ["s".toList, "k.ts".toList]] := by
  unfold mixedSources Node.filesBelow
  rw [List.mergeSort_of_pairwise (by decide +kernel)]
  simp only [Node.entryFiles, Node.filesBelow, List.mergeSort_singleton]
  decide +kernel

theorem walk_mixedTree :
    mixedTree.walk "/way" none defaultExcludeDirs =
      .ok ["B.PY".toList, "c.js".toList, "note".toList, "s/k.ts".toList] := by
  have hinspect : mixedTree.locate .inspect "/way" = .ok ["way".toList] := by decide +kernel
  have hreach : mixedTree.locate .reach "/way" = .ok ["r".toList] := by decide +kernel
  have hway : mixedTree.root.at? ["way".toList] = some (.link "r".toList) := rfl
  have hr : mixedTree.root.at? ["r".toList] = some mixedSources := rfl
  have hbelow : FileSystem.walkNames.below "/way" none defaultExcludeDirs mixedSources =
      .ok (mixedSources.filesBelow defaultExcludeDirs) := by
    unfold FileSystem.walkNames.below
    rw [if_neg (by decide +kernel), filesBelow_mixedSources]
    rfl
  unfold FileSystem.walk FileSystem.walkNames
  simp only [hinspect, hreach, hway, hr, hbelow, filesBelow_mixedSources, bind, Except.bind]
  decide +kernel

/-- The root is entered through a link, and the file that is no text is passed over. -/
theorem run_mixedTree :
    mixedTree.root.Valid [] ∧
    mixedTree.walk "/way" none defaultExcludeDirs =
      .ok ["B.PY".toList, "c.js".toList, "note".toList, "s/k.ts".toList] ∧
    ∃ s, run mixedTree "/way" {} = .ok s ∧
      Agrees mixedTree "/way" {} ["B.PY".toList, "c.js".toList, "note".toList, "s/k.ts".toList] s ∧
      s.tools.map (·.name) = ["f".toList, "g".toList] := by
  have hvalid : mixedTree.root.Valid [] := by decide +kernel
  have hnames : (run mixedTree "/way" {}).map (fun s => s.tools.map (·.name)) =
      .ok ["f".toList, "g".toList] := by
    unfold run
    simp only [walk_mixedTree]
    decide +kernel
  have hrun := run_agrees mixedTree "/way" {} hvalid
  simp only [walk_mixedTree] at hrun
  obtain ⟨s, hs, hagrees⟩ := hrun
  rw [hs] at hnames
  exact ⟨hvalid, walk_mixedTree, s, hs, hagrees, Except.ok.inj hnames⟩

end Survey

end ToolCatalog
