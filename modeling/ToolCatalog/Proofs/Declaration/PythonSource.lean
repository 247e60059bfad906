import ToolCatalog.Proofs.Declaration.PythonHeaders
import ToolCatalog.Proofs.Declaration.PythonParameters
import ToolCatalog.Proofs.Doc.Block

/-!
# Python sources written from declarations

A list of declarations can be written as a source: for each a header, its documentation as a block
under it, and a body. What is extracted from the source is the list again
(`extractTagged_written_python`). Nothing leaks from one declaration into another: what stands before a
line makes no difference to it (`atLine_python_drop`), and a documentation string that opens under a
header ends within its block (`docstring_body`).
-/

namespace ToolCatalog

open Text

/-! ## Written declarations -/

/-- What a header has besides its name: the base of a class, or the parameters and the result of a
function. -/
inductive PythonShape where
  | classDef (base : Option Text) (oneLine : ∀ b ∈ base, '\n' ∉ b)
  | function (params : List PythonParameter) (result : Option Text) (oneLine : ∀ r ∈ result, '\n' ∉ r)

/-- A declaration to be written, with its documentation. -/
structure PythonItem where
  name : Text
  shape : PythonShape
  doc : Option Text
  isName : Header.Identifier name ∧ name.head? ≠ some '_'
  isDoc : ∀ d ∈ doc, Doc.Canonical "\"\"\"" d ∧
    ∀ line ∈ splitOn '\n' d, ¬ Declaration.PythonHeader (trim line)

namespace PythonItem

/-- The header line. -/
def header (item : PythonItem) : Text :=
  match item.shape with
  | .classDef none _ => "class " ++ item.name ++ ":"
  | .classDef (some base) _ => "class " ++ item.name ++ "(" ++ base ++ "):"
  | .function params none _ =>
    "def " ++ item.name ++ "(" ++ join ", " (params.map PythonParameter.render) ++ "):"
  | .function params (some result) _ =>
    "def " ++ item.name ++ "(" ++ join ", " (params.map PythonParameter.render) ++ ") -> " ++ result
      ++ ":"

/-- The lines under the header. -/
def body (item : PythonItem) : List Text :=
  (match item.doc with
    | some d => Doc.block "    " "\"\"\"" d
    | none => []) ++ ["    pass".toList]

/-- The lines of a declaration. -/
def lines (item : PythonItem) : List Text := item.header :: item.body

/-- What is to be found again. -/
def declaration (item : PythonItem) : Declaration :=
  match item.shape with
  | .classDef _ _ =>
    { name := item.name, kind := .classDef, signature := item.header,
      description := item.doc.getD [], parameters := none, required := [] }
  | .function params _ _ =>
    let plains := params.filterMap PythonParameter.plain?
    { name := item.name, kind := .function, signature := item.header,
      description := item.doc.getD [],
      parameters := some (ParameterSchema.ofNames (plains.map (·.name))),
      required := (plains.filter (·.defaultValue.isNone)).map (·.name) }

/-- The header as it is recognised. -/
def parsed (item : PythonItem) : Header :=
  match item.shape with
  | .classDef _ _ => .classDef item.name
  | .function params _ _ => .function item.name (join ", " (params.map PythonParameter.render))

end PythonItem

namespace Declaration

open Header

/-! ## Scanning from a place on -/

/-- The declarations on some lines, where no other lines stand before them. -/
def onLines (options : ScanOptions) : List Text → List Declaration
  | [] => []
  | line :: rest => atLine .python options (line :: rest) 0 line ++ onLines options rest

/-- What stands before a line makes no difference to it. -/
theorem atLine_python_drop (options : ScanOptions) (lines : List Text) (i : Nat) (line : Text) :
    atLine .python options lines i line = atLine .python options (lines.drop i) 0 line := by
  have hdescribe : Language.describe .python lines i = Language.describe .python (lines.drop i) 0 := by
    simp only [Language.describe, Doc.docstring, List.drop_drop]
  unfold atLine
  rw [hdescribe]

theorem extract_python (options : ScanOptions) (source : Text) :
    extract .python options source = onLines options (lines source) := by
  -- by induction on what is left of the lines, with the place where it begins
  have hscan : ∀ (rest : List Text) (k : Nat), (lines source).drop k = rest →
      ((rest.zipIdx k).flatMap fun p => atLine .python options (lines source) p.2 p.1) =
        onLines options rest := by
    intro rest
    induction rest with
    | nil => intro k _; rfl
    | cons line rest ih =>
      intro k hk
      have hrest : (lines source).drop (k + 1) = rest := by
        rw [← List.drop_drop, hk]
        rfl
      rw [List.zipIdx_cons, List.flatMap_cons, ih (k + 1) hrest, atLine_python_drop, hk]
      rfl
  exact hscan (lines source) 0 rfl

theorem atLine_python_eq_nil {options : ScanOptions} {line : Text} (h : ¬ PythonHeader (trim line))
    (lines : List Text) (i : Nat) : atLine .python options lines i line = [] := by
  have hnone : (Language.headers .python (trim line)).filter Header.isPublic = [] := by
    rw [List.filter_eq_nil_iff]
    intro header hmem hpub
    exact h (pythonHeader_iff.2 ⟨header, hmem, hpub⟩)
  unfold atLine
  simp only [hnone, List.map_nil, ite_self]

theorem onLines_append_of_not_header {options : ScanOptions} (rest : List Text) :
    ∀ {ls : List Text}, (∀ l ∈ ls, ¬ PythonHeader (trim l)) →
      onLines options (ls ++ rest) = onLines options rest
  | [], _ => rfl
  | l :: ls, h => by
    rw [List.cons_append, onLines, atLine_python_eq_nil (h l (by simp)), List.nil_append]
    exact onLines_append_of_not_header rest fun m hm => h m (List.mem_cons_of_mem l hm)

theorem atLine_python_header {line : Text} {header : Header} (htrim : trim line = line)
    (hmem : header ∈ Language.headers .python line) (hpub : header.isPublic = true)
    (lines : List Text) (i : Nat) :
    atLine .python {} lines i line =
      [ofHeader .python line (Doc.docstring lines (i + 1)) header] := by
  have hscan : scanned {} line = true := by
    refine scanned_iff.2 ⟨(by intro h; cases h), ?_⟩
    intro hnil
    rw [← htrim, hnil] at hmem
    cases hmem
  rw [← htrim] at hmem
  rw [atLine_of_header length_headers_python hscan hmem hpub, htrim]
  rfl

/-! ## Written headers -/

theorem pythonFunction?_of_notMem {line n p : Text} (h : PythonFunction line n p) (hp : ')' ∉ p) :
    pythonFunction? line = some (.function n p) := by
  have hshort := shortestForm_of_notMem PythonOpens.unique pythonFunction_iff_opens h hp
  exact pythonFunction?_eq_some_iff.2 ⟨n, p, hshort, rfl⟩

end Declaration

namespace PythonItem

open Header Declaration

/-- Written parameters stay within their parentheses and on their line. -/
theorem params_lack (params : List PythonParameter) :
    Lacks ")\n" (join ", " (params.map PythonParameter.render)) := by
  refine Lacks.join (by decide) ?_
  intro t ht
  obtain ⟨p, -, rfl⟩ := List.mem_map.1 ht
  exact p.render_lacks.mono (by decide)

/-- A header is recognised as it was written. -/
theorem parsed_mem_headers (item : PythonItem) :
    item.parsed ∈ Language.headers .python item.header := by
  obtain ⟨hname, -⟩ := item.isName
  have hgap : Gap " " := ⟨by decide, by decide⟩
  rw [mem_headers_python]
  unfold parsed header
  cases item.shape with
  | classDef base oneLine =>
    right
    refine pythonClass?_eq_some_iff.2 ⟨item.name, ?_, rfl⟩
    cases base with
    | none => exact ⟨" ", _, hgap, hname, .colon [], rfl⟩
    | some b => exact ⟨" ", _, hgap, hname, .bases b [], by simp⟩
  | function params result oneLine =>
    left
    -- no parameter holds a closing parenthesis, so the first one in the line ends them all
    have hparen := (params_lack params).notMem (by decide : ')' ∈ (")\n" : Text))
    cases result with
    | none =>
      refine pythonFunction?_of_notMem ⟨" ", [], _, hgap, hname, rfl, .colon [] [] rfl, ?_⟩ hparen
      simp
    | some r =>
      have harrow := PythonResult.arrow " " (" " ++ r) [] (by decide)
      refine pythonFunction?_of_notMem ⟨" ", [], _, hgap, hname, rfl, harrow, ?_⟩ hparen
      simp

theorem parsed_isPublic (item : PythonItem) : item.parsed.isPublic = true := by
  rw [isPublic_iff]
  have hname := item.isName.2
  unfold parsed
  cases item.shape <;> exact hname

/-- What a recognised header declares. -/
theorem ofHeader_parsed (item : PythonItem) :
    ofHeader .python item.header (item.doc.getD []) item.parsed = item.declaration := by
  unfold parsed declaration
  cases hshape : item.shape with
  | classDef base oneLine => rfl
  | function params result oneLine =>
    simp only [ofHeader, Language.parameters, ParameterList.python_join_render,
      ParameterList.schema_ofParameters, ParameterList.required_ofParameters, List.map_map,
      List.filter_map]
    rfl

theorem stops_header (item : PythonItem) : Stops isBlank item.header := by
  unfold header
  cases item.shape with
  | classDef base oneLine => cases base <;> rfl
  | function params result oneLine => cases result <;> rfl

theorem getLast?_header (item : PythonItem) : item.header.getLast? = some ':' := by
  unfold header
  cases item.shape with
  | classDef base oneLine => cases base <;> exact List.getLast?_append.trans rfl
  | function params result oneLine => cases result <;> exact List.getLast?_append.trans rfl

theorem header_oneLine (item : PythonItem) : '\n' ∉ item.header := by
  have hname : '\n' ∉ item.name :=
    (item.isName.1.lacks (by decide : ['\n'].any isWord = false)).notMem (by decide)
  unfold header
  cases item.shape with
  | classDef base oneLine =>
    cases base with
    | none => simp [hname]
    | some b => simp [hname, oneLine b rfl]
  | function params result oneLine =>
    have hparams := (params_lack params).notMem (by decide : '\n' ∈ (")\n" : Text))
    cases result with
    | none => simpa [hname] using hparams
    | some r => simpa [hname, oneLine r rfl] using hparams

theorem trim_header (item : PythonItem) : trim item.header = item.header := by
  rw [trim, trimStart_eq_self item.stops_header, trimEnd_eq_self]
  rw [item.getLast?_header]
  rfl

/-! ## Written bodies -/

theorem not_pythonHeader {line : Text} (h : Language.headers .python line = []) :
    ¬ PythonHeader line := by
  rw [pythonHeader_iff, h]
  rintro ⟨_, hmem, -⟩
  cases hmem

theorem mem_body_cases {item : PythonItem} {l : Text} (h : l ∈ item.body) :
    l = "    pass" ∨ ∃ d ∈ item.doc, l = "    \"\"\"" ∨ ∃ line ∈ splitOn '\n' d, l = "    " ++ line := by
  unfold body at h
  rcases List.mem_append.1 h with h | h
  · right
    cases hd : item.doc with
    | none =>
      rw [hd] at h
      cases h
    | some d =>
      rw [hd] at h
      refine ⟨d, rfl, ?_⟩
      rcases List.mem_cons.1 h with rfl | h
      · exact .inl rfl
      · rcases List.mem_append.1 h with h | h
        · obtain ⟨line, hline, rfl⟩ := List.mem_map.1 h
          exact .inr ⟨line, hline, rfl⟩
        · exact .inl (List.mem_singleton.1 h)
  · exact .inl (List.mem_singleton.1 h)

theorem body_not_header (item : PythonItem) : ∀ l ∈ item.body, ¬ PythonHeader (trim l) := by
  intro l hl
  rcases mem_body_cases hl with rfl | ⟨d, hd, rfl | ⟨line, hline, rfl⟩⟩
  · exact not_pythonHeader rfl
  · exact not_pythonHeader rfl
  · rw [Doc.trim_indented (by decide)]
    exact (item.isDoc d hd).2 line hline

/-- The documentation that is found under a header. -/
theorem docstring_body (item : PythonItem) (rest : List Text) :
    Doc.docstring (item.header :: (item.body ++ rest)) 1 = item.doc.getD [] := by
  have hdoc := item.isDoc
  unfold body
  cases hd : item.doc with
  | none => rfl
  | some d =>
    have hblock : (item.header :: (Doc.block "    " "\"\"\"" d ++ ["    pass".toList] ++ rest)).drop 1 =
        Doc.block "    " "\"\"\"" d ++ (["    pass".toList] ++ rest) := by simp
    exact Doc.docstring_block (by decide) (by decide) (hdoc d hd).1 hblock

theorem isLine_of_mem (item : PythonItem) : ∀ l ∈ item.lines, IsLine l ∧ l ≠ [] := by
  intro l hl
  rcases List.mem_cons.1 hl with rfl | hl
  · have hlast := item.getLast?_header
    refine ⟨isLine_of_getLast? item.header_oneLine (by rw [hlast]; rfl), ?_⟩
    intro hnil
    rw [hnil] at hlast
    cases hlast
  · rcases mem_body_cases hl with rfl | ⟨d, hd, rfl | ⟨line, hline, rfl⟩⟩
    · decide
    · decide
    · have hends := (item.isDoc d hd).1.lineEnds line hline
      have hisLine := isLine_of_getLast? (notMem_of_mem_splitOn hline) hends
      exact ⟨IsLine.append (by decide) hisLine, by simp⟩

/-- One declaration is found again, and the scan goes on after its lines. -/
theorem onLines_lines (item : PythonItem) (rest : List Text) :
    onLines {} (item.lines ++ rest) = item.declaration :: onLines {} rest := by
  rw [lines, List.cons_append, onLines,
    atLine_python_header item.trim_header item.parsed_mem_headers item.parsed_isPublic,
    item.docstring_body, item.ofHeader_parsed, onLines_append_of_not_header rest item.body_not_header]
  rfl

end PythonItem

namespace Declaration

theorem onLines_flatMap_lines (items : List PythonItem) :
    onLines {} (items.flatMap PythonItem.lines) = items.map PythonItem.declaration := by
  induction items with
  | nil => rfl
  | cons item items ih => rw [List.flatMap_cons, item.onLines_lines, ih, List.map_cons]

/-- **Written declarations are found again.** Whether or not the last line is ended by a line feed, the
source that is written from some declarations gives them back in order, with their names, headers and
documentation, and for functions the properties and the required names of their plain parameters. -/
theorem extractTagged_written_python (items : List PythonItem) :
    extractTagged (unlines (items.flatMap PythonItem.lines)) "python" =
      .ok (items.map PythonItem.declaration) ∧
    extractTagged (join "\n" (items.flatMap PythonItem.lines)) "python" =
      .ok (items.map PythonItem.declaration) := by
  have hlines : ∀ l ∈ items.flatMap PythonItem.lines, IsLine l ∧ l ≠ [] := by
    intro l hl
    obtain ⟨item, -, hl⟩ := List.mem_flatMap.1 hl
    exact item.isLine_of_mem l hl
  have hextract : ∀ source, lines source = items.flatMap PythonItem.lines →
      extractTagged source "python" = .ok (items.map PythonItem.declaration) := by
    intro source hsource
    rw [← onLines_flatMap_lines, ← hsource, ← extract_python]
    rfl
  refine ⟨hextract _ (lines_unlines fun l hl => (hlines l hl).1), hextract _ (lines_join hlines)⟩

/-- A class without documentation, and a function with parameters of every kind and with a text that
names a private function. -/
def shapeItems : List PythonItem :=
  [{ name := "Shape"
     shape := .classDef (some "Base(), meta=M") (by decide)
     doc := none
     isName := ⟨⟨by decide, by decide⟩, by decide⟩
     isDoc := by simp },
   { name := "area"
     shape := .function
       [.receiver,
        .plain ⟨"w", some "Fn[[int", none, ⟨⟨by decide, by decide⟩, by decide⟩, by decide, by simp⟩,
        .star,
        .plain ⟨"h", some "int", some "(1 == 2", ⟨⟨by decide, by decide⟩, by decide⟩, by decide,
          by decide⟩,
        .plain ⟨"w", none, some [], ⟨⟨by decide, by decide⟩, by decide⟩, by simp, by decide⟩,
        .keywords "rest" ⟨by decide, by decide⟩]
       (some "f(int):") (by decide)
     doc := some "Its area.\n\n  def _f():"
     isName := ⟨⟨by decide, by decide⟩, by decide⟩
     isDoc := by
      intro d hd
      cases hd
      exact ⟨⟨by decide, Doc.upTo?_eq_none_iff.1 (by decide +kernel), by decide⟩, by decide +kernel⟩ }]

theorem extractTagged_shapeItems :
    shapeItems.flatMap PythonItem.lines =
      ["class Shape(Base(), meta=M):", "    pass",
        "def area(self, w: Fn[[int, *, h: int = (1 == 2, w = , **rest) -> f(int)::",
        "    \"\"\"", "    Its area.", "    ", "      def _f():", "    \"\"\"", "    pass"].map
        String.toList ∧
    extractTagged (unlines (shapeItems.flatMap PythonItem.lines)) "python" =
      .ok (shapeItems.map PythonItem.declaration) ∧
    (shapeItems.map PythonItem.declaration).map (fun d => (d.description, d.required)) =
      [([], []), ("Its area.\n\n  def _f():".toList, ["w".toList])] :=
  ⟨by decide +kernel, (extractTagged_written_python shapeItems).1, by decide +kernel⟩

end Declaration

end ToolCatalog
