import ToolCatalog.Proofs.Declaration.Passages
import ToolCatalog.Proofs.Declaration.ScriptHeaders
import ToolCatalog.Proofs.Declaration.ScriptParameters
import ToolCatalog.Proofs.Doc.Comments

/-!
# JavaScript and TypeScript sources written from declarations

A list of declarations can be written as a source: for each a comment, if it has one, a header and a
body. What is extracted from the source is the list again (`extractTagged_written_script`). The search
for a comment goes upwards and could reach the comment of the declaration before; what keeps it from
there is that no search goes past the header of that declaration (`commentUpwards_lines`), which is the
invariant of the run over the declarations.
-/

namespace ToolCatalog

open Text

/-! ## Written declarations -/

/-- What a header has besides its name: the parameters and the result of a function or of an arrow
function, or the base of a class, and the word that may stand before it. -/
inductive ScriptShape where
  | function (isAsync : Bool) (params : List ScriptParameter) (result : Option Text)
      (oneLine : ∀ r ∈ result, '\n' ∉ r)
  | arrow (isAsync : Bool) (params : List ScriptParameter) (result : Option Text)
      (oneLine : ∀ r ∈ result, '\n' ∉ r)
  | classDef (isAbstract : Bool) (base : Option Text) (oneLine : ∀ b ∈ base, '\n' ∉ b)

instance (line : Text) : Decidable (Declaration.ScriptHeader line) :=
  decidable_of_iff _ Declaration.scriptHeader_iff.symm

/-- A declaration to be written, with its comment and the lines after its header. Of these none is a
header or part of a comment. -/
structure ScriptItem where
  name : Text
  exported : Bool
  shape : ScriptShape
  comment : Option (List Text)
  body : List Text := ["\x7d".toList]
  isName : Header.Identifier name ∧ name.head? ≠ some '_'
  isComment : ∀ texts ∈ comment, ∀ t ∈ texts, Doc.CommentText t ∧ Doc.Unclosed t
  isBody : ∀ l ∈ body, (IsLine l ∧ l ≠ []) ∧ Doc.IsCode l ∧
    ¬ Declaration.ScriptHeader (trim l) := by decide

/-- A word and a blank, or nothing. -/
def optionalWord (present : Bool) (word : Text) : Text := if present then word ++ " " else []

/-- A text with another before it, or nothing. -/
def optionalText (lead : Text) : Option Text → Text
  | some t => lead ++ t
  | none => []

namespace ScriptItem

def paramsText (params : List ScriptParameter) : Text :=
  join ", " (params.map ScriptParameter.render)

/-- The header line. -/
def header (item : ScriptItem) : Text :=
  optionalWord item.exported "export" ++
  match item.shape with
  | .function isAsync params result _ =>
    optionalWord isAsync "async" ++ "function " ++ item.name ++ "(" ++ paramsText params ++ ")"
      ++ optionalText ": " result ++ " \x7b"
  | .arrow isAsync params result _ =>
    "const " ++ item.name ++ " = " ++ optionalWord isAsync "async" ++ "(" ++ paramsText params ++ ")"
      ++ optionalText ": " result ++ " => \x7b"
  | .classDef isAbstract base _ =>
    optionalWord isAbstract "abstract" ++ "class " ++ item.name
      ++ optionalText " extends " base ++ " \x7b"

/-- The lines above the header. -/
def commentLines (item : ScriptItem) : List Text :=
  match item.comment with
  | some texts => Doc.commentBlock texts
  | none => []

/-- The lines of a declaration. -/
def lines (item : ScriptItem) : List Text := item.commentLines ++ item.header :: item.body

/-- The documentation that is to be found again. -/
def description (item : ScriptItem) : Text := (item.comment.map (join " ")).getD []

/-- The declaration of a function with parameters. -/
def functionDeclaration (item : ScriptItem) (params : List ScriptParameter) : Declaration :=
  let named := params.filterMap ScriptParameter.named?
  { name := item.name, kind := .function, signature := item.header, description := item.description,
    parameters := some (ParameterSchema.ofNames (named.map (·.name))),
    required := (named.filter fun p => !p.optional && p.defaultValue.isNone).map (·.name) }

/-- What is to be found again. -/
def declaration (item : ScriptItem) : Declaration :=
  match item.shape with
  | .function _ params _ _ => item.functionDeclaration params
  | .arrow _ params _ _ => item.functionDeclaration params
  | .classDef _ _ _ =>
    { name := item.name, kind := .classDef, signature := item.header,
      description := item.description, parameters := none, required := [] }

/-- The header as it is recognised. -/
def parsed (item : ScriptItem) : Header :=
  match item.shape with
  | .function _ params _ _ => .function item.name (paramsText params)
  | .arrow _ params _ _ => .function item.name (paramsText params)
  | .classDef _ _ _ => .classDef item.name

/-! ## Written headers -/

open Header Declaration

theorem optionally_optionalWord (present : Bool) (word t : Text) :
    Optionally word (optionalWord present word ++ t) t := by
  cases present with
  | false => exact .inl rfl
  | true => exact .inr ⟨" ", ⟨by decide, by decide⟩, rfl⟩

/-- Written parameters stay within their parentheses and on their line. -/
theorem paramsText_lacks (params : List ScriptParameter) : Lacks ")\n" (paramsText params) := by
  refine Lacks.join (by decide) ?_
  intro t ht
  obtain ⟨p, -, rfl⟩ := List.mem_map.1 ht
  exact p.render_lacks.mono (by decide)

theorem arrowResult_written (result : Option Text) :
    ArrowResult (optionalText ": " result ++ " => \x7b") := by
  cases result with
  | none => exact .arrow " " " \x7b" (by decide)
  | some r =>
    have htyped := ArrowResult.typed [] (" " ++ r ++ " ") " \x7b" rfl
    simpa [optionalText] using htyped

section WrittenForms

variable {n : Text} (hn : Identifier n) (exported : Bool)
include hn

theorem scriptFunction_written (isAsync : Bool) (params result : Text) :
    ScriptFunction (optionalWord exported "export" ++
      (optionalWord isAsync "async" ++ "function " ++ n ++ "(" ++ params ++ ")" ++ result ++ " \x7b"))
      n params := by
  refine ⟨_, "function " ++ n ++ "(" ++ params ++ ")" ++ result ++ " \x7b", " ", [], result ++ " \x7b",
    optionally_optionalWord .., ?_, ⟨by decide, by decide⟩, hn, rfl, by simp⟩
  simpa using optionally_optionalWord isAsync "async"
    ("function " ++ n ++ "(" ++ params ++ ")" ++ result ++ " \x7b")

theorem scriptArrow_written (isAsync : Bool) (params : Text) (result : Option Text) :
    ScriptArrow (optionalWord exported "export" ++
      ("const " ++ n ++ " = " ++ optionalWord isAsync "async" ++ "(" ++ params ++ ")"
        ++ optionalText ": " result ++ " => \x7b")) n params := by
  refine ⟨_, " ", " ", " ", _, optionalText ": " result ++ " => \x7b", optionally_optionalWord ..,
    ⟨by decide, by decide⟩, hn, by decide, by decide, optionally_optionalWord isAsync "async" _,
    arrowResult_written result, ?_⟩
  simp

theorem scriptClass_written (isAbstract : Bool) (base : Option Text) :
    ScriptClass (optionalWord exported "export" ++
      (optionalWord isAbstract "abstract" ++ "class " ++ n
        ++ optionalText " extends " base ++ " \x7b")) n := by
  refine ⟨_, "class " ++ n ++ optionalText " extends " base ++ " \x7b", " ",
    optionalText " extends " base ++ " \x7b", optionally_optionalWord .., ?_, ⟨by decide, by decide⟩, hn,
    ?_, by simp⟩
  · simpa using optionally_optionalWord isAbstract "abstract"
      ("class " ++ n ++ optionalText " extends " base ++ " \x7b")
  · cases base <;> rfl

end WrittenForms

/-- A header is recognised as it was written. -/
theorem parsed_mem_headers (item : ScriptItem) :
    item.parsed ∈ Language.headers .typescript item.header := by
  obtain ⟨hname, -⟩ := item.isName
  -- no parameter holds a closing parenthesis, so the first one in the line ends them all
  have hparen : ∀ params, ')' ∉ paramsText params := fun params =>
    (paramsText_lacks params).notMem (by decide)
  rw [mem_headers_script]
  unfold parsed header
  cases item.shape with
  | function isAsync params result oneLine =>
    have hform := scriptFunction_written hname item.exported isAsync (paramsText params)
      (optionalText ": " result)
    have hshort := hform.shortest_iff.2 (hparen params)
    exact .inl (scriptFunction?_eq_some_iff.2 ⟨_, _, hshort, rfl⟩)
  | arrow isAsync params result oneLine =>
    have hform := scriptArrow_written hname item.exported isAsync (paramsText params) result
    have hshort := shortestForm_of_notMem ArrowOpens.unique scriptArrow_iff_opens hform
      (hparen params)
    exact .inr (.inl (scriptArrow?_eq_some_iff.2 ⟨_, _, hshort, rfl⟩))
  | classDef isAbstract base oneLine =>
    have hform := scriptClass_written hname item.exported isAbstract base
    exact .inr (.inr (scriptClass?_eq_some_iff.2 ⟨_, hform, rfl⟩))

theorem parsed_isPublic (item : ScriptItem) : item.parsed.isPublic = true := by
  rw [isPublic_iff]
  have hname := item.isName.2
  unfold parsed
  cases item.shape <;> exact hname

/-- What a recognised header declares. -/
theorem ofHeader_parsed (item : ScriptItem) :
    ofHeader .typescript item.header item.description item.parsed = item.declaration := by
  have hfunction : ∀ params, ofHeader .typescript item.header item.description
      (.function item.name (paramsText params)) = item.functionDeclaration params := by
    intro params
    simp only [ofHeader, Language.parameters, paramsText, ParameterList.script_join_render,
      ParameterList.schema_ofParameters, ParameterList.required_ofParameters, List.map_map,
      List.filter_map]
    rfl
  unfold parsed declaration
  cases item.shape with
  | function isAsync params result oneLine => exact hfunction params
  | arrow isAsync params result oneLine => exact hfunction params
  | classDef isAbstract base oneLine => rfl

theorem getLast?_header (item : ScriptItem) : item.header.getLast? = some '{' := by
  unfold header
  cases item.shape <;>
    (rw [List.getLast?_append, List.getLast?_append]; rfl)

/-- A header begins with one of the letters that its first word can begin with. -/
theorem head?_header (item : ScriptItem) :
    ∃ c s, item.header = c :: s ∧ c ∈ ("acef" : Text) := by
  unfold header
  cases item.exported with
  | true => exact ⟨'e', _, rfl, by decide⟩
  | false =>
    cases item.shape with
    | function isAsync params result oneLine =>
      cases isAsync with
      | true => exact ⟨'a', _, rfl, by decide⟩
      | false => exact ⟨'f', _, rfl, by decide⟩
    | arrow isAsync params result oneLine => exact ⟨'c', _, rfl, by decide⟩
    | classDef isAbstract base oneLine =>
      cases isAbstract with
      | true => exact ⟨'a', _, rfl, by decide⟩
      | false => exact ⟨'c', _, rfl, by decide⟩

theorem trim_header (item : ScriptItem) : trim item.header = item.header := by
  rw [trim_eq_self_iff, item.getLast?_header]
  refine ⟨?_, rfl⟩
  obtain ⟨c, s, hs, hc⟩ := item.head?_header
  have hletters : ("acef" : Text).all (fun c => !isBlank c) = true := by decide
  rw [hs]
  simpa [Stops] using List.all_eq_true.1 hletters c hc

theorem optionalWord_oneLine {word : Text} (h : Lacks "\n" (word ++ " ")) (present : Bool) :
    Lacks "\n" (optionalWord present word) := by
  cases present with
  | true => exact h
  | false => exact Lacks.nil

theorem optionalText_oneLine {lead : Text} (hlead : Lacks "\n" lead) {t : Option Text}
    (ht : ∀ r ∈ t, '\n' ∉ r) : Lacks "\n" (optionalText lead t) := by
  cases t with
  | none => exact Lacks.nil
  | some r =>
    refine hlead.append ?_
    intro c hc hnewline
    rw [List.mem_singleton.1 hnewline] at hc
    exact ht r rfl hc

theorem header_oneLine (item : ScriptItem) : Lacks "\n" item.header := by
  have hname : Lacks "\n" item.name := item.isName.1.lacks (by decide)
  have hparams : ∀ params, Lacks "\n" (paramsText params) := fun params =>
    (paramsText_lacks params).mono (by decide)
  have hexport := optionalWord_oneLine (by decide : Lacks "\n" ("export" ++ " ".toList))
  have hasync := optionalWord_oneLine (by decide : Lacks "\n" ("async" ++ " ".toList))
  have habstract := optionalWord_oneLine (by decide : Lacks "\n" ("abstract" ++ " ".toList))
  unfold header
  rw [Lacks.append_iff]
  refine ⟨hexport item.exported, ?_⟩
  cases item.shape with
  | function isAsync params result oneLine =>
    have hresult := optionalText_oneLine (by decide : Lacks "\n" ": ") oneLine
    simp only [Lacks.append_iff, hasync isAsync, hname, hparams params, hresult]
    decide
  | arrow isAsync params result oneLine =>
    have hresult := optionalText_oneLine (by decide : Lacks "\n" ": ") oneLine
    simp only [Lacks.append_iff, hasync isAsync, hname, hparams params, hresult]
    decide
  | classDef isAbstract base oneLine =>
    have hbase := optionalText_oneLine (by decide : Lacks "\n" " extends ") oneLine
    simp only [Lacks.append_iff, habstract isAbstract, hname, hbase]
    decide

/-! ## Written comments and bodies -/

theorem header_isCode (item : ScriptItem) : Doc.IsCode item.header ∧ trim item.header ≠ [] := by
  obtain ⟨c, s, hs, hc⟩ := item.head?_header
  have hletters : Lacks "/*" "acef" := by decide
  have hmark : c ∉ ("/*" : Text) := hletters c hc
  have hslash : '/' ≠ c := by
    rintro rfl
    exact hmark (by decide)
  have hstar : '*' ≠ c := by
    rintro rfl
    exact hmark (by decide)
  unfold Doc.IsCode
  rw [item.trim_header, hs]
  simp [after?, hslash, hstar]

/-- No search for a comment goes past a declaration. -/
theorem commentUpwards_lines (item : ScriptItem) (above : List Text) :
    Doc.commentUpwards [] (above ++ item.lines).reverse = [] := by
  obtain ⟨hcode, hne⟩ := item.header_isCode
  have hreverse : (above ++ item.lines).reverse =
      item.body.reverse ++ item.header :: (above ++ item.commentLines).reverse := by
    simp [lines]
  rw [hreverse]
  refine Doc.commentUpwards_code (Doc.commentUpwards_of_code hcode hne _ _) ?_
  intro l hl
  exact (item.isBody l (List.mem_reverse.1 hl)).2.1

/-- The documentation that is found above a header. -/
theorem commentUpwards_commentLines (item : ScriptItem) {above : List Text}
    (h : Doc.commentUpwards [] above.reverse = []) :
    Doc.commentUpwards [] (above ++ item.commentLines).reverse = item.description := by
  have hcomment := item.isComment
  unfold commentLines description
  cases hc : item.comment with
  | none => simpa using h
  | some texts => exact Doc.commentUpwards_block above (hcomment texts hc)

theorem mem_commentLines {item : ScriptItem} {l : Text} (h : l ∈ item.commentLines) :
    (l = "/**" ∨ l = " */") ∨ ∃ t, Doc.CommentText t ∧ l = Doc.starred t := by
  have hcomment := item.isComment
  unfold commentLines at h
  cases hc : item.comment with
  | none =>
    rw [hc] at h
    cases h
  | some texts =>
    rw [hc] at h
    simp only [Doc.commentBlock, List.mem_cons, List.mem_append, List.mem_map, List.not_mem_nil,
      or_false] at h
    rcases h with rfl | ⟨t, ht, rfl⟩ | rfl
    · exact .inl (.inl rfl)
    · exact .inr ⟨t, (hcomment texts hc t ht).1, rfl⟩
    · exact .inl (.inr rfl)

/-- A line of a comment is no header. -/
theorem headers_commentLine {item : ScriptItem} {l : Text} (h : l ∈ item.commentLines) :
    Language.headers .typescript (trim l) = [] := by
  rcases mem_commentLines h with (rfl | rfl) | ⟨t, ht, rfl⟩
  · rfl
  · rfl
  · rw [Doc.trim_starred ht]
    rfl

theorem isLine_of_mem (item : ScriptItem) : ∀ l ∈ item.lines, IsLine l ∧ l ≠ [] := by
  intro l hl
  rcases List.mem_append.1 hl with hl | hl
  · rcases mem_commentLines hl with (rfl | rfl) | ⟨t, ht, rfl⟩
    · decide
    · decide
    · have hends := isLine_of_getLast? ht.oneLine (trim_eq_self_iff.1 ht.trimmed).2
      exact ⟨IsLine.append (by decide) hends, by simp [Doc.starred]⟩
  · rcases List.mem_cons.1 hl with rfl | hl
    · have hlast := item.getLast?_header
      refine ⟨isLine_of_getLast? (item.header_oneLine.notMem (by decide)) (by rw [hlast]; rfl), ?_⟩
      intro hnil
      rw [hnil] at hlast
      cases hlast
    · exact (item.isBody l hl).1

/-- One declaration is found again, if no comment reaches down to its lines. -/
theorem passage_lines (item : ScriptItem) {above : List Text} (below : List Text)
    (h : Doc.commentUpwards [] above.reverse = []) :
    passage .typescript {} above below item.lines = [item.declaration] := by
  have hcomment : ∀ below, passage .typescript {} above below item.commentLines = [] := by
    intro below
    refine passage_eq_nil {} below _ _ ?_
    intro l hl header hmem
    rw [headers_commentLine hl] at hmem
    cases hmem
  have hbody : ∀ above, passage .typescript {} above below item.body = [] := by
    intro above
    refine passage_eq_nil {} below _ _ ?_
    intro l hl header hmem
    by_contra hpub
    exact (item.isBody l hl).2.2 (scriptHeader_iff.2 ⟨header, hmem, by simpa using hpub⟩)
  have hscan : scanned {} item.header = true :=
    scanned_iff.2 ⟨(by intro h; cases h), item.header_isCode.2⟩
  have hmem := item.parsed_mem_headers
  rw [← item.trim_header] at hmem
  rw [lines, passage_append, hcomment, List.nil_append, passage, hbody,
    atLine_of_header length_headers_script hscan hmem item.parsed_isPublic,
    describe_script (by decide), item.commentUpwards_commentLines h, item.trim_header,
    item.ofHeader_parsed]
  rfl

end ScriptItem

namespace Declaration

theorem passage_flatMap_lines :
    ∀ (items : List ScriptItem) (above : List Text), Doc.commentUpwards [] above.reverse = [] →
      passage .typescript {} above [] (items.flatMap ScriptItem.lines) =
        items.map ScriptItem.declaration
  | [], _, _ => rfl
  | item :: items, above, h => by
    have ih := passage_flatMap_lines items (above ++ item.lines) (item.commentUpwards_lines above)
    rw [List.flatMap_cons, passage_append, item.passage_lines _ h, ih]
    rfl

/-- **Written declarations are found again.** Whether or not the last line is ended by a line feed, and
whichever of the two languages it is read as, the source that is written from some declarations gives
them back in order, with their names, headers and comments, and for functions the properties and the
required names of their named parameters. -/
theorem extractTagged_written_script (items : List ScriptItem) :
    ∀ tag ∈ [("javascript" : Text), "typescript"],
      extractTagged (unlines (items.flatMap ScriptItem.lines)) tag =
        .ok (items.map ScriptItem.declaration) ∧
      extractTagged (join "\n" (items.flatMap ScriptItem.lines)) tag =
        .ok (items.map ScriptItem.declaration) := by
  have hlines : ∀ l ∈ items.flatMap ScriptItem.lines, IsLine l ∧ l ≠ [] := by
    intro l hl
    obtain ⟨item, -, hl⟩ := List.mem_flatMap.1 hl
    exact item.isLine_of_mem l hl
  have hextract : ∀ source, lines source = items.flatMap ScriptItem.lines →
      extract .typescript {} source = items.map ScriptItem.declaration := by
    intro source hsource
    rw [extract_eq_passage, hsource, passage_flatMap_lines items [] rfl]
  have htagged : ∀ source, ∀ tag ∈ [("javascript" : Text), "typescript"],
      extractTagged source tag = .ok (extract .typescript {} source) := by
    intro source tag htag
    simp only [List.mem_cons, List.not_mem_nil, or_false] at htag
    rcases htag with rfl | rfl
    · rfl
    · rfl
  intro tag htag
  rw [htagged _ tag htag, htagged _ tag htag, hextract _ (lines_unlines fun l hl => (hlines l hl).1),
    hextract _ (lines_join hlines)]
  exact ⟨rfl, rfl⟩

/-- A function with a comment and with parameters of every kind, a constant without a comment after it,
and a class whose comment is empty. -/
def cartItems : List ScriptItem :=
  [{ name := "load"
     exported := true
     shape := .function true
       [.named ⟨"url", false, some "A[B", none, ⟨by decide, by decide⟩, by decide,
          NamedParameter.noDefault_lacks⟩,
        .named ⟨"times", true, none, some "[1 == 2", ⟨by decide, by decide⟩,
          NamedParameter.noHint_lacks, by decide⟩,
        .named ⟨"url", true, some [], none, ⟨by decide, by decide⟩, by decide,
          NamedParameter.noDefault_lacks⟩,
        .rest "more" ⟨by decide, by decide⟩]
       (some "P<f(x)>") (by decide)
     comment := some ["Loads. * /".toList, "/** @see _get".toList]
     isName := ⟨⟨by decide, by decide⟩, by decide⟩
     isComment := by decide },
   { name := "sum"
     exported := false
     shape := .arrow false
       [.named ⟨"a", false, none, none, ⟨by decide, by decide⟩, NamedParameter.noHint_lacks,
          NamedParameter.noDefault_lacks⟩]
       (some "(x) => y") (by decide)
     comment := none
     isName := ⟨⟨by decide, by decide⟩, by decide⟩
     isComment := by simp },
   { name := "Cart"
     exported := true
     shape := .classDef true (some "Base") (by decide)
     comment := some []
     body := []
     isName := ⟨⟨by decide, by decide⟩, by decide⟩
     isComment := by simp }]

theorem extractTagged_cartItems :
    cartItems.flatMap ScriptItem.lines =
      ["/**", " * Loads. * /", " * /** @see _get", " */",
        "export async function load(url: A[B, times? = [1 == 2, url?: , ...more): P<f(x)> \x7b", "\x7d",
        "const sum = (a): (x) => y => \x7b", "\x7d", "/**", " */",
        "export abstract class Cart extends Base \x7b"].map String.toList ∧
    extractTagged (unlines (cartItems.flatMap ScriptItem.lines)) "javascript" =
      .ok (cartItems.map ScriptItem.declaration) ∧
    (cartItems.map ScriptItem.declaration).map (fun d => (d.description, d.required)) =
      [("Loads. * / /** @see _get".toList, ["url".toList]), ([], ["a".toList]), ([], [])] :=
  ⟨by decide +kernel, (extractTagged_written_script cartItems "javascript" (by simp)).1,
    by decide +kernel⟩

end Declaration

end ToolCatalog
