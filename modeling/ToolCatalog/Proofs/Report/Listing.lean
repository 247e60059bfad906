import ToolCatalog.Proofs.Declaration.Signatures
import ToolCatalog.Proofs.Declaration.WellFormed
import ToolCatalog.Proofs.Doc.Canonical
import ToolCatalog.Report.Console

/-!
# Listings show declarations as they are

In a listing nothing is quoted, and blocks have three lines or four. For declarations of a source it can be read
back nonetheless. None of their parts breaks a line (`printable_of_mem_extract`), so the lines of a listing are
those of its head and of its blocks (`lines_renderConsole`), and the third line of a block is empty just when
there is no documentation. The second line holds the signature, from which all else but the documentation
follows (`undescribed_eq_of_signature`). So a listing tells the declarations, but for the later lines of their
documentation (`renderConsole_faithful`).
-/

namespace ToolCatalog

open Text

/-! ## Ends of lines and first lines -/

theorem Text.isLine_append {a b : Text} (ha : '\n' ∉ a) (hb : IsLine b) (hne : b ≠ []) :
    IsLine (a ++ b) := by
  refine ⟨by simp [ha, hb.1], ?_⟩
  rw [List.getLast?_append_of_ne_nil a hne]
  exact hb.2

/-- The first line of a text is what stands before its first line feed, if that does not end in a carriage
return. -/
theorem Text.firstLine_eq {s first : Text} {rest : List Text} (hs : splitOn '\n' s = first :: rest)
    (hfirst : IsLine first) : firstLine s = first := by
  have hjoin : s = join "\n" (first :: rest) := by
    have h := join_splitOn '\n' s
    rw [hs] at h
    exact h.symm
  unfold firstLine
  by_cases hrest : rest = []
  · subst hrest
    have hself : s = first := hjoin
    by_cases hnil : first = []
    · rw [hself, hnil]
      rfl
    · rw [hself, lines_of_notMem hfirst.1 hnil]
      rfl
  · rw [join_cons _ _ hrest] at hjoin
    have hcut : s = first ++ '\n' :: join "\n" rest := by simpa using hjoin
    rw [hcut, lines_append_newline _ hfirst]
    rfl

/-- No line of a documentation ends in a blank. -/
theorem Language.describe_lineEnds (language : Language) {lines : List Text} (h : ∀ l ∈ lines, '\n' ∉ l)
    (i : Nat) : ∀ m ∈ splitOn '\n' (language.describe lines i), m.getLast?.any isBlank = false := by
  by_cases hlang : language = .python
  · subst hlang
    exact Doc.docstring_lineEnds h (i + 1)
  · obtain ⟨htrim, hnewline⟩ := language.describe_wellFormed h i
    intro m hm
    rw [splitOn_of_notMem (hnewline hlang), List.mem_singleton] at hm
    subst hm
    rw [← htrim]
    exact getLast?_trimEnd_any _

namespace Declaration

/-! ## Blocks of a listing -/

/-- How a parameter is shown: a question mark after its name says that it need not be given. -/
def ShowsName (required : List Text) (name shown : Text) : Prop :=
  (shown = name ++ "?" ↔ name ∉ required) ∧ (shown = name ↔ name ∈ required)

/-- How the parameters of a declaration are shown. -/
inductive ShowsParameters (d : Declaration) : Text → Prop where
  | without : d.parameters = none → ShowsParameters d []
  | listed {schema : ParameterSchema} {shown : List Text} : d.parameters = some schema →
    List.Forall₂ (ShowsName d.required) schema.names shown →
    ShowsParameters d ("(" ++ join ", " shown ++ ")")

/-- The block that shows a declaration: three lines, or four where there is documentation. -/
inductive Shows (d : Declaration) : List Text → Prop where
  | bare {params : Text} : ShowsParameters d params → d.description = [] →
    Shows d ["  ".toList ++ kindMark d.kind ++ " " ++ d.name ++ params,
      "           at ".toList ++ d.signature, []]
  | documented {params : Text} : ShowsParameters d params → d.description ≠ [] →
    Shows d ["  ".toList ++ kindMark d.kind ++ " " ++ d.name ++ params,
      "           at ".toList ++ d.signature, "           doc: ".toList ++ firstLine d.description, []]

theorem showsName_listed (required : List Text) (name : Text) :
    ShowsName required name (if required.contains name then name else name ++ ['?']) := by
  by_cases h : name ∈ required
  · simp [ShowsName, h]
  · simp [ShowsName, h]

theorem showsParameters_parameterListing (d : Declaration) : ShowsParameters d d.parameterListing := by
  unfold parameterListing
  cases hparams : d.parameters with
  | none => exact .without hparams
  | some schema =>
    refine .listed hparams ?_
    rw [List.forall₂_map_right_iff]
    exact List.forall₂_same.2 fun name _ => showsName_listed d.required name

theorem shows_listingLines (d : Declaration) : Shows d d.listingLines := by
  have hparams := showsParameters_parameterListing d
  unfold listingLines
  by_cases hdoc : d.description = []
  · rw [hdoc]
    exact .bare hparams hdoc
  · rw [if_neg (by simpa using hdoc)]
    exact .documented hparams hdoc

/-! ## Lines of a listing -/

/-- A declaration whose parts are each shown on one line. -/
structure Printable (d : Declaration) : Prop where
  name : IsLine d.name
  parameters : ∀ schema ∈ d.parameters, ∀ n ∈ schema.names, '\n' ∉ n
  signature : IsLine d.signature
  description : IsLine (firstLine d.description)

theorem isLine_parameterListing {d : Declaration} (h : d.Printable) : IsLine d.parameterListing := by
  unfold parameterListing
  cases hparams : d.parameters with
  | none => exact ⟨by simp, by simp⟩
  | some schema =>
    have hshown : Lacks ['\n'] (join ", " (schema.names.map fun n =>
        if d.required.contains n then n else n ++ ['?'])) := by
      refine Lacks.join (by decide) ?_
      intro t ht c hc hnewline
      obtain ⟨n, hn, rfl⟩ := List.mem_map.1 ht
      have hname := h.parameters schema hparams n hn
      rw [List.mem_singleton.1 hnewline] at hc
      split at hc
      · exact hname hc
      · simp [hname] at hc
    have hopened := List.not_mem_cons_of_ne_of_not_mem (by decide : '\n' ≠ '(')
      (hshown.notMem (List.mem_singleton_self _))
    exact isLine_append hopened (by decide) (by simp)

theorem Printable.isLine_of_mem {d : Declaration} (h : d.Printable) :
    ∀ l ∈ d.listingLines, IsLine l := by
  have hmark : ∀ kind, IsLine ("  ".toList ++ kindMark kind ++ [' ']) := by
    intro kind
    cases kind <;> decide
  have hat : IsLine (detailIndent ++ "at ") := by decide
  have hdoc : IsLine (detailIndent ++ "doc: ") := by decide
  intro l hl
  unfold listingLines at hl
  rw [List.mem_append, List.mem_append] at hl
  rcases hl with (hl | hl) | hl
  · rcases List.mem_pair.1 hl with rfl | rfl
    · exact ((hmark d.kind).append h.name).append (isLine_parameterListing h)
    · exact hat.append h.signature
  · split at hl
    · cases hl
    · rw [List.mem_singleton.1 hl]
      exact hdoc.append h.description
  · rw [List.mem_singleton.1 hl]
    decide

/-- The line with the number of the declarations. -/
def countLine (n : Nat) : Text := "  ".toList ++ ofNat n ++ " declaration(s):"

theorem isLine_countLine (n : Nat) : IsLine (countLine n) := by
  have hdigits : '\n' ∉ ofNat n := by
    intro hmem
    have hdigit := Nat.isDigit_of_mem_toDigits (by decide) (by decide) hmem
    revert hdigit
    decide
  exact isLine_append (by simp [hdigits]) (by decide) (by decide)

/-- The lines of a listing are those of its head and then those of its blocks. -/
theorem lines_renderConsole {ds : List Declaration} (hne : ds ≠ []) (h : ∀ d ∈ ds, d.Printable) :
    lines (renderConsole ds) = [] :: countLine ds.length :: [] :: ds.flatMap listingLines := by
  have hrender : renderConsole ds =
      unlines ([] :: countLine ds.length :: [] :: ds.flatMap listingLines) := by
    unfold renderConsole
    rw [if_neg (by simpa using hne)]
    have hblocks : ds.flatMap listing = unlines (ds.flatMap listingLines) := by
      rw [unlines, List.flatMap_assoc]
      rfl
    rw [hblocks]
    simp [unlines, countLine]
  rw [hrender]
  refine lines_unlines ?_
  intro l hl
  simp only [List.mem_cons, List.mem_flatMap] at hl
  rcases hl with rfl | rfl | rfl | ⟨d, hd, hl⟩
  · decide
  · exact isLine_countLine _
  · decide
  · exact (h d hd).isLine_of_mem l hl

/-! ## Declarations of a source -/

/-- No part of a declaration that is found in a source breaks a line. -/
theorem printable_of_mem_extract {language : Language} {options : ScanOptions} {source : Text}
    {d : Declaration} (hd : d ∈ extract language options source) : d.Printable := by
  obtain ⟨line, hline, hne, i, header, hheader, hpub, rfl⟩ := exists_of_mem_extract hd
  have hnewline : ∀ l ∈ lines source, '\n' ∉ l := fun l hl => newline_notMem_of_mem_lines hl
  have hwell := wellFormed_ofHeader hline hheader hpub hne i
  refine ⟨?_, ?_, ?_, ?_⟩
  · have hword := List.all_eq_true.1 hwell.name.1.2
    refine ⟨fun hmem => ?_, fun hlast => ?_⟩
    · exact absurd (hword _ hmem) (by decide +kernel)
    · exact absurd (hword _ (List.mem_of_getLast? hlast)) (by decide +kernel)
  · intro schema hschema n hn
    exact ((hwell.schema schema hschema).1.names n hn).lacks.notMem (by decide)
  · obtain ⟨l, hl, hsignature⟩ := hwell.signature_line
    rw [hsignature]
    exact isLine_of_getLast? (fun hmem => hnewline l hl ((trim_isInfix l).subset hmem))
      (getLast?_trimEnd_any _)
  · rw [description_ofHeader]
    cases hs : splitOn '\n' (language.describe (lines source) i) with
    | nil => exact absurd hs (splitOn_ne_nil _ _)
    | cons first rest =>
      have hmem : first ∈ splitOn '\n' (language.describe (lines source) i) := by simp [hs]
      have hfirst : IsLine first :=
        isLine_of_getLast? (notMem_of_mem_splitOn hmem) (language.describe_lineEnds hnewline i first hmem)
      rwa [firstLine_eq hs hfirst]

theorem signature_ofHeader (language : Language) (signature d : Text) (header : Header) :
    (ofHeader language signature d header).signature = signature := by
  cases header <;> rfl

/-- In one language, a signature tells all of a declaration but its documentation. -/
theorem undescribed_eq_of_signature {language : Language} {options options' : ScanOptions}
    {source source' : Text} {d d' : Declaration} (hd : d ∈ extract language options source)
    (hd' : d' ∈ extract language options' source') (h : d.signature = d'.signature) :
    d.undescribed = d'.undescribed := by
  obtain ⟨line, -, -, i, header, hheader, -, rfl⟩ := exists_of_mem_extract hd
  obtain ⟨line', -, -, i', header', hheader', -, rfl⟩ := exists_of_mem_extract hd'
  rw [signature_ofHeader, signature_ofHeader] at h
  rw [← h] at hheader' ⊢
  have hsame : header = header' := by
    have hone := language.length_headers_le (trim line)
    obtain ⟨only, honly⟩ := List.length_eq_one_iff.1
      (Nat.le_antisymm hone (List.length_pos_of_mem hheader))
    rw [honly, List.mem_singleton] at hheader hheader'
    rw [hheader, hheader']
  rw [hsame]
  exact undescribed_ofHeader ..

/-! ## What a listing tells -/

/-- A declaration with the first line of its documentation only. -/
def headlined (d : Declaration) : Declaration := { d with description := firstLine d.description }

theorem headlined_eq {d d' : Declaration} (h : d.undescribed = d'.undescribed)
    (hfirst : firstLine d.description = firstLine d'.description) : d.headlined = d'.headlined := by
  unfold undescribed at h
  unfold headlined
  rw [hfirst]
  simpa using h

/-- A block tells where it ends, and within it the signature and the first line of the documentation. -/
theorem listingLines_append_inj {d d' : Declaration} {rest rest' : List Text}
    (h : d.listingLines ++ rest = d'.listingLines ++ rest') :
    d.signature = d'.signature ∧ firstLine d.description = firstLine d'.description ∧ rest = rest' := by
  -- the first line is not needed: all that it tells stands in the signature too
  injection h with _ h
  by_cases hdoc : d.description = []
  · by_cases hdoc' : d'.description = []
    · simpa [hdoc, hdoc'] using h
    · simp [hdoc, hdoc', detailIndent] at h
  · by_cases hdoc' : d'.description = []
    · simp [hdoc, hdoc', detailIndent] at h
    · simpa [hdoc, hdoc'] using h

/-- Blocks one after another tell their declarations one by one. -/
theorem map_headlined_eq : ∀ {ds ds' : List Declaration},
    (∀ d ∈ ds, ∀ d' ∈ ds', d.signature = d'.signature → d.undescribed = d'.undescribed) →
    ds.flatMap listingLines = ds'.flatMap listingLines → ds.map headlined = ds'.map headlined
  | [], [], _, _ => rfl
  | [], d' :: ds', _, h => by simp [listingLines] at h
  | d :: ds, [], _, h => by simp [listingLines] at h
  | d :: ds, d' :: ds', hsignature, h => by
    rw [List.flatMap_cons, List.flatMap_cons] at h
    obtain ⟨hsame, hfirst, hrest⟩ := listingLines_append_inj h
    have hhead : d.headlined = d'.headlined :=
      headlined_eq (hsignature d (by simp) d' (by simp) hsame) hfirst
    have ih : ds.map headlined = ds'.map headlined := by
      refine map_headlined_eq ?_ hrest
      intro e he e' he'
      exact hsignature e (List.mem_cons_of_mem d he) e' (List.mem_cons_of_mem d' he')
    rw [List.map_cons, List.map_cons, hhead, ih]

/-- A listing without declarations has fewer lines than any other. -/
theorem renderConsole_nil_ne {ds : List Declaration} (hne : ds ≠ [])
    (h : ∀ d ∈ ds, d.Printable) : renderConsole [] ≠ renderConsole ds := by
  intro heq
  have hlines := congrArg (List.length ∘ lines) heq
  have hnil : (lines (renderConsole [])).length = 3 := by decide
  simp only [Function.comp, hnil, lines_renderConsole hne h] at hlines
  cases ds with
  | nil => exact hne rfl
  | cons d ds => simp [listingLines] at hlines

theorem map_headlined_of_renderConsole {ds ds' : List Declaration} (h : ∀ d ∈ ds, d.Printable)
    (h' : ∀ d ∈ ds', d.Printable)
    (hsignature : ∀ d ∈ ds, ∀ d' ∈ ds', d.signature = d'.signature → d.undescribed = d'.undescribed)
    (heq : renderConsole ds = renderConsole ds') : ds.map headlined = ds'.map headlined := by
  by_cases hnil : ds = []
  · by_cases hnil' : ds' = []
    · rw [hnil, hnil']
    · rw [hnil] at heq
      exact absurd heq (renderConsole_nil_ne hnil' h')
  · by_cases hnil' : ds' = []
    · rw [hnil'] at heq
      exact absurd heq.symm (renderConsole_nil_ne hnil h)
    · have hlines := congrArg lines heq
      rw [lines_renderConsole hnil h, lines_renderConsole hnil' h'] at hlines
      injection hlines with _ hlines
      injection hlines with _ hlines
      injection hlines with _ hlines
      exact map_headlined_eq hsignature hlines

/-- **A listing tells the declarations of a source.** Its lines are an empty one, one with their number, an
empty one, and then for each declaration the three or four of its block. Two sources in one language with the
same listing declare the same, but for what follows the first line of each documentation. -/
theorem renderConsole_faithful (language : Language) :
    (∀ (options : ScanOptions) (source : Text), extract language options source ≠ [] →
      ∃ blocks, List.Forall₂ Shows (extract language options source) blocks ∧
        lines (renderConsole (extract language options source)) =
          [[], countLine (extract language options source).length, []] ++ blocks.flatten) ∧
    (∀ (options options' : ScanOptions) (source source' : Text),
      renderConsole (extract language options source) =
        renderConsole (extract language options' source') →
      (extract language options source).map headlined =
        (extract language options' source').map headlined) := by
  constructor
  · intro options source hne
    refine ⟨(extract language options source).map listingLines, ?_, ?_⟩
    · rw [List.forall₂_map_right_iff]
      exact List.forall₂_same.2 fun d _ => shows_listingLines d
    · rw [lines_renderConsole hne fun d hd => printable_of_mem_extract hd, List.flatMap_def]
      rfl
  · intro options options' source source' heq
    refine map_headlined_of_renderConsole (fun d hd => printable_of_mem_extract hd)
      (fun d hd => printable_of_mem_extract hd) ?_ heq
    intro d hd d' hd'
    exact undescribed_eq_of_signature hd hd'

/-- A function and a class, with documentation of two lines that end in different ways. -/
def greetingSource : Text := "def greet(name, age=25):\n  '''Greets\r\n\n  More.\n  '''\n class A:"

/-- The same at the top level with less documentation, and a nested function. -/
def briefSource : Text := "def greet(name, age=25):\n  '''Greets'''\n  def inner(): \nclass A:"

/-- The two are listed in the same way where the nested function does not count. -/
theorem renderConsole_faithful_greeting :
    (∃ blocks, List.Forall₂ Shows (extract .python {} greetingSource) blocks ∧
      lines (renderConsole (extract .python {} greetingSource)) =
        [[], countLine (extract .python {} greetingSource).length, []] ++ blocks.flatten) ∧
    lines (renderConsole (extract .python {} greetingSource)) =
      ["", "  2 declaration(s):", "",
        "  [function] greet(name, age?)", "           at def greet(name, age=25):",
        "           doc: Greets", "",
        "  [class]    A", "           at class A:", ""].map String.toList ∧
    (extract .python {} greetingSource).map headlined =
      (extract .python { topLevelOnly := true } briefSource).map headlined ∧
    (extract .python {} greetingSource).map description ≠
      (extract .python { topLevelOnly := true } briefSource).map description := by
  have hlength : (extract .python {} greetingSource).length = 2 := by decide +kernel
  have hne : extract .python {} greetingSource ≠ [] := by
    intro hnil
    rw [hnil] at hlength
    cases hlength
  refine ⟨(renderConsole_faithful .python).1 {} greetingSource hne, by decide +kernel, ?_, by decide +kernel⟩
  exact (renderConsole_faithful .python).2 {} { topLevelOnly := true } greetingSource briefSource
    (by decide +kernel)

end Declaration

end ToolCatalog
