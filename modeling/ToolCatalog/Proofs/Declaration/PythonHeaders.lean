import ToolCatalog.Proofs.Declaration.Recognisers
import ToolCatalog.Proofs.Declaration.Scanning

/-!
# Python headers

The headers of Python functions and classes as a grammar: a line is a header when it can be written in
a certain way, wherever its parts may end. The recognisers agree with the grammar. Only the parameters
of a function can end in several places, and the recogniser takes the shortest.
-/

namespace ToolCatalog.Header

open Text

/-! ## The grammar -/

/-- What comes after the parameters of a function: a colon, or an arrow and later a colon. -/
inductive PythonResult : Text → Prop
  | colon (w rest : Text) : allBlank w = true → PythonResult (w ++ ":" ++ rest)
  | arrow (w result rest : Text) :
      allBlank w = true → PythonResult (w ++ "->" ++ result ++ ":" ++ rest)

/-- The line is the header of a function with a name and parameters. -/
def PythonFunction (line n params : Text) : Prop :=
  ∃ w w' result, Gap w ∧ Identifier n ∧ allBlank w' = true ∧ PythonResult result ∧
    line = "def" ++ w ++ n ++ w' ++ "(" ++ params ++ ")" ++ result

/-- What comes after the name of a class: a colon, or bases in parentheses and a colon. -/
inductive PythonBases : Text → Prop
  | colon (rest : Text) : PythonBases (":" ++ rest)
  | bases (bases rest : Text) : PythonBases ("(" ++ bases ++ ")" ++ ":" ++ rest)

/-- The line is the header of a class with a name. -/
def PythonClass (line n : Text) : Prop :=
  ∃ w bases, Gap w ∧ Identifier n ∧ PythonBases bases ∧ line = "class" ++ w ++ n ++ bases

/-! ## The recognisers -/

theorem pythonTail_iff {s : Text} : pythonTail s = true ↔ PythonResult s := by
  constructor
  · intro h
    obtain ⟨w, hs, hw⟩ := trimStart_append_blanks s
    unfold pythonTail at h
    split at h
    · rename_i rest htrim
      rw [hs, htrim]
      simpa using PythonResult.colon w rest hw
    · rename_i t htrim
      obtain ⟨result, rest, rfl⟩ := List.append_of_mem (by simpa using h : ':' ∈ t)
      rw [hs, htrim]
      simpa using PythonResult.arrow w result rest hw
    · cases h
  · intro h
    unfold pythonTail
    cases h with
    | colon w rest hw =>
      rw [List.append_assoc, trimStart_blanks hw (by rfl)]
      rfl
    | arrow w result rest hw =>
      rw [List.append_assoc, List.append_assoc, List.append_assoc, trimStart_blanks hw (by rfl)]
      simp

theorem pythonClassTail_iff {s : Text} : pythonClassTail s = true ↔ PythonBases s := by
  constructor
  · intro h
    unfold pythonClassTail at h
    split at h
    · rename_i rest
      exact .colon rest
    · rename_i t
      obtain ⟨bases, rest, rfl⟩ := occursIn_iff_exists.1 h
      simpa using PythonBases.bases bases rest
    · cases h
  · intro h
    cases h with
    | colon rest => rfl
    | bases bases rest =>
      simp only [List.append_assoc]
      exact occursIn_iff_exists.2 ⟨bases, rest, by simp⟩

/-- A function header up to its opening parenthesis, with `t` after it. -/
def PythonOpens (line n t : Text) : Prop := ∃ w s, Gap w ∧ Opens s n t ∧ line = "def" ++ w ++ s

theorem pythonFunction_iff_opens {line n params : Text} :
    PythonFunction line n params ↔
      ∃ tail, pythonTail tail = true ∧ PythonOpens line n (params ++ ")" ++ tail) := by
  constructor
  · rintro ⟨w, w', result, hw, hn, hw', hresult, rfl⟩
    exact ⟨result, pythonTail_iff.2 hresult, w, _, hw, ⟨w', hn, hw', rfl⟩, by simp⟩
  · rintro ⟨tail, htail, w, _, hw, ⟨w', hn, hw', rfl⟩, rfl⟩
    exact ⟨w, w', tail, hw, hn, hw', pythonTail_iff.1 htail, by simp⟩

theorem PythonOpens.afterWord? {line n t : Text} (h : PythonOpens line n t) :
    ∃ s, Header.afterWord? "def" line = some s ∧ Opens s n t := by
  obtain ⟨w, s, hw, hs, rfl⟩ := h
  exact ⟨s, afterWord?_eq_some_iff.2 ⟨w, hw, hs.stops, rfl⟩, hs⟩

theorem PythonOpens.unique {line n t n' t' : Text} (h : PythonOpens line n t)
    (h' : PythonOpens line n' t') : n = n' ∧ t = t' := by
  obtain ⟨s, hs, hopen⟩ := h.afterWord?
  obtain ⟨s', hs', hopen'⟩ := h'.afterWord?
  rw [hs] at hs'
  cases hs'
  exact hopen.unique hopen'

/-- The recogniser of functions finds the name and the shortest parameters of the grammar. -/
theorem pythonFunction?_eq_some_iff {line : Text} {h : Header} :
    pythonFunction? line = some h ↔
      ∃ n p, ShortestForm (PythonFunction line) n p ∧ h = .function n p := by
  have hopens : pythonFunction? line = some h ↔
      ∃ n p, (∃ t, PythonOpens line n t ∧ Shortest (Closes pythonTail t) p) ∧ h = .function n p := by
    rw [pythonFunction?, Option.bind_eq_some_iff]
    constructor
    · rintro ⟨s, hs, hcall⟩
      obtain ⟨n, t, p, hopen, hp, rfl⟩ := callable?_eq_some_iff.1 hcall
      obtain ⟨w, hw, -, rfl⟩ := afterWord?_eq_some_iff.1 hs
      exact ⟨n, p, ⟨t, ⟨w, s, hw, hopen, rfl⟩, hp⟩, rfl⟩
    · rintro ⟨n, p, ⟨t, hopen, hp⟩, rfl⟩
      obtain ⟨s, hs, hopen⟩ := hopen.afterWord?
      exact ⟨s, hs, callable?_eq_some_iff.2 ⟨n, t, p, hopen, hp, rfl⟩⟩
  simp only [hopens, shortest_closes_iff PythonOpens.unique pythonFunction_iff_opens]

example : pythonFunction? "def f(a=(1), b=2) -> g(x):" = some (.function "f" "a=(1), b=2") := by
  decide

/-- The recogniser of classes finds the name of the grammar. -/
theorem pythonClass?_eq_some_iff {line : Text} {h : Header} :
    pythonClass? line = some h ↔ ∃ n, PythonClass line n ∧ h = .classDef n := by
  simp only [pythonClass?, Option.bind_eq_some_iff, Prod.exists]
  constructor
  · rintro ⟨s, hs, n, tail, hname, htail⟩
    obtain ⟨w, hw, -, rfl⟩ := afterWord?_eq_some_iff.1 hs
    obtain ⟨hn, -, rfl⟩ := name?_eq_some_iff.1 hname
    split at htail
    · rename_i hbases
      cases htail
      exact ⟨n, ⟨w, tail, hw, hn, pythonClassTail_iff.1 hbases, by simp⟩, rfl⟩
    · cases htail
  · rintro ⟨n, ⟨w, tail, hw, hn, hbases, rfl⟩, rfl⟩
    have hstop : Stops isWord tail := by cases hbases <;> rfl
    refine ⟨n ++ tail, afterWord?_eq_some_iff.2 ⟨w, hw, hn.stops, by simp⟩, n, tail,
      name?_eq_some_iff.2 ⟨hn, hstop, rfl⟩, ?_⟩
    rw [if_pos (pythonClassTail_iff.2 hbases)]

/-! ## The parts of a header -/

theorem PythonFunction.name_unique {line n p n' p' : Text} (h : PythonFunction line n p)
    (h' : PythonFunction line n' p') : n = n' := by
  obtain ⟨_, -, hopen⟩ := pythonFunction_iff_opens.1 h
  obtain ⟨_, -, hopen'⟩ := pythonFunction_iff_opens.1 h'
  exact (hopen.unique hopen').1

theorem PythonClass.name_unique {line n n' : Text} (h : PythonClass line n)
    (h' : PythonClass line n') : n = n' := by
  have hn := pythonClass?_eq_some_iff.2 ⟨n, h, rfl⟩
  rw [pythonClass?_eq_some_iff.2 ⟨n', h', rfl⟩] at hn
  cases hn
  rfl

/-- A header of a function is none of a class. -/
theorem PythonFunction.not_class {line n p m : Text} (h : PythonFunction line n p) :
    ¬ PythonClass line m := by
  obtain ⟨w, w', result, -, -, -, -, rfl⟩ := h
  rintro ⟨v, bases, -, -, -, heq⟩
  simp at heq

/-- A line with the form of a function header is one to the recogniser, with the same name. -/
theorem PythonFunction.recognised {line n p : Text} (h : PythonFunction line n p) :
    ∃ q, pythonFunction? line = some (.function n q) := by
  obtain ⟨q, hq⟩ := ShortestForm.exists h fun _ _ h' => h'.name_unique h
  exact ⟨q, pythonFunction?_eq_some_iff.2 ⟨n, q, hq, rfl⟩⟩

theorem mem_headers_python {line : Text} {h : Header} :
    h ∈ Language.headers .python line ↔ pythonFunction? line = some h ∨ pythonClass? line = some h := by
  simp [Language.headers]

theorem length_headers_python (line : Text) : (Language.headers .python line).length ≤ 1 := by
  simp only [Language.headers]
  cases hf : pythonFunction? line with
  | none => cases pythonClass? line <;> simp
  | some h =>
    obtain ⟨n, p, ⟨hform, -⟩, -⟩ := pythonFunction?_eq_some_iff.1 hf
    have hc : pythonClass? line = none := by
      rw [Option.eq_none_iff_forall_ne_some]
      intro h' hc
      obtain ⟨m, hclass, -⟩ := pythonClass?_eq_some_iff.1 hc
      exact hform.not_class hclass
    simp [hc]

end ToolCatalog.Header

namespace ToolCatalog.Declaration

open Text Header

/-- A line that is the header of a function or a class with a public name. -/
def PythonHeader (line : Text) : Prop :=
  ∃ n, n.head? ≠ some '_' ∧ ((∃ params, PythonFunction line n params) ∨ PythonClass line n)

/-- What the header at a place declares: its name, the line itself, the documentation that begins on the
next line, and for a function the shortest parameters of all ways to write the line as a header. -/
inductive PythonDeclares (lines : List Text) (i : Nat) (line : Text) : Declaration → Prop
  | function (n params : Text) :
      ShortestForm (PythonFunction line) n params →
      n.head? ≠ some '_' →
      PythonDeclares lines i line
        { name := n, kind := .function, signature := line,
          description := Doc.docstring lines (i + 1),
          parameters := some (ParameterList.python params).schema,
          required := (ParameterList.python params).required }
  | classDef (n : Text) :
      PythonClass line n →
      n.head? ≠ some '_' →
      PythonDeclares lines i line
        { name := n, kind := .classDef, signature := line,
          description := Doc.docstring lines (i + 1), parameters := none, required := [] }

theorem pythonHeader_iff {line : Text} :
    PythonHeader line ↔ ∃ h ∈ Language.headers .python line, h.isPublic = true := by
  constructor
  · rintro ⟨n, hpub, ⟨p, hfun⟩ | hclass⟩
    · obtain ⟨q, hq⟩ := hfun.recognised
      exact ⟨_, mem_headers_python.2 (.inl hq), isPublic_iff.2 hpub⟩
    · have hc := pythonClass?_eq_some_iff.2 ⟨n, hclass, rfl⟩
      exact ⟨_, mem_headers_python.2 (.inr hc), isPublic_iff.2 hpub⟩
  · rintro ⟨h, hmem, hpub⟩
    rcases mem_headers_python.1 hmem with hf | hc
    · obtain ⟨n, p, hfun, rfl⟩ := pythonFunction?_eq_some_iff.1 hf
      exact ⟨n, isPublic_iff.1 hpub, .inl ⟨p, hfun.1⟩⟩
    · obtain ⟨n, hclass, rfl⟩ := pythonClass?_eq_some_iff.1 hc
      exact ⟨n, isPublic_iff.1 hpub, .inr hclass⟩

instance (line : Text) : Decidable (PythonHeader line) := decidable_of_iff _ pythonHeader_iff.symm

theorem pythonDeclares_ofHeader {lines : List Text} {i : Nat} {line : Text} {h : Header}
    (hmem : h ∈ Language.headers .python line) (hpub : h.isPublic = true) :
    PythonDeclares lines i line
      (ofHeader .python line (Language.describe .python lines i) h) := by
  rcases mem_headers_python.1 hmem with hf | hc
  · obtain ⟨n, p, hfun, rfl⟩ := pythonFunction?_eq_some_iff.1 hf
    exact .function n p hfun (isPublic_iff.1 hpub)
  · obtain ⟨n, hclass, rfl⟩ := pythonClass?_eq_some_iff.1 hc
    exact .classDef n hclass (isPublic_iff.1 hpub)

/-- A line declares one thing at most. -/
theorem PythonDeclares.unique {lines : List Text} {i : Nat} {line : Text} {d d' : Declaration}
    (h : PythonDeclares lines i line d) (h' : PythonDeclares lines i line d') : d = d' := by
  cases h with
  | function n p hfun =>
    cases h' with
    | function n' p' hfun' =>
      have hp := pythonFunction?_eq_some_iff.2 ⟨n, p, hfun, rfl⟩
      rw [pythonFunction?_eq_some_iff.2 ⟨n', p', hfun', rfl⟩] at hp
      cases hp
      rfl
    | classDef n' hclass => exact absurd hclass hfun.1.not_class
  | classDef n hclass =>
    cases h' with
    | function n' p' hfun' => exact absurd hclass hfun'.1.not_class
    | classDef n' hclass' => rw [hclass.name_unique hclass']

/-- **Python declarations.** A Python source gives one declaration for each line in scope that is a
public header by the grammar, in order; the two kinds of header exclude each other, and each header has
one name and makes one declaration. -/
theorem scansTo_extract_python (options : ScanOptions) (source : Text) :
    ScansTo options (lines source) PythonHeader (PythonDeclares (lines source))
      (extract .python options source) ∧
    (∀ line n params m, PythonFunction line n params → ¬ PythonClass line m) ∧
    (∀ line n params n' params', PythonFunction line n params → PythonFunction line n' params' →
      n = n') ∧
    (∀ line n n', PythonClass line n → PythonClass line n' → n = n') ∧
    (∀ i line d d', PythonDeclares (lines source) i line d → PythonDeclares (lines source) i line d' →
      d = d') := by
  refine ⟨?_, ?_, ?_, ?_, ?_⟩
  · refine scansTo_extract options source length_headers_python rfl ?_ ?_
    · intro line
      exact pythonHeader_iff
    · intro i line h hmem hpub
      exact pythonDeclares_ofHeader hmem hpub
  · intro line n params m h
    exact h.not_class
  · intro line n params n' params' h h'
    exact h.name_unique h'
  · intro line n n' h h'
    exact h.name_unique h'
  · intro i line d d' h h'
    exact h.unique h'

end ToolCatalog.Declaration
