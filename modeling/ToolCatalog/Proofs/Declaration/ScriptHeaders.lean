import ToolCatalog.Proofs.Declaration.Recognisers
import ToolCatalog.Proofs.Declaration.Scanning

/-!
# JavaScript and TypeScript headers

The headers of functions, of constants that hold arrow functions, and of classes as a grammar, with
the words that may be left out. The three recognisers are tried independently, but what stands after
an optional `export` tells them apart (`ScriptFunction.lead`, `ScriptArrow.lead`, `ScriptClass.lead`),
so no line is two headers.
-/

namespace ToolCatalog.Header

open Text

/-! ## The grammar -/

/-- The line is the header of a function with a name and parameters. -/
def ScriptFunction (line n params : Text) : Prop :=
  ∃ a b w w' rest, Optionally "export" line a ∧ Optionally "async" a b ∧ Gap w ∧ Identifier n ∧
    allBlank w' = true ∧ b = "function" ++ w ++ n ++ w' ++ "(" ++ params ++ ")" ++ rest

/-- What comes after the parameters of an arrow function: an arrow, or a colon and later an arrow. -/
inductive ArrowResult : Text → Prop
  | arrow (w rest : Text) : allBlank w = true → ArrowResult (w ++ "=>" ++ rest)
  | typed (w type rest : Text) : allBlank w = true → ArrowResult (w ++ ":" ++ type ++ "=>" ++ rest)

/-- The line is the header of a constant with a name that holds an arrow function with parameters. -/
def ScriptArrow (line n params : Text) : Prop :=
  ∃ a w w₁ w₂ s result, Optionally "export" line a ∧ Gap w ∧ Identifier n ∧ allBlank w₁ = true ∧
    allBlank w₂ = true ∧ Optionally "async" s ("(" ++ params ++ ")" ++ result) ∧
    ArrowResult result ∧ a = "const" ++ w ++ n ++ w₁ ++ "=" ++ w₂ ++ s

/-- The line is the header of a class with a name, which is as long as word characters go on. -/
def ScriptClass (line n : Text) : Prop :=
  ∃ a b w rest, Optionally "export" line a ∧ Optionally "abstract" a b ∧ Gap w ∧ Identifier n ∧
    Stops isWord rest ∧ b = "class" ++ w ++ n ++ rest

/-! ## Functions -/

/-- A function header up to its opening parenthesis, with `t` after it. -/
def ScriptOpens (line n t : Text) : Prop :=
  ∃ a b w s, Optionally "export" line a ∧ Optionally "async" a b ∧ Gap w ∧ Opens s n t ∧
    b = "function" ++ w ++ s

/-- Whatever stands after the closing parenthesis is accepted. -/
theorem scriptFunction_iff_opens {line n params : Text} :
    ScriptFunction line n params ↔ ∃ tail, true = true ∧ ScriptOpens line n (params ++ ")" ++ tail) := by
  constructor
  · rintro ⟨a, b, w, w', rest, ha, hb, hw, hn, hw', rfl⟩
    exact ⟨rest, rfl, a, _, w, _, ha, hb, hw, ⟨w', hn, hw', rfl⟩, by simp⟩
  · rintro ⟨rest, -, a, b, w, _, ha, hb, hw, ⟨w', hn, hw', rfl⟩, rfl⟩
    exact ⟨a, _, w, w', rest, ha, hb, hw, hn, hw', by simp⟩

/-- Where `function` stands, with or without a word before it, both optional words have been passed
over. -/
theorem skipWord_export_async {line a r : Text} (ha : Optionally "export" line a)
    (hb : Optionally "async" a ("function" ++ r)) :
    skipWord "export" line = a ∧ skipWord "async" a = "function" ++ r :=
  skipWord_twice (by rfl) (by rfl) (by rfl) (fun _ => ⟨rfl, rfl⟩) ha hb

theorem ScriptOpens.afterWord? {line n t : Text} (h : ScriptOpens line n t) :
    ∃ s, Header.afterWord? "function" (skipWord "async" (skipWord "export" line)) = some s ∧
      Opens s n t := by
  obtain ⟨a, b, w, s, ha, hb, hw, hs, rfl⟩ := h
  rw [List.append_assoc] at hb
  obtain ⟨hexport, hasync⟩ := skipWord_export_async ha hb
  rw [hexport, hasync]
  exact ⟨s, afterWord?_eq_some_iff.2 ⟨w, hw, hs.stops, by simp⟩, hs⟩

theorem ScriptOpens.unique {line n t n' t' : Text} (h : ScriptOpens line n t)
    (h' : ScriptOpens line n' t') : n = n' ∧ t = t' := by
  obtain ⟨s, hs, hopen⟩ := h.afterWord?
  obtain ⟨s', hs', hopen'⟩ := h'.afterWord?
  rw [hs] at hs'
  cases hs'
  exact hopen.unique hopen'

/-- The recogniser of functions finds the name and the shortest parameters of the grammar. -/
theorem scriptFunction?_eq_some_iff {line : Text} {h : Header} :
    scriptFunction? line = some h ↔
      ∃ n p, ShortestForm (ScriptFunction line) n p ∧ h = .function n p := by
  have hopens : scriptFunction? line = some h ↔
      ∃ n p, (∃ t, ScriptOpens line n t ∧ Shortest (Closes (fun _ => true) t) p) ∧
        h = .function n p := by
    rw [scriptFunction?, Option.bind_eq_some_iff]
    constructor
    · rintro ⟨s, hs, hcall⟩
      obtain ⟨n, t, p, hopen, hp, rfl⟩ := callable?_eq_some_iff.1 hcall
      obtain ⟨w, hw, -, hb⟩ := afterWord?_eq_some_iff.1 hs
      refine ⟨n, p, ⟨t, ⟨_, _, w, s, optionally_skipWord _ _, optionally_skipWord _ _, hw, hopen, hb⟩,
        hp⟩, rfl⟩
    · rintro ⟨n, p, ⟨t, hopen, hp⟩, rfl⟩
      obtain ⟨s, hs, hopen⟩ := hopen.afterWord?
      exact ⟨s, hs, callable?_eq_some_iff.2 ⟨n, t, p, hopen, hp, rfl⟩⟩
  simp only [hopens, shortest_closes_iff ScriptOpens.unique scriptFunction_iff_opens]

/-- The shortest parameters of a function end before the first closing parenthesis. -/
theorem ScriptFunction.shortest_iff {line n p : Text} (h : ScriptFunction line n p) :
    ShortestForm (ScriptFunction line) n p ↔ ')' ∉ p := by
  constructor
  · rintro ⟨-, hmin⟩ hmem
    obtain ⟨q, r, rfl⟩ := List.append_of_mem hmem
    obtain ⟨a, b, w, w', rest, ha, hb, hw, hn, hw', rfl⟩ := h
    have hshort : ScriptFunction line n q :=
      ⟨a, _, w, w', r ++ ")" ++ rest, ha, hb, hw, hn, hw', by simp⟩
    have hle := hmin n q hshort
    rw [List.length_append, List.length_cons] at hle
    omega
  · exact shortestForm_of_notMem ScriptOpens.unique scriptFunction_iff_opens h

/-! ## Arrow functions -/

theorem arrowTail_iff {s : Text} : arrowTail s = true ↔ ArrowResult s := by
  constructor
  · intro h
    obtain ⟨w, hs, hw⟩ := trimStart_append_blanks s
    unfold arrowTail at h
    split at h
    · rename_i rest htrim
      rw [hs, htrim]
      simpa using ArrowResult.arrow w rest hw
    · rename_i t htrim
      obtain ⟨type, rest, rfl⟩ := occursIn_iff_exists.1 h
      rw [hs, htrim]
      simpa using ArrowResult.typed w type rest hw
    · cases h
  · intro h
    unfold arrowTail
    cases h with
    | arrow w rest hw =>
      rw [List.append_assoc, trimStart_blanks hw (by rfl)]
      rfl
    | typed w type rest hw =>
      rw [List.append_assoc, List.append_assoc, List.append_assoc, trimStart_blanks hw (by rfl)]
      exact occursIn_iff_exists.2 ⟨type, rest, by simp⟩

/-- The header of an arrow function up to its opening parenthesis, with `t` after it. -/
def ArrowOpens (line n t : Text) : Prop :=
  ∃ a w w₁ w₂ s, Optionally "export" line a ∧ Gap w ∧ Identifier n ∧ allBlank w₁ = true ∧
    allBlank w₂ = true ∧ Optionally "async" s ("(" ++ t) ∧ a = "const" ++ w ++ n ++ w₁ ++ "=" ++ w₂ ++ s

theorem scriptArrow_iff_opens {line n params : Text} :
    ScriptArrow line n params ↔
      ∃ tail, arrowTail tail = true ∧ ArrowOpens line n (params ++ ")" ++ tail) := by
  constructor
  · rintro ⟨a, w, w₁, w₂, s, result, ha, hw, hn, hw₁, hw₂, hs, hresult, rfl⟩
    exact ⟨result, arrowTail_iff.2 hresult, _, w, w₁, w₂, s, ha, hw, hn, hw₁, hw₂, by simpa using hs, rfl⟩
  · rintro ⟨tail, htail, a, w, w₁, w₂, s, ha, hw, hn, hw₁, hw₂, hs, rfl⟩
    exact ⟨_, w, w₁, w₂, s, tail, ha, hw, hn, hw₁, hw₂, by simpa using hs, arrowTail_iff.1 htail, rfl⟩

/-- The steps of the recogniser up to the opening parenthesis: the constant, its name, the equals sign,
and the parenthesis after an optional word. -/
theorem arrowOpens_iff {line n t : Text} :
    ArrowOpens line n t ↔
      ∃ s r u, afterWord? "const" (skipWord "export" line) = some s ∧ name? s = some (n, r) ∧
        after? "=" (trimStart r) = some u ∧
        after? "(" (skipWord "async" (trimStart u)) = some t := by
  constructor
  · rintro ⟨a, w, w₁, w₂, s, ha, hw, hn, hw₁, hw₂, hs, rfl⟩
    have hstop : Stops isBlank s := by
      rcases hs with rfl | ⟨v, -, rfl⟩ <;> rfl
    have hexport : skipWord "export" line = "const" ++ w ++ (n ++ (w₁ ++ ("=" ++ (w₂ ++ s)))) := by
      have hskip := skipWord_of_optionally (by rfl) (by rfl) ha
      rw [hskip]
      simp
    -- the name is as long as it can be, since a blank or the equals sign comes after it
    have hword : Stops isWord (w₁ ++ ("=" ++ (w₂ ++ s))) := stops_word_of_blank hw₁ (by rfl)
    refine ⟨n ++ (w₁ ++ ("=" ++ (w₂ ++ s))), w₁ ++ ("=" ++ (w₂ ++ s)), w₂ ++ s, ?_, ?_, ?_, ?_⟩
    · rw [hexport]
      exact afterWord?_eq_some_iff.2 ⟨w, hw, hn.stops, rfl⟩
    · exact name?_eq_some_iff.2 ⟨hn, hword, rfl⟩
    · rw [trimStart_blanks hw₁ (by rfl), after?_append]
    · rw [trimStart_blanks hw₂ hstop, skipWord_of_optionally (by rfl) (by rfl) hs, after?_append]
  · rintro ⟨s, r, u, hs, hname, hequals, hparen⟩
    obtain ⟨w, hw, -, hconst⟩ := afterWord?_eq_some_iff.1 hs
    obtain ⟨hn, -, rfl⟩ := name?_eq_some_iff.1 hname
    obtain ⟨w₁, hr, hw₁⟩ := trimStart_append_blanks r
    obtain ⟨w₂, hu, hw₂⟩ := trimStart_append_blanks u
    rw [after?_eq_some_iff.1 hequals] at hr
    have hasync := optionally_skipWord "async" (trimStart u)
    rw [after?_eq_some_iff.1 hparen] at hasync
    refine ⟨_, w, w₁, w₂, trimStart u, optionally_skipWord _ _, hw, hn, hw₁, hw₂, hasync, ?_⟩
    rw [hconst, hr]
    nth_rewrite 1 [hu]
    simp

theorem ArrowOpens.unique {line n t n' t' : Text} (h : ArrowOpens line n t)
    (h' : ArrowOpens line n' t') : n = n' ∧ t = t' := by
  obtain ⟨s, r, u, hs, hname, hequals, hparen⟩ := arrowOpens_iff.1 h
  obtain ⟨s', r', u', hs', hname', hequals', hparen'⟩ := arrowOpens_iff.1 h'
  rw [hs] at hs'
  cases hs'
  rw [hname] at hname'
  cases hname'
  rw [hequals] at hequals'
  cases hequals'
  rw [hparen] at hparen'
  cases hparen'
  exact ⟨rfl, rfl⟩

/-- The recogniser of arrow functions finds the name and the shortest parameters of the grammar. -/
theorem scriptArrow?_eq_some_iff {line : Text} {h : Header} :
    scriptArrow? line = some h ↔
      ∃ n p, ShortestForm (ScriptArrow line) n p ∧ h = .function n p := by
  have hopens : scriptArrow? line = some h ↔
      ∃ n p, (∃ t, ArrowOpens line n t ∧ Shortest (Closes arrowTail t) p) ∧ h = .function n p := by
    constructor
    · intro hs
      unfold scriptArrow? at hs
      split at hs
      · cases hs
      · rename_i s hconst
        split at hs
        · cases hs
        · rename_i n r hname
          split at hs
          · cases hs
          · rename_i u hequals
            split at hs
            · cases hs
            · rename_i t hparen
              obtain ⟨p, hp, rfl⟩ := Option.map_eq_some_iff.1 hs
              exact ⟨n, p, ⟨t, arrowOpens_iff.2 ⟨s, r, u, hconst, hname, hequals, hparen⟩,
                upToParen?_eq_some_iff.1 hp⟩, rfl⟩
    · rintro ⟨n, p, ⟨t, hopen, hp⟩, rfl⟩
      obtain ⟨s, r, u, hconst, hname, hequals, hparen⟩ := arrowOpens_iff.1 hopen
      unfold scriptArrow?
      simp only [hconst, hname, hequals, hparen]
      rw [upToParen?_eq_some_iff.2 hp, Option.map_some]
  simp only [hopens, shortest_closes_iff ArrowOpens.unique scriptArrow_iff_opens]

/-! ## Classes -/

theorem skipWord_export_abstract {line a r : Text} (ha : Optionally "export" line a)
    (hb : Optionally "abstract" a ("class" ++ r)) :
    skipWord "export" line = a ∧ skipWord "abstract" a = "class" ++ r :=
  skipWord_twice (by rfl) (by rfl) (by rfl) (fun _ => ⟨rfl, rfl⟩) ha hb

/-- The recogniser of classes finds the name of the grammar. -/
theorem scriptClass?_eq_some_iff {line : Text} {h : Header} :
    scriptClass? line = some h ↔ ∃ n, ScriptClass line n ∧ h = .classDef n := by
  simp only [scriptClass?, Option.bind_eq_some_iff, Option.map_eq_some_iff, Prod.exists]
  constructor
  · rintro ⟨s, hs, n, rest, hname, rfl⟩
    obtain ⟨w, hw, -, hb⟩ := afterWord?_eq_some_iff.1 hs
    obtain ⟨hn, hrest, rfl⟩ := name?_eq_some_iff.1 hname
    refine ⟨n, ⟨_, _, w, rest, optionally_skipWord _ _, optionally_skipWord _ _, hw, hn, hrest, ?_⟩, rfl⟩
    rw [hb]
    simp
  · rintro ⟨n, ⟨a, b, w, rest, ha, hb, hw, hn, hrest, rfl⟩, rfl⟩
    rw [List.append_assoc, List.append_assoc] at hb
    obtain ⟨hexport, habstract⟩ := skipWord_export_abstract ha hb
    rw [hexport, habstract]
    exact ⟨n ++ rest, afterWord?_eq_some_iff.2 ⟨w, hw, hn.stops, by simp⟩, n, rest,
      name?_eq_some_iff.2 ⟨hn, hrest, rfl⟩, rfl⟩

/-! ## No line is two headers -/

/-- The first two characters after an optional `export`. -/
def lead (line : Text) : Text := (skipWord "export" line).take 2

theorem ScriptFunction.lead {line n p : Text} (h : ScriptFunction line n p) :
    Header.lead line = "as" ∨ Header.lead line = "fu" := by
  obtain ⟨a, b, w, w', rest, ha, hb, -, -, -, rfl⟩ := h
  simp only [List.append_assoc] at hb
  unfold Header.lead
  rw [(skipWord_export_async ha hb).1]
  rcases hb with rfl | ⟨v, -, rfl⟩
  · exact .inr rfl
  · exact .inl rfl

theorem ScriptArrow.lead {line n p : Text} (h : ScriptArrow line n p) : Header.lead line = "co" := by
  obtain ⟨a, w, w₁, w₂, s, result, ha, -, -, -, -, -, -, rfl⟩ := h
  unfold Header.lead
  rw [skipWord_of_optionally (by rfl) (by rfl) ha]
  rfl

theorem ScriptClass.lead {line n : Text} (h : ScriptClass line n) :
    Header.lead line = "ab" ∨ Header.lead line = "cl" := by
  obtain ⟨a, b, w, rest, ha, hb, -, -, -, rfl⟩ := h
  simp only [List.append_assoc] at hb
  unfold Header.lead
  rw [(skipWord_export_abstract ha hb).1]
  rcases hb with rfl | ⟨v, -, rfl⟩
  · exact .inr rfl
  · exact .inl rfl

theorem ScriptFunction.not_arrow {line n p m q : Text} (h : ScriptFunction line n p) :
    ¬ ScriptArrow line m q := by
  intro h'
  rcases h.lead with hl | hl
  · rw [h'.lead] at hl; revert hl; decide
  · rw [h'.lead] at hl; revert hl; decide

theorem ScriptFunction.not_class {line n p m : Text} (h : ScriptFunction line n p) :
    ¬ ScriptClass line m := by
  intro h'
  rcases h.lead with hl | hl <;> rcases h'.lead with hl' | hl' <;>
    (rw [hl] at hl'; revert hl'; decide)

theorem ScriptArrow.not_class {line n p m : Text} (h : ScriptArrow line n p) :
    ¬ ScriptClass line m := by
  intro h'
  rcases h'.lead with hl | hl
  · rw [h.lead] at hl; revert hl; decide
  · rw [h.lead] at hl; revert hl; decide

/-! ## The parts of a header -/

theorem ScriptFunction.name_unique {line n p n' p' : Text} (h : ScriptFunction line n p)
    (h' : ScriptFunction line n' p') : n = n' := by
  obtain ⟨_, -, hopen⟩ := scriptFunction_iff_opens.1 h
  obtain ⟨_, -, hopen'⟩ := scriptFunction_iff_opens.1 h'
  exact (hopen.unique hopen').1

theorem ScriptArrow.name_unique {line n p n' p' : Text} (h : ScriptArrow line n p)
    (h' : ScriptArrow line n' p') : n = n' := by
  obtain ⟨_, -, hopen⟩ := scriptArrow_iff_opens.1 h
  obtain ⟨_, -, hopen'⟩ := scriptArrow_iff_opens.1 h'
  exact (hopen.unique hopen').1

theorem ScriptClass.name_unique {line n n' : Text} (h : ScriptClass line n)
    (h' : ScriptClass line n') : n = n' := by
  have hn := scriptClass?_eq_some_iff.2 ⟨n, h, rfl⟩
  rw [scriptClass?_eq_some_iff.2 ⟨n', h', rfl⟩] at hn
  cases hn
  rfl

theorem ScriptFunction.recognised {line n p : Text} (h : ScriptFunction line n p) :
    ∃ q, scriptFunction? line = some (.function n q) := by
  obtain ⟨q, hq⟩ := ShortestForm.exists h fun _ _ h' => h'.name_unique h
  exact ⟨q, scriptFunction?_eq_some_iff.2 ⟨n, q, hq, rfl⟩⟩

theorem ScriptArrow.recognised {line n p : Text} (h : ScriptArrow line n p) :
    ∃ q, scriptArrow? line = some (.function n q) := by
  obtain ⟨q, hq⟩ := ShortestForm.exists h fun _ _ h' => h'.name_unique h
  exact ⟨q, scriptArrow?_eq_some_iff.2 ⟨n, q, hq, rfl⟩⟩

theorem mem_headers_script {line : Text} {h : Header} :
    h ∈ Language.headers .typescript line ↔
      scriptFunction? line = some h ∨ scriptArrow? line = some h ∨ scriptClass? line = some h := by
  simp [Language.headers]

theorem length_headers_script (line : Text) : (Language.headers .typescript line).length ≤ 1 := by
  have hfa : ∀ h h', scriptFunction? line = some h → scriptArrow? line ≠ some h' := by
    intro h h' hf ha
    obtain ⟨_, _, hfun, -⟩ := scriptFunction?_eq_some_iff.1 hf
    obtain ⟨_, _, harrow, -⟩ := scriptArrow?_eq_some_iff.1 ha
    exact hfun.1.not_arrow harrow.1
  have hfc : ∀ h h', scriptFunction? line = some h → scriptClass? line ≠ some h' := by
    intro h h' hf hc
    obtain ⟨_, _, hfun, -⟩ := scriptFunction?_eq_some_iff.1 hf
    obtain ⟨_, hclass, -⟩ := scriptClass?_eq_some_iff.1 hc
    exact hfun.1.not_class hclass
  have hac : ∀ h h', scriptArrow? line = some h → scriptClass? line ≠ some h' := by
    intro h h' ha hc
    obtain ⟨_, _, harrow, -⟩ := scriptArrow?_eq_some_iff.1 ha
    obtain ⟨_, hclass, -⟩ := scriptClass?_eq_some_iff.1 hc
    exact harrow.1.not_class hclass
  simp only [Language.headers]
  cases hf : scriptFunction? line with
  | some h =>
    have ha := Option.eq_none_iff_forall_ne_some.2 fun h' => hfa h h' hf
    have hc := Option.eq_none_iff_forall_ne_some.2 fun h' => hfc h h' hf
    simp [ha, hc]
  | none =>
    cases ha : scriptArrow? line with
    | some h =>
      have hc := Option.eq_none_iff_forall_ne_some.2 fun h' => hac h h' ha
      simp [hc]
    | none => cases scriptClass? line <;> simp

end ToolCatalog.Header

namespace ToolCatalog.Declaration

open Text Header

/-- A line that is a header of one of the three forms with a public name. -/
def ScriptHeader (line : Text) : Prop :=
  ∃ n, n.head? ≠ some '_' ∧
    ((∃ params, ScriptFunction line n params) ∨ (∃ params, ScriptArrow line n params) ∨
      ScriptClass line n)

/-- What the header at a place declares: its name, the line itself, the comment above it, and for the two
forms with parameters the shortest parameters of all ways to write the line in that form. -/
inductive ScriptDeclares (lines : List Text) (i : Nat) (line : Text) : Declaration → Prop
  | callable (n params : Text) :
      ShortestForm (ScriptFunction line) n params ∨ ShortestForm (ScriptArrow line) n params →
      n.head? ≠ some '_' →
      ScriptDeclares lines i line
        { name := n, kind := .function, signature := line,
          description := Doc.blockComment lines i,
          parameters := some (ParameterList.script params).schema,
          required := (ParameterList.script params).required }
  | classDef (n : Text) :
      ScriptClass line n →
      n.head? ≠ some '_' →
      ScriptDeclares lines i line
        { name := n, kind := .classDef, signature := line,
          description := Doc.blockComment lines i, parameters := none, required := [] }

theorem scriptHeader_iff {line : Text} :
    ScriptHeader line ↔ ∃ h ∈ Language.headers .typescript line, h.isPublic = true := by
  constructor
  · rintro ⟨n, hpub, ⟨p, hfun⟩ | ⟨p, harrow⟩ | hclass⟩
    · obtain ⟨q, hq⟩ := hfun.recognised
      exact ⟨_, mem_headers_script.2 (.inl hq), isPublic_iff.2 hpub⟩
    · obtain ⟨q, hq⟩ := harrow.recognised
      exact ⟨_, mem_headers_script.2 (.inr (.inl hq)), isPublic_iff.2 hpub⟩
    · have hc := scriptClass?_eq_some_iff.2 ⟨n, hclass, rfl⟩
      exact ⟨_, mem_headers_script.2 (.inr (.inr hc)), isPublic_iff.2 hpub⟩
  · rintro ⟨h, hmem, hpub⟩
    rcases mem_headers_script.1 hmem with hf | ha | hc
    · obtain ⟨n, p, hfun, rfl⟩ := scriptFunction?_eq_some_iff.1 hf
      exact ⟨n, isPublic_iff.1 hpub, .inl ⟨p, hfun.1⟩⟩
    · obtain ⟨n, p, harrow, rfl⟩ := scriptArrow?_eq_some_iff.1 ha
      exact ⟨n, isPublic_iff.1 hpub, .inr (.inl ⟨p, harrow.1⟩)⟩
    · obtain ⟨n, hclass, rfl⟩ := scriptClass?_eq_some_iff.1 hc
      exact ⟨n, isPublic_iff.1 hpub, .inr (.inr hclass)⟩

theorem scriptDeclares_ofHeader {lines : List Text} {i : Nat} {line : Text} {h : Header}
    (hmem : h ∈ Language.headers .typescript line) (hpub : h.isPublic = true) :
    ScriptDeclares lines i line
      (ofHeader .typescript line (Language.describe .typescript lines i) h) := by
  rcases mem_headers_script.1 hmem with hf | ha | hc
  · obtain ⟨n, p, hfun, rfl⟩ := scriptFunction?_eq_some_iff.1 hf
    exact .callable n p (.inl hfun) (isPublic_iff.1 hpub)
  · obtain ⟨n, p, harrow, rfl⟩ := scriptArrow?_eq_some_iff.1 ha
    exact .callable n p (.inr harrow) (isPublic_iff.1 hpub)
  · obtain ⟨n, hclass, rfl⟩ := scriptClass?_eq_some_iff.1 hc
    exact .classDef n hclass (isPublic_iff.1 hpub)

/-- A line declares one thing at most. -/
theorem ScriptDeclares.unique {lines : List Text} {i : Nat} {line : Text} {d d' : Declaration}
    (h : ScriptDeclares lines i line d) (h' : ScriptDeclares lines i line d') : d = d' := by
  cases h with
  | callable n p hform =>
    cases h' with
    | callable n' p' hform' =>
      rcases hform with hfun | harrow <;> rcases hform' with hfun' | harrow'
      · have hp := scriptFunction?_eq_some_iff.2 ⟨n, p, hfun, rfl⟩
        rw [scriptFunction?_eq_some_iff.2 ⟨n', p', hfun', rfl⟩] at hp
        cases hp
        rfl
      · exact absurd harrow'.1 hfun.1.not_arrow
      · exact absurd harrow.1 hfun'.1.not_arrow
      · have hp := scriptArrow?_eq_some_iff.2 ⟨n, p, harrow, rfl⟩
        rw [scriptArrow?_eq_some_iff.2 ⟨n', p', harrow', rfl⟩] at hp
        cases hp
        rfl
    | classDef n' hclass =>
      rcases hform with hfun | harrow
      · exact absurd hclass hfun.1.not_class
      · exact absurd hclass harrow.1.not_class
  | classDef n hclass =>
    cases h' with
    | callable n' p' hform' =>
      rcases hform' with hfun | harrow
      · exact absurd hclass hfun.1.not_class
      · exact absurd hclass harrow.1.not_class
    | classDef n' hclass' => rw [hclass.name_unique hclass']

/-- **JavaScript and TypeScript declarations.** A source gives one declaration for each line in scope that
is a public header by the grammar, in order, whichever of the two languages it is read as. No line has
two of the three forms, each header makes one declaration, and the parameters of the first form end
before the first closing parenthesis. -/
theorem scansTo_extract_script (options : ScanOptions) (source : Text) :
    ScansTo options (lines source) ScriptHeader (ScriptDeclares (lines source))
      (extract .typescript options source) ∧
    extract .javascript options source = extract .typescript options source ∧
    (∀ line n params m params', ScriptFunction line n params → ¬ ScriptArrow line m params') ∧
    (∀ line n params m, ScriptFunction line n params → ¬ ScriptClass line m) ∧
    (∀ line n params m, ScriptArrow line n params → ¬ ScriptClass line m) ∧
    (∀ line n params, ScriptFunction line n params →
      (ShortestForm (ScriptFunction line) n params ↔ ')' ∉ params)) ∧
    (∀ i line d d', ScriptDeclares (lines source) i line d → ScriptDeclares (lines source) i line d' →
      d = d') := by
  refine ⟨?_, rfl, ?_, ?_, ?_, ?_, ?_⟩
  · refine scansTo_extract options source length_headers_script rfl ?_ ?_
    · intro line
      exact scriptHeader_iff
    · intro i line h hmem hpub
      exact scriptDeclares_ofHeader hmem hpub
  · intro line n params m params' h
    exact h.not_arrow
  · intro line n params m h
    exact h.not_class
  · intro line n params m h
    exact h.not_class
  · intro line n params h
    exact h.shortest_iff
  · intro i line d d' h h'
    exact h.unique h'

end ToolCatalog.Declaration
