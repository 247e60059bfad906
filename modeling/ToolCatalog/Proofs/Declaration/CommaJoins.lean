import Mathlib.Data.List.Induction
import ToolCatalog.Proofs.Declaration.ParameterNames
import ToolCatalog.Proofs.Declaration.PythonParameters

/-!
# Parameter texts around a comma

A text of parameters is cut at every comma, so reading carries the comma over to the lists that are read: the
required names of both sides stand one after the other, and a property of the right side is added where the
left side has none of its name (`joinsAtCommas_read`). What is left to say is what stands in a text without a
comma, at most one parameter (`python?_eq_some_iff`, `script?_eq_some_iff`).
-/

namespace ToolCatalog

open Text

/-! ## Joined lists -/

theorem eraseDups_filter (p : Text → Bool) (names : List Text) :
    (names.filter p).eraseDups = names.eraseDups.filter p := by
  induction names using List.reverseRecOn with
  | nil => rfl
  | append_singleton names k ih =>
    rw [eraseDups_concat, List.filter_append]
    by_cases hp : p k = true
    · rw [List.filter_cons_of_pos hp, List.filter_nil, eraseDups_concat, ih]
      by_cases hk : k ∈ names.eraseDups
      · rw [if_pos hk, if_pos (List.mem_filter.2 ⟨hk, hp⟩)]
      · rw [if_neg hk, if_neg fun hmem => hk (List.mem_filter.1 hmem).1, List.filter_append,
          List.filter_cons_of_pos hp, List.filter_nil]
    · rw [List.filter_cons_of_neg hp, List.filter_nil, List.append_nil, ih]
      split
      · rfl
      · rw [List.filter_append, List.filter_cons_of_neg hp, List.filter_nil, List.append_nil]

/-- The properties of some names and then of others: a name that was there already brings none. -/
theorem ParameterSchema.properties_append (ns ms : List Text) :
    (ofNames (ns ++ ms)).properties = (ofNames ns).properties ++
      (ofNames ms).properties.filter fun f => f.1 ∉ (ofNames ns).names := by
  have hkept : ms.removeAll ns = ms.filter fun n => n ∉ ns.eraseDups := by
    unfold List.removeAll
    refine List.filter_congr fun n _ => ?_
    simp [List.mem_eraseDups]
  rw [names_ofNames]
  unfold ofNames
  simp only
  rw [List.eraseDups_append, hkept, eraseDups_filter, List.map_append, List.filter_map]
  rfl

namespace ParameterList

/-- A reader of parameter texts for which a comma puts two lists together: the required names stand one after
the other, and of the second list the properties with new names are added to those of the first. -/
structure JoinsAtCommas (read : Text → ParameterList) : Prop where
  required : ∀ p q, (read (p ++ "," ++ q)).required = (read p).required ++ (read q).required
  properties : ∀ p q, (read (p ++ "," ++ q)).schema.properties = (read p).schema.properties ++
    (read q).schema.properties.filter fun f => f.1 ∉ (read p).schema.names

theorem joinsAtCommas_read (piece? : Text → Option Parameter) : JoinsAtCommas (read piece?) := by
  have hread : ∀ p q, read piece? (p ++ "," ++ q) =
      ofParameters ((splitOn ',' p).filterMap piece? ++ (splitOn ',' q).filterMap piece?) := by
    intro p q
    have hcut : splitOn ',' (p ++ "," ++ q) = splitOn ',' p ++ splitOn ',' q := by
      rw [List.append_assoc]
      exact splitOn_append ',' q p
    unfold read
    rw [hcut, List.filterMap_append]
  constructor
  · intro p q
    rw [hread, required_ofParameters, List.filter_append, List.map_append, ← required_ofParameters,
      ← required_ofParameters]
    rfl
  · intro p q
    rw [hread, schema_ofParameters, List.map_append, ParameterSchema.properties_append,
      ← schema_ofParameters, ← schema_ofParameters]
    rfl

/-! ## A text without a comma -/

/-- A list of one parameter, which is required or not. -/
structure Single (l : ParameterList) (n : Text) (needed : Prop) : Prop where
  properties : l.schema.properties = [(n, ParameterSchema.property n)]
  required : needed → l.required = [n]
  optional : ¬ needed → l.required = []

/-- A list of no parameter. -/
def Vacant (l : ParameterList) : Prop := l.schema.properties = [] ∧ l.required = []

section

variable {piece? : Text → Option Parameter} {t : Text}

theorem read_of_notMem (h : ',' ∉ t) : read piece? t = ofParameters (piece? t).toList := by
  unfold read
  rw [splitOn_of_notMem h]
  cases hp : piece? t <;> simp [hp]

theorem single_of_piece (h : ',' ∉ t) {n : Text} {required : Bool} (hp : piece? t = some ⟨n, required⟩)
    {needed : Prop} (hneeded : required = true ↔ needed) : Single (read piece? t) n needed := by
  rw [read_of_notMem h, hp]
  refine ⟨rfl, ?_, ?_⟩
  · intro hrequired
    simp [required_ofParameters, hneeded.2 hrequired]
  · intro hoptional
    simp [required_ofParameters, mt hneeded.1 hoptional]

theorem vacant_of_piece (h : ',' ∉ t) (hp : piece? t = none) : Vacant (read piece? t) := by
  rw [read_of_notMem h, hp]
  exact ⟨rfl, rfl⟩

end

end ParameterList

namespace Parameter

/-- The trimmed text before the first colon or equals sign. -/
def NameBefore (u n : Text) : Prop :=
  ∃ stem rest, u = stem ++ rest ∧ n = trim stem ∧ Lacks ":=" stem ∧
    rest.head? ∈ [none, some ':', some '=']

theorem nameBefore_iff {u n : Text} : NameBefore u n ↔ nameIn u = n := by
  unfold nameIn
  constructor
  · rintro ⟨stem, rest, rfl, rfl, hstem, hrest⟩
    have hall : stem.all (fun c => c != ':' && c != '=') = true := by
      rw [List.all_eq_true]
      intro c hc
      simpa using hstem c hc
    -- the rest begins with what ends a name, so the name is the whole run before it
    have hstops : Stops (fun c => c != ':' && c != '=') rest := by
      unfold Stops
      simp only [List.mem_cons, List.not_mem_nil, or_false] at hrest
      rcases hrest with h | h | h
      · rw [h]
        rfl
      · rw [h]
        rfl
      · rw [h]
        rfl
    rw [takeWhile_run hall hstops]
  · rintro rfl
    refine ⟨_, _, List.takeWhile_append_dropWhile.symm, rfl, ?_, ?_⟩
    · intro c hc
      have hpass := List.all_eq_true.1 (List.all_takeWhile (l := u)) c hc
      simpa using hpass
    · have hstops := stops_dropWhile (fun c => c != ':' && c != '=') u
      cases hrest : u.dropWhile (fun c => c != ':' && c != '=') with
      | nil => simp
      | cons c rest =>
        rw [hrest, stops_cons] at hstops
        by_cases hc : c = ':'
        · simp [hc]
        · simpa [hc] using hstops

/-- A name in a trimmed piece of a Python parameter list. -/
structure PythonNames (u n : Text) : Prop where
  ne_nil : u ≠ []
  unstarred : ¬ ("*" : Text) <+: u
  before : NameBefore u n
  name_ne_nil : n ≠ []
  name_ne_self : n ≠ "self"

/-- A piece of a Python list is a parameter just when it has a name, and it is required unless it holds an
equals sign. -/
theorem python?_eq_some_iff {piece : Text} {p : Parameter} :
    python? piece = some p ↔
      PythonNames (trim piece) p.name ∧ (p.required = true ↔ '=' ∉ trim piece) := by
  constructor
  · intro h
    obtain ⟨hne, hplain, hname, hself, rfl⟩ := python?_name h
    refine ⟨⟨hne, ?_, nameBefore_iff.2 rfl, hname, hself⟩, by simp⟩
    rw [← startsWith_iff_isPrefix, hplain]
    exact Bool.false_ne_true
  · obtain ⟨n, required⟩ := p
    rintro ⟨⟨hne, hstar, hbefore, hname, hself⟩, hrequired⟩
    rw [nameBefore_iff] at hbefore
    have hpiece : trim piece ≠ "self" := by
      intro h
      rw [h] at hbefore
      exact hself (hbefore.symm.trans (by decide))
    have hplain : startsWith (trim piece) "*" = false := by
      rw [← Bool.not_eq_true, startsWith_iff_isPrefix]
      exact hstar
    rw [python?_eq_some rfl hbefore ⟨hne, hpiece, hplain⟩ ⟨hname, hself⟩]
    have hequals : required = !(trim piece).contains '=' := by
      rw [Bool.eq_iff_iff, hrequired]
      simp
    rw [hequals]

/-- A name is told from the question mark after it and the blanks between them. -/
inductive Unmarked : Text → Text → Bool → Prop where
  | optional (stem : Text) : Unmarked (stem ++ "?") (trimEnd stem) true
  | plain {m : Text} : ¬ ("?" : Text) <:+ m → Unmarked m m false

/-- A name in a trimmed piece of a JavaScript or TypeScript parameter list, which a question mark can make
optional. -/
structure ScriptNames (u n : Text) (optional : Bool) : Prop where
  ne_nil : u ≠ []
  undotted : ¬ ("..." : Text) <+: u
  before : ∃ m, NameBefore u m ∧ Unmarked m n optional
  name_ne_nil : n ≠ []

theorem exists_unmarked (m : Text) : ∃ n optional, Unmarked m n optional := by
  by_cases hmark : ("?" : Text) <:+ m
  · obtain ⟨stem, rfl⟩ := hmark
    exact ⟨_, _, .optional stem⟩
  · exact ⟨_, _, .plain hmark⟩

theorem script?_of_unmarked {piece n : Text} {optional : Bool} (ht : trim piece ≠ [])
    (hdots : startsWith (trim piece) "..." = false) (hn : Unmarked (nameIn (trim piece)) n optional) :
    script? piece =
      if n.isEmpty then none else some ⟨n, !optional && !(trim piece).contains '='⟩ := by
  have hpass : ((trim piece).isEmpty || startsWith (trim piece) "...") = false := by
    rw [hdots, Bool.or_false, List.isEmpty_eq_false_iff]
    exact ht
  unfold script?
  simp only [hpass, Bool.false_eq_true, if_false]
  generalize nameIn (trim piece) = m at hn
  cases hn with
  | optional stem => rw [before?_eq_some_iff.2 rfl]
  | plain hmark =>
    have hnone : before? "?" n = none := by
      rw [Option.eq_none_iff_forall_ne_some]
      intro stem hstem
      exact hmark ⟨stem, (before?_eq_some_iff.1 hstem).symm⟩
    rw [hnone]

/-- A piece of a JavaScript or TypeScript list is a parameter just when it has a name, and it is required unless
that is marked as optional or the piece holds an equals sign. -/
theorem script?_eq_some_iff {piece : Text} {p : Parameter} :
    script? piece = some p ↔ ∃ optional, ScriptNames (trim piece) p.name optional ∧
      (p.required = true ↔ optional = false ∧ '=' ∉ trim piece) := by
  constructor
  · intro h
    obtain ⟨hdots, -⟩ := script?_name h
    have hne : trim piece ≠ [] := by
      intro hnil
      simp [script?, hnil] at h
    obtain ⟨n, optional, hn⟩ := exists_unmarked (nameIn (trim piece))
    rw [script?_of_unmarked hne hdots hn] at h
    split at h
    · cases h
    rename_i hname
    cases h
    refine ⟨optional, ⟨hne, ?_, ⟨_, nameBefore_iff.2 rfl, hn⟩, by simpa using hname⟩, by simp⟩
    rw [← startsWith_iff_isPrefix, hdots]
    exact Bool.false_ne_true
  · obtain ⟨n, required⟩ := p
    rintro ⟨optional, ⟨hne, hdots, ⟨m, hbefore, hn⟩, hname⟩, hrequired⟩
    rw [nameBefore_iff] at hbefore
    subst hbefore
    have hplain : startsWith (trim piece) "..." = false := by
      rw [← Bool.not_eq_true, startsWith_iff_isPrefix]
      exact hdots
    have hequals : required = (!optional && !(trim piece).contains '=') := by
      rw [Bool.eq_iff_iff, hrequired]
      simp
    rw [script?_of_unmarked hne hplain hn, if_neg (by simpa using hname), hequals]

end Parameter

/-! ## Both languages -/

namespace ParameterList

open Parameter

theorem python_of_notMem {t : Text} (h : ',' ∉ t) :
    (∀ n, PythonNames (trim t) n → Single (python t) n ('=' ∉ trim t)) ∧
    ((¬ ∃ n, PythonNames (trim t) n) → Vacant (python t)) := by
  constructor
  · intro n hn
    have hpiece : python? t = some ⟨n, !(trim t).contains '='⟩ :=
      python?_eq_some_iff.2 ⟨hn, by simp⟩
    exact single_of_piece h hpiece (by simp)
  · intro hnone
    refine vacant_of_piece h ?_
    rw [Option.eq_none_iff_forall_ne_some]
    intro p hp
    exact hnone ⟨p.name, (python?_eq_some_iff.1 hp).1⟩

theorem script_of_notMem {t : Text} (h : ',' ∉ t) :
    (∀ n optional, ScriptNames (trim t) n optional →
      Single (script t) n (optional = false ∧ '=' ∉ trim t)) ∧
    ((¬ ∃ n optional, ScriptNames (trim t) n optional) → Vacant (script t)) := by
  constructor
  · intro n optional hn
    have hpiece : script? t = some ⟨n, !optional && !(trim t).contains '='⟩ :=
      script?_eq_some_iff.2 ⟨optional, hn, by simp⟩
    exact single_of_piece h hpiece (by simp)
  · intro hnone
    refine vacant_of_piece h ?_
    rw [Option.eq_none_iff_forall_ne_some]
    intro p hp
    obtain ⟨optional, hnames, -⟩ := script?_eq_some_iff.1 hp
    exact hnone ⟨p.name, optional, hnames⟩

/-- **Reading parameters is a homomorphism from texts around commas,** in both forms of parameter lists, and a
text without a comma holds at most one parameter. So every required name is a property. -/
theorem read_commaJoined :
    JoinsAtCommas python ∧ JoinsAtCommas script ∧
    (∀ t : Text, ',' ∉ t →
      (∀ n, PythonNames (trim t) n → Single (python t) n ('=' ∉ trim t)) ∧
      ((¬ ∃ n, PythonNames (trim t) n) → Vacant (python t)) ∧
      (∀ n optional, ScriptNames (trim t) n optional →
        Single (script t) n (optional = false ∧ '=' ∉ trim t)) ∧
      ((¬ ∃ n optional, ScriptNames (trim t) n optional) → Vacant (script t))) ∧
    ∀ params : Text, (∀ n ∈ (python params).required, n ∈ (python params).schema.names) ∧
      ∀ n ∈ (script params).required, n ∈ (script params).schema.names := by
  refine ⟨joinsAtCommas_read _, joinsAtCommas_read _, ?_, ?_⟩
  · intro t ht
    exact ⟨(python_of_notMem ht).1, (python_of_notMem ht).2, script_of_notMem ht⟩
  · intro params
    exact ⟨fun n => mem_required_ofParameters, fun n => mem_required_ofParameters⟩

/-- A piece with a question mark after its name. -/
def optionalLimit : Text := " limit ?: number "

/-- The question mark belongs to the name in one language and makes the parameter optional in the other; a
star and dots keep a piece from being read. -/
theorem read_optionalLimit :
    ',' ∉ optionalLimit ∧ PythonNames (trim optionalLimit) "limit ?" ∧
    ScriptNames (trim optionalLimit) "limit" true ∧ (python optionalLimit).required = ["limit ?".toList] ∧
    (script optionalLimit).schema.properties =
      [("limit".toList, ParameterSchema.property "limit".toList)] ∧
    (script optionalLimit).required = [] ∧ Vacant (python "*") ∧ Vacant (script "...") := by
  have hpython : PythonNames (trim optionalLimit) "limit ?" :=
    ⟨by decide, by decide, nameBefore_iff.2 (by decide +kernel), by decide, by decide⟩
  have hscript : ScriptNames (trim optionalLimit) "limit" true :=
    ⟨by decide, by decide, ⟨_, nameBefore_iff.2 (by decide +kernel), .optional "limit ".toList⟩, by decide⟩
  have hread := read_commaJoined.2.2.1 optionalLimit (by decide)
  have hstar := (read_commaJoined.2.2.1 "*" (by decide)).2.1
  have hdots := (read_commaJoined.2.2.1 "..." (by decide)).2.2.2
  have hlimit := hread.2.2.1 _ _ hscript
  refine ⟨by decide, hpython, hscript, (hread.1 _ hpython).required (by decide), hlimit.properties,
    hlimit.optional (by simp), hstar ?_, hdots ?_⟩
  · rintro ⟨n, hn⟩
    exact hn.unstarred (by decide)
  · rintro ⟨n, optional, hn⟩
    exact hn.undotted (by decide)

end ParameterList

end ToolCatalog
