import ToolCatalog.Proofs.Declaration.ParameterLists

/-!
# JavaScript and TypeScript parameters as they are written

A parameter is a rest parameter, or a named one with a question mark, an annotation and a default that
it may have or not. Written parameters, joined by commas, are read back as the named ones among them
(`script_join_render`).
-/

namespace ToolCatalog

open Text

/-! ## Written parameters -/

/-- A named parameter with what may be written after its name. -/
structure NamedParameter where
  name : Text
  optional : Bool
  typeHint : Option Text
  defaultValue : Option Text
  isName : Header.Identifier name
  typeHint_lacks : ∀ a ∈ typeHint, Lacks ",=)\n" a
  default_lacks : ∀ d ∈ defaultValue, Lacks ",)\n" d

/-- A parameter of a JavaScript or TypeScript function as it is written. -/
inductive ScriptParameter where
  | rest (name : Text) (isName : Header.Identifier name)
  | named (p : NamedParameter)

namespace NamedParameter

theorem noHint_lacks : ∀ a ∈ (none : Option Text), Lacks ",=)\n" a := by simp

theorem noDefault_lacks : ∀ d ∈ (none : Option Text), Lacks ",)\n" d := by simp

/-- The name, with a question mark where the parameter is optional. -/
def marked (p : NamedParameter) : Text := p.name ++ if p.optional then "?".toList else []

/-- What a reader finds in a named parameter: it is required unless it is optional or has a default. -/
def toParameter (p : NamedParameter) : Parameter :=
  ⟨p.name, !p.optional && p.defaultValue.isNone⟩

end NamedParameter

namespace ScriptParameter

/-- The text of a parameter. -/
def render : ScriptParameter → Text
  | rest n _ => "..." ++ n
  | named p => p.marked ++ Parameter.tail p.typeHint p.defaultValue

/-- The named parameter that a parameter is. -/
def named? : ScriptParameter → Option NamedParameter
  | named p => some p
  | rest _ _ => none

end ScriptParameter

/-! ## Reading one parameter -/

namespace NamedParameter

theorem marked_lacks (p : NamedParameter) {marks : Text} (hmarks : marks.any isWord = false)
    (hquestion : '?' ∉ marks) : Lacks marks p.marked := by
  refine (p.isName.lacks hmarks).append ?_
  split
  · intro c hc
    rw [List.mem_singleton.1 hc]
    exact hquestion
  · exact Lacks.nil

/-- Trimming takes nothing from the name and its mark. -/
theorem trim_marked_append (p : NamedParameter) (s : Text) :
    trim (p.marked ++ s) = p.marked ++ trimEnd s := by
  unfold marked
  split
  · rw [List.append_assoc, p.isName.trim_append, List.append_assoc]
    congr 1
    exact trimEnd_cons_of_not_blank (by decide) s
  · rw [List.append_nil, p.isName.trim_append]

/-- The question mark is told from the name. -/
theorem before?_marked (p : NamedParameter) :
    before? "?" p.marked = if p.optional then some p.name else none := by
  unfold marked
  cases p.optional with
  | true => exact before?_eq_some_iff.2 rfl
  | false =>
    simp only [Bool.false_eq_true, if_false, List.append_nil]
    rw [Option.eq_none_iff_forall_ne_some]
    intro r hr
    have hmem : '?' ∈ p.name := by
      rw [before?_eq_some_iff.1 hr]
      simp
    exact (p.isName.lacks (by decide : ['?'].any isWord = false)).notMem (by decide) hmem

/-- A named parameter is read as it was meant. -/
theorem script?_render (p : NamedParameter) :
    Parameter.script? (p.marked ++ Parameter.tail p.typeHint p.defaultValue) =
      some p.toParameter := by
  have hname := p.isName
  have htrim := p.trim_marked_append (Parameter.tail p.typeHint p.defaultValue)
  have hread := Parameter.nameIn_append (p.marked_lacks (by decide) (by decide))
    (by simpa [trimEnd] using p.trim_marked_append []) p.typeHint p.defaultValue
  have hequals := Parameter.mem_trimEnd_tail_iff p.defaultValue p.typeHint_lacks
  generalize trimEnd (Parameter.tail p.typeHint p.defaultValue) = tail at htrim hread hequals
  have hdots : startsWith (p.marked ++ tail) "..." = false := by
    unfold marked
    rw [List.append_assoc]
    exact hname.startsWith_eq_false _ (by decide : isWord '.' = false) _
  have hne : p.marked ++ tail ≠ [] := by simp [marked, hname.1]
  have hnoEquals : '=' ∉ p.marked :=
    (p.marked_lacks (by decide : ['='].any isWord = false) (by decide)).notMem (by decide)
  have hcontains : (p.marked ++ tail).contains '=' = p.defaultValue.isSome := by
    rw [Bool.eq_iff_iff, List.contains_iff_mem, List.mem_append, ← hequals]
    exact or_iff_right hnoEquals
  unfold Parameter.script? toParameter
  simp only [htrim, hread, hdots, hcontains, List.isEmpty_eq_false_iff.2 hne, p.before?_marked,
    Bool.or_self, Bool.false_eq_true, if_false, Option.not_isSome]
  cases hopt : p.optional with
  | true => simp [hname.trimEnd_eq, hname.1]
  | false => simp [marked, hopt, hname.1]

end NamedParameter

theorem Parameter.script?_dots (s : Text) : Parameter.script? ("..." ++ s) = none := by
  have htrim : trim ("..." ++ s) = "..." ++ trimEnd s := by
    have hdot : ∀ t, trimEnd ('.' :: t) = '.' :: trimEnd t :=
      trimEnd_cons_of_not_blank (by decide)
    show trimEnd ('.' :: '.' :: '.' :: s) = _
    rw [hdot, hdot, hdot]
    rfl
  have hdots : startsWith ("..." ++ trimEnd s) "..." = true := startsWith_iff.2 ⟨trimEnd s, rfl⟩
  unfold Parameter.script?
  rw [htrim]
  simp only [hdots, Bool.or_true, if_true]

/-- The blank after a comma makes no difference. -/
theorem Parameter.script?_blank (s : Text) : Parameter.script? (' ' :: s) = Parameter.script? s := by
  have htrim : trim (' ' :: s) = trim s := rfl
  unfold Parameter.script?
  rw [htrim]

theorem ScriptParameter.script?_render (p : ScriptParameter) :
    Parameter.script? p.render = p.named?.map NamedParameter.toParameter := by
  cases p with
  | rest n h => exact Parameter.script?_dots n
  | named p => exact p.script?_render

/-! ## Reading a list -/

theorem ScriptParameter.render_lacks (p : ScriptParameter) : Lacks ",)\n" p.render := by
  cases p with
  | rest n h => exact Lacks.append (by decide) (h.lacks (by decide))
  | named p =>
    exact (p.marked_lacks (by decide) (by decide)).append
      (Parameter.tail_lacks p.typeHint_lacks p.default_lacks)

/-- Written parameters are read back as the named ones among them. -/
theorem ParameterList.script_join_render (ps : List ScriptParameter) :
    ParameterList.script (join ", " (ps.map ScriptParameter.render)) =
      ParameterList.ofParameters
        ((ps.filterMap ScriptParameter.named?).map NamedParameter.toParameter) := by
  rw [List.map_filterMap]
  refine ParameterList.read_join_render rfl Parameter.script?_blank ?_ ScriptParameter.script?_render ps
  intro p
  exact p.render_lacks.notMem (by decide)

end ToolCatalog
