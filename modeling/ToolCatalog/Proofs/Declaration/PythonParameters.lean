import ToolCatalog.Proofs.Declaration.ParameterLists

/-!
# Python parameters as they are written

A parameter is the receiver `self`, a star marker, or a plain parameter with an annotation and a default
that it may have or not. Written parameters, joined by commas, are read back as the plain ones among
them (`python_join_render`).
-/

namespace ToolCatalog

open Text

/-! ## Written parameters -/

/-- A plain parameter: a name with an annotation and a default, if it has them. -/
structure PlainParameter where
  name : Text
  typeHint : Option Text
  defaultValue : Option Text
  isName : Header.Identifier name ∧ name ≠ "self"
  typeHint_lacks : ∀ a ∈ typeHint, Lacks ",=)\n" a
  default_lacks : ∀ d ∈ defaultValue, Lacks ",)\n" d

/-- A parameter of a Python function as it is written. -/
inductive PythonParameter where
  | receiver
  | star
  | positionals (name : Text) (isName : Header.Identifier name)
  | keywords (name : Text) (isName : Header.Identifier name)
  | plain (p : PlainParameter)

/-- What a reader finds in a plain parameter: it is required unless it has a default. -/
def PlainParameter.toParameter (p : PlainParameter) : Parameter := ⟨p.name, p.defaultValue.isNone⟩

namespace PythonParameter

/-- The text of a parameter. -/
def render : PythonParameter → Text
  | receiver => "self"
  | star => "*"
  | positionals n _ => "*" ++ n
  | keywords n _ => "**" ++ n
  | plain p => p.name ++ Parameter.tail p.typeHint p.defaultValue

/-- The plain parameter that a parameter is. -/
def plain? : PythonParameter → Option PlainParameter
  | plain p => some p
  | _ => none

end PythonParameter

/-! ## Reading one parameter -/

/-- A piece is a parameter unless it is empty, the receiver or starred, or has no name of its own. -/
theorem Parameter.python?_eq_some {piece t n : Text} (htrim : trim piece = t) (hname : nameIn t = n)
    (ht : t ≠ [] ∧ t ≠ "self" ∧ startsWith t "*" = false) (hn : n ≠ [] ∧ n ≠ "self") :
    Parameter.python? piece = some ⟨n, !t.contains '='⟩ := by
  unfold Parameter.python?
  simp only [htrim, hname, Bool.or_eq_true, List.isEmpty_iff, beq_iff_eq]
  rw [if_neg, if_neg]
  · rintro (h | h)
    · exact hn.1 h
    · exact hn.2 h
  · rintro ((h | h) | h)
    · exact ht.1 h
    · exact ht.2.1 h
    · rw [ht.2.2] at h
      cases h

theorem Parameter.python?_star (s : Text) : Parameter.python? ('*' :: s) = none := by
  have htrim : trim ('*' :: s) = '*' :: trimEnd s := trimEnd_cons_of_not_blank (by decide) s
  have hstar : startsWith ('*' :: trimEnd s) "*" = true := startsWith_iff.2 ⟨trimEnd s, rfl⟩
  unfold Parameter.python?
  rw [htrim]
  simp only [hstar, Bool.or_true, if_true]

/-- The blank after a comma makes no difference. -/
theorem Parameter.python?_blank (s : Text) : Parameter.python? (' ' :: s) = Parameter.python? s := by
  have htrim : trim (' ' :: s) = trim s := rfl
  unfold Parameter.python?
  rw [htrim]

/-- A plain parameter is read as it was meant. -/
theorem PlainParameter.python?_render (p : PlainParameter) :
    Parameter.python? (p.name ++ Parameter.tail p.typeHint p.defaultValue) =
      some p.toParameter := by
  obtain ⟨hname, hself⟩ := p.isName
  have htrim := hname.trim_append (Parameter.tail p.typeHint p.defaultValue)
  have hstops := Parameter.stops_tail p.typeHint p.defaultValue
  have hread := Parameter.nameIn_append (hname.lacks (by decide))
    (by simpa [trimEnd] using hname.trim_append []) p.typeHint p.defaultValue
  have hequals := Parameter.mem_trimEnd_tail_iff p.defaultValue p.typeHint_lacks
  generalize trimEnd (Parameter.tail p.typeHint p.defaultValue) = tail at htrim hstops hread hequals
  have hnotSelf : p.name ++ tail ≠ "self" := by
    intro h
    rw [← List.append_nil ("self" : Text)] at h
    exact hself (run_unique hname.2 hstops (by decide) (stops_nil _) h).1
  have hstar : startsWith (p.name ++ tail) "*" = false :=
    hname.startsWith_eq_false tail (by decide : isWord '*' = false) []
  rw [Parameter.python?_eq_some htrim hread ⟨by simp [hname.1], hnotSelf, hstar⟩ ⟨hname.1, hself⟩]
  have hnoEquals : '=' ∉ p.name :=
    (hname.lacks (by decide : ['='].any isWord = false)).notMem (by decide)
  have hcontains : (p.name ++ tail).contains '=' = p.defaultValue.isSome := by
    rw [Bool.eq_iff_iff, List.contains_iff_mem, List.mem_append, ← hequals]
    exact or_iff_right hnoEquals
  rw [hcontains, Option.not_isSome]
  rfl

theorem PythonParameter.python?_render (p : PythonParameter) :
    Parameter.python? p.render = p.plain?.map PlainParameter.toParameter := by
  cases p with
  | receiver => rfl
  | star => rfl
  | positionals n h => exact Parameter.python?_star n
  | keywords n h => exact Parameter.python?_star ('*' :: n)
  | plain p => exact p.python?_render

/-! ## Reading a list -/

theorem PythonParameter.render_lacks (p : PythonParameter) : Lacks ",)\n" p.render := by
  cases p with
  | receiver => decide
  | star => decide
  | positionals n h => exact Lacks.append (by decide) (h.lacks (by decide))
  | keywords n h => exact Lacks.append (by decide) (h.lacks (by decide))
  | plain p =>
    exact (p.isName.1.lacks (by decide)).append
      (Parameter.tail_lacks p.typeHint_lacks p.default_lacks)

/-- Written parameters are read back as the plain ones among them. -/
theorem ParameterList.python_join_render (ps : List PythonParameter) :
    ParameterList.python (join ", " (ps.map PythonParameter.render)) =
      ParameterList.ofParameters ((ps.filterMap PythonParameter.plain?).map PlainParameter.toParameter) := by
  rw [List.map_filterMap]
  refine ParameterList.read_join_render rfl Parameter.python?_blank ?_ PythonParameter.python?_render ps
  intro p
  exact p.render_lacks.notMem (by decide)

end ToolCatalog
