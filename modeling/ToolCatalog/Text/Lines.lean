import ToolCatalog.Text.Blank

/-!
# Lines

The lines of a text are what stands between its line feeds. A carriage return just before a line
feed belongs to the line ending; one at the end of the text does not. A line feed at the end of the
text opens no further line, so the empty text has no line at all.
-/

namespace ToolCatalog.Text

/-- The lines of a text, without their endings. -/
def lines : Text → List Text
  | [] => []
  | '\n' :: s => [] :: lines s
  | '\r' :: '\n' :: s => [] :: lines s
  | c :: s =>
    match lines s with
    | [] => [[c]]
    | line :: rest => (c :: line) :: rest

/-- The first line of a text; empty when the text is. -/
def firstLine (s : Text) : Text := (lines s).headD []

/-- No line holds a line feed. -/
theorem newline_notMem_of_mem_lines {s l : Text} (h : l ∈ lines s) : '\n' ∉ l := by
  fun_induction lines s generalizing l with
  | case1 => simp at h
  | case2 s ih =>
    rcases List.mem_cons.1 h with rfl | h
    · simp
    · exact ih h
  | case3 s ih =>
    rcases List.mem_cons.1 h with rfl | h
    · simp
    · exact ih h
  | case4 c s hc _ hs _ =>
    simp only [List.mem_singleton] at h
    subst h
    simpa using fun e => hc e.symm
  | case5 c s hc _ line rest hs ih =>
    rw [hs] at ih
    rcases List.mem_cons.1 h with rfl | h
    · simp only [List.mem_cons, not_or]
      exact ⟨fun e => hc e.symm, ih (by simp)⟩
    · exact ih (List.mem_cons_of_mem _ h)

end ToolCatalog.Text
