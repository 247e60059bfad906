import ToolCatalog.Proofs.Doc.Block
import ToolCatalog.Proofs.Doc.LineEnds

/-!
# The region of a documentation string

A documentation string is made from a region of the source: what stands between the quote that opens it and
the next occurrence of that quote on a line, or the end of the source. Every opened source has one region
(`region_iff`), and the string depends on nothing but the region (`docstring_of_region`). Its lines are the
lines of the region without their shared indentation and without blanks at their ends.
-/

namespace ToolCatalog.Doc

open Text

/-- The line at a place opens a documentation string with a quote. The source of the string is what comes
after that quote: the rest of the trimmed line, and the lines below. -/
def Opens (quote : Text) (lines : List Text) (start : Nat) (source : List Text) : Prop :=
  quote ∈ tripleQuotes ∧ ∃ line first, lines[start]? = some line ∧ trim line = quote ++ first ∧
    source = first :: lines.drop (start + 1)

/-- The region of a source: all of it if no line holds the quote, and otherwise what stands before the first
occurrence. -/
inductive Region (quote : Text) : List Text → List Text → Prop where
  | unclosed {source : List Text} : (∀ line ∈ source, ¬ quote <:+: line) → Region quote source source
  | closed (before : List Text) (part tail : Text) (below : List Text) :
    (∀ line ∈ before, ¬ quote <:+: line) →
    -- the quote does not occur earlier on its line
    (∀ a b, part ++ quote = a ++ quote ++ b → a = part) →
    Region quote (before ++ (part ++ quote ++ tail) :: below) (before ++ [part])

/-! ## The region is found -/

theorem Region.cons {quote line : Text} {source region : List Text} (hline : ¬ quote <:+: line)
    (h : Region quote source region) : Region quote (line :: source) (line :: region) := by
  cases h with
  | unclosed hsource =>
    refine .unclosed ?_
    simpa [hline] using hsource
  | closed before part tail below hbefore hfirst =>
    refine .closed (line :: before) part tail below ?_ hfirst
    simpa [hline] using hbefore

theorem region_bodyLines (quote : Text) : ∀ source : List Text, Region quote source (bodyLines quote source)
  | [] => .unclosed (by simp)
  | line :: source => by
    have ih := region_bodyLines quote source
    unfold bodyLines
    cases hline : upTo? quote line with
    | none => exact ih.cons (upTo?_eq_none_iff.1 hline)
    | some part =>
      obtain ⟨⟨tail, rfl⟩, hfirst⟩ := upTo?_eq_some_iff.1 hline
      exact .closed [] part tail source (by simp) hfirst

/-- A source has one region. -/
theorem region_iff {quote : Text} {source region : List Text} :
    Region quote source region ↔ bodyLines quote source = region := by
  constructor
  · intro h
    cases h with
    | unclosed hsource =>
      have hall := bodyLines_append [] hsource
      rwa [List.append_nil, bodyLines, List.append_nil] at hall
    | closed before part tail below hbefore hfirst =>
      have hpart := upTo?_eq_some_iff.2 ⟨⟨tail, rfl⟩, hfirst⟩
      rw [bodyLines_append _ hbefore, bodyLines, hpart]
  · rintro rfl
    exact region_bodyLines quote source

theorem Region.ne_nil {quote : Text} {source region : List Text} (h : Region quote source region)
    (hsource : source ≠ []) : region ≠ [] := by
  cases h with
  | unclosed => exact hsource
  | closed => simp

/-- No line of a region holds the quote. -/
theorem Region.noQuote {quote : Text} {source region : List Text} (hquote : quote ≠ [])
    (h : Region quote source region) : ∀ line ∈ region, ¬ quote <:+: line := by
  cases h with
  | unclosed hsource => exact hsource
  | closed before part tail below hbefore hfirst =>
    intro line hline
    rcases List.mem_append.1 hline with hline | hline
    · exact hbefore line hline
    · rw [List.mem_singleton.1 hline]
      rintro ⟨a, b, rfl⟩
      have hlength := congrArg List.length (hfirst a (b ++ quote) (by simp))
      simp only [List.length_append] at hlength
      exact hquote (List.eq_nil_of_length_eq_zero (by omega))

/-- A line of a region is the line of the source in its place, or the beginning of that. -/
theorem Region.isPrefix {quote : Text} {source region : List Text} (h : Region quote source region)
    {i : Nat} {line : Text} (hline : region[i]? = some line) : ∃ s, source[i]? = some s ∧ line <+: s := by
  cases h with
  | unclosed => exact ⟨line, hline, List.prefix_rfl⟩
  | closed before part tail below =>
    by_cases hi : i < before.length
    · rw [List.getElem?_append_left hi] at hline ⊢
      exact ⟨line, hline, List.prefix_rfl⟩
    · rw [List.getElem?_append_right (by omega)] at hline ⊢
      cases hplace : i - before.length with
      | succ k =>
        rw [hplace] at hline
        cases hline
      | zero =>
        rw [hplace] at hline
        cases hline
        exact ⟨line ++ quote ++ tail, rfl, by simp⟩

/-! ## The string of a region -/

/-- The lines of a region as they are put together. -/
def outdent : List Text → List Text
  | [] => []
  | first :: body => trimEnd first :: dedent body

theorem opening?_append : ∀ quote ∈ tripleQuotes, ∀ first, opening? (quote ++ first) = some (quote, first) := by
  intro quote hquote first
  simp only [tripleQuotes, List.mem_cons, List.not_mem_nil, or_false] at hquote
  rcases hquote with rfl | rfl
  · rfl
  · rfl

/-- The documentation string of a region. -/
def stringOf (region : List Text) : Text := trim (join "\n" (outdent region))

/-- **A documentation string is made from its region alone.** -/
theorem docstring_of_region {quote : Text} {lines : List Text} {start : Nat} {source region : List Text}
    (hopens : Opens quote lines start source) (hregion : Region quote source region) :
    docstring lines start = stringOf region := by
  obtain ⟨hquote, line, first, hline, htrim, rfl⟩ := hopens
  obtain ⟨hlt, rfl⟩ := List.getElem?_eq_some_iff.1 hline
  rw [region_iff] at hregion
  subst hregion
  unfold docstring
  rw [List.drop_eq_getElem_cons hlt]
  simp only [htrim, opening?_append quote hquote, bodyLines]
  cases hfirst : upTo? quote first with
  | none => rfl
  | some part =>
    show trim part = trim (trimEnd part)
    rw [trim_trimEnd]

end ToolCatalog.Doc
