import ToolCatalog.Doc.Docstring
import ToolCatalog.Proofs.Text.Trimming

/-!
# Documentation written as a block

A documentation text can be written under a header as a block: its lines, indented alike, between two
lines with a triple quote. A text that is trimmed, does not hold the quote and has no blanks at its line
ends is read back from its block as it was (`docstring_block`), whatever comes after the block.
-/

namespace ToolCatalog.Doc

open Text

/-- The lines of a text between two lines with a quote, all indented by `w`. -/
def block (w quote text : Text) : List Text :=
  (w ++ quote) :: ((splitOn '\n' text).map (w ++ ·) ++ [w ++ quote])

/-- A documentation text that a block can hold. -/
structure Canonical (quote text : Text) : Prop where
  trimmed : trim text = text
  noQuote : ¬ quote <:+: text
  lineEnds : ∀ line ∈ splitOn '\n' text, line.getLast?.any isBlank = false

variable {w quote : Text}

/-! ## Indentation -/

theorem trim_indented (hw : allBlank w = true) (line : Text) : trim (w ++ line) = trim line := by
  have h := trim_blanks (w := []) hw line rfl
  rwa [List.append_nil] at h

theorem allBlank_indented (hw : allBlank w = true) (line : Text) :
    allBlank (w ++ line) = allBlank line := by
  unfold allBlank at hw ⊢
  rw [List.all_append, hw, Bool.true_and]

theorem indentation_indented (hw : allBlank w = true) (line : Text) :
    indentation (w ++ line) = w.length + indentation line := by
  unfold indentation
  rw [List.takeWhile_append_of_pos (List.all_eq_true.1 hw), List.length_append]

/-- The shared indentation is that of a line which is not blank, where no such line has less. -/
theorem sharedIndentation_eq {lines : List Text} {n : Nat}
    (hsome : ∃ line ∈ lines, allBlank line = false ∧ indentation line = n)
    (hle : ∀ line ∈ lines, allBlank line = false → n ≤ indentation line) :
    sharedIndentation lines = n := by
  have hmin : ((lines.filter fun l => !allBlank l).map indentation).min? = some n := by
    rw [List.min?_eq_some_iff]
    simp only [List.mem_map, List.mem_filter, Bool.not_eq_true']
    constructor
    · obtain ⟨line, hline, hblank, hn⟩ := hsome
      exact ⟨line, ⟨hline, hblank⟩, hn⟩
    · rintro k ⟨line, ⟨hline, hblank⟩, rfl⟩
      exact hle line hline hblank
  unfold sharedIndentation
  rw [hmin, Option.getD_some]

theorem sharedIndentation_indented (hw : allBlank w = true) {ls : List Text} {first : Text}
    (hfirst : first ∈ ls) (hne : first ≠ []) (hstops : Stops isBlank first) :
    sharedIndentation (ls.map (w ++ ·) ++ [w]) = w.length := by
  have hblank : allBlank first = false := by
    cases first with
    | nil => exact absurd rfl hne
    | cons c first => simp [allBlank, stops_cons.1 hstops]
  have hmem : w ++ first ∈ ls.map (w ++ ·) ++ [w] :=
    List.mem_append_left _ (List.mem_map_of_mem hfirst)
  refine sharedIndentation_eq ⟨w ++ first, hmem, ?_, ?_⟩ ?_
  · rw [allBlank_indented hw, hblank]
  · rw [indentation_indented hw, indentation, takeWhile_of_stops hstops]
    rfl
  · intro line hline hb
    rcases List.mem_append.1 hline with hline | hline
    · obtain ⟨l, -, rfl⟩ := List.mem_map.1 hline
      rw [indentation_indented hw]
      omega
    · rw [List.mem_singleton.1 hline, hw] at hb
      cases hb

/-- Indented lines lose their indentation, if they end in no blank and one of them begins with none; a
blank line after them becomes empty. -/
theorem dedent_indented (hw : allBlank w = true) {ls : List Text} (hends : ∀ l ∈ ls, trimEnd l = l)
    (hstart : (∃ first ∈ ls, first ≠ [] ∧ Stops isBlank first) ∨ ∀ l ∈ ls, l = []) :
    dedent (ls.map (w ++ ·) ++ [w]) = ls ++ [[]] := by
  have hline : ∀ l ∈ ls,
      (if allBlank (w ++ l) then [] else
        trimEnd ((w ++ l).drop (sharedIndentation (ls.map (w ++ ·) ++ [w])))) = l := by
    intro l hl
    rw [allBlank_indented hw]
    split
    · rename_i hb
      rw [← hends l hl, trimEnd_eq_nil_iff.2 hb]
    · rename_i hb
      rcases hstart with ⟨first, hfirst, hne, hstops⟩ | hall
      · rw [sharedIndentation_indented hw hfirst hne hstops, List.drop_left]
        exact hends l hl
      · rw [hall l hl] at hb
        exact absurd rfl hb
  unfold dedent
  rw [List.map_append, List.map_map]
  congr 1
  · exact (List.map_congr_left hline).trans (List.map_id _)
  · simp [hw]

/-! ## The quotes -/

theorem opening?_quote :
    ∀ quote ∈ tripleQuotes, opening? (trim quote) = some (quote, []) := by decide

theorem upTo?_quote :
    ∀ quote ∈ tripleQuotes, upTo? quote quote = some [] ∧ upTo? quote [] = none := by decide

theorem head_quote :
    ∀ quote ∈ tripleQuotes, quote ≠ [] ∧ quote.head?.any isBlank = false := by decide

/-- A quote is not found in the indentation before it. -/
theorem upTo?_indented (hquote : quote ∈ tripleQuotes) (line : Text) :
    ∀ {w : Text}, allBlank w = true →
      upTo? quote (w ++ line) = (upTo? quote line).map (w ++ ·)
  | [], _ => by simp
  | c :: w, hw => by
    rw [allBlank, List.all_cons, Bool.and_eq_true] at hw
    have hskip : startsWith (c :: (w ++ line)) quote = false := by
      obtain ⟨hnil, hblank⟩ := head_quote quote hquote
      cases quote with
      | nil => exact absurd rfl hnil
      | cons d quote =>
        have hne : d ≠ c := by
          rintro rfl
          rw [stops_cons.1 hblank] at hw
          cases hw.1
        simp [startsWith, after?, hne]
    rw [List.cons_append, upTo?, hskip, upTo?_indented hquote line hw.2]
    cases upTo? quote line <;> rfl

theorem upTo?_eq_none_iff {mark s : Text} : upTo? mark s = none ↔ ¬ mark <:+: s := by
  constructor
  · rintro hs ⟨a, b, rfl⟩
    exact upTo?_ne_none mark b a hs
  · intro h
    cases hs : upTo? mark s with
    | none => rfl
    | some a =>
      obtain ⟨b, rfl⟩ := eq_append_of_upTo? hs
      exact absurd ⟨a, b, rfl⟩ h

/-- Lines without the quote are all kept. -/
theorem bodyLines_append {quote : Text} (rest : List Text) :
    ∀ {before : List Text}, (∀ line ∈ before, ¬ quote <:+: line) →
      bodyLines quote (before ++ rest) = before ++ bodyLines quote rest
  | [], _ => rfl
  | line :: before, h => by
    have hline := upTo?_eq_none_iff.2 (h line (by simp))
    have ih := bodyLines_append rest fun l hl => h l (List.mem_cons_of_mem line hl)
    simp only [List.cons_append, bodyLines, hline, ih]

/-- Indented lines are kept up to the one that begins with the quote. -/
theorem bodyLines_indented (hquote : quote ∈ tripleQuotes) (hw : allBlank w = true)
    (rest : List Text) {ls : List Text} (h : ∀ l ∈ ls, ¬ quote <:+: l) :
    bodyLines quote (ls.map (w ++ ·) ++ (w ++ quote) :: rest) = ls.map (w ++ ·) ++ [w] := by
  have hlines : ∀ l ∈ ls.map (w ++ ·), ¬ quote <:+: l := by
    intro l hl
    obtain ⟨m, hm, rfl⟩ := List.mem_map.1 hl
    rw [← upTo?_eq_none_iff, upTo?_indented hquote m hw, upTo?_eq_none_iff.2 (h m hm), Option.map_none]
  rw [bodyLines_append _ hlines]
  simp [bodyLines, upTo?_indented hquote quote hw, (upTo?_quote quote hquote).1]

/-! ## Reading a block -/

/-- The first line of a trimmed text begins with no blank, unless the text is empty. -/
theorem Canonical.start {text : Text} (h : Canonical quote text) :
    (∃ first ∈ splitOn '\n' text, first ≠ [] ∧ Stops isBlank first) ∨
      ∀ l ∈ splitOn '\n' text, l = [] := by
  have hstops := stops_blank_of_trim h.trimmed
  cases text with
  | nil => exact .inr (by simp [splitOn])
  | cons c s =>
    have hc : isBlank c = false := stops_cons.1 hstops
    have hne : c ≠ '\n' := by
      rintro rfl
      cases hc
    obtain ⟨piece, rest, -, hs⟩ := splitOn_cons_ne hne s
    exact .inl ⟨c :: piece, by rw [hs]; simp, by simp, stops_cons.2 hc⟩

/-- A text is read back from its block. -/
theorem docstring_block (hquote : quote ∈ tripleQuotes) (hw : allBlank w = true) {text : Text}
    (h : Canonical quote text) {lines rest : List Text} {start : Nat}
    (hlines : lines.drop start = block w quote text ++ rest) : docstring lines start = text := by
  have hopen : opening? (trim (w ++ quote)) = some (quote, []) := by
    rw [trim_indented hw, opening?_quote quote hquote]
  have hfree : ∀ l ∈ splitOn '\n' text, ¬ quote <:+: l := by
    intro l hl hin
    exact h.noQuote (hin.trans (infix_of_mem_splitOn hl))
  have hends : ∀ l ∈ splitOn '\n' text, trimEnd l = l := by
    intro l hl
    exact trimEnd_eq_self (h.lineEnds l hl)
  have hnone := (upTo?_quote quote hquote).2
  have htext : join "\n" (splitOn '\n' text) = text := join_splitOn '\n' text
  have hjoin : join "\n" ([] :: (splitOn '\n' text ++ [[]])) = "\n" ++ text ++ "\n" := by
    rw [join_cons _ _ (by simp), join_concat _ _ (splitOn_ne_nil _ _), htext]
    simp
  unfold docstring
  rw [hlines, block]
  simp only [List.cons_append, List.append_assoc, List.nil_append, hopen, hnone]
  rw [bodyLines_indented hquote hw rest hfree, dedent_indented hw hends h.start]
  exact (congrArg trim hjoin).trans ((trim_blanks (by decide) text (by decide)).trans h.trimmed)

end ToolCatalog.Doc
