import ToolCatalog.Proofs.Doc.Region
import ToolCatalog.Proofs.Text.JoinedLines

/-!
# Documentation strings are canonical

The texts that a documentation string can have are those which a block can hold: trimmed, without blanks at
line ends, without the quote that opens the string (`docstring_canonical`). That the quote is gone follows
from the region, in which no line holds it; it has no line feed, so it does not come back when the lines are
joined.
-/

namespace ToolCatalog.Doc

open Text

/-! ## The lines of a string -/

theorem exists_of_mem_dedent {body : List Text} {m : Text} (h : m ∈ dedent body) :
    trimEnd m = m ∧ ∃ l ∈ body, m <:+: l := by
  obtain ⟨l, hl, rfl⟩ := List.mem_map.1 h
  by_cases hblank : allBlank l = true
  · rw [if_pos hblank]
    exact ⟨rfl, l, hl, List.nil_infix⟩
  · rw [if_neg hblank]
    have hsuffix : l.drop (sharedIndentation body) <:+: l := (List.drop_suffix _ l).isInfix
    exact ⟨trimEnd_trimEnd _, l, hl, (trimEnd_isPrefix _).isInfix.trans hsuffix⟩

/-- The lines that are put together end in no blank, and each is cut out of a line of the region. -/
theorem exists_of_mem_outdent {region : List Text} {m : Text} (h : m ∈ outdent region) :
    trimEnd m = m ∧ ∃ l ∈ region, m <:+: l := by
  cases region with
  | nil => cases h
  | cons first body =>
    rcases List.mem_cons.1 h with rfl | h
    · exact ⟨trimEnd_trimEnd first, first, by simp, (trimEnd_isPrefix first).isInfix⟩
    · obtain ⟨hend, l, hl, hcut⟩ := exists_of_mem_dedent h
      exact ⟨hend, l, List.mem_cons_of_mem first hl, hcut⟩

/-- How trimming leaves the lines of a string, if the lines of the region hold no line feed. -/
theorem splitOn_stringOf {region : List Text} (hne : region ≠ []) (hnewline : ∀ l ∈ region, '\n' ∉ l) :
    ∃ (skipped : List Text) (first : Text) (rest trailing : List Text),
      outdent region = skipped ++ first :: rest ++ trailing ∧ (∀ m ∈ skipped ++ trailing, m = []) ∧
      splitOn '\n' (stringOf region) = trimStart first :: rest := by
  have hlines : ∀ m ∈ outdent region, '\n' ∉ m ∧ trimEnd m = m := by
    intro m hm
    obtain ⟨hend, l, hl, hcut⟩ := exists_of_mem_outdent hm
    exact ⟨fun hmem => hnewline l hl (hcut.subset hmem), hend⟩
  cases region with
  | nil => exact absurd rfl hne
  | cons first body => exact splitOn_trim_join hlines

/-! ## The string of a region is canonical -/

theorem newline_notMem_quote : ∀ quote ∈ tripleQuotes, '\n' ∉ quote := by decide

theorem canonical_stringOf {quote : Text} (hquote : quote ∈ tripleQuotes) {region : List Text}
    (hne : region ≠ []) (hnewline : ∀ l ∈ region, '\n' ∉ l) (hfree : ∀ l ∈ region, ¬ quote <:+: l) :
    Canonical quote (stringOf region) where
  trimmed := trim_trim _
  noQuote := by
    intro hin
    have hjoin := hin.trans (trim_isInfix _)
    cases region with
    | nil => exact hne rfl
    | cons first body =>
      -- a quote holds no line feed, so it would have to stand within one line
      obtain ⟨m, hm, hmark⟩ := exists_infix_of_join (newline_notMem_quote quote hquote) hjoin
      have hline : m ∈ outdent (first :: body) := hm
      obtain ⟨-, l, hl, hcut⟩ := exists_of_mem_outdent hline
      exact hfree l hl (hmark.trans hcut)
  lineEnds := by
    intro line hline
    obtain ⟨skipped, first, rest, trailing, hparts, -, hsplit⟩ := splitOn_stringOf hne hnewline
    have hend : ∀ m ∈ first :: rest, m.getLast?.any isBlank = false := by
      intro m hm
      have hmem : m ∈ outdent region := by
        rw [hparts]
        exact List.mem_append_left trailing (List.mem_append_right skipped hm)
      rw [← (exists_of_mem_outdent hmem).1]
      exact getLast?_trimEnd_any m
    rw [hsplit] at hline
    rcases List.mem_cons.1 hline with rfl | hline
    · by_cases hstart : trimStart first = []
      · rw [hstart]
        rfl
      · rw [getLast?_trimStart hstart]
        exact hend first (by simp)
    · exact hend line (List.mem_cons_of_mem first hline)

/-- The lines of an opened source hold no line feed, if the lines around them do not. -/
theorem Opens.newline_notMem {quote : Text} {lines source : List Text} {start : Nat}
    (h : Opens quote lines start source) (hlines : ∀ l ∈ lines, '\n' ∉ l) : ∀ l ∈ source, '\n' ∉ l := by
  obtain ⟨-, line, first, hline, htrim, rfl⟩ := h
  intro l hl hmem
  rcases List.mem_cons.1 hl with rfl | hl
  · have hcut : l <:+: line := by
      refine List.IsInfix.trans ?_ (trim_isInfix line)
      rw [htrim]
      exact (List.suffix_append quote l).isInfix
    exact hlines line (List.mem_of_getElem? hline) (hcut.subset hmem)
  · exact hlines l (List.mem_of_mem_drop hl) hmem

theorem Region.newline_notMem {quote : Text} {source region : List Text} (h : Region quote source region)
    (hsource : ∀ l ∈ source, '\n' ∉ l) : ∀ l ∈ region, '\n' ∉ l := by
  intro l hl hmem
  obtain ⟨i, hi⟩ := List.mem_iff_getElem?.1 hl
  obtain ⟨s, hs, hbegin⟩ := h.isPrefix hi
  exact hsource s (List.mem_of_getElem? hs) (hbegin.subset hmem)

/-- An opened string is canonical for its quote. -/
theorem Opens.canonical {quote : Text} {lines source : List Text} {start : Nat}
    (h : Opens quote lines start source) (hlines : ∀ l ∈ lines, '\n' ∉ l) :
    Canonical quote (docstring lines start) := by
  have hregion := region_bodyLines quote source
  have hne : source ≠ [] := by
    obtain ⟨-, line, first, -, -, rfl⟩ := h
    simp
  rw [docstring_of_region h hregion]
  exact canonical_stringOf h.1 (hregion.ne_nil hne) (hregion.newline_notMem (h.newline_notMem hlines))
    (hregion.noQuote (head_quote quote h.1).1)

theorem docstring_eq_nil_or_opens (lines : List Text) (start : Nat) :
    docstring lines start = [] ∨ ∃ quote source, Opens quote lines start source := by
  unfold docstring
  cases hdrop : lines.drop start with
  | nil => exact .inl rfl
  | cons line rest =>
    have hline : lines[start]? = some line := by
      have hfirst : (lines.drop start)[0]? = some line := by rw [hdrop]; rfl
      rwa [List.getElem?_drop, Nat.add_zero] at hfirst
    cases hopen : opening? (trim line) with
    | none => exact .inl (by simp only [hopen])
    | some found =>
      obtain ⟨quote, first⟩ := found
      obtain ⟨q, hq, hmap⟩ := List.exists_of_findSome?_eq_some hopen
      obtain ⟨r, hr, heq⟩ := Option.map_eq_some_iff.1 hmap
      cases heq
      exact .inr ⟨quote, _, hq, line, first, hline, after?_eq_some_iff.1 hr, rfl⟩

/-- No line of a documentation string ends in a blank. -/
theorem docstring_lineEnds {lines : List Text} (h : ∀ l ∈ lines, '\n' ∉ l) (start : Nat) :
    ∀ m ∈ splitOn '\n' (docstring lines start), m.getLast?.any isBlank = false := by
  rcases docstring_eq_nil_or_opens lines start with hnil | ⟨quote, source, hopens⟩
  · rw [hnil]
    decide
  · exact (hopens.canonical h).lineEnds

/-- **The texts that documentation strings have are the canonical ones:** every string that a quote opens is
canonical for it, and every canonical text is read back from its block, wherever that stands. -/
theorem docstring_canonical (quote : Text) (hquote : quote ∈ tripleQuotes) :
    (∀ (lines : List Text) (start : Nat) (line : Text), (∀ l ∈ lines, '\n' ∉ l) →
      lines[start]? = some line → startsWith (trim line) quote = true →
        Canonical quote (docstring lines start)) ∧
    ∀ text, Canonical quote text → ∀ w, allBlank w = true → '\n' ∉ w → ∀ above below : List Text,
      docstring (above ++ block w quote text ++ below) above.length = text := by
  constructor
  · intro lines start line hlines hline hstart
    obtain ⟨first, htrim⟩ := startsWith_iff.1 hstart
    have hopens : Opens quote lines start (first :: lines.drop (start + 1)) :=
      ⟨hquote, line, first, hline, htrim, rfl⟩
    have hregion := region_bodyLines quote (first :: lines.drop (start + 1))
    rw [docstring_of_region hopens hregion]
    exact canonical_stringOf hquote (hregion.ne_nil (by simp))
      (hregion.newline_notMem (hopens.newline_notMem hlines))
      (hregion.noQuote (head_quote quote hquote).1)
  · intro text htext w hw _ above below
    have hblock : (above ++ block w quote text ++ below).drop above.length = block w quote text ++ below := by
      rw [List.append_assoc, List.drop_left]
    exact docstring_block hquote hw htext hblock

/-- A string that begins on the opening line, with blank and indented lines, and that is closed in the middle
of a line. -/
def spreadLines : List Text :=
  ["def f():", "  '''  One ", "\t ", "     'two' ", "    3''' + '''", "x"].map String.toList

/-- It is read as a canonical text, which is read back from its block. -/
theorem docstring_spreadLines :
    docstring spreadLines 1 = "One\n\n 'two'\n3".toList ∧
    Canonical "'''" (docstring spreadLines 1) ∧
    docstring (["x".toList] ++ block "\t " "'''" (docstring spreadLines 1) ++ ["'''".toList]) 1 =
      docstring spreadLines 1 := by
  have hquote : "'''".toList ∈ tripleQuotes := by decide
  have hcanonical : Canonical "'''" (docstring spreadLines 1) :=
    (docstring_canonical "'''" hquote).1 spreadLines 1 "  '''  One " (by decide) rfl (by decide)
  refine ⟨by decide +kernel, hcanonical, ?_⟩
  exact (docstring_canonical "'''" hquote).2 _ hcanonical "\t " (by decide) (by decide) ["x".toList] _

end ToolCatalog.Doc
