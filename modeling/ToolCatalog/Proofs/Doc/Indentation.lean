import ToolCatalog.Proofs.Doc.Canonical

/-!
# Documentation strings lose blanks only

Between its quotes a documentation string keeps every character that is not blank, in order
(`visible_stringOf`), and its lines keep their indentation against each other, but for the first
(`liesIn_stringOf`). Both come from the same fact: the shared indentation is at most the indentation of each
line that is not blank (`sharedIndentation_le`), so what is dropped from a line are blanks.
-/

namespace ToolCatalog.Doc

open Text

/-- The characters of a text that are not blank. -/
def visible (s : Text) : Text := s.filter fun c => !isBlank c

/-- How the lines of a documentation string lie in its region, and so in its source: line `i` of the string
has the text of line `skipped + i`, the lines before and after these are blank, and from the second on, lines
that are not blank differ in indentation as the lines of the source do. -/
structure LiesIn (source region out : List Text) (skipped : Nat) : Prop where
  texts : ∀ {i : Nat} {line : Text}, out[i]? = some line →
    ∃ l, region[skipped + i]? = some l ∧ trim line = trim l
  blank : ∀ {i : Nat} {l : Text}, region[i]? = some l → i < skipped ∨ skipped + out.length ≤ i →
    allBlank l = true
  indentation : ∀ {i j : Nat} {s s' line line' : Text}, 0 < i → 0 < j →
    source[skipped + i]? = some s → out[i]? = some line → allBlank line = false →
    source[skipped + j]? = some s' → out[j]? = some line' → allBlank line' = false →
      (indentation line : Int) - indentation line' = indentation s - indentation s'

/-! ## Visible characters -/

theorem visible_append (s t : Text) : visible (s ++ t) = visible s ++ visible t := List.filter_append ..

theorem visible_of_blank {w : Text} (h : allBlank w = true) : visible w = [] := by
  unfold visible
  rw [List.filter_eq_nil_iff]
  intro c hc
  simp [List.all_eq_true.1 h c hc]

theorem visible_trim (s : Text) : visible (trim s) = visible s := by
  obtain ⟨u, w, hs, hu, hw⟩ := trim_infix s
  have hvisible := congrArg visible hs
  rw [visible_append, visible_append, visible_of_blank hu, visible_of_blank hw, List.append_nil,
    List.nil_append] at hvisible
  exact hvisible.symm

theorem visible_join (ts : List Text) : visible (join "\n" ts) = visible ts.flatten := by
  induction ts with
  | nil => rfl
  | cons t ts ih =>
    by_cases hts : ts = []
    · simp [hts, join]
    · have hnewline : visible "\n" = [] := by decide
      rw [join_cons _ _ hts, visible_append, visible_append, ih, hnewline, List.append_nil,
        List.flatten_cons, visible_append]

/-! ## Dropping indentation -/

/-- Within its indentation a line is cut between blanks. -/
theorem drop_of_le_indentation {l : Text} {n : Nat} (h : n ≤ indentation l) :
    l.drop n = (l.takeWhile isBlank).drop n ++ trimStart l := by
  have hdrop : (l.takeWhile isBlank ++ trimStart l).drop n =
      (l.takeWhile isBlank).drop n ++ trimStart l := List.drop_append_of_le_length h
  rw [trimStart, List.takeWhile_append_dropWhile] at hdrop
  exact hdrop

theorem allBlank_drop_takeWhile (l : Text) (n : Nat) :
    allBlank ((l.takeWhile isBlank).drop n) = true := by
  rw [allBlank, List.all_eq_true]
  intro c hc
  exact List.mem_takeWhile_imp (List.mem_of_mem_drop hc)

theorem trim_drop {l : Text} {n : Nat} (h : n ≤ indentation l) : trim (l.drop n) = trim l := by
  have hblanks := trim_blanks (w := []) (allBlank_drop_takeWhile l n) (trimStart l) rfl
  rw [List.append_nil, ← drop_of_le_indentation h, trim_trimStart] at hblanks
  exact hblanks

theorem indentation_drop {l : Text} {n : Nat} (h : n ≤ indentation l) :
    indentation l = n + indentation (l.drop n) := by
  have hrun := takeWhile_run (allBlank_drop_takeWhile l n) (stops_dropWhile isBlank l)
  rw [← trimStart, ← drop_of_le_indentation h] at hrun
  unfold indentation at h ⊢
  rw [hrun, List.length_drop]
  omega

/-- No line that is not blank has less than the shared indentation. -/
theorem sharedIndentation_le {lines : List Text} {l : Text} (hl : l ∈ lines)
    (hblank : allBlank l = false) : sharedIndentation lines ≤ indentation l := by
  refine List.min?_getD_le_of_mem (List.mem_map_of_mem (List.mem_filter.2 ⟨hl, ?_⟩))
  simp [hblank]

/-- The beginning of a line is indented as the line is, unless it is blank. -/
theorem indentation_of_isPrefix {l s : Text} (hblank : allBlank l = false) (h : l <+: s) :
    indentation s = indentation l := by
  obtain ⟨t, rfl⟩ := h
  unfold indentation
  rw [takeWhile_blank_append hblank]

/-! ## The lines of a string and those of its region -/

/-- What becomes of a line of the region, by its place. -/
theorem getElem?_outdent_succ (first : Text) (body : List Text) (i : Nat) :
    (outdent (first :: body))[i + 1]? = body[i]?.map fun l =>
      if allBlank l then [] else trimEnd (l.drop (sharedIndentation body)) := by
  simp [outdent, dedent]

theorem length_outdent (region : List Text) : (outdent region).length = region.length := by
  cases region with
  | nil => rfl
  | cons first body => simp [outdent, dedent]

/-- A line is put together with the text that it has in the region. -/
theorem trim_outdent {region : List Text} {i : Nat} {m l : Text} (hm : (outdent region)[i]? = some m)
    (hl : region[i]? = some l) : trim m = trim l := by
  cases region with
  | nil => cases hl
  | cons first body =>
    cases i with
    | zero =>
      cases hm
      cases hl
      exact trim_trimEnd l
    | succ i =>
      rw [List.getElem?_cons_succ] at hl
      rw [getElem?_outdent_succ, hl, Option.map_some, Option.some.injEq] at hm
      subst hm
      by_cases hblank : allBlank l = true
      · rw [if_pos hblank, trim_eq_nil_iff.2 hblank]
        rfl
      · rw [if_neg hblank, trim_trimEnd]
        exact trim_drop (sharedIndentation_le (List.mem_of_getElem? hl) (by simpa using hblank))

/-- Below the first, a line that is not blank loses the shared indentation. -/
theorem indentation_outdent {region : List Text} {i : Nat} {m l : Text} (hi : 0 < i)
    (hm : (outdent region)[i]? = some m) (hl : region[i]? = some l) (hblank : allBlank m = false) :
    allBlank l = false ∧ indentation l = sharedIndentation region.tail + indentation m := by
  cases region with
  | nil => cases hl
  | cons first body =>
    cases i with
    | zero => cases hi
    | succ i =>
      rw [List.getElem?_cons_succ] at hl
      rw [getElem?_outdent_succ, hl, Option.map_some, Option.some.injEq] at hm
      subst hm
      by_cases hl' : allBlank l = true
      · rw [if_pos hl'] at hblank
        cases hblank
      · rw [if_neg hl'] at hblank ⊢
        rw [allBlank_trimEnd] at hblank
        rw [Bool.not_eq_true] at hl'
        refine ⟨hl', ?_⟩
        rw [indentation_trimEnd hblank]
        exact indentation_drop (sharedIndentation_le (List.mem_of_getElem? hl) hl')

/-- The visible characters of a region are kept. -/
theorem visible_stringOf (region : List Text) :
    visible (stringOf region) = visible region.flatten := by
  have hlines : (outdent region).map visible = region.map visible := by
    refine List.ext_getElem (by simp [length_outdent]) ?_
    intro i hm hl
    rw [List.length_map] at hm hl
    have htrim := trim_outdent (List.getElem?_eq_getElem hm) (List.getElem?_eq_getElem hl)
    rw [List.getElem_map, List.getElem_map, ← visible_trim, htrim, visible_trim]
  have hflatten : ∀ ls : List Text, visible ls.flatten = (ls.map visible).flatten := fun _ =>
    List.filter_flatten
  rw [stringOf, visible_trim, visible_join, hflatten, hlines, ← hflatten]

theorem exists_of_outdent {region : List Text} {i : Nat} {m : Text} (h : (outdent region)[i]? = some m) :
    ∃ l, region[i]? = some l ∧ trim m = trim l := by
  obtain ⟨hlt, -⟩ := List.getElem?_eq_some_iff.1 h
  rw [length_outdent] at hlt
  have hl := List.getElem?_eq_getElem hlt
  exact ⟨_, hl, trim_outdent h hl⟩

/-- Below the first, a line that is not blank has lost the shared indentation of its line in the source. -/
theorem indentation_source {quote : Text} {source region : List Text} (hregion : Region quote source region)
    {i : Nat} {s m : Text} (hi : 0 < i) (hs : source[i]? = some s) (hm : (outdent region)[i]? = some m)
    (hblank : allBlank m = false) : indentation s = sharedIndentation region.tail + indentation m := by
  obtain ⟨l, hl, -⟩ := exists_of_outdent hm
  obtain ⟨hvisible, hshared⟩ := indentation_outdent hi hm hl hblank
  obtain ⟨s', hs', hbegin⟩ := hregion.isPrefix hl
  rw [hs] at hs'
  cases hs'
  rw [indentation_of_isPrefix hvisible hbegin, hshared]

/-! ## The lines that trimming leaves -/

theorem getElem?_middle {a b : List Text} (c : List Text) {i : Nat} {x : Text} (h : b[i]? = some x) :
    (a ++ b ++ c)[a.length + i]? = some x := by
  obtain ⟨hlt, -⟩ := List.getElem?_eq_some_iff.1 h
  rw [List.append_assoc, List.getElem?_append_right (by omega), Nat.add_sub_cancel_left,
    List.getElem?_append_left hlt, h]

theorem mem_of_getElem?_outer {a b c : List Text} {i : Nat} {x : Text} (h : (a ++ b ++ c)[i]? = some x)
    (hi : i < a.length ∨ a.length + b.length ≤ i) : x ∈ a ++ c := by
  rcases hi with hi | hi
  · rw [List.append_assoc, List.getElem?_append_left hi] at h
    exact List.mem_append_left c (List.mem_of_getElem? h)
  · rw [List.getElem?_append_right (by simpa using hi)] at h
    exact List.mem_append_right a (List.mem_of_getElem? h)

/-- The lines of a documentation string lie in its region, with the indentation they have there. -/
theorem liesIn_stringOf {quote : Text} {source region : List Text} (hregion : Region quote source region)
    (hne : region ≠ []) (hnewline : ∀ l ∈ region, '\n' ∉ l) :
    ∃ skipped, LiesIn source region (splitOn '\n' (stringOf region)) skipped := by
  obtain ⟨skipped, first, rest, trailing, hparts, hempty, hsplit⟩ := splitOn_stringOf hne hnewline
  -- the lines of the string are those put together, but that the first has lost its leading blanks
  have hline : ∀ {i : Nat} {line : Text}, (trimStart first :: rest)[i]? = some line →
      ∃ m, (outdent region)[skipped.length + i]? = some m ∧ trim line = trim m ∧ (0 < i → m = line) := by
    intro i line hline
    rw [hparts]
    cases i with
    | zero =>
      cases hline
      exact ⟨first, getElem?_middle trailing rfl, trim_trimStart first, by simp⟩
    | succ i => exact ⟨line, getElem?_middle trailing hline, rfl, fun _ => rfl⟩
  have hsource : ∀ {i : Nat} {s line : Text}, 0 < i → source[skipped.length + i]? = some s →
      (trimStart first :: rest)[i]? = some line → allBlank line = false →
        indentation s = sharedIndentation region.tail + indentation line := by
    intro i s line hi hs hout hblank
    obtain ⟨m, hm, -, hself⟩ := hline hout
    rw [hself hi] at hm
    exact indentation_source hregion (by omega) hs hm hblank
  refine ⟨skipped.length, ?_⟩
  rw [hsplit]
  refine ⟨?_, ?_, ?_⟩
  · intro i line hout
    obtain ⟨m, hm, htrim, -⟩ := hline hout
    obtain ⟨l, hl, htext⟩ := exists_of_outdent hm
    exact ⟨l, hl, htrim.trans htext⟩
  · intro i l hl hi
    obtain ⟨hlt, -⟩ := List.getElem?_eq_some_iff.1 hl
    rw [← length_outdent] at hlt
    have hm := List.getElem?_eq_getElem hlt
    have htrim := trim_outdent hm hl
    have hnil : (outdent region)[i] = [] := by
      simp only [hparts] at hm ⊢
      exact hempty _ (mem_of_getElem?_outer hm (by simpa using hi))
    rw [hnil] at htrim
    exact trim_eq_nil_iff.1 htrim.symm
  · intro i j s s' line line' hi hj hs hout hblank hs' hout' hblank'
    have hone := hsource hi hs hout hblank
    have htwo := hsource hj hs' hout' hblank'
    omega

/-- **A documentation string loses blanks only.** Its region is fixed by the source; the string has the visible
characters of the region, depends on nothing else, and its lines keep their indentation against each other. -/
theorem docstring_visible {quote : Text} {lines source : List Text} {start : Nat}
    (hlines : ∀ l ∈ lines, '\n' ∉ l) (hopens : Opens quote lines start source) :
    (∃! region, Region quote source region) ∧
    ∀ region, Region quote source region →
      visible (docstring lines start) = visible region.flatten ∧
      (∀ (lines' source' : List Text) (start' : Nat), Opens quote lines' start' source' →
        Region quote source' region → docstring lines' start' = docstring lines start) ∧
      ∃ skipped, LiesIn source region (splitOn '\n' (docstring lines start)) skipped := by
  refine ⟨⟨bodyLines quote source, region_bodyLines quote source, ?_⟩, ?_⟩
  · intro region hregion
    exact (region_iff.1 hregion).symm
  · intro region hregion
    have hdoc := docstring_of_region hopens hregion
    have hne : region ≠ [] := by
      obtain ⟨-, line, first, -, -, rfl⟩ := hopens
      exact hregion.ne_nil (by simp)
    have hnewline := hregion.newline_notMem (hopens.newline_notMem hlines)
    refine ⟨?_, ?_, ?_⟩
    · rw [hdoc, visible_stringOf]
    · intro lines' source' start' hopens' hregion'
      rw [hdoc, docstring_of_region hopens' hregion']
    · rw [hdoc]
      exact liesIn_stringOf hregion hne hnewline

/-- What stands between the quotes of the string that is spread over lines. -/
def spreadRegion : List Text := ["  One", "\t ", "     'two' ", "    3"].map String.toList

/-- The string has the visible characters of this region. Read from a source that has other lines before it
and nothing after the closing quote, it is the same. -/
theorem docstring_visible_spreadLines :
    ∃ source, Opens "'''" spreadLines 1 source ∧ Region "'''" source spreadRegion ∧
      visible (docstring spreadLines 1) = visible spreadRegion.flatten ∧
      visible spreadRegion.flatten = "One'two'3".toList ∧
      docstring (["'''  One", "\t ", "     'two' ", "    3'''"].map String.toList) 0 =
        docstring spreadLines 1 ∧
      ∃ skipped, LiesIn source spreadRegion (splitOn '\n' (docstring spreadLines 1)) skipped := by
  have hquote : "'''".toList ∈ tripleQuotes := by decide
  have hopens : Opens "'''" spreadLines 1 ("  One".toList :: spreadLines.drop 2) :=
    ⟨hquote, _, _, rfl, by decide, rfl⟩
  have hregion : Region "'''" ("  One".toList :: spreadLines.drop 2) spreadRegion :=
    region_iff.2 (by decide +kernel)
  have hopens' : Opens "'''" (["'''  One", "\t ", "     'two' ", "    3'''"].map String.toList) 0
      (["  One", "\t ", "     'two' ", "    3'''"].map String.toList) :=
    ⟨hquote, _, _, rfl, by decide, rfl⟩
  have hregion' : Region "'''" (["  One", "\t ", "     'two' ", "    3'''"].map String.toList)
      spreadRegion := region_iff.2 (by decide +kernel)
  obtain ⟨-, hall⟩ := docstring_visible (by decide) hopens
  obtain ⟨hvisible, hsame, hlies⟩ := hall spreadRegion hregion
  exact ⟨_, hopens, hregion, hvisible, by decide +kernel, hsame _ _ _ hopens' hregion', hlies⟩

end ToolCatalog.Doc
