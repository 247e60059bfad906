import ToolCatalog.Proofs.Doc.Block
import ToolCatalog.Proofs.Doc.Comments
import ToolCatalog.Proofs.Text.LineEnds

/-!
# Documentation does not hang on the ends of lines

Comments are read from trimmed lines. Documentation strings are read from the lines as they are: the
closing quote is searched in them and the indentation measured. Still neither trailing blanks
(`docstring_map_trimEnd`) nor empty lines at the end of the source, which a string without a closing quote
takes in (`docstring_append_empty`), show in what is read.
-/

namespace ToolCatalog.Doc

open Text

/-! ## Comments -/

theorem commentUpwards_map_trimEnd :
    ∀ ls texts : List Text, commentUpwards texts (ls.map trimEnd) = commentUpwards texts ls
  | [], _ => rfl
  | line :: ls, texts => by
    have ih := commentUpwards_map_trimEnd ls
    rw [List.map_cons, commentUpwards, commentUpwards]
    simp only [trim_trimEnd, ih]

/-! ## The closing quote -/

theorem tripleQuotes_not_blank : ∀ quote ∈ tripleQuotes, ∀ c ∈ quote, isBlank c = false := by
  have hall : tripleQuotes.all (fun quote => quote.all fun c => !isBlank c) = true := by decide
  intro quote hquote c hc
  simpa using List.all_eq_true.1 (List.all_eq_true.1 hall quote hquote) c hc

/-- Blanks after a text do not make it begin with a mark that has none. -/
theorem startsWith_append_blank {w : Text} (hw : allBlank w = true) :
    ∀ {mark s : Text}, (∀ c ∈ mark, isBlank c = false) →
      startsWith (s ++ w) mark = startsWith s mark
  | [], _, _ => rfl
  | m :: mark, [], h => by
    cases w with
    | nil => rfl
    | cons c w =>
      have hne : m ≠ c := by
        rintro rfl
        rw [allBlank, List.all_cons, h m (by simp)] at hw
        cases hw
      simp [startsWith, after?, hne]
  | m :: mark, c :: s, h => by
    have ih := startsWith_append_blank hw (s := s) fun d hd => h d (List.mem_cons_of_mem m hd)
    unfold startsWith at ih ⊢
    rw [List.cons_append, after?, after?]
    split
    · exact ih
    · rfl

theorem upTo?_append_blank {quote w : Text} (hquote : quote ∈ tripleQuotes) (hw : allBlank w = true) :
    ∀ s : Text, upTo? quote (s ++ w) = upTo? quote s
  | [] => by
    have hskip := upTo?_indented hquote [] hw
    rw [List.append_nil, (upTo?_quote quote hquote).2] at hskip
    rw [List.nil_append, hskip, (upTo?_quote quote hquote).2]
    rfl
  | c :: s => by
    have ih := upTo?_append_blank hquote hw s
    have hstart := startsWith_append_blank hw (s := c :: s) (tripleQuotes_not_blank quote hquote)
    rw [List.cons_append] at hstart ⊢
    rw [upTo?, upTo?, hstart, ih]

theorem upTo?_trimEnd {quote : Text} (hquote : quote ∈ tripleQuotes) (line : Text) :
    upTo? quote (trimEnd line) = upTo? quote line := by
  obtain ⟨w, hline, hw⟩ := trimEnd_append_blanks line
  have h := upTo?_append_blank hquote hw (trimEnd line)
  rw [← hline] at h
  exact h.symm

/-! ## The lines of the string -/

theorem bodyLines_map_trimEnd {quote : Text} (hquote : quote ∈ tripleQuotes) :
    ∀ ls : List Text, (bodyLines quote (ls.map trimEnd)).map trimEnd = (bodyLines quote ls).map trimEnd
  | [] => rfl
  | line :: ls => by
    have ih := bodyLines_map_trimEnd hquote ls
    rw [List.map_cons, bodyLines, bodyLines, upTo?_trimEnd hquote]
    cases upTo? quote line with
    | some part => rfl
    | none => simp only [List.map_cons, trimEnd_trimEnd, ih]

theorem indentation_trimEnd {line : Text} (h : allBlank line = false) :
    indentation (trimEnd line) = indentation line := by
  unfold indentation
  rw [takeWhile_blank_trimEnd h]

/-- Only lines that are not blank have a say in the indentation, and these begin alike. -/
theorem sharedIndentation_map_trimEnd (ls : List Text) :
    sharedIndentation (ls.map trimEnd) = sharedIndentation ls := by
  have hmap : ((ls.map trimEnd).filter fun l => !allBlank l).map indentation =
      (ls.filter fun l => !allBlank l).map indentation := by
    rw [List.filter_map, List.map_map]
    have hfilter : ((fun l => !allBlank l) ∘ trimEnd) = fun l => !allBlank l :=
      funext fun l => congrArg not (allBlank_trimEnd l)
    rw [hfilter]
    refine List.map_congr_left ?_
    intro l hl
    exact indentation_trimEnd (by simpa using (List.mem_filter.1 hl).2)
  unfold sharedIndentation
  rw [hmap]

theorem dedent_map_trimEnd (ls : List Text) : dedent (ls.map trimEnd) = dedent ls := by
  unfold dedent
  rw [sharedIndentation_map_trimEnd, List.map_map]
  refine List.map_congr_left ?_
  intro l _
  simp only [Function.comp, allBlank_trimEnd, trimEnd_drop_trimEnd]

/-- Lines that differ in trailing blanks are the same without their indentation. -/
theorem dedent_congr {ls ls' : List Text} (h : ls.map trimEnd = ls'.map trimEnd) :
    dedent ls = dedent ls' := by
  rw [← dedent_map_trimEnd ls, h, dedent_map_trimEnd]

theorem opening?_mem {s quote rest : Text} (h : opening? s = some (quote, rest)) :
    quote ∈ tripleQuotes := by
  obtain ⟨q, hq, hmap⟩ := List.exists_of_findSome?_eq_some h
  obtain ⟨r, -, heq⟩ := Option.map_eq_some_iff.1 hmap
  cases heq
  exact hq

/-- Trailing blanks do not show in a documentation string. -/
theorem docstring_map_trimEnd (ls : List Text) : docstring (ls.map trimEnd) 0 = docstring ls 0 := by
  cases ls with
  | nil => rfl
  | cons line ls =>
    unfold docstring
    simp only [List.drop_zero, List.map_cons, trim_trimEnd]
    cases hopen : opening? (trim line) with
    | none => rfl
    | some found =>
      obtain ⟨quote, first⟩ := found
      have hbody := dedent_congr (bodyLines_map_trimEnd (opening?_mem hopen) ls)
      simp only [hbody]

/-! ## Empty lines at the end of the source -/

theorem sharedIndentation_append_empty (ls : List Text) (n : Nat) :
    sharedIndentation (ls ++ List.replicate n []) = sharedIndentation ls := by
  have hnone : (List.replicate n ([] : Text)).filter (fun l => !allBlank l) = [] := by
    rw [List.filter_eq_nil_iff]
    intro l hl
    rw [List.eq_of_mem_replicate hl]
    decide
  unfold sharedIndentation
  rw [List.filter_append, hnone, List.append_nil]

theorem dedent_append_empty (ls : List Text) (n : Nat) :
    dedent (ls ++ List.replicate n []) = dedent ls ++ List.replicate n [] := by
  unfold dedent
  rw [sharedIndentation_append_empty, List.map_append, List.map_replicate]
  rfl

/-- Empty lines after the source are taken in only where the string is not closed. -/
theorem bodyLines_append_empty {quote : Text} (hquote : quote ∈ tripleQuotes) (n : Nat) :
    ∀ ls : List Text, ∃ k, bodyLines quote (ls ++ List.replicate n []) =
      bodyLines quote ls ++ List.replicate k []
  | [] => by
    refine ⟨n, ?_⟩
    rw [List.nil_append, bodyLines, List.nil_append]
    induction n with
    | zero => rfl
    | succ n ih =>
      rw [List.replicate_succ, bodyLines]
      simp only [(upTo?_quote quote hquote).2, ih]
  | line :: ls => by
    obtain ⟨k, ih⟩ := bodyLines_append_empty hquote n ls
    rw [List.cons_append, bodyLines, bodyLines]
    cases upTo? quote line with
    | some part => exact ⟨0, by simp⟩
    | none => exact ⟨k, by simp only [ih, List.cons_append]⟩

/-- Empty lines at the end of the source do not show in a documentation string. -/
theorem docstring_append_empty (ls : List Text) (n : Nat) :
    docstring (ls ++ List.replicate n []) 0 = docstring ls 0 := by
  cases ls with
  | nil =>
    cases n with
    | zero => rfl
    | succ n =>
      have hopen : opening? (trim []) = none := by decide
      simp only [docstring, List.drop_zero, List.nil_append, List.replicate_succ, hopen]
  | cons line ls =>
    unfold docstring
    simp only [List.drop_zero, List.cons_append]
    cases hopen : opening? (trim line) with
    | none => rfl
    | some found =>
      obtain ⟨quote, first⟩ := found
      obtain ⟨k, hbody⟩ := bodyLines_append_empty (opening?_mem hopen) n ls
      simp only [hbody, dedent_append_empty, trim_join_append_empty]

end ToolCatalog.Doc
