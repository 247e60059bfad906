import ToolCatalog.Proofs.Doc.Forward
import ToolCatalog.Proofs.Text.JoinedLines

/-!
# Closing marks

A comment is meant to end with its first closing mark. What the search makes of a line sees a closing mark in
two places only: at the end of the line, where it is dropped, and at its beginning, where the whole line is
passed over. So a comment after which nothing comes before the header is read up to its closing mark
(`textsFrom_of_closes`), and with something after the mark, the mark and what follows it count as text
(`infix_commentText_iff`), or are passed over together (`blockComment_closingLine`). `blockComment_closingMark`
says both of every list of lines.
-/

namespace ToolCatalog.Doc

open Text

/-- The comment of a header opens on the last of the trimmed lines above it that opens one, and every line
from there on goes on with it. -/
def Attached (above : List Text) (place : Nat) : Prop :=
  LastOpening above place ∧ ∀ t ∈ above.drop (place + 1), GoesOn t

/-- A comment from its opening mark on. -/
def commentFrom (above : List Text) (place : Nat) : List Text :=
  (above.getD place []).drop 3 :: above.drop (place + 1)

/-- What stands after the mark of a line that counts: the one that opens the comment, and those that begin with
a star and not with the closing mark. -/
def restsFrom (above : List Text) (place : Nat) : List Text :=
  (above.getD place []).drop 3 ::
    ((above.drop (place + 1)).filter fun t => startsWith t "*" && !startsWith t "*/").map (·.drop 1)

/-- A comment with nothing but blanks after its first closing mark. Its inside is what stands before that. -/
def Closes (source inside : List Text) : Prop :=
  ∃ (before : List Text) (part rest : Text) (below : List Text),
    source = before ++ (part ++ "*/" ++ rest) :: below ∧
    inside = before ++ [part] ∧ (∀ t ∈ inside, Unclosed t) ∧ ∀ t ∈ rest :: below, trim t = []

/-- The texts inside a comment: its first line, and what stands after the star of every other line that has
one. -/
def textsInside : List Text → List Text
  | [] => []
  | first :: body => trim first :: (body.filter (startsWith · "*")).map fun t => trim (t.drop 1)

/-- After a closing mark comes something other than blanks. -/
def RunsPast (s : Text) : Prop := ∃ a b, s = a ++ "*/" ++ b ∧ trim b ≠ []

/-! ## One line -/

/-- Trimming stops at a closing mark. -/
theorem trim_append_mark (a b : Text) : trim (a ++ "*/" ++ b) = trimStart a ++ "*/" ++ trimEnd b := by
  have hslash : trimEnd ('/' :: b) = '/' :: trimEnd b := trimEnd_cons_of_not_blank (by decide) b
  have hmark : trimEnd ('*' :: '/' :: b) = '*' :: '/' :: trimEnd b := by
    rw [trimEnd_cons_of_not_blank (by decide), hslash]
  have hsplit : a ++ "*/" ++ b = a ++ '*' :: '/' :: b := List.append_assoc ..
  rw [hsplit, trim, trimStart_append_of_not_blank (by decide),
    trimEnd_append_of_ne_nil _ (by rw [hmark]; simp), hmark, List.append_assoc]
  rfl

/-- A closing mark with only blanks after it is dropped. -/
theorem commentText_mark (a : Text) {b : Text} (hb : trim b = []) : commentText (a ++ "*/" ++ b) = trim a := by
  have hend : trimEnd b = [] := trimEnd_eq_nil_iff.2 (trim_eq_nil_iff.1 hb)
  have htrim := trim_append_mark a b
  rw [hend, List.append_nil] at htrim
  rw [commentText_closed htrim, trim_trimStart]

theorem commentText_of_unclosed {s : Text} (h : Unclosed s) : commentText s = trim s :=
  commentText_unclosed fun hsuffix => h (hsuffix.isInfix.trans (trim_isInfix s))

/-- A closing mark with something after it is not the one at the end of the text. -/
theorem exists_of_two_marks {a b r : Text} (hb : b ≠ []) (h : a ++ "*/" ++ b = r ++ "*/") :
    ∃ c, r = a ++ "*/" ++ c := by
  rcases List.append_eq_append_iff.1 h with ⟨c, hr, -⟩ | ⟨c, hr, hmark⟩
  · exact ⟨c, hr⟩
  · have hchars : c ++ b = ['*', '/'] := hmark.symm
    rcases List.append_eq_cons_iff.1 hchars with ⟨rfl, -⟩ | ⟨d, rfl, hd⟩
    · exact ⟨[], by simpa using hr.symm⟩
    · -- then the second mark would begin with the slash of the first
      rcases List.append_eq_cons_iff.1 hd.symm with ⟨rfl, -⟩ | ⟨e, -, he⟩
      · have hlast := congrArg List.getLast? hr
        simp at hlast
      · exact absurd (List.append_eq_nil_iff.1 he.symm).2 hb

/-- The text of a comment line holds a closing mark just when the line goes on after one. -/
theorem infix_commentText_iff {s : Text} : ("*/" : Text) <:+: commentText s ↔ RunsPast s := by
  constructor
  · rintro ⟨x, y, hxy⟩
    obtain ⟨u, w, hs, -, hw⟩ := trim_infix s
    by_cases hclosed : ("*/" : Text) <:+ trim s
    · obtain ⟨r, hr⟩ := hclosed
      rw [commentText_closed hr.symm] at hxy
      obtain ⟨u', w', hr', -, -⟩ := trim_infix r
      refine ⟨u ++ u' ++ x, y ++ w' ++ "*/" ++ w, ?_, ?_⟩
      · rw [hs, ← hr, hr', ← hxy]
        simp
      · rw [trim_append_mark]
        simp
    · rw [commentText_unclosed hclosed] at hxy
      refine ⟨u ++ x, y ++ w, by rw [hs, ← hxy]; simp, ?_⟩
      intro hblank
      rw [trim_eq_nil_iff, allBlank, List.all_append, Bool.and_eq_true] at hblank
      -- else the mark would be the last of the trimmed line
      have hy : y = [] := eq_nil_of_blank_end (trim_trim s) hxy.symm hblank.1
      rw [hy, List.append_nil] at hxy
      exact hclosed ⟨x, hxy⟩
  · rintro ⟨a, b, rfl, hb⟩
    have hend : trimEnd b ≠ [] := fun hnil => hb (trim_eq_nil_iff.2 (trimEnd_eq_nil_iff.1 hnil))
    have htrim := trim_append_mark a b
    by_cases hclosed : ("*/" : Text) <:+ trim (a ++ "*/" ++ b)
    · obtain ⟨r, hr⟩ := hclosed
      -- the mark at the end is dropped, and it is another one than the first
      obtain ⟨c, rfl⟩ := exists_of_two_marks hend (htrim.symm.trans hr.symm)
      rw [commentText_closed hr.symm, trim_append_mark]
      exact ⟨_, _, rfl⟩
    · rw [commentText_unclosed hclosed, htrim]
      exact ⟨_, _, rfl⟩

theorem commentText_eq_nil_iff {s : Text} : commentText s = [] ↔ trim s = [] ∨ trim s = "*/" := by
  constructor
  · intro h
    by_cases hclosed : ("*/" : Text) <:+ trim s
    · obtain ⟨r, hr⟩ := hclosed
      rw [commentText_closed hr.symm, trim_eq_nil_iff] at h
      have hstops := (stops_blank_of_trim (trim_trim s)).of_isPrefix ⟨_, hr⟩
      cases r with
      | nil => exact .inr hr.symm
      | cons c r =>
        have hc := List.all_eq_true.1 h c (by simp)
        rw [stops_cons.1 hstops] at hc
        cases hc
    · rw [commentText_unclosed hclosed] at h
      exact .inl h
  · rintro (hnil | hmark)
    · rw [commentText_unclosed, hnil]
      rw [hnil]
      decide
    · exact commentText_closed (r := []) hmark

/-! ## The lines of a comment -/

theorem textsFrom_eq (above : List Text) (place : Nat) :
    textsFrom above place = (restsFrom above place).map commentText := by
  unfold textsFrom restsFrom starTexts
  rw [List.map_cons, List.map_map]
  rfl

theorem starTexts_append (ts us : List Text) : starTexts (ts ++ us) = starTexts ts ++ starTexts us := by
  unfold starTexts
  rw [List.filter_append, List.map_append]

theorem startsWith_star_of_blank {t : Text} (h : trim t = []) : startsWith t "*" = false := by
  rw [trim_eq_nil_iff] at h
  rw [← Bool.not_eq_true, startsWith_iff]
  rintro ⟨r, rfl⟩
  cases List.all_eq_true.1 h '*' (by simp)

theorem starTexts_blank {ts : List Text} (h : ∀ t ∈ ts, trim t = []) : starTexts ts = [] := by
  have hnone : ts.filter (fun t => startsWith t "*" && !startsWith t "*/") = [] := by
    rw [List.filter_eq_nil_iff]
    intro t ht
    rw [startsWith_star_of_blank (h t ht)]
    simp
  unfold starTexts
  rw [hnone]
  rfl

/-- A line without a closing mark counts with all that stands after its star. -/
theorem starTexts_unclosed {ts : List Text} (h : ∀ t ∈ ts, Unclosed t) :
    starTexts ts = (ts.filter (startsWith · "*")).map fun t => trim (t.drop 1) := by
  have hkept : ts.filter (fun t => startsWith t "*" && !startsWith t "*/") =
      ts.filter (startsWith · "*") := by
    refine List.filter_congr fun t ht => ?_
    have hclose : startsWith t "*/" = false := by
      rw [← Bool.not_eq_true, startsWith_iff]
      rintro ⟨r, rfl⟩
      exact h _ ht (List.prefix_append _ _).isInfix
    rw [hclose, Bool.not_false, Bool.and_true]
  unfold starTexts
  rw [hkept]
  refine List.map_congr_left fun t ht => ?_
  refine commentText_of_unclosed fun hmark => ?_
  exact h t (List.mem_filter.1 ht).1 (hmark.trans (List.drop_suffix 1 t).isInfix)

/-- The line on which a comment closes counts with what stands between its star and the closing mark. -/
theorem starTexts_closing {part rest : Text} (hgoes : GoesOn (part ++ "*/" ++ rest)) (hpart : Unclosed part)
    (hrest : trim rest = []) :
    starTexts [part ++ "*/" ++ rest] = ([part].filter (startsWith · "*")).map fun t => trim (t.drop 1) := by
  cases part with
  | nil => exact starTexts_star _
  | cons c p =>
    obtain rfl : c = '*' := by
      rcases hgoes with hnil | hstar
      · cases hnil
      · obtain ⟨r, hr⟩ := startsWith_iff.1 hstar
        exact (List.cons.inj hr).1
    have hclose : ¬ startsWith ('*' :: (p ++ "*/" ++ rest)) "*/" = true := by
      rw [startsWith_iff]
      rintro ⟨r, hr⟩
      cases p with
      | nil => cases hr
      | cons d p =>
        -- the mark would stand at the start of the part itself
        have hd : d = '/' := by
          have htail := (List.cons.inj hr).2
          exact (List.cons.inj htail).1
        exact hpart ⟨[], p, by rw [hd]; rfl⟩
    have hline : '*' :: p ++ "*/" ++ rest = '*' :: (p ++ "*/" ++ rest) := rfl
    rw [hline, starTexts_star, if_neg hclose, commentText_mark p hrest]
    rfl

/-- **A comment that closes with nothing after it is read up to its closing mark.** -/
theorem textsFrom_of_closes {above inside : List Text} {place : Nat} (hplace : Attached above place)
    (hcloses : Closes (commentFrom above place) inside) : textsFrom above place = textsInside inside := by
  obtain ⟨before, part, rest, below, hsource, rfl, hunclosed, hblank⟩ := hcloses
  have hpart : Unclosed part := hunclosed part (by simp)
  have hrest : trim rest = [] := hblank rest (by simp)
  have hbelow : starTexts below = [] := starTexts_blank fun t ht => hblank t (List.mem_cons_of_mem rest ht)
  unfold commentFrom at hsource
  unfold textsFrom
  cases before with
  | nil =>
    rw [List.nil_append, List.cons.injEq] at hsource
    rw [hsource.1, hsource.2, hbelow, commentText_mark part hrest]
    rfl
  | cons first before =>
    rw [List.cons_append, List.cons.injEq] at hsource
    have hgoes : GoesOn (part ++ "*/" ++ rest) := hplace.2 _ (by rw [hsource.2]; simp)
    have hbefore := starTexts_unclosed fun t (ht : t ∈ before) => hunclosed t (by simp [ht])
    rw [hsource.1, hsource.2, commentText_of_unclosed (hunclosed first (by simp)), starTexts_append,
      starTexts_cons, starTexts_closing hgoes hpart hrest, hbelow, hbefore, List.append_nil,
      ← List.map_append, ← List.filter_append]
    rfl

theorem Closes.unclosed {source inside : List Text} (h : Closes source inside) : ∀ t ∈ inside, Unclosed t := by
  obtain ⟨_, _, _, _, -, -, hunclosed, -⟩ := h
  exact hunclosed

theorem unclosed_textsInside {inside : List Text} (h : ∀ t ∈ inside, Unclosed t) :
    ∀ t ∈ textsInside inside, Unclosed t := by
  cases inside with
  | nil => simp [textsInside]
  | cons first body =>
    intro t ht
    rcases List.mem_cons.1 ht with rfl | ht
    · exact fun hmark => h first (by simp) (hmark.trans (trim_isInfix first))
    · obtain ⟨line, hline, rfl⟩ := List.mem_map.1 ht
      have hinfix := (trim_isInfix (line.drop 1)).trans (List.drop_suffix 1 line).isInfix
      exact fun hmark => h line (by simp [(List.mem_filter.1 hline).1]) (hmark.trans hinfix)

/-! ## The comment of a header -/

theorem mem_filled {t : Text} {ts : List Text} : t ∈ filled ts ↔ t ∈ ts ∧ t ≠ [] := by
  unfold filled
  rw [List.mem_filter]
  cases t <;> simp

theorem infix_join_filled_iff {ts : List Text} :
    ("*/" : Text) <:+: join " " (filled ts) ↔ ∃ t ∈ ts, ("*/" : Text) <:+: t := by
  constructor
  · intro h
    cases hfilled : filled ts with
    | nil =>
      rw [hfilled] at h
      cases List.infix_nil.1 h
    | cons u us =>
      rw [hfilled] at h
      obtain ⟨t, ht, hmark⟩ := exists_infix_of_join (show ' ' ∉ ("*/" : Text) by decide) h
      rw [← hfilled] at ht
      exact ⟨t, (mem_filled.1 ht).1, hmark⟩
  · rintro ⟨t, ht, hmark⟩
    have hne : t ≠ [] := by
      rintro rfl
      cases List.infix_nil.1 hmark
    exact hmark.trans (infix_join " " (mem_filled.2 ⟨ht, hne⟩))

theorem join_filled_eq_nil_iff {ts : List Text} : join " " (filled ts) = [] ↔ ∀ t ∈ ts, t = [] := by
  constructor
  · intro h t ht
    by_contra hne
    have hinfix := infix_join " " (mem_filled.2 ⟨ht, hne⟩)
    rw [h] at hinfix
    exact hne (List.infix_nil.1 hinfix)
  · intro h
    have hfilled : filled ts = [] := by
      rw [List.eq_nil_iff_forall_not_mem]
      intro t ht
      exact (mem_filled.1 ht).2 (h t (mem_filled.1 ht).1)
    rw [hfilled]
    rfl

section

variable {lines : List Text} {header : Nat}

theorem blockComment_attached {place : Nat} (h : Attached ((lines.take header).map trim) place) :
    blockComment lines header = join " " (filled (textsFrom ((lines.take header).map trim) place)) :=
  blockComment_of_opening h.1 h.2

/-- A closing mark stands in the comment just when one of the lines that count goes on after one. -/
theorem infix_blockComment_iff :
    ("*/" : Text) <:+: blockComment lines header ↔ ∃ place, Attached ((lines.take header).map trim) place ∧
      ∃ r ∈ restsFrom ((lines.take header).map trim) place, RunsPast r := by
  constructor
  · intro h
    by_cases hnone : ∃ place, Attached ((lines.take header).map trim) place
    · obtain ⟨place, hplace⟩ := hnone
      rw [blockComment_attached hplace, infix_join_filled_iff, textsFrom_eq] at h
      obtain ⟨t, ht, hmark⟩ := h
      obtain ⟨r, hr, rfl⟩ := List.mem_map.1 ht
      exact ⟨place, hplace, r, hr, infix_commentText_iff.1 hmark⟩
    · rw [blockComment_eq_nil hnone] at h
      cases List.infix_nil.1 h
  · rintro ⟨place, hplace, r, hr, hpast⟩
    rw [blockComment_attached hplace, infix_join_filled_iff, textsFrom_eq]
    exact ⟨_, List.mem_map_of_mem hr, infix_commentText_iff.2 hpast⟩

/-- The comment is empty just when none of the lines that count holds more than a closing mark. -/
theorem blockComment_eq_nil_iff :
    blockComment lines header = [] ↔ ∀ place, Attached ((lines.take header).map trim) place →
      ∀ r ∈ restsFrom ((lines.take header).map trim) place, trim r = [] ∨ trim r = "*/" := by
  constructor
  · intro h place hplace r hr
    rw [blockComment_attached hplace, join_filled_eq_nil_iff, textsFrom_eq, List.forall_mem_map] at h
    exact commentText_eq_nil_iff.1 (h r hr)
  · intro h
    by_cases hnone : ∃ place, Attached ((lines.take header).map trim) place
    · obtain ⟨place, hplace⟩ := hnone
      rw [blockComment_attached hplace, join_filled_eq_nil_iff, textsFrom_eq, List.forall_mem_map]
      exact fun r hr => commentText_eq_nil_iff.2 (h place hplace r hr)
    · exact blockComment_eq_nil hnone

end

/-! ## Lines that begin with the closing mark -/

/-- What the search finds depends on the lines further up only through what it finds there. -/
theorem commentUpwards_congr {above above' : List Text}
    (h : ∀ texts, commentUpwards texts above = commentUpwards texts above') :
    ∀ ls texts : List Text, commentUpwards texts (ls ++ above) = commentUpwards texts (ls ++ above')
  | [], texts => h texts
  | l :: ls, texts => by
    have ih := commentUpwards_congr h ls
    simp only [List.cons_append, commentUpwards, ih]

theorem commentUpwards_closingLine {line : Text} (h : startsWith (trim line) "*/" = true)
    (texts above : List Text) : commentUpwards texts (line :: above) = commentUpwards texts above := by
  rw [commentUpwards, h, Bool.or_true]
  rfl

/-- A line that begins with the closing mark is passed over with all that it holds. -/
theorem blockComment_closingLine (before : List Text) {line : Text} (below : List Text) (header : Nat)
    (h : startsWith (trim line) "*/" = true) :
    blockComment (before ++ line :: below) header =
      blockComment (before ++ ("*/" : Text) :: below) header := by
  unfold blockComment
  by_cases hheader : header ≤ before.length
  · rw [List.take_append_of_le_length hheader, List.take_append_of_le_length hheader]
  · obtain ⟨n, rfl⟩ : ∃ n, header = before.length + (n + 1) := ⟨header - before.length - 1, by omega⟩
    rw [List.take_length_add_append, List.take_length_add_append, List.take_succ_cons, List.take_succ_cons,
      List.reverse_append, List.reverse_append, List.reverse_cons, List.reverse_cons, List.append_assoc,
      List.append_assoc]
    refine commentUpwards_congr ?_ _ []
    intro texts
    rw [List.singleton_append, List.singleton_append, commentUpwards_closingLine h,
      commentUpwards_closingLine (by decide)]

/-! ## Closing marks in all places -/

/-- **A comment is read up to its closing mark, if nothing comes after that.** It then holds no closing mark.
In general it holds one just when a line that counts goes on after one, it is empty just when no such line
holds more than a closing mark, and a line that begins with the mark is passed over with all that it holds. -/
theorem blockComment_closingMark (lines : List Text) (header : Nat) :
    let above := (lines.take header).map trim
    (∀ place inside, Attached above place → Closes (commentFrom above place) inside →
      blockComment lines header = join " " (filled (textsInside inside)) ∧
      Unclosed (blockComment lines header)) ∧
    (("*/" : Text) <:+: blockComment lines header ↔
      ∃ place, Attached above place ∧ ∃ r ∈ restsFrom above place, RunsPast r) ∧
    (blockComment lines header = [] ↔
      ∀ place, Attached above place → ∀ r ∈ restsFrom above place, trim r = [] ∨ trim r = "*/") ∧
    ∀ before line below, lines = before ++ line :: below → startsWith (trim line) "*/" = true →
      blockComment lines header = blockComment (before ++ ("*/" : Text) :: below) header := by
  intro above
  refine ⟨?_, infix_blockComment_iff, blockComment_eq_nil_iff, ?_⟩
  · intro place inside hplace hcloses
    have hread : blockComment lines header = join " " (filled (textsInside inside)) := by
      rw [blockComment_attached hplace, textsFrom_of_closes hplace hcloses]
    refine ⟨hread, ?_⟩
    rw [hread]
    intro hmark
    obtain ⟨t, ht, hmark⟩ := infix_join_filled_iff.1 hmark
    exact unclosed_textsInside hcloses.unclosed t ht hmark
  · rintro before line below rfl hline
    exact blockComment_closingLine before below header hline

/-- A comment that closes on its second line, with a blank line after it. -/
def closedLines : List Text := ["/** One", " * two */", "", "function f() {}"].map String.toList

/-- The comment is read up to its mark; code after the mark at the start of a line changes nothing. -/
theorem blockComment_closedLines :
    Attached ((closedLines.take 3).map trim) 0 ∧
    Closes (commentFrom ((closedLines.take 3).map trim) 0) [" One".toList, "* two ".toList] ∧
    blockComment closedLines 3 = "One two".toList ∧ Unclosed (blockComment closedLines 3) ∧
    blockComment ["/** One".toList, " */ x()".toList] 2 = blockComment ["/** One".toList, "*/".toList] 2 := by
  have hattached : Attached ((closedLines.take 3).map trim) 0 :=
    ⟨lastOpening_append [] (t := "/** One".toList) rfl (by decide), by decide⟩
  have hcloses : Closes (commentFrom ((closedLines.take 3).map trim) 0) [" One".toList, "* two ".toList] :=
    ⟨[" One".toList], "* two ".toList, [], [[]], by decide +kernel, rfl, by decide, by decide⟩
  obtain ⟨hread, hunclosed⟩ := (blockComment_closingMark closedLines 3).1 0 _ hattached hcloses
  refine ⟨hattached, hcloses, hread, hunclosed, ?_⟩
  exact (blockComment_closingMark _ 2).2.2.2 ["/** One".toList] " */ x()".toList [] rfl (by decide)

/-- Code after a closing mark becomes text of the comment where the line opens it, and goes unnoticed where the
line begins with the mark. A comment of nothing but its marks, one star for both, has a slash for its text. -/
theorem blockComment_codeAfterMark :
    blockComment ["/** Doc. */ const x = 1;".toList] 1 = "Doc. */ const x = 1;".toList ∧
    blockComment ["/** Doc.".toList, " */ const x = 1;".toList] 2 = "Doc.".toList ∧
    blockComment ["/**/".toList] 1 = "/".toList := by
  decide +kernel

end ToolCatalog.Doc
