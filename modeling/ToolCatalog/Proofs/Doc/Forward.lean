import Mathlib.Order.Bounds.Basic
import ToolCatalog.Proofs.Doc.Comments

/-!
# Comments read from top to bottom

A comment is searched upwards from its header, and its texts are collected on the way. Read downwards it is
this: the last line above the header that opens a comment, if every line from there to the header is blank or
begins with a star, and the texts of these lines in their order (`blockComment_forward`). One step of the
search over such a line puts its text before those found below it (`commentUpwards_goesOn`); the run over all
of them gives their texts from top to bottom (`commentUpwards_body`).
-/

namespace ToolCatalog.Doc

open Text

/-- At this place stands the last of some trimmed lines that opens a comment. -/
def LastOpening (above : List Text) (place : Nat) : Prop :=
  IsGreatest {i | ∃ t, above[i]? = some t ∧ startsWith t "/**" = true} place

/-- A trimmed line with which a comment can go on. -/
def GoesOn (t : Text) : Prop := t = [] ∨ startsWith t "*" = true

instance (t : Text) : Decidable (GoesOn t) := inferInstanceAs (Decidable (t = [] ∨ startsWith t "*" = true))

/-- The texts of the lines that begin with a star, those with the closing mark left out. -/
def starTexts (ts : List Text) : List Text :=
  (ts.filter fun t => startsWith t "*" && !startsWith t "*/").map fun t => commentText (t.drop 1)

/-- The texts of the comment that opens at a place, down to the last line. -/
def textsFrom (above : List Text) (place : Nat) : List Text :=
  commentText ((above.getD place []).drop 3) :: starTexts (above.drop (place + 1))

/-- The texts that are not empty. -/
def filled (ts : List Text) : List Text := ts.filter fun t => !t.isEmpty

theorem keepText_eq (t : Text) (texts : List Text) : keepText t texts = filled [t] ++ texts := by
  cases t with
  | nil => rfl
  | cons c t => rfl

theorem starTexts_cons (t : Text) (ts : List Text) : starTexts (t :: ts) = starTexts [t] ++ starTexts ts := by
  unfold starTexts
  rw [← List.map_append, ← List.filter_append, List.singleton_append]

theorem filled_append (ts us : List Text) : filled (ts ++ us) = filled ts ++ filled us := List.filter_append ..

/-! ## One line -/

/-- A line that opens a comment is no line to go on with. -/
theorem not_goesOn {t : Text} (h : startsWith t "/**" = true) : ¬ GoesOn t := by
  obtain ⟨r, rfl⟩ := startsWith_iff.1 h
  rintro (hnil | hstar)
  · cases hnil
  · cases hstar

theorem isCode_of_not_goesOn {line : Text} (hgoes : ¬ GoesOn (trim line))
    (hopening : ¬ startsWith (trim line) "/**" = true) : IsCode line := by
  have hstar : ¬ startsWith (trim line) "*" = true := fun hstar => hgoes (.inr hstar)
  unfold startsWith at hopening hstar
  rw [Option.not_isSome_iff_eq_none] at hopening hstar
  exact ⟨hopening, hstar⟩

theorem starTexts_star (r : Text) :
    starTexts ['*' :: r] = if startsWith ('*' :: r) "*/" then [] else [commentText r] := by
  have hself : startsWith ('*' :: r) "*" = true := rfl
  unfold starTexts
  by_cases hclose : startsWith ('*' :: r) "*/" = true
  · rw [if_pos hclose, List.filter_cons_of_neg (by rw [hself, hclose]; decide)]
    rfl
  · rw [if_neg hclose]
    rw [Bool.not_eq_true] at hclose
    rw [List.filter_cons_of_pos (by rw [hself, hclose]; decide)]
    rfl

/-- Going up, a line of the comment puts its text before those found below it. -/
theorem commentUpwards_goesOn {line : Text} (h : GoesOn (trim line)) (texts above : List Text) :
    commentUpwards texts (line :: above) = commentUpwards (filled (starTexts [trim line]) ++ texts) above := by
  rw [commentUpwards]
  rcases h with hnil | hstar
  · rw [hnil]
    rfl
  · obtain ⟨r, hr⟩ := startsWith_iff.1 hstar
    have hline : trim line = '*' :: r := hr
    have hopen : after? "/**" ('*' :: r) = none := rfl
    have hafter : after? "*" ('*' :: r) = some r := rfl
    rw [hline, starTexts_star]
    simp only [List.isEmpty_cons, Bool.false_or, hopen, hafter]
    split
    · rfl
    · rw [← keepText_eq]

theorem commentUpwards_opening {line r : Text} (h : trim line = "/**" ++ r) (texts above : List Text) :
    commentUpwards texts (line :: above) = join " " (filled [commentText r] ++ texts) := by
  rw [commentUpwards, h, ← keepText_eq]
  rfl

/-! ## All lines of a comment -/

/-- Going up through the lines of a comment gives their texts from top to bottom. -/
theorem commentUpwards_body {body : List Text} (h : ∀ l ∈ body, GoesOn (trim l)) (texts above : List Text) :
    commentUpwards texts (body.reverse ++ above) =
      commentUpwards (filled (starTexts (body.map trim)) ++ texts) above := by
  induction body generalizing above with
  | nil => rfl
  | cons line body ih =>
    have hbody := ih (fun l hl => h l (List.mem_cons_of_mem line hl)) (line :: above)
    rw [List.reverse_cons, List.append_assoc, List.singleton_append, hbody,
      commentUpwards_goesOn (h line (by simp)), List.map_cons, starTexts_cons (trim line) (body.map trim),
      filled_append, List.append_assoc]

/-- The line that opens a comment is the last such line, if the comment goes on from there. -/
theorem lastOpening_append (before : List Text) {body : List Text} {t : Text} (ht : startsWith t "/**" = true)
    (hbody : ∀ u ∈ body, GoesOn u) : LastOpening (before ++ t :: body) before.length := by
  constructor
  · exact ⟨t, by simp, ht⟩
  · rintro i ⟨u, hu, hopening⟩
    by_contra hi
    rw [List.getElem?_append_right (by omega)] at hu
    obtain ⟨j, hj⟩ : ∃ j, i - before.length = j + 1 := ⟨i - before.length - 1, by omega⟩
    rw [hj, List.getElem?_cons_succ] at hu
    exact not_goesOn hopening (hbody u (List.mem_of_getElem? hu))

/-- From the last line on with which no comment can go on, all lines are such that it can. -/
theorem exists_last_not_goesOn :
    ∀ ls : List Text, (∀ l ∈ ls, GoesOn (trim l)) ∨ ∃ before line body, ls = before ++ line :: body ∧
      ¬ GoesOn (trim line) ∧ ∀ l ∈ body, GoesOn (trim l)
  | [] => .inl (by simp)
  | line :: ls => by
    rcases exists_last_not_goesOn ls with hall | ⟨before, last, body, rfl, hlast, hbody⟩
    · by_cases hline : GoesOn (trim line)
      · exact .inl (by simpa [hline] using hall)
      · exact .inr ⟨[], line, ls, rfl, hline, hall⟩
    · exact .inr ⟨line :: before, last, body, rfl, hlast, hbody⟩

section

variable {lines : List Text} {header : Nat}

theorem blockComment_of_opening {place : Nat} (hplace : LastOpening ((lines.take header).map trim) place)
    (hbody : ∀ t ∈ ((lines.take header).map trim).drop (place + 1), GoesOn t) :
    blockComment lines header = join " " (filled (textsFrom ((lines.take header).map trim) place)) := by
  obtain ⟨t, ht, hopening⟩ := hplace.1
  obtain ⟨r, rfl⟩ := startsWith_iff.1 hopening
  have htexts : textsFrom ((lines.take header).map trim) place =
      [commentText r] ++ starTexts (((lines.take header).drop (place + 1)).map trim) := by
    rw [textsFrom, List.getD_eq_getElem?_getD, ht, ← List.map_drop]
    rfl
  rw [← List.map_drop, List.forall_mem_map] at hbody
  rw [List.getElem?_map] at ht
  obtain ⟨line, hline, htrim⟩ := Option.map_eq_some_iff.1 ht
  obtain ⟨hlt, rfl⟩ := List.getElem?_eq_some_iff.1 hline
  -- the lines above the header, and so the search, split at the opening
  have hsplit : (lines.take header).reverse = ((lines.take header).drop (place + 1)).reverse ++
      (lines.take header)[place] :: ((lines.take header).take place).reverse := by
    have hself := congrArg List.reverse (List.take_append_drop place (lines.take header)).symm
    rw [List.drop_eq_getElem_cons hlt] at hself
    simpa using hself
  unfold blockComment
  rw [hsplit, commentUpwards_body hbody, commentUpwards_opening htrim, htexts,
    filled_append, List.append_nil]

theorem blockComment_eq_nil (hnone : ¬ ∃ place, LastOpening ((lines.take header).map trim) place ∧
      ∀ t ∈ ((lines.take header).map trim).drop (place + 1), GoesOn t) : blockComment lines header = [] := by
  unfold blockComment
  rcases exists_last_not_goesOn (lines.take header) with hall | ⟨before, line, body, hsplit, hline, hbody⟩
  · have hrun := commentUpwards_body hall [] []
    rwa [List.append_nil, commentUpwards] at hrun
  · have hopening : ¬ startsWith (trim line) "/**" = true := by
      intro hopening
      apply hnone
      rw [← List.forall_mem_map] at hbody
      refine ⟨(before.map trim).length, ?_, ?_⟩
      · rw [hsplit, List.map_append, List.map_cons]
        exact lastOpening_append _ hopening hbody
      · rw [hsplit, List.map_append, List.map_cons, List.drop_append, List.drop_of_length_le (by omega),
          Nat.add_sub_cancel_left]
        exact hbody
    have hne : trim line ≠ [] := fun hnil => hline (.inl hnil)
    rw [hsplit, List.reverse_append, List.reverse_cons, List.append_assoc, commentUpwards_body hbody]
    exact commentUpwards_of_code (isCode_of_not_goesOn hline hopening) hne _ _

end

/-! ## The comment -/

/-- **The comment that is found upwards is the one that is read downwards:** from the last line above the
header that opens one, if all lines after it go on with it. The text of a line is trimmed, loses one closing
mark at its end, and is trimmed again. -/
theorem blockComment_forward (lines : List Text) (header : Nat) :
    let above := (lines.take header).map trim
    (∀ place, LastOpening above place → (∀ t ∈ above.drop (place + 1), GoesOn t) →
      blockComment lines header = join " " (filled (textsFrom above place))) ∧
    ((¬ ∃ place, LastOpening above place ∧ ∀ t ∈ above.drop (place + 1), GoesOn t) →
      blockComment lines header = []) ∧
    (∀ s r : Text, trim s = r ++ "*/" → commentText s = trim r) ∧
    ∀ s : Text, ¬ ("*/" : Text) <:+ trim s → commentText s = trim s := by
  intro above
  refine ⟨?_, blockComment_eq_nil, ?_, ?_⟩
  · intro place hplace hbody
    exact blockComment_of_opening hplace hbody
  · intro s r h
    exact commentText_closed h
  · intro s h
    exact commentText_unclosed h

/-- A comment over a line of code, and below it one with a closing mark in its middle. -/
def commentedLines : List Text :=
  ["/** No more. */", "x()", "\t/** One", " *", " ** two */", "", " */ three"].map String.toList

/-- The second comment is read from past the end. Just below the code there is none. -/
theorem blockComment_commentedLines :
    LastOpening ((commentedLines.take 99).map trim) 2 ∧
    textsFrom ((commentedLines.take 99).map trim) 2 = ["One".toList, [], "* two".toList] ∧
    blockComment commentedLines 99 = join " " ["One".toList, "* two".toList] ∧
    blockComment commentedLines 2 = [] := by
  have hlast : LastOpening ((commentedLines.take 99).map trim) 2 :=
    lastOpening_append ["/** No more. */".toList, "x()".toList] (t := "/** One".toList) rfl (by decide)
  have htexts : textsFrom ((commentedLines.take 99).map trim) 2 = ["One".toList, [], "* two".toList] := by
    decide +kernel
  have hread := (blockComment_forward commentedLines 99).1 2 hlast (by decide)
  rw [htexts] at hread
  refine ⟨hlast, htexts, hread, (blockComment_forward commentedLines 2).2.1 ?_⟩
  rintro ⟨place, ⟨⟨t, ht, hopening⟩, -⟩, hbody⟩
  match place with
  | 0 => exact absurd (hbody "x()".toList (by decide)) (by decide)
  | 1 =>
    cases ht
    cases hopening
  | place + 2 => cases ht

end ToolCatalog.Doc
