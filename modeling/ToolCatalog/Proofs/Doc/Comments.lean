import ToolCatalog.Doc.BlockComment
import ToolCatalog.Proofs.Text.Trimming

/-!
# Comments above a header

A comment is searched upwards from a header. What the search finds consists of trimmed texts on one line
(`commentUpwards_eq_join`), and once it has found something, the lines further up make no difference
(`commentUpwards_append`). A comment that was written as a block is read back as its texts
(`commentUpwards_block`), and no search goes past a line of code (`commentUpwards_of_code`).
-/

namespace ToolCatalog.Doc

open Text

/-! ## What is found -/

/-- A text that a comment can hold on one of its lines. -/
structure CommentText (t : Text) : Prop where
  ne_nil : t ≠ []
  trimmed : trim t = t
  oneLine : '\n' ∉ t

instance (t : Text) : Decidable (CommentText t) :=
  decidable_of_iff (t ≠ [] ∧ trim t = t ∧ '\n' ∉ t)
    ⟨fun h => ⟨h.1, h.2.1, h.2.2⟩, fun h => ⟨h.ne_nil, h.trimmed, h.oneLine⟩⟩

theorem mem_keepText {t u : Text} {texts : List Text} :
    u ∈ keepText t texts ↔ (u = t ∧ t ≠ []) ∨ u ∈ texts := by
  unfold keepText
  cases t with
  | nil => simp
  | cons c t => simp

theorem commentText_isInfix (s : Text) : commentText s <:+: s := by
  have hcut : (before? "*/" (trim s)).getD (trim s) <:+: trim s := by
    cases h : before? "*/" (trim s) with
    | none => exact List.infix_refl _
    | some r =>
      have hprefix : r <+: trim s := ⟨_, (before?_eq_some_iff.1 h).symm⟩
      exact hprefix.isInfix
  exact ((trim_isInfix _).trans hcut).trans (trim_isInfix s)

theorem commentText_closed {s r : Text} (h : trim s = r ++ "*/") : commentText s = trim r := by
  unfold commentText
  simp only [before?_eq_some_iff.2 h, Option.getD_some]

theorem commentText_unclosed {s : Text} (h : ¬ ("*/" : Text) <:+ trim s) : commentText s = trim s := by
  have hnone : before? "*/" (trim s) = none := by
    rw [Option.eq_none_iff_forall_ne_some]
    intro r hr
    exact h ⟨r, (before?_eq_some_iff.1 hr).symm⟩
  unfold commentText
  simp only [hnone, Option.getD_none, trim_trim]

theorem commentText_keep {s : Text} (hs : '\n' ∉ s) {texts : List Text}
    (h : ∀ t ∈ texts, CommentText t) : ∀ t ∈ keepText (commentText s) texts, CommentText t := by
  intro t ht
  rcases mem_keepText.1 ht with ⟨rfl, hne⟩ | ht
  · exact ⟨hne, trim_trim _, fun hmem => hs ((commentText_isInfix s).subset hmem)⟩
  · exact h t ht

/-- The comment that is found consists of trimmed texts, each of them on one line. -/
theorem commentUpwards_eq_join :
    ∀ (lines texts : List Text), (∀ l ∈ lines, '\n' ∉ l) → (∀ t ∈ texts, CommentText t) →
      ∃ found : List Text, commentUpwards texts lines = join " " found ∧ ∀ t ∈ found, CommentText t
  | [], _, _, _ => ⟨[], rfl, by simp⟩
  | line :: above, texts, hlines, htexts => by
    have ih := fun texts => commentUpwards_eq_join above texts fun l hl =>
      hlines l (List.mem_cons_of_mem line hl)
    have hline : '\n' ∉ trim line := fun hmem =>
      hlines line (by simp) ((trim_isInfix line).subset hmem)
    unfold commentUpwards
    simp only
    split
    · exact ih texts htexts
    split
    · rename_i rest hopen
      rw [after?_eq_some_iff.1 hopen, List.mem_append, not_or] at hline
      exact ⟨_, rfl, commentText_keep hline.2 htexts⟩
    split
    · rename_i rest hstar
      rw [after?_eq_some_iff.1 hstar, List.mem_append, not_or] at hline
      exact ih _ (commentText_keep hline.2 htexts)
    · exact ⟨[], rfl, by simp⟩

/-- What has been found does not depend on the lines further up. -/
theorem commentUpwards_append (above : List Text) :
    ∀ (lines texts : List Text), commentUpwards texts lines ≠ [] →
      commentUpwards texts (lines ++ above) = commentUpwards texts lines
  | [], _, h => absurd rfl h
  | line :: lines, texts, h => by
    have ih := commentUpwards_append above lines
    rw [List.cons_append]
    -- a comment is found at its opening line, or the search goes on above it
    unfold commentUpwards at h ⊢
    simp only at h ⊢
    split
    · rename_i hskip
      rw [if_pos hskip] at h
      exact ih texts h
    rename_i hskip
    rw [if_neg hskip] at h
    split
    · rfl
    rename_i hopen
    rw [hopen] at h
    split
    · rename_i rest hstar
      rw [hstar] at h
      exact ih _ h
    · rfl

/-! ## Lines of code -/

/-- A line that neither opens a comment nor goes on with one. -/
def IsCode (line : Text) : Prop := after? "/**" (trim line) = none ∧ after? "*" (trim line) = none

instance (line : Text) : Decidable (IsCode line) :=
  inferInstanceAs (Decidable (after? "/**" (trim line) = none ∧ after? "*" (trim line) = none))

/-- A line of code is not blank, so it ends the search without a comment. -/
theorem commentUpwards_of_code {line : Text} (h : IsCode line) (hne : trim line ≠ [])
    (texts above : List Text) : commentUpwards texts (line :: above) = [] := by
  have hclose : startsWith (trim line) "*/" = false := by
    rw [← Bool.not_eq_true, startsWith_iff]
    rintro ⟨r, hr⟩
    have hstar := h.2
    rw [hr] at hstar
    cases hstar
  unfold commentUpwards
  simp only [List.isEmpty_eq_false_iff.2 hne, hclose, h.1, h.2, Bool.or_self, Bool.false_eq_true,
    if_false]

/-- Through lines of code or blank lines no comment is found, if none is found above them. -/
theorem commentUpwards_code {texts above : List Text} (habove : commentUpwards texts above = []) :
    ∀ {ls : List Text}, (∀ l ∈ ls, IsCode l) → commentUpwards texts (ls ++ above) = []
  | [], _ => habove
  | l :: ls, h => by
    have ih := commentUpwards_code habove fun m hm => h m (List.mem_cons_of_mem l hm)
    by_cases hl : trim l = []
    · rw [List.cons_append, commentUpwards]
      simpa [hl] using ih
    · exact commentUpwards_of_code (h l (by simp)) hl _ _

/-! ## Written comments -/

/-- A text that does not hold the mark which closes a comment. -/
def Unclosed (t : Text) : Prop := ¬ ("*/" : Text) <:+: t

theorem occursIn_eq_false_iff {t : Text} : occursIn "*/" t = false ↔ Unclosed t := by
  rw [← Bool.not_eq_true, occursIn_iff_exists]
  constructor
  · rintro h ⟨a, b, hab⟩
    exact h ⟨a, b, hab.symm⟩
  · rintro h ⟨a, b, rfl⟩
    exact h ⟨a, b, rfl⟩

instance (t : Text) : Decidable (Unclosed t) := decidable_of_iff _ occursIn_eq_false_iff

/-- A text as it is written on a line of a comment. -/
def starred (t : Text) : Text := " * " ++ t

/-- A comment as it is written above a header. -/
def commentBlock (texts : List Text) : List Text :=
  "/**".toList :: (texts.map starred ++ [" */".toList])

theorem trim_starred {t : Text} (h : CommentText t) : trim (starred t) = "* " ++ t := by
  have htrim : trimEnd t = t := trimEnd_eq_self (trim_eq_self_iff.1 h.trimmed).2
  have hend := trimEnd_append_of_ne_nil "* " (t := t) (by rw [htrim]; exact h.ne_nil)
  rw [htrim] at hend
  exact hend

/-- A line of a written comment gives its text. -/
theorem commentUpwards_starred {t : Text} (h : CommentText t) (hclose : Unclosed t)
    (texts above : List Text) :
    commentUpwards texts (starred t :: above) = commentUpwards (t :: texts) above := by
  have htrim : trim (' ' :: t) = t := by
    have hblank : trim (' ' :: t) = trim t := rfl
    rw [hblank, h.trimmed]
  have hopen : ¬ ("*/" : Text) <:+ trim (' ' :: t) := by
    rw [htrim]
    exact fun hsuffix => hclose hsuffix.isInfix
  have htext : commentText (' ' :: t) = t := by rw [commentText_unclosed hopen, htrim]
  rw [commentUpwards, trim_starred h]
  simp [startsWith, after?, htext, keepText, h.ne_nil]

theorem commentUpwards_starred_all (above : List Text) :
    ∀ (ts texts : List Text), (∀ t ∈ ts, CommentText t ∧ Unclosed t) →
      commentUpwards texts (ts.map starred ++ above) = commentUpwards (ts.reverse ++ texts) above
  | [], _, _ => rfl
  | t :: ts, texts, h => by
    obtain ⟨ht, hclose⟩ := h t (by simp)
    rw [List.map_cons, List.cons_append, commentUpwards_starred ht hclose,
      commentUpwards_starred_all above ts (t :: texts) fun u hu => h u (List.mem_cons_of_mem t hu)]
    simp

/-- A written comment is read back as its texts, joined by blanks. -/
theorem commentUpwards_block (above : List Text) {texts : List Text}
    (h : ∀ t ∈ texts, CommentText t ∧ Unclosed t) :
    commentUpwards [] (above ++ commentBlock texts).reverse = join " " texts := by
  have hreverse : (above ++ commentBlock texts).reverse =
      " */".toList :: (texts.reverse.map starred ++ "/**".toList :: above.reverse) := by
    simp [commentBlock, List.map_reverse]
  have hclose : ∀ rest, commentUpwards [] (" */".toList :: rest) = commentUpwards [] rest :=
    fun _ => rfl
  have hopen : ∀ found rest, commentUpwards found ("/**".toList :: rest) = join " " found :=
    fun _ _ => rfl
  rw [hreverse, hclose, commentUpwards_starred_all, hopen]
  · simp
  · intro t ht
    exact h t (List.mem_reverse.1 ht)

end ToolCatalog.Doc
