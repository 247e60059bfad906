import Mathlib.Data.List.Forall2
import ToolCatalog.Proofs.Doc.LineEnds

/-!
# Documentation does not hang on the place of its source

Comments are read from trimmed lines (`commentUpwards_trimmed`), so where their lines begin makes no
difference at all. Documentation strings are read from the lines as they are, and their indentation is
measured: when all lines move to the right by the same blanks, the shared indentation of those that are
not blank grows by as much (`sharedIndentation_forall₂`), and what is left of each line is what it was
(`docstring_indented`).
-/

namespace ToolCatalog.Doc

open Text

/-! ## Comments -/

/-- A comment depends on the trimmed lines above its header. -/
theorem commentUpwards_trimmed {ls ls' : List Text}
    (h : List.Forall₂ (fun l l' => trim l' = trim l) ls ls') :
    ∀ texts : List Text, commentUpwards texts ls' = commentUpwards texts ls := by
  induction h with
  | nil =>
    intro texts
    rfl
  | cons htrim _ ih =>
    intro texts
    rw [commentUpwards, commentUpwards]
    simp only [htrim, ih]

/-! ## Lines that move to the right -/

/-- The line `line'` is `line` with `w` in front of it; a blank line may hold any blanks. -/
def Indented (w line line' : Text) : Prop :=
  line' = w ++ line ∨ allBlank line = true ∧ allBlank line' = true

instance (w line line' : Text) : Decidable (Indented w line line') := inferInstanceAs (Decidable (_ ∨ _))

variable {w line line' quote : Text}

namespace Indented

theorem allBlank_eq (hw : allBlank w = true) (h : Indented w line line') :
    allBlank line' = allBlank line := by
  rcases h with rfl | ⟨hline, hline'⟩
  · exact allBlank_indented hw line
  · rw [hline, hline']

theorem eq_append (h : Indented w line line') (hline : allBlank line = false) : line' = w ++ line := by
  rcases h with heq | ⟨hblank, -⟩
  · exact heq
  · rw [hline] at hblank
    cases hblank

theorem trim_eq (hw : allBlank w = true) (h : Indented w line line') : trim line' = trim line := by
  rcases h with rfl | ⟨hline, hline'⟩
  · exact trim_indented hw line
  · have hnil := trim_indented hline []
    have hnil' := trim_indented hline' []
    rw [List.append_nil] at hnil hnil'
    rw [hnil, hnil']

end Indented

/-- There is no quote in a line of blanks. -/
theorem upTo?_blank (hquote : quote ∈ tripleQuotes) (hline : allBlank line = true) :
    upTo? quote line = none := by
  have hskip := upTo?_indented hquote [] hline
  rwa [List.append_nil, (upTo?_quote quote hquote).2] at hskip

/-- The string ends on the same line, and that line too is cut with its indentation in front. -/
theorem bodyLines_forall₂ (hquote : quote ∈ tripleQuotes) (hw : allBlank w = true)
    {ls ls' : List Text} (h : List.Forall₂ (Indented w) ls ls') :
    List.Forall₂ (Indented w) (bodyLines quote ls) (bodyLines quote ls') := by
  induction h with
  | nil => exact .nil
  | @cons line line' ls ls' hline _ ih =>
    rw [bodyLines, bodyLines]
    rcases id hline with rfl | ⟨hblank, hblank'⟩
    · rw [upTo?_indented hquote line hw]
      cases upTo? quote line with
      | none => exact .cons hline ih
      | some part => exact .cons (.inl rfl) .nil
    · rw [upTo?_blank hquote hblank, upTo?_blank hquote hblank']
      exact .cons hline ih

/-! ## The shared indentation -/

/-- Each line that counts has `w` more in front of it, and a line counts where it did. -/
theorem indentations_forall₂ (hw : allBlank w = true) {ls ls' : List Text}
    (h : List.Forall₂ (Indented w) ls ls') :
    (ls'.filter fun l => !allBlank l).map indentation =
      ((ls.filter fun l => !allBlank l).map indentation).map (w.length + ·) := by
  induction h with
  | nil => rfl
  | @cons line line' ls ls' hline _ ih =>
    have hsame := hline.allBlank_eq hw
    cases hblank : allBlank line with
    | true => simp [hsame, hblank, ih]
    | false =>
      have hshift : indentation line' = w.length + indentation line := by
        rw [hline.eq_append hblank, indentation_indented hw]
      simp [hsame, hblank, ih, hshift]

theorem sharedIndentation_forall₂ (hw : allBlank w = true) {ls ls' : List Text}
    (h : List.Forall₂ (Indented w) ls ls') (hsome : ∃ l ∈ ls, allBlank l = false) :
    sharedIndentation ls' = w.length + sharedIndentation ls := by
  unfold sharedIndentation
  rw [indentations_forall₂ hw h]
  cases hmin : ((ls.filter fun l => !allBlank l).map indentation).min? with
  | none =>
    obtain ⟨l, hl, hblank⟩ := hsome
    rw [List.min?_eq_none_iff, List.map_eq_nil_iff, List.filter_eq_nil_iff] at hmin
    exact absurd (by simp [hblank]) (hmin l hl)
  | some n =>
    obtain ⟨hmem, hle⟩ := List.min?_eq_some_iff.1 hmin
    have hmin' : (((ls.filter fun l => !allBlank l).map indentation).map (w.length + ·)).min? =
        some (w.length + n) := by
      refine List.min?_eq_some_iff.2 ⟨List.mem_map_of_mem hmem, ?_⟩
      intro m hm
      obtain ⟨k, hk, rfl⟩ := List.mem_map.1 hm
      have := hle k hk
      omega
    rw [hmin', Option.getD_some, Option.getD_some]

/-- Lines that move together are the same without their indentation. -/
theorem dedent_forall₂ (hw : allBlank w = true) {ls ls' : List Text}
    (h : List.Forall₂ (Indented w) ls ls') : dedent ls' = dedent ls := by
  -- where something is dropped there is a line that is not blank, so the shared indentation has grown by `w`
  have hline : ∀ l l', Indented w l l' → l ∈ ls →
      (if allBlank l' then [] else trimEnd (l'.drop (sharedIndentation ls'))) =
        if allBlank l then [] else trimEnd (l.drop (sharedIndentation ls)) := by
    intro l l' hl hmem
    rw [hl.allBlank_eq hw]
    split
    · rfl
    · rename_i hblank
      rw [Bool.not_eq_true] at hblank
      rw [sharedIndentation_forall₂ hw h ⟨l, hmem, hblank⟩, hl.eq_append hblank, ← List.drop_drop,
        List.drop_left]
  unfold dedent
  rw [← List.forall₂_eq_eq_eq, List.forall₂_map_left_iff, List.forall₂_map_right_iff]
  refine List.Forall₂.flip ?_
  exact List.forall₂_iff_zip.2 ⟨h.length_eq, fun hmem =>
    hline _ _ (List.forall₂_iff_zip.1 h |>.2 hmem) (List.of_mem_zip hmem).1⟩

/-- A documentation string stays the same when the lines below its header move together. -/
theorem docstring_indented (hw : allBlank w = true) {ls ls' : List Text}
    (h : List.Forall₂ (Indented w) ls ls') : docstring ls' 0 = docstring ls 0 := by
  cases h with
  | nil => rfl
  | @cons line line' ls ls' hline hrest =>
    unfold docstring
    simp only [List.drop_zero, hline.trim_eq hw]
    cases hopen : opening? (trim line) with
    | none => rfl
    | some found =>
      obtain ⟨quote, first⟩ := found
      have hquote : quote ∈ tripleQuotes := opening?_mem hopen
      simp only [dedent_forall₂ hw (bodyLines_forall₂ hquote hw hrest)]

end ToolCatalog.Doc
