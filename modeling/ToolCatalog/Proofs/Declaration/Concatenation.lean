import ToolCatalog.Proofs.Declaration.Passages
import ToolCatalog.Proofs.Doc.Comments

/-!
# Sources one after the other

Where a source ends at the end of a line, what is put after it forms lines of its own, so the
declarations of the whole are those of its two parts (`extract_append`). Only documentation can reach
from one part into the other: in Python from the second into the first, in JavaScript and TypeScript
from the first into the second, and there only where the second has none of its own.
-/

namespace ToolCatalog.Declaration

open Text

/-- The declaration `d'` is `d`, unless `d` has no documentation: then `d'` may have some. -/
def Keeps (d d' : Declaration) : Prop :=
  d.undescribed = d'.undescribed ∧ (d.description ≠ [] → d' = d)

/-- A JavaScript or TypeScript declaration that has documentation keeps it, whatever is put above. -/
theorem passage_script_keeps {language : Language} (h : language ≠ .python) (options : ScanOptions)
    (above below ls : List Text) :
    List.Forall₂ Keeps (passage language options [] below ls)
      (passage language options above below ls) := by
  have hall : List.Forall₂ Keeps (passage language options ([] ++ []) below ls)
      (passage language options (above ++ []) below ls) := by
    refine forall₂_passage language options Keeps ?_ ls []
    intro pre post line signature header
    rw [describe_script h, describe_script h]
    refine ⟨undescribed_ofHeader .., ?_⟩
    intro hdescribed
    rw [description_ofHeader, List.nil_append] at hdescribed
    rw [List.reverse_append, List.nil_append, Doc.commentUpwards_append _ _ _ hdescribed]
  rw [List.append_nil, List.append_nil] at hall
  exact hall

theorem extract_eq_append (language : Language) (options : ScanOptions) {a : Text} (ha : EndsLine a)
    (b : Text) :
    extract language options (a ++ b) =
      passage language options [] (lines b) (lines a) ++
        passage language options (lines a) [] (lines b) := by
  rw [extract_eq_passage, lines_append ha, passage_append, List.append_nil, List.nil_append]

/-- **Declarations of two sources, one after the other.** If the first ends at the end of a line, the
whole has the declarations of the first and then those of the second, but for their documentation. In
Python those of the second are unchanged. In JavaScript and TypeScript those of the first are unchanged,
and so are those of the second that have documentation. -/
theorem extract_append (language : Language) (options : ScanOptions) {a : Text} (ha : EndsLine a)
    (b : Text) :
    (extract language options (a ++ b)).length =
      (extract language options a).length + (extract language options b).length ∧
    (extract language options (a ++ b)).map undescribed =
      (extract language options a).map undescribed ++ (extract language options b).map undescribed ∧
    (language = .python → extract language options b <:+ extract language options (a ++ b)) ∧
    (language ≠ .python →
      extract language options a <+: extract language options (a ++ b) ∧
      ∀ i d, (extract language options b)[i]? = some d → d.description ≠ [] →
        (extract language options (a ++ b))[(extract language options a).length + i]? = some d) := by
  have hmap : (extract language options (a ++ b)).map undescribed =
      (extract language options a).map undescribed ++
        (extract language options b).map undescribed := by
    rw [extract_eq_append language options ha, List.map_append, extract_eq_passage,
      extract_eq_passage]
    congr 1
    · exact passage_undescribed ..
    · exact passage_undescribed ..
  refine ⟨?_, hmap, ?_, ?_⟩
  · simpa using congrArg List.length hmap
  · rintro rfl
    rw [extract_eq_append .python options ha, passage_python_above options (lines a),
      extract_eq_passage .python options b]
    exact List.suffix_append _ _
  · intro hscript
    have hfirst : passage language options [] (lines b) (lines a) = extract language options a := by
      rw [passage_script_below hscript, extract_eq_passage]
    rw [extract_eq_append language options ha, hfirst]
    refine ⟨List.prefix_append _ _, ?_⟩
    intro i d hd hdescribed
    -- a declaration that has a comment in the second source has found it below the seam
    have hkeeps := passage_script_keeps hscript options (lines a) [] (lines b)
    rw [← extract_eq_passage] at hkeeps
    rw [List.getElem?_append_right (Nat.le_add_right _ _), Nat.add_sub_cancel_left]
    obtain ⟨hi, hget⟩ := List.getElem?_eq_some_iff.1 hd
    have hi' := hkeeps.length_eq ▸ hi
    have hpair := hkeeps.get hi hi'
    rw [List.get_eq_getElem, List.get_eq_getElem, hget] at hpair
    exact List.getElem?_eq_some_iff.2 ⟨hi', hpair.2 hdescribed⟩

/-- A comment at the end of the first source becomes that of the first declaration of the second, while
the second declaration keeps its own. -/
theorem extract_append_comment :
    EndsLine "/** Adds. */\n" ∧
    (extract .typescript {} "function f(x) {}\n/** Own. */\nfunction g() {}").map (·.description) =
      [[], "Own.".toList] ∧
    (extract .typescript {} ("/** Adds. */\n".toList ++
      "function f(x) {}\n/** Own. */\nfunction g() {}".toList)).map (·.description) =
      ["Adds.".toList, "Own.".toList] ∧
    (extract .typescript {} ("/** Adds. */\n".toList ++
      "function f(x) {}\n/** Own. */\nfunction g() {}".toList))[0 + 1]? =
      some { name := "g", kind := .function, signature := "function g() {}", description := "Own.",
             parameters := some {}, required := [] } := by
  have ha : EndsLine "/** Adds. */\n" := by decide
  have happend := extract_append .typescript {} ha "function f(x) {}\n/** Own. */\nfunction g() {}"
  exact ⟨ha, by decide, by decide, (happend.2.2.2 (by decide)).2 1 _ rfl (by decide)⟩

end ToolCatalog.Declaration
