import Mathlib.Logic.Relation
import ToolCatalog.Proofs.Files.Walks

/-!
# Normal forms of paths

The normal form of a path is found by a fold over its parts that keeps a stack of names. What it is can be said
without the fold: parts cancel, in any order, until only names are left (`IsNormalForm`). The fold does not see
such a step (`Cancels.foldl_eq`), and it can be reached by them (`reflTransGen_foldl`), so a path has one normal
form, and the fold finds it (`isNormalForm_iff`).
-/

namespace ToolCatalog

open Text

namespace Path

/-- One step by which the parts of an absolute path become fewer: an empty part or a dot goes, a double dot
goes with the name before it, and one at the root goes by itself. -/
inductive Cancels : List Text → List Text → Prop
  | empty (u v : List Text) : Cancels (u ++ [] :: v) (u ++ v)
  | dot (u v : List Text) : Cancels (u ++ ".".toList :: v) (u ++ v)
  | back (u v : List Text) {name : Text} :
    isName name = true → Cancels (u ++ name :: "..".toList :: v) (u ++ v)
  | top (v : List Text) : Cancels ("..".toList :: v) v

/-- The parts of a path after those of a resolved one, unless the path is absolute. -/
def partsFrom (base : List Text) (p : Text) : List Text :=
  if isAbsolute p then parts p else base ++ parts p

/-- What is left of the parts of a path when only names are left. -/
def IsNormalForm (base : List Text) (p : Text) (names : List Text) : Prop :=
  Relation.ReflTransGen Cancels (partsFrom base p) names ∧ ∀ name ∈ names, isName name = true

theorem normalStep_empty (names : List Text) : normalStep names [] = names := rfl

theorem normalStep_dot (names : List Text) : normalStep names "." = names := rfl

theorem normalStep_dots (names : List Text) : normalStep names ".." = names.dropLast := rfl

/-- A step that cancels parts does not change what they are folded to. -/
theorem Cancels.foldl_eq {ps qs : List Text} (h : Cancels ps qs) :
    ps.foldl normalStep [] = qs.foldl normalStep [] := by
  cases h with
  | empty u v => simp only [List.foldl_append, List.foldl_cons, normalStep_empty]
  | dot u v => simp only [List.foldl_append, List.foldl_cons, normalStep_dot]
  | back u v hname =>
    simp only [List.foldl_append, List.foldl_cons, normalStep_name hname, normalStep_dots,
      List.dropLast_concat]
  | top v => rfl

theorem foldl_eq_of_cancels {ps qs : List Text} (h : Relation.ReflTransGen Cancels ps qs) :
    ps.foldl normalStep [] = qs.foldl normalStep [] := by
  induction h with
  | refl => rfl
  | tail _ hstep ih => exact ih.trans hstep.foldl_eq

/-- Parts cancel until what they are folded to is left, by induction on the parts that are still to come. -/
theorem reflTransGen_foldl (ps : List Text) :
    ∀ base : List Text, (∀ name ∈ base, isName name = true) →
      Relation.ReflTransGen Cancels (base ++ ps) (ps.foldl normalStep base) ∧
        ∀ name ∈ ps.foldl normalStep base, isName name = true := by
  induction ps with
  | nil => intro base hbase; simpa using ⟨Relation.ReflTransGen.refl, hbase⟩
  | cons part ps ih =>
    intro base hbase
    rw [List.foldl_cons]
    by_cases hempty : part = []
    · subst hempty
      obtain ⟨hrest, hnames⟩ := ih base hbase
      exact ⟨.head (.empty base ps) hrest, hnames⟩
    by_cases hdot : part = "."
    · subst hdot
      obtain ⟨hrest, hnames⟩ := ih base hbase
      exact ⟨.head (.dot base ps) hrest, hnames⟩
    by_cases hdots : part = ".."
    · subst hdots
      obtain ⟨hrest, hnames⟩ := ih base.dropLast fun n hn => hbase n (List.dropLast_subset base hn)
      -- a double dot cancels the name before it, or itself at the top
      refine ⟨.head ?_ hrest, hnames⟩
      rcases List.eq_nil_or_concat base with rfl | ⟨above, name, rfl⟩
      · exact .top ps
      · have hname : isName name = true := hbase name (by simp)
        simpa using Cancels.back above ps hname
    · have hname : isName part = true := isName_iff.2 ⟨hempty, hdot, hdots⟩
      have hnext : ∀ n ∈ base ++ [part], isName n = true := by
        intro n hn
        rcases List.mem_append.1 hn with hn | hn
        · exact hbase n hn
        · rw [List.mem_singleton.1 hn]
          exact hname
      have hrest := ih (base ++ [part]) hnext
      rw [normalStep_name hname]
      simpa using hrest

/-- The normal form is what the fold over the parts gives. -/
theorem isNormalForm_iff {base : List Text} (hbase : ∀ name ∈ base, isName name = true) {p : Text}
    {names : List Text} : IsNormalForm base p names ↔ normalForm base p = names := by
  have hfold : normalForm base p = (partsFrom base p).foldl normalStep [] := by
    unfold normalForm partsFrom
    split
    · rfl
    · rw [List.foldl_append, foldl_normalStep hbase, List.nil_append]
  rw [hfold]
  constructor
  · rintro ⟨hcancels, hnames⟩
    rw [foldl_eq_of_cancels hcancels, foldl_normalStep hnames, List.nil_append]
  · rintro rfl
    exact reflTransGen_foldl (partsFrom base p) [] (by simp)

theorem mem_foldl_normalStep {name : Text} (ps : List Text) :
    ∀ base : List Text, name ∈ ps.foldl normalStep base → name ∈ base ∨ name ∈ ps := by
  induction ps with
  | nil => intro base h; exact .inl h
  | cons part ps ih =>
    intro base h
    rcases ih (normalStep base part) h with hmem | hmem
    · unfold normalStep at hmem
      split at hmem
      · exact .inl hmem
      · split at hmem
        · exact .inl (List.dropLast_subset base hmem)
        · rcases List.mem_append.1 hmem with hmem | hmem
          · exact .inl hmem
          · exact .inr (by simp [List.mem_singleton.1 hmem])
    · exact .inr (List.mem_cons_of_mem part hmem)

theorem render_append {q : List Text} (hq : q ≠ []) (rest : List Text) :
    render (q ++ rest) = render q ++ rest.flatMap fun n => '/' :: n := by
  simp [render, hq]

/-- The normal form of a resolved path is the path itself, wherever it begins. -/
theorem normalForm_render {names : List Text} (h : ∀ name ∈ names, isName name = true ∧ '/' ∉ name)
    (base : List Text) : normalForm base (render names) = names := by
  have hfold : names.foldl normalStep [] = names := by
    rw [foldl_normalStep fun n hn => (h n hn).1, List.nil_append]
  unfold normalForm
  rw [isAbsolute_render, parts_render fun n hn => (h n hn).2]
  by_cases hnil : names = []
  · subst hnil
    rfl
  · simpa [hnil, normalStep_empty] using hfold

end Path

end ToolCatalog
