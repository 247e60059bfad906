import ToolCatalog.Proofs.Declaration.Scanning

/-!
# Passages of a source

A passage is some lines of a source with other lines above and below them. The declarations of a
passage depend on the other lines through their documentation alone, and that is looked up in one
direction: in Python in the lines below a header (`describe_python`), in JavaScript and TypeScript in
the lines above it (`describe_script`). Two passages that follow one another give the declarations of
the one and then those of the other (`passage_append`).
-/

namespace ToolCatalog.Declaration

open Text

/-- The declarations on some lines that have the lines `above` above them and the lines `below` below
them. -/
def passage (language : Language) (options : ScanOptions) (above below : List Text) :
    List Text → List Declaration
  | [] => []
  | line :: rest =>
    atLine language options (above ++ line :: (rest ++ below)) above.length line ++
      passage language options (above ++ [line]) below rest

/-- A whole source is a passage with nothing around it. -/
theorem extract_eq_passage (language : Language) (options : ScanOptions) (source : Text) :
    extract language options source = passage language options [] [] (lines source) := by
  -- by induction on the lines that are left, with those that have been scanned above them
  have hscan : ∀ rest above : List Text, above ++ rest = lines source →
      ((rest.zipIdx above.length).flatMap fun p =>
          atLine language options (lines source) p.2 p.1) =
        passage language options above [] rest := by
    intro rest
    induction rest with
    | nil => intro above _; rfl
    | cons line rest ih =>
      intro above h
      have hnext := ih (above ++ [line]) (by simpa using h)
      rw [List.length_append, List.length_singleton] at hnext
      rw [List.zipIdx_cons, List.flatMap_cons, hnext, passage, List.append_nil, h]
  exact hscan (lines source) [] rfl

theorem passage_append (language : Language) (options : ScanOptions) (below b : List Text) :
    ∀ a above : List Text, passage language options above below (a ++ b) =
      passage language options above (b ++ below) a ++
        passage language options (above ++ a) below b
  | [], above => by simp [passage]
  | line :: a, above => by
    have ih := passage_append language options below b a (above ++ [line])
    rw [List.cons_append, passage, passage, ih]
    simp only [List.append_assoc, List.singleton_append]

/-! ## Where documentation is looked up -/

/-- The documentation of a Python header is found in the lines below it. -/
theorem describe_python (above : List Text) (line : Text) (below : List Text) :
    Language.describe .python (above ++ line :: below) above.length = Doc.docstring below 0 := by
  have hdrop : (above ++ line :: below).drop (above.length + 1) = below := by simp
  simp only [Language.describe, Doc.docstring, hdrop, List.drop_zero]

/-- The documentation of a JavaScript or TypeScript header is found in the lines above it. -/
theorem describe_script {language : Language} (h : language ≠ .python) (above : List Text)
    (line : Text) (below : List Text) :
    language.describe (above ++ line :: below) above.length =
      Doc.commentUpwards [] above.reverse := by
  have htake : (above ++ line :: below).take above.length = above := by simp
  cases language with
  | python => exact absurd rfl h
  | javascript => simp only [Language.describe, Doc.blockComment, htake]
  | typescript => simp only [Language.describe, Doc.blockComment, htake]

/-! ## The same lines among others -/

/-- The same lines with other lines around them give declarations that are related one by one, if what
the headers among them declare is related. -/
theorem forall₂_passage (language : Language) (options : ScanOptions)
    (R : Declaration → Declaration → Prop) {above above' below below' : List Text}
    (h : ∀ (pre post : List Text) (line signature : Text) (header : Header),
      R (ofHeader language signature
          (language.describe (above ++ pre ++ line :: (post ++ below)) (above ++ pre).length) header)
        (ofHeader language signature
          (language.describe (above' ++ pre ++ line :: (post ++ below')) (above' ++ pre).length)
          header)) :
    ∀ ls pre : List Text, List.Forall₂ R (passage language options (above ++ pre) below ls)
      (passage language options (above' ++ pre) below' ls)
  | [], _ => .nil
  | line :: ls, pre => by
    have ih := forall₂_passage language options R h ls (pre ++ [line])
    rw [← List.append_assoc, ← List.append_assoc] at ih
    refine List.rel_append ?_ ih
    unfold atLine
    split
    · rw [List.forall₂_map_left_iff, List.forall₂_map_right_iff, List.forall₂_same]
      intro header _
      exact h pre ls line _ header
    · exact .nil

/-- What stands above a passage makes no difference to its Python declarations. -/
theorem passage_python_above (options : ScanOptions) (above below ls : List Text) :
    passage .python options above below ls = passage .python options [] below ls := by
  have hall : List.Forall₂ Eq (passage .python options (above ++ []) below ls)
      (passage .python options ([] ++ []) below ls) := by
    refine forall₂_passage .python options Eq ?_ ls []
    intro pre post line signature header
    rw [describe_python, describe_python]
  rw [List.append_nil] at hall
  exact List.forall₂_eq_eq_eq ▸ hall

/-- What stands below a passage makes no difference to its JavaScript or TypeScript declarations. -/
theorem passage_script_below {language : Language} (h : language ≠ .python) (options : ScanOptions)
    (above below ls : List Text) :
    passage language options above below ls = passage language options above [] ls := by
  have hall : List.Forall₂ Eq (passage language options (above ++ []) below ls)
      (passage language options (above ++ []) [] ls) := by
    refine forall₂_passage language options Eq ?_ ls []
    intro pre post line signature header
    rw [describe_script h, describe_script h]
  rw [List.append_nil] at hall
  exact List.forall₂_eq_eq_eq ▸ hall

/-- A declaration without its documentation. -/
def undescribed (d : Declaration) : Declaration := { d with description := [] }

theorem undescribed_ofHeader (language : Language) (signature d d' : Text) (header : Header) :
    (ofHeader language signature d header).undescribed =
      (ofHeader language signature d' header).undescribed := by
  cases header <;> rfl

theorem description_ofHeader (language : Language) (signature d : Text) (header : Header) :
    (ofHeader language signature d header).description = d := by
  cases header <;> rfl

/-- But for its documentation, a passage gives the same whatever stands around it. -/
theorem passage_undescribed (language : Language) (options : ScanOptions)
    (above above' below below' ls : List Text) :
    (passage language options above below ls).map undescribed =
      (passage language options above' below' ls).map undescribed := by
  have hall : List.Forall₂ (fun d d' => d.undescribed = d'.undescribed)
      (passage language options (above ++ []) below ls)
      (passage language options (above' ++ []) below' ls) := by
    refine forall₂_passage language options _ ?_ ls []
    intro pre post line signature header
    exact undescribed_ofHeader ..
  rw [List.append_nil, List.append_nil] at hall
  rw [← List.forall₂_eq_eq_eq, List.forall₂_map_left_iff, List.forall₂_map_right_iff]
  exact hall

/-- Lines that are no public headers declare nothing. -/
theorem passage_eq_nil {language : Language} (options : ScanOptions) (below : List Text) :
    ∀ (ls above : List Text),
      (∀ l ∈ ls, ∀ h ∈ language.headers (trim l), h.isPublic = false) →
      passage language options above below ls = []
  | [], _, _ => rfl
  | l :: ls, above, h => by
    have ih := passage_eq_nil options below ls (above ++ [l]) fun m hm =>
      h m (List.mem_cons_of_mem l hm)
    have hnone : (language.headers (trim l)).filter Header.isPublic = [] := by
      rw [List.filter_eq_nil_iff]
      intro header hmem hpub
      rw [h l (by simp) header hmem] at hpub
      cases hpub
    rw [passage, ih]
    unfold atLine
    simp [hnone]

end ToolCatalog.Declaration
