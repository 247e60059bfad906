import ToolCatalog.Declaration.Extract
import Mathlib.Data.List.Forall2

/-!
# One declaration a line

A scan looks at every line of a source on its own and keeps the declarations in the order of the
lines. `ScansTo` says what that means for given rules on lines, without saying how the scan is done:
there is one declaration for each line in scope that is a header, and no other. `scansTo_extract` gives
it for a language in which no line is more than one header.
-/

namespace ToolCatalog.Declaration

open Text

/-- A line that is looked at: where only the top level counts, it does not begin with a blank. -/
def InScope (options : ScanOptions) (line : Text) : Prop :=
  options.topLevelOnly = true → ∀ c rest, line = c :: rest → isBlank c = false

/-- The declarations `found` are, in order, one for each line in scope whose trimmed text is a header by
the rule `IsHeader`, and each is what the rule `Declares` says for the place and the trimmed text of its
line. -/
def ScansTo (options : ScanOptions) (lines : List Text) (IsHeader : Text → Prop)
    (Declares : Nat → Text → Declaration → Prop) (found : List Declaration) : Prop :=
  ∃ places : List Nat, places.Pairwise (· < ·) ∧
    (∀ i, i ∈ places ↔
      ∃ line, lines[i]? = some line ∧ InScope options line ∧ IsHeader (trim line)) ∧
    List.Forall₂ (fun i d => ∃ line, lines[i]? = some line ∧ Declares i (trim line) d) places found

theorem scanned_iff {options : ScanOptions} {line : Text} :
    scanned options line = true ↔ InScope options line ∧ trim line ≠ [] := by
  unfold scanned InScope
  cases options.topLevelOnly with
  | false => simp
  | true =>
    cases line with
    | nil => simp
    | cons c rest => simp

/-- The declaration on a line that is one header at most. -/
def atLine? (language : Language) (options : ScanOptions) (lines : List Text) (p : Text × Nat) :
    Option Declaration :=
  (atLine language options lines p.2 p.1).head?

theorem atLine_eq_toList {language : Language} (options : ScanOptions) (lines : List Text)
    (hone : ∀ line, (language.headers line).length ≤ 1) (p : Text × Nat) :
    atLine language options lines p.2 p.1 = (atLine? language options lines p).toList := by
  have hlen : (atLine language options lines p.2 p.1).length ≤ 1 := by
    unfold atLine
    split
    · rw [List.length_map]
      exact Nat.le_trans (List.length_filter_le _ _) (hone _)
    · simp
  unfold atLine?
  match atLine language options lines p.2 p.1, hlen with
  | [], _ => rfl
  | [_], _ => rfl

theorem mem_atLine {language : Language} {options : ScanOptions} {lines : List Text} {i : Nat}
    {line : Text} {d : Declaration} :
    d ∈ atLine language options lines i line ↔
      scanned options line = true ∧ ∃ h ∈ language.headers (trim line), h.isPublic = true ∧
        d = ofHeader language (trim line) (language.describe lines i) h := by
  unfold atLine
  split
  · rename_i hscan
    simp only [List.mem_map, List.mem_filter, hscan, true_and]
    constructor
    · rintro ⟨h, ⟨hmem, hpub⟩, rfl⟩
      exact ⟨h, hmem, hpub, rfl⟩
    · rintro ⟨h, hmem, hpub, rfl⟩
      exact ⟨h, ⟨hmem, hpub⟩, rfl⟩
  · rename_i hscan
    simp [hscan]

/-- Every declaration is made by a public header on a line of the source. -/
theorem exists_of_mem_extract {language : Language} {options : ScanOptions} {source : Text}
    {d : Declaration} (hd : d ∈ extract language options source) :
    ∃ line ∈ lines source, trim line ≠ [] ∧ ∃ i, ∃ h ∈ language.headers (trim line),
      h.isPublic = true ∧ d = ofHeader language (trim line) (language.describe (lines source) i) h := by
  obtain ⟨⟨line, i⟩, hline, hd⟩ := List.mem_flatMap.1 hd
  obtain ⟨hscan, h, hmem, hpub, rfl⟩ := mem_atLine.1 hd
  have hline : line ∈ lines source :=
    List.mem_of_getElem? (List.mk_mem_zipIdx_iff_getElem?.1 hline)
  exact ⟨line, hline, (scanned_iff.1 hscan).2, i, h, hmem, hpub, rfl⟩

theorem atLine?_eq_some_iff {language : Language} {options : ScanOptions} (lines : List Text)
    (hone : ∀ line, (language.headers line).length ≤ 1) {line : Text} (i : Nat) {d : Declaration} :
    atLine? language options lines (line, i) = some d ↔
      scanned options line = true ∧ ∃ h ∈ language.headers (trim line), h.isPublic = true ∧
        d = ofHeader language (trim line) (language.describe lines i) h := by
  rw [← Option.mem_toList, ← atLine_eq_toList options lines hone (line, i)]
  exact mem_atLine

theorem atLine_of_header {language : Language} {options : ScanOptions}
    (hone : ∀ line, (language.headers line).length ≤ 1) {line : Text} {header : Header}
    (hscan : scanned options line = true) (hmem : header ∈ language.headers (trim line))
    (hpub : header.isPublic = true) (lines : List Text) (i : Nat) :
    atLine language options lines i line =
      [ofHeader language (trim line) (language.describe lines i) header] := by
  have hd := (atLine?_eq_some_iff lines hone i).2 ⟨hscan, header, hmem, hpub, rfl⟩
  rw [atLine_eq_toList options lines hone (line, i), hd]
  rfl

theorem extract_eq_filterMap {language : Language} {options : ScanOptions}
    (hone : ∀ line, (language.headers line).length ≤ 1) (source : Text) :
    extract language options source =
      (lines source).zipIdx.filterMap (atLine? language options (lines source)) := by
  have hflat : ∀ l : List (Text × Nat),
      (l.flatMap fun p => atLine language options (lines source) p.2 p.1) =
        l.filterMap (atLine? language options (lines source)) := by
    intro l
    induction l with
    | nil => rfl
    | cons p l ih =>
      rw [List.flatMap_cons, ih, atLine_eq_toList options _ hone p, List.filterMap_cons]
      cases atLine? language options (lines source) p <;> rfl
  exact hflat _

theorem forall₂_filterMap {α β : Type} (g : α → Option β) :
    ∀ l : List α, List.Forall₂ (fun a b => a ∈ l ∧ g a = some b)
      (l.filter fun a => (g a).isSome) (l.filterMap g)
  | [] => .nil
  | a :: l => by
    have ih : List.Forall₂ (fun x y => x ∈ a :: l ∧ g x = some y)
        (l.filter fun x => (g x).isSome) (l.filterMap g) :=
      (forall₂_filterMap g l).imp fun x y h => ⟨List.mem_cons_of_mem a h.1, h.2⟩
    cases hg : g a with
    | none => simpa [List.filter_cons, List.filterMap_cons, hg] using ih
    | some b =>
      rw [List.filter_cons, List.filterMap_cons, hg]
      exact .cons ⟨List.mem_cons_self, hg⟩ ih

/-- What `extract` finds in a language in which no line is more than one header. The rules need only
agree with the public headers of a line. -/
theorem scansTo_extract {language : Language} (options : ScanOptions) (source : Text)
    {IsHeader : Text → Prop} {Declares : Nat → Text → Declaration → Prop}
    (hone : ∀ line, (language.headers line).length ≤ 1) (hnil : language.headers [] = [])
    (hheader : ∀ line, IsHeader line ↔ ∃ h ∈ language.headers line, h.isPublic = true)
    (hrule : ∀ i line, ∀ h ∈ language.headers line, h.isPublic = true →
      Declares i line (ofHeader language line (language.describe (lines source) i) h)) :
    ScansTo options (lines source) IsHeader Declares (extract language options source) := by
  -- the places of the declarations are those of the lines that give one
  let hits := (lines source).zipIdx.filter fun p =>
    (atLine? language options (lines source) p).isSome
  refine ⟨hits.map (·.2), ?_, ?_, ?_⟩
  · have hsub : (hits.map (·.2)).Sublist ((lines source).zipIdx.map (·.2)) :=
      List.filter_sublist.map _
    rw [List.zipIdx_map_snd] at hsub
    exact (List.pairwise_lt_range' 1).sublist hsub
  · intro i
    simp only [hits, List.mem_map, List.mem_filter, Option.isSome_iff_exists, Prod.exists]
    constructor
    · rintro ⟨line, j, ⟨hmem, d, hd⟩, rfl⟩
      obtain ⟨hscan, h, hh, hpub, -⟩ := (atLine?_eq_some_iff _ hone _).1 hd
      exact ⟨line, List.mk_mem_zipIdx_iff_getElem?.1 hmem, (scanned_iff.1 hscan).1,
        (hheader _).2 ⟨h, hh, hpub⟩⟩
    · rintro ⟨line, hline, hin, hhead⟩
      obtain ⟨h, hh, hpub⟩ := (hheader _).1 hhead
      have hne : trim line ≠ [] := by
        intro hempty
        rw [hempty, hnil] at hh
        cases hh
      have hd := (atLine?_eq_some_iff (lines source) hone i).2
        ⟨scanned_iff.2 ⟨hin, hne⟩, h, hh, hpub, rfl⟩
      exact ⟨line, i, ⟨List.mk_mem_zipIdx_iff_getElem?.2 hline, _, hd⟩, rfl⟩
  · rw [extract_eq_filterMap hone, List.forall₂_map_left_iff]
    refine (forall₂_filterMap _ _).imp ?_
    rintro ⟨line, i⟩ d ⟨hmem, hd⟩
    obtain ⟨-, h, hh, hpub, rfl⟩ := (atLine?_eq_some_iff _ hone _).1 hd
    exact ⟨line, List.mk_mem_zipIdx_iff_getElem?.1 hmem, hrule i _ h hh hpub⟩

end ToolCatalog.Declaration
