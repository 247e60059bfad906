import Mathlib.Algebra.Order.Floor.Div
import ToolCatalog.Files.Listing
import ToolCatalog.Proofs.Files.Listing

/-!
# Pages partition a listing

A page is the slice of the walked paths that exact arithmetic gives (`pageOf_eq_slice`). The number of paths
before it is cut off at the largest count, but what has more entries before it than that is past the end of
every list that can be counted (`drop_saturatingMul`). So pages of one size, put together from the first on, are
the paths that come first (`flatMap_pageOf`), and all of them once there are enough pages.
-/

namespace ToolCatalog

/-- How many files a full page has: as many as are asked for, or the nearest number from 1 to 100. -/
def pageSize (perPage : Nat) : Nat :=
  if perPage = 0 then 1 else if 100 < perPage then 100 else perPage

theorem pageSize_pos (perPage : Nat) : 0 < pageSize perPage := by
  unfold pageSize
  split
  · omega
  · split <;> omega

theorem pageSize_eq (perPage : Nat) : min (max perPage 1) maxPerPage = pageSize perPage := by
  unfold pageSize maxPerPage
  split
  · omega
  · split <;> omega

section

variable {α : Type} {l : List α}

/-- Where a product is cut off, the list has come to its end. -/
theorem drop_saturatingMul (hl : l.length ≤ maxCount) (a b : Nat) :
    l.drop (saturatingMul a b) = l.drop (a * b) := by
  unfold saturatingMul
  by_cases hle : a * b ≤ maxCount
  · rw [Nat.min_eq_left hle]
  · rw [List.drop_of_length_le (by omega), List.drop_of_length_le (by omega)]

theorem pageOf_eq_take (hl : l.length ≤ maxCount) (page perPage : Nat) :
    pageOf page perPage l =
      (l.drop ((max page 1 - 1) * pageSize perPage)).take (pageSize perPage) := by
  unfold pageOf
  simp only [pageSize_eq, drop_saturatingMul hl]

/-- A page is a slice of the list, from the end of the pages before it to its own end or that of the list. -/
theorem pageOf_eq_slice (hl : l.length ≤ maxCount) (page perPage : Nat) :
    pageOf page perPage l = l.extract ((max page 1 - 1) * pageSize perPage)
      (min (max page 1 * pageSize perPage) l.length) := by
  have hend : max page 1 * pageSize perPage =
      (max page 1 - 1) * pageSize perPage + pageSize perPage := by
    rw [← Nat.succ_mul, Nat.succ_eq_add_one, Nat.sub_add_cancel (by omega)]
  rw [pageOf_eq_take hl, List.extract_eq_take_drop, List.take_eq_take_iff, List.length_drop, hend]
  omega

/-- The pages from the first on hold what the list begins with, by induction on their number. -/
theorem flatMap_pageOf (hl : l.length ≤ maxCount) (perPage count : Nat) :
    (List.range' 1 count).flatMap (fun page => pageOf page perPage l) =
      l.take (count * pageSize perPage) := by
  induction count with
  | zero => simp
  | succ count ih =>
    have hlast : pageOf (1 + count) perPage l =
        (l.drop (count * pageSize perPage)).take (pageSize perPage) := by
      rw [pageOf_eq_take hl]
      congr 3
      omega
    rw [List.range'_1_concat, List.flatMap_append, ih, List.flatMap_singleton, hlast, Nat.succ_mul,
      List.take_add]

/-- The number of pages that a list takes. -/
theorem length_le_pages (perPage : Nat) :
    l.length ≤ (l.length ⌈/⌉ pageSize perPage) * pageSize perPage := by
  rw [Nat.mul_comm]
  exact (ceilDiv_le_iff_le_mul (pageSize_pos perPage)).1 (Nat.le_refl _)

end

namespace FileSystem

variable {fs : FileSystem} {root : Text} {extension : Option Text} {excludeDirs : List Text}

theorem listFiles_of_walk {paths : List Text} (h : fs.walk root extension excludeDirs = .ok paths)
    (page perPage : Nat) :
    fs.listFiles root { extension, page, perPage, excludeDirs } = .ok (pageOf page perPage paths) := by
  unfold listFiles
  rw [h]
  rfl

/-- **Pages partition a listing.** Each page is the slice that exact arithmetic gives, whatever its number and
the size asked for. Pages of one size have at most that many files each, those up to the last one with a file
are the whole listing when they are put together, and the pages after them are empty. -/
theorem listFiles_pages {paths : List Text} (hwalk : fs.walk root extension excludeDirs = .ok paths)
    (hcount : paths.length ≤ maxCount) :
    (∀ page perPage, fs.listFiles root { extension, page, perPage, excludeDirs } =
      .ok (paths.extract ((max page 1 - 1) * pageSize perPage)
        (min (max page 1 * pageSize perPage) paths.length))) ∧
    ∀ perPage,
      (∀ page files, fs.listFiles root { extension, page, perPage, excludeDirs } = .ok files →
        files.length ≤ pageSize perPage) ∧
      (∃ pages, (List.range' 1 (paths.length ⌈/⌉ pageSize perPage)).mapM
          (fun page => fs.listFiles root { extension, page, perPage, excludeDirs }) = .ok pages ∧
        pages.flatten = paths) ∧
      ∀ page, paths.length ⌈/⌉ pageSize perPage < page →
        fs.listFiles root { extension, page, perPage, excludeDirs } = .ok [] := by
  have hpage := listFiles_of_walk hwalk
  refine ⟨fun page perPage => ?_, fun perPage => ⟨?_, ?_, ?_⟩⟩
  · rw [hpage, pageOf_eq_slice hcount]
  · intro page files hfiles
    rw [hpage, pageOf_eq_take hcount] at hfiles
    rw [← Except.ok.inj hfiles]
    exact List.length_take_le _ _
  · have hpages := flatMap_pageOf hcount perPage (paths.length ⌈/⌉ pageSize perPage)
    rw [List.take_of_length_le (length_le_pages perPage), List.flatMap_def] at hpages
    simp only [hpage]
    exact ⟨_, List.mapM_pure .., hpages⟩
  · intro page hlast
    -- all files are on the pages before it
    have hbefore : paths.length ≤ (max page 1 - 1) * pageSize perPage :=
      (length_le_pages perPage).trans (Nat.mul_le_mul_right _ (by omega))
    rw [hpage, pageOf_eq_take hcount, List.drop_of_length_le hbefore, List.take_nil]

theorem walk_buildTree_unfiltered : buildTree.walk "/way" none ["target".toList] =
    .ok ["a/x.py".toList, "a/y.pyc".toList, "a-b/x.py".toList, "c/target".toList] := by
  have hroot : buildTree.locate .reach "/way" = .ok ["target".toList] := by decide +kernel
  have hsources : buildTree.root.at? ["target".toList] = some buildSources := rfl
  have hbelow : walkNames.below "/way" none ["target".toList] buildSources =
      .ok [["a".toList, "x.py".toList], ["a".toList, "y.pyc".toList], ["a-b".toList, "x.py".toList],
        ["c".toList, "target".toList]] := by
    unfold walkNames.below
    rw [if_neg (by decide +kernel), filesBelow_buildSources]
    rfl
  unfold walk
  rw [(walkNames_eq_below hroot hsources none _).trans hbelow]
  rfl

/-- Four files on pages of three. A page with the largest number has far more than the largest count before it,
and is empty. -/
theorem listFiles_pages_buildTree :
    buildTree.walk "/way" none ["target".toList] =
      .ok ["a/x.py".toList, "a/y.pyc".toList, "a-b/x.py".toList, "c/target".toList] ∧
    (∃ pages, [1, 2].mapM (fun page => buildTree.listFiles "/way"
        { page, perPage := 3, excludeDirs := ["target".toList] }) = .ok pages ∧
      pages.flatten = ["a/x.py".toList, "a/y.pyc".toList, "a-b/x.py".toList, "c/target".toList]) ∧
    buildTree.listFiles "/way" { page := 2, perPage := 3, excludeDirs := ["target".toList] } =
      .ok ["c/target".toList] ∧
    buildTree.listFiles "/way" { page := maxCount, perPage := 3, excludeDirs := ["target".toList] } =
      .ok [] := by
  obtain ⟨hslice, hall⟩ := listFiles_pages walk_buildTree_unfiltered (by decide)
  obtain ⟨-, hpages, hlater⟩ := hall 3
  exact ⟨walk_buildTree_unfiltered, hpages, hslice 2 3, hlater maxCount (by decide)⟩

end FileSystem

end ToolCatalog
