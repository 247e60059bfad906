import ToolCatalog.Files.Walk
import ToolCatalog.Proofs.Files.Containment
import ToolCatalog.Proofs.Files.Validity
import ToolCatalog.Proofs.Text.Trimming
import ToolCatalog.Proofs.Text.Utf8

/-!
# What a walk lists can be read

A walk lists files by the names on the way to them from where its root leads (`exists_of_mem_walk`); a
root that is a file lists itself, with no name on the way. In a valid tree each of them is resolved within
that root to where it stands (`resolveContained_below`), and is read with the bytes that stand there
(`readContained_below`).
-/

namespace ToolCatalog

open Text

/-! ## Paths of names -/

namespace Path

theorem relative_cons (name : Text) :
    ∀ names : List Text, relative (name :: names) = name ++ names.flatMap fun n => '/' :: n
  | [] => by simp [relative, join]
  | next :: names => by
    have ih := relative_cons next names
    unfold relative at ih ⊢
    rw [join_cons _ _ (by simp), ih]
    simp

theorem parts_relative {names : List Text} (hne : names ≠ []) (h : ∀ name ∈ names, '/' ∉ name) :
    parts (relative names) = names := by
  cases names with
  | nil => exact absurd rfl hne
  | cons name names =>
    rw [relative_cons]
    exact splitOn_slashes (h name (by simp)) fun n hn => h n (List.mem_cons_of_mem name hn)

theorem normalStep_name {base : List Text} {name : Text} (h : isName name = true) :
    normalStep base name = base ++ [name] := by
  obtain ⟨hne, hdot, hdots⟩ := isName_iff.1 h
  simp only [normalStep, Bool.or_eq_true, beq_iff_eq, hne, hdot, hdots, or_self, if_false]

theorem foldl_normalStep : ∀ {names base : List Text}, (∀ name ∈ names, isName name = true) →
    names.foldl normalStep base = base ++ names
  | [], base, _ => by simp
  | name :: names, base, h => by
    rw [List.foldl_cons, normalStep_name (h name (by simp)),
      foldl_normalStep fun n hn => h n (List.mem_cons_of_mem name hn)]
    simp

/-- Names below a resolved path are their own normal form. -/
theorem normalForm_relative {names : List Text}
    (h : ∀ name ∈ names, isName name = true ∧ '/' ∉ name) (base : List Text) :
    normalForm base (relative names) = base ++ names := by
  cases names with
  | nil => simp [normalForm, relative, join, parts, splitOn, isAbsolute, normalStep]
  | cons name names =>
    have habs : isAbsolute (relative (name :: names)) = false := by
      obtain ⟨hname, hslash⟩ := h name (by simp)
      cases name with
      | nil => exact absurd hname (by decide)
      | cons c name =>
        have hc : c ≠ '/' := fun hc => hslash (by simp [hc])
        simp [relative_cons, isAbsolute, hc]
    unfold normalForm
    rw [habs, parts_relative (by simp) fun n hn => (h n hn).2]
    exact foldl_normalStep fun n hn => (h n hn).1

end Path

/-! ## Listed files -/

namespace Node

/-- An entry of a directory and the files that are found from it on. -/
theorem mem_entryFiles {excluded : List Text} {e : Text × List (List Text)} :
    ∀ {entries : List (Text × Node)}, e ∈ entryFiles excluded entries → ∃ n, (e.1, n) ∈ entries ∧
      ∀ rest ∈ e.2, (∃ bytes, n = .file bytes) ∧ rest = [] ∨ rest ∈ n.filesBelow excluded
  | (name, n) :: entries, h => by
    unfold entryFiles at h
    rcases List.mem_cons.1 h with rfl | h
    · refine ⟨n, by simp, ?_⟩
      intro rest hrest
      simp only at hrest
      split at hrest
      · simp at hrest
      · split at hrest
        · exact .inl ⟨⟨_, rfl⟩, by simpa using hrest⟩
        · simp at hrest
        · split at hrest
          · simp at hrest
          · exact .inr hrest
    · obtain ⟨m, hm, hrest⟩ := mem_entryFiles h
      exact ⟨m, List.mem_cons_of_mem _ hm, hrest⟩

/-- What a walk finds below a node: the node is a directory, and the first name is one of its entries. -/
theorem mem_filesBelow {excluded names : List Text} {n : Node} (h : names ∈ n.filesBelow excluded) :
    ∃ entries name m rest, n = .directory entries ∧ names = name :: rest ∧ (name, m) ∈ entries ∧
      ((∃ bytes, m = .file bytes) ∧ rest = [] ∨ rest ∈ m.filesBelow excluded) := by
  cases n with
  | file bytes => simp [filesBelow] at h
  | link target => simp [filesBelow] at h
  | directory entries =>
    unfold filesBelow at h
    obtain ⟨e, he, hnames⟩ := List.mem_flatMap.1 h
    obtain ⟨rest, hrest, rfl⟩ := List.mem_map.1 hnames
    obtain ⟨m, hm, hfound⟩ := mem_entryFiles (List.mem_mergeSort.1 he)
    exact ⟨entries, e.1, m, rest, rfl, rfl, hm, hfound rest hrest⟩

/-- The names that a walk finds below a node of a valid tree lead to a file. -/
theorem Valid.file_of_mem_filesBelow {excluded : List Text} :
    ∀ {names here : List Text} {n : Node}, n.Valid here → names ∈ n.filesBelow excluded →
      ∃ bytes, n.at? names = some (.file bytes)
  | [], _, _, _, hmem => by
    obtain ⟨_, _, _, _, -, hnil, -⟩ := mem_filesBelow hmem
    cases hnil
  | name :: rest, here, n, h, hmem => by
    obtain ⟨entries, _, m, _, rfl, hcons, hm, hfound⟩ := mem_filesBelow hmem
    cases hcons
    have hget := h.2.get?_of_mem hm
    have hvalid := (h.2.get? hget).2
    unfold Node.at?
    rw [hget]
    rcases hfound with ⟨⟨bytes, rfl⟩, rfl⟩ | hbelow
    · exact ⟨bytes, rfl⟩
    · exact hvalid.file_of_mem_filesBelow hbelow

end Node

namespace FileSystem

theorem mem_filesBelow_of_below {root : Text} {filter : Option Text} {excluded names : List Text} {n : Node}
    {files : List (List Text)} (h : walkNames.below root filter excluded n = .ok files)
    (hnames : names ∈ files) : names ∈ n.filesBelow excluded := by
  unfold walkNames.below at h
  split at h
  · cases h
  · cases h
    exact (List.mem_filter.1 hnames).1

/-- What a walk lists: the node that it looks at or reaches, if that is a file, or files below that node. -/
theorem walk_eq_ok {fs : FileSystem} {root : Text} {filter : Option Text} {excluded paths : List Text}
    (h : fs.walk root filter excluded = .ok paths) :
    ∃ purpose start n, purpose ≠ .write ∧ fs.locate purpose root = .ok start ∧
      fs.root.at? start = some n ∧ ∀ path ∈ paths, ∃ names, path = Path.relative names ∧
        ((∃ bytes, n = .file bytes) ∧ names = [] ∨ names ∈ n.filesBelow excluded) := by
  unfold walk at h
  split at h
  · rename_i files hfiles
    cases h
    simp only [List.forall_mem_map]
    unfold walkNames at hfiles
    cases hinspect : fs.locate .inspect root with
    | error fault =>
      rw [hinspect] at hfiles
      cases hfiles
    | ok start =>
      simp only [hinspect, bind, Except.bind] at hfiles
      split at hfiles
      · cases hfiles
      · rename_i bytes hfile
        cases hfiles
        refine ⟨.inspect, start, _, by simp, hinspect, hfile, ?_⟩
        intro names hnames
        have hnil : names = [] := by
          split at hnames
          · exact List.mem_singleton.1 hnames
          · cases hnames
        exact ⟨names, rfl, .inl ⟨⟨bytes, rfl⟩, hnil⟩⟩
      · rename_i entries hdir
        refine ⟨.inspect, start, _, by simp, hinspect, hdir, ?_⟩
        intro names hnames
        exact ⟨names, rfl, .inr (mem_filesBelow_of_below hfiles hnames)⟩
      · cases hreach : fs.locate .reach root with
        | error fault =>
          rw [hreach] at hfiles
          cases hfiles
        | ok reached =>
          simp only [hreach] at hfiles
          split at hfiles
          · rename_i n hn
            refine ⟨.reach, reached, n, by simp, hreach, hn, ?_⟩
            intro names hnames
            exact ⟨names, rfl, .inr (mem_filesBelow_of_below hfiles hnames)⟩
          · cases hfiles
  · cases h

/-- What a walk lists in a valid tree: files at or below the node that its root leads to, by the names on
the way to them. -/
theorem exists_of_mem_walk {fs : FileSystem} (hvalid : fs.root.Valid []) {root path : Text}
    {filter : Option Text} {excluded paths : List Text} (h : fs.walk root filter excluded = .ok paths)
    (hpath : path ∈ paths) :
    ∃ start names bytes, fs.locate .reach root = .ok start ∧ fs.canonicalize root = .ok start ∧
      path = Path.relative names ∧ fs.root.at? (start ++ names) = some (.file bytes) := by
  obtain ⟨purpose, start, n, hwrite, hlocate, hn, hpaths⟩ := walk_eq_ok h
  obtain ⟨names, rfl, hnames⟩ := hpaths path hpath
  have hnode : (∀ target, n ≠ .link target) ∧ ∃ bytes, n.at? names = some (.file bytes) := by
    rcases hnames with ⟨⟨bytes, rfl⟩, rfl⟩ | hnames
    · exact ⟨by simp, bytes, rfl⟩
    · have hfile := (hvalid.at? hn).1.file_of_mem_filesBelow hnames
      obtain ⟨entries, -, -, -, rfl, -⟩ := Node.mem_filesBelow hnames
      exact ⟨by simp, hfile⟩
  obtain ⟨hlink, bytes, hbytes⟩ := hnode
  obtain ⟨hreach, hspell⟩ := reach_of_locate hvalid hwrite hlocate hn hlink
  refine ⟨start, names, bytes, hreach, hspell, rfl, ?_⟩
  rw [Node.at?_append, hn]
  exact hbytes

theorem decodeText_eq_ok_iff {bytes : List UInt8} {text : Text} :
    decodeText bytes = .ok text ↔ bytes = Utf8.encode text := by
  rw [← Utf8.decode_eq_ok_iff]
  unfold decodeText
  cases Utf8.decode bytes <;> simp

section

variable {fs : FileSystem} (hvalid : fs.root.Valid []) {root : Text} {start names : List Text}
  {bytes : List UInt8} (hroot : fs.canonicalize root = .ok start)
  (hfile : fs.root.at? (start ++ names) = some (.file bytes))
include hvalid hroot hfile

/-- A file at or below the node that a root leads to is resolved within the root to where it stands. -/
theorem resolveContained_below :
    fs.resolveContained root (Path.relative names) = .ok (start ++ names) := by
  have hnames := (hvalid.at? hfile).2
  have hnormal : Path.normalForm start (Path.relative names) = start ++ names := by
    refine Path.normalForm_relative ?_ start
    intro name hname
    have hentry := hnames name (List.mem_append_right start hname)
    exact ⟨hentry.1, hentry.2.1⟩
  have hlayout : fs.root.layout (start ++ names) = some .file := by
    rw [Node.layout, hfile]
    rfl
  have hcanonical : fs.canonicalize (Path.render (start ++ names)) = .ok (start ++ names) :=
    canonicalize_render ⟨hvalid.spelled hfile, .file, hlayout, by simp⟩ (root_directory hroot)
      (Path.nul_notMem_render fun name hname => (hnames name hname).2.2.1)
  refine resolveContained_eq_ok_iff.2 ⟨start, hroot, ?_, ?_, List.prefix_append _ _⟩
  · rw [hnormal]
    exact List.prefix_append _ _
  · rw [hnormal, hcanonical]

/-- It is read with the bytes that stand there. -/
theorem readContained_below : fs.readContained root (Path.relative names) = decodeText bytes := by
  unfold readContained readAt
  rw [resolveContained_below hvalid hroot hfile]
  simp only [bind, Except.bind, hfile]
  rfl

end

end FileSystem

end ToolCatalog
