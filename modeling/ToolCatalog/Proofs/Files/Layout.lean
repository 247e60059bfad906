import ToolCatalog.Files.Contained

/-!
# Resolution sees the layout of a file tree

The layout of a file tree tells what stands at each resolved path: a file, a link with its target, a
directory, or nothing. The bytes of the files are no part of it. Resolution is defined on trails of
nodes; `follow_eq_layout` says that it can be done on names alone, with nothing but the layout to look
at, and `canonicalize_eq_layout` that the resolved form of a path is a function of the layout and the
working directory.
-/

namespace ToolCatalog

/-- What can be seen of a node without reading it. -/
inductive NodeKind where
  | file
  | link (target : Text)
  | directory
deriving DecidableEq, Repr

/-- What stands at each resolved path. -/
abbrev Layout := List Text → Option NodeKind

namespace Node

def kind : Node → NodeKind
  | .file _ => .file
  | .link target => .link target
  | .directory _ => .directory

/-- The layout of a file tree. -/
def layout (root : Node) : Layout := fun names => (root.at? names).map kind

/-- The entry of a directory under a name. -/
def child? (name : Text) : Node → Option Node
  | .directory entries => Fields.get? name entries
  | _ => none

theorem at?_append (b : List Text) :
    ∀ (a : List Text) (root : Node), root.at? (a ++ b) = (root.at? a).bind (at? b)
  | [], _ => rfl
  | k :: a, .directory entries => by
    simp only [List.cons_append, at?]
    cases Fields.get? k entries with
    | none => rfl
    | some n => exact at?_append b a n
  | _ :: _, .file _ => rfl
  | _ :: _, .link _ => rfl

theorem at?_concat (names : List Text) (name : Text) (root : Node) :
    root.at? (names ++ [name]) = (root.at? names).bind (child? name) := by
  have hone : at? [name] = child? name := by
    funext n
    cases n with
    | directory entries =>
      simp only [at?, child?]
      cases Fields.get? name entries <;> rfl
    | file bytes => rfl
    | link target => rfl
  rw [at?_append, hone]

/-- What names lead on from is a directory. -/
theorem layout_of_append {root : Node} {a b : List Text} (h : root.layout (a ++ b) ≠ none)
    (hb : b ≠ []) : root.layout a = some .directory := by
  unfold layout at h ⊢
  rw [at?_append] at h
  cases b with
  | nil => exact absurd rfl hb
  | cons k b =>
    cases hn : root.at? a with
    | none => rw [hn] at h; exact absurd rfl h
    | some n =>
      rw [hn] at h
      cases n with
      | directory entries => rfl
      | file bytes => exact absurd rfl h
      | link target => exact absurd rfl h

end Node

namespace Layout

/-! ## Following parts by names -/

/-- The resolved path by which an entry is asked for is too long, as `Node.entryTooLong` says it. -/
def entryTooLong (layout : Layout) (here : List Text) (name : Text) (rest : List Text) : Bool :=
  let path := Path.render (here ++ [name])
  match layout (here ++ [name]) with
  | some (.link _) => Path.isTooLong path
  | _ => Path.isTooLong (if Path.asksDirectory rest then path ++ "/" else path)

/-- What one part of a path does. -/
inductive Move where
  | fault (f : FileFault)
  /-- The next part is due at a resolved path. -/
  | goOn (names : List Text)
  /-- A link is to be followed. -/
  | follow (target : Text)
  /-- The path ends at an entry that is not looked into. -/
  | settle

/-- What the part of a path does at a resolved path, with the parts in `rest` after it. -/
def move (layout : Layout) (purpose : Purpose) (here : List Text) (part : Text) (rest : List Text) :
    Move :=
  if purpose = .spell && Path.isName part && layout.entryTooLong here part rest then .fault .nameTooLong
  else if layout here ≠ some .directory then .fault .notDirectory
  else if part == [] || part == "." then .goOn here
  else if part == ".." then .goOn here.dropLast
  else if purpose = .write && !rest.isEmpty && rest.all (· == []) then .fault .isDirectory
  else if maxNameBytes < (Utf8.encode part).length then .fault .nameTooLong
  else match layout (here ++ [part]) with
    | none => if purpose = .write && rest.isEmpty then .settle else .fault .notFound
    | some (.link target) =>
      if purpose = .inspect && rest.isEmpty then .settle else .follow target
    | some _ => .goOn (here ++ [part])

/-- Follows the parts of a path from a resolved path; `onLink` goes on after a link. -/
def followWith (layout : Layout) (purpose : Purpose)
    (onLink : List Text → List Text → Except FileFault (List Text)) (here : List Text) :
    List Text → Except FileFault (List Text)
  | [] => .ok here
  | part :: rest =>
    match layout.move purpose here part rest with
    | .fault f => .error f
    | .goOn names => followWith layout purpose onLink names rest
    | .follow target => onLink (if Path.isAbsolute target then [] else here) (Path.parts target ++ rest)
    | .settle => .ok (here ++ [part])

/-- Follows the parts of a path with at most so many links. -/
def follow (layout : Layout) (purpose : Purpose) :
    Nat → List Text → List Text → Except FileFault (List Text)
  | 0, here, parts => layout.followWith purpose (fun _ _ => .error .tooManyLinks) here parts
  | links + 1, here, parts => layout.followWith purpose (layout.follow purpose links) here parts

/-- The resolved form of a path, from a working directory, spelled out from the root. -/
def canonicalize (layout : Layout) (workingDirectory : List Text) (p : Text) :
    Except FileFault (List Text) := do
  FileSystem.checkPath p
  if Path.isAbsolute p then layout.follow .spell maxLinks [] (Path.parts p)
  else if layout workingDirectory = none then .error .notFound
  else layout.follow .spell maxLinks workingDirectory (Path.parts p)

end Layout

namespace Trail

/-! ## Trails and names -/

/-- Every node of the way is the entry under its name where the way before it leads. -/
def Follows (root : Node) : Trail → Prop
  | [] => True
  | (name, n) :: t => Trail.entry? root t name = some n ∧ Follows root t

theorem names_cons (name : Text) (n : Node) (t : Trail) :
    Trail.names ((name, n) :: t) = t.names ++ [name] := by
  simp [Trail.names]

theorem names_tail (t : Trail) : Trail.names t.tail = t.names.dropLast := by
  cases t with
  | nil => rfl
  | cons p t => rw [List.tail_cons, names_cons, List.dropLast_concat]

theorem entry?_eq_child? (root : Node) (t : Trail) (name : Text) :
    t.entry? root name = (t.node root).child? name := by
  unfold Trail.entry? Node.child?
  cases t.node root <;> rfl

theorem Follows.at? {root : Node} :
    ∀ {t : Trail}, Follows root t → root.at? t.names = some (t.node root)
  | [], _ => rfl
  | (name, n) :: t, h => by
    rw [names_cons, Node.at?_concat, Follows.at? h.2, Option.bind_some, ← entry?_eq_child?, h.1]
    rfl

theorem Follows.tail {root : Node} {t : Trail} (h : Follows root t) : Follows root t.tail := by
  cases t with
  | nil => exact h
  | cons p t => exact h.2

theorem Follows.layout {root : Node} {t : Trail} (h : Follows root t) :
    root.layout t.names = some (t.node root).kind := by
  rw [Node.layout, h.at?, Option.map_some]

theorem Follows.layout_concat {root : Node} {t : Trail} (h : Follows root t) (name : Text) :
    root.layout (t.names ++ [name]) = (t.entry? root name).map Node.kind := by
  rw [Node.layout, Node.at?_concat, h.at?, Option.bind_some, entry?_eq_child?]

end Trail

namespace Node

open Trail

theorem entryTooLong_eq_layout {root : Node} {t : Trail} (h : Follows root t) (name : Text)
    (rest : List Text) :
    root.entryTooLong t name rest = root.layout.entryTooLong t.names name rest := by
  unfold Node.entryTooLong Layout.entryTooLong
  rw [h.layout_concat]
  cases hn : t.entry? root name with
  | none => rfl
  | some n => cases n <;> rfl

/-- One part after the other, a way of nodes and the names on it do the same. -/
theorem followWith_eq_layout {root : Node} (purpose : Purpose)
    {onLink : Trail → List Text → Except FileFault (List Text)}
    {onLink' : List Text → List Text → Except FileFault (List Text)}
    (hlink : ∀ t parts, Follows root t → onLink t parts = onLink' t.names parts) :
    ∀ (parts : List Text) (t : Trail), Follows root t →
      root.followWith purpose onLink t parts =
        root.layout.followWith purpose onLink' t.names parts
  | [], _, _ => rfl
  | part :: rest, t, h => by
    have ih := followWith_eq_layout purpose hlink rest
    -- both sides ask the same questions in the same order, so the splits below go in step
    unfold Node.followWith Layout.followWith Layout.move
    rw [entryTooLong_eq_layout h, h.layout, h.layout_concat]
    split
    · rfl
    cases hnode : t.node root with
    | file bytes => rfl
    | link target => rfl
    | directory entries =>
      have hentry : t.entry? root part = Fields.get? part entries := by
        unfold Trail.entry?
        rw [hnode]
      simp only [kind, ne_eq, not_true_eq_false, if_false]
      split
      · exact ih t h
      split
      · rw [← names_tail]
        exact ih t.tail h.tail
      split
      · rfl
      split
      · rfl
      rw [← hentry]
      cases hn : t.entry? root part with
      | none =>
        simp only [Option.map_none]
        split <;> rfl
      | some n =>
        have hfollows : Follows root ((part, n) :: t) := ⟨hn, h⟩
        have hgo := ih ((part, n) :: t) hfollows
        rw [names_cons] at hgo
        cases n with
        | file bytes => exact hgo
        | directory entries' => exact hgo
        | link target =>
          simp only [Option.map_some, kind]
          split
          · rfl
          · simp only
            split
            · exact hlink [] _ trivial
            · exact hlink t _ h

/-- Following a path looks at nothing but the layout. -/
theorem follow_eq_layout {root : Node} (purpose : Purpose) :
    ∀ (links : Nat) (parts : List Text) (t : Trail), Follows root t →
      root.follow purpose links t parts = root.layout.follow purpose links t.names parts
  | 0, parts, t, h => by
    unfold Node.follow Layout.follow
    refine followWith_eq_layout purpose ?_ parts t h
    intro t' parts' _
    rfl
  | links + 1, parts, t, h => by
    unfold Node.follow Layout.follow
    refine followWith_eq_layout purpose ?_ parts t h
    intro t' parts' ht'
    exact follow_eq_layout purpose links parts' t' ht'

/-! ## The working directory -/

/-- Names are walked to the end, or nothing stands there. -/
theorem foldlM_trail (root : Node) :
    ∀ (names : List Text) (t : Trail), Follows root t →
      match names.foldlM (fun t name => (Trail.entry? root t name).map fun n => (name, n) :: t) t with
      | some t' => Follows root t' ∧ Trail.names t' = t.names ++ names
      | none => root.layout (t.names ++ names) = none
  | [], t, h => by simpa [List.foldlM] using h
  | name :: names, t, h => by
    rw [List.foldlM_cons]
    cases hn : t.entry? root name with
    | none =>
      have hnone : root.at? (t.names ++ [name]) = none := by
        rw [at?_concat, h.at?, Option.bind_some, ← entry?_eq_child?, hn]
      show root.layout (t.names ++ name :: names) = none
      rw [layout, List.append_cons, at?_append, hnone]
      rfl
    | some n =>
      have ih := foldlM_trail root names ((name, n) :: t) ⟨hn, h⟩
      simp only [names_cons, List.append_assoc, List.singleton_append] at ih
      exact ih

theorem trail?_eq_some {root : Node} {names : List Text} {t : Trail}
    (h : root.trail? names = some t) : Follows root t ∧ t.names = names := by
  have hspec := foldlM_trail root names [] trivial
  unfold trail? at h
  rw [h] at hspec
  exact hspec

theorem trail?_eq_none {root : Node} {names : List Text} (h : root.trail? names = none) :
    root.layout names = none := by
  have hspec := foldlM_trail root names [] trivial
  unfold trail? at h
  rw [h] at hspec
  exact hspec

end Node

/-- Following parts from where a path begins looks at the layout and the working directory. -/
theorem FileSystem.followFrom_eq_layout (fs : FileSystem) (purpose : Purpose) (p : Text)
    (parts : List Text) :
    fs.followFrom purpose p parts =
      if Path.isAbsolute p then fs.root.layout.follow purpose maxLinks [] parts
      else if fs.root.layout fs.workingDirectory = none then .error .notFound
      else fs.root.layout.follow purpose maxLinks fs.workingDirectory parts := by
  unfold FileSystem.followFrom
  by_cases habs : Path.isAbsolute p = true
  · simp only [habs, if_true]
    exact Node.follow_eq_layout purpose maxLinks parts [] trivial
  · simp only [habs, if_false, Bool.false_eq_true]
    cases ht : fs.root.trail? fs.workingDirectory with
    | none => simp [Node.trail?_eq_none ht]
    | some t =>
      obtain ⟨hfollows, hnames⟩ := Node.trail?_eq_some ht
      have hlayout := hfollows.layout
      rw [hnames] at hlayout
      have heq := Node.follow_eq_layout purpose maxLinks parts t hfollows
      rw [hnames] at heq
      simp [hlayout, heq]

/-- The resolved form of a path is a function of the layout and the working directory. -/
theorem FileSystem.canonicalize_eq_layout (fs : FileSystem) (p : Text) :
    fs.canonicalize p = fs.root.layout.canonicalize fs.workingDirectory p := by
  unfold FileSystem.canonicalize FileSystem.resolve Layout.canonicalize
  rw [FileSystem.followFrom_eq_layout]

end ToolCatalog
