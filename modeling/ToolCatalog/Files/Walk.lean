import ToolCatalog.Files.Resolve

/-!
# Walking a file tree

A walk lists the files below a directory by the names on the way to them. Entries whose names begin
with a dot and directories with an excluded name are passed over, links are neither listed nor
followed, and the entries of each directory come in the order of the bytes of their names. The
directory where the walk begins is entered whatever its name, and also through a link.

Every directory that is entered is opened by its path from where the walk begins, so the walk fails
where one of these is too long. The path of a file is not handed over and may have any length.
-/

namespace ToolCatalog

def bytesLe : List UInt8 → List UInt8 → Bool
  | [], _ => true
  | _ :: _, [] => false
  | a :: s, b :: t => if a = b then bytesLe s t else a < b

def nameLe (a b : Text) : Bool := bytesLe (Utf8.encode a) (Utf8.encode b)

namespace Node

/-- A name that is passed over wherever it stands. -/
def isHidden (name : Text) : Bool := name.head? == some '.'

mutual

/-- The visible files below a node, as the names on the way to them. -/
def filesBelow (excluded : List Text) : Node → List (List Text)
  | .directory entries =>
    -- sorted at each level, so the order is by names and not by whole paths
    ((entryFiles excluded entries).mergeSort fun a b => nameLe a.1 b.1).flatMap fun e =>
      e.2.map (e.1 :: ·)
  | _ => []

/-- The visible files of each entry of a directory, from the entry on. -/
def entryFiles (excluded : List Text) : List (Text × Node) → List (Text × List (List Text))
  | [] => []
  | (name, n) :: entries =>
    let found : List (List Text) :=
      if isHidden name then []
      else match n with
        | .file _ => [[]]
        | .link _ => []
        | .directory _ => if excluded.contains name then [] else filesBelow excluded n
    (name, found) :: entryFiles excluded entries

end

mutual

/-- The directories that a walk from a node enters, as the names on the way to them. -/
def directoriesBelow (excluded : List Text) : Node → List (List Text)
  | .directory entries => [] :: entryDirectories excluded entries
  | _ => []

/-- The directories that a walk enters through the entries of a directory. -/
def entryDirectories (excluded : List Text) : List (Text × Node) → List (List Text)
  | [] => []
  | (name, n) :: entries =>
    let entered : List (List Text) :=
      if isHidden name || excluded.contains name then [] else directoriesBelow excluded n
    entered.map (name :: ·) ++ entryDirectories excluded entries

end

end Node

namespace FileSystem

/-- The extension that a filter asks for, if any. -/
def wantedExtension? (filter : Option Text) : Option Text :=
  (filter.map fun e => e.dropWhile (· == '.')).filter fun e => !e.isEmpty

/-- A file name passes a filter. -/
def passes (filter : Option Text) (name : Option Text) : Bool :=
  match wantedExtension? filter with
  | none => true
  | some ext => name.bind Path.nameExtension? == some ext

/-- All visible files below the node that a path leads to. A file lists itself as the empty path. -/
def walkNames (fs : FileSystem) (root : Text) (filter : Option Text) (excluded : List Text) :
    Except FileFault (List (List Text)) := do
  let names ← fs.locate .inspect root
  match fs.root.at? names with
  | none => .error .notFound
  | some (.file _) => return if passes filter (Path.fileName? root) then [[]] else []
  | some (.directory entries) => below (.directory entries)
  -- only the link that the walk begins at is followed
  | some (.link _) =>
    let names ← fs.locate .reach root
    match fs.root.at? names with
    | some n => below n
    | none => .error .notFound
where
  below (n : Node) : Except FileFault (List (List Text)) :=
    if (n.directoriesBelow excluded).any fun names => Path.isTooLong (Path.below root names) then
      .error .nameTooLong
    else .ok ((n.filesBelow excluded).filter fun names => passes filter names.getLast?)

/-- All visible files below the node that a path leads to, as paths relative to it. -/
def walk (fs : FileSystem) (root : Text) (filter : Option Text) (excluded : List Text) :
    Except Error (List Text) :=
  match fs.walkNames root filter excluded with
  | .ok files => .ok (files.map Path.relative)
  | .error fault => .error (.walk fault)

end FileSystem

end ToolCatalog
