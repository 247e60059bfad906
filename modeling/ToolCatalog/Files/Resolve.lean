import ToolCatalog.Error
import ToolCatalog.Files.Node
import ToolCatalog.Files.Path

/-!
# Resolving paths

A path is followed part by part from a directory. A double dot goes to the parent, a link is
replaced by the parts of its target, and every part but the last must lead to a directory; an empty
part at the end asks for a directory too. At most forty links are followed on the way.

How the last part is treated depends on the purpose: a link there is followed, or is itself meant,
or a missing entry there is about to be made.

A path that is handed over has a greatest length. To spell out where a path leads, every entry on the
way is asked for by the resolved path to it, so there each of these has that length at most, while
the path itself may be longer.
-/

namespace ToolCatalog

/-- What a path is resolved for. -/
inductive Purpose where
  /-- To reach what is there. -/
  | reach
  /-- To spell out the resolved path to what is there. -/
  | spell
  /-- To look at the entry itself, be it a link. -/
  | inspect
  /-- To write a file that may not be there yet. -/
  | write
deriving DecidableEq, Repr

/-- The most links that are followed on the way of one path. -/
def maxLinks : Nat := 40

def maxNameBytes : Nat := 255

/-- The way from the root of a file tree to a node: the names on it with the nodes they lead to, the
last one first. -/
abbrev Trail := List (Text × Node)

namespace Trail

def names (t : Trail) : List Text := (t.map (·.1)).reverse

def node (root : Node) : Trail → Node
  | [] => root
  | (_, n) :: _ => n

/-- The node that a name leads to at the end of a way. -/
def entry? (root : Node) (t : Trail) (name : Text) : Option Node :=
  match t.node root with
  | .directory entries => Fields.get? name entries
  | _ => none

end Trail

namespace Node

/-- The way that names lead; no link is followed. -/
def trail? (root : Node) (names : List Text) : Option Trail :=
  names.foldlM (fun (t : Trail) name => (t.entry? root name).map fun n => (name, n) :: t) []

/-- The resolved path by which an entry is asked for is too long; the parts in `rest` come after the
entry. Where they ask for a directory, a slash stands behind the path of anything but a link. -/
def entryTooLong (root : Node) (here : Trail) (name : Text) (rest : List Text) : Bool :=
  let path := Path.render (here.names ++ [name])
  match here.entry? root name with
  | some (.link _) => Path.isTooLong path
  | _ => Path.isTooLong (if Path.asksDirectory rest then path ++ "/" else path)

/-- Follows the parts of a path from where a way leads; `onLink` goes on after a link, with the way
and the parts that are then due. -/
def followWith (root : Node) (purpose : Purpose)
    (onLink : Trail → List Text → Except FileFault (List Text)) (here : Trail) :
    List Text → Except FileFault (List Text)
  | [] => .ok here.names
  | part :: rest =>
    -- asked for by its own path, before it is known whether there is a directory to hold it
    if purpose = .spell && Path.isName part && root.entryTooLong here part rest then
      .error .nameTooLong
    else match here.node root with
    | .file _ | .link _ => .error .notDirectory
    | .directory entries =>
      if part == [] || part == "." then followWith root purpose onLink here rest
      else if part == ".." then followWith root purpose onLink here.tail rest
      -- slashes at the end ask for a directory, and a file is to be written
      else if purpose = .write && !rest.isEmpty && rest.all (· == []) then .error .isDirectory
      else if maxNameBytes < (Utf8.encode part).length then .error .nameTooLong
      else match Fields.get? part entries with
        | none =>
          if purpose = .write && rest.isEmpty then .ok (here.names ++ [part]) else .error .notFound
        | some (.link target) =>
          if purpose = .inspect && rest.isEmpty then .ok (here.names ++ [part])
          -- a relative target begins where the link stands
          else onLink (if Path.isAbsolute target then [] else here) (Path.parts target ++ rest)
        | some n => followWith root purpose onLink ((part, n) :: here) rest

/-- Follows the parts of a path with at most so many links. -/
def follow (root : Node) (purpose : Purpose) :
    Nat → Trail → List Text → Except FileFault (List Text)
  | 0, here, parts => root.followWith purpose (fun _ _ => .error .tooManyLinks) here parts
  | links + 1, here, parts => root.followWith purpose (root.follow purpose links) here parts

end Node

/-- A file system with a directory in which relative paths begin. -/
structure FileSystem where
  root : Node
  workingDirectory : List Text := []
deriving Repr

namespace FileSystem

/-- A path that can be asked for at all: it is not empty and holds no U+0000. -/
def checkPath (p : Text) : Except FileFault Unit :=
  if p.contains '\x00' then .error .nulInPath
  else if p.isEmpty then .error .notFound
  else .ok ()

/-- A text that can be handed over as a path. -/
def checkLength (p : Text) : Except FileFault Unit := do
  checkPath p
  if Path.isTooLong p then throw .nameTooLong

/-- Follows parts from where a path begins. -/
def followFrom (fs : FileSystem) (purpose : Purpose) (p : Text) (parts : List Text) :
    Except FileFault (List Text) :=
  match if Path.isAbsolute p then some [] else fs.root.trail? fs.workingDirectory with
  | some here => fs.root.follow purpose maxLinks here parts
  | none => .error .notFound

/-- The resolved form of a path for a purpose. -/
def resolve (fs : FileSystem) (purpose : Purpose) (p : Text) : Except FileFault (List Text) := do
  checkPath p
  fs.followFrom purpose p (Path.parts p)

/-- The resolved form of a path that leads to a node, spelled out from the root. -/
def canonicalize (fs : FileSystem) (p : Text) : Except FileFault (List Text) := fs.resolve .spell p

/-- The resolved form of a path that is handed over as a whole, and so has a greatest length. -/
def locate (fs : FileSystem) (purpose : Purpose) (p : Text) : Except FileFault (List Text) := do
  checkLength p
  fs.resolve purpose p

def pathExists (fs : FileSystem) (p : Text) : Bool := (fs.locate .reach p).isOk

/-- The bytes of the file at a resolved path. -/
def readAt (fs : FileSystem) (names : List Text) : Except FileFault (List UInt8) :=
  match fs.root.at? names with
  | some (.file bytes) => .ok bytes
  | some (.directory _) => .error .isDirectory
  | some (.link _) => .error .tooManyLinks
  | none => .error .notFound

def read (fs : FileSystem) (p : Text) : Except FileFault (List UInt8) := do
  fs.readAt (← fs.locate .reach p)

/-- The file system with other bytes in the file that a path leads to; the file is made where its
directory is there. -/
def write (fs : FileSystem) (p : Text) (bytes : List UInt8) : Except FileFault FileSystem := do
  let names ← fs.locate .write p
  match fs.root.at? names with
  | some (.directory _) => .error .isDirectory
  | _ => return { fs with root := Node.put (.file bytes) names fs.root }

end FileSystem

end ToolCatalog
