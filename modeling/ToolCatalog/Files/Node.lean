import ToolCatalog.Fields

/-!
# File trees

A file system is a tree: a node is a file with its bytes, a symbolic link with its target, or a
directory with named nodes. `Node.at?` finds a node by names alone and follows no link.
-/

namespace ToolCatalog

inductive Node where
  | file (bytes : List UInt8)
  | link (target : Text)
  | directory (entries : List (Text × Node))
deriving Repr

namespace Node

def isDirectory : Node → Bool
  | .directory _ => true
  | _ => false

/-- The node that names lead to; no link is followed. -/
def at? : List Text → Node → Option Node
  | [], n => some n
  | k :: path, .directory entries => (Fields.get? k entries).bind (at? path)
  | _ :: _, _ => none

/-- The tree with a node in the place that names lead to. Missing directories on the way are made;
where a file or a link stands in the way nothing changes. -/
def put (new : Node) : List Text → Node → Node
  | [], _ => new
  | k :: path, .directory entries =>
    .directory (Fields.insert k (put new path ((Fields.get? k entries).getD (.directory []))) entries)
  | _ :: _, n => n

/-- The tree without the node that names lead to. -/
def remove : List Text → Node → Node
  | [k], .directory entries => .directory (entries.filter fun e => e.1 != k)
  | k :: path, .directory entries =>
    match Fields.get? k entries with
    | some n => .directory (Fields.insert k (remove path n) entries)
    | none => .directory entries
  | _, n => n

end Node

end ToolCatalog
