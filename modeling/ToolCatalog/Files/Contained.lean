import ToolCatalog.Files.Resolve

/-!
# Reading within a root

A path is read only if it stays at or below a root, both in its normal form and after all links have
been followed. Whether it does is decided by the names on the way, so a directory whose name merely
begins like the root's is outside.
-/

namespace ToolCatalog.FileSystem

def liftFault {α : Type} : Except FileFault α → Except Error α
  | .ok a => .ok a
  | .error fault => .error (.file fault)

/-- The resolved form of a path that stays within a root. -/
def resolveContained (fs : FileSystem) (root path : Text) : Except Error (List Text) := do
  let base ← liftFault (fs.canonicalize root)
  let normal := Path.normalForm base path
  -- decided by the names alone, so nothing outside the root is looked at
  if !base.isPrefixOf normal then throw (.outsideRoot path)
  -- a link on the way may still lead out
  let resolved ← liftFault (fs.canonicalize (Path.render normal))
  if !base.isPrefixOf resolved then throw (.outsideRoot path)
  return resolved

def decodeText (bytes : List UInt8) : Except Error Text :=
  match Utf8.decode bytes with
  | .ok t => .ok t
  | .error fault => .error (.undecodable fault)

def readContained (fs : FileSystem) (root path : Text) : Except Error Text := do
  let names ← fs.resolveContained root path
  decodeText (← liftFault (fs.readAt names))

end ToolCatalog.FileSystem
