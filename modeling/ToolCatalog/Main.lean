import ToolCatalog.CommandLine.Footprint

/-!
# The program

Loads what a command line touches into a file tree, runs the command on it, and carries out what it
leaves behind. All decisions are taken by `CommandLine.run`.
-/

namespace ToolCatalog.Program

def readBytes (names : List Text) : IO (List UInt8) := do
  return (← IO.FS.readBinFile (String.ofList (Path.render names))).toList

/-- What kind of entry is at a resolved path, if any; a link is not followed. -/
def kindAt? (names : List Text) : IO (Option IO.FS.FileType) := do
  try
    let path := (← IO.currentDir) / String.ofList (Path.render names)
    return some (← path.symlinkMetadata).type
  catch _ => return none

def namesIn (names : List Text) : IO (List Text) := do
  let path := (← IO.currentDir) / String.ofList (Path.render names)
  return (← path.readDir).toList.map (·.fileName.toList)

/-- A name that no entry of a file system has. -/
def nowhere : Text := ['\x00']

/-- Where a link finally leads. -/
def linkTarget (names : List Text) : IO Text := do
  try return (← IO.FS.realPath (String.ofList (Path.render names))).toString.toList
  catch _ => return nowhere

partial def loadBelow (extent : CommandLine.Extent) (names : List Text) (tree : Node) : IO Node := do
  let mut tree := tree
  for name in ← namesIn names do
    let entry := names ++ [name]
    match ← kindAt? entry with
    | some .dir =>
      unless (tree.at? entry).isSome do tree := Node.put (.directory []) entry tree
      unless Node.isHidden name do tree ← loadBelow extent entry tree
    | some .symlink =>
      unless (tree.at? entry).isSome do tree := Node.put (.link (← linkTarget entry)) entry tree
    | some .file =>
      let bytes ← if extent.needsBytes name then readBytes entry else pure []
      -- a file that is there already may have its bytes
      unless (tree.at? entry).isSome do tree := Node.put (.file bytes) entry tree
    | _ => pure ()
  return tree

/-- Loads what the parts of a path lead to from a directory. -/
partial def loadParts (extent : CommandLine.Extent) (here parts : List Text) (tree : Node) :
    IO Node := do
  match parts with
  | [] => if extent = .entry then return tree else loadBelow extent here tree
  | part :: rest =>
    if part == [] || part == "." then loadParts extent here rest tree
    else if part == ".." then loadParts extent here.dropLast rest tree
    else
      let entry := here ++ [part]
      match ← kindAt? entry with
      | some .dir =>
        let known := ((tree.at? entry).map Node.isDirectory).getD false
        loadParts extent entry rest (if known then tree else Node.put (.directory []) entry tree)
      | some .symlink =>
        let target ← linkTarget entry
        let tree := Node.put (.link target) entry tree
        if target == nowhere then return tree
        else loadParts extent [] (Path.parts target ++ rest) tree
      | some .file => return Node.put (.file (← readBytes entry)) entry tree
      | _ => return tree

def load (workingDirectory : List Text) (tree : Node) (path : Text) (extent : CommandLine.Extent) :
    IO Node := do
  let start := if Path.isAbsolute path then [] else workingDirectory
  loadParts extent start (Path.parts path) tree

partial def readAll (input : IO.FS.Stream) (received : ByteArray) : IO ByteArray := do
  let more ← input.read 65536
  if more.isEmpty then return received else readAll input (received ++ more)

def loadFor (workingDirectory : List Text) (i : CommandLine.Invocation) : IO FileSystem := do
  let mut tree : Node := Node.put (.directory []) workingDirectory (.directory [])
  for (path, extent) in i.footprint do
    tree ← load workingDirectory tree path extent
  return ⟨tree, workingDirectory⟩

def run (args : List Text) : IO UInt32 := do
  let workingDirectory := Path.normalForm [] (← IO.currentDir).toString.toList
  let mut fs : FileSystem := ⟨.directory [], workingDirectory⟩
  let mut input : ByteArray := .empty
  let mut written : Option Text := none
  match CommandLine.parse args with
  | .ok i =>
    fs ← loadFor workingDirectory i
    written := i.command.writes?
    if i.command.readsInput then input ← readAll (← IO.getStdin) .empty
  | .error .misuse => (← IO.getStderr).putStr (String.ofList (CommandLine.helpText none))
  | .error _ => pure ()
  let outcome := CommandLine.run fs input.toList args
  -- a run that ends otherwise has changed no file
  if outcome.exitCode = 0 then
    if let some path := written then
      if let .ok bytes := outcome.files.read path then
        IO.FS.writeBinFile (String.ofList path) ⟨bytes.toArray⟩
  (← IO.getStdout).putStr (String.ofList outcome.stdout)
  (← IO.getStderr).putStr (String.ofList outcome.stderr)
  return outcome.exitCode.toUInt32

end ToolCatalog.Program

def main (args : List String) : IO UInt32 := ToolCatalog.Program.run (args.map (·.toList))
