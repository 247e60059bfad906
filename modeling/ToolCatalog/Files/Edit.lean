import ToolCatalog.Files.Resolve

/-!
# Changing a file tree

Making files, links and directories with all directories on the way to them, and taking nodes away.
Directories are made one by one, and those made before a fault stay, so a change gives the file
system it leaves behind together with its fault.
-/

namespace ToolCatalog

/-- What a change leaves behind. -/
structure Change where
  files : FileSystem
  /-- What stopped the change, if it was stopped. -/
  fault : Option FileFault := none
deriving Repr

namespace FileSystem

/-- The change that an operation makes, which does all or nothing. -/
def change (fs : FileSystem) : Except FileFault FileSystem → Change
  | .ok after => ⟨after, none⟩
  | .error fault => ⟨fs, some fault⟩

def isDirectory (fs : FileSystem) (p : Text) : Bool :=
  match fs.locate .reach p with
  | .ok names => ((fs.root.at? names).map Node.isDirectory).getD false
  | .error _ => false

/-- The resolved path of the directory that holds what a path names, and the part that names it there.
A link in that place is not followed, and slashes at the end of the path count for nothing. -/
def holder (fs : FileSystem) (p : Text) : Except FileFault (List Text × Text) := do
  checkLength p
  match (Path.parts p).reverse.dropWhile (·.isEmpty) with
  | [] => return ([], ".")
  | part :: above =>
    return (← fs.followFrom .reach p (above.reverse ++ [[]]), part)

/-- The resolved path of an entry that is to be made, where nothing may stand yet. A path that ends in
dots names something that stands. -/
def vacancy (fs : FileSystem) (p : Text) : Except FileFault (List Text) := do
  let (directory, part) ← fs.holder p
  if !Path.isName part then throw .alreadyExists
  if maxNameBytes < (Utf8.encode part).length then throw .nameTooLong
  if (fs.root.at? (directory ++ [part])).isSome then throw .alreadyExists
  return directory ++ [part]

def makeDirectory (fs : FileSystem) (p : Text) : Except FileFault FileSystem := do
  return { fs with root := Node.put (.directory []) (← fs.vacancy p) fs.root }

/-- Makes the first of some directories, each of which is to stand in the next one. The next one is
made before it only if the way to the first is missing. -/
def makeDirectories (fs : FileSystem) : List Text → Change
  | [] => ⟨fs, none⟩
  | p :: above =>
    match fs.makeDirectory p with
    | .error .notFound =>
      let change := fs.makeDirectories above
      if change.fault.isSome then change else settle change.files p
    | _ => settle fs p
where
  /-- Makes a directory, unless it is there. -/
  settle (fs : FileSystem) (p : Text) : Change :=
    if fs.isDirectory p then ⟨fs, none⟩ else fs.change (fs.makeDirectory p)

/-- Makes a directory with all directories above it, and none of them again. A path that ends in a dot
names what is in the directory, so that the directory itself is not made. -/
def putDirectory (fs : FileSystem) (p : Text) : Change :=
  if p.isEmpty then ⟨fs, none⟩ else fs.makeDirectories (p :: Path.ancestors p)

/-- Goes on with a change after the directories above a path have been made. -/
def withParents (fs : FileSystem) (p : Text) (next : FileSystem → Except FileFault FileSystem) :
    Change :=
  let change := fs.putDirectory (Path.parent p)
  if change.fault.isSome then change else change.files.change (next change.files)

/-- Writes a file with all directories above it. -/
def putFile (fs : FileSystem) (p : Text) (bytes : List UInt8) : Change :=
  fs.withParents p fun fs => fs.write p bytes

/-- Makes a link. A path that ends in a slash asks for a directory, which a link is not. -/
def makeLink (fs : FileSystem) (p target : Text) : Except FileFault FileSystem := do
  if p.contains '\x00' then throw .nulInPath
  checkLength target
  let names ← fs.vacancy p
  -- after the look for a vacancy, whose faults count more
  if p.getLast? == some '/' then throw .notFound
  return { fs with root := Node.put (.link target) names fs.root }

/-- Makes a link with all directories above it. -/
def putLink (fs : FileSystem) (p target : Text) : Change :=
  fs.withParents p fun fs => fs.makeLink p target

/-- Takes an empty directory away. It goes by its name in the directory that holds it. -/
def dropDirectory (fs : FileSystem) (p : Text) : Except FileFault FileSystem := do
  let (directory, part) ← fs.holder p
  if !Path.isName part then throw .invalidArgument
  match fs.root.at? (directory ++ [part]) with
  | some (.directory _) => return { fs with root := fs.root.remove (directory ++ [part]) }
  | some _ => throw .notDirectory
  | none => throw .notFound

/-- Takes away the node that a path names, with all below it. A directory is emptied before it is
dropped; where the way to it has gone with what was in it, it stays. -/
def remove (fs : FileSystem) (p : Text) : Change :=
  match fs.locate .inspect p with
  | .error fault => ⟨fs, some fault⟩
  | .ok names =>
    match fs.root.at? names with
    | some (.directory _) =>
      let emptied : FileSystem := { fs with root := Node.put (.directory []) names fs.root }
      match emptied.dropDirectory p with
      -- the way went through the directory's own contents
      | .error .notFound => ⟨emptied, none⟩
      | dropped => emptied.change dropped
    | _ => ⟨{ fs with root := fs.root.remove names }, none⟩

end FileSystem

end ToolCatalog
