import ToolCatalog.CommandLine.Run

/-!
# What a command touches

Which paths a command looks at, how much of what is there it needs, and which file it writes. A file
system that agrees with another one on this footprint gives the same run, so no more of it has to be
loaded.
-/

namespace ToolCatalog.CommandLine

/-- How much of what a path leads to is needed. -/
inductive Extent where
  /-- The entry itself, with its bytes where it is a file. -/
  | entry
  /-- The names of all files below it. -/
  | names
  /-- The names of all files below it, with the bytes of the sources. -/
  | sources
deriving DecidableEq, Repr

/-- The bytes of a file with this name are needed below a directory. -/
def Extent.needsBytes (extent : Extent) (name : Text) : Bool :=
  extent = .sources && ((Path.nameExtension? name).bind Language.ofExtension?).isSome

/-- The paths that a command looks at besides the settings file. -/
def Command.footprint : Command → List (Text × Extent)
  | .list path _ _ _ => [(path, .names)]
  | .read path root =>
    [(root, .entry), (if Path.isAbsolute path then path else root ++ '/' :: path, .entry)]
  | .extract file _ _ _ => [(file, .entry)]
  | .emit file _ => [(file, .entry)]
  | .generate path _ output => (path, .sources) :: output.toList.map (·, .entry)
  | .init _ => []

/-- The file that a command writes when it succeeds. -/
def Command.writes? : Command → Option Text
  | .generate _ _ output => output
  | .init _ => some settingsFile
  | _ => none

/-- The paths that a command line looks at. -/
def Invocation.footprint (i : Invocation) : List (Text × Extent) :=
  match i.command with
  | .init _ => [(settingsFile, .entry)]
  | command => (i.config.getD settingsFile, .entry) :: command.footprint

def Command.readsInput : Command → Bool
  | .extract file _ _ _ | .emit file _ => isInput file
  | _ => false

end ToolCatalog.CommandLine
