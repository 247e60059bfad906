import ToolCatalog.Report.Console
import ToolCatalog.Settings

/-!
# Surveying a repository

A survey walks a repository, reads every file whose extension stands for a language, and extracts
its declarations. Files that are not text are passed over. All functions found become tools.
-/

namespace ToolCatalog

/-- What a survey looks for. -/
structure SurveyOptions where
  scan : ScanOptions := {}
  emit : AssemblyOptions := {}
  excludeDirs : List Text := defaultExcludeDirs
deriving Repr

def SurveyOptions.ofSettings (s : Settings) : SurveyOptions :=
  ⟨s.scan, s.emit, s.listing.excludeDirs⟩

structure FileDeclarations where
  path : Text
  language : Language
  declarations : List Declaration
deriving Repr

structure Survey where
  files : List FileDeclarations
  tools : List Tool
deriving Repr

namespace Survey

/-- The declarations of a file in a language that can be read. -/
def file? (fs : FileSystem) (root : Text) (options : ScanOptions) (path : Text) :
    Option FileDeclarations :=
  match (Path.extension? path).bind Language.ofExtension? with
  | none => none
  | some language =>
    match fs.readContained root path with
    -- a file that cannot be read as a text is passed over
    | .error _ => none
    | .ok source => some ⟨path, language, Declaration.extract language options source⟩

/-- The tools of all functions in some files. -/
def toolsOf (options : AssemblyOptions) (files : List FileDeclarations) : Except Error (List Tool) :=
  let ds := files.flatMap fun f => Descriptor.ofDeclarations f.declarations
  -- to assemble nothing is an error; to find nothing is not
  if ds.isEmpty then .ok [] else Tool.assemble options ds

/-- Surveys the repository at a root. -/
def run (fs : FileSystem) (root : Text) (options : SurveyOptions) : Except Error Survey := do
  let paths ← fs.walk root none options.excludeDirs
  let files := paths.filterMap (file? fs root options.scan)
  return ⟨files, ← toolsOf options.emit files⟩

def fileListing (f : FileDeclarations) : Text :=
  listingLine ("  " ++ f.path ++ " (" ++ f.language.display ++ ", "
    ++ Text.ofNat f.declarations.length ++ " declaration(s))")
  ++ f.declarations.flatMap Declaration.listing

def renderConsole (s : Survey) : Text :=
  if s.files.isEmpty then "\n  No source files found.\n\n"
  else '\n' :: s.files.flatMap fileListing ++ "  Result: " ++ Text.ofNat s.tools.length
    ++ " tool(s) from " ++ Text.ofNat s.files.length ++ " file(s)\n\n"

/-- A survey in a format; as JSON it is its tools. -/
def render (s : Survey) : Format → Text
  | .console => s.renderConsole
  | .json => Tool.renderJson s.tools

end Survey

end ToolCatalog
