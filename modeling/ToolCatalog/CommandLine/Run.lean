import ToolCatalog.CommandLine.Help
import ToolCatalog.Survey

/-!
# Running commands

A command line, the bytes on standard input and a file system determine the exit code, what is
written to the two outputs, and the file system afterwards. A command is a sequence of steps on a
session, and what it has written when it fails stays written.
-/

namespace ToolCatalog.CommandLine

/-- The settings file of the working directory. -/
def settingsFile : Text := ".repoprime.toml"

/-- What a run leaves behind. -/
structure Outcome where
  exitCode : Nat
  stdout : Text
  stderr : Text
  files : FileSystem
deriving Repr

/-! ## Sessions -/

/-- What has been written so far, and the file system as it is now. -/
structure Session where
  stdout : Text := []
  stderr : Text := []
  files : FileSystem
deriving Repr

/-- The steps of a command. An error ends them and keeps the session as it is at that point. -/
abbrev SessionM := EStateM Error Session

namespace Session

def print (s : Text) : SessionM Unit :=
  modify fun session => { session with stdout := session.stdout ++ s }

def complain (s : Text) : SessionM Unit :=
  modify fun session => { session with stderr := session.stderr ++ line s }

def getFiles : SessionM FileSystem := return (← get).files

def writeFile (path : Text) (bytes : List UInt8) : SessionM Unit := do
  let files ← ofExcept (FileSystem.liftFault ((← getFiles).write path bytes))
  modify fun session => { session with files }

end Session

open Session

/-! ## Commands -/

/-- The format that a name stands for; JSON, and a warning, where it stands for none. -/
def chooseFormat (name : Text) : SessionM Format :=
  match Format.ofName? name with
  | some format => return format
  | none => do
    complain ("Warning: unknown format '" ++ name ++ "', using Json")
    return .json

/-- A single hyphen, which stands for standard input. -/
def isInput (file : Text) : Bool :=
  Path.significantParts file == [("-" : Text)] && !Path.isAbsolute file

/-- The bytes of a file, or of standard input where the file is a single hyphen. -/
def readInput (fs : FileSystem) (stdin : List UInt8) (file : Text) : Except Error (List UInt8) :=
  if isInput file then .ok stdin
  else FileSystem.liftFault (fs.read file)

/-- The language of a file by its extension. -/
def inferLanguage (file : Text) : Except Error Language :=
  let ext := (Path.extension? file).getD []
  match Language.ofExtension? ext with
  | some l => .ok l
  | none => .error (.unsupportedLanguage (if ext.isEmpty then file else ext))

/-- One page of the files below a root, as a JSON array. -/
def runList (settings : Settings) (path : Text) (extension : Option Text) (page : Nat)
    (perPage : Option Nat) : SessionM Nat := do
  let files ← ofExcept ((← getFiles).listFiles path
    { extension, page, perPage := perPage.getD settings.listing.perPage,
      excludeDirs := settings.listing.excludeDirs })
  print (Json.render (Json.ofTexts files))
  return 0

def runRead (path root : Text) : SessionM Nat := do
  print (← ofExcept ((← getFiles).readContained root path))
  return 0

def runExtract (settings : Settings) (stdin : List UInt8) (file : Text) (language : Option Text)
    (format : Text) (topLevelOnly : Bool) : SessionM Nat := do
  -- first of all, so that the warning stands before any error
  let format ← chooseFormat format
  let language ← ofExcept (match language with
    | some tag => Language.ofTag tag
    | none => inferLanguage file)
  let source ← ofExcept (readInput (← getFiles) stdin file >>= FileSystem.decodeText)
  let options : ScanOptions := { topLevelOnly := settings.scan.topLevelOnly || topLevelOnly }
  print (Declaration.render (Declaration.extract language options source) format)
  return 0

/-- The tools of the descriptors in a JSON text. -/
def readTools (settings : Settings) (embedRequired : Bool) (bytes : List UInt8) :
    Except Error (List Tool) :=
  match (Utf8.decode bytes).toOption.bind Json.parse? with
  | none => throw .notJson
  | some v => do
    let ds ← Descriptor.read v
    Tool.assemble { embedRequired := embedRequired || settings.emit.embedRequired } ds

def runEmit (settings : Settings) (stdin : List UInt8) (file : Text) (embedRequired : Bool) :
    SessionM Nat := do
  let bytes ← ofExcept (readInput (← getFiles) stdin file)
  print (Tool.renderJson (← ofExcept (readTools settings embedRequired bytes)))
  return 0

/-- The survey of a repository in a format. -/
def surveyText (settings : Settings) (path format : Text) : SessionM Text := do
  let format ← chooseFormat format
  let survey ← ofExcept (Survey.run (← getFiles) path (.ofSettings settings))
  return survey.render format

/-- The survey of a repository, shown or written to a file. -/
def runGenerate (settings : Settings) (path format : Text) (output : Option Text) : SessionM Nat := do
  -- nothing is written before the whole text is there
  let text ← surveyText settings path format
  match output with
  | none => print text
  | some out => writeFile out (Utf8.encode text)
  return 0

/-- Writes a settings file to start from, unless one is there that must not be overwritten. -/
def runInit (force : Bool) : SessionM Nat := do
  if (← getFiles).pathExists settingsFile && !force then
    complain (settingsFile ++ " already exists. Use --force to overwrite.")
    return 1
  writeFile settingsFile (Utf8.encode Settings.starter)
  print (line ("Created " ++ settingsFile))
  return 0

def runCommand (stdin : List UInt8) (settings : Settings) : Command → SessionM Nat
  | .list path extension page perPage => runList settings path extension page perPage
  | .read path root => runRead path root
  | .extract file language format topLevelOnly =>
    runExtract settings stdin file language format topLevelOnly
  | .emit file embedRequired => runEmit settings stdin file embedRequired
  | .generate path format output => runGenerate settings path format output
  | .init force => runInit force

/-- Runs a command with its settings; `init` needs none. -/
def runInvocation (stdin : List UInt8) (i : Invocation) : SessionM Nat :=
  match i.command with
  | .init force => runInit force
  | command => do
    let settings ← ofExcept ((← getFiles).loadSettings (i.config.getD settingsFile))
    runCommand stdin settings command

/-! ## Runs -/

def failureCode : Nat := 2

/-- What a command leaves behind that ran to its end or to an error. -/
def finish : EStateM.Result Error Session Nat → Outcome
  | .ok code s => ⟨code, s.stdout, s.stderr, s.files⟩
  | .error e s => ⟨failureCode, s.stdout, s.stderr ++ line ("Error: " ++ e.message), s.files⟩

def versionText : Text := line "repoprime 0.1.0"

def run (fs : FileSystem) (stdin : List UInt8) (args : List Text) : Outcome :=
  match parse args with
  | .error .misuse => ⟨failureCode, [], [], fs⟩
  | .error (.help topic) => ⟨0, helpText topic, [], fs⟩
  | .error .version => ⟨0, versionText, [], fs⟩
  | .ok i => finish (runInvocation stdin i { files := fs })

end ToolCatalog.CommandLine
