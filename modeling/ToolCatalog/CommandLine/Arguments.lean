import ToolCatalog.Text.Basic

/-!
# Command line arguments

A command line is a command with its options and operands. Options are written `--name value`,
`--name=value`, `-n value`, `-nvalue` or `-n=value`; an option stands at most once, and its value does
not look like an option unless it is attached. Two hyphens end the options, and a single hyphen is
an operand. The option for the settings file may stand before or after the command; after it, it
counts more.
-/

namespace ToolCatalog.CommandLine

inductive OptionName where
  | config
  | extension
  | page
  | perPage
  | root
  | language
  | format
  | topLevelOnly
  | embedRequired
  | output
  | force
  | help
  | version
deriving DecidableEq, Repr

/-- What an option takes. -/
inductive Takes where
  | nothing
  | text
  /-- A text that is not empty. -/
  | path
  | number
deriving DecidableEq, Repr

namespace OptionName

/-- The name after two hyphens. -/
def long : OptionName → Text
  | .config => "config"
  | .extension => "extension"
  | .page => "page"
  | .perPage => "per-page"
  | .root => "root"
  | .language => "language"
  | .format => "format"
  | .topLevelOnly => "top-level-only"
  | .embedRequired => "embed-required"
  | .output => "output"
  | .force => "force"
  | .help => "help"
  | .version => "version"

/-- The letter after one hyphen. -/
def short? : OptionName → Option Char
  | .config => some 'c'
  | .extension => some 'e'
  | .language => some 'l'
  | .format => some 'f'
  | .output => some 'o'
  | .help => some 'h'
  | .version => some 'V'
  | _ => none

def takes : OptionName → Takes
  | .config | .root | .output => .path
  | .extension | .language | .format => .text
  | .page | .perPage => .number
  | _ => .nothing

/-- The value of an option that does not stand. -/
def default? : OptionName → Option Text
  | .page => some "1"
  | .root => some "."
  | .format => some "json"
  | _ => none

/-- What the help pages say of an option. -/
def about : OptionName → Text
  | .config => "Config file path (defaults to .repoprime.toml in the current directory)"
  | .extension => "Only list files with this extension (e.g. py, js, ts)"
  | .page => "Page number (1-based)"
  | .perPage => "Items per page (max 100; defaults to the configured page size)"
  | .root => "Repository root"
  | .language =>
    "Language (python, javascript, typescript); inferred from the extension if omitted"
  | .format => "Output format (json, console)"
  | .topLevelOnly => "Ignore indented declarations"
  | .embedRequired => "Copy each descriptor's required list into its parameters object"
  | .output => "Write output to file instead of stdout"
  | .force => "Overwrite existing config file"
  | .help => "Print help"
  | .version => "Print version"

end OptionName

/-- Why a command line runs no command. -/
inductive Stop where
  | misuse
  /-- Help is asked for, with the program as a whole or with a command. -/
  | help (topic : Option Text)
  | version
deriving DecidableEq, Repr

/-- The number that an argument spells: digits, perhaps after a plus, of at most 64 bits. -/
def number? (s : Text) : Option Nat :=
  let digits := (Text.after? "+" s).getD s
  let n := digits.foldl (fun n c => 10 * n + (c.toNat - 48)) 0
  if !digits.isEmpty && digits.all Char.isDigit && n < Nat.pow 2 64 then some n else none

/-- A value that an option or an operand may have. -/
def Takes.accepts : Takes → Text → Bool
  | .nothing, _ => false
  | .text, _ => true
  | .path, s => !s.isEmpty
  | .number, s => (number? s).isSome

/-- The options and operands found so far. -/
structure Found where
  options : List (OptionName × Text) := []
  operands : List Text := []
deriving Repr

namespace Found

def value? (o : OptionName) (f : Found) : Option Text := (f.options.find? fun p => p.1 = o).map (·.2)

def has (o : OptionName) (f : Found) : Bool := (f.value? o).isSome

/-- The value of an option that has a default. -/
def text (o : OptionName) (f : Found) : Text := ((f.value? o).or o.default?).getD []

/-- One more option, which must not stand twice. -/
def addOption (f : Found) (o : OptionName) (value : Text) : Except Stop Found :=
  if f.has o then .error .misuse else .ok { f with options := f.options ++ [(o, value)] }

/-- One more option with a value that it must accept. -/
def addValue (f : Found) (o : OptionName) (value : Text) : Except Stop Found :=
  if o.takes.accepts value then f.addOption o value else .error .misuse

/-- Some more operands, up to a number of them in all. -/
def addOperands (limit : Nat) (more : List Text) (f : Found) : Except Stop Found :=
  let all := f.operands ++ more
  if all.length ≤ limit && more.all Takes.path.accepts then .ok { f with operands := all }
  else .error .misuse

end Found

/-- An argument that is read as options. -/
def looksLikeOption (arg : Text) : Bool := arg.head? == some '-' && arg != "-"

/-- The option that an argument names, with the value attached to it. -/
def optionOf? (allowed : List OptionName) (arg : Text) : Option (OptionName × Option Text) :=
  match arg with
  | '-' :: '-' :: s =>
    let name := s.takeWhile (· != '=')
    let attached := match s.dropWhile (· != '=') with
      | [] => none
      | _ :: v => some v
    (allowed.find? fun o => o.long = name).map fun o => (o, attached)
  | '-' :: c :: s =>
    (allowed.find? fun o => o.short? = some c).map fun o =>
      match o.takes, s with
      -- the letters of options without a value stop the reading, so more of them do not count
      | .nothing, _ | _, [] => (o, none)
      | _, '=' :: v => (o, some v)
      | _, v => (o, some v)
  | _ => none

/-- Reads options and operands. With no operands allowed, reading stops at the first of them, and the
arguments from there on are given back. The topic is what a request for help is about here. -/
def readArguments (topic : Option Text) (allowed : List OptionName) (operands : Option Nat)
    (f : Found) : List Text → Except Stop (Found × List Text)
  | [] => .ok (f, [])
  | arg :: rest =>
    if arg == "--" then
      match operands with
      | none => .error .misuse
      | some limit => (f.addOperands limit rest).map fun f => (f, [])
    else if looksLikeOption arg then
      match optionOf? allowed arg with
      | none => .error .misuse
      -- these two count where they stand, whatever comes after them
      | some (.help, none) => .error (.help topic)
      | some (.version, none) => .error .version
      | some (o, attached) =>
        match o.takes, attached with
        | .nothing, some _ => .error .misuse
        | .nothing, none => do
          let f ← f.addOption o []
          readArguments topic allowed operands f rest
        | _, some v => do
          let f ← f.addValue o v
          readArguments topic allowed operands f rest
        | _, none =>
          match rest with
          | [] => .error .misuse
          | v :: rest =>
            -- a value that looks like an option can only be attached
            if looksLikeOption v then .error .misuse
            else do
              let f ← f.addValue o v
              readArguments topic allowed operands f rest
    else
      match operands with
      -- the word of the command, whose form says how to read on
      | none => .ok (f, arg :: rest)
      | some limit => do
        let f ← f.addOperands limit [arg]
        readArguments topic allowed operands f rest

/-! ## Commands -/

/-- What to do. -/
inductive Command where
  /-- Show a page of the files below a root. -/
  | list (path : Text) (extension : Option Text) (page : Nat) (perPage : Option Nat)
  /-- Show a file within a root. -/
  | read (path root : Text)
  /-- Show the declarations of a source. -/
  | extract (file : Text) (language : Option Text) (format : Text) (topLevelOnly : Bool)
  /-- Make tools of descriptors. -/
  | emit (file : Text) (embedRequired : Bool)
  /-- Make tools of all functions of a repository. -/
  | generate (path format : Text) (output : Option Text)
  /-- Write a settings file. -/
  | init (force : Bool)
deriving DecidableEq, Repr

/-- A command and the settings file it goes by. -/
structure Invocation where
  config : Option Text
  command : Command
deriving DecidableEq, Repr

structure Operand where
  name : Text
  about : Text
  default? : Option Text := none

/-- How a command is written: its word, its own options and its operand, and what it then is. -/
structure CommandForm where
  word : Text
  about : Text
  options : List OptionName
  operand? : Option Operand
  build : (operand : Text) → Found → Command

def commandForms : List CommandForm :=
  [{ word := "list", about := "List repository files, one page at a time",
     options := [.extension, .page, .perPage],
     operand? := some { name := "PATH", about := "Repository root", default? := some "." },
     build := fun path f => .list path (f.value? .extension) ((number? (f.text .page)).getD 0)
       ((f.value? .perPage).bind number?) },
   { word := "read", about := "Print a file's content, refusing paths outside the root",
     options := [.root],
     operand? := some { name := "PATH", about := "Repository-relative path, e.g. src/utils.py" },
     build := fun path f => .read path (f.text .root) },
   { word := "extract", about := "Extract function and class signatures from a source file",
     options := [.language, .format, .topLevelOnly],
     operand? := some { name := "FILE", about := "Source file, or - for stdin" },
     build := fun file f =>
       .extract file (f.value? .language) (f.text .format) (f.has .topLevelOnly) },
   { word := "emit", about := "Convert function descriptors (JSON) into tool definitions",
     options := [.embedRequired],
     operand? :=
       some { name := "FILE", about := "Descriptor JSON file, or - for stdin", default? := some "-" },
     build := fun file f => .emit file (f.has .embedRequired) },
   { word := "generate", about := "Extract a whole repository and emit one tool array",
     options := [.format, .output],
     operand? := some { name := "PATH", about := "Repository root", default? := some "." },
     build := fun path f => .generate path (f.text .format) (f.value? .output) },
   { word := "init", about := "Generate a starter .repoprime.toml config file",
     options := [.force], operand? := none,
     build := fun _ f => .init (f.has .force) }]

def form? (word : Text) : Option CommandForm := commandForms.find? fun c => c.word = word

/-- The operand that was found, or its default; a command without an operand needs none. -/
def CommandForm.operand (form : CommandForm) (f : Found) : Option Text :=
  match form.operand? with
  | none => some []
  | some o => f.operands.head?.or o.default?

/-- The word `help` may be followed by the command to explain. -/
def readHelp : List Text → Stop
  | [] => .help none
  | [word] => if (form? word).isSome || word == "help" then .help (some word) else .misuse
  | _ => .misuse

/-- The options that may stand before the command. -/
def programOptions : List OptionName := [.config, .help, .version]

def parse (args : List Text) : Except Stop Invocation := do
  let (top, rest) ← readArguments none programOptions none {} args
  match rest with
  | [] => throw .misuse
  | word :: rest =>
    match form? word with
    | none => throw (if word == "help" then readHelp rest else .misuse)
    | some form =>
      let (f, _) ← readArguments (some word) (.config :: .help :: form.options)
        (some form.operand?.toList.length) {} rest
      match form.operand f with
      | none => throw .misuse
      | some operand =>
        -- a settings file that is named twice is the one named after the command
        return ⟨(f.value? .config).or (top.value? .config), form.build operand f⟩

end ToolCatalog.CommandLine
