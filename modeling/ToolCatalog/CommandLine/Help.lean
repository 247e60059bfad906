import ToolCatalog.CommandLine.Arguments

/-!
# Help pages

What the program says of itself and of each of its commands: what it is for, how it is called, and tables
of its commands, operands and options. The pages are made of the forms by which command lines are read.
-/

namespace ToolCatalog.CommandLine

def line (s : Text) : Text := s ++ ['\n']

/-- The name of what an option takes. -/
def OptionName.valueName (o : OptionName) : Text :=
  o.long.map fun c => if c = '-' then '_' else c.toUpper

/-- An option with its letter and its value; names stand in one column whether or not they have a
letter. -/
def OptionName.usage (o : OptionName) : Text :=
  let letter : Text := match o.short? with
    | some c => ['-', c, ',', ' ']
    | none => "    "
  let value : Text := if o.takes = .nothing then [] else " <" ++ o.valueName ++ ">"
  letter ++ "--" ++ o.long ++ value

/-- An operand in angle brackets, or in square ones where it may be left out. -/
def Operand.usage (o : Operand) : Text :=
  if o.default?.isSome then "[" ++ o.name ++ "]" else "<" ++ o.name ++ ">"

def withDefault (about : Text) : Option Text → Text
  | none => about
  | some value => about ++ " [default: " ++ value ++ "]"

structure Row where
  entry : Text
  about : Text

structure Table where
  heading : Text
  rows : List Row

/-- The second column begins two places after the longest entry. A table without rows is left out. -/
def Table.lines (t : Table) : List Text :=
  let width := (t.rows.map (·.entry.length)).foldl max 0
  if t.rows.isEmpty then []
  else [] :: (t.heading ++ ":") ::
    t.rows.map fun row => "  " ++ row.entry.rightpad (width + 2) ' ' ++ row.about

def page (about usage : Text) (tables : List Table) : Text :=
  ([about, [], "Usage: repoprime " ++ usage] ++ tables.flatMap Table.lines).flatMap line

def operandTable (operands : List Operand) : Table :=
  ⟨"Arguments", operands.map fun o => ⟨o.usage, withDefault o.about o.default?⟩⟩

def optionTable (options : List OptionName) : Table :=
  ⟨"Options", options.map fun o => ⟨o.usage, withDefault o.about o.default?⟩⟩

def helpAbout : Text := "Print this message or the help of the given subcommand(s)"

def programPage : Text :=
  page "Turn a repository's functions and classes into function-calling tool schemas"
    "[OPTIONS] <COMMAND>"
    [⟨"Commands", commandForms.map (fun form => ⟨form.word, form.about⟩) ++ [⟨"help", helpAbout⟩]⟩,
     optionTable programOptions]

def CommandForm.page (form : CommandForm) : Text :=
  CommandLine.page form.about
    (form.word ++ " [OPTIONS]" ++ form.operand?.toList.flatMap fun o => ' ' :: o.usage)
    [operandTable form.operand?.toList, optionTable (.config :: form.options ++ [.help])]

/-- The page of the word `help` itself, which has no options. -/
def helpPage : Text :=
  page helpAbout "help [COMMAND]..."
    [⟨"Arguments", [⟨"[COMMAND]...", "Print help for the subcommand(s)"⟩]⟩]

/-- The answer to a request for help. -/
def helpText : Option Text → Text
  | none => programPage
  | some word => ((form? word).map CommandForm.page).getD helpPage

end ToolCatalog.CommandLine
