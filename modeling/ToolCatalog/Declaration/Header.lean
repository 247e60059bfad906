import ToolCatalog.Declaration.Basic
import ToolCatalog.Text.Word

/-!
# Declaration headers

A trimmed line is a header when it begins in one of a few fixed ways. Each way is a recogniser that
takes the line apart from left to right: words, blanks, a name, and for a function the text up to a
closing parenthesis. Of several closing parentheses the first one counts after which the line goes
on as that kind of header must.
-/

namespace ToolCatalog

inductive Header where
  /-- A function with the text between its parentheses. -/
  | function (name params : Text)
  | classDef (name : Text)
deriving DecidableEq, Repr

namespace Header

def name : Header → Text
  | .function n _ => n
  | .classDef n => n

/-- Names that begin with a low line are private. -/
def isPublic (h : Header) : Bool := h.name.head? != some '_'

/-- What follows a word and the blanks after it; there must be at least one blank. -/
def afterWord? (word s : Text) : Option Text :=
  match Text.after? word s with
  | some (c :: rest) => if Text.isBlank c then some (Text.trimStart rest) else none
  | _ => none

/-- What follows a word and the blanks after it, or the whole text where that word does not stand. -/
def skipWord (word s : Text) : Text := (afterWord? word s).getD s

/-- The name at the start of a text, as long as it goes on, and what follows it. -/
def name? (s : Text) : Option (Text × Text) :=
  if (s.takeWhile Text.isWord).isEmpty then none
  else some (s.takeWhile Text.isWord, s.dropWhile Text.isWord)

/-- The text before the first closing parenthesis whose continuation is accepted. -/
def upToParen? (accept : Text → Bool) : Text → Option Text
  | [] => none
  | c :: s => if c = ')' && accept s then some [] else (upToParen? accept s).map (c :: ·)

/-- A name, blanks, and a parenthesised text with an accepted continuation. -/
def callable? (accept : Text → Bool) (s : Text) : Option Header :=
  match name? s with
  | none => none
  | some (n, s) =>
    match Text.after? "(" (Text.trimStart s) with
    | none => none
    | some s => (upToParen? accept s).map (.function n)

/-! ## Python -/

/-- After the parameters of a Python function come a colon, or an arrow and later a colon. -/
def pythonTail (s : Text) : Bool :=
  match Text.trimStart s with
  | ':' :: _ => true
  | '-' :: '>' :: s => s.contains ':'
  | _ => false

/-- A Python function: `def name(params) -> result:`. -/
def pythonFunction? (line : Text) : Option Header :=
  (afterWord? "def" line).bind (callable? pythonTail)

/-- After the name of a Python class come a colon, or a parenthesis and later `):`. -/
def pythonClassTail : Text → Bool
  | ':' :: _ => true
  | '(' :: s => Text.occursIn "):" s
  | _ => false

/-- A Python class: `class Name(bases):`. -/
def pythonClass? (line : Text) : Option Header :=
  (afterWord? "class" line).bind fun s =>
    (name? s).bind fun (n, s) => if pythonClassTail s then some (.classDef n) else none

/-! ## JavaScript and TypeScript -/

/-- A function: `export async function name(params)`, the first two words being optional. -/
def scriptFunction? (line : Text) : Option Header :=
  (afterWord? "function" (skipWord "async" (skipWord "export" line))).bind
    (callable? fun _ => true)

/-- After the parameters of an arrow function come an arrow, or a colon and later an arrow. -/
def arrowTail (s : Text) : Bool :=
  match Text.trimStart s with
  | '=' :: '>' :: _ => true
  | ':' :: s => Text.occursIn "=>" s
  | _ => false

/-- A constant that holds an arrow function: `export const name = async (params): Result =>`, the words
`export` and `async` being optional. -/
def scriptArrow? (line : Text) : Option Header :=
  match afterWord? "const" (skipWord "export" line) with
  | none => none
  | some s =>
    match name? s with
    | none => none
    | some (n, s) =>
      match Text.after? "=" (Text.trimStart s) with
      | none => none
      | some s =>
        match Text.after? "(" (skipWord "async" (Text.trimStart s)) with
        | none => none
        | some s => (upToParen? arrowTail s).map (.function n)

/-- A class: `export abstract class Name`, the first two words being optional. -/
def scriptClass? (line : Text) : Option Header :=
  (afterWord? "class" (skipWord "abstract" (skipWord "export" line))).bind fun s =>
    (name? s).map fun (n, _) => .classDef n

end Header

end ToolCatalog
