import ToolCatalog.Declaration.Header
import ToolCatalog.Declaration.Parameters
import ToolCatalog.Doc.BlockComment
import ToolCatalog.Doc.Docstring
import ToolCatalog.Language
import ToolCatalog.Text.Lines

/-!
# The declarations of a source

A source is read line by line. Every line whose trimmed text is a header with a public name gives a
declaration, with the documentation found after it (Python) or above it (JavaScript, TypeScript).
-/

namespace ToolCatalog

/-- What to look for in a source. -/
structure ScanOptions where
  /-- Pass over lines that begin with a blank. -/
  topLevelOnly : Bool := false
deriving DecidableEq, Repr

namespace Language

/-- The headers that a trimmed line is, by the rules of a language. -/
def headers : Language → Text → List Header
  | .python, line => (Header.pythonFunction? line).toList ++ (Header.pythonClass? line).toList
  | .javascript, line | .typescript, line =>
    -- no line is a header in two ways, so at most one of the three gives something
    (Header.scriptFunction? line).toList ++ (Header.scriptArrow? line).toList
      ++ (Header.scriptClass? line).toList

/-- The documentation of the header at a place. -/
def describe : Language → List Text → Nat → Text
  | .python, lines, i => Doc.docstring lines (i + 1)
  | .javascript, lines, i | .typescript, lines, i => Doc.blockComment lines i

/-- The parameters in the text between the parentheses of a header. -/
def parameters : Language → Text → ParameterList
  | .python => ParameterList.python
  | .javascript | .typescript => ParameterList.script

end Language

namespace Declaration

def ofHeader (language : Language) (signature description : Text) : Header → Declaration
  | .function name params =>
    let ps := language.parameters params
    { name, kind := .function, signature, description,
      parameters := some ps.schema, required := ps.required }
  | .classDef name =>
    { name, kind := .classDef, signature, description, parameters := none, required := [] }

/-- A line that is looked at: not blank, and not indented where only the top level counts. -/
def scanned (options : ScanOptions) (line : Text) : Bool :=
  !(options.topLevelOnly && line.head?.any Text.isBlank) && !(Text.trim line).isEmpty

/-- The declarations on the line at a place. -/
def atLine (language : Language) (options : ScanOptions) (lines : List Text) (i : Nat)
    (line : Text) : List Declaration :=
  if scanned options line then
    let signature := Text.trim line
    ((language.headers signature).filter Header.isPublic).map
      (ofHeader language signature (language.describe lines i))
  else []

/-- The declarations of a source, in order. -/
def extract (language : Language) (options : ScanOptions) (source : Text) : List Declaration :=
  let lines := Text.lines source
  lines.zipIdx.flatMap fun (line, i) => atLine language options lines i line

def extractTagged (source tag : Text) : Except Error (List Declaration) :=
  (Language.ofTag tag).map fun language => extract language {} source

/-- The declarations of a source given as bytes. The tag is looked at before the bytes. -/
def extractBytes (source : List UInt8) (tag : Text) : Except Error (List Declaration) := do
  let language ← Language.ofTag tag
  match Utf8.decode source with
  | .ok text => return extract language {} text
  | .error fault => throw (.undecodable fault)

end Declaration

end ToolCatalog
