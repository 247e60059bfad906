import ToolCatalog.Declaration.Basic
import ToolCatalog.Text.Blank

/-!
# Parameter lists

The text between the parentheses of a header is split at every comma, without regard to nesting,
and each piece is read as a parameter or passed over. A parameter's name stands before the first
colon or equals sign; an equals sign gives it a default, so that it need not be given.
-/

namespace ToolCatalog

structure Parameter where
  name : Text
  required : Bool
deriving DecidableEq, Repr

namespace Parameter

/-- The trimmed text before the first colon or equals sign. -/
def nameIn (piece : Text) : Text := Text.trim (piece.takeWhile fun c => c != ':' && c != '=')

/-- The parameter in a piece of a Python parameter list. The receiver `self` and pieces that begin
with a star are passed over. -/
def python? (piece : Text) : Option Parameter :=
  let t := Text.trim piece
  if t.isEmpty || t == "self" || Text.startsWith t "*" then none
  else
    -- the receiver may also have a type or a default, which only its name shows
    let name := nameIn t
    if name.isEmpty || name == "self" then none else some ⟨name, !t.contains '='⟩

/-- The parameter in a piece of a JavaScript or TypeScript parameter list. Rest parameters are passed
over; a question mark after the name makes a parameter optional. -/
def script? (piece : Text) : Option Parameter :=
  let t := Text.trim piece
  if t.isEmpty || Text.startsWith t "..." then none
  else
    let name := nameIn t
    let (name, optional) := match Text.before? "?" name with
      | some stem => (Text.trimEnd stem, true)
      | none => (name, false)
    if name.isEmpty then none else some ⟨name, !optional && !t.contains '='⟩

end Parameter

/-- The parameters of a function: their schema, and the names that must be given, as often as they
occur. -/
structure ParameterList where
  schema : ParameterSchema := {}
  required : List Text := []
deriving Repr

namespace ParameterList

def push (l : ParameterList) (p : Parameter) : ParameterList where
  schema := l.schema.insert p.name
  required := if p.required then l.required ++ [p.name] else l.required

def ofParameters (ps : List Parameter) : ParameterList := ps.foldl push {}

/-- The parameters that a reader of pieces finds in a text. -/
def read (piece? : Text → Option Parameter) (params : Text) : ParameterList :=
  ofParameters ((Text.splitOn ',' params).filterMap piece?)

def python (params : Text) : ParameterList := read Parameter.python? params

def script (params : Text) : ParameterList := read Parameter.script? params

end ParameterList

end ToolCatalog
