import ToolCatalog.Declaration.Wire
import ToolCatalog.Report.Format
import ToolCatalog.Text.Lines
import ToolCatalog.Tool.Assembly

/-!
# Listings for people

Declarations and tools as indented listings: a head with their number, and a block for each.
-/

namespace ToolCatalog

def listingLine (s : Text) : Text := s ++ ['\n']

/-- What stands before the details of an entry. -/
def detailIndent : Text := List.replicate 11 ' '

namespace Declaration

/-- The mark of a kind, padded to one width. -/
def kindMark : Kind → Text
  | .function => "[function]"
  | .classDef => "[class]   "

/-- The parameters in parentheses; one that need not be given has a question mark. -/
def parameterListing (d : Declaration) : Text :=
  match d.parameters with
  | none => []
  | some schema =>
    let shown := schema.names.map fun n => if d.required.contains n then n else n ++ ['?']
    '(' :: Text.join ", " shown ++ [')']

/-- The lines of a declaration in a listing. -/
def listingLines (d : Declaration) : List Text :=
  [("  " : Text) ++ kindMark d.kind ++ [' '] ++ d.name ++ parameterListing d,
    detailIndent ++ "at " ++ d.signature]
  ++ (if d.description.isEmpty then []
    else [detailIndent ++ "doc: " ++ Text.firstLine d.description])
  ++ [[]]

def listing (d : Declaration) : Text := d.listingLines.flatMap listingLine

def renderConsole (ds : List Declaration) : Text :=
  if ds.isEmpty then "\n  No declarations recognized.\n\n"
  else "\n  " ++ Text.ofNat ds.length ++ " declaration(s):\n\n" ++ ds.flatMap listing

def render (ds : List Declaration) : Format → Text
  | .console => renderConsole ds
  | .json => renderJson ds

end Declaration

namespace Tool

def propertyNames (t : Tool) : List Text :=
  match (t.parameters.field? "properties").bind Json.fields? with
  | some fields => Fields.keys fields
  | none => []

def listing (t : Tool) : Text :=
  listingLine ("  " ++ t.name ++ "(" ++ Text.join ", " t.propertyNames ++ ")")
  ++ (if t.description.isEmpty then []
    else listingLine (detailIndent ++ Text.firstLine t.description))

def renderConsole (ts : List Tool) : Text :=
  if ts.isEmpty then "\n  No tools generated.\n\n"
  else "\n  " ++ Text.ofNat ts.length ++ " tool(s):\n\n" ++ ts.flatMap listing ++ "\n"

def render (ts : List Tool) : Format → Text
  | .console => renderConsole ts
  | .json => renderJson ts

end Tool

end ToolCatalog
