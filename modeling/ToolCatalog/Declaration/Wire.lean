import ToolCatalog.Declaration.Basic
import ToolCatalog.Json.Document
import ToolCatalog.Json.Printer
import ToolCatalog.Text.Utf8

/-!
# Declarations in JSON

A declaration is written as an object with the keys `name`, `type`, `signature`, `description`, and
where they say something `parameters` and `required`. It is read from an object in which each of
these keys stands at most once, other keys counting for nothing, or from the array of its parts in
that order.
-/

namespace ToolCatalog

open Json (Document Piece piecesText? maxDepth)

namespace Declaration

/-- The fields that every declaration has. -/
def plainFields (d : Declaration) : Fields Json :=
  [("name", .string d.name), ("type", .string d.kind.word), ("signature", .string d.signature),
    ("description", .string d.description)]

/-- The field for the parameters, where there are any to speak of. -/
def parameterFields (d : Declaration) : Fields Json :=
  match d.parameters with
  | some schema => [("parameters", schema.toJson)]
  | none => []

/-- The field for the required names, where there are some. -/
def requiredFields (d : Declaration) : Fields Json :=
  if d.required.isEmpty then [] else [("required", Json.ofTexts d.required)]

def toJson (d : Declaration) : Json :=
  .object (d.plainFields ++ d.parameterFields ++ d.requiredFields)

def renderJson (ds : List Declaration) : Text := Json.render (.array (ds.map toJson))

end Declaration

namespace Json.Document

/-- The members of an object with their names as texts. -/
def named? : List (List Piece × Document) → Option (List (Text × Document))
  | [] => some []
  | (k, v) :: ms => (piecesText? k).bind fun k => (named? ms).map ((k, v) :: ·)

/-- The member under a name, which stands at most once. -/
def once? (k : Text) (ms : List (Text × Document)) : Option (Option Document) :=
  match ms.filter (fun m => m.1 = k) with
  | [] => some none
  | [(_, v)] => some (some v)
  | _ => none

/-- The parts of a record under its keys: of an object each key at most once, of an array the items in
order, and no more of them than keys. -/
def parts? (keys : List Text) : Document → Option (List (Option Document))
  | .object ms => (named? ms).bind fun ms => keys.mapM fun k => once? k ms
  | .array items =>
    if items.length ≤ keys.length then
      some (items.map some ++ List.replicate (keys.length - items.length) none)
    else none
  | _ => none

def text? : Document → Option Text
  | .string ps => piecesText? ps
  | _ => none

def texts? (depth : Nat) : Document → Option (List Text)
  | .array items => if depth = 0 then none else items.mapM text?
  | _ => none

end Json.Document

/-- A kind is read from its word, or from an object with that word as its only key and null under it. -/
def Kind.ofDocument? (depth : Nat) : Document → Option Kind
  | .string ps => (piecesText? ps).bind ofWord?
  | .object [(k, .null)] => if depth = 0 then none else (piecesText? k).bind ofWord?
  | _ => none
where
  ofWord? (w : Text) : Option Kind := [Kind.function, Kind.classDef].find? fun k => k.word = w

/-- A schema needs a text `type` and an object `properties`. -/
def ParameterSchema.ofDocument? (depth : Nat) (doc : Document) : Option ParameterSchema := do
  guard (0 < depth)
  let [some type, some properties] ← doc.parts? ["type", "properties"] | none
  let type ← type.text?
  let properties ← properties.value? (depth - 1)
  return { type, properties := ← properties.fields? }

namespace Declaration

def keys : List Text := ["name", "type", "signature", "description", "parameters", "required"]

def ofDocument? (depth : Nat) (doc : Document) : Option Declaration := do
  guard (0 < depth)
  let [some name, some kind, some signature, some description, parameters, required] ←
    doc.parts? keys | none
  let name ← name.text?
  let kind ← Kind.ofDocument? (depth - 1) kind
  let signature ← signature.text?
  let description ← description.text?
  let parameters ← match parameters with
    | none | some .null => some none
    | some doc => (ParameterSchema.ofDocument? (depth - 1) doc).map some
  let required ← match required with
    | none => some []
    | some doc => doc.texts? (depth - 1)
  return { name, kind, signature, description, parameters, required }

/-- The declarations in a JSON source: an array of them. -/
def readSource? (s : Json.Source) : Option (List Declaration) := do
  let .array items ← Document.read? s | none
  -- the array itself is one level
  items.mapM (ofDocument? (maxDepth - 1))

def readJson? (s : Text) : Option (List Declaration) := readSource? (.ofText s)

/-- The declarations in a JSON text given as bytes. Bytes that belong to no character do no harm in
the strings of keys that count for nothing. -/
def readJsonBytes? (bytes : List UInt8) : Option (List Declaration) :=
  readSource? (Utf8.decodeGaps bytes)

end Declaration

end ToolCatalog
