import ToolCatalog.Json.Basic

/-!
# Declarations

A declaration is what the header of a function or a class tells: its name, the header itself, the
documentation attached to it, and for a function its parameters. Parameters are described by a
schema with one property a parameter, in the order of the parameters; a repeated name changes
nothing.
-/

namespace ToolCatalog

/-- What a header declares. -/
inductive Kind where
  | function
  | classDef
deriving DecidableEq, Repr

def Kind.word : Kind → Text
  | .function => "function"
  | .classDef => "class"

/-- The schema of a list of parameters: an object type with named properties. -/
structure ParameterSchema where
  type : Text := "object"
  properties : Fields Json := []
deriving Repr

namespace ParameterSchema

/-- The property that describes a parameter. -/
def property (name : Text) : Json :=
  .object [("type", .string "string"), ("description", .string ("Parameter " ++ name))]

def insert (name : Text) (s : ParameterSchema) : ParameterSchema :=
  { s with properties := Fields.insert name (property name) s.properties }

def names (s : ParameterSchema) : List Text := Fields.keys s.properties

def contains (name : Text) (s : ParameterSchema) : Bool := Fields.contains name s.properties

def toJson (s : ParameterSchema) : Json :=
  .object [("type", .string s.type), ("properties", .object s.properties)]

end ParameterSchema

structure Declaration where
  name : Text
  kind : Kind
  /-- The trimmed header line. -/
  signature : Text
  /-- The attached documentation; empty when there is none. -/
  description : Text
  /-- The schema of the parameters; a class has none. -/
  parameters : Option ParameterSchema
  /-- The names of the parameters that must be given, in order. -/
  required : List Text
deriving Repr

end ToolCatalog
