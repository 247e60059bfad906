import ToolCatalog.Declaration.Basic
import ToolCatalog.Error

/-!
# Function descriptors

A descriptor is what a tool is made of: a name, a description, the schema of the parameters as any
JSON value, and the names that must be given. Descriptors come from declarations or from a JSON
document, which is an array of them or an object with that array under `functions`. The first fault
found in a document is the one that is reported.
-/

namespace ToolCatalog

/-- A function to make a tool of. -/
structure Descriptor where
  name : Text
  description : Text
  parameters : Json
  required : List Text
deriving Repr

namespace Descriptor

/-- The descriptor of a declaration that has parameters. -/
def ofDeclaration? (d : Declaration) : Option Descriptor :=
  d.parameters.map fun schema => ⟨d.name, d.description, schema.toJson, d.required⟩

def ofDeclarations (ds : List Declaration) : List Descriptor := ds.filterMap ofDeclaration?

/-- The value under a key, where null counts as absent. -/
def given? (k : Text) (fields : Fields Json) : Option Json :=
  match Fields.get? k fields with
  | none | some .null => none
  | some v => some v

/-- The name of a descriptor: a text that is not empty. -/
def readName (fields : Fields Json) : Option Text :=
  match Fields.get? "name" fields with
  | some (.string s) => if s.isEmpty then none else some s
  | _ => none

/-- The description of a descriptor: a text, or nothing. -/
def readDescription (fields : Fields Json) : Option Text :=
  match given? "description" fields with
  | none => some []
  | some v => v.text?

/-- The required names of a descriptor: an array of texts, or nothing. -/
def readRequired (fields : Fields Json) : Option (List Text) :=
  match given? "required" fields with
  | none => some []
  | some v => v.items?.bind fun items => items.mapM Json.text?

/-- The value of a part that must be there. -/
def demand {α : Type} (index : Nat) (part : DescriptorPart) : Option α → Except Error α
  | some a => .ok a
  | none => .error (.malformedDescriptor index part)

def readItem (index : Nat) (item : Json) : Except Error Descriptor := do
  -- faults are found in this order; what is no object has no name
  let fields ← demand index .name item.fields?
  let name ← demand index .name (readName fields)
  let description ← demand index .description (readDescription fields)
  let parameters ← demand index .parameters (given? "parameters" fields)
  let required ← demand index .required (readRequired fields)
  return ⟨name, description, parameters, required⟩

/-- The descriptors in the items from a place on. -/
def readFrom (index : Nat) : List Json → Except Error (List Descriptor)
  | [] => .ok []
  | item :: items => do
    let d ← readItem index item
    let ds ← readFrom (index + 1) items
    return d :: ds

/-- The items of a document: its own, or those under `functions`. -/
def items? (v : Json) : Option (List Json) :=
  match v with
  | .array items => some items
  | v => (v.field? "functions").bind Json.items?

def read (v : Json) : Except Error (List Descriptor) := do
  let items ← demand 0 .functions (items? v)
  readFrom 0 items

end Descriptor

end ToolCatalog
