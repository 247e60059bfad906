import ToolCatalog.Json.Printer
import ToolCatalog.Tool.Descriptor

/-!
# Tools

A tool wraps a function for function calling: its name, its description and the schema of its
parameters. Tools are assembled from descriptors all together or not at all. On demand the required
names are written into the schema, where that is an object that does not name them itself.
-/

namespace ToolCatalog

structure Tool where
  name : Text
  description : Text
  parameters : Json
deriving Repr

structure AssemblyOptions where
  /-- Write the required names into the schema of the parameters. -/
  embedRequired : Bool := false
deriving DecidableEq, Repr

namespace Tool

/-- The schema with the required names as its last field, unless there are none, or it names them
already, or it is no object. -/
def withRequired (required : List Text) : Json → Json
  | .object fields =>
    if required.isEmpty || Fields.contains "required" fields then .object fields
    else .object (Fields.insert "required" (Json.ofTexts required) fields)
  | v => v

def ofDescriptor (options : AssemblyOptions) (d : Descriptor) : Tool where
  name := d.name
  description := d.description
  parameters := if options.embedRequired then withRequired d.required d.parameters else d.parameters

/-- The part of a descriptor that no tool can be made with. -/
def faultOf? (d : Descriptor) : Option DescriptorPart :=
  if d.name.isEmpty then some .name
  else match d.parameters with
    | .null => some .parameters
    | _ => none

/-- The first descriptor from a place on that no tool can be made of, with its fault. -/
def firstFault? (index : Nat) : List Descriptor → Option (Nat × DescriptorPart)
  | [] => none
  | d :: ds =>
    match faultOf? d with
    | some part => some (index, part)
    | none => firstFault? (index + 1) ds

/-- The tools of some descriptors, in order. -/
def assemble (options : AssemblyOptions) (ds : List Descriptor) : Except Error (List Tool) :=
  if ds.isEmpty then .error .noFunctions
  -- all descriptors are looked at before any tool is made
  else match firstFault? 0 ds with
    | some (index, part) => .error (.malformedDescriptor index part)
    | none => .ok (ds.map (ofDescriptor options))

def toJson (t : Tool) : Json :=
  .object [("type", .string "function"),
    ("function", .object [("name", .string t.name), ("description", .string t.description),
      ("parameters", t.parameters)])]

def renderJson (ts : List Tool) : Text := Json.render (.array (ts.map toJson))

end Tool

end ToolCatalog
