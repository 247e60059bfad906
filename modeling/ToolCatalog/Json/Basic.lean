import ToolCatalog.Fields
import ToolCatalog.Decimal.Shortest

/-!
# JSON values

Values with objects whose fields keep their order. A number is either a whole number of at most 64
bits or a signed binary64 magnitude.
-/

namespace ToolCatalog

open Decimal (Binary64)

inductive Json.Number where
  /-- A whole number from `-2^63` to `2^64 - 1`. -/
  | whole (n : Int)
  | float (negative : Bool) (magnitude : Binary64)
deriving DecidableEq, Repr

inductive Json where
  | null
  | bool (b : Bool)
  | number (n : Json.Number)
  | string (s : Text)
  | array (items : List Json)
  | object (fields : List (Text × Json))
deriving Repr

namespace Json

def ofTexts (l : List Text) : Json := .array (l.map .string)

/-- The field of an object under a name; any other value has none. -/
def field? (k : Text) : Json → Option Json
  | .object fields => Fields.get? k fields
  | _ => none

def text? : Json → Option Text
  | .string s => some s
  | _ => none

def items? : Json → Option (List Json)
  | .array items => some items
  | _ => none

def fields? : Json → Option (Fields Json)
  | .object fields => some fields
  | _ => none

end Json

end ToolCatalog
