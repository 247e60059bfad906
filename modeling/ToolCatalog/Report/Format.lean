import ToolCatalog.Text.Case

/-!
# Output formats

Results are written as JSON or as a listing for people. Format names are matched without regard to
case.
-/

namespace ToolCatalog

/-- The form in which results are written. -/
inductive Format where
  | console
  | json
deriving DecidableEq, Repr

def Format.ofName? (name : Text) : Option Format :=
  let n := Text.lower name
  if n = "console" || n = "text" then some .console
  else if n = "json" then some .json
  else none

end ToolCatalog
