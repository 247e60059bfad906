import ToolCatalog.Declaration.Extract
import ToolCatalog.Files.Contained
import ToolCatalog.Files.Listing
import ToolCatalog.Tool.Assembly
import ToolCatalog.Toml.Reader

/-!
# Settings

Settings are read from a TOML document over defaults, field by field. A value of the wrong type is a
fault of the document, and only a document without such faults is asked whether its page size is
within bounds.
-/

namespace ToolCatalog

structure ListingSettings where
  perPage : Nat := maxPerPage
  excludeDirs : List Text := defaultExcludeDirs
deriving DecidableEq, Repr

structure Settings where
  scan : ScanOptions := {}
  listing : ListingSettings := {}
  emit : AssemblyOptions := {}
deriving DecidableEq, Repr

namespace Settings

/-- The values under some keys of a section. A section may also be written as the array of its values
in order; a moment of time has none of the keys. -/
def sectionValues? (keys : List Text) : Toml → Option (List (Option Toml))
  | .table _ entries => some (keys.map fun k => Fields.get? k entries)
  -- items beyond the last key count for nothing
  | .array items | .tables items => some ((List.range keys.length).map fun i => items[i]?)
  | .moment => some (keys.map fun _ => none)
  | _ => none

/-- The values under some keys of a section that may be absent. -/
def section? (name : Text) (keys : List Text) (document : Fields Toml) :
    Option (List (Option Toml)) :=
  match Fields.get? name document with
  | none => some (keys.map fun _ => none)
  | some v => sectionValues? keys v

/-- A value that may be absent, read over its default. -/
def readOr {α : Type} (default : α) (read : Toml → Option α) : Option Toml → Option α
  | none => some default
  | some v => read v

def readBool : Toml → Option Bool
  | .bool b => some b
  | _ => none

/-- A whole number that is not negative. -/
def readNat : Toml → Option Nat
  | .integer n => if 0 ≤ n then some n.toNat else none
  | _ => none

def readText : Toml → Option Text
  | .string s => some s
  | _ => none

def readTexts : Toml → Option (List Text)
  | .array items | .tables items => items.mapM readText
  | _ => none

/-- The settings in a document; `none` where a value has the wrong type. -/
def ofDocument? (document : Fields Toml) : Option Settings := do
  let [topLevelOnly] ← section? "scan" ["top_level_only"] document | none
  let topLevelOnly ← readOr false readBool topLevelOnly
  let [perPage, excludeDirs] ← section? "listing" ["per_page", "exclude_dirs"] document | none
  let perPage ← readOr maxPerPage readNat perPage
  let excludeDirs ← readOr defaultExcludeDirs readTexts excludeDirs
  let [embedRequired] ← section? "emit" ["embed_required"] document | none
  let embedRequired ← readOr false readBool embedRequired
  return { scan := { topLevelOnly }, listing := { perPage, excludeDirs }, emit := { embedRequired } }

/-- The settings in a TOML text. -/
def parse (s : Text) : Except Error Settings :=
  match (Toml.parse? s).bind ofDocument? with
  | none => .error .notToml
  | some settings =>
    if 1 ≤ settings.listing.perPage && settings.listing.perPage ≤ maxPerPage then .ok settings
    else .error (.pageSize settings.listing.perPage)

/-- The lines of a settings file to start from; it spells out the defaults. -/
def starterLines : List Text :=
  ["# repo-prime configuration",
   "",
   "[scan]",
   "# Only report declarations that start at column 0. When false, methods and",
   "# nested functions are reported alongside top-level ones.",
   "top_level_only = false",
   "",
   "[listing]",
   "# Page size for `repoprime list` (1-100).",
   "per_page = 100",
   "",
   "# Directory names skipped while walking. Hidden entries are always skipped.",
   "exclude_dirs = [\"node_modules\", \"vendor\", \"__pycache__\", \"dist\", \"build\"]",
   "",
   "[emit]",
   "# Copy each function's required parameters into `parameters.required`.",
   "embed_required = false"]

def starter : Text := starterLines.flatMap fun line => line ++ ['\n']

end Settings

/-- The settings in a file; the defaults where there is none. -/
def FileSystem.loadSettings (fs : FileSystem) (path : Text) : Except Error Settings := do
  if !fs.pathExists path then return {}
  let bytes ← liftFault (fs.read path)
  match Utf8.decode bytes with
  | .ok t => Settings.parse t
  | .error _ => throw (.file .notText)

end ToolCatalog
