import ToolCatalog.Text.Utf8

/-!
# Paths

A path is a text whose parts stand between slashes. A resolved path is the list of the names on the
way from the root of the file system. The normal form of a path over a resolved one is found without
a look at the file system: empty parts and single dots count for nothing, and a double dot takes the
last name away, if there is one.
-/

namespace ToolCatalog.Path

open Text

def parts (p : Text) : List Text := splitOn '/' p

/-- The most bytes of a path that is handed over. -/
def maxBytes : Nat := 4095

def isTooLong (p : Text) : Bool := maxBytes < (Utf8.encode p).length

/-- A part that names an entry of a directory. -/
def isName (part : Text) : Bool := part != [] && part != "." && part != ".."

def isAbsolute (p : Text) : Bool := p.head? == some '/'

def normalStep (names : List Text) (part : Text) : List Text :=
  if part == [] || part == "." then names
  else if part == ".." then names.dropLast
  else names ++ [part]

/-- The normal form of a path that begins at a resolved one, unless it is absolute. -/
def normalForm (base : List Text) (p : Text) : List Text :=
  (parts p).foldl normalStep (if isAbsolute p then [] else base)

/-- A resolved path as text. -/
def render (names : List Text) : Text :=
  if names.isEmpty then "/" else names.flatMap fun n => '/' :: n

/-- Names joined by slashes. -/
def relative (names : List Text) : Text := join "/" names

/-- The path of what names lead to below a path. -/
def below (p : Text) (names : List Text) : Text :=
  if names.isEmpty || p.getLast? == some '/' then p ++ relative names
  else p ++ '/' :: relative names

/-- The parts after a name ask for a directory there and then: they go back up, or they end, without
another name before that. -/
def asksDirectory (parts : List Text) : Bool :=
  match parts.find? fun part => part != [] && part != "." with
  | some part => part == ".."
  | none => !parts.isEmpty

/-- The parts that tell where a path leads: neither empty nor single dots, except a dot that the path
begins with. -/
def significantParts (p : Text) : List Text :=
  match parts p with
  | [] => []
  | first :: rest =>
    let kept := rest.filter fun part => part != [] && part != "."
    if first == [] then kept else first :: kept

/-- The text of a path above its last part that tells where it leads. -/
def parent (p : Text) : Text :=
  let trim := List.dropWhile fun part : Text => part == [] || part == "."
  match parts p with
  | [] => []
  | first :: rest =>
    match trim rest.reverse with
    | [] => []
    | _ :: above =>
      let kept := (trim above).reverse
      if first == [] && kept.isEmpty then "/" else join "/" (first :: kept)

/-- The paths above a path, from the nearest to the root or to where a relative path begins. -/
def ancestors (p : Text) : List Text :=
  let significant := significantParts p
  let start : Text := if isAbsolute p then "/" else []
  -- the path itself is not among them: at most all parts but the last are taken
  let above := (List.range significant.length).reverse.map fun k =>
    start ++ relative (significant.take k)
  above.filter fun q => !q.isEmpty

/-- The last name of a path; there is none where the path ends in dots or is the root. -/
def fileName? (p : Text) : Option Text :=
  match (significantParts p).getLast? with
  | some name => if name == "." || name == ".." then none else some name
  | none => none

/-- The text after the last dot of a name; a dot that the name begins with does not count. -/
def nameExtension? (name : Text) : Option Text :=
  let ext := (name.reverse.takeWhile (· != '.')).reverse
  let stem := (name.reverse.dropWhile (· != '.')).reverse.dropLast
  if ext.length == name.length || stem.isEmpty || name == ".." then none else some ext

def extension? (p : Text) : Option Text := (fileName? p).bind nameExtension?

end ToolCatalog.Path
