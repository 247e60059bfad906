import ToolCatalog.Toml.Lexeme

/-!
# Reading TOML

A document is read line by line: blank lines and comments, headers that open a table, and keys with
values that go into the table opened last.
-/

namespace ToolCatalog.Toml

mutual

/-- The value at the start of a text, and what follows it. The first argument bounds the number of
steps, the second the nesting of arrays and tables. -/
def readValue : Nat → Nat → Text → Option (Toml × Text)
  | 0, _, _ => none
  | fuel + 1, depth, s =>
    match s with
    | '"' :: _ | '\'' :: _ => (readString s).map fun (t, r) => (.string t, r)
    | '[' :: r =>
      if depth = 0 then none
      else (readItems fuel (depth - 1) r).map fun (items, r) => (.array items, r)
    | '\x7b' :: r =>
      if depth = 0 then none
      else (readClosed fuel (depth - 1) r).map fun (t, r) => (.table .closed t.entries, r)
    | 't' :: r => (Text.after? "rue" r).map fun r => (.bool true, r)
    | 'f' :: r => (Text.after? "alse" r).map fun r => (.bool false, r)
    | s => readNumber s

/-- The items of an array up to its closing bracket. -/
def readItems : Nat → Nat → Text → Option (List Toml × Text)
  | 0, _, _ => none
  | fuel + 1, depth, s =>
    (skipLines? (s.length + 1) s).bind fun s =>
      match s with
      | ']' :: r => some ([], r)
      | s =>
        (readValue fuel depth s).bind fun (v, s) =>
          (skipLines? (s.length + 1) s).bind fun s =>
            match s with
            | ',' :: s => (readItems fuel depth s).map fun (vs, r) => (v :: vs, r)
            | ']' :: r => some ([v], r)
            | _ => none

/-- A table in braces, after the opening one. -/
def readClosed : Nat → Nat → Text → Option (Table × Text)
  | 0, _, _ => none
  | fuel + 1, depth, s =>
    match skipSpace s with
    | '\x7d' :: r => some (⟨.closed, []⟩, r)
    | s => readEntries fuel depth ⟨.closed, []⟩ s

/-- The entries of a table in braces, added to those found so far. -/
def readEntries : Nat → Nat → Table → Text → Option (Table × Text)
  | 0, _, _, _ => none
  | fuel + 1, depth, t, s =>
    (readKey s).bind fun (key, s) =>
      (expect? '=' s).bind fun s =>
        (readValue fuel depth (skipSpace s)).bind fun (v, s) =>
          (t.addDotted key.dropLast (key.getLastD []) v).bind fun t =>
            match skipSpace s with
            | ',' :: s => readEntries fuel depth t s
            | '\x7d' :: r => some (t, r)
            | _ => none

end

/-- What has been read of a document: its tables, and the path to the one opened last. -/
structure Progress where
  root : Table := ⟨.header, []⟩
  path : List Text := []
deriving Repr

namespace Progress

/-- Adds a key and its value to the table opened last. -/
def add (p : Progress) (key : List Text) (v : Toml) : Option Progress :=
  -- the header has made the tables on this path, so none is made again
  (p.root.alter .implied (fun t => t.addDotted key.dropLast (key.getLastD []) v) p.path).map
    fun root => { p with root }

/-- Opens the table that a header names. -/
def openAt (p : Progress) (opening : Text → Table → Option Table) (key : List Text) :
    Option Progress :=
  (p.root.alter .implied (opening (key.getLastD [])) key.dropLast).map
    fun root => { root, path := key }

end Progress

/-- A header, after its first bracket, and the rest of its line. -/
def readHeader (p : Progress) (s : Text) : Option (Progress × Text) :=
  match s with
  | '[' :: s => do
    let (key, s) ← readKey s
    let s ← Text.after? "]]" s
    let s ← restOfLine? s
    return (← p.openAt Table.openItem key, s)
  | s => do
    let (key, s) ← readKey s
    let s ← expect? ']' s
    let s ← restOfLine? s
    return (← p.openAt Table.openHeader key, s)

/-- A key and its value, and the rest of their line. -/
def readEntry (p : Progress) (s : Text) : Option (Progress × Text) := do
  let (key, s) ← readKey s
  let s ← expect? '=' s
  let (v, s) ← readValue (s.length + 1) maxNesting (skipSpace s)
  let s ← restOfLine? s
  return (← p.add key v, s)

def readLines : Nat → Progress → Text → Option Progress
  | 0, _, _ => none
  | fuel + 1, p, s =>
    match skipSpace s with
    | [] => some p
    | '#' :: r => (lineEnd? (skipComment ('#' :: r))).bind (readLines fuel p)
    | '\n' :: r => readLines fuel p r
    | '\r' :: r => (newline? ('\r' :: r)).bind (readLines fuel p)
    | '[' :: r => (readHeader p r).bind fun (p, r) => readLines fuel p r
    | r => (readEntry p r).bind fun (p, r) => readLines fuel p r

/-- The entries of a TOML document. A byte order mark in front of it is passed over. -/
def parse? (s : Text) : Option (Fields Toml) :=
  let s := (Text.after? ['\uFEFF'] s).getD s
  (readLines (s.length + 1) {} s).map fun p => p.root.entries

end ToolCatalog.Toml
