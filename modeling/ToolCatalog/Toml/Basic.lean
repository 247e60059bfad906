import ToolCatalog.Fields

/-!
# TOML values and tables

A TOML document is a tree of tables. How a table came to be decides whether it may be added to: a
table with a header of its own may not get a second one, a table that a dotted key made is only
added to by dotted keys, and a table written as a value is closed. Fractions and moments of time are
checked when they are read and not kept.
-/

namespace ToolCatalog

namespace Toml

/-- How a table came to be. -/
inductive Origin where
  /-- By a header that names it. -/
  | header
  /-- By a header that names a table below it. -/
  | implied
  /-- By a dotted key. -/
  | dotted
  /-- By a value in braces. -/
  | closed
deriving DecidableEq, Repr

end Toml

inductive Toml where
  | string (s : Text)
  | integer (n : Int)
  | float
  | bool (b : Bool)
  | moment
  | array (items : List Toml)
  | table (origin : Toml.Origin) (entries : List (Text × Toml))
  /-- The tables that headers in double brackets made, none of them closed. -/
  | tables (items : List Toml)
deriving Repr

namespace Toml

/-- A table under construction. -/
structure Table where
  origin : Origin
  entries : Fields Toml
deriving Repr

/-- Changes the table that a path leads to, making tables of a given origin where there are none. The
last of several tables under one name is meant. A dotted key does not pass through a table with a
header of its own, and nothing passes through a closed table or another value. -/
def Table.alter (making : Origin) (change : Table → Option Table) : List Text → Table → Option Table
  | [], t => change t
  | k :: path, t =>
    let inside (u : Table) : Option Table := alter making change path u
    match Fields.get? k t.entries with
    | none =>
      (inside ⟨making, []⟩).map fun u =>
        { t with entries := Fields.insert k (.table u.origin u.entries) t.entries }
    | some (.table origin entries) =>
      if origin = .closed || (making = .dotted && origin = .header) then none
      else (inside ⟨origin, entries⟩).map fun u =>
        { t with entries := Fields.insert k (.table u.origin u.entries) t.entries }
    | some (.tables items) =>
      -- the table that its header opened last
      match items.getLast? with
      | some (.table origin entries) =>
        (inside ⟨origin, entries⟩).map fun u =>
          { t with
            entries := Fields.insert k
              (.tables (items.dropLast ++ [.table u.origin u.entries])) t.entries }
      | _ => none
    | some _ => none

/-- Puts a value under a key that is not there yet. -/
def Table.add (k : Text) (v : Toml) (t : Table) : Option Table :=
  if Fields.contains k t.entries then none
  else some { t with entries := Fields.insert k v t.entries }

/-- Puts a value under a dotted key. The table that gets the value is one that dotted keys made,
exactly when the key has more than one part. -/
def Table.addDotted (path : List Text) (k : Text) (v : Toml) (t : Table) : Option Table :=
  t.alter .dotted
    (fun u => if (u.origin == .dotted) == path.isEmpty then none else u.add k v) path

/-- Opens the table under a key for a header of its own. -/
def Table.openHeader (k : Text) (t : Table) : Option Table :=
  match Fields.get? k t.entries with
  | none => some { t with entries := Fields.insert k (.table .header []) t.entries }
  | some (.table .implied entries) =>
    some { t with entries := Fields.insert k (.table .header entries) t.entries }
  | some _ => none

/-- Opens one more table under a key for a header in double brackets. -/
def Table.openItem (k : Text) (t : Table) : Option Table :=
  match Fields.get? k t.entries with
  | none => some { t with entries := Fields.insert k (.tables [.table .header []]) t.entries }
  | some (.tables items) =>
    some { t with entries := Fields.insert k (.tables (items ++ [.table .header []])) t.entries }
  | some _ => none

end Toml

end ToolCatalog
