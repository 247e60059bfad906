import ToolCatalog.Text.Blank

/-!
# Documentation strings

A documentation string opens on the line after a header with a triple quote and runs to the next
occurrence of that quote, or to the end of the source. On one line it is the trimmed text between
the quotes. Over several lines the indentation that all later lines share is removed from them, and
blanks at line ends and at both ends of the whole are dropped.
-/

namespace ToolCatalog.Doc

open Text

def tripleQuotes : List Text := ["\"\"\"", "'''"]

/-- The triple quote that a text begins with, and what follows it. -/
def opening? (s : Text) : Option (Text × Text) :=
  tripleQuotes.findSome? fun quote => (after? quote s).map fun rest => (quote, rest)

/-- The lines up to the one that holds the closing quote, which is cut before it. -/
def bodyLines (quote : Text) : List Text → List Text
  | [] => []
  | line :: rest =>
    match upTo? quote line with
    | some part => [part]
    | none => line :: bodyLines quote rest

/-- The number of blanks a line begins with. -/
def indentation (line : Text) : Nat := (line.takeWhile isBlank).length

/-- The indentation that all lines share which are not blank. -/
def sharedIndentation (lines : List Text) : Nat :=
  ((lines.filter fun l => !allBlank l).map indentation).min?.getD 0

/-- The lines without their shared indentation and without trailing blanks; blank lines are empty. -/
def dedent (lines : List Text) : List Text :=
  let n := sharedIndentation lines
  lines.map fun l => if allBlank l then [] else trimEnd (l.drop n)

/-- The documentation string that opens on the line at place `start`; empty where none does. -/
def docstring (lines : List Text) (start : Nat) : Text :=
  match lines.drop start with
  | [] => []
  | line :: rest =>
    match opening? (trim line) with
    | none => []
    | some (quote, first) =>
      match upTo? quote first with
      | some text => trim text
      -- the first line begins after the quote, so its indentation says nothing about the others
      | none => trim (join "\n" (trimEnd first :: dedent (bodyLines quote rest)))

end ToolCatalog.Doc
