import ToolCatalog.Text.Blank

/-!
# Block comments

The documentation of a JavaScript or TypeScript declaration is the comment that ends just above its
header. It is found by going upwards from the header: blank lines and lines that begin with the
closing mark are passed over, lines that begin with a star belong to the comment, the line with the
opening mark begins it, and any other line means that there is none. The texts of its lines are
joined by single blanks.
-/

namespace ToolCatalog.Doc

open Text

/-- The text of a comment line after its mark, without a closing mark at its end. -/
def commentText (rest : Text) : Text :=
  let t := trim rest
  trim ((before? "*/" t).getD t)

/-- The texts with one more in front, unless that is empty. -/
def keepText (t : Text) (texts : List Text) : List Text := if t.isEmpty then texts else t :: texts

/-- Goes through lines from the lowest to the highest, with the texts found below them. -/
def commentUpwards (texts : List Text) : List Text → Text
  | [] => []
  | line :: above =>
    let t := trim line
    -- the closing mark begins with a star too, and so comes first
    if t.isEmpty || startsWith t "*/" then commentUpwards texts above
    else match after? "/**" t with
      | some rest => join " " (keepText (commentText rest) texts)
      | none =>
        match after? "*" t with
        | some rest => commentUpwards (keepText (commentText rest) texts) above
        | none => []

/-- The comment that ends just above the line at place `header`; empty where there is none. -/
def blockComment (lines : List Text) (header : Nat) : Text :=
  commentUpwards [] (lines.take header).reverse

end ToolCatalog.Doc
