import ToolCatalog.Json.Basic

/-!
# The printed form of JSON values

A value is printed with two blanks of indentation a level, one item or field a line, a blank after
the colon, and empty arrays and objects as `[]` and two bare braces. In strings the quote, the
backslash and the characters below U+0020 are escaped, and everything else stands for itself.
-/

namespace ToolCatalog.Json

open Decimal (Binary64)

/-- The lower-case hexadecimal digit of a number below sixteen. -/
def hexDigit (n : Nat) : Char := "0123456789abcdef".toList.getD n '0'

/-- A character as it stands in a printed string. -/
def escapeChar (c : Char) : Text :=
  if c = '"' then ['\\', '"']
  else if c = '\\' then ['\\', '\\']
  else if c = '\x08' then ['\\', 'b']
  else if c = '\x0c' then ['\\', 'f']
  else if c = '\n' then ['\\', 'n']
  else if c = '\r' then ['\\', 'r']
  else if c = '\t' then ['\\', 't']
  else if c.toNat < 0x20 then ['\\', 'u', '0', '0', hexDigit (c.toNat / 16), hexDigit (c.toNat % 16)]
  else [c]

def quote (s : Text) : Text := '"' :: s.flatMap escapeChar ++ ['"']

/-- The least and the greatest decimal exponent of the leading digit that is written without an
exponent. -/
def plainExponents : Int × Int := (-5, 15)

/-- A positive decimal: plain with at least one place for the exponents of `plainExponents`, and
otherwise with one digit before the point, a mark `e` and a signed exponent. -/
def layout (d : Decimal.Scientific) : Text :=
  let digits := Text.ofNat d.digits
  let lead := d.exponent + digits.length - 1
  if plainExponents.1 ≤ lead && lead ≤ plainExponents.2 then
    -- the point stands after, within or before the digits
    if 0 ≤ d.exponent then digits ++ List.replicate d.exponent.toNat '0' ++ ".0"
    else if 0 ≤ lead then
      digits.take (lead.toNat + 1) ++ '.' :: digits.drop (lead.toNat + 1)
    else "0." ++ List.replicate (-lead - 1).toNat '0' ++ digits
  else
    let places := if digits.length = 1 then [] else '.' :: digits.drop 1
    let sign := if lead < 0 then '-' else '+'
    digits.take 1 ++ places ++ 'e' :: sign :: Text.ofNat lead.natAbs

def Number.print : Number → Text
  | .whole n => if n < 0 then '-' :: Text.ofNat n.natAbs else Text.ofNat n.natAbs
  | .float negative x =>
    (if negative then ['-'] else []) ++ (if x.mantissa = 0 then ("0.0" : Text) else layout x.shortest)

/-- A line end and the indentation of a level. -/
def lineAt (level : Nat) : Text := '\n' :: List.replicate (2 * level) ' '

mutual

/-- A value at a level of indentation; the caller has already indented its first line. -/
def printAt (level : Nat) : Json → Text
  | .null => "null"
  | .bool b => if b then "true" else "false"
  | .number n => n.print
  | .string s => quote s
  | .array [] => "[]"
  | .array (v :: vs) =>
    '[' :: lineAt (level + 1) ++ printAt (level + 1) v ++ printItems (level + 1) vs
      ++ lineAt level ++ [']']
  | .object [] => ['\x7b', '\x7d']
  | .object ((k, v) :: fs) =>
    '\x7b' :: lineAt (level + 1) ++ quote k ++ ": " ++ printAt (level + 1) v
      ++ printFields (level + 1) fs ++ lineAt level ++ ['\x7d']

/-- The items of an array after the first. -/
def printItems (level : Nat) : List Json → Text
  | [] => []
  | v :: vs => ',' :: lineAt level ++ printAt level v ++ printItems level vs

/-- The fields of an object after the first. -/
def printFields (level : Nat) : List (Text × Json) → Text
  | [] => []
  | (k, v) :: fs =>
    ',' :: lineAt level ++ quote k ++ ": " ++ printAt level v ++ printFields level fs

end

/-- The printed form of a value, with a line end. -/
def render (v : Json) : Text := printAt 0 v ++ ['\n']

end ToolCatalog.Json
