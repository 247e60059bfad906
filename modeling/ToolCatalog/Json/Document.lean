import ToolCatalog.Json.Basic

/-!
# JSON documents

Reading a JSON text goes in two steps. The first takes the text apart into a document: numerals as
they are spelled, strings with their escapes, and objects with repeated names. The second gives a
document its value, and there a numeral may be too large, an escaped surrogate may stand alone, a
repeated name keeps its first place and takes its last value, and nesting is limited. A reader that
passes over a part of a document never asks for the value of that part.

A text that comes as bytes may have gaps, where a byte belongs to no character. A gap may stand in a
string, as long as nobody asks for the value of that string, and nowhere else.
-/

namespace ToolCatalog.Json

open Decimal (Binary64)

/-- A piece of a string: a character, a 16-bit unit given by its number, or a gap. -/
inductive Piece where
  | char (c : Char)
  | unit (n : Nat)
  | gap
deriving DecidableEq, Repr

/-- A number as it is spelled. -/
structure Numeral where
  negative : Bool
  /-- The digits before the point. -/
  whole : Text
  /-- The digits after the point, if there is one. -/
  fraction : Option Text
  /-- Whether the exponent is negative, and its digits, if there is one. -/
  exponent : Option (Bool × Text)
deriving DecidableEq, Repr

/-- A JSON text taken apart. -/
inductive Document where
  | null
  | bool (b : Bool)
  | number (n : Numeral)
  | string (s : List Piece)
  | array (items : List Document)
  | object (members : List (List Piece × Document))
deriving Repr

/-- A text to be taken apart: its characters, with gaps. -/
abbrev Source := List (Option Char)

/-- A text without gaps as a source. -/
def Source.ofText (s : Text) : Source := s.map some

/-! ## Taking a text apart -/

/-- The four characters that may stand between the parts of a JSON text. -/
def isSpace (c : Char) : Bool := c == ' ' || c == '\t' || c == '\n' || c == '\r'

def skipSpace : Source → Source
  | some c :: s => if isSpace c then skipSpace s else some c :: s
  | s => s

/-- What follows a word at the start of a source. -/
def afterWord? : Text → Source → Option Source
  | [], s => some s
  | c :: word, some d :: s => if c = d then afterWord? word s else none
  | _ :: _, _ => none

def isDigit (c : Char) : Bool := '0' ≤ c && c ≤ '9'

def digitsValue (s : Text) : Nat := s.foldl (fun n c => 10 * n + (c.toNat - 48)) 0

/-- The value of a hexadecimal digit of either case. -/
def hexValue? (c : Char) : Option Nat :=
  if '0' ≤ c && c ≤ '9' then some (c.toNat - 48)
  else if 'a' ≤ c && c ≤ 'f' then some (c.toNat - 87)
  else if 'A' ≤ c && c ≤ 'F' then some (c.toNat - 55)
  else none

/-- The 16-bit unit that four hexadecimal digits spell. -/
def hexUnit? (a b c d : Char) : Option Nat := do
  let a ← hexValue? a
  let b ← hexValue? b
  let c ← hexValue? c
  let d ← hexValue? d
  return ((a * 16 + b) * 16 + c) * 16 + d

/-- The character that a letter after a backslash stands for. -/
def escaped? (c : Char) : Option Char :=
  if c = '"' || c = '\\' || c = '/' then some c
  else if c = 'b' then some '\x08'
  else if c = 'f' then some '\x0c'
  else if c = 'n' then some '\n'
  else if c = 'r' then some '\r'
  else if c = 't' then some '\t'
  else none

/-- The pieces of a string up to its closing quote, and the source after that. -/
def readString : Source → Option (List Piece × Source)
  | [] => none
  | none :: s => (readString s).map fun (ps, r) => (.gap :: ps, r)
  | some '"' :: s => some ([], s)
  | some '\\' :: some 'u' :: some a :: some b :: some c :: some d :: s =>
    (hexUnit? a b c d).bind fun n => (readString s).map fun (ps, r) => (.unit n :: ps, r)
  | some '\\' :: some c :: s =>
    (escaped? c).bind fun e => (readString s).map fun (ps, r) => (.char e :: ps, r)
  | some c :: s =>
    -- a backslash that comes here has a gap or nothing after it
    if c = '\\' || c.toNat < 0x20 then none
    else (readString s).map fun (ps, r) => (.char c :: ps, r)

/-- The digits at the start of a source, and the source after them. -/
def takeDigits : Source → Text × Source
  | some c :: s =>
    if isDigit c then match takeDigits s with | (ds, r) => (c :: ds, r)
    else ([], some c :: s)
  | s => ([], s)

/-- The digits at the start of a source, at least one, and the source after them. -/
def readDigits (s : Source) : Option (Text × Source) :=
  let (ds, r) := takeDigits s
  if ds.isEmpty then none else some (ds, r)

/-- The digits before the point: a lone zero, or digits that begin with another. -/
def readWhole : Source → Option (Text × Source)
  | some '0' :: s => some (['0'], s)
  | s => readDigits s

/-- The digits after a point, where there is one. -/
def readFraction : Source → Option (Option Text × Source)
  | some '.' :: s => (readDigits s).map fun (ds, r) => (some ds, r)
  | s => some (none, s)

/-- The sign and the digits of an exponent after its letter. -/
def readSigned : Source → Option (Option (Bool × Text) × Source)
  | some '+' :: s => (readDigits s).map fun (ds, r) => (some (false, ds), r)
  | some '-' :: s => (readDigits s).map fun (ds, r) => (some (true, ds), r)
  | s => (readDigits s).map fun (ds, r) => (some (false, ds), r)

/-- The sign and the digits of an exponent, where there is one. -/
def readExponent : Source → Option (Option (Bool × Text) × Source)
  | some 'e' :: s | some 'E' :: s => readSigned s
  | s => some (none, s)

/-- A numeral after its sign. -/
def readUnsigned (negative : Bool) (s : Source) : Option (Numeral × Source) := do
  let (whole, s) ← readWhole s
  let (fraction, s) ← readFraction s
  let (exponent, s) ← readExponent s
  return (⟨negative, whole, fraction, exponent⟩, s)

def readNumeral : Source → Option (Numeral × Source)
  | some '-' :: s => readUnsigned true s
  | s => readUnsigned false s

mutual

/-- The document at the start of a source, and the source after it. The first argument bounds the
number of steps; the length of the source is enough. -/
def readValue : Nat → Source → Option (Document × Source)
  | 0, _ => none
  | fuel + 1, s =>
    match skipSpace s with
    | some 'n' :: s => (afterWord? "ull" s).map fun r => (.null, r)
    | some 't' :: s => (afterWord? "rue" s).map fun r => (.bool true, r)
    | some 'f' :: s => (afterWord? "alse" s).map fun r => (.bool false, r)
    | some '"' :: s => (readString s).map fun (ps, r) => (.string ps, r)
    | some '[' :: s =>
      match skipSpace s with
      | some ']' :: r => some (.array [], r)
      | s => (readItems fuel s).map fun (items, r) => (.array items, r)
    | some '\x7b' :: s =>
      match skipSpace s with
      | some '\x7d' :: r => some (.object [], r)
      | s => (readMembers fuel s).map fun (members, r) => (.object members, r)
    | s => (readNumeral s).map fun (n, r) => (.number n, r)

/-- The items of an array up to its closing bracket. -/
def readItems : Nat → Source → Option (List Document × Source)
  | 0, _ => none
  | fuel + 1, s =>
    (readValue fuel s).bind fun (v, s) =>
      match skipSpace s with
      | some ',' :: s => (readItems fuel s).map fun (vs, r) => (v :: vs, r)
      | some ']' :: r => some ([v], r)
      | _ => none

/-- The members of an object up to its closing brace. -/
def readMembers : Nat → Source → Option (List (List Piece × Document) × Source)
  | 0, _ => none
  | fuel + 1, s =>
    match skipSpace s with
    | some '"' :: s =>
      (readString s).bind fun (k, s) =>
        match skipSpace s with
        | some ':' :: s =>
          (readValue fuel s).bind fun (v, s) =>
            match skipSpace s with
            | some ',' :: s => (readMembers fuel s).map fun (ms, r) => ((k, v) :: ms, r)
            | some '\x7d' :: r => some ([(k, v)], r)
            | _ => none
        | _ => none
    | _ => none

end

/-- The document that makes up a whole source, apart from spaces around it. -/
def Document.read? (s : Source) : Option Document :=
  (readValue (s.length + 1) s).bind fun (v, r) => if (skipSpace r).isEmpty then some v else none

/-! ## The value of a document -/

/-- The text that pieces spell: two units of a surrogate pair make one character, no surrogate stands
alone, and there is no gap. -/
def piecesText? : List Piece → Option Text
  | [] => some []
  | .gap :: _ => none
  | .char c :: ps => (piecesText? ps).map (c :: ·)
  | .unit n :: ps =>
    if 0xD800 ≤ n && n ≤ 0xDBFF then
      match ps with
      | .unit m :: ps =>
        if 0xDC00 ≤ m && m ≤ 0xDFFF then
          (piecesText? ps).map
            (Char.ofNat (0x10000 + (n - 0xD800) * 0x400 + (m - 0xDC00)) :: ·)
        else none
      | _ => none
    else if 0xDC00 ≤ n && n ≤ 0xDFFF then none
    else (piecesText? ps).map (Char.ofNat n :: ·)

/-- The greatest whole number of 64 bits. -/
def maxWhole : Nat := Nat.pow 2 64 - 1

/-- Adds digits to a number as long as it fits in 64 bits; gives the number and the digits left over. -/
def absorb (n : Nat) : Text → Nat × Text
  | [] => (n, [])
  | c :: s =>
    let m := 10 * n + (c.toNat - 48)
    if m ≤ maxWhole then absorb m s else (n, c :: s)

/-- The value of a numeral. A numeral without point and exponent is a whole number when that fits in
64 bits; minus zero is not. Any other is the digits that fit in 64 bits, scaled by a power of ten:
left-over digits before the point count as places only, and those after it do not count. -/
def Numeral.value? (n : Numeral) : Option Number :=
  let (m, excess) := absorb 0 n.whole
  let plain := n.fraction.isNone && n.exponent.isNone && excess.isEmpty
  if plain && !n.negative then some (.whole m)
  -- a whole number has no minus zero
  else if plain && 0 < m && m ≤ Nat.pow 2 63 then some (.whole (-m))
  else
    let fraction := n.fraction.getD []
    let (m, rest) := absorb m fraction
    let shift : Int := match n.exponent with
      | none => 0
      | some (negative, ds) => if negative then -(digitsValue ds : Int) else digitsValue ds
    let places : Int := (excess.length : Int) - ((fraction.length : Int) - (rest.length : Int))
    (Binary64.ofScientific m (places + shift)).map (.float n.negative)

mutual

/-- The value of a document whose arrays and objects nest at most `depth` deep. -/
def Document.value? (depth : Nat) : Document → Option Json
  | .null => some .null
  | .bool b => some (.bool b)
  | .number n => n.value?.map .number
  | .string ps => (piecesText? ps).map .string
  | .array items => if depth = 0 then none else (itemValues? (depth - 1) items).map .array
  | .object members =>
    if depth = 0 then none
    else (memberValues? (depth - 1) members).map fun fs => .object (Fields.ofList fs)

def itemValues? (depth : Nat) : List Document → Option (List Json)
  | [] => some []
  | v :: vs => (v.value? depth).bind fun v => (itemValues? depth vs).map (v :: ·)

def memberValues? (depth : Nat) : List (List Piece × Document) → Option (List (Text × Json))
  | [] => some []
  | (k, v) :: ms =>
    (piecesText? k).bind fun k => (v.value? depth).bind fun v =>
      (memberValues? depth ms).map ((k, v) :: ·)

end

/-- The deepest nesting that is read. -/
def maxDepth : Nat := 127

def parse? (s : Text) : Option Json :=
  (Document.read? (.ofText s)).bind (Document.value? maxDepth)

end ToolCatalog.Json
