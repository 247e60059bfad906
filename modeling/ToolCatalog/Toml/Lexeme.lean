import ToolCatalog.Json.Document
import ToolCatalog.Toml.Basic

/-!
# TOML lexemes

The smallest parts of a TOML text: blanks, comments and line ends, keys, strings in their four
spellings, numbers, and moments of time. Each reader takes its part from the start of a text and
gives what follows it.
-/

namespace ToolCatalog.Toml

open Json (hexValue? digitsValue)

/-! ## Blanks, comments, line ends -/

/-- A blank inside a line. -/
def isSpace (c : Char) : Bool := c == ' ' || c == '\t'

def skipSpace (s : Text) : Text := s.dropWhile isSpace

/-- What follows a line end. -/
def newline? : Text → Option Text
  | '\n' :: s => some s
  | '\r' :: '\n' :: s => some s
  | _ => none

/-- A character that may stand in a comment, and for itself in any string: a tab or no control
character. -/
def isPlainChar (c : Char) : Bool := c == '\t' || (0x20 ≤ c.toNat && c.toNat != 0x7F)

def skipComment : Text → Text
  | '#' :: s => s.dropWhile isPlainChar
  | s => s

/-- What follows a line end or the end of the text. -/
def lineEnd? : Text → Option Text
  | [] => some []
  | s => newline? s

/-- What follows blanks, a comment and a line end. -/
def restOfLine? (s : Text) : Option Text := lineEnd? (skipComment (skipSpace s))

/-- What follows blanks, comments and line ends; `none` where a comment has no line end. -/
def skipLines? : Nat → Text → Option Text
  | 0, _ => none
  | fuel + 1, s =>
    match skipSpace s with
    | '#' :: r => (newline? (skipComment ('#' :: r))).bind (skipLines? fuel)
    | '\n' :: r => skipLines? fuel r
    | '\r' :: r => (newline? ('\r' :: r)).bind (skipLines? fuel)
    | r => some r

/-! ## Strings -/

/-- The character whose number hexadecimal digits spell. -/
def scalar? (digits : Text) : Option Char :=
  (digits.mapM hexValue?).bind fun ds =>
    let n := ds.foldl (fun n d => 16 * n + d) 0
    if n < 0xD800 || (0xE000 ≤ n && n ≤ 0x10FFFF) then some (Char.ofNat n) else none

/-- The character that a letter after a backslash stands for. -/
def escaped? (c : Char) : Option Char :=
  if c = '"' || c = '\\' then some c
  else if c = 'b' then some '\x08'
  else if c = 't' then some '\t'
  else if c = 'n' then some '\n'
  else if c = 'f' then some '\x0c'
  else if c = 'r' then some '\r'
  else none

/-- The character that an escape after its backslash stands for, and what follows the escape. -/
def readEscape : Text → Option (Char × Text)
  | 'u' :: s =>
    if s.length < 4 then none else (scalar? (s.take 4)).map fun c => (c, s.drop 4)
  | 'U' :: s =>
    if s.length < 8 then none else (scalar? (s.take 8)).map fun c => (c, s.drop 8)
  | c :: s => (escaped? c).map fun e => (e, s)
  | [] => none

/-- A string in double quotes, after the opening one. -/
def readBasic : Nat → Text → Option (Text × Text)
  | 0, _ => none
  | fuel + 1, s =>
    match s with
    | [] => none
    | '"' :: r => some ([], r)
    | '\\' :: r =>
      (readEscape r).bind fun (c, r) => (readBasic fuel r).map fun (t, r) => (c :: t, r)
    | c :: r => if isPlainChar c then (readBasic fuel r).map fun (t, r) => (c :: t, r) else none

/-- A string in single quotes, after the opening one. -/
def readLiteral : Text → Option (Text × Text)
  | [] => none
  | '\'' :: r => some ([], r)
  | c :: r => if isPlainChar c then (readLiteral r).map fun (t, r) => (c :: t, r) else none

/-- What follows a backslash at the end of a line: the next text that is no blank and no line end. -/
def continuation? (s : Text) : Option Text :=
  (newline? (skipSpace s)).map skipAll
where
  skipAll : Text → Text
    | '\r' :: '\n' :: s => skipAll s
    | c :: s => if isSpace c || c == '\n' then skipAll s else c :: s
    | [] => []

/-- A run of quotes inside a string of several lines: fewer than three belong to the string; from
three on the last three of at most five close it. -/
def quoteRun (n : Nat) : Nat × Bool := if n < 3 then (n, false) else (min n 5 - 3, true)

/-- A string of several lines in the given quotes, after the opening ones. -/
def readLong (quote : Char) : Nat → Text → Option (Text × Text)
  | 0, _ => none
  | fuel + 1, s =>
    match s with
    | [] => none
    | c :: r =>
      if c = quote then
        let (kept, closes) := quoteRun (s.takeWhile (· == quote)).length
        if closes then some (List.replicate kept quote, s.drop (kept + 3))
        else (readLong quote fuel (s.drop kept)).map fun (t, r) => (List.replicate kept quote ++ t, r)
      -- single quotes know no escapes
      else if c = '\\' && quote = '"' then
        match continuation? r with
        -- the line end and all blanks after it are left out
        | some r => readLong quote fuel r
        | none =>
          (readEscape r).bind fun (e, r) => (readLong quote fuel r).map fun (t, r) => (e :: t, r)
      else match newline? s with
        | some r => (readLong quote fuel r).map fun (t, r) => ('\n' :: t, r)
        | none =>
          if isPlainChar c then (readLong quote fuel r).map fun (t, r) => (c :: t, r) else none

/-- A text without the line end it begins with. -/
def dropNewline (s : Text) : Text := (newline? s).getD s

/-- A string in one of its four spellings. -/
def readString (s : Text) : Option (Text × Text) :=
  match Text.after? "\"\"\"" s, Text.after? "'''" s with
  | some r, _ => readLong '"' (s.length + 1) (dropNewline r)
  | none, some r => readLong '\'' (s.length + 1) (dropNewline r)
  | none, none =>
    match s with
    | '"' :: r => readBasic (s.length + 1) r
    | '\'' :: r => readLiteral r
    | _ => none

/-! ## Keys -/

/-- A character of a key without quotes. -/
def isBareChar (c : Char) : Bool := c.isAlphanum || c == '_' || c == '-'

/-- One part of a key: a string of one line, or bare characters. -/
def readKeyPart (s : Text) : Option (Text × Text) :=
  match s with
  | '"' :: r => readBasic (s.length + 1) r
  | '\'' :: r => readLiteral r
  | s =>
    if (s.takeWhile isBareChar).isEmpty then none
    else some (s.takeWhile isBareChar, s.dropWhile isBareChar)

/-- The parts of a key between dots, with blanks around each. -/
def readKeyParts : Nat → Text → Option (List Text × Text)
  | 0, _ => none
  | fuel + 1, s =>
    (readKeyPart (skipSpace s)).bind fun (k, s) =>
      match skipSpace s with
      | '.' :: s => (readKeyParts fuel s).map fun (ks, r) => (k :: ks, r)
      | r => some ([k], r)

/-- The greatest number of parts of a key, and of arrays and tables inside each other. -/
def maxNesting : Nat := 79

def readKey (s : Text) : Option (List Text × Text) :=
  (readKeyParts (s.length + 1) s).bind fun (ks, r) =>
    if ks.length ≤ maxNesting then some (ks, r) else none

/-! ## Numbers -/

/-- Digits of a kind with single low lines between them, at least one digit; gives the digits alone. -/
def readDigits (isDigit : Char → Bool) : Text → Option (Text × Text)
  | c :: s => if isDigit c then some (go [c] s) else none
  | [] => none
where
  go (found : Text) : Text → Text × Text
    | '_' :: c :: s => if isDigit c then go (c :: found) s else (found.reverse, '_' :: c :: s)
    | c :: s => if isDigit c then go (c :: found) s else (found.reverse, c :: s)
    | [] => (found.reverse, [])

/-- A sign: whether it is a minus, and what follows it. -/
def readSign : Text → Bool × Text
  | '+' :: s => (false, s)
  | '-' :: s => (true, s)
  | s => (false, s)

/-- The digits of a decimal number: a lone zero, or digits that begin with another. -/
def readWhole : Text → Option (Text × Text)
  | '0' :: s => some (['0'], s)
  | s => readDigits Json.isDigit s

/-- A number that fits in 64 bits with a sign. -/
def integer? (negative : Bool) (n : Nat) : Option Toml :=
  if negative then if n ≤ Nat.pow 2 63 then some (.integer (-n)) else none
  else if n < Nat.pow 2 63 then some (.integer n) else none

/-- A whole number in a base with a mark of its own. -/
def readBased (isDigit : Char → Bool) (base : Nat) (s : Text) : Option (Toml × Text) :=
  (readDigits isDigit s).bind fun (ds, r) =>
    (ds.mapM hexValue?).bind fun ds =>
      (integer? false (ds.foldl (fun n d => base * n + d) 0)).map fun v => (v, r)

def readInteger : Text → Option (Toml × Text)
  | '0' :: 'x' :: s => readBased (fun c => (hexValue? c).isSome) 16 s
  | '0' :: 'o' :: s => readBased (fun c => '0' ≤ c && c ≤ '7') 8 s
  | '0' :: 'b' :: s => readBased (fun c => c == '0' || c == '1') 2 s
  | s =>
    let (negative, s) := readSign s
    (readWhole s).bind fun (ds, r) => (integer? negative (digitsValue ds)).map fun v => (v, r)

/-- An exponent: whether it is negative, and its digits. -/
def readExponent : Text → Option ((Bool × Text) × Text)
  | c :: s =>
    if c = 'e' || c = 'E' then
      let (negative, s) := readSign s
      (readDigits Json.isDigit s).map fun (ds, r) => ((negative, ds), r)
    else none
  | [] => none

/-- A fraction must not be so large that it counts as infinite; a negative one may. -/
def finite (negative : Bool) (digits places : Text) (exponent : Bool × Text) : Bool :=
  let shift : Int := if exponent.1 then -(digitsValue exponent.2 : Int) else digitsValue exponent.2
  let n := digitsValue (digits ++ places)
  let e : Int := shift - places.length
  let size : Int := (Nat.toDigits 10 n).length
  -- only numbers of 309 digits have to be compared exactly
  negative || n = 0 || size + e ≤ 308
    || (size + e = 309
      && (Decimal.Binary64.ofQuotient (n * Nat.pow 10 e.toNat) (Nat.pow 10 (-e).toNat)).isSome)

/-- A number with a point, an exponent or both. -/
def readFraction (s : Text) : Option (Toml × Text) :=
  let (negative, s) := readSign s
  (readWhole s).bind fun (whole, s) =>
    match s with
    | '.' :: s =>
      (readDigits Json.isDigit s).bind fun (places, s) =>
        match s with
        | 'e' :: _ | 'E' :: _ =>
          (readExponent s).bind fun (e, r) =>
            if finite negative whole places e then some (.float, r) else none
        | r => if finite negative whole places (false, []) then some (.float, r) else none
    | s =>
      (readExponent s).bind fun (e, r) =>
        if finite negative whole [] e then some (.float, r) else none

/-- An infinity or the value that is no number. -/
def readSpecial (s : Text) : Option (Toml × Text) :=
  let r := (readSign s).2
  match Text.after? "inf" r, Text.after? "nan" r with
  | some r, _ | none, some r => some (.float, r)
  | none, none => none

/-! ## Moments of time -/

/-- A number of exactly so many digits within bounds. -/
def readFixed (digits low high : Nat) (s : Text) : Option (Nat × Text) :=
  let ds := s.take digits
  let n := digitsValue ds
  if ds.length = digits && ds.all Json.isDigit && low ≤ n && n ≤ high then some (n, s.drop digits)
  else none

/-- What follows a character. -/
def expect? (c : Char) : Text → Option Text
  | d :: s => if c = d then some s else none
  | [] => none

def daysIn (year month : Nat) : Nat :=
  if month = 2 then
    if year % 4 = 0 && (year % 100 != 0 || year % 400 = 0) then 29 else 28
  else if month = 4 || month = 6 || month = 9 || month = 11 then 30
  else 31

/-- What follows a date. -/
def date? (s : Text) : Option Text := do
  let (year, s) ← readFixed 4 0 9999 s
  let s ← expect? '-' s
  let (month, s) ← readFixed 2 1 12 s
  let s ← expect? '-' s
  let (_, s) ← readFixed 2 1 (daysIn year month) s
  return s

/-- What follows a time of day: hours, minutes, seconds up to a leap second, and a fraction. -/
def time? (s : Text) : Option Text := do
  let (_, s) ← readFixed 2 0 23 s
  let s ← expect? ':' s
  let (_, s) ← readFixed 2 0 59 s
  let s ← expect? ':' s
  let (_, s) ← readFixed 2 0 60 s
  match s with
  | '.' :: c :: r => if Json.isDigit c then return r.dropWhile Json.isDigit else return s
  | s => return s

/-- What follows the distance from universal time, where there is one. -/
def offset? (s : Text) : Option Text :=
  match s with
  | 'Z' :: s | 'z' :: s => some s
  | '+' :: s | '-' :: s => do
    let (_, s) ← readFixed 2 0 23 s
    let s ← expect? ':' s
    let (_, s) ← readFixed 2 0 59 s
    return s
  | s => some s

/-- A date, a time of day, or both. -/
def readMoment (s : Text) : Option (Toml × Text) :=
  match date? s with
  | some r =>
    match r with
    | 'T' :: t | 't' :: t => ((time? t).bind offset?).map fun r => (.moment, r)
    -- the blank belongs to the moment only where a time of day follows
    | ' ' :: t =>
      match (time? t).bind offset? with
      | some r => some (.moment, r)
      | none => some (.moment, ' ' :: t)
    | r => some (.moment, r)
  | none => (time? s).map fun r => (.moment, r)

/-- A value that begins with a sign or a digit. -/
def readNumber (s : Text) : Option (Toml × Text) :=
  -- a date begins like a number, and a fraction like a whole number
  readMoment s <|> readFraction s <|> readSpecial s <|> readInteger s

end ToolCatalog.Toml
