import ToolCatalog.Text.Basic

/-!
# UTF-8

Bytes are read as UTF-8 from left to right. A byte below 0x80 is a character; any other character
is written with a first byte that fixes the number of bytes to follow and the range of the second,
and with bytes 0x80 to 0xBF from the third on. The ranges of the second byte leave out overlong
forms, surrogates and numbers above 0x10FFFF.

Reading stops at the first sequence that is no character. The fault tells where that sequence
begins, and whether the input merely ended inside it or how many of its bytes were still in order.
Where only part of the input matters, it can also be read with gaps: every byte that belongs to no
character is then a gap.
-/

namespace ToolCatalog.Utf8

/-- Why a byte string is no UTF-8 text. -/
inductive Fault where
  /-- The input ends inside the sequence that begins at `index`. -/
  | incomplete (index : Nat)
  /-- The sequence that begins at `index` goes wrong after its first `length` bytes. -/
  | invalid (index length : Nat)
deriving DecidableEq, Repr

def Fault.message : Fault → Text
  | .incomplete index => "incomplete utf-8 byte sequence from index " ++ Text.ofNat index
  | .invalid index length =>
    "invalid utf-8 sequence of " ++ Text.ofNat length ++ " bytes from index " ++ Text.ofNat index

/-- What a first byte of 0x80 or above announces: how many bytes follow, and the range of the second. -/
def opening? (b : UInt8) : Option (Nat × UInt8 × UInt8) :=
  if 0xC2 ≤ b && b ≤ 0xDF then some (1, 0x80, 0xBF)
  -- no character in more bytes than it needs
  else if b = 0xE0 then some (2, 0xA0, 0xBF)
  -- no surrogates
  else if b = 0xED then some (2, 0x80, 0x9F)
  else if 0xE1 ≤ b && b ≤ 0xEF then some (2, 0x80, 0xBF)
  else if b = 0xF0 then some (3, 0x90, 0xBF)
  else if 0xF1 ≤ b && b ≤ 0xF3 then some (3, 0x80, 0xBF)
  -- nothing above U+10FFFF
  else if b = 0xF4 then some (3, 0x80, 0x8F)
  else none

/-- A byte that may stand third or fourth. -/
def continues (b : UInt8) : Bool := 0x80 ≤ b && b ≤ 0xBF

/-- The six low bits of a byte after the first. -/
def payload (b : UInt8) : Nat := b.toNat % 0x40

/-- Reads bytes whose first stands at place `index` of the whole input. -/
def decodeFrom (index : Nat) : List UInt8 → Except Fault Text
  | [] => .ok []
  | b :: s =>
    if b < 0x80 then (decodeFrom (index + 1) s).map (Char.ofNat b.toNat :: ·)
    else match opening? b with
    | none => .error (.invalid index 1)
    | some (more, low, high) =>
      match s with
      | [] => .error (.incomplete index)
      | b1 :: s =>
        if !(low ≤ b1 && b1 ≤ high) then .error (.invalid index 1)
        else if more = 1 then
          (decodeFrom (index + 2) s).map (Char.ofNat (b.toNat % 0x20 * 0x40 + payload b1) :: ·)
        else match s with
        | [] => .error (.incomplete index)
        | b2 :: s =>
          if !continues b2 then .error (.invalid index 2)
          else if more = 2 then
            (decodeFrom (index + 3) s).map
              (Char.ofNat ((b.toNat % 0x10 * 0x40 + payload b1) * 0x40 + payload b2) :: ·)
          else match s with
          | [] => .error (.incomplete index)
          | b3 :: s =>
            if !continues b3 then .error (.invalid index 3)
            else
              (decodeFrom (index + 4) s).map
                (Char.ofNat
                  (((b.toNat % 0x08 * 0x40 + payload b1) * 0x40 + payload b2) * 0x40 + payload b3)
                  :: ·)

def decode (bytes : List UInt8) : Except Fault Text := decodeFrom 0 bytes

/-- The character at the start of a byte string, and the number of its bytes. -/
def charAt? (bytes : List UInt8) : Option (Char × Nat) :=
  [1, 2, 3, 4].findSome? fun n =>
    match decode (bytes.take n) with
    | .ok [c] => some (c, n)
    | _ => none

/-- Reads a byte string with gaps, after some bytes that have been read already. -/
def decodeGapsAfter : Nat → List UInt8 → List (Option Char)
  | _, [] => []
  | read + 1, _ :: s => decodeGapsAfter read s
  | 0, b :: s =>
    match charAt? (b :: s) with
    | some (c, n) => some c :: decodeGapsAfter (n - 1) s
    | none => none :: decodeGapsAfter 0 s

/-- Reads a byte string as UTF-8 with gaps: a byte that belongs to no character is `none`. -/
def decodeGaps (bytes : List UInt8) : List (Option Char) := decodeGapsAfter 0 bytes

def encode (s : Text) : List UInt8 := s.flatMap String.utf8EncodeChar

end ToolCatalog.Utf8
