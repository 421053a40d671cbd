import Retrace.Text.Blank
import Retrace.Text.ByteCount
import Retrace.Text.Quoted
import Retrace.Word
/-!
# Retrace — hexadecimal input

Code and call data are given as byte strings in hexadecimal, a call value as a
quantity of at most 32 bytes. Blanks around the text are ignored and one marker
`0x` or `0X` is optional. A byte string needs an even number of digits; a
quantity may have an odd one, may be empty, and may repeat the marker `0x`
once. What is wrong with a text is a `Flaw`: positions count bytes of the
digits, and a character that is no digit is reported by its first byte.
-/

namespace Retrace

namespace HexText

/-- What keeps a text from being read as hexadecimal. -/
inductive Flaw where
  /-- A byte string with half a byte at its end. -/
  | oddLength
  /-- A quantity of more than 32 bytes. -/
  | tooLong
  /-- The byte at the given position is no digit. -/
  | badDigit (byte : UInt8) (position : Nat)
  deriving DecidableEq

/-- The wording of a flaw. -/
def Flaw.message : Flaw → String
  | .oddLength => "Odd number of digits"
  | .tooLong => "Invalid string length"
  | .badDigit byte position =>
    "Invalid character " ++ Text.quotedChar (Char.ofNat byte.toNat) ++ " at position " ++
      Text.decimal position

/-- A text that is not hexadecimal, without the blanks around it, and why. -/
structure Invalid where
  text : List Char
  flaw : Flaw
  deriving DecidableEq

/-- The wording of a refusal. -/
def Invalid.message (e : Invalid) : String :=
  "Invalid hex: " ++ Text.quoted e.text ++ ": " ++ e.flaw.message

/-! ## The digits -/

/-- The text without one marker in front of it. -/
def unmarked : List Char → List Char
  | '0' :: 'x' :: digits => digits
  | '0' :: 'X' :: digits => digits
  | digits => digits

/-- The text without one lower-case marker in front of it. -/
def withoutMarker : List Char → List Char
  | '0' :: 'x' :: digits => digits
  | digits => digits

/-- The value of the digit at a position. -/
def digit (c : Char) (position : Nat) : Except Flaw Nat :=
  match Text.digitValue? c with
  | some value => .ok value
  | none => .error (.badDigit ((String.utf8EncodeChar c).headD 0) position)

/-- The bytes that pairs of digits spell, the first pair standing at `position`. -/
def decodePairs : Nat → List Char → Except Flaw (List UInt8)
  | _, [] => .ok []
  | position, [c] => do
    let _ ← digit c position
    .error .oddLength
  | position, high :: low :: rest => do
    let h ← digit high position
    let l ← digit low (position + 1)
    let bytes ← decodePairs (position + 2) rest
    .ok (UInt8.ofNat (16 * h + l) :: bytes)

/-- Digits as a byte string. -/
def decodeBytes (digits : List Char) : Except Flaw Bytes :=
  if Text.byteCount digits % 2 = 1 then .error .oddLength
  else (decodePairs 0 digits).map Bytes.ofList

/-- Digits as a quantity: an odd number of them is filled up with a zero in front. -/
def decodeWord (digits : List Char) : Except Flaw Word :=
  let count := Text.byteCount digits
  if 64 < count then .error .tooLong
  else
    let filled := if count % 2 = 1 then '0' :: digits else digits
    (decodePairs 0 filled).map fun bytes => Word.ofBytes (Bytes.ofList bytes)

/-! ## Whole texts -/

/-- Read a byte string. -/
def readBytes (text : String) : Except Invalid Bytes :=
  let trimmed := Text.trim text.toList
  (decodeBytes (unmarked trimmed)).mapError (Invalid.mk trimmed)

/-- Read a quantity. -/
def readWord (text : String) : Except Invalid Word :=
  let trimmed := Text.trim text.toList
  (decodeWord (withoutMarker (unmarked trimmed))).mapError (Invalid.mk trimmed)

end HexText

end Retrace
