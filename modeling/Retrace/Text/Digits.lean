import Retrace.Bytes
/-!
# Retrace — numbers and bytes in text

How numbers are written: in decimal, or in lower-case hexadecimal behind the
marker `0x`, either with the fewest digits or filled up with zeros to a width.
Byte strings are written with two digits a byte. The other direction is here
too: a run of digits in a base is read as the number it spells.
-/

namespace Retrace.Text

/-! ## Writing -/

/-- The number in decimal. -/
def decimal (n : Nat) : String := String.ofList (Nat.toDigits 10 n)

/-- The number in hexadecimal, with the fewest digits. -/
def hex (n : Nat) : String := "0x" ++ String.ofList (Nat.toDigits 16 n)

/-- The hexadecimal digits of the number, filled up with zeros to `width`. -/
def paddedDigits (width n : Nat) : List Char :=
  let digits := Nat.toDigits 16 n
  List.replicate (width - digits.length) '0' ++ digits

/-- The number in hexadecimal, with at least `width` digits. -/
def hexPadded (width n : Nat) : String := "0x" ++ String.ofList (paddedDigits width n)

/-- A code offset, with at least four hexadecimal digits. -/
def offset (n : Nat) : String := hexPadded 4 n

/-- The two digits of a byte. -/
def byteDigits (byte : UInt8) : List Char :=
  [Nat.digitChar (byte.toNat / 16), Nat.digitChar (byte.toNat % 16)]

/-- The digits of a byte string, two a byte. -/
def bytesHex (bytes : Bytes) : String := String.ofList ((Bytes.toList bytes).flatMap byteDigits)

/-- The text followed by blanks up to `width` characters; a longer text is not cut. -/
def padRight (width : Nat) (text : String) : String :=
  text ++ String.ofList (List.replicate (width - text.length) ' ')

/-- The texts, one a line. -/
def lines (texts : List String) : String := "\n".intercalate texts

/-! ## Reading -/

/-- The value of a hexadecimal digit of either case. -/
def digitValue? (c : Char) : Option Nat :=
  if '0' ≤ c ∧ c ≤ '9' then some (c.toNat - '0'.toNat)
  else if 'a' ≤ c ∧ c ≤ 'f' then some (c.toNat - 'a'.toNat + 10)
  else if 'A' ≤ c ∧ c ≤ 'F' then some (c.toNat - 'A'.toNat + 10)
  else none

/-- The value of a digit of the given base. -/
def digitIn? (base : Nat) (c : Char) : Option Nat :=
  (digitValue? c).filter (· < base)

/-- The number that a non-empty run of digits spells in the given base. -/
def number? (base : Nat) (digits : List Char) : Option Nat :=
  if digits.isEmpty then none
  else (digits.mapM (digitIn? base)).map (·.foldl (fun n digit => base * n + digit) 0)

end Retrace.Text
