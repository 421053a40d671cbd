import Retrace.Text.Blank
import Retrace.Text.Digits
import Retrace.Word
/-!
# Retrace — numerals

A numeral names a 64-bit quantity. It is an optional plus sign and one or more
digits; where hexadecimal is admitted, a marker `0x` or `0X` before the sign
says so. A numeral whose value does not fit is refused rather than cut.
-/

namespace Retrace.Text

/-- The text without one plus sign in front of it. -/
def unsigned : List Char → List Char
  | '+' :: digits => digits
  | digits => digits

/-- A quantity in the given base, with an optional plus sign. -/
def quantityIn? (base : Nat) (text : List Char) : Option Nat :=
  (number? base (unsigned text)).bind quantity?

/-- A decimal quantity. -/
def decimalQuantity? (text : List Char) : Option Nat := quantityIn? 10 text

/-- A quantity in decimal, or in hexadecimal behind a marker. -/
def numeral? (text : List Char) : Option Nat :=
  match trim text with
  | '0' :: 'x' :: digits => quantityIn? 16 digits
  | '0' :: 'X' :: digits => quantityIn? 16 digits
  | digits => quantityIn? 10 digits

end Retrace.Text
