import Retrace.Text.Digits
import Retrace.Text.Unprinted
/-!
# Retrace — quoted text

A text is shown between quotation marks with every character legible: tabs,
line ends, NUL and the backslash have short escapes, the mark itself is
escaped, and a character that does not show is written by its code point.
-/

namespace Retrace.Text

/-- The mark around a text. -/
def textMark : Char := '\x22'

/-- The mark around a single character. -/
def charMark : Char := '\x27'

/-- The sign that opens an escape. -/
def escapeSign : Char := '\x5c'

/-- A character's code point in hexadecimal, in braces. -/
def codePoint (c : Char) : List Char :=
  [escapeSign, 'u', '\x7b'] ++ Nat.toDigits 16 c.toNat ++ ['\x7d']

/-- A character as it stands between two marks. -/
def escaped (mark c : Char) : List Char :=
  if c = '\t' then [escapeSign, 't']
  else if c = '\r' then [escapeSign, 'r']
  else if c = '\n' then [escapeSign, 'n']
  else if c = '\x00' then [escapeSign, '0']
  else if c = escapeSign ∨ c = mark then [escapeSign, c]
  else if isUnprinted c then codePoint c
  else [c]

/-- The text between double quotation marks. -/
def quoted (text : List Char) : String :=
  String.ofList ([textMark] ++ text.flatMap (escaped textMark) ++ [textMark])

/-- The character between single quotation marks. -/
def quotedChar (c : Char) : String := String.ofList ([charMark] ++ escaped charMark c ++ [charMark])

end Retrace.Text
