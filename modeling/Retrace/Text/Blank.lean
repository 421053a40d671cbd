/-!
# Retrace — blank characters

The 25 characters with the Unicode property `White_Space`, and the removal of
blanks at both ends of a text. Core's `Char.isWhitespace` knows four of them
only.
-/

namespace Retrace.Text

/-- The characters with the property `White_Space`. -/
def blanks : List Char :=
  ['\t', '\n', '\u000b', '\u000c', '\r', ' ', '\u0085', '\u00a0', '\u1680', '\u2000', '\u2001',
   '\u2002', '\u2003', '\u2004', '\u2005', '\u2006', '\u2007', '\u2008', '\u2009', '\u200a',
   '\u2028', '\u2029', '\u202f', '\u205f', '\u3000']

/-- Whether the character is blank. -/
def isBlank (c : Char) : Bool := blanks.contains c

/-- The text without the blanks in front of it. -/
def trimStart (text : List Char) : List Char := text.dropWhile isBlank

/-- The text without the blanks behind it. -/
def trimEnd (text : List Char) : List Char := (trimStart text.reverse).reverse

/-- The text without the blanks at its two ends. -/
def trim (text : List Char) : List Char := trimEnd (trimStart text)

end Retrace.Text
