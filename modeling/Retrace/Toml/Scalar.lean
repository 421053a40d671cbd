import Retrace.Text.Digits
import Retrace.Toml.Node
/-!
# Retrace — TOML words

The smallest pieces of a TOML document: blanks, comments and line ends, the
four kinds of strings, keys, numbers and date-times. A reader takes a piece off
the front of the text and returns it with what is left, or refuses. What may
follow a piece never continues it, so that a refusal inside a piece is a
refusal of the document.
-/

namespace Retrace.Toml

/-- Takes a piece off the front of a text. -/
abbrev Reader (α : Type) := List Char → Option (α × List Char)

/-! ## Between the pieces -/

/-- A blank inside a line. -/
def isSpace (c : Char) : Bool := c = ' ' || c = '\t'

/-- A character that shows: neither a control nor the delete character. -/
def isShown (c : Char) : Bool := c = '\t' || (' ' ≤ c && c ≠ '\x7f')

/-- The text behind the blanks of the line. -/
def skipSpaces (text : List Char) : List Char := text.dropWhile isSpace

/-- The text behind a comment, if there is one. -/
def skipComment : List Char → List Char
  | '#' :: rest => rest.dropWhile isShown
  | text => text

/-- The text behind a line end. -/
def newline? : List Char → Option (List Char)
  | '\n' :: rest => some rest
  | '\r' :: '\n' :: rest => some rest
  | _ => none

/-- The text behind the rest of a line that holds nothing but blanks and a comment. -/
def lineEnd? (text : List Char) : Option (List Char) :=
  match skipComment (skipSpaces text) with
  | [] => some []
  | rest => newline? rest

/-- The text behind blanks, comments and line ends, of which there are fewer than `fuel`. -/
def skipLines : Nat → List Char → List Char
  | 0, text => text
  | fuel + 1, text =>
    let rest := skipComment (skipSpaces text)
    match newline? rest with
    | some next => skipLines fuel next
    | none => rest

/-- The text behind blanks, comments and line ends. -/
def skipFiller (text : List Char) : List Char := skipLines (text.length + 1) text

/-! ## Strings -/

/-- The mark of a string with escapes. -/
def basicMark : Char := '\x22'

/-- The mark of a string that stands for itself. -/
def literalMark : Char := '\x27'

/-- The sign that opens an escape. -/
def escapeSign : Char := '\x5c'

/-- A character that stands for itself in a string with escapes. -/
def isBasicChar (c : Char) : Bool := isShown c && c ≠ basicMark && c ≠ escapeSign

/-- A character that stands for itself in a literal string. -/
def isLiteralChar (c : Char) : Bool := isShown c && c ≠ literalMark

/-- The character of an escape of one letter. -/
def shortEscape? (c : Char) : Option Char :=
  match c with
  | 'b' => some '\x08'
  | 't' => some '\t'
  | 'n' => some '\n'
  | 'f' => some '\x0c'
  | 'r' => some '\r'
  | '\x22' => some '\x22'
  | '\x5c' => some '\x5c'
  | _ => none

/-- The character with the code point that the digits spell, if it is one. -/
def codePoint? (digits : List Char) : Option Char :=
  (Text.number? 16 digits).bind fun n =>
    if n.isValidChar then some (Char.ofNat n) else none

/-- Put a character in front of what a reader has taken. -/
def andThen (c : Char) (read : Option (List Char × List Char)) : Option (List Char × List Char) :=
  read.map fun (body, rest) => (c :: body, rest)

/-- The rest of a string with escapes, its opening mark taken. -/
def basicBody : Reader (List Char)
  | [] => none
  | '\x22' :: rest => some ([], rest)
  | '\x5c' :: 'u' :: a :: b :: c :: d :: rest =>
    (codePoint? [a, b, c, d]).bind fun ch => andThen ch (basicBody rest)
  | '\x5c' :: 'U' :: a :: b :: c :: d :: e :: f :: g :: h :: rest =>
    (codePoint? [a, b, c, d, e, f, g, h]).bind fun ch => andThen ch (basicBody rest)
  | '\x5c' :: c :: rest => (shortEscape? c).bind fun ch => andThen ch (basicBody rest)
  | c :: rest => if isBasicChar c then andThen c (basicBody rest) else none

/-- What follows the three marks that close a string: up to two marks still belong to it. -/
def closing (mark : Char) : List Char → List Char × List Char
  | a :: b :: rest =>
    if a = mark then
      if b = mark then ([mark, mark], rest) else ([mark], b :: rest)
    else ([], a :: b :: rest)
  | [a] => if a = mark then ([mark], []) else ([], [a])
  | [] => ([], [])

/-- The rest of a string of several lines with escapes. An escaped line end is skipped together
with all blanks and line ends behind it; the flag says that this is being done. -/
def longBasicBody : Bool → Reader (List Char)
  | _, [] => none
  | _, '\x22' :: '\x22' :: '\x22' :: rest => some (closing basicMark rest)
  | _, '\x5c' :: 'u' :: a :: b :: c :: d :: rest =>
    (codePoint? [a, b, c, d]).bind fun ch => andThen ch (longBasicBody false rest)
  | _, '\x5c' :: 'U' :: a :: b :: c :: d :: e :: f :: g :: h :: rest =>
    (codePoint? [a, b, c, d, e, f, g, h]).bind fun ch => andThen ch (longBasicBody false rest)
  | _, '\x5c' :: c :: rest =>
    match shortEscape? c with
    | some ch => andThen ch (longBasicBody false rest)
    | none =>
      if (newline? (skipSpaces (c :: rest))).isSome then longBasicBody true (c :: rest) else none
  | skipping, '\r' :: '\n' :: rest =>
    if skipping then longBasicBody true rest else andThen '\n' (longBasicBody false rest)
  | skipping, c :: rest =>
    if skipping && (isSpace c || c = '\n') then longBasicBody true rest
    else if isBasicChar c || c = basicMark || c = '\n' then andThen c (longBasicBody false rest)
    else none

/-- The rest of a literal string of several lines. -/
def longLiteralBody : Reader (List Char)
  | [] => none
  | '\x27' :: '\x27' :: '\x27' :: rest => some (closing literalMark rest)
  | '\r' :: '\n' :: rest => andThen '\n' (longLiteralBody rest)
  | c :: rest =>
    if isLiteralChar c || c = literalMark || c = '\n' then andThen c (longLiteralBody rest)
    else none

/-- The rest of a literal string of one line. -/
def literalBody (text : List Char) : Option (List Char × List Char) :=
  match text.dropWhile isLiteralChar with
  | '\x27' :: rest => some (text.takeWhile isLiteralChar, rest)
  | _ => none

/-- The text without a line end in front of it. -/
def dropNewline (text : List Char) : List Char := (newline? text).getD text

/-- A string of any kind. -/
def string? (text : List Char) : Option (String × List Char) :=
  let body :=
    match text with
    | '\x22' :: '\x22' :: '\x22' :: rest => longBasicBody false (dropNewline rest)
    | '\x22' :: rest => basicBody rest
    | '\x27' :: '\x27' :: '\x27' :: rest => longLiteralBody (dropNewline rest)
    | '\x27' :: rest => literalBody rest
    | _ => none
  body.map fun (chars, rest) => (String.ofList chars, rest)

/-! ## Keys -/

/-- A character of a key without marks. -/
def isBareChar (c : Char) : Bool := c.isAlphanum || c = '_' || c = '-'

/-- One part of a key. -/
def keyPart? (text : List Char) : Option (String × List Char) :=
  match text with
  | '\x22' :: rest => (basicBody rest).map fun (chars, rest) => (String.ofList chars, rest)
  | '\x27' :: rest => (literalBody rest).map fun (chars, rest) => (String.ofList chars, rest)
  | _ =>
    let bare := text.takeWhile isBareChar
    if bare.isEmpty then none else some (String.ofList bare, text.dropWhile isBareChar)

/-- The nesting at which a document is refused. -/
def depthLimit : Nat := 80

/-- The parts of a key with dots between them, of which there are at most `fuel`. -/
def keyParts? : Nat → List Char → Option (List String × List Char)
  | 0, _ => none
  | fuel + 1, text => do
    let (part, rest) ← keyPart? (skipSpaces text)
    match skipSpaces rest with
    | '.' :: rest =>
      let (parts, rest) ← keyParts? fuel rest
      some (part :: parts, rest)
    | rest => some ([part], rest)

/-- A key: the path to its last part, and the last part. -/
def key? (text : List Char) : Option ((List String × String) × List Char) := do
  let (parts, rest) ← keyParts? (depthLimit - 1) text
  let last ← parts.getLast?
  some ((parts.dropLast, last), rest)

/-! ## Numbers -/

/-- Whether the character is a digit of the base. -/
def isDigitIn (base : Nat) (c : Char) : Bool := (Text.digitIn? base c).isSome

/-- The rest of a run of digits, in which single underscores may stand between two digits. -/
def moreDigits (base : Nat) : Reader (List Char)
  | [] => some ([], [])
  | ['_'] => none
  | '_' :: c :: rest => if isDigitIn base c then andThen c (moreDigits base rest) else none
  | c :: rest => if isDigitIn base c then andThen c (moreDigits base rest) else some ([], c :: rest)

/-- A run of digits. -/
def digits? (base : Nat) : Reader (List Char)
  | c :: rest => if isDigitIn base c then andThen c (moreDigits base rest) else none
  | [] => none

/-- A sign, which is negative or not. -/
def sign : List Char → Bool × List Char
  | '-' :: rest => (true, rest)
  | '+' :: rest => (false, rest)
  | text => (false, text)

/-- The digits of a decimal number: no zero stands in front of others. -/
def decimalDigits? : Reader (List Char)
  | '0' :: rest => some (['0'], rest)
  | text => digits? 10 text

/-- The number that digits spell. -/
def numberOf (base : Nat) (digits : List Char) : Nat := (Text.number? base digits).getD 0

/-- An integer of 64 bits. -/
def signedInteger? (negative : Bool) (magnitude : Nat) : Option Int :=
  if negative then
    if magnitude ≤ 1 <<< 63 then some (-(magnitude : Int)) else none
  else if magnitude < 1 <<< 63 then some magnitude else none

/-- An integer behind the marker of a base. -/
def based? (base : Nat) (text : List Char) : Option (Node × List Char) := do
  let (digits, rest) ← digits? base text
  let value ← signedInteger? false (numberOf base digits)
  some (.integer value, rest)

/-- An integer. -/
def integer? (text : List Char) : Option (Node × List Char) :=
  match text with
  | '0' :: 'x' :: rest => based? 16 rest
  | '0' :: 'o' :: rest => based? 8 rest
  | '0' :: 'b' :: rest => based? 2 rest
  | _ => do
    let (negative, rest) := sign text
    let (digits, rest) ← decimalDigits? rest
    let value ← signedInteger? negative (numberOf 10 digits)
    some (.integer value, rest)

/-- The digits behind a point, if there is one. -/
def fraction? : Reader (List Char)
  | '.' :: rest => digits? 10 rest
  | text => some ([], text)

/-- The exponent of a float, if there is one. -/
def exponent? (text : List Char) : Option (Option Int × List Char) :=
  match text with
  | c :: rest =>
    if c = 'e' || c = 'E' then do
      let (negative, rest) := sign rest
      let (digits, rest) ← digits? 10 rest
      let magnitude : Int := numberOf 10 digits
      some (some (if negative then -magnitude else magnitude), rest)
    else some (none, text)
  | [] => some (none, [])

/-- The least number that no longer rounds to a finite double: halfway from the greatest to the
next power of two. -/
def doubleBound : Nat := 1 <<< 1024 - 1 <<< 970

/-- Whether `mantissa * 10 ^ exponent` is too large for a double. Only where the number of digits
leaves it open are the powers computed. -/
def isTooLarge (mantissa : Nat) (exponent : Int) : Bool :=
  let magnitude := ((Nat.toDigits 10 mantissa).length : Int) + exponent
  if mantissa = 0 || magnitude < 300 then false
  else if 320 < magnitude then true
  else if 0 ≤ exponent then doubleBound ≤ mantissa * Nat.pow 10 exponent.toNat
  else doubleBound * Nat.pow 10 (-exponent).toNat ≤ mantissa

/-- A float with digits: it has a fraction or an exponent. A number that rounds to positive
infinity is refused. -/
def decimalFloat? (text : List Char) : Option (Node × List Char) := do
  let (negative, rest) := sign text
  let (whole, rest) ← decimalDigits? rest
  let (fraction, rest) ← fraction? rest
  let (exponent, rest) ← exponent? rest
  if fraction.isEmpty && exponent.isNone then none
  else
    let scale := exponent.getD 0 - (fraction.length : Int)
    if !negative && isTooLarge (numberOf 10 (whole ++ fraction)) scale then none
    else some (.float, rest)

/-- One of the floats that are names. -/
def namedFloat? (text : List Char) : Option (Node × List Char) :=
  match (sign text).2 with
  | 'i' :: 'n' :: 'f' :: rest => some (.float, rest)
  | 'n' :: 'a' :: 'n' :: rest => some (.float, rest)
  | _ => none

/-! ## Date-times -/

/-- Exactly `count` decimal digits, spelling a number between two bounds. -/
def field? (count least greatest : Nat) (text : List Char) : Option (Nat × List Char) := do
  let digits := text.take count
  let value ← Text.number? 10 digits
  if digits.length = count && least ≤ value && value ≤ greatest then some (value, text.drop count)
  else none

/-- The text behind a character that must stand there. -/
def expect? (c : Char) : List Char → Option (List Char)
  | first :: rest => if first = c then some rest else none
  | [] => none

/-- The number of days of a month. -/
def daysOfMonth (year month : Nat) : Nat :=
  if month = 2 then
    if year % 4 = 0 && (year % 100 ≠ 0 || year % 400 = 0) then 29 else 28
  else if month = 4 || month = 6 || month = 9 || month = 11 then 30
  else 31

/-- The text behind a date. -/
def date? (text : List Char) : Option (List Char) := do
  let (year, rest) ← field? 4 0 9999 text
  let rest ← expect? '-' rest
  let (month, rest) ← field? 2 1 12 rest
  let rest ← expect? '-' rest
  let (_, rest) ← field? 2 1 (daysOfMonth year month) rest
  some rest

/-- The text behind a fraction of a second, if there is one. -/
def skipFraction : List Char → List Char
  | '.' :: c :: rest => if c.isDigit then rest.dropWhile Char.isDigit else '.' :: c :: rest
  | text => text

/-- The text behind hours and minutes. -/
def hourMinute? (text : List Char) : Option (List Char) := do
  let (_, rest) ← field? 2 0 23 text
  let rest ← expect? ':' rest
  let (_, rest) ← field? 2 0 59 rest
  some rest

/-- The text behind a time. -/
def time? (text : List Char) : Option (List Char) := do
  let rest ← hourMinute? text
  let rest ← expect? ':' rest
  let (_, rest) ← field? 2 0 60 rest
  some (skipFraction rest)

/-- The text behind the distance from universal time, if there is one. -/
def skipZone (text : List Char) : List Char :=
  match text with
  | c :: rest =>
    if c = 'Z' || c = 'z' then rest
    else if c = '+' || c = '-' then (hourMinute? rest).getD text
    else text
  | [] => []

/-- The text behind a time that follows a date, if there is one. -/
def skipTimeOfDay (text : List Char) : List Char :=
  match text with
  | c :: rest =>
    if c = 'T' || c = 't' || c = ' ' then ((time? rest).map skipZone).getD text else text
  | [] => []

/-- A date, a time, or both. -/
def dateTime? (text : List Char) : Option (Node × List Char) :=
  match date? text with
  | some rest => some (.dateTime, skipTimeOfDay rest)
  | none => (time? text).map fun rest => (.dateTime, rest)

/-! ## Scalars -/

/-- A value that holds no others. -/
def scalar? (text : List Char) : Option (Node × List Char) :=
  match text with
  | '\x22' :: _ => (string? text).map fun (value, rest) => (.text value, rest)
  | '\x27' :: _ => (string? text).map fun (value, rest) => (.text value, rest)
  | 't' :: 'r' :: 'u' :: 'e' :: rest => some (.boolean true, rest)
  | 'f' :: 'a' :: 'l' :: 's' :: 'e' :: rest => some (.boolean false, rest)
  | _ => dateTime? text <|> decimalFloat? text <|> namedFloat? text <|> integer? text

end Retrace.Toml
