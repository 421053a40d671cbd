import Retrace.Machine.Table
/-!
# Retrace — listings

A listing shows code as rows, one an instruction, from any offset on. A start
inside an immediate reads the bytes there as instructions of their own until
the next boundary is met; so no byte is lost and the listing never stalls. The
strip shows the whole code as digits, with the instruction at one offset in
brackets.
-/

namespace Retrace

/-- One line of a listing. -/
structure Row where
  offset : Nat
  mnemonic : String
  /-- The base fee, if the table knows the byte. -/
  fee : Option Nat
  /-- The immediate of a push, as far as the code reaches. -/
  immediate : Bytes
  deriving DecidableEq

namespace Listing

variable (table : Table) (program : Program)

/-- The row of the byte at an offset. -/
def row (offset : Nat) (byte : UInt8) : Row where
  offset := offset
  mnemonic := (table.mnemonic? byte).getD "UNKNOWN"
  fee := (table.get? byte).map Entry.fee
  immediate :=
    if Opcode.immediateSize byte = 0 then ByteArray.empty else program.immediate offset

/-- Where the row after the one at an offset stands: at least one byte on. -/
def following (offset : Nat) : Nat := offset + max 1 (program.instructionLength offset)

/-- At most `height` rows from an offset on. -/
def rows : Nat → Nat → List Row
  | 0, _ => []
  | height + 1, offset =>
    match program.byteAt? offset with
    | some byte => row table program offset byte :: rows height (following program offset)
    | none => []

/-- The bytes of the instruction at an offset, as far as the code reaches. -/
def instructionBytes (offset : Nat) : Bytes :=
  Bytes.slice program.code offset (program.nextOffset offset)

/-- The digits of the instruction at an offset, in brackets if it is the marked one. -/
def stripPiece (marked offset : Nat) : String :=
  let digits := Text.bytesHex (instructionBytes program offset)
  if offset = marked then "[" ++ digits ++ "]" else digits

/-- The code as digits, with the instruction at an offset in brackets. -/
def strip (marked : Nat) : String := String.join (program.boundaries.map (stripPiece program marked))

end Listing

end Retrace
