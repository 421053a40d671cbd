import Retrace.Opcode
import Retrace.Word
/-!
# Retrace — programs

A program is a byte string decoded once, from left to right: an instruction
starts at offset zero, and the next one after the immediate bytes of the one
before. Decoding never fails. `scan` records of every byte the length of the
instruction that starts there and what that instruction marks, and of a byte
inside an immediate that nothing starts, so that a marker byte inside an
immediate is no jump destination.
-/

namespace Retrace

/-- What decoding records of a byte. -/
structure Note where
  /-- The length of the instruction that starts there, and zero inside an immediate. -/
  length : Nat
  /-- Whether a jump may land there. -/
  isJumpDestination : Bool
  /-- Whether a subroutine may be called there. -/
  isSubroutineEntry : Bool

/-- Inside an immediate nothing starts. -/
def Note.inside : Note := ⟨0, false, false⟩

/-- An instruction is recorded by its byte. -/
def Note.ofByte (byte : UInt8) : Note where
  length := Opcode.immediateSize byte + 1
  isJumpDestination := byte == Opcode.jumpDestByte
  isSubroutineEntry := byte == Opcode.beginSubByte

theorem Note.length_ofByte_ne_zero (byte : UInt8) : (ofByte byte).length ≠ 0 := Nat.succ_ne_zero _

/-- What is recorded of each byte of a code. The first argument counts the immediate bytes still to
come. -/
def scan : Nat → List UInt8 → List Note
  | _, [] => []
  | 0, byte :: rest => .ofByte byte :: scan (Opcode.immediateSize byte) rest
  | skip + 1, _ :: rest => .inside :: scan skip rest

@[simp] theorem length_scan (skip : Nat) (code : List UInt8) :
    (scan skip code).length = code.length := by
  induction code generalizing skip with
  | nil => cases skip <;> rfl
  | cons byte rest ih => cases skip <;> simp [scan, ih]

/-- A byte string with its decoding. -/
structure Program where
  /-- The bytes. -/
  code : Bytes
  /-- What is recorded of each offset. -/
  notes : Array Note
  /-- The notes are those of the decoding. -/
  notes_eq : notes = (scan 0 (Bytes.toList code)).toArray

namespace Program

/-- Decode a byte string. -/
def load (code : Bytes) : Program := ⟨code, (scan 0 (Bytes.toList code)).toArray, rfl⟩

variable (p : Program)

/-- The number of bytes. -/
def size : Nat := p.code.size

/-- Decoding leaves no byte out. -/
theorem size_notes : p.notes.size = p.size := by
  rw [p.notes_eq, List.size_toArray, length_scan]
  rfl

/-- The byte at an offset, if the code reaches so far. -/
def byteAt? (offset : Nat) : Option UInt8 := p.code[offset]?

/-- Whether an instruction starts at the offset. -/
def isBoundary (offset : Nat) : Bool := p.notes[offset]?.any (·.length ≠ 0)

/-- The length of the instruction at an offset: zero inside an immediate, and one past the end,
where the machine finds an implicit stop. -/
def instructionLength (offset : Nat) : Nat := p.notes[offset]?.elim 1 Note.length

/-- Where the next instruction starts, as a 64-bit quantity. -/
def nextOffset (offset : Nat) : Nat := min (offset + p.instructionLength offset) maxQuantity

/-- The immediate bytes of the instruction at an offset, as far as the code reaches. -/
def immediate (offset : Nat) : Bytes :=
  Bytes.slice p.code (offset + 1) (p.nextOffset offset)

/-- The offsets at which an instruction starts, ascending. -/
def boundaries : List Nat := (List.range p.size).filter p.isBoundary

/-- Whether a jump may land at the offset. -/
def isJumpDestination (offset : Nat) : Bool := p.notes[offset]?.any (·.isJumpDestination)

/-- Whether a subroutine may be called at the offset. -/
def isSubroutineEntry (offset : Nat) : Bool := p.notes[offset]?.any (·.isSubroutineEntry)

/-- The offsets at which a jump may land, ascending. -/
def jumpDestinations : List Nat := (List.range p.size).filter p.isJumpDestination

/-- The offsets at which a subroutine may be called, ascending. -/
def subroutineEntries : List Nat := (List.range p.size).filter p.isSubroutineEntry

/-- The offset that a word names, if a jump may land there. -/
def jumpTarget? (word : Word) : Option Nat := (Word.quantity? word).filter p.isJumpDestination

/-- The offset that a word names, if a subroutine may be called there. -/
def subroutineTarget? (word : Word) : Option Nat :=
  (Word.quantity? word).filter p.isSubroutineEntry

end Program

end Retrace
