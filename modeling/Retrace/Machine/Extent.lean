import Retrace.Halt
import Retrace.Word
/-!
# Retrace — extents

Memory is addressed by 64-bit offsets and grows in units of 32 bytes. An
instruction that touches `size` bytes at `offset` needs memory up to the end of
that range, rounded up to a unit; nothing is needed for a size of zero. A range
whose rounded end is no 64-bit quantity could never be paid for, and is refused
as out of gas.
-/

namespace Retrace

/-- The bytes of a unit of memory. -/
def unitSize : Nat := 32

/-- `n` as the result of a 64-bit computation; beyond the range it could not be paid for. -/
def bounded (n : Nat) : Except Fault Nat :=
  if n < quantityBound then .ok n else .error .outOfGas

/-- The units that `size` bytes take. -/
def units (size : Nat) : Nat := (size + (unitSize - 1)) / unitSize

/-- `size` rounded up to whole units. -/
def roundedUp (size : Nat) : Except Fault Nat := bounded (unitSize * units size)

/-- The memory size needed to touch `size` bytes at `offset`. -/
def touchedSize (offset size : Nat) : Except Fault Nat :=
  if size = 0 then .ok 0
  else do
    let stop ← bounded (offset + size)
    roundedUp stop

/-- An operand that must be a 64-bit quantity; a larger one could not be paid for. -/
def quantityOperand (w : Word) : Except Fault Nat := bounded w.toNat

/-- The range that an offset and a size operand name. A size of zero ignores the offset. -/
def rangeOperands (offset size : Word) : Except Fault (Nat × Nat) :=
  if size = 0 then .ok (0, 0)
  else do
    let size ← quantityOperand size
    let offset ← quantityOperand offset
    .ok (offset, size)

end Retrace
