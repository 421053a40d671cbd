import Retrace.Machine.Extent
import Retrace.Opcode
/-!
# Retrace — the price of an instruction

Every instruction has a base fee, paid before it does anything. Some pay more,
by what they touch: memory that has to grow, the bytes hashed or copied, the
bytes of an exponent, a storage slot that is filled. The dynamic prices are
64-bit computations; one that leaves the range is out of gas.
-/

namespace Retrace.Gas

/-! ## Memory -/

/-- The price of a memory of the given size: linear in its units, and quadratic in the long run. -/
def memoryPrice (size : Nat) : Except Fault Nat := do
  let count := units size
  let square ← bounded (count * count)
  let linear ← bounded (3 * count)
  bounded (square / 512 + linear)

/-- The price of growing memory; only the growth is paid for. -/
def expansion (newSize size : Nat) : Except Fault Nat :=
  if newSize ≤ size then .ok 0
  else do
    let after ← memoryPrice newSize
    let before ← memoryPrice size
    .ok (after - before)

/-- The price of growing memory and of handling `size` bytes at `rate` a unit. -/
def expansionAndUnits (rate newSize oldSize size : Nat) : Except Fault Nat := do
  let handling ← bounded (rate * units size)
  let growth ← expansion newSize oldSize
  bounded (growth + handling)

/-- The dynamic price of hashing `size` bytes. -/
def hashing (newSize oldSize size : Nat) : Except Fault Nat :=
  expansionAndUnits 6 newSize oldSize size

/-- The dynamic price of copying `size` bytes. -/
def copying (newSize oldSize size : Nat) : Except Fault Nat :=
  expansionAndUnits 3 newSize oldSize size

/-! ## Words and storage -/

/-- The price of a power: by the bytes of the exponent. -/
def power (exponent : Word) : Nat := 50 * Word.byteLength exponent

/-- The dynamic price of raising to a power, with the count of bytes and the product checked. -/
def raising (exponent : Word) : Except Fault Nat := do
  let count ← bounded (Word.byteLength exponent)
  bounded (50 * count)

/-- The checks never refuse: an exponent has at most 32 bytes. -/
theorem raising_eq (exponent : Word) : raising exponent = .ok (power exponent) := by
  have hlength := Word.byteLength_le exponent
  have hbound : 50 * 32 < quantityBound := by decide
  have hcount : bounded (Word.byteLength exponent) = .ok (Word.byteLength exponent) :=
    if_pos (by omega)
  rw [raising, hcount]
  exact if_pos (by omega)

/-- The price of a write to storage: filling an empty slot costs more. -/
def storing (current new : Word) : Nat := if current = 0 ∧ new ≠ 0 then 20000 else 5000

/-! ## Base fees -/

/-- The fee that an instruction pays before it runs. -/
def baseFee : Opcode → Nat
  | .stop | .ret | .revert | .invalid | .sstore => 0
  | .jumpDest => 1
  | .address | .caller | .callValue | .callDataSize | .codeSize
  | .pop | .pc | .msize | .gas | .push0 | .beginSub => 2
  | .add | .sub | .lt | .gt | .eq | .isZero | .and | .or | .xor | .not | .byte | .shl | .shr
  | .callDataLoad | .callDataCopy | .codeCopy | .mload | .mstore | .mstore8
  | .push _ | .dup _ | .swap _ => 3
  | .mul | .div | .mod | .returnSub => 5
  | .jump => 8
  | .jumpi | .exp | .jumpSub => 10
  | .keccak256 => 30
  | .sload => 800

end Retrace.Gas
