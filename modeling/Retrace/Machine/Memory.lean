import Retrace.Machine.Extent
/-!
# Retrace — memory

Memory is a byte string that reads as zero until written and whose size is
always a whole number of units. Every access grows it as far as the access
reaches, and it never shrinks. The alignment is part of the type. A memory is
an immutable value, so what one state writes no other state sees.
-/

namespace Retrace

/-- A byte-addressed memory of whole units. -/
structure Memory where
  /-- The bytes. -/
  bytes : Bytes
  /-- The size is a whole number of units. -/
  aligned : bytes.size % unitSize = 0
  deriving DecidableEq

namespace Memory

/-- The empty memory. -/
def empty : Memory := ⟨ByteArray.empty, rfl⟩

variable (m : Memory)

/-- The size in bytes. -/
def size : Nat := m.bytes.size

/-- The memory grown with zeros to the given number of units, if it is smaller. -/
def growTo (count : Nat) : Memory :=
  if m.bytes.size < unitSize * count then
    ⟨m.bytes ++ Bytes.zeros (unitSize * count - m.bytes.size), by
      have := m.aligned
      simp only [ByteArray.size_append, Bytes.size_zeros, unitSize] at *
      omega⟩
  else m

/-- The memory with a range inside it overwritten. -/
def write (offset : Nat) (data : Bytes) : Memory :=
  if h : offset + data.size ≤ m.bytes.size then
    ⟨Bytes.overwrite m.bytes offset data, by rw [Bytes.size_overwrite h]; exact m.aligned⟩
  else m

/-! ## Growing accesses -/

/-- Grow to hold `size` bytes. -/
def resize (size : Nat) : Except Fault Memory :=
  if size = 0 then .ok m
  else do
    let _ ← roundedUp size
    .ok (m.growTo (units size))

/-- The `size` bytes at `offset`, and the memory grown to hold them. -/
def load (offset size : Nat) : Except Fault (Bytes × Memory) :=
  if size = 0 then .ok (ByteArray.empty, m)
  else do
    let stop ← bounded (offset + size)
    let grown ← m.resize stop
    .ok (Bytes.slice grown.bytes offset stop, grown)

/-- The word at `offset`, and the memory grown to hold it. -/
def loadWord (offset : Nat) : Except Fault (Word × Memory) := do
  let (bytes, grown) ← m.load offset 32
  .ok (Word.ofBytes bytes, grown)

/-- The memory with `data` stored at `offset`. -/
def store (offset : Nat) (data : Bytes) : Except Fault Memory :=
  if data.size = 0 then .ok m
  else do
    let stop ← bounded (offset + data.size)
    let grown ← m.resize stop
    .ok (grown.write offset data)

/-- The memory with `size` bytes stored at `offset`: those of `data`, cut or continued with zeros. -/
def storePadded (offset : Nat) (data : Bytes) (size : Nat) : Except Fault Memory :=
  if size = 0 then .ok m
  else do
    let stop ← bounded (offset + size)
    let grown ← m.resize stop
    .ok (grown.write offset (Bytes.window data 0 size))

/-- The memory with a word stored at `offset`. -/
def storeWord (offset : Nat) (w : Word) : Except Fault Memory := m.store offset (Word.toBytes w)

/-! ## The sparse view -/

/-- The word in the unit with the given index. -/
def unitWord (index : Nat) : Word :=
  Word.ofBytes (Bytes.slice m.bytes (unitSize * index) (unitSize * (index + 1)))

/-- The units that are not zero, each with its offset, ascending. -/
def nonZeroWords : List (Nat × Word) :=
  (List.range (m.bytes.size / unitSize)).filterMap fun index =>
    let w := m.unitWord index
    if w = 0 then none else some (unitSize * index, w)

end Memory

end Retrace
