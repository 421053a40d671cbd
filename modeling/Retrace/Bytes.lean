/-!
# Retrace — byte strings

Code, call data, memory and output are byte strings. This file holds the few
readings of them that the rest of the library is written in: a run of zeros,
a slice that is empty where there is nothing to take, a *window*, which is a
slice continued with zeros past the end, and the overwriting of a range in
place. Numbers are written most significant byte first.
-/

namespace Retrace

/-- A string of bytes. -/
abbrev Bytes := ByteArray

instance : DecidableEq Bytes := ByteArray.instDecidableEq

namespace Bytes

/-- The bytes in order. -/
def toList (bytes : Bytes) : List UInt8 := bytes.data.toList

/-- The byte string with the given bytes. -/
def ofList (bytes : List UInt8) : Bytes := ⟨bytes.toArray⟩

@[simp] theorem toList_ofList (bytes : List UInt8) : toList (ofList bytes) = bytes := rfl

/-- A run of `n` zero bytes. -/
def zeros (n : Nat) : Bytes := ⟨Array.replicate n 0⟩

@[simp] theorem size_zeros (n : Nat) : (zeros n).size = n := by
  simp [zeros, ByteArray.size]

/-! ## Slices and windows

A slice never reaches past the end of its source. A window always has the size
asked for: what the source does not hold is read as zero. -/

/-- The bytes from `start` up to `stop`, as far as there are any. -/
def slice (bytes : Bytes) (start stop : Nat) : Bytes :=
  if start < bytes.size then bytes.extract start (min stop bytes.size) else ByteArray.empty

theorem size_slice (bytes : Bytes) (start stop : Nat) :
    (slice bytes start stop).size = min stop bytes.size - start := by
  unfold slice
  split
  · rw [ByteArray.size_extract]
    omega
  · simp only [ByteArray.size_empty]
    omega

/-- The `size` bytes from `offset` on, zero where the source has ended. -/
def window (bytes : Bytes) (offset size : Nat) : Bytes :=
  let held := slice bytes offset (offset + size)
  held ++ zeros (size - held.size)

@[simp] theorem size_window (bytes : Bytes) (offset size : Nat) :
    (window bytes offset size).size = size := by
  simp only [window, ByteArray.size_append, size_zeros, size_slice]
  omega

/-- `bytes` with the range that starts at `offset` replaced by `data`. -/
def overwrite (bytes : Bytes) (offset : Nat) (data : Bytes) : Bytes :=
  data.copySlice 0 bytes offset data.size

/-- Overwriting inside the string keeps its size. -/
theorem size_overwrite {bytes data : Bytes} {offset : Nat} (h : offset + data.size ≤ bytes.size) :
    (overwrite bytes offset data).size = bytes.size := by
  have hb : bytes.data.size = bytes.size := rfl
  have hd : data.data.size = data.size := rfl
  simp only [overwrite, ByteArray.copySlice_eq_append, ByteArray.size_append, ByteArray.size_extract]
  omega

/-! ## Numbers, most significant byte first -/

/-- The number that the bytes spell. -/
def toNat (bytes : List UInt8) : Nat := bytes.foldl (fun n byte => 256 * n + byte.toNat) 0

/-- Put the `width` low bytes of `n` in front of `rest`. -/
def ofNatOnto : Nat → Nat → List UInt8 → List UInt8
  | 0, _, rest => rest
  | width + 1, n, rest => ofNatOnto width (n / 256) (UInt8.ofNat (n % 256) :: rest)

/-- The `width` low bytes of `n`. -/
def ofNat (width n : Nat) : Bytes := ofList (ofNatOnto width n [])

theorem length_ofNatOnto (width n : Nat) (rest : List UInt8) :
    (ofNatOnto width n rest).length = width + rest.length := by
  induction width generalizing n rest with
  | zero => simp [ofNatOnto]
  | succ width ih => simp [ofNatOnto, ih]; omega

@[simp] theorem size_ofNat (width n : Nat) : (ofNat width n).size = width := by
  simp [ofNat, ofList, ByteArray.size, length_ofNatOnto]

end Bytes

end Retrace
