import Retrace.Bytes
/-!
# Retrace — words

The machine computes on 256-bit words whose arithmetic wraps. Offsets, sizes,
gas and step counts are 64-bit quantities; they are kept as natural numbers and
guarded by `fits` wherever a computation could leave the range. The word
functions below are those that are not already operations of `BitVec 256`.
-/

namespace Retrace

/-- A machine word of 256 bits. -/
abbrev Word := BitVec 256

/-- An account address of 160 bits. -/
abbrev Address := BitVec 160

/-- The number of 64-bit quantities. -/
def quantityBound : Nat := 1 <<< 64

/-- The largest 64-bit quantity. -/
def maxQuantity : Nat := quantityBound - 1

/-- `n`, if it is a 64-bit quantity. -/
def quantity? (n : Nat) : Option Nat := if n < quantityBound then some n else none

namespace Word

/-- A truth value as a word. -/
def ofBool (b : Bool) : Word := if b then 1 else 0

/-- The word as a 64-bit quantity, if it is one. -/
def quantity? (w : Word) : Option Nat := Retrace.quantity? w.toNat

/-- The word that 32 bytes spell, most significant first. -/
def ofBytes (bytes : Bytes) : Word := BitVec.ofNat 256 (Bytes.toNat (Bytes.toList bytes))

/-- The 32 bytes of a word, most significant first. -/
def toBytes (w : Word) : Bytes := Bytes.ofNat 32 w.toNat

@[simp] theorem size_toBytes (w : Word) : (toBytes w).size = 32 := Bytes.size_ofNat 32 w.toNat

/-- The number of bytes a word needs: none for zero. -/
def byteLength (w : Word) : Nat := if w = 0 then 0 else Nat.log2 w.toNat / 8 + 1

/-- A word has at most `count` bytes exactly when nothing is left of it behind so many. -/
theorem byteLength_le_iff {w : Word} {count : Nat} :
    byteLength w ≤ count ↔ w.toNat >>> (8 * count) = 0 := by
  unfold byteLength
  by_cases hzero : w = 0
  · simp [hzero]
  · have hne : w.toNat ≠ 0 := fun h => hzero (BitVec.eq_of_toNat_eq h)
    rw [if_neg hzero, Nat.shiftRight_eq_div_pow, Nat.div_eq_zero_iff_lt (Nat.two_pow_pos _),
      ← Nat.log2_lt hne]
    omega

/-- No word needs more than 32 bytes. -/
theorem byteLength_le (w : Word) : byteLength w ≤ 32 :=
  byteLength_le_iff.2 (Nat.shiftRight_eq_zero w.toNat _ w.isLt)

/-- The remainder, which is zero for a zero divisor. -/
def rem (a b : Word) : Word := if b = 0 then 0 else a % b

/-- Byte `index` of `w`, counted from the most significant; zero past the last. -/
def byte (index w : Word) : Word :=
  if index.toNat < 32 then (w >>> (8 * (31 - index.toNat))) &&& 0xff else 0

/-- `w` shifted to the left; a shift by the width or more leaves nothing. -/
def shiftLeft (amount w : Word) : Word := if amount.toNat < 256 then w <<< amount.toNat else 0

/-- `w` shifted to the right; a shift by the width or more leaves nothing. -/
def shiftRight (amount w : Word) : Word := if amount.toNat < 256 then w >>> amount.toNat else 0

/-- The power of `base` to an exponent below `2 ^ bits`, by repeated squaring. -/
def powBits : Nat → Word → Nat → Word
  | 0, _, _ => 1
  | bits + 1, base, exponent =>
    if exponent = 0 then 1
    else
      let rest := powBits bits (base * base) (exponent / 2)
      if exponent % 2 = 1 then base * rest else rest

/-- `base` to the power of `exponent`, wrapping. -/
def pow (base exponent : Word) : Word := powBits 256 base exponent.toNat

end Word

end Retrace
