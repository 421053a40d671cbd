import Retrace.Word
/-!
# Retrace — the Keccak-256 hash

The sponge on a state of 25 lanes of 64 bits, five rows of five. The message is
padded to a multiple of the 136-byte rate with a byte `0x01`, zeros and a final
bit `0x80`; each block is added to the first 17 lanes, row by row, and the
state permuted by 24 rounds. The hash is the first four lanes, least
significant byte first, read as a word.
-/

namespace Retrace

namespace Keccak

/-! ## Rows -/

/-- Five lanes of 64 bits. -/
structure Row where
  a : UInt64
  b : UInt64
  c : UInt64
  d : UInt64
  e : UInt64

/-- Rotation to the left, by less than the width. -/
@[inline] def rotateLeft (lane amount : UInt64) : UInt64 :=
  if amount = 0 then lane else (lane <<< amount) ||| (lane >>> (64 - amount))

namespace Row

/-- No lane has a bit set. -/
def zero : Row := ⟨0, 0, 0, 0, 0⟩

/-- The sum of two rows, bit by bit. -/
@[inline] def add (r s : Row) : Row :=
  ⟨r.a ^^^ s.a, r.b ^^^ s.b, r.c ^^^ s.c, r.d ^^^ s.d, r.e ^^^ s.e⟩

/-- Each lane rotated to the left by its own amount. -/
@[inline] def rotate (r amounts : Row) : Row :=
  ⟨rotateLeft r.a amounts.a, rotateLeft r.b amounts.b, rotateLeft r.c amounts.c,
   rotateLeft r.d amounts.d, rotateLeft r.e amounts.e⟩

/-- For each lane the sum of the lane before it and of the lane behind it, that one rotated by
one. The row is a ring. -/
@[inline] def neighbours (r : Row) : Row :=
  ⟨r.e ^^^ rotateLeft r.b 1, r.a ^^^ rotateLeft r.c 1, r.b ^^^ rotateLeft r.d 1,
   r.c ^^^ rotateLeft r.e 1, r.d ^^^ rotateLeft r.a 1⟩

/-- Combine every lane with the next two. -/
@[inline] def combine (r : Row) : Row :=
  ⟨r.a ^^^ (~~~r.b &&& r.c), r.b ^^^ (~~~r.c &&& r.d), r.c ^^^ (~~~r.d &&& r.e),
   r.d ^^^ (~~~r.e &&& r.a), r.e ^^^ (~~~r.a &&& r.b)⟩

end Row

/-! ## The permutation -/

/-- The permuted state. -/
structure Lanes where
  first : Row
  second : Row
  third : Row
  fourth : Row
  fifth : Row

namespace Lanes

/-- No lane has a bit set. -/
def zero : Lanes := ⟨.zero, .zero, .zero, .zero, .zero⟩

/-- The sum of two states, bit by bit. -/
@[inline] def add (s t : Lanes) : Lanes :=
  ⟨s.first.add t.first, s.second.add t.second, s.third.add t.third, s.fourth.add t.fourth,
   s.fifth.add t.fifth⟩

/-- Add to every lane the parities of its two neighbouring columns. -/
@[inline] def diffuse (s : Lanes) : Lanes :=
  let parities := (((s.first.add s.second).add s.third).add s.fourth).add s.fifth
  let effect := parities.neighbours
  s.add ⟨effect, effect, effect, effect, effect⟩

/-- Rotate every lane by the amount of its place. -/
@[inline] def rotate (s : Lanes) : Lanes where
  first := s.first.rotate ⟨0, 1, 62, 28, 27⟩
  second := s.second.rotate ⟨36, 44, 6, 55, 20⟩
  third := s.third.rotate ⟨3, 10, 43, 25, 39⟩
  fourth := s.fourth.rotate ⟨41, 45, 15, 21, 8⟩
  fifth := s.fifth.rotate ⟨18, 2, 61, 56, 14⟩

/-- Move every lane to its new place: a row comes to stand in a column, shifted by three lanes
from one row to the next. -/
@[inline] def scatter (s : Lanes) : Lanes where
  first := ⟨s.first.a, s.second.b, s.third.c, s.fourth.d, s.fifth.e⟩
  second := ⟨s.first.d, s.second.e, s.third.a, s.fourth.b, s.fifth.c⟩
  third := ⟨s.first.b, s.second.c, s.third.d, s.fourth.e, s.fifth.a⟩
  fourth := ⟨s.first.e, s.second.a, s.third.b, s.fourth.c, s.fifth.d⟩
  fifth := ⟨s.first.c, s.second.d, s.third.e, s.fourth.a, s.fifth.b⟩

/-- Combine every lane with the next two of its row. -/
@[inline] def combine (s : Lanes) : Lanes :=
  ⟨s.first.combine, s.second.combine, s.third.combine, s.fourth.combine, s.fifth.combine⟩

/-- One round; its constant is added to the first lane. -/
def round (s : Lanes) (constant : UInt64) : Lanes :=
  s.diffuse.rotate.scatter.combine.add ⟨⟨constant, 0, 0, 0, 0⟩, .zero, .zero, .zero, .zero⟩

end Lanes

/-- The constants of the 24 rounds. -/
def roundConstants : List UInt64 :=
  [0x0000000000000001, 0x0000000000008082, 0x800000000000808a, 0x8000000080008000,
   0x000000000000808b, 0x0000000080000001, 0x8000000080008081, 0x8000000000008009,
   0x000000000000008a, 0x0000000000000088, 0x0000000080008009, 0x000000008000000a,
   0x000000008000808b, 0x800000000000008b, 0x8000000000008089, 0x8000000000008003,
   0x8000000000008002, 0x8000000000000080, 0x000000000000800a, 0x800000008000000a,
   0x8000000080008081, 0x8000000000008080, 0x0000000080000001, 0x8000000080008008]

/-- The permutation: 24 rounds. -/
def permute (s : Lanes) : Lanes := roundConstants.foldl Lanes.round s

/-! ## The sponge -/

/-- The bytes taken in by one block. -/
def rate : Nat := 136

/-- What follows a message of the given size to fill its last block. -/
def padding (size : Nat) : Bytes :=
  let gap := rate - size % rate
  if gap = 1 then Bytes.ofList [0x81]
  else Bytes.ofList [0x01] ++ Bytes.zeros (gap - 2) ++ Bytes.ofList [0x80]

/-- The byte at `offset`, zero where the bytes have ended. -/
@[inline] def byteOrZero (bytes : Bytes) (offset : Nat) : UInt64 :=
  if h : offset < bytes.size then (bytes[offset]).toUInt64 else 0

/-- The lane whose least significant byte stands at `offset`. -/
def laneAt (bytes : Bytes) (offset : Nat) : UInt64 :=
  byteOrZero bytes offset ||| byteOrZero bytes (offset + 1) <<< 8 |||
    byteOrZero bytes (offset + 2) <<< 16 ||| byteOrZero bytes (offset + 3) <<< 24 |||
    byteOrZero bytes (offset + 4) <<< 32 ||| byteOrZero bytes (offset + 5) <<< 40 |||
    byteOrZero bytes (offset + 6) <<< 48 ||| byteOrZero bytes (offset + 7) <<< 56

/-- The row of which the first lane stands at `offset`. -/
def rowAt (bytes : Bytes) (offset : Nat) : Row :=
  ⟨laneAt bytes offset, laneAt bytes (offset + 8), laneAt bytes (offset + 16),
   laneAt bytes (offset + 24), laneAt bytes (offset + 32)⟩

/-- The 17 lanes of the block that starts at `offset`, as a state. -/
def blockAt (bytes : Bytes) (offset : Nat) : Lanes where
  first := rowAt bytes offset
  second := rowAt bytes (offset + 40)
  third := rowAt bytes (offset + 80)
  fourth := ⟨laneAt bytes (offset + 120), laneAt bytes (offset + 128), 0, 0, 0⟩
  fifth := .zero

/-- Take in the block that starts at `offset`. -/
def absorb (bytes : Bytes) (s : Lanes) (offset : Nat) : Lanes :=
  permute (s.add (blockAt bytes offset))

/-- The eight bytes of a lane, least significant first. -/
def laneBytes (lane : UInt64) : List UInt8 :=
  (List.range 8).map fun i => (lane >>> (8 * UInt64.ofNat i)).toUInt8

/-- The Keccak-256 hash of a byte string, as a word. -/
def hash (message : Bytes) : Word :=
  let padded := message ++ padding message.size
  let blocks := List.range (padded.size / rate)
  let row := (blocks.foldl (fun s block => absorb padded s (rate * block)) Lanes.zero).first
  Word.ofBytes (Bytes.ofList ([row.a, row.b, row.c, row.d].flatMap laneBytes))

end Keccak

end Retrace
