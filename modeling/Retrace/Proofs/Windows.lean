import Mathlib.Algebra.Group.Nat.Defs
import Mathlib.Data.List.Induction
import Retrace.Bytes
/-!
# Retrace — byte strings, byte by byte

A window reads zero where its source has ended. Seen byte by byte
(`getElem?_window`), a window therefore does not notice zeros that are put
behind the source (`window_append_zeros`), nor whether it is taken of the
source or of the slice that holds what is asked for (`window_slice`). In the
same way the file says which byte an overwritten string has at each place
(`getElem?_overwrite`), and which the bytes of a number are
(`getElem?_ofNat`); they spell that number again, as far as they reach
(`toNat_ofNat`), and every string is the bytes of the number that it spells
(`ofNat_toNat`).
-/

namespace Retrace.Bytes

theorem eq_of_toList {a b : Bytes} (h : toList a = toList b) : a = b :=
  ByteArray.ext (Array.ext' h)

theorem length_toList (bytes : Bytes) : (toList bytes).length = bytes.size := rfl

theorem toList_append (a b : Bytes) : toList (a ++ b) = toList a ++ toList b :=
  ByteArray.toList_data_append

theorem toList_zeros (n : Nat) : toList (zeros n) = List.replicate n 0 :=
  Array.toList_replicate

theorem toList_extract (bytes : Bytes) (start stop : Nat) :
    toList (bytes.extract start stop) = ((toList bytes).drop start).take (stop - start) := by
  simp only [toList, ByteArray.data_extract, Array.toList_extract, List.extract_eq_take_drop]

/-- A range up to the end is what is left there. -/
theorem toList_extract_size (bytes : Bytes) (start : Nat) :
    toList (bytes.extract (min start bytes.size) bytes.size) = (toList bytes).drop start := by
  have hleft : ((toList bytes).drop (min start bytes.size)).length ≤
      bytes.size - min start bytes.size := by
    simp only [List.length_drop, length_toList, Nat.le_refl]
  rw [toList_extract, List.take_of_length_le hleft]
  rcases Nat.le_total start bytes.size with hle | hge
  · rw [Nat.min_eq_left hle]
  · rw [Nat.min_eq_right hge, ← length_toList, List.drop_length]
    exact (List.drop_eq_nil_of_le hge).symm

theorem toList_slice (bytes : Bytes) (start stop : Nat) :
    toList (slice bytes start stop) = ((toList bytes).drop start).take (stop - start) := by
  unfold slice
  split
  · rw [toList_extract]
    refine List.take_eq_take_iff.2 ?_
    rw [List.length_drop, length_toList]
    omega
  · rename_i hge
    have hnil : (toList bytes).drop start = [] :=
      List.drop_eq_nil_of_le (by rw [length_toList]; omega)
    rw [hnil, List.take_nil]
    rfl

/-- A slice ends with its source, so that no bound behind that matters. -/
theorem slice_min_stop {bytes : Bytes} {bound : Nat} (h : bytes.size ≤ bound) (start stop : Nat) :
    slice bytes start (min stop bound) = slice bytes start stop := by
  simp only [slice, Nat.min_assoc, Nat.min_eq_right h]

/-- **A window, byte by byte**: what the source holds there, and zero past its end. -/
theorem getElem?_window (bytes : Bytes) (offset size i : Nat) :
    (toList (window bytes offset size))[i]? =
      if i < size then some ((toList bytes)[offset + i]?.getD 0) else none := by
  have hheld : (toList (slice bytes offset (offset + size))).length =
      min (offset + size) bytes.size - offset := by
    rw [length_toList, size_slice]
  -- a window is what the slice holds, and zeros for the rest
  rw [window, toList_append, toList_zeros, size_slice, List.getElem?_append, hheld]
  split
  · rename_i hin
    have hi : i < size := by omega
    have hlt : offset + i < (toList bytes).length := by rw [length_toList]; omega
    rw [if_pos hi, toList_slice, List.getElem?_take_of_lt (by omega), List.getElem?_drop,
      List.getElem?_eq_getElem hlt, Option.getD_some]
  · rename_i hout
    rw [List.getElem?_replicate]
    by_cases hi : i < size
    · have hge : (toList bytes).length ≤ offset + i := by rw [length_toList]; omega
      rw [if_pos hi, if_pos (by omega), List.getElem?_eq_none hge, Option.getD_none]
    · rw [if_neg hi, if_neg (by omega)]

theorem getD_append_zeros (bytes : Bytes) (k i : Nat) :
    (toList (bytes ++ zeros k))[i]?.getD 0 = (toList bytes)[i]?.getD 0 := by
  rw [toList_append, toList_zeros, List.getElem?_append]
  split
  · rfl
  · rename_i hout
    rw [List.getElem?_replicate, List.getElem?_eq_none (Nat.le_of_not_lt hout)]
    split <;> rfl

/-- Zeros behind the source do not show. -/
theorem window_append_zeros (bytes : Bytes) (k offset size : Nat) :
    window (bytes ++ zeros k) offset size = window bytes offset size := by
  refine eq_of_toList (List.ext_getElem? fun i => ?_)
  rw [getElem?_window, getElem?_window, getD_append_zeros]

/-- A window may be taken of the slice that holds what is asked for. -/
theorem window_slice (bytes : Bytes) (offset size : Nat) :
    window (slice bytes offset (offset + size)) 0 size = window bytes offset size := by
  refine eq_of_toList (List.ext_getElem? fun i => ?_)
  rw [getElem?_window, getElem?_window, toList_slice, Nat.zero_add]
  split
  · rename_i hi
    rw [List.getElem?_take_of_lt (by omega), List.getElem?_drop]
  · rfl

/-! ## Maps from offsets to bytes -/

/-- The bytes that a map from offsets to bytes has in a range. -/
def ofMap (f : Nat → UInt8) (offset size : Nat) : Bytes :=
  ofList ((List.range size).map fun i => f (offset + i))

theorem getElem?_ofMap (f : Nat → UInt8) (offset size i : Nat) :
    (toList (ofMap f offset size))[i]? = if i < size then some (f (offset + i)) else none := by
  rw [ofMap, toList_ofList, List.getElem?_map]
  split
  · rename_i hi
    rw [List.getElem?_range hi, Option.map_some]
  · rename_i hi
    rw [List.getElem?_eq_none (by rw [List.length_range]; omega), Option.map_none]

theorem size_ofMap (f : Nat → UInt8) (offset size : Nat) : (ofMap f offset size).size = size := by
  simp [ofMap, ofList, ByteArray.size]

/-- A slice inside the string is what the string has there. -/
theorem slice_eq_ofMap {bytes : Bytes} {offset size : Nat} (hfit : offset + size ≤ bytes.size) :
    slice bytes offset (offset + size) =
      ofMap (fun a => (toList bytes)[a]?.getD 0) offset size := by
  refine eq_of_toList (List.ext_getElem? fun i => ?_)
  rw [toList_slice, getElem?_ofMap, Nat.add_sub_cancel_left, List.getElem?_take]
  split
  · have hlt : offset + i < (toList bytes).length := by rw [length_toList]; omega
    rw [List.getElem?_drop, List.getElem?_eq_getElem hlt, Option.getD_some]
  · rfl

/-! ## Overwriting and numbers -/

/-- **An overwritten string, byte by byte**: the new bytes in their range and the old ones
elsewhere. -/
theorem getElem?_overwrite {bytes data : Bytes} {offset : Nat}
    (hfit : offset + data.size ≤ bytes.size) (i : Nat) :
    (toList (overwrite bytes offset data))[i]? =
      if offset ≤ i ∧ i < offset + data.size then (toList data)[i - offset]?
      else (toList bytes)[i]? := by
  have hbytes : (toList bytes).length = bytes.size := rfl
  have hdata : (toList data).length = data.size := rfl
  have hsize : data.data.size = data.size := rfl
  have hheld : bytes.data.size = bytes.size := rfl
  -- what was before the range, the data, and what was behind the range
  have hparts : toList (overwrite bytes offset data) =
      (toList bytes).take offset ++ toList data ++ (toList bytes).drop (offset + data.size) := by
    rw [overwrite, ByteArray.copySlice_eq_append, toList_append, toList_append, toList_extract,
      toList_extract, toList_extract, List.drop_zero, List.drop_zero, Nat.zero_add, Nat.sub_zero,
      Nat.sub_zero, Nat.sub_zero, hsize, hheld, Nat.min_self,
      List.take_of_length_le (l := toList data) (by omega),
      List.take_of_length_le (l := (toList bytes).drop _) (by rw [List.length_drop]; omega)]
  have hbefore : ((toList bytes).take offset).length = offset := by
    rw [List.length_take]
    omega
  rw [hparts, List.append_assoc, List.getElem?_append, List.getElem?_append, hbefore, hdata,
    List.getElem?_drop]
  by_cases hlow : i < offset
  · rw [if_pos hlow, if_neg (by omega), List.getElem?_take_of_lt hlow]
  · rw [if_neg hlow]
    by_cases hin : i - offset < data.size
    · rw [if_pos hin, if_pos (by omega)]
    · rw [if_neg hin, if_neg (by omega)]
      congr 1
      omega

/-- **A number, byte by byte**, most significant first. -/
theorem getElem?_ofNatOnto (width n : Nat) (rest : List UInt8) (i : Nat) :
    (ofNatOnto width n rest)[i]? =
      if i < width then some (UInt8.ofNat (n / 256 ^ (width - 1 - i))) else rest[i - width]? := by
  induction width generalizing n rest with
  | zero => rfl
  | succ width ih =>
    rw [ofNatOnto, ih]
    rcases Nat.lt_trichotomy i width with hlt | rfl | hgt
    · have hpower : n / 256 / 256 ^ (width - 1 - i) = n / 256 ^ (width + 1 - 1 - i) := by
        rw [Nat.div_div_eq_div_mul, ← Nat.pow_succ']
        congr 2
        omega
      rw [if_pos hlt, if_pos (by omega), hpower]
    -- the byte put in front last is the least significant one
    · have hlow : UInt8.ofNat (n % 256) = UInt8.ofNat n := by
        refine UInt8.toNat_inj.1 ?_
        rw [UInt8.toNat_ofNat', UInt8.toNat_ofNat', Nat.mod_mod]
      rw [if_neg (Nat.lt_irrefl i), if_pos (Nat.lt_succ_self i), Nat.sub_self,
        Nat.add_sub_cancel, Nat.sub_self, Nat.pow_zero, Nat.div_one, ← hlow]
      rfl
    · rw [if_neg (by omega), if_neg (by omega), ← Nat.sub_sub]
      obtain ⟨k, hk⟩ := Nat.exists_eq_add_of_lt hgt
      rw [show i - width = k + 1 by omega]
      rfl

theorem getElem?_ofNat (width n i : Nat) :
    (toList (ofNat width n))[i]? =
      if i < width then some (UInt8.ofNat (n / 256 ^ (width - 1 - i))) else none := by
  rw [ofNat, toList_ofList, getElem?_ofNatOnto, List.getElem?_nil]

/-- The bytes of a number go on from the digits in front of them. -/
theorem toNat_ofNatOnto (width n : Nat) (rest : List UInt8) :
    toNat (ofNatOnto width n rest) =
      rest.foldl (fun n byte => 256 * n + byte.toNat) (n % 256 ^ width) := by
  induction width generalizing n rest with
  | zero => rw [ofNatOnto, Nat.pow_zero, Nat.mod_one, toNat]
  | succ width ih =>
    have hbyte : (UInt8.ofNat (n % 256)).toNat = n % 256 := by
      rw [UInt8.toNat_ofNat']
      omega
    rw [ofNatOnto, ih, List.foldl_cons, hbyte, Nat.pow_succ', Nat.mod_mul, Nat.add_comm]

/-- **A number is read back from its bytes**, as far as there are bytes for it. -/
theorem toNat_ofNat (width n : Nat) : toNat (toList (ofNat width n)) = n % 256 ^ width := by
  rw [ofNat, toList_ofList, toNat_ofNatOnto, List.foldl_nil]

theorem toNat_concat (bytes : List UInt8) (byte : UInt8) :
    toNat (bytes ++ [byte]) = 256 * toNat bytes + byte.toNat := by
  rw [toNat, List.foldl_append]
  rfl

/-- There is a power of 256 for each byte. -/
theorem toNat_lt (bytes : List UInt8) : toNat bytes < 256 ^ bytes.length := by
  induction bytes using List.reverseRecOn with
  | nil => exact Nat.one_pos
  | append_singleton bytes byte ih =>
    have hbyte := byte.toNat_lt
    rw [toNat_concat, List.length_append, List.length_singleton, Nat.pow_succ']
    omega

/-- The bytes of the number that some bytes spell are those bytes, by taking off the last one. -/
theorem ofNatOnto_toNat (bytes rest : List UInt8) :
    ofNatOnto bytes.length (toNat bytes) rest = bytes ++ rest := by
  induction bytes using List.reverseRecOn generalizing rest with
  | nil => rfl
  | append_singleton bytes byte ih =>
    have hbyte := byte.toNat_lt
    have hquotient : (256 * toNat bytes + byte.toNat) / 256 = toNat bytes := by omega
    have hremainder : (256 * toNat bytes + byte.toNat) % 256 = byte.toNat := by omega
    rw [toNat_concat, List.length_append, List.length_singleton, ofNatOnto, hquotient, hremainder,
      UInt8.ofNat_toNat, ih, List.append_assoc]
    rfl

/-- **Bytes are read back from the number that they spell.** -/
theorem ofNat_toNat {bytes : Bytes} {width : Nat} (h : bytes.size = width) :
    ofNat width (toNat (toList bytes)) = bytes := by
  subst h
  refine eq_of_toList ?_
  rw [ofNat, toList_ofList, ← length_toList, ofNatOnto_toNat, List.append_nil]

end Retrace.Bytes
