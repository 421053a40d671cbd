import Retrace.Proofs.Machine.Accesses
/-!
# Retrace — the sparse view of memory

Memory is shown as the words of its units, and units of zeros are left out. The
view says which words there are and where (`mem_nonZeroWords_iff`), and a unit is
left out just if none of its bytes is different from zero
(`unitWord_eq_zero_iff`). Nothing is lost by that: written over zeros, each at
its offset, the words of the view are the memory again (`spread_nonZeroWords`),
because bytes are read back from the word that they spell
(`Word.toBytes_ofBytes`) and because memory ends with a unit.
-/

namespace Retrace

namespace Word

/-- **Bytes are read back from the word that they spell**, if they are as many as a word has. -/
theorem toBytes_ofBytes {bytes : Bytes} (h : bytes.size = 32) :
    toBytes (ofBytes bytes) = bytes := by
  have hwidth : (256 : Nat) ^ 32 = 2 ^ 256 := by decide
  have hlt := Bytes.toNat_lt (Bytes.toList bytes)
  rw [Bytes.length_toList, h, hwidth] at hlt
  rw [toBytes, ofBytes, BitVec.toNat_ofNat, Nat.mod_eq_of_lt hlt, Bytes.ofNat_toNat h]

end Word

attribute [ext] Memory

namespace Memory

variable {m : Memory} {index count offset : Nat} {w : Word}

/-! ## The word of a unit -/

/-- The bytes of memory are whole units. -/
theorem unitSize_mul_size_div (m : Memory) : unitSize * (m.size / unitSize) = m.size := by
  have haligned := m.aligned
  simp only [size, unitSize] at haligned ⊢
  omega

/-- A unit ends inside the memory. -/
theorem unit_le_size (h : index < m.size / unitSize) : unitSize * index + 32 ≤ m.size := by
  simp only [unitSize] at h ⊢
  omega

/-- Where a multiple of 32 is inside the memory there is a unit. -/
theorem exists_unit (haligned : offset % 32 = 0) (hlt : offset < m.size) :
    ∃ index < m.size / unitSize, offset = unitSize * index := by
  have hunits := m.unitSize_mul_size_div
  simp only [unitSize] at hunits ⊢
  exact ⟨offset / 32, by omega, by omega⟩

/-- The word of a unit is spelt by its bytes. -/
theorem unitWord_eq (h : index < m.size / unitSize) :
    m.unitWord index = Word.ofBytes (Bytes.ofMap m.byteAt (unitSize * index) 32) := by
  have hend : unitSize * (index + 1) = unitSize * index + 32 := rfl
  rw [unitWord, hend, slice_bytes fun _ => unit_le_size h]

/-- Its bytes are those that memory has there. -/
theorem getElem?_toBytes_unitWord (h : index < m.size / unitSize) (place : Nat) :
    (Bytes.toList (m.unitWord index).toBytes)[place]? =
      if place < 32 then some (m.byteAt (unitSize * index + place)) else none := by
  rw [unitWord_eq h, Word.toBytes_ofBytes (Bytes.size_ofMap _ _ _), Bytes.getElem?_ofMap]

/-- **A unit is zero if all its bytes are.** -/
theorem unitWord_eq_zero_iff (h : index < m.size / unitSize) :
    m.unitWord index = 0 ↔ ∀ place < 32, m.byteAt (unitSize * index + place) = 0 := by
  have hzero (place : Nat) :
      (Bytes.toList (Word.toBytes 0))[place]? = if place < 32 then some 0 else none := by
    rw [Word.toBytes, Bytes.getElem?_ofNat]
    simp
  constructor
  · intro hword place hplace
    have hbyte := getElem?_toBytes_unitWord h place
    rw [hword, hzero, if_pos hplace, if_pos hplace] at hbyte
    exact (Option.some.inj hbyte).symm
  · intro hbytes
    have hsame : (m.unitWord index).toBytes = Word.toBytes 0 := by
      refine Bytes.eq_of_toList (List.ext_getElem? fun place => ?_)
      rw [getElem?_toBytes_unitWord h, hzero]
      split
      · rename_i hplace
        rw [hbytes place hplace]
      · rfl
    rw [← (m.unitWord index).ofBytes_toBytes, hsame, Word.ofBytes_toBytes]

/-! ## What the view lists -/

/-- The entry of a unit in the view, if it has one. -/
def entry? (m : Memory) (index : Nat) : Option (Nat × Word) :=
  if m.unitWord index = 0 then none else some (unitSize * index, m.unitWord index)

theorem nonZeroWords_eq (m : Memory) :
    m.nonZeroWords = (List.range (m.size / unitSize)).filterMap m.entry? := rfl

theorem entry?_eq_some_iff :
    m.entry? index = some (offset, w) ↔
      offset = unitSize * index ∧ m.unitWord index = w ∧ w ≠ 0 := by
  unfold entry?
  rw [Option.ite_none_left_eq_some, Option.some_inj, Prod.mk.injEq]
  constructor
  · rintro ⟨hne, rfl, rfl⟩
    exact ⟨rfl, rfl, hne⟩
  · rintro ⟨rfl, rfl, hne⟩
    exact ⟨hne, rfl, rfl⟩

/-- **The view lists the units that are not zero**, and no others. -/
theorem mem_nonZeroWords_iff : (offset, w) ∈ m.nonZeroWords ↔
    ∃ index < m.size / unitSize, offset = unitSize * index ∧ m.unitWord index = w ∧ w ≠ 0 := by
  simp only [nonZeroWords_eq, List.mem_filterMap, List.mem_range, entry?_eq_some_iff]

/-- It lists them in the order of their offsets. -/
theorem pairwise_nonZeroWords (m : Memory) :
    (m.nonZeroWords.map Prod.fst).Pairwise (· < ·) := by
  rw [List.pairwise_map, nonZeroWords_eq, List.pairwise_filterMap]
  refine List.pairwise_lt_range.imp fun hlt => ?_
  rintro ⟨low, _⟩ hlow ⟨high, _⟩ hhigh
  obtain ⟨rfl, -⟩ := entry?_eq_some_iff.1 hlow
  obtain ⟨rfl, -⟩ := entry?_eq_some_iff.1 hhigh
  exact Nat.mul_lt_mul_of_pos_left hlt (by decide)

/-- An offset is listed if one of the bytes behind it is not zero. -/
theorem exists_mem_nonZeroWords_iff : (∃ w, (offset, w) ∈ m.nonZeroWords) ↔
    offset % 32 = 0 ∧
      ∃ address, offset ≤ address ∧ address < offset + 32 ∧ m.byteAt address ≠ 0 := by
  constructor
  · rintro ⟨w, h⟩
    obtain ⟨index, hindex, rfl, rfl, hne⟩ := mem_nonZeroWords_iff.1 h
    rw [Ne, unitWord_eq_zero_iff hindex] at hne
    push Not at hne
    obtain ⟨place, hplace, hbyte⟩ := hne
    exact ⟨Nat.mul_mod_right 32 index, unitSize * index + place, by omega, by omega, hbyte⟩
  · rintro ⟨haligned, address, hlow, hhigh, hbyte⟩
    have hinside : address < m.size := by
      by_contra hbeyond
      exact hbyte (byteAt_of_size_le (by omega))
    have hlt : offset < m.size := Nat.lt_of_le_of_lt hlow hinside
    obtain ⟨index, hindex, rfl⟩ := exists_unit haligned hlt
    refine ⟨m.unitWord index, mem_nonZeroWords_iff.2 ⟨index, hindex, rfl, rfl, fun hzero => ?_⟩⟩
    have hplace := (unitWord_eq_zero_iff hindex).1 hzero (address - unitSize * index) (by omega)
    rw [Nat.add_sub_cancel' hlow] at hplace
    exact hbyte hplace

/-! ## From the view to the memory -/

/-- Zeros with the words of a view written over them, each at its offset. -/
def spread (size : Nat) (view : List (Nat × Word)) : Bytes :=
  view.foldl (fun bytes entry => Bytes.overwrite bytes entry.1 entry.2.toBytes) (Bytes.zeros size)

/-- What memory has in its first units, and zeros behind them. -/
def below (m : Memory) (count : Nat) : Bytes :=
  Bytes.ofMap (fun address => if address < unitSize * count then m.byteAt address else 0) 0 m.size

theorem getElem?_below (m : Memory) (count address : Nat) :
    (Bytes.toList (m.below count))[address]? =
      if address < m.size then some (if address < unitSize * count then m.byteAt address else 0)
      else none := by
  rw [below, Bytes.getElem?_ofMap, Nat.zero_add]

theorem size_below (m : Memory) (count : Nat) : (m.below count).size = m.size :=
  Bytes.size_ofMap _ _ _

theorem below_zero (m : Memory) : m.below 0 = Bytes.zeros m.size := by
  refine Bytes.eq_of_toList (List.ext_getElem? fun address => ?_)
  rw [getElem?_below, Bytes.toList_zeros, List.getElem?_replicate]
  rfl

theorem below_all (m : Memory) : m.below (m.size / unitSize) = m.bytes := by
  refine Bytes.eq_of_toList (List.ext_getElem? fun address => ?_)
  rw [getElem?_below, unitSize_mul_size_div]
  split
  · rename_i hlt
    exact (getElem?_bytes hlt).symm
  · rename_i hge
    exact (List.getElem?_eq_none (Nat.le_of_not_lt hge)).symm

/-- One more unit is there once its word is written. -/
theorem overwrite_below (h : count < m.size / unitSize) :
    Bytes.overwrite (m.below count) (unitSize * count) (m.unitWord count).toBytes =
      m.below (count + 1) := by
  have hfit : unitSize * count + (m.unitWord count).toBytes.size ≤ (m.below count).size := by
    rw [Word.size_toBytes, size_below]
    exact unit_le_size h
  refine Bytes.eq_of_toList (List.ext_getElem? fun address => ?_)
  rw [Bytes.getElem?_overwrite hfit, getElem?_below, getElem?_below, Word.size_toBytes,
    getElem?_toBytes_unitWord h]
  rw [Word.size_toBytes, size_below] at hfit
  split
  · rename_i hin
    have haddress : unitSize * count + (address - unitSize * count) = address := by omega
    rw [if_pos (by omega), if_pos (by omega), haddress, if_pos]
    simp only [unitSize] at hin ⊢
    omega
  · rename_i hout
    have hsame : address < unitSize * count ↔ address < unitSize * (count + 1) := by
      simp only [unitSize] at hout ⊢
      omega
    simp only [hsame]

/-- One more unit is there already if it is zero. -/
theorem below_succ_of_zero (h : count < m.size / unitSize) (hzero : m.unitWord count = 0) :
    m.below (count + 1) = m.below count := by
  have hbytes := (unitWord_eq_zero_iff h).1 hzero
  refine Bytes.eq_of_toList (List.ext_getElem? fun address => ?_)
  rw [getElem?_below, getElem?_below]
  by_cases hin : unitSize * count ≤ address ∧ address < unitSize * (count + 1)
  · have hbyte := hbytes (address - unitSize * count) (by simp only [unitSize] at hin ⊢; omega)
    rw [Nat.add_sub_cancel' hin.1] at hbyte
    rw [if_pos hin.2, if_neg (by omega : ¬ address < unitSize * count), hbyte]
  · have hsame : address < unitSize * (count + 1) ↔ address < unitSize * count := by
      simp only [unitSize] at hin ⊢
      omega
    simp only [hsame]

/-- **The first units of the view are the first units of memory**, by induction on their number. -/
theorem spread_range (h : count ≤ m.size / unitSize) :
    spread m.size ((List.range count).filterMap m.entry?) = m.below count := by
  induction count with
  | zero => exact m.below_zero.symm
  | succ count ih =>
    have hlt : count < m.size / unitSize := h
    have hfirst := ih (Nat.le_of_succ_le h)
    rw [List.range_succ, List.filterMap_append, spread, List.foldl_append, ← spread, hfirst]
    by_cases hzero : m.unitWord count = 0
    · have hentry : m.entry? count = none := if_pos hzero
      rw [List.filterMap_cons_none hentry, below_succ_of_zero hlt hzero]
      rfl
    · have hentry : m.entry? count = some (unitSize * count, m.unitWord count) := if_neg hzero
      rw [List.filterMap_cons_some hentry, ← overwrite_below hlt]
      rfl

/-- **The view is the memory**, written over zeros. -/
theorem spread_nonZeroWords (m : Memory) : spread m.size m.nonZeroWords = m.bytes := by
  rw [nonZeroWords_eq, spread_range (Nat.le_refl _), below_all]

/-- Memories of one size that look alike are the same. -/
theorem eq_of_nonZeroWords {other : Memory} (hsize : other.size = m.size)
    (hview : other.nonZeroWords = m.nonZeroWords) : other = m := by
  have hbytes : other.bytes = m.bytes := by
    rw [← other.spread_nonZeroWords, ← m.spread_nonZeroWords, hsize, hview]
  exact Memory.ext hbytes

/-! ## Loading what the view lists -/

/-- **The word of a unit is what is loaded there**, and memory holds it already. -/
theorem loadWord_unit (fits : m.size < quantityBound) (h : index < m.size / unitSize) :
    m.loadWord (unitSize * index) = .ok (m.unitWord index, m) := by
  have hend : touchedEnd (unitSize * index) 32 ≤ m.size := by
    rw [touchedEnd_of_ne (by decide)]
    simp only [units, unitSize] at h ⊢
    omega
  rw [loadWord, load_of_le (Nat.lt_of_le_of_lt hend fits) hend, unitWord_eq h]
  rfl

/-- The size of a memory stays a quantity under any access. -/
theorem size_after_lt (fits : m.size < quantityBound) (access : Access) :
    (m.after access).size < quantityBound := by
  cases happly : access.apply m with
  | ok result =>
    obtain ⟨answer, next⟩ := result
    have hend := (m.settledBy_apply access).holds happly
    rw [after_of_ok happly, (performs_apply happly).size]
    omega
  | error cause =>
    rw [after_of_error happly]
    exact fits

/-- And under any number of them, by induction. -/
theorem size_afterAll_lt (fits : m.size < quantityBound) (accesses : List Access) :
    (m.afterAll accesses).size < quantityBound := by
  induction accesses generalizing m with
  | nil => exact fits
  | cons access rest ih => exact ih (size_after_lt fits access)

end Memory

/-- **The view of memory is lossless.** After any accesses to an empty memory the view lists offsets
in ascending order, all of them multiples of 32 inside the memory and each with a word that is not
zero; an offset is listed just if one of the 32 bytes from there on is not zero. These words,
written over as many zeros as memory has bytes, are the bytes of memory again, so that a memory of
that size with that view is the same one. A word that is listed is the one that is loaded at its
offset, and at a multiple of 32 inside the memory that is not listed zero is loaded; to load them
changes nothing. -/
theorem view_lossless (accesses : List Memory.Access) :
    let m := Memory.empty.afterAll accesses
    let view := m.nonZeroWords
    (view.map Prod.fst).Pairwise (· < ·) ∧
    (∀ entry ∈ view, entry.1 % 32 = 0 ∧ entry.1 < m.size ∧ entry.2 ≠ 0) ∧
    (∀ offset, (∃ w, (offset, w) ∈ view) ↔ offset % 32 = 0 ∧
      ∃ address, offset ≤ address ∧ address < offset + 32 ∧ m.byteAt address ≠ 0) ∧
    Memory.spread m.size view = m.bytes ∧
    (∀ other : Memory, other.size = m.size → other.nonZeroWords = view → other = m) ∧
    (∀ entry ∈ view, m.loadWord entry.1 = .ok (entry.2, m)) ∧
    ∀ offset < m.size, offset % 32 = 0 → (∀ w, (offset, w) ∉ view) →
      m.loadWord offset = .ok (0, m) := by
  intro m view
  have fits : m.size < quantityBound := Memory.size_afterAll_lt (by decide) accesses
  refine ⟨m.pairwise_nonZeroWords, ?_, fun offset => Memory.exists_mem_nonZeroWords_iff,
    m.spread_nonZeroWords, fun other => Memory.eq_of_nonZeroWords, ?_, ?_⟩
  · rintro ⟨offset, w⟩ hentry
    obtain ⟨index, hindex, rfl, -, hne⟩ := Memory.mem_nonZeroWords_iff.1 hentry
    have hend := Memory.unit_le_size hindex
    exact ⟨Nat.mul_mod_right 32 index, by omega, hne⟩
  · rintro ⟨offset, w⟩ hentry
    obtain ⟨index, hindex, rfl, rfl, -⟩ := Memory.mem_nonZeroWords_iff.1 hentry
    exact Memory.loadWord_unit fits hindex
  · intro offset hlt haligned hunlisted
    obtain ⟨index, hindex, rfl⟩ := Memory.exists_unit haligned hlt
    have hzero : m.unitWord index = 0 := by
      by_contra hne
      exact hunlisted _ (Memory.mem_nonZeroWords_iff.2 ⟨index, hindex, rfl, rfl, hne⟩)
    have hload := Memory.loadWord_unit fits hindex
    rw [hzero] at hload
    exact hload

/-- The last byte of a unit and a word two units further on: the unit between them is zero, is not
listed and is loaded as zero. -/
theorem view_lossless_of_gap :
    let accesses : List Memory.Access := [.store 31 (.ofList [0xff]), .storeWord 64 5]
    let m := Memory.empty.afterAll accesses
    m.size = 96 ∧ m.nonZeroWords = [(0, 0xff), (64, 5)] ∧
      Memory.spread 96 [(0, 0xff), (64, 5)] = m.bytes ∧
      m.loadWord 0 = .ok (0xff, m) ∧ m.loadWord 32 = .ok (0, m) ∧ m.loadWord 64 = .ok (5, m) := by
  intro accesses m
  have hsize : m.size = 96 := by decide +kernel
  have hview : m.nonZeroWords = [(0, 0xff), (64, 5)] := by decide +kernel
  obtain ⟨-, -, -, hspread, -, hlisted, hunlisted⟩ := view_lossless accesses
  rw [show (Memory.empty.afterAll accesses).nonZeroWords = [(0, 0xff), (64, 5)] from hview]
    at hspread hlisted hunlisted
  rw [show (Memory.empty.afterAll accesses).size = 96 from hsize] at hspread hunlisted
  refine ⟨hsize, hview, hspread, hlisted (0, 0xff) (by simp), hunlisted 32 (by decide) rfl ?_,
    hlisted (64, 5) (by simp)⟩
  intro w hw
  simp at hw

end Retrace
