import Retrace.Proofs.Machine.Checks
import Retrace.Proofs.Machine.Sources
/-!
# Retrace — memory under any accesses

Memory can be accessed in six ways: it is grown, read or written, by ranges or
by words. Each of them reaches a range, and only the range decides whether it
succeeds and how far memory grows; what it stores depends on its operands alone.
So a memory that began empty is known from the accesses to it that have
succeeded: it ends at the highest end of their ranges, rounded up to units, and
it has at each address the byte that the latest of them has stored there, or
zero. This is kept by every access that succeeds (`Memory.Recalls.apply`), one
that fails leaves memory as it is, and hence it holds after any accesses, in any
order (`Memory.Recalls.afterAll`).
-/

namespace Retrace

namespace Word

/-- **A word is read back from its bytes.** -/
theorem ofBytes_toBytes (w : Word) : ofBytes (toBytes w) = w := by
  have hwidth : (256 : Nat) ^ 32 = 2 ^ 256 := by decide
  rw [ofBytes, toBytes, Bytes.toNat_ofNat, hwidth, Nat.mod_eq_of_lt w.isLt, BitVec.ofNat_toNat,
    BitVec.setWidth_eq]

end Word

namespace Memory

/-! ## Accesses -/

/-- An access to memory. -/
inductive Access where
  | resize (size : Nat)
  | load (offset size : Nat)
  | loadWord (offset : Nat)
  | store (offset : Nat) (data : Bytes)
  | storePadded (offset : Nat) (data : Bytes) (size : Nat)
  | storeWord (offset : Nat) (word : Word)

/-- What an access that succeeds gives to its caller. -/
inductive Answer where
  | done
  | bytes (read : Bytes)
  | word (read : Word)
  deriving DecidableEq

namespace Access

/-- Make an access: what it gives, and the memory that it leaves. -/
def apply (m : Memory) : Access → Except Fault (Answer × Memory)
  | .resize size => do
    let next ← m.resize size
    .ok (.done, next)
  | .load offset size => do
    let (read, next) ← m.load offset size
    .ok (.bytes read, next)
  | .loadWord offset => do
    let (read, next) ← m.loadWord offset
    .ok (.word read, next)
  | .store offset data => do
    let next ← m.store offset data
    .ok (.done, next)
  | .storePadded offset data size => do
    let next ← m.storePadded offset data size
    .ok (.done, next)
  | .storeWord offset word => do
    let next ← m.storeWord offset word
    .ok (.done, next)

/-- The range that an access reaches: its offset and its size. -/
def range : Access → Nat × Nat
  | .resize size => (0, size)
  | .load offset size => (offset, size)
  | .loadWord offset => (offset, 32)
  | .store offset data => (offset, data.size)
  | .storePadded offset _ size => (offset, size)
  | .storeWord offset _ => (offset, 32)

/-- Where the range of an access ends, if there is anything in it. -/
def stop (access : Access) : Nat :=
  if access.range.2 = 0 then 0 else access.range.1 + access.range.2

/-- The byte that an access stores at a place of its range, if it stores any: of data continued with
zeros, or of a word, most significant byte first. -/
def storedByte? (place : Nat) : Access → Option UInt8
  | .store _ data | .storePadded _ data _ => some (data.zeroExtended place)
  | .storeWord _ word => some (UInt8.ofNat (word.toNat / 256 ^ (31 - place)))
  | _ => none

/-- The byte that an access stores at an address, if it stores one there. -/
def stored? (access : Access) (address : Nat) : Option UInt8 :=
  let (offset, size) := access.range
  if offset ≤ address ∧ address < offset + size then access.storedByte? (address - offset) else none

/-- What an access gives where the bytes at all addresses are known. -/
def answer (held : Nat → UInt8) : Access → Answer
  | .load offset size => .bytes (Bytes.ofMap held offset size)
  | .loadWord offset => .word (Word.ofBytes (Bytes.ofMap held offset 32))
  | _ => .done

end Access

/-! ## Accesses in turn -/

/-- The memory after an access. One that fails leaves it as it is. -/
def after (m : Memory) (access : Access) : Memory :=
  match access.apply m with
  | .ok (_, next) => next
  | .error _ => m

theorem after_of_ok {m next : Memory} {access : Access} {answer : Answer}
    (h : access.apply m = .ok (answer, next)) : m.after access = next := by
  unfold after
  rw [h]

theorem after_of_error {m : Memory} {access : Access} {cause : Fault}
    (h : access.apply m = .error cause) : m.after access = m := by
  unfold after
  rw [h]

/-- The memory after accesses in turn. -/
def afterAll (m : Memory) (accesses : List Access) : Memory := accesses.foldl after m

/-- Of accesses in turn those that succeed. -/
def succeeding (m : Memory) : List Access → List Access
  | [] => []
  | access :: rest =>
    match access.apply m with
    | .ok (_, next) => access :: next.succeeding rest
    | .error _ => m.succeeding rest

/-- The highest end that accesses have reached. -/
def highWater (past : List Access) : Nat := (past.map Access.stop).foldr max 0

/-- The byte that the latest of the accesses to store one at the address has stored, or zero. -/
def held (past : List Access) (address : Nat) : UInt8 :=
  (past.reverse.findSome? fun access => access.stored? address).getD 0

theorem highWater_append (past : List Access) (access : Access) :
    highWater (past ++ [access]) = max (highWater past) access.stop := by
  induction past with
  | nil => rw [List.nil_append, highWater, highWater, Nat.max_comm]; rfl
  | cons first past ih =>
    have hcons : ∀ rest, highWater (first :: rest) = max first.stop (highWater rest) := fun _ => rfl
    rw [List.cons_append, hcons, hcons, ih, Nat.max_assoc]

theorem held_append (past : List Access) (access : Access) (address : Nat) :
    held (past ++ [access]) address = (access.stored? address).getD (held past address) := by
  rw [held, List.reverse_append, List.reverse_singleton, List.singleton_append,
    List.findSome?_cons]
  cases access.stored? address <;> rfl

/-! ## What one access does -/

variable {m next : Memory} {access : Access}

/-- Growing to a size is reaching a range from address zero on. -/
theorem touchedEnd_zero_offset (size : Nat) : touchedEnd 0 size = unitSize * units size := by
  unfold touchedEnd
  split
  · rename_i hz
    rw [hz]
    rfl
  · rw [Nat.zero_add]

/-- The end of a range, rounded up to units, is the end of an access rounded up. -/
theorem touchedEnd_range (access : Access) :
    touchedEnd access.range.1 access.range.2 = unitSize * units access.stop := by
  unfold touchedEnd Access.stop
  split <;> rfl

/-- **Only its range decides whether an access succeeds.** -/
theorem settledBy_apply (m : Memory) (access : Access) :
    SettledBy (touchedEnd access.range.1 access.range.2 < quantityBound) (access.apply m) := by
  cases access with
  | resize size =>
    rw [show Access.range (.resize size) = (0, size) from rfl, touchedEnd_zero_offset]
    exact .bind (m.settledBy_resize size) id fun hend _ _ => .of_ok hend ⟨_, rfl⟩
  | load offset size =>
    exact .bind (m.settledBy_load offset size) id fun hend _ _ => .of_ok hend ⟨_, rfl⟩
  | loadWord offset =>
    exact .bind (m.settledBy_loadWord offset) id fun hend _ _ => .of_ok hend ⟨_, rfl⟩
  | store offset data =>
    exact .bind (m.settledBy_store offset data) id fun hend _ _ => .of_ok hend ⟨_, rfl⟩
  | storePadded offset data size =>
    exact .bind (m.settledBy_storePadded offset data size) id fun hend _ _ => .of_ok hend ⟨_, rfl⟩
  | storeWord offset word =>
    have hstore := m.settledBy_store offset (Word.toBytes word)
    rw [Word.size_toBytes] at hstore
    exact .bind hstore id fun hend _ _ => .of_ok hend ⟨_, rfl⟩

/-- What an access that succeeds has done: memory has grown to hold its range, it has changed by
what is stored, and what is read is what it had. -/
structure Performs (m : Memory) (access : Access) (answer : Answer) (next : Memory) : Prop where
  size : next.size = max m.size (touchedEnd access.range.1 access.range.2)
  byteAt : ∀ address, next.byteAt address = (access.stored? address).getD (m.byteAt address)
  answer_eq : answer = access.answer m.byteAt

/-- An access that stores nothing leaves all bytes. -/
theorem Access.stored?_eq_none (h : ∀ place, access.storedByte? place = none) (address : Nat) :
    access.stored? address = none := by
  unfold stored?
  dsimp only
  rw [h, ite_self]

/-- An access that stores covers its range. -/
theorem Access.getD_stored? (access : Access) {f : Nat → UInt8}
    (h : ∀ place < access.range.2, access.storedByte? place = some (f place)) (address : Nat)
    (byte : UInt8) : (access.stored? address).getD byte =
      if access.range.1 ≤ address ∧ address < access.range.1 + access.range.2
      then f (address - access.range.1) else byte := by
  unfold stored?
  dsimp only
  split
  · rename_i hin
    rw [h _ (by omega), Option.getD_some]
  · rfl

/-- **An access does what it says.** -/
theorem performs_apply {answer : Answer} (h : access.apply m = .ok (answer, next)) :
    m.Performs access answer next := by
  -- of what only reads, nothing is stored
  have hkept : (∀ place, access.storedByte? place = none) → next.byteAt = m.byteAt →
      ∀ address, next.byteAt address = (access.stored? address).getD (m.byteAt address) := by
    intro hnone hsame address
    rw [Access.stored?_eq_none hnone, hsame, Option.getD_none]
  cases access with
  | resize size =>
    obtain ⟨grown, hresize, h⟩ := bind_ok h
    cases h
    refine ⟨?_, hkept (fun _ => rfl) (byteAt_resize hresize), rfl⟩
    rw [show Access.range (.resize size) = (0, size) from rfl, touchedEnd_zero_offset]
    exact resize_ok hresize
  | load offset size =>
    obtain ⟨⟨read, grown⟩, hload, h⟩ := bind_ok h
    cases h
    obtain ⟨rfl, hsame⟩ := load_bytes hload
    exact ⟨load_ok hload, hkept (fun _ => rfl) hsame, rfl⟩
  | loadWord offset =>
    obtain ⟨⟨read, grown⟩, hload, h⟩ := bind_ok h
    cases h
    obtain ⟨rfl, hsame⟩ := loadWord_word hload
    exact ⟨loadWord_ok hload, hkept (fun _ => rfl) hsame, rfl⟩
  | store offset data =>
    obtain ⟨grown, hstore, h⟩ := bind_ok h
    cases h
    refine ⟨store_ok hstore, fun address => ?_, rfl⟩
    rw [byteAt_store hstore, Bytes.getD_toList]
    exact (Access.getD_stored? (.store offset data) (fun _ _ => rfl) address _).symm
  | storePadded offset data size =>
    obtain ⟨grown, hstore, h⟩ := bind_ok h
    cases h
    refine ⟨storePadded_ok hstore, fun address => ?_, rfl⟩
    rw [byteAt_storePadded hstore, Bytes.getD_toList]
    exact (Access.getD_stored? (.storePadded offset data size) (fun _ _ => rfl) address _).symm
  | storeWord offset word =>
    obtain ⟨grown, hstore, h⟩ := bind_ok h
    cases h
    have hsize := store_ok hstore
    rw [Word.size_toBytes] at hsize
    refine ⟨hsize, fun address => ?_, rfl⟩
    rw [byteAt_store hstore, Word.size_toBytes]
    refine (Access.getD_stored? (.storeWord offset word)
      (f := fun place => (Bytes.toList word.toBytes)[place]?.getD 0)
      (fun place hplace => ?_) address _).symm
    rw [Word.toBytes, Bytes.getElem?_ofNat, if_pos (show place < 32 from hplace)]
    rfl

/-! ## What is known of a memory -/

/-- What is known of a memory from the accesses to it that have succeeded. -/
structure Recalls (m : Memory) (past : List Access) : Prop where
  size : m.size = unitSize * units (highWater past)
  byteAt : m.byteAt = held past

theorem recalls_empty : empty.Recalls [] where
  size := rfl
  byteAt := funext fun address => byteAt_of_size_le (Nat.zero_le address)

variable {past : List Access}

/-- **One more access that succeeds.** -/
theorem Recalls.apply (h : m.Recalls past) {answer : Answer}
    (happly : access.apply m = .ok (answer, next)) : next.Recalls (past ++ [access]) := by
  have hdone := performs_apply happly
  refine ⟨?_, funext fun address => ?_⟩
  · rw [hdone.size, h.size, touchedEnd_range, highWater_append, units_max, Nat.mul_max_mul_left]
  · rw [hdone.byteAt, h.byteAt, held_append]

/-- **And any number of accesses**, by induction on them: the memory changes with those that
succeed. -/
theorem Recalls.afterAll (h : m.Recalls past) (accesses : List Access) :
    (m.afterAll accesses).Recalls (past ++ m.succeeding accesses) := by
  induction accesses generalizing m past with
  | nil =>
    rw [succeeding, List.append_nil]
    exact h
  | cons access rest ih =>
    have hstep : m.afterAll (access :: rest) = (m.after access).afterAll rest := rfl
    rw [hstep, succeeding, after]
    cases happly : access.apply m with
    | ok result =>
      obtain ⟨answer, next⟩ := result
      have hrest := ih (h.apply happly)
      rw [List.append_assoc] at hrest
      exact hrest
    | error cause => exact ih h

/-! ## Held ranges -/

/-- Memory that holds a range need not grow for it. -/
theorem resize_of_le {size : Nat} (hfits : unitSize * units size < quantityBound)
    (hle : unitSize * units size ≤ m.size) : m.resize size = .ok m := by
  unfold resize
  split
  · rfl
  · have hrounded : roundedUp size = .ok (unitSize * units size) := if_pos hfits
    have hsame : m.growTo (units size) = m := if_neg (Nat.not_lt_of_le hle)
    rw [hrounded]
    exact congrArg Except.ok hsame

/-- And reads it as it is. -/
theorem load_of_le {offset size : Nat} (hfits : touchedEnd offset size < quantityBound)
    (hle : touchedEnd offset size ≤ m.size) :
    m.load offset size = .ok (Bytes.ofMap m.byteAt offset size, m) := by
  by_cases hz : size = 0
  · subst hz
    exact if_pos rfl
  · have hstop : offset + size ≤ touchedEnd offset size := add_le_touchedEnd hz
    have hbounded : bounded (offset + size) = .ok (offset + size) := if_pos (by omega)
    have hread := slice_bytes fun _ => Nat.le_trans hstop hle
    rw [touchedEnd_of_ne hz] at hfits hle
    rw [load, if_neg hz, hbounded, ← hread]
    exact congrArg (· >>= fun grown => .ok (Bytes.slice grown.bytes offset (offset + size), grown))
      (resize_of_le hfits hle)

/-- **A word that has been stored is loaded back**, and memory holds it already. -/
theorem loadWord_of_storeWord {offset : Nat} {word : Word}
    (h : m.storeWord offset word = .ok next) : next.loadWord offset = .ok (word, next) := by
  have hfits := (m.settledBy_store offset word.toBytes).holds h
  have hsize := store_ok h
  rw [Word.size_toBytes] at hfits hsize
  have hbytes : Bytes.ofMap next.byteAt offset 32 = word.toBytes := by
    refine Bytes.eq_of_toList (List.ext_getElem? fun i => ?_)
    rw [Bytes.getElem?_ofMap, byteAt_store h, Word.size_toBytes, Nat.add_sub_cancel_left]
    split
    · rename_i hi
      rw [if_pos (by omega), Word.toBytes, Bytes.getElem?_ofNat, if_pos hi, Option.getD_some]
    · rename_i hi
      rw [Word.toBytes, Bytes.getElem?_ofNat, if_neg hi]
  rw [loadWord, load_of_le hfits (by omega), hbytes]
  exact congrArg (fun word => Except.ok (word, next)) word.ofBytes_toBytes

end Memory

/-- A range whose end, rounded up to units, is no quantity. -/
theorem not_touchedEnd_lt_iff (offset size : Nat) : ¬ touchedEnd offset size < quantityBound ↔
    size ≠ 0 ∧ 2 ^ 64 - 1 < 32 * ((offset + size + 31) / 32) := by
  have hbound := quantityBound_eq
  by_cases hz : size = 0
  · rw [hz, touchedEnd_zero]
    omega
  · rw [touchedEnd_of_ne hz]
    simp only [units, unitSize]
    omega

/-- **Memory recalls the accesses to it.** After any accesses to an empty memory its size is the
highest end that one of those which succeeded has reached, rounded up to units, and it has at every
address the byte that the latest of them stored there, or zero. The next access fails exactly where
its range is not empty and the end of it, rounded up, is no 64-bit quantity; it leaves memory as it
is then. Otherwise it reads these bytes, and changes them by what it stores and in no other way. A
word that is stored is loaded back, and memory that has grown to the end of a range holds it. -/
theorem memory_recalls_accesses (accesses : List Memory.Access) :
    let m := Memory.empty.afterAll accesses
    let past := Memory.empty.succeeding accesses
    let held := Memory.held past
    m.size = 32 * ((Memory.highWater past + 31) / 32) ∧
    (∀ address < m.size, (Bytes.toList m.bytes)[address]? = some (held address)) ∧
    (∀ address, m.size ≤ address → held address = 0) ∧
    (∀ access : Memory.Access,
      let offset := access.range.1
      let size := access.range.2
      if size ≠ 0 ∧ 2 ^ 64 - 1 < 32 * ((offset + size + 31) / 32) then
        access.apply m = .error .outOfGas ∧ m.after access = m
      else
        access.apply m = .ok (access.answer held, m.after access) ∧
          ∀ address, (m.after access).byteAt address =
            (access.stored? address).getD (held address)) ∧
    (∀ offset word next, m.storeWord offset word = .ok next →
      next.loadWord offset = .ok (word, next)) ∧
    (∀ offset size grown, size ≠ 0 → m.resize (offset + size) = .ok grown →
      offset + size ≤ grown.size) := by
  intro m past held
  have hrecalls : m.Recalls past := Memory.recalls_empty.afterAll accesses
  have hheld : m.byteAt = held := hrecalls.byteAt
  refine ⟨hrecalls.size, fun address hlt => ?_, fun address hle => ?_, fun access => ?_,
    fun offset word next => Memory.loadWord_of_storeWord, fun offset size grown hsize hgrown => ?_⟩
  · rw [Memory.getElem?_bytes hlt, hheld]
  · rw [← hheld]
    exact Memory.byteAt_of_size_le hle
  · intro offset size
    have hsettled := m.settledBy_apply access
    split
    · rename_i hfar
      have hfails := hsettled.refuses ((not_touchedEnd_lt_iff offset size).2 hfar)
      exact ⟨hfails, Memory.after_of_error hfails⟩
    · rename_i hnear
      have hfits : touchedEnd offset size < quantityBound :=
        Decidable.byContradiction fun hfar => hnear ((not_touchedEnd_lt_iff offset size).1 hfar)
      obtain ⟨⟨answer, next⟩, happly⟩ := hsettled.goes hfits
      have hdone := Memory.performs_apply happly
      rw [Memory.after_of_ok happly, ← hheld, ← hdone.answer_eq]
      exact ⟨happly, hdone.byteAt⟩
  · have hend : offset + size ≤ unitSize * units (offset + size) := by
      simp only [units, unitSize]
      omega
    rw [Memory.resize_ok hgrown]
    exact Nat.le_trans hend (Nat.le_max_right _ _)

/-- A word across the end of the first unit, and then one byte and two zeros over its end: what is
held is the last of each. At the end of the address space a byte of the last unit but one is read as
zero, and a byte of the last one is out of reach. -/
theorem memory_recalls_accesses_of_overlap :
    let accesses : List Memory.Access :=
      [.storeWord 1 (.allOnes 256), .storePadded 31 (.ofList [0xaa]) 3]
    let m := Memory.empty.afterAll accesses
    let below : Memory.Access := .load (2 ^ 64 - 33) 1
    m.size = 64 ∧ (Bytes.toList m.bytes)[30]? = some 0xff ∧
      (Bytes.toList m.bytes)[31]? = some 0xaa ∧ (Bytes.toList m.bytes)[32]? = some 0 ∧
      below.apply m = .ok (.bytes (.ofList [0]), m.after below) ∧
      Memory.Access.apply m (.load (2 ^ 64 - 32) 1) = .error .outOfGas ∧
      m.after (.load (2 ^ 64 - 32) 1) = m := by
  intro accesses m below
  obtain ⟨hsize, hbytes, -, haccess, -⟩ := memory_recalls_accesses accesses
  have hmark : Memory.highWater (Memory.empty.succeeding accesses) = 34 := by decide +kernel
  have hm : m.size = 64 := by
    rw [hmark] at hsize
    exact hsize
  have hlatest : Memory.held (Memory.empty.succeeding accesses) 30 = 0xff ∧
      Memory.held (Memory.empty.succeeding accesses) 31 = 0xaa ∧
      Memory.held (Memory.empty.succeeding accesses) 32 = 0 := by decide +kernel
  have hzero : below.answer (Memory.held (Memory.empty.succeeding accesses)) =
      .bytes (.ofList [0]) := by decide +kernel
  have hbelow := haccess below
  rw [if_neg (by decide), hzero] at hbelow
  have habove := haccess (.load (2 ^ 64 - 32) 1)
  rw [if_pos (by decide)] at habove
  refine ⟨hm, ?_, ?_, ?_, hbelow.1, habove⟩
  · rw [← hlatest.1]
    exact hbytes 30 (by omega)
  · rw [← hlatest.2.1]
    exact hbytes 31 (by omega)
  · rw [← hlatest.2.2]
    exact hbytes 32 (by omega)

end Retrace
