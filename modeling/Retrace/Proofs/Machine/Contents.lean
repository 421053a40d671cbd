import Retrace.Proofs.Machine.Effect
import Retrace.Proofs.Windows
/-!
# Retrace — memory as a map from addresses to bytes

Memory reads as zero where it does not reach, so that it is a map from all
addresses to bytes (`Memory.byteAt`), and growing it does not change that map. A
load gives what the map has in its range and changes nothing (`load_bytes`), a
store puts its bytes over the range and leaves the rest (`byteAt_store`,
`byteAt_storePadded`). Of the instructions only four write. What they put where
is `Opcode.stored?`, computed from the operands alone, and `byteAt_execute` says
that an instruction which succeeds has changed the map so and not otherwise. The
three that read push, hash or hand back what the map has.
-/

namespace Retrace

/-! ## Growing accesses -/

namespace Memory

variable {m grown : Memory}

/-- The byte at an address: zero where memory does not reach. -/
def byteAt (m : Memory) (address : Nat) : UInt8 := (Bytes.toList m.bytes)[address]?.getD 0

theorem byteAt_of_size_le {address : Nat} (h : m.size ≤ address) : m.byteAt address = 0 := by
  have hnone : (Bytes.toList m.bytes)[address]? = none := List.getElem?_eq_none h
  rw [byteAt, hnone, Option.getD_none]

/-- Where memory reaches, the map is the buffer. -/
theorem getElem?_bytes {address : Nat} (h : address < m.size) :
    (Bytes.toList m.bytes)[address]? = some (m.byteAt address) := by
  have hlt : address < (Bytes.toList m.bytes).length := h
  rw [byteAt, List.getElem?_eq_getElem hlt, Option.getD_some]

/-- A range that memory holds, or an empty one anywhere, is what the map has there. -/
theorem slice_bytes {offset size : Nat} (hfit : size ≠ 0 → offset + size ≤ m.size) :
    Bytes.slice m.bytes offset (offset + size) = Bytes.ofMap m.byteAt offset size := by
  by_cases hzero : size = 0
  · subst hzero
    refine Bytes.eq_of_toList ?_
    rw [Bytes.toList_slice, Nat.add_zero, Nat.sub_self]
    rfl
  · exact Bytes.slice_eq_ofMap (hfit hzero)

theorem byteAt_growTo (m : Memory) (count : Nat) : (m.growTo count).byteAt = m.byteAt := by
  funext address
  unfold growTo
  split
  · exact Bytes.getD_append_zeros m.bytes _ address
  · rfl

/-- **Growing does not show.** -/
theorem byteAt_resize {size : Nat} (h : m.resize size = .ok grown) : grown.byteAt = m.byteAt := by
  unfold resize at h
  split at h
  · cases h
    rfl
  · obtain ⟨_, _, h⟩ := bind_ok h
    cases h
    exact byteAt_growTo m _

theorem byteAt_write {offset : Nat} {data : Bytes} (hfit : offset + data.size ≤ m.size)
    (address : Nat) : (m.write offset data).byteAt address =
      if offset ≤ address ∧ address < offset + data.size
      then (Bytes.toList data)[address - offset]?.getD 0 else m.byteAt address := by
  have hbytes : (m.write offset data).bytes = Bytes.overwrite m.bytes offset data := by
    unfold write
    exact congrArg bytes (dif_pos hfit)
  rw [byteAt, hbytes, Bytes.getElem?_overwrite hfit]
  split <;> rfl

/-- Memory that has grown to the end of a range holds it. -/
theorem fits_of_resize {offset size stop : Nat} (hsize : size ≠ 0)
    (hstop : bounded (offset + size) = .ok stop) (h : m.resize stop = .ok grown) :
    stop = offset + size ∧ offset + size ≤ grown.size := by
  have hend : offset + size ≤ touchedEnd offset size := add_le_touchedEnd hsize
  have hgrown := resize_stop_ok hsize hstop h
  exact ⟨bounded_ok hstop, by omega⟩

/-- **A load gives what is there**, and leaves it there. -/
theorem load_bytes {offset size : Nat} {bytes : Bytes}
    (h : m.load offset size = .ok (bytes, grown)) :
    bytes = Bytes.ofMap m.byteAt offset size ∧ grown.byteAt = m.byteAt := by
  unfold load at h
  split at h
  · rename_i hz
    cases h
    rw [hz]
    exact ⟨rfl, rfl⟩
  · rename_i hz
    obtain ⟨stop, hstop, h⟩ := bind_ok h
    obtain ⟨resized, hresized, h⟩ := bind_ok h
    cases h
    obtain ⟨rfl, hfit⟩ := fits_of_resize hz hstop hresized
    have hsame := byteAt_resize hresized
    refine ⟨?_, hsame⟩
    rw [Bytes.slice_eq_ofMap hfit, ← hsame]
    rfl

theorem loadWord_word {offset : Nat} {w : Word} (h : m.loadWord offset = .ok (w, grown)) :
    w = Word.ofBytes (Bytes.ofMap m.byteAt offset 32) ∧ grown.byteAt = m.byteAt := by
  obtain ⟨⟨bytes, held⟩, hload, h⟩ := bind_ok h
  cases h
  obtain ⟨rfl, hsame⟩ := load_bytes hload
  exact ⟨rfl, hsame⟩

/-- **A store puts its bytes over the range**, and leaves the rest. -/
theorem byteAt_store {offset : Nat} {data : Bytes} (h : m.store offset data = .ok grown)
    (address : Nat) : grown.byteAt address =
      if offset ≤ address ∧ address < offset + data.size
      then (Bytes.toList data)[address - offset]?.getD 0 else m.byteAt address := by
  unfold store at h
  split at h
  · rename_i hz
    cases h
    rw [if_neg (by omega)]
  · rename_i hz
    obtain ⟨stop, hstop, h⟩ := bind_ok h
    obtain ⟨resized, hresized, h⟩ := bind_ok h
    cases h
    rw [byteAt_write (fits_of_resize hz hstop hresized).2, byteAt_resize hresized]

/-- And so does one that is cut or continued with zeros to a size of its own. -/
theorem byteAt_storePadded {offset size : Nat} {data : Bytes}
    (h : m.storePadded offset data size = .ok grown) (address : Nat) : grown.byteAt address =
      if offset ≤ address ∧ address < offset + size
      then (Bytes.toList data)[address - offset]?.getD 0 else m.byteAt address := by
  unfold storePadded at h
  split at h
  · rename_i hz
    cases h
    rw [if_neg (by omega)]
  · rename_i hz
    obtain ⟨stop, hstop, h⟩ := bind_ok h
    obtain ⟨resized, hresized, h⟩ := bind_ok h
    cases h
    have hfit : offset + (Bytes.window data 0 size).size ≤ resized.size := by
      rw [Bytes.size_window]
      exact (fits_of_resize hz hstop hresized).2
    rw [byteAt_write hfit, byteAt_resize hresized, Bytes.size_window]
    split
    · rename_i hin
      rw [Bytes.getElem?_window, if_pos (by omega), Nat.zero_add, Option.getD_some]
    · rfl

end Memory

/-! ## What an instruction stores -/

namespace Opcode

/-- The byte that an instruction stores at a place of the range it touches, if it stores any: of
the word, most significant byte first, its lowest byte alone, or of a source continued with
zeros. -/
def storedByte? (op : Opcode) (ctx : Context) (s : State) (place : Nat) : Option UInt8 :=
  let copied (source : Bytes) : UInt8 :=
    (Bytes.toList source)[(s.operand 1).toNat + place]?.getD 0
  match op with
  | .mstore => some (UInt8.ofNat ((s.operand 1).toNat / 256 ^ (31 - place)))
  | .mstore8 => some (UInt8.ofNat (s.operand 1).toNat)
  | .callDataCopy => some (copied ctx.env.callData)
  | .codeCopy => some (copied ctx.program.code)
  | _ => none

/-- The byte that an instruction stores at an address, if it stores one there. -/
def stored? (op : Opcode) (ctx : Context) (s : State) (address : Nat) : Option UInt8 :=
  let (offset, size) := op.touched s
  if offset ≤ address ∧ address < offset + size then op.storedByte? ctx s (address - offset)
  else none

/-- Whether an instruction neither reads nor writes memory. -/
def leavesMemory : Opcode → Bool
  | .keccak256 | .callDataCopy | .codeCopy | .mload | .mstore | .mstore8 | .ret | .revert => false
  | _ => true

variable {op : Opcode} {ctx : Context} {s : State}

/-- An instruction that has nothing to store stores nothing. -/
theorem stored?_eq_none (h : ∀ place, op.storedByte? ctx s place = none) (address : Nat) :
    op.stored? ctx s address = none := by
  unfold stored?
  dsimp only
  rw [h, ite_self]

/-- What is stored lies in the range that is touched. -/
theorem lt_of_stored? {address : Nat} (h : op.stored? ctx s address ≠ none) :
    address < touchedEnd (op.touched s).1 (op.touched s).2 := by
  unfold stored? at h
  dsimp only at h
  split at h
  · rename_i hin
    have hend : (op.touched s).1 + (op.touched s).2 ≤
        touchedEnd (op.touched s).1 (op.touched s).2 := add_le_touchedEnd (by omega)
    omega
  · exact absurd rfl h

end Opcode

/-! ## One handler after the other -/

/-- What a map has in a range can be read off the operands that name it. -/
theorem ofMap_of_operands {a b : Word} {offset size : Nat}
    (h : rangeOperands a b = .ok (offset, size)) (f : Nat → UInt8) :
    Bytes.ofMap f offset size = Bytes.ofMap f a.toNat b.toNat := by
  obtain ⟨hsize, hoffset⟩ := range_of_operands h
  by_cases hz : size = 0
  · rw [← hsize, hz]
    rfl
  · rw [hoffset hz, hsize]

namespace State

variable {s next : State} {program : Program}

/-- Paying for memory does not show in what it holds. -/
theorem expandMemory_keeps {size : Nat} (h : s.expandMemory size = .ok next) :
    next.memory.byteAt = s.memory.byteAt ∧ next.stack = s.stack := by
  obtain ⟨price, -, h⟩ := bind_ok h
  obtain ⟨paid, hpaid, h⟩ := bind_ok h
  obtain ⟨memory, hmemory, h⟩ := bind_ok h
  obtain ⟨-, rfl⟩ := charge_ok hpaid
  cases h
  exact ⟨Memory.byteAt_resize hmemory, rfl⟩

theorem memory_power (h : s.power = .ok next) : next.memory = s.memory := by
  rw [power_eq] at h
  obtain ⟨⟨operands, popped⟩, hpop, h⟩ := bind_ok h
  obtain ⟨-, _, rfl⟩ := pop_ok hpop
  obtain ⟨paid, hpaid, h⟩ := bind_ok h
  obtain ⟨-, rfl⟩ := charge_ok hpaid
  obtain ⟨stack, rfl⟩ := push_ok h
  rfl

/-- **Hashing pushes the hash of what memory has in the range.** -/
theorem hashMemory_reads (h : s.hashMemory = .ok next) :
    next.stack.words = Keccak.hash
      (Bytes.ofMap s.memory.byteAt (s.operand 0).toNat (s.operand 1).toNat) ::
        s.stack.words.drop 2 ∧
    next.memory.byteAt = s.memory.byteAt := by
  obtain ⟨⟨operands, popped⟩, hpop, h⟩ := bind_ok h
  have hrest := pop_words hpop
  obtain ⟨hoperands, stack, rfl⟩ := pop_ok hpop
  obtain ⟨⟨offset, size⟩, hrange, h⟩ := bind_ok h
  obtain ⟨needed, -, h⟩ := bind_ok h
  obtain ⟨price, -, h⟩ := bind_ok h
  obtain ⟨paid, hpaid, h⟩ := bind_ok h
  obtain ⟨⟨data, memory⟩, hload, h⟩ := bind_ok h
  obtain ⟨-, rfl⟩ := charge_ok hpaid
  have hwords := push_words h
  obtain ⟨_, rfl⟩ := push_ok h
  obtain ⟨rfl, hsame⟩ := Memory.load_bytes hload
  rw [hoperands 0 (by omega), hoperands 1 (by omega)] at hrange
  rw [ofMap_of_operands hrange] at hwords
  exact ⟨hwords.trans (congrArg _ hrest), hsame⟩

/-- **Loading pushes the word that memory has at the offset.** -/
theorem loadMemory_reads (h : s.loadMemory = .ok next) :
    next.stack.words = Word.ofBytes (Bytes.ofMap s.memory.byteAt (s.operand 0).toNat 32) ::
      s.stack.words.drop 1 ∧
    next.memory.byteAt = s.memory.byteAt := by
  obtain ⟨⟨operands, popped⟩, hpop, h⟩ := bind_ok h
  have hrest := pop_words hpop
  obtain ⟨hoperands, stack, rfl⟩ := pop_ok hpop
  obtain ⟨offset, hoffset, h⟩ := bind_ok h
  obtain ⟨needed, -, h⟩ := bind_ok h
  obtain ⟨expanded, hexpanded, h⟩ := bind_ok h
  obtain ⟨⟨w, memory⟩, hload, h⟩ := bind_ok h
  obtain ⟨hheld, hstack⟩ := expandMemory_keeps hexpanded
  have hwords := push_words h
  obtain ⟨_, rfl⟩ := push_ok h
  obtain ⟨rfl, hsame⟩ := Memory.loadWord_word hload
  rw [bounded_ok hoffset, hoperands 0 (by omega), hheld] at hwords
  refine ⟨hwords.trans (congrArg _ ?_), hsame.trans hheld⟩
  exact (congrArg Stack.words hstack).trans hrest

/-- **Handing back gives what memory has in the range.** -/
theorem captureOutput_reads (h : s.captureOutput = .ok next) :
    next.output = Bytes.ofMap s.memory.byteAt (s.operand 0).toNat (s.operand 1).toNat ∧
    next.memory.byteAt = s.memory.byteAt := by
  obtain ⟨⟨operands, popped⟩, hpop, h⟩ := bind_ok h
  obtain ⟨hoperands, stack, rfl⟩ := pop_ok hpop
  obtain ⟨⟨offset, size⟩, hrange, h⟩ := bind_ok h
  obtain ⟨needed, -, h⟩ := bind_ok h
  obtain ⟨expanded, hexpanded, h⟩ := bind_ok h
  obtain ⟨⟨output, memory⟩, hload, h⟩ := bind_ok h
  obtain ⟨hheld, -⟩ := expandMemory_keeps hexpanded
  cases h
  obtain ⟨rfl, hsame⟩ := Memory.load_bytes hload
  rw [hoperands 0 (by omega), hoperands 1 (by omega)] at hrange
  refine ⟨?_, hsame.trans hheld⟩
  rw [hheld]
  exact ofMap_of_operands hrange _

/-- **Storing puts the encoded word at the offset.** -/
theorem storeMemory_writes {encode : Word → Bytes} (h : s.storeMemory encode = .ok next)
    (address : Nat) : next.memory.byteAt address =
      if (s.operand 0).toNat ≤ address ∧
        address < (s.operand 0).toNat + (encode (s.operand 1)).size
      then (Bytes.toList (encode (s.operand 1)))[address - (s.operand 0).toNat]?.getD 0
      else s.memory.byteAt address := by
  obtain ⟨⟨operands, popped⟩, hpop, h⟩ := bind_ok h
  obtain ⟨hoperands, stack, rfl⟩ := pop_ok hpop
  obtain ⟨offset, hoffset, h⟩ := bind_ok h
  obtain ⟨needed, -, h⟩ := bind_ok h
  obtain ⟨expanded, hexpanded, h⟩ := bind_ok h
  obtain ⟨memory, hstore, h⟩ := bind_ok h
  obtain ⟨hheld, -⟩ := expandMemory_keeps hexpanded
  cases h
  have hbyte := Memory.byteAt_store hstore address
  rw [bounded_ok hoffset, hoperands 0 (by omega), hoperands 1 (by omega), hheld] at hbyte
  exact hbyte

/-- **Copying puts what the source has there over the range**, zeros where it has ended. -/
theorem copyFrom_writes {source : Bytes} (h : s.copyFrom source = .ok next) (address : Nat) :
    next.memory.byteAt address =
      if (s.operand 0).toNat ≤ address ∧
        address < (s.operand 0).toNat + (s.operand 2).toNat
      then (Bytes.toList source)[(s.operand 1).toNat + (address - (s.operand 0).toNat)]?.getD 0
      else s.memory.byteAt address := by
  obtain ⟨⟨operands, popped⟩, hpop, h⟩ := bind_ok h
  obtain ⟨hoperands, stack, rfl⟩ := pop_ok hpop
  obtain ⟨⟨offset, size⟩, hrange, h⟩ := bind_ok h
  obtain ⟨needed, -, h⟩ := bind_ok h
  obtain ⟨price, -, h⟩ := bind_ok h
  obtain ⟨paid, hpaid, h⟩ := bind_ok h
  obtain ⟨memory, hstore, h⟩ := bind_ok h
  obtain ⟨-, rfl⟩ := charge_ok hpaid
  cases h
  have hbyte := Memory.byteAt_storePadded hstore address
  rw [hoperands 0 (by omega), hoperands 2 (by omega)] at hrange
  obtain ⟨hsize, hoffset⟩ := range_of_operands hrange
  rw [hoperands 1 (by omega)] at hbyte
  rw [← hsize]
  by_cases hz : size = 0
  · rw [if_neg (by omega)] at hbyte ⊢
    exact hbyte
  · rw [hoffset hz] at hbyte
    rw [hbyte]
    split
    -- the slice holds what is asked of the source
    · rename_i hin
      rw [Bytes.toList_slice, Nat.add_sub_cancel_left, List.getElem?_take_of_lt (by omega),
        List.getElem?_drop]
    · rfl

end State

/-! ## All instructions -/

/-- What leaves memory alone does. -/
theorem Effect.memory_eq {program : Program} {op : Opcode} {s next : State}
    (h : Effect program op s next) (hop : op.leavesMemory = true) (hexp : op ≠ .exp) :
    next.memory = s.memory := by
  cases h with
  | quiet | stored | pushed | jumped | passed | called | returned => rfl
  | metered kind =>
    cases op with
    | exp => exact absurd rfl hexp
    | keccak256 | callDataCopy | codeCopy | mload | mstore | mstore8 => cases hop
    | _ => cases kind
  | captured kind => rcases kind with rfl | rfl <;> cases hop

/-- **What an instruction does to memory is what it stores.** -/
theorem byteAt_execute {ctx : Context} {op : Opcode} {s next : State}
    (h : execute ctx op s = .ok next) (address : Nat) :
    next.memory.byteAt address = (op.stored? ctx s address).getD (s.memory.byteAt address) := by
  have hkept : (∀ place, op.storedByte? ctx s place = none) →
      next.memory.byteAt = s.memory.byteAt →
      next.memory.byteAt address = (op.stored? ctx s address).getD (s.memory.byteAt address) := by
    intro hnone hsame
    rw [Opcode.stored?_eq_none hnone, Option.getD_none, hsame]
  cases op with
  | mstore =>
    rw [State.storeMemory_writes h address, Word.size_toBytes, Word.toBytes]
    unfold Opcode.stored?
    dsimp only [Opcode.touched, Opcode.storedByte?]
    split
    · rename_i hin
      rw [Bytes.getElem?_ofNat, if_pos (by omega)]
      rfl
    · rfl
  | mstore8 =>
    rw [State.storeMemory_writes h address, State.lowByte, Bytes.size_ofNat]
    unfold Opcode.stored?
    dsimp only [Opcode.touched, Opcode.storedByte?]
    split
    · rename_i hin
      -- the range has a single byte
      obtain rfl : address = (s.operand 0).toNat := by omega
      rw [Bytes.getElem?_ofNat, Nat.sub_self, if_pos Nat.one_pos, Nat.pow_zero, Nat.div_one]
      rfl
    · rfl
  | callDataCopy | codeCopy =>
    rw [State.copyFrom_writes h address]
    unfold Opcode.stored?
    dsimp only [Opcode.touched, Opcode.storedByte?]
    split <;> rfl
  | exp => exact hkept (fun _ => rfl) (congrArg Memory.byteAt (State.memory_power h))
  | keccak256 => exact hkept (fun _ => rfl) (State.hashMemory_reads h).2
  | mload => exact hkept (fun _ => rfl) (State.loadMemory_reads h).2
  | ret | revert => exact hkept (fun _ => rfl) (State.captureOutput_reads h).2
  | _ =>
    exact hkept (fun _ => rfl)
      (congrArg Memory.byteAt ((effect_of_execute h).memory_eq rfl nofun))

end Retrace
