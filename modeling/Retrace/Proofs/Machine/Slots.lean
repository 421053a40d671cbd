import Mathlib.Data.Set.Card
import Mathlib.Data.List.Nodup
import Retrace.Proofs.Machine.Accounts
import Retrace.Proofs.Text.Digits
/-!
# Retrace — storage as a map

Storage keeps slots, and is meant as a map from words to words that is zero
almost everywhere. A slot is there exactly where the map is not zero
(`Storage.mem_slots_iff`), so that the slots are known from the map, their order
from the keys, and two storages that read alike are the same
(`Storage.eq_of_get`). What was written last under a key is what is read there,
in whatever order the writes were made (`Storage.get_ofWrites`). Which slots are
shown depends on how a value is written, and that comes to arithmetic: the
marker stands in it where division by a power of sixteen leaves the marker as a
remainder (`Storage.isMarked_iff`). A run writes to storage by one instruction
only, and so has the storage of its writes (`Machine.storage_trace`).
-/

namespace Retrace

variable {key value : Word} {slots : List Slot}

/-! ## Slots in order -/

/-- No two slots have the same key. -/
theorem Ascending.nodup_keys (h : Ascending slots) : (slots.map Prod.fst).Nodup :=
  List.pairwise_map.2 (h.imp fun hlt => BitVec.ne_of_lt hlt)

/-- **After an insertion** a slot is the new one, or one from before under another key. -/
theorem mem_insertSlot_iff (h : Ascending slots) {slot : Slot} :
    slot ∈ insertSlot key value slots ↔ slot = (key, value) ∨ slot ∈ slots ∧ slot.1 ≠ key := by
  induction slots with
  | nil => simp [insertSlot]
  | cons first rest ih =>
    obtain ⟨hfirst, hrest⟩ := List.pairwise_cons.1 h
    unfold insertSlot
    split
    -- the key comes before all that are there
    · rename_i hlt
      have hother : slot ∈ first :: rest → slot.1 ≠ key := by
        intro hslot
        rcases List.mem_cons.1 hslot with rfl | hslot
        · exact (BitVec.ne_of_lt hlt).symm
        · exact (BitVec.ne_of_lt (BitVec.lt_trans hlt (hfirst slot hslot))).symm
      rw [List.mem_cons]
      exact or_congr_right ⟨fun hslot => ⟨hslot, hother hslot⟩, And.left⟩
    · split
      -- the key is there, and nowhere else
      · rename_i heq
        have hother : slot ∈ rest → slot.1 ≠ key := by
          intro hslot
          rw [heq]
          exact (BitVec.ne_of_lt (hfirst slot hslot)).symm
        rw [List.mem_cons, List.mem_cons]
        refine or_congr_right ⟨fun hslot => ⟨.inr hslot, hother hslot⟩, ?_⟩
        rintro ⟨rfl | hslot, hne⟩
        · exact absurd heq.symm hne
        · exact hslot
      -- the key comes further behind
      · rename_i hne
        rw [List.mem_cons, List.mem_cons, ih hrest]
        constructor
        · rintro (rfl | rfl | ⟨hslot, hother⟩)
          · exact .inr ⟨.inl rfl, fun heq => hne heq.symm⟩
          · exact .inl rfl
          · exact .inr ⟨.inr hslot, hother⟩
        · rintro (rfl | ⟨rfl | hslot, hother⟩)
          · exact .inr (.inl rfl)
          · exact .inl rfl
          · exact .inr (.inr ⟨hslot, hother⟩)

/-- Words that are the same as soon as one of them is not zero. -/
theorem Word.eq_of_ne_zero {a b : Word} (h : ∀ w : Word, w ≠ 0 → (a = w ↔ b = w)) : a = b := by
  by_cases hzero : a = 0
  · by_contra hne
    exact hne ((h b fun hb => hne (hzero.trans hb.symm)).2 rfl)
  · exact ((h a hzero).1 rfl).symm

namespace Storage

/-! ## Reading and writing -/

variable {s t : Storage}

/-- What is found under a key is a slot, and with that key. -/
theorem mem_of_find? {slot : Slot} (h : (s.slots.find? fun slot => slot.1 == key) = some slot) :
    slot ∈ s.slots ∧ slot.1 = key := by
  have hkey := List.find?_some h
  exact ⟨List.mem_of_find?_eq_some h, beq_iff_eq.1 hkey⟩

theorem get_of_mem (h : (key, value) ∈ s.slots) : s.get key = value := by
  unfold get
  cases hfind : s.slots.find? fun slot => slot.1 == key with
  | none => exact absurd (beq_self_eq_true key) (List.find?_eq_none.1 hfind _ h)
  | some slot =>
    obtain ⟨hslot, hkey⟩ := mem_of_find? hfind
    rw [List.inj_on_of_nodup_map s.ascending.nodup_keys hslot h hkey]
    rfl

theorem mem_of_get (h : s.get key ≠ 0) : (key, s.get key) ∈ s.slots := by
  unfold get at h ⊢
  cases hfind : s.slots.find? fun slot => slot.1 == key with
  | none =>
    rw [hfind] at h
    exact absurd rfl h
  | some slot =>
    obtain ⟨hslot, rfl⟩ := mem_of_find? hfind
    exact hslot

/-- **Where a slot is**: under each key that does not read as zero, and with what is read there. -/
theorem mem_slots_iff : (key, value) ∈ s.slots ↔ s.get key = value ∧ value ≠ 0 := by
  constructor
  · intro h
    exact ⟨get_of_mem h, s.nonZero _ h⟩
  · rintro ⟨rfl, hne⟩
    exact mem_of_get hne

theorem mem_set_iff {slot : Slot} : slot ∈ (s.set key value).slots ↔
    slot = (key, value) ∧ value ≠ 0 ∨ slot ∈ s.slots ∧ slot.1 ≠ key := by
  unfold set
  split
  · rename_i hzero
    rw [List.mem_filter, bne_iff_ne, or_iff_right fun h => h.2 hzero]
  · rename_i hne
    rw [mem_insertSlot_iff s.ascending, and_iff_left hne]

/-- **A write is read back under its key**, and shows nowhere else. -/
theorem get_set (s : Storage) (key value other : Word) :
    (s.set key value).get other = if key = other then value else s.get other := by
  refine Word.eq_of_ne_zero fun w hw => ?_
  have hread : (s.set key value).get other = w ↔ (other, w) ∈ (s.set key value).slots := by
    rw [mem_slots_iff, and_iff_left hw]
  rw [hread, mem_set_iff, mem_slots_iff, and_iff_left hw, Prod.mk.injEq]
  split
  · rename_i heq
    rw [or_iff_left fun h => h.2 heq.symm]
    exact ⟨fun h => h.1.2.symm, fun h => ⟨⟨heq.symm, h.symm⟩, h ▸ hw⟩⟩
  · rename_i hne
    rw [or_iff_right fun h => hne h.1.1.symm]
    exact and_iff_left fun h => hne h.symm

/-- **Storages that read alike are the same**: they have the same slots, and these are in order. -/
theorem eq_of_get (h : ∀ key, s.get key = t.get key) : s = t := by
  have hslots : s.slots = t.slots := by
    have hanti : Std.Antisymm fun a b : Slot => a.1 < b.1 :=
      ⟨fun a b hab hba => absurd (BitVec.lt_trans hab hba) (BitVec.lt_irrefl a.1)⟩
    have hirrefl : Std.Irrefl fun a b : Slot => a.1 < b.1 := ⟨fun a => BitVec.lt_irrefl a.1⟩
    refine List.Pairwise.eq_of_mem_iff s.ascending t.ascending fun slot => ?_
    obtain ⟨key, value⟩ := slot
    rw [mem_slots_iff, mem_slots_iff, h key]
  cases s
  cases t
  cases hslots
  rfl

/-- **The size of storage** is the number of keys that do not read as zero. -/
theorem size_eq_encard (s : Storage) : (s.size : ENat) = {key | s.get key ≠ 0}.encard := by
  have hkeys : {key | s.get key ≠ 0} = ((s.slots.map Prod.fst).toFinset : Set Word) := by
    ext key
    rw [Set.mem_ofPred_eq, List.coe_toFinset, Set.mem_ofPred_eq, List.mem_map]
    constructor
    · intro h
      exact ⟨_, mem_of_get h, rfl⟩
    · rintro ⟨⟨_, value⟩, hslot, rfl⟩
      rw [get_of_mem hslot]
      exact s.nonZero _ hslot
  rw [hkeys, Set.encard_coe_eq_coe_finsetCard, List.toFinset_card_of_nodup s.ascending.nodup_keys,
    List.length_map, size]

/-! ## Writes in turn -/

/-- The storage after writes in turn, from none. -/
def ofWrites (writes : List Slot) : Storage :=
  writes.foldl (fun s write => s.set write.1 write.2) empty

/-- What was written last under a key, or zero. -/
def lastWritten (writes : List Slot) (key : Word) : Word :=
  ((writes.reverse.find? fun write => write.1 == key).map (·.2)).getD 0

theorem ofWrites_append (writes : List Slot) (write : Slot) :
    ofWrites (writes ++ [write]) = (ofWrites writes).set write.1 write.2 :=
  List.foldl_append

theorem lastWritten_append (writes : List Slot) (write : Slot) (key : Word) :
    lastWritten (writes ++ [write]) key =
      if write.1 = key then write.2 else lastWritten writes key := by
  rw [lastWritten, List.reverse_append, List.reverse_singleton, List.singleton_append,
    List.find?_cons]
  split
  · rename_i heq
    rw [if_pos (beq_iff_eq.1 heq)]
    rfl
  · rename_i hne
    rw [if_neg (ne_of_beq_false hne)]
    rfl

/-- **What was written last is read**, by induction on the writes from the last one on. -/
theorem get_ofWrites (writes : List Slot) (key : Word) :
    (ofWrites writes).get key = lastWritten writes key := by
  induction writes using List.reverseRecOn with
  | nil => rfl
  | append_singleton writes write ih => rw [ofWrites_append, get_set, ih, lastWritten_append]

/-! ## What is shown -/

/-- The number that the marker spells. -/
theorem marker_eq : marker = Nat.toDigits 16 0xdeadbeaf := by decide

/-- **Where the marker stands in a value**: at no more than fifty-six places, since there are no
more digits than sixty-four. -/
theorem isMarked_iff :
    isMarked value = true ↔ ∃ j ≤ 56, value.toNat / 16 ^ j % 2 ^ 32 = 0xdeadbeaf := by
  have hwidth : 16 ^ (Nat.toDigits 16 0xdeadbeaf).length = 2 ^ 32 := by decide
  rw [isMarked, decide_eq_true_iff, marker_eq,
    Text.toDigits_isInfix_iff (by decide) (by decide) (by decide), hwidth]
  refine ⟨fun ⟨j, hj⟩ => ⟨j, ?_, hj⟩, fun ⟨j, _, hj⟩ => ⟨j, hj⟩⟩
  -- further to the left fewer than eight digits are left
  by_contra hfar
  have hshort : value.toNat / 16 ^ j < 16 ^ 7 := by
    rw [Nat.div_lt_iff_lt_mul (Nat.pow_pos (by decide)), ← Nat.pow_add]
    refine Nat.lt_of_lt_of_le value.isLt ?_
    rw [show 2 ^ 256 = 16 ^ 64 from by decide]
    exact Nat.pow_le_pow_right (by decide) (by omega)
  rw [Nat.mod_eq_of_lt (Nat.lt_trans hshort (by decide))] at hj
  omega

theorem mem_visible_iff : (key, value) ∈ s.visible ↔ s.get key = value ∧ value ≠ 0 ∧
    ¬∃ j ≤ 56, value.toNat / 16 ^ j % 2 ^ 32 = 0xdeadbeaf := by
  rw [visible, List.mem_filter, mem_slots_iff, and_assoc, ← isMarked_iff, Bool.not_eq_true',
    Bool.not_eq_true]

theorem pairwise_visible (s : Storage) : s.visible.Pairwise fun a b => a.1.toNat < b.1.toNat :=
  (s.ascending.filter _).imp fun hlt => BitVec.lt_def.1 hlt

end Storage

/-! ## Storage along a run -/

/-- Only one instruction writes to storage. -/
theorem Effect.storage_eq {program : Program} {op : Opcode} {s next : State}
    (h : Effect program op s next) (hop : op ≠ .sstore) : next.storage = s.storage := by
  cases h with
  | stored kind => exact absurd kind hop
  | quiet | metered | captured | pushed | jumped | passed | called | returned => rfl

namespace State

variable {s next : State}

theorem storage_storeSlot (h : s.storeSlot = .ok next) :
    next.storage = s.storage.set (s.operand 0) (s.operand 1) := by
  obtain ⟨⟨operands, popped⟩, hpop, h⟩ := bind_ok h
  obtain ⟨paid, hpaid, h⟩ := bind_ok h
  obtain ⟨hoperands, stack, rfl⟩ := pop_ok hpop
  obtain ⟨-, rfl⟩ := charge_ok hpaid
  cases h
  rw [hoperands 0 (by omega), hoperands 1 (by omega)]

theorem unary_words {f : Word → Word} (h : s.unary f = .ok next) :
    next.stack.words = f (s.operand 0) :: s.stack.words.drop 1 := by
  obtain ⟨⟨operands, popped⟩, hpop, h⟩ := bind_ok h
  rw [push_words h, pop_words hpop, (pop_ok hpop).1 0 (by omega)]

end State

namespace Machine

variable {m : Machine} {s : State}

/-- What a step writes to storage: one that carries out the instruction which does. -/
def write? (m : Machine) (s : State) : Option Slot :=
  if m.performed? s = some .sstore then some (s.operand 0, s.operand 1) else none

/-- What the first `n` steps write to storage, one after the other. -/
def writes (m : Machine) (start : State) (n : Nat) : List Slot :=
  (List.range n).filterMap fun i => m.write? (m.trace start i)

theorem writes_succ (m : Machine) (start : State) (n : Nat) :
    m.writes start (n + 1) = m.writes start n ++ (m.write? (m.trace start n)).toList := by
  rw [writes, List.range_succ, List.filterMap_append, List.filterMap_cons]
  cases m.write? (m.trace start n) <;> rfl

/-- **A step that does not write leaves storage as it is.** -/
theorem storage_step_of_ne (ht : m.table.Standard) (h : m.performed? s ≠ some .sstore) :
    (m.step s).state.storage = s.storage := by
  cases hop : m.performed? s with
  | none =>
    obtain ⟨halted, hstep⟩ := state_of_not_performed? ht hop
    rw [hstep]
  | some op =>
    obtain ⟨entry, next, -, -, success, hstep⟩ := execute_of_performed? ht hop
    rw [hstep]
    exact (effect_of_execute success).storage_eq fun heq => h (heq ▸ hop)

theorem storage_step_of_sstore (ht : m.table.Standard) (h : m.performed? s = some .sstore) :
    (m.step s).state.storage = s.storage.set (s.operand 0) (s.operand 1) := by
  obtain ⟨entry, next, -, -, success, hstep⟩ := execute_of_performed? ht h
  have hwritten := State.storage_storeSlot success
  rw [hstep]
  exact hwritten

/-- **A run has the storage of its writes**, by induction on its steps. -/
theorem storage_trace (ht : m.table.Standard) {start : State} (hstart : start.storage = .empty)
    (n : Nat) : (m.trace start n).storage = .ofWrites (m.writes start n) := by
  induction n with
  | zero => exact hstart
  | succ n ih =>
    by_cases hop : m.performed? (m.trace start n) = some .sstore
    · rw [trace, storage_step_of_sstore ht hop, ih, writes_succ, write?, if_pos hop,
        Option.toList_some, Storage.ofWrites_append]
    · rw [trace, storage_step_of_ne ht hop, ih, writes_succ, write?, if_neg hop,
        Option.toList_none, List.append_nil]

theorem words_of_sload (ht : m.table.Standard) (h : m.performed? s = some .sload) :
    (m.step s).state.stack.words = s.storage.get (s.operand 0) :: s.stack.words.drop 1 := by
  obtain ⟨entry, next, -, -, success, hstep⟩ := execute_of_performed? ht h
  have hwords := State.unary_words success
  rw [hstep]
  exact hwords

end Machine

/-- **Storage is a canonical map.** After any writes to empty storage each key reads as what was
written last under it, or zero; no slot holds zero, there are as many slots as keys that do not
read as zero, and the same storage is left by all writes after which every key reads alike. Shown
are, ascending by the number of the key, the slots whose value does not have the marker at any of
its digits. A run has the storage of what it has written: a load pushes what was written last
under the key, or zero, and no step but a write changes storage. -/
theorem storage_canonical (m : Machine) (standard : m.table.Standard) :
    (∀ writes : List Slot,
      let s := Storage.ofWrites writes
      (∀ key, s.get key = Storage.lastWritten writes key) ∧
      (∀ slot ∈ s.slots, slot.2 ≠ 0) ∧
      (s.size : ENat) = {key | s.get key ≠ 0}.encard ∧
      (∀ others, s = Storage.ofWrites others ↔
        ∀ key, s.get key = (Storage.ofWrites others).get key) ∧
      (s.visible.Pairwise fun a b => a.1.toNat < b.1.toNat) ∧
      ∀ key value, (key, value) ∈ s.visible ↔ s.get key = value ∧ value ≠ 0 ∧
        ¬∃ j ≤ 56, value.toNat / 16 ^ j % 2 ^ 32 = 0xdeadbeaf) ∧
    (∀ n,
      let start := State.initial m.env
      let s := m.trace start n
      s.storage = Storage.ofWrites (m.writes start n) ∧
      (m.performed? s = some .sload → (m.step s).state.stack.words =
        Storage.lastWritten (m.writes start n) (s.operand 0) :: s.stack.words.drop 1)) ∧
    ∀ s, m.performed? s ≠ some .sstore → (m.step s).state.storage = s.storage := by
  refine ⟨fun writes => ?_, fun n => ?_, fun s => Machine.storage_step_of_ne standard⟩
  · intro s
    refine ⟨Storage.get_ofWrites writes, s.nonZero, s.size_eq_encard, fun others => ⟨?_, ?_⟩,
      s.pairwise_visible, fun key value => Storage.mem_visible_iff⟩
    · intro hsame key
      rw [← hsame]
    · exact Storage.eq_of_get
  · intro start s
    have hstorage : s.storage = Storage.ofWrites (m.writes start n) :=
      Machine.storage_trace standard rfl n
    refine ⟨hstorage, fun hload => ?_⟩
    rw [Machine.words_of_sload standard hload, hstorage, Storage.get_ofWrites]

/-- A code that writes one word and then another under the same key, clears a second key that
nothing was written under, and loads what is under the first. -/
def overwritingMachine : Machine where
  program := .load (.ofList [0x60, 0x05, 0x60, 0x01, 0x55, 0x64, 0x0d, 0xea, 0xdb, 0xea, 0xf7,
    0x60, 0x01, 0x55, 0x5f, 0x60, 0x02, 0x55, 0x60, 0x01, 0x54])
  env := .blank
  table := .reference

/-- The load pushes the second word. The marker stands in it one digit from the right, across its
bytes, and so the slot is not shown. -/
theorem storage_canonical_of_overwriting :
    let start := State.initial overwritingMachine.env
    let run := overwritingMachine.trace start
    overwritingMachine.writes start 10 = [(1, 5), (1, 0xdeadbeaf7), (2, 0)] ∧
      overwritingMachine.performed? (run 10) = some .sload ∧
      (overwritingMachine.step (run 10)).state.stack.words = [0xdeadbeaf7] ∧
      (run 10).storage.get 1 = 0xdeadbeaf7 ∧ (1, 0xdeadbeaf7) ∉ (run 10).storage.visible := by
  intro start run
  have hbuiltIn : overwritingMachine.table.IsBuiltIn := .inl rfl
  obtain ⟨hmap, hrun, -⟩ := storage_canonical overwritingMachine hbuiltIn.standard
  obtain ⟨hget, -, -, -, -, hvisible⟩ := hmap (overwritingMachine.writes start 10)
  have hwrites : overwritingMachine.writes start 10 = [(1, 5), (1, 0xdeadbeaf7), (2, 0)] := by
    decide +kernel
  have hload : overwritingMachine.performed? (run 10) = some .sload := by decide +kernel
  have hlast : Storage.lastWritten [(1, 5), (1, 0xdeadbeaf7), (2, 0)] 1 = 0xdeadbeaf7 := by
    decide +kernel
  have hvalue := hget 1
  rw [hwrites, hlast] at hvalue
  refine ⟨hwrites, hload, ?_, ?_, ?_⟩
  · rw [(hrun 10).2 hload]
    decide +kernel
  · rw [(hrun 10).1, hwrites]
    exact hvalue
  · intro hshown
    rw [(hrun 10).1, hvisible] at hshown
    exact hshown.2.2 ⟨1, by decide, by decide +kernel⟩

end Retrace
