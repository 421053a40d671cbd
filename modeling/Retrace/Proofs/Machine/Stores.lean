import Retrace.Proofs.Machine.Accounts
import Retrace.Proofs.Machine.Contents
/-!
# Retrace — memory holds what was stored last

A run stores words, single bytes and copies of call data or code, at offsets
and of sizes that overlap in any way; it grows memory by reading it, and some of
its instructions fail. `Machine.held` is what the stores alone leave at an
address: the byte of the latest one to cover it, or zero (`held_latest`). The
memory of the machine has that byte at every address (`byteAt_trace`), since a
step changes memory by what it stores and in no other way (`byteAt_step`), and
whatever reads memory therefore reads what was stored last.
-/

namespace Retrace

namespace Machine

variable {m : Machine} {s : State}

/-- The byte that a step stores at an address: one that carries out an instruction which stores one
there. -/
def stored? (m : Machine) (s : State) (address : Nat) : Option UInt8 :=
  (m.performed? s).bind fun op => op.stored? m.toContext s address

/-- The byte that the stores of the first `n` steps leave at an address, over zeros: each store
takes the place of what the ones before it left. -/
def held (m : Machine) (start : State) : Nat → Nat → UInt8
  | 0, _ => 0
  | n + 1, address => (m.stored? (m.trace start n) address).getD (held m start n address)

/-! ## At a step -/

/-- **A step changes memory by what it stores.** -/
theorem byteAt_step (ht : m.table.Standard) (s : State) (address : Nat) :
    (m.step s).state.memory.byteAt address =
      (m.stored? s address).getD (s.memory.byteAt address) := by
  unfold stored?
  cases hop : m.performed? s with
  | none =>
    obtain ⟨halted, hstep⟩ := state_of_not_performed? ht hop
    rw [hstep]
    rfl
  | some op =>
    obtain ⟨entry, next, -, -, success, hstep⟩ := execute_of_performed? ht hop
    rw [hstep]
    -- what is stored is read off operands and sources, which the fee leaves alone
    exact byteAt_execute success address

/-- **Memory never shrinks**, whatever the table. -/
theorem size_step_le (m : Machine) (s : State) :
    s.memory.size ≤ (m.step s).state.memory.size := by
  have hway := m.stepped s
  generalize m.step s = outcome at hway ⊢
  cases hway with
  | carried _ op _ entry _ _ next success =>
    have hsize := (effect_of_execute success).account.size_memory
    rw [Outcome.state_ofSuccess]
    show s.memory.size ≤ next.memory.size
    rw [hsize]
    exact Nat.le_max_left _ _
  | rested | ended | strayed | unknown | faulted => exact Nat.le_refl _

/-- What a step stores lies inside the memory that it leaves. -/
theorem lt_size_of_stored? (ht : m.table.Standard) {address : Nat}
    (h : m.stored? s address ≠ none) : address < (m.step s).state.memory.size := by
  unfold stored? at h
  cases hop : m.performed? s with
  | none =>
    rw [hop] at h
    exact absurd rfl h
  | some op =>
    rw [hop] at h
    have hreach := Opcode.lt_of_stored? h
    obtain ⟨entry, next, -, -, success, hstep⟩ := execute_of_performed? ht hop
    have hsize := (effect_of_execute success).account.size_memory
    rw [hstep]
    show address < next.memory.size
    rw [hsize]
    exact Nat.lt_of_lt_of_le hreach (Nat.le_max_right _ _)

/-! ### What is read -/

theorem words_of_mload (ht : m.table.Standard) (h : m.performed? s = some .mload) :
    (m.step s).state.stack.words =
      Word.ofBytes (Bytes.ofMap s.memory.byteAt (s.operand 0).toNat 32) ::
        s.stack.words.drop 1 := by
  obtain ⟨entry, next, -, -, success, hstep⟩ := execute_of_performed? ht h
  rw [hstep]
  exact (State.loadMemory_reads success).1

theorem words_of_keccak256 (ht : m.table.Standard) (h : m.performed? s = some .keccak256) :
    (m.step s).state.stack.words =
      Keccak.hash (Bytes.ofMap s.memory.byteAt (s.operand 0).toNat (s.operand 1).toNat) ::
        s.stack.words.drop 2 := by
  obtain ⟨entry, next, -, -, success, hstep⟩ := execute_of_performed? ht h
  rw [hstep]
  exact (State.hashMemory_reads success).1

theorem output_of_return (ht : m.table.Standard)
    (h : m.performed? s = some .ret ∨ m.performed? s = some .revert) :
    (m.step s).state.output =
      Bytes.ofMap s.memory.byteAt (s.operand 0).toNat (s.operand 1).toNat := by
  rcases h with h | h
  all_goals
    obtain ⟨entry, next, -, -, success, hstep⟩ := execute_of_performed? ht h
    rw [hstep]
    exact (State.captureOutput_reads success).1

/-! ## Along a run -/

theorem size_trace_le (m : Machine) (s : State) {i n : Nat} (h : i ≤ n) :
    (m.trace s i).memory.size ≤ (m.trace s n).memory.size := by
  induction h with
  | refl => exact Nat.le_refl _
  | step _ ih => exact Nat.le_trans ih (m.size_step_le _)

/-- **The latest store decides**: what is held at an address is what the last step to store there
has stored, or zero. -/
theorem held_latest (m : Machine) (start : State) (n address : Nat) :
    ((∀ i < n, m.stored? (m.trace start i) address = none) ∧ m.held start n address = 0) ∨
    ∃ i < n, m.stored? (m.trace start i) address = some (m.held start n address) ∧
      ∀ j, i < j → j < n → m.stored? (m.trace start j) address = none := by
  induction n with
  | zero => exact .inl ⟨nofun, rfl⟩
  | succ n ih =>
    cases hlast : m.stored? (m.trace start n) address with
    | some byte =>
      have hheld : m.held start (n + 1) address = byte := by rw [held, hlast, Option.getD_some]
      exact .inr ⟨n, Nat.lt_succ_self n, by rw [hlast, hheld], fun j hj hjn => by omega⟩
    | none =>
      have hheld : m.held start (n + 1) address = m.held start n address := by
        rw [held, hlast, Option.getD_none]
      rw [hheld]
      rcases ih with ⟨hnone, hzero⟩ | ⟨i, hi, hstored, hnone⟩
      · refine .inl ⟨fun i hi => ?_, hzero⟩
        rcases Nat.lt_succ_iff_lt_or_eq.1 hi with hlt | rfl
        · exact hnone i hlt
        · exact hlast
      · refine .inr ⟨i, Nat.lt_succ_of_lt hi, hstored, fun j hij hj => ?_⟩
        rcases Nat.lt_succ_iff_lt_or_eq.1 hj with hlt | rfl
        · exact hnone j hij hlt
        · exact hlast

/-- **Memory has what is held**, if it had nothing at first. -/
theorem byteAt_trace (ht : m.table.Standard) {start : State}
    (hstart : ∀ address, start.memory.byteAt address = 0) (n address : Nat) :
    (m.trace start n).memory.byteAt address = m.held start n address := by
  induction n with
  | zero => exact hstart address
  | succ n ih => rw [trace, byteAt_step ht, ih, held]

end Machine

/-- **Memory holds what was stored last.** At every point of a run the size of memory is a whole
number of units and no smaller than before, whatever was stored lies inside it, and it has at each
address the byte that the latest store there has put, or zero if there was none. A load pushes,
hashing hashes and a return or a revert hands back exactly these bytes, which are zero outside
memory. -/
theorem memory_holds_latest (m : Machine) (standard : m.table.Standard) (n : Nat) :
    let start := State.initial m.env
    let s := m.trace start n
    let held := m.held start n
    s.memory.size % 32 = 0 ∧
    (∀ i ≤ n, (m.trace start i).memory.size ≤ s.memory.size) ∧
    (∀ i < n, ∀ address, m.stored? (m.trace start i) address ≠ none →
      address < s.memory.size) ∧
    (∀ address < s.memory.size,
      (Bytes.toList s.memory.bytes)[address]? = some (held address)) ∧
    (∀ address, s.memory.size ≤ address → held address = 0) ∧
    (∀ address,
      ((∀ i < n, m.stored? (m.trace start i) address = none) ∧ held address = 0) ∨
      ∃ i < n, m.stored? (m.trace start i) address = some (held address) ∧
        ∀ j, i < j → j < n → m.stored? (m.trace start j) address = none) ∧
    (m.performed? s = some .mload → (m.step s).state.stack.words =
      Word.ofBytes (Bytes.ofMap held (s.operand 0).toNat 32) :: s.stack.words.drop 1) ∧
    (m.performed? s = some .keccak256 → (m.step s).state.stack.words =
      Keccak.hash (Bytes.ofMap held (s.operand 0).toNat (s.operand 1).toNat) ::
        s.stack.words.drop 2) ∧
    (m.performed? s = some .ret ∨ m.performed? s = some .revert → (m.step s).state.output =
      Bytes.ofMap held (s.operand 0).toNat (s.operand 1).toNat) := by
  intro start s held
  have hblank : ∀ address, start.memory.byteAt address = 0 :=
    fun address => Memory.byteAt_of_size_le (Nat.zero_le address)
  have hheld : s.memory.byteAt = held := by
    funext address
    exact Machine.byteAt_trace standard hblank n address
  refine ⟨s.memory.aligned, fun i hi => m.size_trace_le start hi,
    fun i hi address hstored => ?_, fun address hlt => ?_, fun address hle => ?_,
    Machine.held_latest m start n, ?_⟩
  -- the step that stores it leaves it inside, and memory does not shrink from there
  · exact Nat.lt_of_lt_of_le (Machine.lt_size_of_stored? standard hstored)
      (m.size_trace_le start hi)
  · rw [Memory.getElem?_bytes hlt, hheld]
  · rw [← hheld]
    exact Memory.byteAt_of_size_le hle
  · rw [← hheld]
    exact ⟨Machine.words_of_mload standard, Machine.words_of_keccak256 standard,
      Machine.output_of_return standard⟩

/-- A code that stores a word across the end of the first unit, then a byte over the last one of
it, then a copy from behind the code over that, and loads a word from before it all. -/
def overlappingMachine : Machine where
  program := .load (.ofList [0x61, 0x11, 0x22, 0x60, 0x03, 0x52, 0x60, 0xaa, 0x60, 0x22, 0x53,
    0x60, 0x03, 0x60, 0x30, 0x60, 0x22, 0x39, 0x60, 0x21, 0x51])
  env := .blank
  table := .reference

/-- The address that all three stores cover has the byte of each in turn, and the load pushes what
is left of the word, with a byte from outside memory at its end. -/
theorem memory_holds_latest_of_overlap :
    let run := overlappingMachine.trace (State.initial overlappingMachine.env)
    (Bytes.toList (run 3).memory.bytes)[34]? = some 0x22 ∧
      (Bytes.toList (run 6).memory.bytes)[34]? = some 0xaa ∧
      (Bytes.toList (run 10).memory.bytes)[34]? = some 0 ∧
      overlappingMachine.performed? (run 11) = some .mload ∧ (run 11).memory.size = 64 ∧
      (overlappingMachine.step (run 11)).state.stack.words = [BitVec.ofNat 256 (0x11 * 2 ^ 248)] := by
  intro run
  have hbuiltIn : overlappingMachine.table.IsBuiltIn := .inl rfl
  have hsizes : 34 < (run 3).memory.size ∧ 34 < (run 6).memory.size ∧
      34 < (run 10).memory.size ∧ (run 11).memory.size = 64 := by decide +kernel
  have hheld : overlappingMachine.held (run 0) 3 34 = 0x22 ∧
      overlappingMachine.held (run 0) 6 34 = 0xaa ∧ overlappingMachine.held (run 0) 10 34 = 0 := by
    decide +kernel
  have hbyte : ∀ n byte, 34 < (run n).memory.size →
      overlappingMachine.held (run 0) n 34 = byte →
      (Bytes.toList (run n).memory.bytes)[34]? = some byte := by
    intro n byte hsize hheld
    rw [← hheld]
    exact (memory_holds_latest overlappingMachine hbuiltIn.standard n).2.2.2.1 34 hsize
  have hload : overlappingMachine.performed? (run 11) = some .mload := by decide +kernel
  have hword := (memory_holds_latest overlappingMachine hbuiltIn.standard 11).2.2.2.2.2.2.1 hload
  refine ⟨hbyte 3 _ hsizes.1 hheld.1, hbyte 6 _ hsizes.2.1 hheld.2.1,
    hbyte 10 _ hsizes.2.2.1 hheld.2.2, hload, hsizes.2.2.2, ?_⟩
  rw [hword]
  decide +kernel

end Retrace
