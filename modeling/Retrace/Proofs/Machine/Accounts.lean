import Retrace.Proofs.Machine.Step
/-!
# Retrace — where the gas goes

A step that carries out an instruction pays its base fee, its handling, and the
difference that the growth of memory makes to the price of memory. The price is
computed in one place and memory grows in another, so that they agree is a
theorem: the account that `Effect` keeps for each instruction, read at the step.
Over a run the differences add up to the price of the last memory less that of
the first, whatever happened in between.
-/

namespace Retrace

/-! ## At a step -/

/-- The size of memory that an account leaves behind, in bytes. -/
theorem Account.size_eq {op : Opcode} {s next : State} (h : Account op s next) :
    next.memory.size =
      if (op.touched s).2 = 0 then s.memory.size
      else max s.memory.size (32 * (((op.touched s).1 + (op.touched s).2 + 31) / 32)) := by
  rw [h.size_memory]
  by_cases hzero : (op.touched s).2 = 0
  · rw [if_pos hzero, hzero, touchedEnd_zero, Nat.max_zero]
  · rw [if_neg hzero, touchedEnd_of_ne hzero]
    rfl

namespace Machine

variable {m : Machine} {s : State}

/-- **The account of a step**, its fee included. -/
theorem exists_account_of_performed? (ht : m.table.Standard) {op : Opcode}
    (h : m.performed? s = some op) :
    ∃ entry, m.table.entry? op = some entry ∧ entry.fee ≤ s.gas ∧
      Account op (s.entered entry.fee) (m.step s).state := by
  obtain ⟨entry, next, known, paid, success, hstep⟩ := execute_of_performed? ht h
  have haccount := (effect_of_execute success).account
  rw [hstep]
  -- halting touches neither gas nor memory
  exact ⟨entry, known, paid, haccount.size_memory, haccount.gas⟩

/-- **What a step pays**: the fee of its entry, the handling, and what the growth of memory adds to
the price of memory. -/
theorem gas_of_performed? (ht : m.table.Standard) {op : Opcode} {entry : Entry}
    (known : m.table.entry? op = some entry) (h : m.performed? s = some op) :
    (s.gas : Int) - (m.step s).state.gas = entry.fee + op.handling s +
      Gas.idealPrice ((m.step s).state.memory.size / 32) - Gas.idealPrice (s.memory.size / 32) := by
  obtain ⟨other, hother, hpaid, haccount⟩ := exists_account_of_performed? ht h
  obtain rfl := Option.some.inj (hother.symm.trans known)
  -- what is reached and handled is read off operands and storage, which the fee leaves alone
  have hgas : (m.step s).state.gas + op.handling s +
      Gas.idealPrice (units (m.step s).state.memory.size) =
        s.gas - other.fee + Gas.idealPrice (units s.memory.size) := haccount.gas
  rw [Memory.units_size, Memory.units_size] at hgas
  omega

/-- The account under a built-in table, where the fee is the base fee. -/
theorem account_of_performed? (ht : m.table.IsBuiltIn) {op : Opcode}
    (h : m.performed? s = some op) :
    Account op (s.entered (Gas.baseFee op)) (m.step s).state ∧ Gas.baseFee op ≤ s.gas := by
  obtain ⟨entry, known, paid, haccount⟩ := exists_account_of_performed? ht.standard h
  obtain rfl := ht.entry_eq known
  exact ⟨haccount, paid⟩

/-- A step that carries out no instruction changes nothing but the reason for halting. -/
theorem state_of_not_performed? (ht : m.table.Standard) (h : m.performed? s = none) :
    ∃ halted, (m.step s).state = { s with halted } := by
  have hway := m.stepped s
  generalize hstep : m.step s = outcome at hway ⊢
  cases hway with
  | carried running op found entry known =>
    have hop := performed?_of_carried ht running found known hstep
    rw [h] at hop
    cases hop
  | rested => exact ⟨s.halted, rfl⟩
  | ended => exact ⟨some .stopped, rfl⟩
  | strayed | unknown | faulted => exact ⟨some (.fault _), rfl⟩

/-! ## Along a run -/

/-- What a step charges besides the growth of memory: a base fee, and for handling. -/
def charge (m : Machine) (s : State) : Nat :=
  match m.performed? s with
  | some op => Gas.baseFee op + op.handling s
  | none => 0

/-- What the first `n` steps charge besides the growth of memory. -/
def charged (m : Machine) (s : State) : Nat → Nat
  | 0 => 0
  | n + 1 => charged m s n + m.charge (m.trace s n)

/-- The gas paid for memory in the first `n` steps: what is gone and was neither a base fee nor
charged for handling. -/
def memoryPaid (m : Machine) (s : State) (n : Nat) : Int :=
  s.gas - (m.trace s n).gas - m.charged s n

/-- Gas and the price of memory together lose in a step what it charges. -/
theorem gas_step_eq (ht : m.table.IsBuiltIn) (s : State) :
    (m.step s).state.gas + m.charge s + Gas.idealPrice (units (m.step s).state.memory.size) =
      s.gas + Gas.idealPrice (units s.memory.size) := by
  unfold charge
  cases hop : m.performed? s with
  | none =>
    obtain ⟨halted, hstep⟩ := state_of_not_performed? ht.standard hop
    rw [hstep]
    rfl
  | some op =>
    obtain ⟨haccount, hpaid⟩ := account_of_performed? ht hop
    -- what is reached and handled is read off operands and storage, which the fee leaves alone
    have hgas : (m.step s).state.gas + op.handling s +
        Gas.idealPrice (units (m.step s).state.memory.size) =
          s.gas - Gas.baseFee op + Gas.idealPrice (units s.memory.size) := haccount.gas
    show _ + (Gas.baseFee op + op.handling s) + _ = _
    omega

/-- And in a run what it has charged. -/
theorem gas_trace_eq (ht : m.table.IsBuiltIn) (s : State) (n : Nat) :
    (m.trace s n).gas + m.charged s n + Gas.idealPrice (units (m.trace s n).memory.size) =
      s.gas + Gas.idealPrice (units s.memory.size) := by
  induction n with
  | zero => rfl
  | succ n ih =>
    have hstep := gas_step_eq ht (m.trace s n)
    simp only [trace, charged]
    omega

end Machine

/-- **Gas is accounted for exactly.** A step that carries out an instruction pays the base fee, the
handling and the difference between the prices of the memory after and before; and memory has
grown to hold what was reached, and no further. What a run pays for memory depends on its first
and last memory only. -/
theorem gas_accounts (m : Machine) (builtIn : m.table.IsBuiltIn) :
    (∀ s op, m.performed? s = some op →
      let next := (m.step s).state
      let offset := (op.touched s).1
      let size := (op.touched s).2
      (s.gas : Int) - next.gas = Gas.baseFee op + op.handling s +
        Gas.idealPrice (next.memory.size / 32) - Gas.idealPrice (s.memory.size / 32) ∧
      next.memory.size =
        if size = 0 then s.memory.size
        else max s.memory.size (32 * ((offset + size + 31) / 32))) ∧
    ∀ s n, m.memoryPaid s n =
      Gas.idealPrice ((m.trace s n).memory.size / 32) - Gas.idealPrice (s.memory.size / 32) := by
  refine ⟨fun s op hop => ?_, fun s n => ?_⟩
  · obtain ⟨haccount, hpaid⟩ := Machine.account_of_performed? builtIn hop
    have hsize := haccount.size_eq
    have hgas := Machine.gas_step_eq builtIn s
    unfold Machine.charge at hgas
    rw [hop, Memory.units_size, Memory.units_size] at hgas
    refine ⟨?_, hsize⟩
    simp only at hgas ⊢
    omega
  · have hgas := Machine.gas_trace_eq builtIn s n
    rw [Memory.units_size, Memory.units_size] at hgas
    unfold Machine.memoryPaid
    omega

/-- A code that stores a word across the end of the first unit of memory. -/
def storingMachine : Machine where
  program := .load (.ofList [0x60, 0x05, 0x60, 0x0a, 0x52])
  env := .blank
  table := .reference

/-- Storing pays its base fee of three and six for two units, of which there was none. -/
theorem gas_accounts_of_store :
    let s := storingMachine.trace (State.initial storingMachine.env) 2
    let next := (storingMachine.step s).state
    storingMachine.performed? s = some .mstore ∧ (s.gas : Int) - next.gas = 9 ∧
      next.memory.size = 64 := by
  intro s next
  have hop : storingMachine.performed? s = some .mstore := by decide +kernel
  have hbefore : s.memory.size = 0 := by decide +kernel
  have hreach : Opcode.mstore.touched s = (10, 32) := by decide +kernel
  obtain ⟨hgas, hsize⟩ := (gas_accounts storingMachine (.inl rfl)).1 s .mstore hop
  have hafter : next.memory.size = 64 := by
    rw [hreach, hbefore] at hsize
    exact hsize
  rw [hafter, hbefore] at hgas
  exact ⟨hop, hgas, hafter⟩

end Retrace
