import Retrace.Proofs.Machine.Accounts
/-!
# Retrace — gas bounds every run

Under a built-in table no instruction is free that lets the machine go on. Most
pay a base fee. Of those that do not, one writes to storage and pays for that,
one always fails and the others halt (`charge_pos`). A step that continues has
therefore less gas than before (`gas_lt_of_continued`), whatever memory did to
the price, and a machine that keeps running loses at least one unit a step: as
many steps as there is gas and one more bring every run to its end.
-/

namespace Retrace

/-- **No instruction goes on for free.** One that does not halt the machine and can succeed at all
has a base fee or charges for what it handles. -/
theorem charge_pos {op : Opcode} (s : State) (goes : (Entry.standard op).halts = none)
    (hop : op ≠ .invalid) : 0 < Gas.baseFee op + op.handling s := by
  cases op with
  | stop | ret | revert => cases goes
  | invalid => exact absurd rfl hop
  | sstore =>
    simp only [Opcode.handling]
    split <;> omega
  | _ => exact Nat.add_pos_left (Nat.succ_pos _) _

namespace Outcome

/-- A step that has not halted continues with its state. -/
theorem eq_continued_of_reason? {outcome : Outcome} (h : outcome.reason? = none) :
    outcome = .continued outcome.state := by
  cases outcome with
  | continued s => rfl
  | halted s reason => cases h

end Outcome

namespace Machine

variable {m : Machine} {s next : State}

/-! ## At a step -/

/-- Only a step that carries out an instruction continues. -/
theorem exists_performed?_of_continued (ht : m.table.IsBuiltIn) (h : m.step s = .continued next) :
    ∃ op, m.performed? s = some op ∧ (Entry.standard op).halts = none ∧ op ≠ .invalid := by
  have hway := m.stepped s
  generalize hstep : m.step s = outcome at hway
  cases hway with
  | carried running op found entry known _ after success =>
    have hop := performed?_of_carried ht.standard running found known hstep
    obtain rfl := ht.entry_eq known
    refine ⟨op, hop, ?_, ?_⟩
    · have hreason := congrArg Outcome.reason? (hstep.symm.trans h)
      rw [Outcome.reason?_ofSuccess] at hreason
      exact hreason
    · rintro rfl
      cases success
  | rested | ended | strayed | unknown | faulted =>
    rw [hstep] at h
    cases h

/-- **A step that continues has spent gas.** -/
theorem gas_lt_of_continued (ht : m.table.IsBuiltIn) (h : m.step s = .continued next) :
    next.gas < s.gas := by
  obtain ⟨op, hop, hgoes, hinvalid⟩ := exists_performed?_of_continued ht h
  obtain ⟨haccount, hpaid⟩ := account_of_performed? ht hop
  have hcharge := charge_pos s hgoes hinvalid
  have hprice := Gas.idealPrice_mono haccount.units_le
  have hgas := gas_step_eq ht s
  have hnext : (m.step s).state = next := by rw [h]; rfl
  unfold Machine.charge at hgas
  rw [hop] at hgas
  -- memory only grows, so that its price does not give back what the step charges
  have hunits : units (s.entered (Gas.baseFee op)).memory.size = units s.memory.size := rfl
  rw [hnext] at hgas hprice
  rw [hunits] at hprice
  simp only at hgas
  omega

/-! ## Along a run -/

/-- **Every run comes to an end**, after at most one step more than there is gas. -/
theorem run_halts (ht : m.table.IsBuiltIn) (count : Nat) (s : State) (h : s.gas < count) :
    ∃ final reason, m.run count s = .halted final reason := by
  induction count generalizing s with
  | zero => exact absurd h (Nat.not_lt_zero _)
  | succ count ih =>
    rw [run]
    cases hstep : m.step s with
    | halted final reason => exact ⟨final, reason, rfl⟩
    | continued next =>
      have hspent := gas_lt_of_continued ht hstep
      exact ih next (by omega)

/-- A machine that is running after a step was running before it, and the step has continued. -/
theorem continued_of_running (h : (m.step s).state.halted = none) :
    s.halted = none ∧ m.step s = .continued (m.step s).state := by
  rw [halted_step] at h
  refine ⟨?_, Outcome.eq_continued_of_reason? h⟩
  cases hhalted : s.halted with
  | none => rfl
  | some reason =>
    rw [step_of_halted hhalted] at h
    cases h

/-- **A machine that is still running has paid for each of its steps.** -/
theorem gas_trace_add_le (ht : m.table.IsBuiltIn) (s : State) (n : Nat)
    (running : (m.trace s n).halted = none) : (m.trace s n).gas + n ≤ s.gas := by
  induction n with
  | zero => exact Nat.le_refl _
  | succ n ih =>
    obtain ⟨hrunning, hcontinued⟩ := continued_of_running running
    have hbefore := ih hrunning
    have hspent := gas_lt_of_continued ht hcontinued
    rw [trace]
    omega

end Machine

end Retrace
