import Retrace.Proofs.Machine.Spending
import Retrace.Proofs.Session.Log
/-!
# Retrace — how long a log can grow

What bounds a run bounds its log. A record that another one follows is running,
so that its step has continued and has spent gas: the gas used grows from record
to record, but for the last one, which may have halted for nothing. A log has
therefore at most two records more than there is gas to start with, one for the
start and one for the halt, and a session sent beyond that comes back.
-/

namespace Retrace

namespace History

variable {m : Machine} {s : State} {h : History}

/-- **Gas used grows along a log**, unless the step comes to the halt at its end. -/
theorem Records.gasUsed_lt (hr : h.Records m s) (ht : m.table.IsBuiltIn) {i : Nat}
    (hi : i < h.log.size) (hnext : i + 1 < h.log.size) :
    h.log[i].gasUsed < h.log[i + 1].gasUsed ∨
      i + 2 = h.log.size ∧ h.log[i + 1].isHalted = true := by
  rw [hr.log_eq i hi, hr.log_eq (i + 1) hnext]
  cases hhalted : (m.trace s (i + 1)).halted with
  | none =>
    obtain ⟨-, hcontinued⟩ := Machine.continued_of_running hhalted
    have hspent : (m.trace s (i + 1)).gas < (m.trace s i).gas :=
      Machine.gas_lt_of_continued ht hcontinued
    have hstart := m.gas_trace_le s i
    refine .inl ?_
    show s.gas - (m.trace s i).gas < s.gas - (m.trace s (i + 1)).gas
    omega
  | some reason =>
    -- behind a halt nothing is recorded
    have hlast : ¬ i + 1 + 1 < h.log.size := by
      intro hlt
      rw [hr.running (i + 1) hlt] at hhalted
      cases hhalted
    refine .inr ⟨by omega, ?_⟩
    show (m.trace s (i + 1)).halted.isSome = true
    rw [hhalted]
    rfl

/-- **A log is no longer than its gas lasts.** -/
theorem Records.size_le (hr : h.Records m s) (ht : m.table.IsBuiltIn) :
    h.log.size ≤ s.gas + 2 := by
  rcases Nat.lt_or_ge h.log.size 2 with hlt | hge
  · omega
  · have hrunning := hr.running (h.log.size - 2) (by omega)
    have hpaid := Machine.gas_trace_add_le ht s _ hrunning
    omega

end History

namespace Session

variable {m : Machine} {limit : Nat} {s : Session}

/-- No session stands further than its gas lasts. -/
theorem Runs.position_le (hs : s.Runs m limit) (ht : m.table.IsBuiltIn) :
    s.position ≤ m.env.gasLimit + 1 := by
  have hsize : s.history.log.size ≤ m.env.gasLimit + 2 := hs.records.size_le ht
  have hcursor : s.position < s.history.log.size := s.history.cursor_lt
  omega

/-- **What lies beyond the gas cannot be gone to.** The refusal names a step that does not. -/
theorem Runs.goto_beyond (hs : s.Runs m limit) (ht : m.table.IsBuiltIn) {step : Nat}
    (hstep : m.env.gasLimit + 1 < step) :
    ∃ highest, highest ≤ m.env.gasLimit + 1 ∧ (s.goto step).2 = .error ⟨step, highest⟩ := by
  have hmoved := hs.movesTo (movesTo_stepForwardBy (step - s.position) s)
  have hposition := hmoved.position_le ht
  have hsize : (stepForwardBy (step - s.position) s).history.log.size ≤ m.env.gasLimit + 2 :=
    hmoved.records.size_le ht
  refine ⟨(stepForwardBy (step - s.position) s).history.highest, ?_, ?_⟩
  · show (stepForwardBy (step - s.position) s).history.log.size - 1 ≤ m.env.gasLimit + 1
    omega
  · unfold goto
    dsimp only
    rw [if_pos (by omega)]

end Session

/-- **Gas bounds every run.** A step that continues spends gas, so that a run ends within one step
more than it has gas. In a session the gas used grows from record to record, unless the last one
has halted; no more than two records more than the gas limit are made; and a step behind them
cannot be gone to. -/
theorem gas_bounds_run (m : Machine) (builtIn : m.table.IsBuiltIn) :
    (∀ s next, m.step s = .continued next → next.gas < s.gas) ∧
    (∀ s count, s.gas + 1 ≤ count → ∃ final reason, m.run count s = .halted final reason) ∧
    ∀ (limit : Nat) (moves : List Session.Move),
      let session := (Session.start m limit).moves moves
      let log := session.history.log
      (∀ i (hi : i + 1 < log.size), log[i].gasUsed < log[i + 1].gasUsed ∨
        i + 2 = log.size ∧ log[i + 1].isHalted = true) ∧
      log.size ≤ m.env.gasLimit + 2 ∧
      ∀ step, m.env.gasLimit + 1 < step →
        ∃ highest, highest ≤ m.env.gasLimit + 1 ∧
          (session.goto step).2 = .error ⟨step, highest⟩ := by
  refine ⟨fun s next => Machine.gas_lt_of_continued builtIn,
    fun s count hcount => Machine.run_halts builtIn count s hcount, fun limit moves => ?_⟩
  have hs := Session.runs_moves m limit moves
  exact ⟨fun i hi => hs.records.gasUsed_lt builtIn (by omega) hi, hs.records.size_le builtIn,
    fun step hstep => hs.goto_beyond builtIn hstep⟩

/-- A code that goes round in a circle, with gas for two rounds and a little. -/
def circlingMachine : Machine where
  program := .load (.ofList [0x5b, 0x60, 0x00, 0x56])
  env := { Environment.blank with gasLimit := 26 }
  table := .reference

/-- Its first step spends gas, it runs out of gas within twenty-seven steps, and step twenty-eight
cannot be gone to. -/
theorem gas_bounds_run_of_circle :
    let start := State.initial circlingMachine.env
    circlingMachine.step start = .continued (circlingMachine.trace start 1) ∧
    (circlingMachine.trace start 1).gas < start.gas ∧
    (∃ final reason, circlingMachine.run 27 start = .halted final reason) ∧
    ∃ highest, highest ≤ 27 ∧
      ((Session.start circlingMachine 10).goto 28).2 = .error ⟨28, highest⟩ := by
  intro start
  have hstep : circlingMachine.step start = .continued (circlingMachine.trace start 1) := by
    decide +kernel
  obtain ⟨hspent, hrun, hsession⟩ := gas_bounds_run circlingMachine (.inl rfl)
  obtain ⟨-, -, hgoto⟩ := hsession 10 []
  exact ⟨hstep, hspent _ _ hstep, hrun _ 27 (by decide), hgoto 28 (by decide)⟩

end Retrace
