import Retrace.Proofs.Machine.Coincidence
/-!
# Retrace — what a run comes to

A run hands an outcome from step to step, the trace only states. They say the
same: a run has come to the state of the trace (`state_run`), and if it has made
a step at all, then it has halted exactly where that state has, and for the
reason recorded there (`reason?_run_succ`). A run of no steps goes on even from
a state that has halted, for it has not looked. A run cut in two resumes from
where the first part has left it, unless it had ended there (`run_add`).
-/

namespace Retrace

/-- Go on from an outcome, unless it has halted. -/
def Outcome.resume (outcome : Outcome) (next : State → Outcome) : Outcome :=
  match outcome with
  | .continued s => next s
  | .halted s reason => .halted s reason

namespace Machine

variable {m : Machine} {s : State}

/-! ## Traces -/

/-- A trace cut in two goes on from the state at the cut. -/
theorem trace_add (m : Machine) (s : State) (c n : Nat) :
    m.trace (m.trace s c) n = m.trace s (c + n) := by
  induction n with
  | zero => rfl
  | succ n ih => exact congrArg (fun t => (m.step t).state) ih

/-- From a halt on, a trace stands still. -/
theorem trace_eq_of_halted {reason : Halt} {k n : Nat} (h : (m.trace s k).halted = some reason)
    (hk : k ≤ n) : m.trace s n = m.trace s k := by
  obtain ⟨d, rfl⟩ := Nat.exists_eq_add_of_le hk
  rw [← trace_add, trace_of_halted h]

/-! ## Runs -/

/-- What a step has halted with stands in the state that it leads to. -/
theorem halted_of_step {final : State} {reason : Halt} (h : m.step s = .halted final reason) :
    final.halted = some reason := by
  have hhalted := m.halted_step s
  rw [h] at hhalted
  exact hhalted

/-- **A run comes to the state of the trace.** One that ends before its steps are spent stays where
the trace stands still. -/
theorem state_run (m : Machine) (n : Nat) (s : State) : (m.run n s).state = m.trace s n := by
  induction n generalizing s with
  | zero => rfl
  | succ n ih =>
    rw [run, ← trace_step]
    cases hstep : m.step s with
    | continued next => exact ih next
    | halted final reason => exact (trace_of_halted (halted_of_step hstep) n).symm

/-- **A run that has made a step has halted where its state has.** -/
theorem reason?_run_succ (m : Machine) (n : Nat) (s : State) :
    (m.run (n + 1) s).reason? = (m.trace s (n + 1)).halted := by
  induction n generalizing s with
  | zero =>
    rw [trace, trace, halted_step, run]
    cases m.step s with
    | continued next => rfl
    | halted final reason => rfl
  | succ n ih =>
    rw [run, ← trace_step]
    cases hstep : m.step s with
    | continued next => exact ih next
    | halted final reason =>
      have hfinal := halted_of_step hstep
      show some reason = (m.trace final (n + 1)).halted
      rw [trace_of_halted hfinal, hfinal]

/-- **Runs compose**, like the steps that they are made of. -/
theorem run_add (m : Machine) (a b : Nat) (s : State) :
    m.run (a + b) s = (m.run a s).resume (m.run b) := by
  induction a generalizing s with
  | zero =>
    rw [Nat.zero_add]
    rfl
  | succ a ih =>
    rw [Nat.succ_add, run, run]
    cases m.step s with
    | continued next => exact ih next
    | halted final reason => rfl

end Machine

end Retrace
