import Retrace.Proofs.Machine.Step
/-!
# Retrace — two machines that make one run

Two machines whose steps agree at every state that the first one comes to make
the same run (`coincides_of_step`): the second is never anywhere else, so that it
is never asked about a state at which the two differ. What remains to be shown
of two machines is then a single step (`step_congr`). A step looks a byte up in
the table once, and nothing that it does afterwards depends on the table
(`step_withTable`).
-/

namespace Retrace

namespace Machine

variable {m m' : Machine} {s : State} {n : Nat}

/-- The first `n` steps of the first machine are those of the second: it comes to the same states,
its steps have the same outcomes, and so have its runs of no more steps than that. -/
structure Coincides (m m' : Machine) (s : State) (n : Nat) : Prop where
  trace_eq : ∀ i ≤ n, m'.trace s i = m.trace s i
  step_eq : ∀ i < n, m'.step (m'.trace s i) = m.step (m.trace s i)
  run_eq : ∀ i ≤ n, m'.run i s = m.run i s

theorem trace_eq_of_step (h : ∀ i < n, m'.step (m.trace s i) = m.step (m.trace s i)) :
    m'.trace s n = m.trace s n := by
  induction n with
  | zero => rfl
  | succ n ih =>
    have hbefore : m'.trace s n = m.trace s n := ih fun i hi => h i (Nat.lt_succ_of_lt hi)
    rw [trace, trace, hbefore, h n (Nat.lt_succ_self n)]

theorem run_eq_of_step (h : ∀ i < n, m'.step (m.trace s i) = m.step (m.trace s i)) :
    m'.run n s = m.run n s := by
  induction n generalizing s with
  | zero => rfl
  | succ n ih =>
    have hfirst : m'.step s = m.step s := h 0 (Nat.succ_pos n)
    rw [run, run, hfirst]
    cases hstep : m.step s with
    | halted final reason => rfl
    | continued next =>
      have hnext : next = (m.step s).state := by rw [hstep]; rfl
      refine ih fun i hi => ?_
      rw [hnext, trace_step]
      exact h (i + 1) (Nat.succ_lt_succ hi)

/-- **Machines whose steps agree along the run of the first make the same run.** -/
theorem coincides_of_step (h : ∀ i < n, m'.step (m.trace s i) = m.step (m.trace s i)) :
    m.Coincides m' s n where
  trace_eq i hi := trace_eq_of_step fun j hj => h j (by omega)
  step_eq i hi := by
    have htrace : m'.trace s i = m.trace s i := trace_eq_of_step fun j hj => h j (by omega)
    rw [htrace]
    exact h i hi
  run_eq i hi := run_eq_of_step fun j hj => h j (by omega)

/-- A run that has halted stands still. -/
theorem trace_of_halted {reason : Halt} (h : s.halted = some reason) (n : Nat) :
    m.trace s n = s :=
  trace_induction (motive := (· = s)) rfl (fun t ht => by rw [ht, step_of_halted h]; rfl) n

/-- **A run ends for the reason for which one of its steps does.** -/
theorem reason?_run {i : Nat} (hi : i < n) {reason : Halt}
    (h : (m.step (m.trace s i)).reason? = some reason) : (m.run n s).reason? = some reason := by
  induction n generalizing s i with
  | zero => omega
  | succ n ih =>
    rw [run]
    cases hstep : m.step s with
    | continued next =>
      have hnext : next = (m.step s).state := by rw [hstep]; rfl
      cases i with
      | zero =>
        rw [trace, hstep] at h
        cases h
      | succ i =>
        rw [← trace_step, ← hnext] at h
        exact ih (Nat.lt_of_succ_lt_succ hi) h
    | halted final cause =>
      -- the first step has halted, and the later ones repeat its reason
      cases i with
      | zero =>
        rw [trace, hstep] at h
        exact h
      | succ i =>
        have hfinal : (m.step s).state.halted = some cause := by
          rw [halted_step, hstep]
          rfl
        rw [← trace_step, trace_of_halted hfinal, step_of_halted hfinal] at h
        exact h

/-! ## A single step -/

/-- **A step is what is found in the program, in the table, and then the entry applied.** Machines
over one program that agree on the rest, where it matters, make the same step. -/
theorem step_congr (hprogram : m'.program = m.program)
    (h : ∀ byte, s.halted = none → m.program.isMarked byte s.pc = true →
      m'.table.get? byte = m.table.get? byte ∧
        ∀ entry, m.table.get? byte = some entry → m'.apply entry s = m.apply entry s) :
    m'.step s = m.step s := by
  unfold step
  rw [hprogram]
  split
  · rfl
  · rename_i running
    split
    · rfl
    · rename_i byte hbyte
      split
      · rename_i hboundary
        obtain ⟨hget, happly⟩ := h byte running (Program.isMarked_iff.2 ⟨hboundary, hbyte⟩)
        rw [hget]
        cases hentry : m.table.get? byte with
        | none => rfl
        | some entry => exact happly entry hentry
      · rfl

/-- The machine with another table. -/
def withTable (m : Machine) (table : Table) : Machine := { m with table }

/-- **A step depends on the table by the byte that it carries out**, and by no other. -/
theorem step_withTable {table : Table}
    (h : ∀ byte, s.halted = none → m.program.isMarked byte s.pc = true →
      table.get? byte = m.table.get? byte) : (m.withTable table).step s = m.step s :=
  step_congr rfl fun byte running found => ⟨h byte running found, fun _ _ => rfl⟩

end Machine

end Retrace
