import Retrace.Proofs.Machine.Run
import Retrace.Proofs.Session.Stops
/-!
# Retrace — a continued run is a run

There are two ways to carry out many steps. A machine runs, and looks at the
outcome of each step; a session that is continued without breakpoints moves over
its records and makes new ones, and looks at the snapshots. They come to the same
state, and they tell alike how that came about: by a halt, or because the steps
were spent (`EndsForward.agrees`). That a session had halted before its first
step, or halts on the very last one, makes no difference, and if no step is
allowed then neither of the two notices a halt.
-/

namespace Retrace

namespace Outcome

/-- What a session replies that has come to an outcome with as many steps as it may take. -/
def stopReason (outcome : Outcome) (limit : Nat) : StopReason :=
  match outcome with
  | .continued _ => .stepLimit limit
  | .halted _ reason => .halted reason

variable (outcome : Outcome) (limit : Nat)

/-- The reply is the reason for halting, or the limit for want of one. -/
theorem stopReason_eq_getD :
    outcome.stopReason limit = (outcome.reason?.map .halted).getD (.stepLimit limit) := by
  cases outcome with
  | continued t => rfl
  | halted t why => rfl

theorem stopReason_eq_halted_iff {reason : Halt} :
    outcome.stopReason limit = .halted reason ↔ ∃ t, outcome = .halted t reason := by
  cases outcome with
  | continued t => simp [stopReason]
  | halted t why => simp [stopReason]

theorem stopReason_eq_stepLimit_iff :
    outcome.stopReason limit = .stepLimit limit ↔ ∃ t, outcome = .continued t := by
  cases outcome with
  | continued t => simp [stopReason]
  | halted t why => simp [stopReason]

end Outcome

namespace Machine

variable {m : Machine} {s : State} {c count : Nat}

/-- Without breakpoints only a halt is a reason to stop. -/
theorem stopAt?_empty (m : Machine) (s : State) (k : Nat) :
    m.stopAt? s .empty k = (m.trace s k).halted.map .halted := rfl

/-- What a run has come to after some of its steps, if the trace has halted by then. -/
theorem run_of_haltsAt {k : Nat} {reason : Halt} (hhalted : (m.trace s k).halted = some reason)
    (hcount : 0 < count) (hk : k ≤ c + count) :
    (m.run count (m.trace s c)).state = m.trace s k ∧
      (m.run count (m.trace s c)).reason? = some reason := by
  have hlast : m.trace s (c + count) = m.trace s k := trace_eq_of_halted hhalted hk
  obtain ⟨n, rfl⟩ := Nat.exists_eq_succ_of_ne_zero (Nat.ne_of_gt hcount)
  rw [state_run, reason?_run_succ, trace_add, hlast]
  exact ⟨rfl, hhalted⟩

/-- **Without breakpoints a loop forward ends as the run of as many steps.** It comes to the same
state, and has been stopped exactly where the run has halted, for the same reason. -/
theorem EndsForward.agrees {j : Nat} {reason : Option StopReason}
    (h : EndsForward m s .empty c count j reason)
    (running : ∀ i < j, (m.trace s i).halted = none) :
    (m.run count (m.trace s c)).state = m.trace s j ∧
      reason = (m.run count (m.trace s c)).reason?.map .halted := by
  cases h with
  | event first stop =>
    obtain ⟨hlow, hhigh, -⟩ := first.1
    rw [stopAt?_empty] at stop
    obtain ⟨why, hwhy, rfl⟩ := Option.map_eq_some_iff.1 stop
    obtain ⟨hstate, hreason⟩ := run_of_haltsAt hwhy (by omega : 0 < count) hhigh
    exact ⟨hstate, by rw [hreason]; rfl⟩
  | stood allowed halts =>
    obtain ⟨hstate, hreason⟩ := run_of_haltsAt halts.halted allowed (Nat.le_add_right c count)
    exact ⟨hstate, by rw [hreason]; rfl⟩
  | spent quiet moves =>
    refine ⟨by rw [state_run, trace_add], ?_⟩
    cases count with
    | zero => rfl
    | succ count =>
      -- a halt on the last step would be an event
      have hlast : (m.trace s (c + (count + 1))).halted = none := by
        refine Option.eq_none_iff_forall_ne_some.2 fun why hwhy => ?_
        have hevent : m.EventAt s .empty (c + (count + 1)) := ⟨running, .inr ⟨why, hwhy⟩⟩
        exact Set.eq_empty_iff_forall_notMem.1 quiet _ ⟨by omega, Nat.le_refl _, hevent⟩
      rw [reason?_run_succ, trace_add, hlast]
      rfl

end Machine

namespace Session

variable {s : Session} {m : Machine} {limit : Nat}

/-- So does a session: it shows the state of the run, and replies as the outcome tells. -/
theorem Runs.continueForward_empty (hs : s.Runs m limit) :
    (s.continueForward .empty).1.current.state = (m.run limit s.current.state).state ∧
      (s.continueForward .empty).2 = (m.run limit s.current.state).stopReason limit := by
  have hahead := hs.movesTo (movesTo_move s (.continueForward .empty))
  obtain ⟨reason, hends, hreply⟩ := hs.continueForward .empty
  obtain ⟨hstate, hreason⟩ := hends.agrees fun i hi => hahead.running hi
  have hbefore : s.current.state = m.trace (State.initial m.env) s.position :=
    congrArg Snapshot.state hs.current_eq
  have hafter : (s.continueForward .empty).1.current.state =
      m.trace (State.initial m.env) (s.continueForward .empty).1.position :=
    congrArg Snapshot.state hahead.current_eq
  rw [hbefore, hafter, hreply, hreason, hstate, Outcome.stopReason_eq_getD]
  exact ⟨rfl, rfl⟩

end Session

/-- **Runs compose, and a continued run is one of them.** A run that goes on after some steps is
resumed by the others from the state that it has come to; one that has halted is not changed by
more of them. Wherever a session stands, and whatever it has recorded, continuing it without
breakpoints comes to the state of the run of as many steps as it may take. It says that it has
halted exactly where that run has, for the same reason, and that its steps are spent exactly where
that run goes on. -/
theorem run_composes_and_continues (m : Machine) :
    (∀ s a b,
      (∀ t, m.run a s = .continued t → m.run (a + b) s = m.run b t) ∧
      (∀ t reason, m.run a s = .halted t reason → m.run (a + b) s = m.run a s)) ∧
    ∀ (limit : Nat) (before : List Session.Move),
      let session := (Session.start m limit).moves before
      let after := (session.continueForward .empty).1
      let reply := (session.continueForward .empty).2
      let outcome := m.run limit session.current.state
      after.current.state = outcome.state ∧
      (∀ reason, reply = .halted reason ↔ ∃ t, outcome = .halted t reason) ∧
      (reply = .stepLimit limit ↔ ∃ t, outcome = .continued t) := by
  refine ⟨fun s a b => ⟨fun t ht => ?_, fun t reason ht => ?_⟩, fun limit before => ?_⟩
  · rw [Machine.run_add, ht]
    rfl
  · rw [Machine.run_add, ht]
    rfl
  · intro session after reply outcome
    have hs : session.Runs m limit := Session.runs_moves m limit before
    obtain ⟨hstate, hreply⟩ := hs.continueForward_empty
    have hsame : reply = outcome.stopReason limit := hreply
    rw [hsame]
    exact ⟨hstate, fun reason => outcome.stopReason_eq_halted_iff limit,
      outcome.stopReason_eq_stepLimit_iff limit⟩

/-- Three steps and a fourth one, which stops, are a run of four, and five more change nothing. With
a limit of four the session notices the halt on its last step, and with a limit of one it notices
that it had halted before. Where it may make no step it does not look. -/
theorem run_composes_and_continues_of_last_step :
    let s := State.initial addingMachine.env
    let unmoved := Session.start addingMachine 4
    let halted := (Session.start addingMachine 1).moves [.goto 4]
    let idle := (Session.start addingMachine 0).moves [.goto 4]
    addingMachine.run (3 + 1) s = addingMachine.run 1 (addingMachine.trace s 3) ∧
    addingMachine.run (4 + 5) s = addingMachine.run 4 s ∧
    (unmoved.continueForward .empty).2 = .halted .stopped ∧
    (halted.continueForward .empty).2 = .halted .stopped ∧
    (idle.continueForward .empty).2 = .stepLimit 0 := by
  intro s unmoved halted idle
  have hgoes : addingMachine.run 3 s = .continued (addingMachine.trace s 3) := by decide +kernel
  have hstops : addingMachine.run 4 s = .halted (addingMachine.trace s 4) .stopped := by
    decide +kernel
  have hrested :
      addingMachine.run 1 halted.current.state = .halted halted.current.state .stopped := by
    decide +kernel
  have hidle : addingMachine.run 0 idle.current.state = .continued idle.current.state := rfl
  obtain ⟨hcomposes, hcontinues⟩ := run_composes_and_continues addingMachine
  obtain ⟨-, hlast, -⟩ := hcontinues 4 []
  obtain ⟨-, hagain, -⟩ := hcontinues 1 [.goto 4]
  obtain ⟨-, -, hnone⟩ := hcontinues 0 [.goto 4]
  exact ⟨(hcomposes s 3 1).1 _ hgoes, (hcomposes s 4 5).2 _ _ hstops,
    (hlast .stopped).2 ⟨_, hstops⟩, (hagain .stopped).2 ⟨_, hrested⟩, hnone.2 ⟨_, hidle⟩⟩

end Retrace
