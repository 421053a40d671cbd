import Mathlib.Order.Bounds.Basic
import Retrace.Proofs.Session.Arrival
/-!
# Retrace — what there is to stop at

A run has events: the breakpoints that it comes to, and its halt. A run that is
continued forward has a finite reach, and in it lie the events that could stop
it (`Machine.events`); one that is continued backward has all the breakpoints
before it (`Machine.hits`). Both are sets of steps of the run, and know nothing
of what a session has recorded. `EndsForward` and `EndsBackward` have a case for
each way in which a loop over the steps may end. A loop that has more steps to
make hands on (`EndsForward.succ`, `EndsBackward.succ`), and of the ways to end
there is never more than one open to it (`EndsForward.unique`,
`EndsBackward.unique`).
-/

namespace Retrace

/-! ## Events and breakpoints -/

namespace Machine

variable (m : Machine) (s : State) (breakpoints : Breakpoints)

/-- The run comes to step `k`, and has a breakpoint there or has just halted. -/
structure EventAt (k : Nat) : Prop where
  running : ∀ j < k, (m.trace s j).halted = none
  event : breakpoints.contains (m.trace s k).pc = true ∨
    ∃ reason, (m.trace s k).halted = some reason

/-- The events among the `count` steps after step `c`. -/
def events (c count : Nat) : Set Nat := {k | c < k ∧ k ≤ c + count ∧ m.EventAt s breakpoints k}

/-- The steps before step `c` that have a breakpoint. -/
def hits (c : Nat) : Set Nat := {k | k < c ∧ breakpoints.contains (m.trace s k).pc = true}

/-- What stops a run forward at step `k`. A breakpoint comes first. -/
def stopAt? (k : Nat) : Option StopReason :=
  if breakpoints.contains (m.trace s k).pc then some (.breakpoint (m.trace s k).pc)
  else (m.trace s k).halted.map .halted

variable {m s breakpoints} {c count k : Nat}

theorem stopAt?_of_contains (hit : breakpoints.contains (m.trace s k).pc = true) :
    m.stopAt? s breakpoints k = some (.breakpoint (m.trace s k).pc) := if_pos hit

theorem stopAt?_of_halted {reason : Halt} (miss : breakpoints.contains (m.trace s k).pc = false)
    (halted : (m.trace s k).halted = some reason) :
    m.stopAt? s breakpoints k = some (.halted reason) := by
  rw [stopAt?, miss, halted]
  rfl

/-- An event is what has a reason to stop. -/
theorem stopAt?_eq_none_iff : m.stopAt? s breakpoints k = none ↔
    breakpoints.contains (m.trace s k).pc = false ∧ (m.trace s k).halted = none := by
  rw [stopAt?]
  cases breakpoints.contains (m.trace s k).pc with
  | true => simp
  | false => simp

/-- Without a reason to stop there is no event. -/
theorem not_eventAt_of_stopAt? (h : m.stopAt? s breakpoints k = none) :
    ¬ m.EventAt s breakpoints k := by
  obtain ⟨hmiss, hrunning⟩ := stopAt?_eq_none_iff.1 h
  rintro ⟨-, hhit | ⟨reason, hhalted⟩⟩
  · rw [hmiss] at hhit
    cases hhit
  · rw [hrunning] at hhalted
    cases hhalted

theorem eventAt_of_stopAt? {reason : StopReason} (running : ∀ j < k, (m.trace s j).halted = none)
    (h : m.stopAt? s breakpoints k = some reason) : m.EventAt s breakpoints k := by
  refine ⟨running, ?_⟩
  by_cases hhit : breakpoints.contains (m.trace s k).pc = true
  · exact .inl hhit
  · rw [stopAt?, if_neg hhit] at h
    obtain ⟨why, hwhy, -⟩ := Option.map_eq_some_iff.1 h
    exact .inr ⟨why, hwhy⟩

/-- An event at the next step is the first one. -/
theorem isLeast_events_succ (h : m.EventAt s breakpoints (c + 1)) :
    IsLeast (m.events s breakpoints c (count + 1)) (c + 1) :=
  ⟨⟨Nat.lt_succ_self c, by omega, h⟩, fun _ hk => hk.1⟩

/-- Past a step without an event there are the same events ahead. -/
theorem events_succ (h : ¬ m.EventAt s breakpoints (c + 1)) :
    m.events s breakpoints c (count + 1) = m.events s breakpoints (c + 1) count := by
  ext k
  constructor
  · rintro ⟨hlow, hhigh, hevent⟩
    have hne : k ≠ c + 1 := by
      rintro rfl
      exact h hevent
    exact ⟨by omega, by omega, hevent⟩
  · rintro ⟨hlow, hhigh, hevent⟩
    exact ⟨by omega, by omega, hevent⟩

/-- Behind a halt there are no events. -/
theorem HaltsAt.events_eq_empty {reason : Halt} (h : m.HaltsAt s c reason) :
    m.events s breakpoints c count = ∅ := by
  refine Set.eq_empty_of_forall_notMem ?_
  rintro k ⟨hlow, -, hevent⟩
  have hle := h.le_of_running hevent.running
  omega

/-- A breakpoint on the step before is the last one. -/
theorem isGreatest_hits_succ (h : breakpoints.contains (m.trace s c).pc = true) :
    IsGreatest (m.hits s breakpoints (c + 1)) c :=
  ⟨⟨Nat.lt_succ_self c, h⟩, fun _ hk => Nat.le_of_lt_succ hk.1⟩

/-- Back past a step without a breakpoint there are the same ones left. -/
theorem hits_succ (h : breakpoints.contains (m.trace s c).pc = false) :
    m.hits s breakpoints (c + 1) = m.hits s breakpoints c := by
  ext k
  constructor
  · rintro ⟨hlt, hhit⟩
    have hne : k ≠ c := by
      rintro rfl
      rw [h] at hhit
      cases hhit
    exact ⟨by omega, hhit⟩
  · rintro ⟨hlt, hhit⟩
    exact ⟨by omega, hhit⟩

/-! ## How a loop ends -/

/-- The ways in which at most `count` steps forward from step `c` end: the step come to, and the
reason if something has stopped them. -/
inductive EndsForward (m : Machine) (s : State) (breakpoints : Breakpoints) (c count : Nat) :
    Nat → Option StopReason → Prop
  /-- At the first event. -/
  | event {k : Nat} {reason : StopReason} (first : IsLeast (m.events s breakpoints c count) k)
      (stop : m.stopAt? s breakpoints k = some reason) :
      EndsForward m s breakpoints c count k reason
  /-- The run had halted before the first step. -/
  | stood {reason : Halt} (allowed : 0 < count) (halts : m.HaltsAt s c reason) :
      EndsForward m s breakpoints c count c (some (.halted reason))
  /-- All steps have been made. -/
  | spent (quiet : m.events s breakpoints c count = ∅)
      (moves : count = 0 ∨ (m.trace s c).halted = none) :
      EndsForward m s breakpoints c count (c + count) none

/-- The ways in which a run backward from step `c` ends. -/
inductive EndsBackward (m : Machine) (s : State) (breakpoints : Breakpoints) (c : Nat) :
    Nat → StopReason → Prop
  /-- At the last breakpoint. -/
  | hit {k : Nat} (last : IsGreatest (m.hits s breakpoints c) k) :
      EndsBackward m s breakpoints c k (.breakpoint (m.trace s k).pc)
  /-- At the first step, for want of one. -/
  | start (quiet : m.hits s breakpoints c = ∅) : EndsBackward m s breakpoints c 0 .startOfHistory

/-- A step forward to nothing to stop at hands on to the ones after it. -/
theorem EndsForward.succ {j : Nat} {reason : Option StopReason}
    (quiet : m.stopAt? s breakpoints (c + 1) = none) (running : (m.trace s c).halted = none)
    (rest : EndsForward m s breakpoints (c + 1) count j reason) :
    EndsForward m s breakpoints c (count + 1) j reason := by
  have hsame : m.events s breakpoints c (count + 1) = m.events s breakpoints (c + 1) count :=
    events_succ (not_eventAt_of_stopAt? quiet)
  cases rest with
  | event first stop => exact .event (hsame ▸ first) stop
  | stood _ halts =>
    have hgoes := (stopAt?_eq_none_iff.1 quiet).2
    rw [halts.halted] at hgoes
    cases hgoes
  | spent none _ =>
    have hend : c + 1 + count = c + (count + 1) := by omega
    rw [hend]
    exact .spent (hsame.trans none) (.inr running)

/-- A step back to no breakpoint hands on to the ones before it. -/
theorem EndsBackward.succ {j : Nat} {reason : StopReason}
    (miss : breakpoints.contains (m.trace s c).pc = false)
    (rest : EndsBackward m s breakpoints c j reason) :
    EndsBackward m s breakpoints (c + 1) j reason := by
  have hsame : m.hits s breakpoints (c + 1) = m.hits s breakpoints c := hits_succ miss
  cases rest with
  | hit last => exact .hit (hsame ▸ last)
  | start quiet => exact .start (hsame.trans quiet)

/-- A run that has halted has no step to make. -/
theorem HaltsAt.not_moves {reason : Halt} (halts : m.HaltsAt s c reason) (allowed : 0 < count) :
    ¬ (count = 0 ∨ (m.trace s c).halted = none) := by
  rintro (hzero | hrunning)
  · omega
  · rw [halts.halted] at hrunning
    cases hrunning

/-- **A run forward ends in one way only**: where there is an event it does not make all its steps,
and where it had halted there is none. -/
theorem EndsForward.unique {j j' : Nat} {reason reason' : Option StopReason}
    (h : EndsForward m s breakpoints c count j reason)
    (h' : EndsForward m s breakpoints c count j' reason') : j = j' ∧ reason = reason' := by
  cases h with
  | event first stop =>
    cases h' with
    | event first' stop' =>
      obtain rfl := first.unique first'
      exact ⟨rfl, stop.symm.trans stop'⟩
    | stood _ halts => exact absurd halts.events_eq_empty first.nonempty.ne_empty
    | spent quiet _ => exact absurd quiet first.nonempty.ne_empty
  | stood allowed halts =>
    cases h' with
    | event first _ => exact absurd halts.events_eq_empty first.nonempty.ne_empty
    | stood _ halts' =>
      rw [(halts.unique halts').2]
      exact ⟨rfl, rfl⟩
    | spent _ moves => exact absurd moves (halts.not_moves allowed)
  | spent quiet moves =>
    cases h' with
    | event first _ => exact absurd quiet first.nonempty.ne_empty
    | stood allowed halts => exact absurd moves (halts.not_moves allowed)
    | spent => exact ⟨rfl, rfl⟩

/-- **So does a run backward.** -/
theorem EndsBackward.unique {j j' : Nat} {reason reason' : StopReason}
    (h : EndsBackward m s breakpoints c j reason) (h' : EndsBackward m s breakpoints c j' reason') :
    j = j' ∧ reason = reason' := by
  cases h with
  | hit last =>
    cases h' with
    | hit last' =>
      obtain rfl := last.unique last'
      exact ⟨rfl, rfl⟩
    | start quiet => exact absurd quiet last.nonempty.ne_empty
  | start quiet =>
    cases h' with
    | hit last => exact absurd quiet last.nonempty.ne_empty
    | start => exact ⟨rfl, rfl⟩

/-- What ends with a breakpoint has come to the last one. -/
theorem EndsBackward.isGreatest {j pc : Nat} {reason : StopReason}
    (h : EndsBackward m s breakpoints c j reason) (hreason : reason = .breakpoint pc) :
    IsGreatest (m.hits s breakpoints c) j := by
  cases h with
  | hit last => exact last
  | start => cases hreason

/-- **A run forward passes no breakpoint** as long as it goes on. -/
theorem EndsForward.passes {j : Nat} {reason : Option StopReason}
    (h : EndsForward m s breakpoints c count j reason)
    (running : ∀ i < j, (m.trace s i).halted = none) (hlow : c < k) (hhigh : k < j) :
    breakpoints.contains (m.trace s k).pc = false := by
  refine Bool.eq_false_iff.2 fun hhit => ?_
  have hevent : m.EventAt s breakpoints k := ⟨fun i hi => running i (by omega), .inl hhit⟩
  cases h with
  | event first _ =>
    have hreach := first.1.2.1
    have hleast := first.2 ⟨hlow, by omega, hevent⟩
    omega
  | stood => omega
  | spent quiet _ =>
    exact Set.eq_empty_iff_forall_notMem.1 quiet k ⟨hlow, by omega, hevent⟩

end Machine

end Retrace
