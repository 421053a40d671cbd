import Retrace.Proofs.Session.Navigation
/-!
# Retrace — where a jump arrives

A jump walks forward as long as it has to and can, and then rewinds, so that
three loops and two outcomes lie between the request and the reply. What decides
is the run alone: a step is arrived at unless the run halts before it, and then
the refusal names the step of the halt, wherever the session stands and however
much of the run it has recorded. A walk stops short only at a halt
(`Runs.arrives_or_halts`), and a log is as long as the furthest place it has been
looked at from (`size_stepForwardBy`). The walk needs no bound of its own: written
as a loop that has none (`Session.Walks`) it ends after as many steps as lie
between.
-/

namespace Retrace

/-! ## Where a run halts -/

/-- The run from `s` halts at step `h` for the given reason, and not before. -/
structure Machine.HaltsAt (m : Machine) (s : State) (h : Nat) (reason : Halt) : Prop where
  halted : (m.trace s h).halted = some reason
  running : ∀ k < h, (m.trace s k).halted = none

namespace Machine.HaltsAt

variable {m : Machine} {s : State} {h : Nat} {reason : Halt}

/-- Where the run goes on until step `n`, it does not halt before. -/
theorem le_of_running (hh : m.HaltsAt s h reason) {n : Nat}
    (running : ∀ k < n, (m.trace s k).halted = none) : n ≤ h := by
  refine Nat.le_of_not_lt fun hlt => ?_
  have hrunning := running h hlt
  rw [hh.halted] at hrunning
  cases hrunning

/-- **A run halts once.** -/
theorem unique {h' : Nat} {reason' : Halt} (hh : m.HaltsAt s h reason)
    (hh' : m.HaltsAt s h' reason') : h = h' ∧ reason = reason' := by
  have heq : h = h' := Nat.le_antisymm (hh'.le_of_running hh.running) (hh.le_of_running hh'.running)
  subst heq
  exact ⟨rfl, Option.some.inj (hh.halted.symm.trans hh'.halted)⟩

end Machine.HaltsAt

/-! ## How long a log becomes -/

/-- A log ends at the cursor or behind it, and moving forward makes it no longer than that takes. -/
theorem History.size_advance (h : History) (m : Machine) :
    (h.advance m).log.size = max h.log.size ((h.advance m).cursor + 1) := by
  have hcursor := h.cursor_lt
  unfold advance
  split
  · rename_i hinside
    show h.log.size = max h.log.size (h.cursor + 1 + 1)
    omega
  · split
    · omega
    · show (h.log.push _).size = max h.log.size (h.log.size + 1)
      rw [Array.size_push]
      omega

namespace Session

variable {s t : Session} {m : Machine} {limit step : Nat}

theorem position_lt_size (s : Session) : s.position < s.history.size := s.history.cursor_lt

theorem position_le_stepForward (s : Session) : s.position ≤ s.stepForward.position := by
  have hposition := position_stepForward s
  split at hposition
  · omega
  · omega

theorem size_stepForward (s : Session) :
    s.stepForward.history.size = max s.history.size (s.stepForward.position + 1) :=
  s.history.size_advance s.machine

theorem position_le_stepForwardBy (count : Nat) (s : Session) :
    s.position ≤ (stepForwardBy count s).position := by
  induction count generalizing s with
  | zero => exact Nat.le_refl _
  | succ count ih =>
    rw [stepForwardBy]
    split
    · exact Nat.le_trans (position_le_stepForward s) (ih _)
    · exact Nat.le_refl _

theorem position_stepForwardBy_le (count : Nat) (s : Session) :
    (stepForwardBy count s).position ≤ s.position + count := by
  induction count generalizing s with
  | zero => exact Nat.le_refl _
  | succ count ih =>
    rw [stepForwardBy]
    split
    · rename_i hforward
      have hposition := position_stepForward s
      rw [if_pos hforward] at hposition
      have hrest := ih s.stepForward
      omega
    · exact Nat.le_add_right _ _

/-- **What a walk records reaches as far as it has come**, and what was there before stays. -/
theorem size_stepForwardBy (count : Nat) (s : Session) :
    (stepForwardBy count s).history.size =
      max s.history.size ((stepForwardBy count s).position + 1) := by
  induction count generalizing s with
  | zero =>
    have hposition := s.position_lt_size
    show s.history.size = max s.history.size (s.position + 1)
    omega
  | succ count ih =>
    rw [stepForwardBy]
    split
    · have hfirst := size_stepForward s
      have hrest := position_le_stepForwardBy count s.stepForward
      rw [ih, hfirst]
      omega
    · have hposition := s.position_lt_size
      omega

/-! ## Walking to a step -/

/-- The walk to a step as a loop without a bound: it goes on while the step lies ahead and a step
forward is possible. The number counts its rounds. -/
inductive Walks (step : Nat) : Nat → Session → Session → Prop
  /-- The step does not lie ahead. -/
  | arrived {s : Session} (reached : step ≤ s.position) : Walks step 0 s s
  /-- There is no step forward. -/
  | refused {s : Session} (ahead : s.position < step) (stuck : s.canStepForward = false) :
      Walks step 0 s s
  /-- One more round. -/
  | on {rounds : Nat} {s t : Session} (ahead : s.position < step)
      (free : s.canStepForward = true) (rest : Walks step rounds s.stepForward t) :
      Walks step (rounds + 1) s t

/-- **The walk ends**, since each of its rounds brings the step nearer, whatever it costs. -/
theorem walks_stepForwardBy (step count : Nat) (s : Session) (h : count = step - s.position) :
    ∃ rounds ≤ count, Walks step rounds s (stepForwardBy count s) := by
  induction count generalizing s with
  | zero => exact ⟨0, Nat.le_refl 0, .arrived (by omega)⟩
  | succ count ih =>
    have hahead : s.position < step := by omega
    rw [stepForwardBy]
    cases hforward : s.canStepForward with
    | false => exact ⟨0, Nat.zero_le _, .refused hahead hforward⟩
    | true =>
      have hposition := position_stepForward s
      rw [if_pos hforward] at hposition
      obtain ⟨rounds, hrounds, hwalk⟩ := ih s.stepForward (by omega)
      exact ⟨rounds + 1, Nat.succ_le_succ hrounds, .on hahead hforward hwalk⟩

/-- A jump rewinds from where the walk has ended: to the step, or to where it started. -/
theorem goto_fst (s : Session) (step : Nat) :
    (s.goto step).1 =
      let moved := stepForwardBy (step - s.position) s
      moved.rewindTo (if moved.position < step then s.position else step) := by
  unfold goto
  dsimp only
  split
  · rfl
  · rfl

theorem exists_walks_goto (s : Session) (step : Nat) : ∃ rounds reached,
    rounds ≤ step - s.position ∧ Walks step rounds s reached ∧
    (s.goto step).1 = reached.rewindTo (if reached.position < step then s.position else step) := by
  obtain ⟨rounds, hrounds, hwalk⟩ := walks_stepForwardBy step _ s rfl
  exact ⟨rounds, _, hrounds, hwalk, goto_fst s step⟩

/-- What was recorded stays. -/
theorem log_goto (s : Session) (step : Nat) :
    s.history.log.toList <+: (s.goto step).1.history.log.toList := by
  obtain ⟨ms, hmoves⟩ := movesTo_goto s step
  rw [hmoves]
  exact History.log_moves _ _ ms

/-! ## The run decides -/

/-- Before the cursor the run has not halted. -/
theorem Runs.running (hs : s.Runs m limit) {k : Nat} (hk : k < s.position) :
    (m.trace (State.initial m.env) k).halted = none := by
  have hposition := s.position_lt_size
  exact hs.records.running k (show k + 1 < s.history.size by omega)

/-- There is a step forward exactly where the run goes on. -/
theorem Runs.canStepForward_iff (hs : s.Runs m limit) :
    s.canStepForward = true ↔ (m.trace (State.initial m.env) s.position).halted = none := by
  rw [hs.canStepForward_eq, hs.current_eq, Bool.not_eq_true']
  exact Option.isSome_eq_false_iff.trans Option.isNone_iff_eq_none

/-- **Where there is none the run has halted.** -/
theorem Runs.haltsAt (hs : s.Runs m limit) (stuck : s.canStepForward = false) :
    ∃ reason, m.HaltsAt (State.initial m.env) s.position reason := by
  have hhalted : (m.trace (State.initial m.env) s.position).halted ≠ none := by
    intro hrunning
    rw [hs.canStepForward_iff.2 hrunning] at stuck
    cases stuck
  obtain ⟨reason, hreason⟩ := Option.ne_none_iff_exists'.1 hhalted
  exact ⟨reason, hreason, fun k hk => hs.running hk⟩

/-- A session never stands behind the halt. -/
theorem Runs.position_le_of_haltsAt (hs : s.Runs m limit) {h : Nat} {reason : Halt}
    (hh : m.HaltsAt (State.initial m.env) h reason) : s.position ≤ h :=
  hh.le_of_running fun _ hk => hs.running hk

/-- **A walk comes as far as it was sent, or to the halt.** -/
theorem Runs.arrives_or_halts (hs : s.Runs m limit) (count : Nat) :
    let moved := stepForwardBy count s
    moved.position = s.position + count ∨
      moved.canStepForward = false ∧
        ∃ reason, m.HaltsAt (State.initial m.env) moved.position reason := by
  intro moved
  have hmoved := hs.movesTo (movesTo_stepForwardBy count s)
  have hle := position_stepForwardBy_le count s
  rcases Nat.lt_or_ge moved.position (s.position + count) with hshort | hfar
  · have hstuck := canStepForward_of_short count s hshort
    exact .inr ⟨hstuck, hmoved.haltsAt hstuck⟩
  · exact .inl (Nat.le_antisymm hle hfar)

/-- A walk to a step that no halt comes before ends there, if it has to walk at all. -/
theorem Runs.position_of_running (hs : s.Runs m limit)
    (running : ∀ k < step, (m.trace (State.initial m.env) k).halted = none) :
    (stepForwardBy (step - s.position) s).position = max s.position step := by
  have hback := position_le_stepForwardBy (step - s.position) s
  have hbound := position_stepForwardBy_le (step - s.position) s
  rcases hs.arrives_or_halts (step - s.position) with hfar | ⟨-, reason, hhalts⟩
  · omega
  · have hle := hhalts.le_of_running running
    omega

/-- A walk to a step behind the halt ends at the halt. -/
theorem Runs.position_of_haltsAt (hs : s.Runs m limit) {h : Nat} {reason : Halt}
    (hh : m.HaltsAt (State.initial m.env) h reason) (hlt : h < step) :
    (stepForwardBy (step - s.position) s).position = h ∧
      (stepForwardBy (step - s.position) s).canStepForward = false := by
  have hmoved := hs.movesTo (movesTo_stepForwardBy (step - s.position) s)
  have hbound := hmoved.position_le_of_haltsAt hh
  have hbefore := hs.position_le_of_haltsAt hh
  rcases hs.arrives_or_halts (step - s.position) with hfar | ⟨hstuck, other, hhalts⟩
  · omega
  · exact ⟨(hhalts.unique hh).1, hstuck⟩

/-- A step that no halt comes before is arrived at. -/
theorem Runs.goto_of_running (hs : s.Runs m limit)
    (running : ∀ k < step, (m.trace (State.initial m.env) k).halted = none) :
    (s.goto step).2 = .ok (m.snapshot (State.initial m.env) step) ∧
      (s.goto step).1.position = step ∧
      (s.goto step).1.history.size = max s.history.size (step + 1) := by
  have hmoved := hs.position_of_running running
  have hreached : step ≤ (stepForwardBy (step - s.position) s).position := by omega
  have hruns := (hs.movesTo (movesTo_stepForwardBy (step - s.position) s)).movesTo
    (movesTo_rewindTo _ step)
  have hposition := position_rewindTo (stepForwardBy (step - s.position) s) step
  rw [Nat.min_eq_right hreached] at hposition
  have hsize := size_stepForwardBy (step - s.position) s
  have hlog := s.position_lt_size
  unfold goto
  dsimp only
  rw [if_neg (Nat.not_lt_of_le hreached)]
  refine ⟨?_, hposition, ?_⟩
  · rw [hruns.current_eq, hposition]
  · show (stepForwardBy (step - s.position) s).history.size = max s.history.size (step + 1)
    omega

/-- A step behind the halt is refused, the halt is recorded, and the session is where it was. -/
theorem Runs.goto_of_haltsAt (hs : s.Runs m limit) {h : Nat} {reason : Halt}
    (hh : m.HaltsAt (State.initial m.env) h reason) (hlt : h < step) :
    (s.goto step).2 = .error ⟨step, h⟩ ∧ (s.goto step).1.position = s.position ∧
      (s.goto step).1.history.size = h + 1 := by
  obtain ⟨hmoved, hstuck⟩ := hs.position_of_haltsAt hh hlt
  have hback := position_le_stepForwardBy (step - s.position) s
  have hposition := position_rewindTo (stepForwardBy (step - s.position) s) s.position
  rw [Nat.min_eq_right hback] at hposition
  -- where there is no step forward the log ends, and so it ends at the halt
  have hhighest : (stepForwardBy (step - s.position) s).history.highest = h :=
    (highest_of_not_canStepForward hstuck).trans hmoved
  have hpos := (stepForwardBy (step - s.position) s).history.size_pos
  unfold goto
  dsimp only
  rw [if_pos (by omega), hhighest]
  refine ⟨rfl, hposition, ?_⟩
  rw [← hhighest]
  exact (Nat.sub_add_cancel hpos).symm

end Session

/-- **A jump arrives, unless the run halts before.** Wherever a session stands and whatever it has
recorded, a step that no halt comes before is arrived at: the reply is the run's snapshot there, and
the log reaches as far, or as far as it did. A step behind the halt is refused with the step of the
halt, the session stands where it stood, and its log reaches to the halt. In both cases the old
records stay. The jump ends even where the run does not, since its walk forward, which has no bound
of its own, has no more rounds than there are steps between. -/
theorem goto_arrives_or_names_halt (m : Machine) (limit : Nat) (before : List Session.Move)
    (step : Nat) :
    let start := State.initial m.env
    let session := (Session.start m limit).moves before
    let after := (session.goto step).1
    ((∀ k < step, (m.trace start k).halted = none) →
      (session.goto step).2 = .ok (m.snapshot start step) ∧ after.position = step ∧
        after.history.size = max session.history.size (step + 1)) ∧
    (∀ h reason, m.HaltsAt start h reason → h < step →
      (session.goto step).2 = .error ⟨step, h⟩ ∧ after.position = session.position ∧
        after.history.size = h + 1) ∧
    session.history.log.toList <+: after.history.log.toList ∧
    ∃ rounds reached, rounds ≤ step - session.position ∧
      Session.Walks step rounds session reached ∧
      after = reached.rewindTo (if reached.position < step then session.position else step) := by
  intro start session after
  have hs : session.Runs m limit := Session.runs_moves m limit before
  exact ⟨hs.goto_of_running, fun h reason hh hlt => hs.goto_of_haltsAt hh hlt,
    session.log_goto step, session.exists_walks_goto step⟩

/-- A code that goes round in a circle, under a table that takes no fee for it. -/
def freeMachine : Machine where
  program := .load (.ofList [0x5b, 0x60, 0x00, 0x56])
  env := .blank
  table := ⟨fun op => some { Entry.standard op with fee := 0 }⟩

/-- In a circle that nothing ends, a jump ahead of the log arrives. A run that halts at step four is
not gone beyond: the session has been at step three, stands at step one and stays there, and then
has the halt in its log. -/
theorem goto_arrives_or_names_halt_of_circle :
    let circling := (Session.start freeMachine 10).moves [.goto 4, .back]
    let adding := (Session.start addingMachine 10).moves [.goto 3, .back, .back]
    (∀ k < 9, (freeMachine.trace (State.initial freeMachine.env) k).halted = none) ∧
    (circling.goto 9).1.position = 9 ∧ (circling.goto 9).1.history.size = 10 ∧
    addingMachine.HaltsAt (State.initial addingMachine.env) 4 .stopped ∧
    (adding.goto 9).2 = .error ⟨9, 4⟩ ∧ (adding.goto 9).1.position = 1 ∧
    (adding.goto 9).1.history.size = 5 := by
  intro circling adding
  have hrunning : ∀ k < 9, (freeMachine.trace (State.initial freeMachine.env) k).halted = none := by
    decide +kernel
  have hhalts : addingMachine.HaltsAt (State.initial addingMachine.env) 4 .stopped :=
    ⟨by decide +kernel, by decide +kernel⟩
  have hsize : circling.history.size = 5 := by decide +kernel
  have hposition : adding.position = 1 := by decide +kernel
  obtain ⟨harrives, -, -, -⟩ := goto_arrives_or_names_halt freeMachine 10 [.goto 4, .back] 9
  obtain ⟨-, hrefuses, -, -⟩ :=
    goto_arrives_or_names_halt addingMachine 10 [.goto 3, .back, .back] 9
  obtain ⟨-, hcome, hlog⟩ := harrives hrunning
  obtain ⟨hrefused, hstayed, hrecorded⟩ := hrefuses 4 .stopped hhalts (by decide)
  rw [show (Session.moves _ _).history.size = 5 from hsize] at hlog
  exact ⟨hrunning, hcome, hlog, hhalts, hrefused, hstayed.trans hposition, hrecorded⟩

end Retrace
