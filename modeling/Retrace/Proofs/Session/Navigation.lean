import Retrace.Proofs.Session.Log
/-!
# Retrace — moving does not depend on what is recorded

A session records its run only as far as it has been looked at, and moves in
two ways: over records that are there, and by making new ones at the frontier.
An operator cannot tell which. Two sessions of one machine that stand at the
same position (`Session.Abreast`) give the same reply to every move, also to
one that fails or is cut off by a breakpoint or by the step limit, and stand at
the same position afterwards. What makes it so is that a record is the run's
snapshot at its index, and that nothing is recorded behind a halt: whether a
session can step forward can be read off its current snapshot alone, and where
it cannot, the log ends.
-/

namespace Retrace

/-- Moving forward moves the cursor by one wherever that is possible. -/
theorem History.cursor_advance (h : History) (m : Machine) :
    (h.advance m).cursor = if h.canAdvance then h.cursor + 1 else h.cursor := by
  have hcursor := h.cursor_lt
  by_cases hinside : h.cursor + 1 < h.log.size
  · have hcan : h.canAdvance = true := by
      rw [canAdvance, decide_eq_true (by omega : h.cursor < h.log.size - 1), Bool.true_or]
    rw [hcan, if_pos rfl, advance, dif_pos hinside]
  · -- the cursor is on the frontier, and that decides
    have hlast : h.cursor = h.log.size - 1 := by omega
    have hcurrent : h.current = h.frontier := by
      simp only [current, frontier, hlast]
    have hcan : h.canAdvance = !h.frontier.isHalted := by
      rw [canAdvance, hcurrent, decide_eq_false (by omega : ¬ h.cursor < h.log.size - 1),
        Bool.false_or]
    rw [hcan, advance, dif_neg hinside]
    cases h.frontier.isHalted with
    | true => rfl
    | false =>
      show h.log.size = h.cursor + 1
      omega

namespace Session

/-! ## What an operator is told -/

/-- What a session replies to a move. -/
inductive Reply where
  /-- To a single step: the snapshot it came to, or nothing where it was not possible. -/
  | step (snapshot : Option Snapshot)
  /-- To a jump. -/
  | arrival (result : Except StepOutOfRange Snapshot)
  /-- To a continued run. -/
  | stop (reason : StopReason)

/-- What can be seen of a session without moving it. -/
structure Sight where
  position : Nat
  current : Snapshot
  canStepForward : Bool
  canStepBack : Bool

variable (s : Session)

/-- The reply to a move. -/
def reply : Move → Reply
  | .forward => .step (if s.canStepForward then some s.stepForward.current else none)
  | .back => .step (if s.canStepBack then some s.stepBack.current else none)
  | .goto step => .arrival (s.goto step).2
  | .continueForward breakpoints => .stop (s.continueForward breakpoints).2
  | .continueBackward breakpoints => .stop (s.continueBackward breakpoints).2

/-- What can be seen of the session. -/
def sight : Sight := ⟨s.position, s.current, s.canStepForward, s.canStepBack⟩

/-- The replies to moves made one after the other, each with what can be seen after it. -/
def answers : Session → List Move → List (Reply × Sight)
  | _, [] => []
  | s, mv :: ms => (s.reply mv, (s.move mv).sight) :: (s.move mv).answers ms

/-! ## Single steps -/

variable {s} {t : Session} {m : Machine} {limit : Nat}

theorem position_stepForward (s : Session) :
    s.stepForward.position = if s.canStepForward then s.position + 1 else s.position :=
  s.history.cursor_advance s.machine

theorem position_rewindTo (s : Session) (step : Nat) :
    (s.rewindTo step).position = min s.position step := rfl

theorem position_stepBack (s : Session) : s.stepBack.position = s.position - 1 :=
  Nat.min_eq_right (Nat.sub_le _ _)

/-- A session that cannot step forward stands at the end of its log. -/
theorem highest_of_not_canStepForward (h : s.canStepForward = false) :
    s.history.highest = s.position := by
  have hcursor := s.history.cursor_lt
  simp only [canStepForward, History.canAdvance, Bool.or_eq_false_iff, decide_eq_false_iff_not] at h
  show s.history.log.size - 1 = s.history.cursor
  omega

/-- Where fewer steps forward were made than asked for, there is none left. -/
theorem canStepForward_of_short (count : Nat) (s : Session)
    (h : (stepForwardBy count s).position < s.position + count) :
    (stepForwardBy count s).canStepForward = false := by
  induction count generalizing s with
  | zero => exact absurd h (Nat.lt_irrefl _)
  | succ count ih =>
    rw [stepForwardBy] at h ⊢
    cases hforward : s.canStepForward with
    | false => exact hforward
    | true =>
      have hposition := position_stepForward s
      rw [hforward, if_pos rfl] at hposition h
      refine ih s.stepForward ?_
      omega

/-! ## The log tells of the run -/

/-- The current snapshot is the run's at the position. -/
theorem Runs.current_eq (hs : s.Runs m limit) :
    s.current = m.snapshot (State.initial m.env) s.position :=
  hs.records.log_eq _ _

/-- **Whether there is a step forward shows in the current snapshot**, although it may be one that
is recorded or one that has to be made. -/
theorem Runs.canStepForward_eq (hs : s.Runs m limit) :
    s.canStepForward = !s.current.isHalted := by
  show (decide (s.history.cursor < s.history.log.size - 1) || !s.current.isHalted) = _
  by_cases hlt : s.history.cursor < s.history.log.size - 1
  · -- what another record follows is running
    have hrunning := hs.records.running s.history.cursor (by omega)
    have hcurrent : s.current.isHalted = false := by
      rw [hs.current_eq]
      show ((m.trace (State.initial m.env) s.history.cursor).halted).isSome = false
      rw [hrunning]
      rfl
    rw [hcurrent, decide_eq_true hlt]
    rfl
  · rw [decide_eq_false hlt, Bool.false_or]

/-! ## Two sessions abreast -/

/-- Two sessions of one machine that stand at the same position. How much each has recorded does
not matter. -/
structure Abreast (m : Machine) (limit : Nat) (s t : Session) : Prop where
  left : s.Runs m limit
  right : t.Runs m limit
  position_eq : s.position = t.position

namespace Abreast

theorem current_eq (h : Abreast m limit s t) : s.current = t.current := by
  rw [h.left.current_eq, h.right.current_eq, h.position_eq]

theorem canStepForward_eq (h : Abreast m limit s t) : s.canStepForward = t.canStepForward := by
  rw [h.left.canStepForward_eq, h.right.canStepForward_eq, h.current_eq]

theorem canStepBack_eq (h : Abreast m limit s t) : s.canStepBack = t.canStepBack := by
  show decide (0 < s.position) = decide (0 < t.position)
  rw [h.position_eq]

theorem sight_eq (h : Abreast m limit s t) : s.sight = t.sight := by
  rw [sight, sight, h.position_eq, h.current_eq, h.canStepForward_eq, h.canStepBack_eq]

/-- **A step forward keeps sessions abreast**, whether it is recorded in both, in one or in
neither. -/
theorem stepForward (h : Abreast m limit s t) :
    Abreast m limit s.stepForward t.stepForward where
  left := h.left.movesTo (movesTo_stepForward s)
  right := h.right.movesTo (movesTo_stepForward t)
  position_eq := by
    rw [position_stepForward, position_stepForward, h.canStepForward_eq, h.position_eq]

theorem stepBack (h : Abreast m limit s t) : Abreast m limit s.stepBack t.stepBack where
  left := h.left.movesTo (movesTo_stepBack s)
  right := h.right.movesTo (movesTo_stepBack t)
  position_eq := by rw [position_stepBack, position_stepBack, h.position_eq]

theorem rewindTo (h : Abreast m limit s t) (step : Nat) :
    Abreast m limit (s.rewindTo step) (t.rewindTo step) where
  left := h.left.movesTo (movesTo_rewindTo s step)
  right := h.right.movesTo (movesTo_rewindTo t step)
  position_eq := by rw [position_rewindTo, position_rewindTo, h.position_eq]

theorem stepForwardBy (h : Abreast m limit s t) (count : Nat) :
    Abreast m limit (stepForwardBy count s) (stepForwardBy count t) := by
  induction count generalizing s t with
  | zero => exact h
  | succ count ih =>
    rw [Session.stepForwardBy, Session.stepForwardBy, ← h.canStepForward_eq]
    split
    · exact ih h.stepForward
    · exact h

/-! ### Jumps -/

/-- **A jump arrives or fails alike.** Where it fails both runs have halted at the same place, and
both logs reach just so far. -/
theorem goto (h : Abreast m limit s t) (step : Nat) :
    (s.goto step).2 = (t.goto step).2 ∧ Abreast m limit (s.goto step).1 (t.goto step).1 := by
  have hmoved := h.stepForwardBy (step - s.position)
  have hshort := canStepForward_of_short (step - s.position) s
  unfold Session.goto
  dsimp only
  rw [← h.position_eq, ← hmoved.position_eq]
  split
  · rename_i hfailed
    have hend := hshort (by omega)
    have hend' := hmoved.canStepForward_eq.symm.trans hend
    refine ⟨?_, hmoved.rewindTo s.position⟩
    rw [highest_of_not_canStepForward hend, highest_of_not_canStepForward hend',
      hmoved.position_eq]
  · have harrived := hmoved.rewindTo step
    exact ⟨congrArg Except.ok harrived.current_eq, harrived⟩

/-! ### Continued runs -/

theorem standstill_eq (h : Abreast m limit s t) : s.standstill = t.standstill := by
  rw [standstill, standstill, h.current_eq]

theorem stopHere?_eq (h : Abreast m limit s t) (breakpoints : Breakpoints) :
    s.stopHere? breakpoints = t.stopHere? breakpoints := by
  rw [stopHere?, stopHere?, h.current_eq]

theorem forwardWhile (h : Abreast m limit s t) (breakpoints : Breakpoints) (count : Nat) :
    (forwardWhile breakpoints count s).2 = (forwardWhile breakpoints count t).2 ∧
      Abreast m limit (forwardWhile breakpoints count s).1 (forwardWhile breakpoints count t).1 := by
  induction count generalizing s t with
  | zero => exact ⟨rfl, h⟩
  | succ count ih =>
    have hnext := h.stepForward
    rw [Session.forwardWhile, Session.forwardWhile, ← h.canStepForward_eq]
    split
    · dsimp only
      rw [← hnext.stopHere?_eq breakpoints]
      split
      · exact ⟨rfl, hnext⟩
      · exact ih hnext
    · exact ⟨congrArg some h.standstill_eq, h⟩

theorem continueForward (h : Abreast m limit s t) (breakpoints : Breakpoints) :
    (s.continueForward breakpoints).2 = (t.continueForward breakpoints).2 ∧
      Abreast m limit (s.continueForward breakpoints).1 (t.continueForward breakpoints).1 := by
  have hlimit : s.stepLimit = t.stepLimit :=
    h.left.stepLimit_eq.trans h.right.stepLimit_eq.symm
  obtain ⟨hreason, hmoved⟩ := h.forwardWhile breakpoints s.stepLimit
  unfold Session.continueForward
  dsimp only
  rw [← hlimit, ← hreason]
  exact ⟨rfl, hmoved⟩

theorem backwardWhile (h : Abreast m limit s t) (breakpoints : Breakpoints) (count : Nat) :
    (backwardWhile breakpoints count s).2 = (backwardWhile breakpoints count t).2 ∧
      Abreast m limit (backwardWhile breakpoints count s).1
        (backwardWhile breakpoints count t).1 := by
  induction count generalizing s t with
  | zero => exact ⟨rfl, h⟩
  | succ count ih =>
    have hnext := h.stepBack
    rw [Session.backwardWhile, Session.backwardWhile, ← hnext.current_eq]
    split
    · exact ⟨rfl, hnext⟩
    · exact ih hnext

theorem continueBackward (h : Abreast m limit s t) (breakpoints : Breakpoints) :
    (s.continueBackward breakpoints).2 = (t.continueBackward breakpoints).2 ∧
      Abreast m limit (s.continueBackward breakpoints).1 (t.continueBackward breakpoints).1 := by
  have hmoved := h.backwardWhile breakpoints s.position
  unfold Session.continueBackward
  rw [← h.position_eq]
  exact hmoved

/-! ### All moves -/

/-- **Every move finds sessions abreast and leaves them so**, and its reply does not tell which of
the two has given it. -/
theorem move (h : Abreast m limit s t) (mv : Move) :
    s.reply mv = t.reply mv ∧ Abreast m limit (s.move mv) (t.move mv) := by
  cases mv with
  | forward =>
    refine ⟨?_, h.stepForward⟩
    rw [reply, reply, h.canStepForward_eq, h.stepForward.current_eq]
  | back =>
    refine ⟨?_, h.stepBack⟩
    rw [reply, reply, h.canStepBack_eq, h.stepBack.current_eq]
  | goto step =>
    obtain ⟨hresult, hmoved⟩ := h.goto step
    exact ⟨congrArg Reply.arrival hresult, hmoved⟩
  | continueForward breakpoints =>
    obtain ⟨hreason, hmoved⟩ := h.continueForward breakpoints
    exact ⟨congrArg Reply.stop hreason, hmoved⟩
  | continueBackward breakpoints =>
    obtain ⟨hreason, hmoved⟩ := h.continueBackward breakpoints
    exact ⟨congrArg Reply.stop hreason, hmoved⟩

theorem answers_eq (h : Abreast m limit s t) (ms : List Move) : s.answers ms = t.answers ms := by
  induction ms generalizing s t with
  | nil => rfl
  | cons mv ms ih =>
    obtain ⟨hreply, hmoved⟩ := h.move mv
    rw [answers, answers, hreply, hmoved.sight_eq, ih hmoved]

end Abreast

end Session

/-- **Navigation does not depend on what is recorded.** Two sessions that started alike and stand
at the same position, whatever moves have led there, look alike and answer all further moves
alike. What they show is the run of the machine at that position, and a step forward is possible
exactly where that has not halted. -/
theorem navigation_independent (m : Machine) (limit : Nat)
    (before other after : List Session.Move)
    (level : ((Session.start m limit).moves before).position =
      ((Session.start m limit).moves other).position) :
    let s := (Session.start m limit).moves before
    let t := (Session.start m limit).moves other
    s.sight = t.sight ∧ s.answers after = t.answers after ∧
      s.current = m.snapshot (State.initial m.env) s.position ∧
      s.canStepForward = !s.current.isHalted := by
  intro s t
  have hs : s.Runs m limit := Session.runs_moves m limit before
  have ht : t.Runs m limit := Session.runs_moves m limit other
  have habreast : Session.Abreast m limit s t := ⟨hs, ht, level⟩
  exact ⟨habreast.sight_eq, habreast.answers_eq after, hs.current_eq, hs.canStepForward_eq⟩

/-- A code that adds two numbers and stops. -/
def addingMachine : Machine where
  program := .load (.ofList [0x60, 0x01, 0x60, 0x02, 0x01, 0x00])
  env := .blank
  table := .reference

/-- One session has taken a step and the other one has come back from the halt: their logs differ
in length, and yet both refuse a jump beyond the halt and run on to it in the same words. -/
theorem navigation_independent_of_return :
    let s := (Session.start addingMachine 100).moves [.forward]
    let t := (Session.start addingMachine 100).moves [.goto 4, .back, .back, .back]
    let more := [Session.Move.goto 9, .continueForward .empty]
    s.position = t.position ∧ s.history.size = 2 ∧ t.history.size = 5 ∧
      s.answers more = t.answers more := by
  intro s t more
  have hlevel : s.position = t.position := by decide +kernel
  obtain ⟨-, hanswers, -⟩ := navigation_independent addingMachine 100 [.forward]
    [.goto 4, .back, .back, .back] more hlevel
  exact ⟨hlevel, by decide +kernel, by decide +kernel, hanswers⟩

end Retrace
