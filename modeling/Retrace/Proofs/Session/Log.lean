import Retrace.Proofs.Machine.Step
import Retrace.Session.Session
/-!
# Retrace — the log and the run

However a session is driven, its log is the beginning of the one run that its
machine makes. Moves of the cursor forward and back are the only thing that
ever happens to a history: every command of a session is a series of them
(`Session.movesTo_move`). One invariant is kept by both moves, that each record
is `Machine.snapshot`, the snapshot of the run at its index, and that no record
but the last has halted (`Records`). That a log tells the truth about the run,
its gas included, and that it only grows is read off it.
-/

namespace Retrace

/-! ## Moves -/

namespace History

/-- A single move of the cursor. -/
inductive Move where
  | forward
  | back
  deriving DecidableEq

variable (h : History) (m : Machine)

/-- Make a move. -/
def move : Move → History
  | .forward => h.advance m
  | .back => h.retreat

/-- Make moves one after the other. -/
def moves (ms : List Move) : History := ms.foldl (fun h mv => h.move m mv) h

theorem moves_append (ms more : List Move) : h.moves m (ms ++ more) = (h.moves m ms).moves m more :=
  List.foldl_append

theorem moves_cons (mv : Move) (ms : List Move) : h.moves m (mv :: ms) = (h.move m mv).moves m ms :=
  rfl

theorem rewindTo_of_le {index : Nat} (hle : h.cursor ≤ index) : h.rewindTo index = h := by
  cases h
  simp only [rewindTo] at hle ⊢
  congr
  exact Nat.min_eq_left hle

theorem rewindTo_rewindTo (a b : Nat) : (h.rewindTo a).rewindTo b = h.rewindTo (min a b) := by
  simp only [rewindTo, Nat.min_assoc]

/-- Rewinding is moving back as often as it takes. -/
theorem moves_replicate_back (n : Nat) :
    h.moves m (List.replicate n .back) = h.rewindTo (h.cursor - n) := by
  induction n generalizing h with
  | zero => exact (h.rewindTo_of_le (Nat.le_refl _)).symm
  | succ n ih =>
    rw [List.replicate_succ, moves_cons, ih]
    simp only [move, retreat]
    rw [rewindTo_rewindTo]
    simp only [rewindTo]
    congr 1
    omega

end History

namespace Session

/-- What an operator can make a session do. -/
inductive Move where
  | forward
  | back
  | goto (step : Nat)
  | continueForward (breakpoints : Breakpoints)
  | continueBackward (breakpoints : Breakpoints)
  deriving DecidableEq

variable (s : Session)

/-- Make a move. -/
def move : Move → Session
  | .forward => s.stepForward
  | .back => s.stepBack
  | .goto step => (s.goto step).1
  | .continueForward breakpoints => (s.continueForward breakpoints).1
  | .continueBackward breakpoints => (s.continueBackward breakpoints).1

/-- Make moves one after the other. -/
def moves (ms : List Move) : Session := ms.foldl move s

/-- The second session comes from the first by moving through its history. -/
def MovesTo (t : Session) : Prop :=
  ∃ ms : List History.Move, t = { s with history := s.history.moves s.machine ms }

end Session

/-! ## Every command is a series of single moves -/

namespace Session

variable {s t u : Session}

theorem MovesTo.refl (s : Session) : s.MovesTo s := ⟨[], rfl⟩

theorem MovesTo.trans (h₁ : s.MovesTo t) (h₂ : t.MovesTo u) : s.MovesTo u := by
  obtain ⟨ms, rfl⟩ := h₁
  obtain ⟨more, rfl⟩ := h₂
  exact ⟨ms ++ more, by rw [History.moves_append]⟩

theorem movesTo_stepForward (s : Session) : s.MovesTo s.stepForward := ⟨[.forward], rfl⟩

theorem movesTo_stepBack (s : Session) : s.MovesTo s.stepBack := ⟨[.back], rfl⟩

theorem movesTo_rewindTo (s : Session) (step : Nat) : s.MovesTo (s.rewindTo step) := by
  refine ⟨List.replicate (s.history.cursor - step) .back, ?_⟩
  rw [History.moves_replicate_back]
  simp only [rewindTo, History.rewindTo]
  congr 2
  omega

theorem movesTo_stepForwardBy (count : Nat) (s : Session) : s.MovesTo (stepForwardBy count s) := by
  induction count generalizing s with
  | zero => exact .refl s
  | succ count ih =>
    rw [stepForwardBy]
    split
    · exact (movesTo_stepForward s).trans (ih _)
    · exact .refl s

theorem movesTo_goto (s : Session) (step : Nat) : s.MovesTo (s.goto step).1 := by
  unfold goto
  dsimp only
  -- the step may lie beyond the end of the run, and then the session rewinds to where it was
  split
  · exact (movesTo_stepForwardBy _ s).trans (movesTo_rewindTo _ _)
  · exact (movesTo_stepForwardBy _ s).trans (movesTo_rewindTo _ _)

theorem movesTo_forwardWhile (breakpoints : Breakpoints) (count : Nat) (s : Session) :
    s.MovesTo (forwardWhile breakpoints count s).1 := by
  induction count generalizing s with
  | zero => exact .refl s
  | succ count ih =>
    rw [forwardWhile]
    split
    · dsimp only
      split
      · exact movesTo_stepForward s
      · exact (movesTo_stepForward s).trans (ih _)
    · exact .refl s

theorem movesTo_backwardWhile (breakpoints : Breakpoints) (count : Nat) (s : Session) :
    s.MovesTo (backwardWhile breakpoints count s).1 := by
  induction count generalizing s with
  | zero => exact .refl s
  | succ count ih =>
    rw [backwardWhile]
    split
    · exact movesTo_stepBack s
    · exact (movesTo_stepBack s).trans (ih _)

theorem movesTo_move (s : Session) (mv : Move) : s.MovesTo (s.move mv) := by
  cases mv with
  | forward => exact movesTo_stepForward s
  | back => exact movesTo_stepBack s
  | goto step => exact movesTo_goto s step
  | continueForward breakpoints => exact movesTo_forwardWhile breakpoints s.stepLimit s
  | continueBackward breakpoints => exact movesTo_backwardWhile breakpoints s.position s

/-- **Whatever a session is made to do, it moves through its history.** -/
theorem movesTo_moves (s : Session) (ms : List Move) : s.MovesTo (s.moves ms) := by
  induction ms generalizing s with
  | nil => exact .refl s
  | cons mv ms ih => exact (movesTo_move s mv).trans (ih _)

end Session

/-! ## One invariant -/

/-- The snapshot of a run after `n` steps. -/
def Machine.snapshot (m : Machine) (s : State) (n : Nat) : Snapshot :=
  ⟨n, m.trace s n, s.gas - (m.trace s n).gas⟩

namespace Machine

variable {m : Machine} {s : State}

/-- A run never has more gas than at its start. -/
theorem gas_trace_le (m : Machine) (s : State) (n : Nat) : (m.trace s n).gas ≤ s.gas :=
  trace_induction (motive := fun t => t.gas ≤ s.gas) (Nat.le_refl _)
    (fun t ht => Nat.le_trans (m.gas_step_le t) ht) n

/-- **The record after a snapshot of the run is the next snapshot of the run.** The gas that the
step spends is the gas that the run has spent since. -/
theorem next_snapshot (m : Machine) (s : State) (n : Nat) :
    (m.snapshot s n).next m = m.snapshot s (n + 1) := by
  -- both differences are true ones, and so they add up
  have hstart := m.gas_trace_le s n
  have hstep : (m.trace s (n + 1)).gas ≤ (m.trace s n).gas := m.gas_step_le _
  have hspent : s.gas - (m.trace s n).gas + ((m.trace s n).gas - (m.trace s (n + 1)).gas) =
      s.gas - (m.trace s (n + 1)).gas := by omega
  simp only [Snapshot.next, snapshot, Snapshot.mk.injEq, true_and]
  exact ⟨rfl, hspent⟩

end Machine

namespace History

variable {m : Machine} {s : State} {h : History}

/-- Each record is the run's snapshot at its index, and only the last one may have halted. -/
structure Records (m : Machine) (s : State) (h : History) : Prop where
  log_eq : ∀ i (hi : i < h.log.size), h.log[i] = m.snapshot s i
  running : ∀ i, i + 1 < h.log.size → (m.trace s i).halted = none

theorem records_start (m : Machine) (s : State) : Records m s (start s) where
  log_eq i hi := by
    have hz : i = 0 := Nat.lt_one_iff.1 hi
    subst hz
    simp [start, Machine.snapshot, Machine.trace]
  running i hi := absurd hi (by simp [start])

theorem Records.frontier_eq (hr : h.Records m s) : h.frontier = m.snapshot s (h.log.size - 1) :=
  hr.log_eq _ _

/-- A step is recorded only behind a frontier that is running. -/
theorem Records.advance (hr : h.Records m s) : (h.advance m).Records m s := by
  unfold History.advance
  split
  · exact ⟨hr.log_eq, hr.running⟩
  · split
    · exact hr
    · rename_i hrunning
      rw [hr.frontier_eq] at hrunning ⊢
      have hpos := h.size_pos
      have hhalted : (m.trace s (h.log.size - 1)).halted = none := by
        simpa [Snapshot.isHalted, Machine.snapshot] using hrunning
      rw [Machine.next_snapshot, Nat.sub_add_cancel hpos]
      refine ⟨fun i hi => ?_, fun i hi => ?_⟩
      -- every record is an old one or the one just made
      · simp only [record, Array.size_push] at hi
        simp only [record, Array.getElem_push]
        split
        · exact hr.log_eq i _
        · have hi : i = h.log.size := by omega
          rw [hi]
      · simp only [record, Array.size_push] at hi
        rcases Nat.lt_or_ge (i + 1) h.log.size with hlt | hge
        · exact hr.running i hlt
        · have hi : i = h.log.size - 1 := by omega
          rw [hi]
          exact hhalted

theorem Records.move (hr : h.Records m s) (mv : Move) : (h.move m mv).Records m s := by
  cases mv with
  | forward => exact hr.advance
  | back => exact ⟨hr.log_eq, hr.running⟩

theorem Records.moves (hr : h.Records m s) (ms : List Move) : (h.moves m ms).Records m s := by
  induction ms generalizing h with
  | nil => exact hr
  | cons mv ms ih => exact ih (hr.move mv)

/-- The log only grows. -/
theorem log_move (h : History) (m : Machine) (mv : Move) :
    h.log.toList <+: (h.move m mv).log.toList := by
  cases mv with
  | back => exact List.prefix_rfl
  | forward =>
    simp only [History.move, History.advance]
    split
    · exact List.prefix_rfl
    · split
      · exact List.prefix_rfl
      · simp only [record, Array.toList_push]
        exact List.prefix_append _ _

theorem log_moves (h : History) (m : Machine) (ms : List Move) :
    h.log.toList <+: (h.moves m ms).log.toList := by
  induction ms generalizing h with
  | nil => exact List.prefix_rfl
  | cons mv ms ih => exact (log_move h m mv).trans (ih _)

end History

namespace Session

variable {m : Machine} {limit : Nat} {s t : Session}

/-- A session of the machine `m` with the given limit, whose log tells of the run of `m`. -/
structure Runs (m : Machine) (limit : Nat) (s : Session) : Prop where
  machine_eq : s.machine = m
  stepLimit_eq : s.stepLimit = limit
  records : s.history.Records m (State.initial m.env)

theorem runs_start (m : Machine) (limit : Nat) : (start m limit).Runs m limit :=
  ⟨rfl, rfl, History.records_start m _⟩

/-- Moving through its history a session goes on to tell of the same run. -/
theorem Runs.movesTo (hs : s.Runs m limit) (h : s.MovesTo t) : t.Runs m limit := by
  obtain ⟨ms, rfl⟩ := h
  obtain ⟨rfl, rfl, hrecords⟩ := hs
  exact ⟨rfl, rfl, hrecords.moves ms⟩

theorem runs_moves (m : Machine) (limit : Nat) (ms : List Move) :
    ((start m limit).moves ms).Runs m limit :=
  (runs_start m limit).movesTo (movesTo_moves _ ms)

end Session

/-! ## What the log says -/

namespace History

/-- **What a log owes to the run that starts in `s`.** -/
structure Faithful (m : Machine) (s : State) (h : History) : Prop where
  nonempty : 0 < h.log.size
  cursor : h.cursor < h.log.size
  /-- A record knows its place. -/
  index : ∀ i (hi : i < h.log.size), h.log[i].index = i
  /-- It holds the state that as many steps lead to. -/
  state : ∀ i (hi : i < h.log.size), h.log[i].state = m.trace s i
  /-- What it counts as spent is missing from what there was. -/
  gas : ∀ i (hi : i < h.log.size), h.log[i].gasUsed + h.log[i].state.gas = s.gas
  /-- Between two records gas is only spent. -/
  spent : ∀ i (hi : i + 1 < h.log.size), h.log[i + 1].state.gas ≤ h.log[i].state.gas
  /-- Nothing is recorded behind a halt. -/
  running : ∀ i (hi : i + 1 < h.log.size), h.log[i].isHalted = false

theorem Records.faithful {m : Machine} {s : State} {h : History} (hr : h.Records m s) :
    h.Faithful m s where
  nonempty := h.size_pos
  cursor := h.cursor_lt
  index i hi := by rw [hr.log_eq i hi]; rfl
  state i hi := by rw [hr.log_eq i hi]; rfl
  gas i hi := by
    rw [hr.log_eq i hi]
    exact Nat.sub_add_cancel (m.gas_trace_le s i)
  spent i hi := by
    rw [hr.log_eq i (by omega), hr.log_eq (i + 1) hi]
    exact m.gas_step_le _
  running i hi := by
    rw [hr.log_eq i (by omega), Snapshot.isHalted, Machine.snapshot, hr.running i hi]
    rfl

end History

/-- **The log is the run, as far as it has been looked at.** Whatever a history or a session is
made to do, each record is what the steps of its machine lead to, and what was recorded stays. -/
theorem log_faithful (m : Machine) :
    (∀ (s : State) (before after : List History.Move),
      let h := (History.start s).moves m before
      (h.moves m after).Faithful m s ∧ h.log.toList <+: (h.moves m after).log.toList) ∧
    ∀ (limit : Nat) (before after : List Session.Move),
      let session := (Session.start m limit).moves before
      (session.moves after).history.Faithful m (State.initial m.env) ∧
        session.history.log.toList <+: (session.moves after).history.log.toList := by
  refine ⟨fun s before after => ?_, fun limit before after => ?_⟩
  · exact ⟨(((History.records_start m s).moves before).moves after).faithful,
      History.log_moves _ m after⟩
  · obtain ⟨ms, hms⟩ := Session.movesTo_moves (Session.start m limit) before
    obtain ⟨more, hmore⟩ := Session.movesTo_moves ((Session.start m limit).moves before) after
    dsimp only
    rw [hmore, hms]
    have hstart := History.records_start m (State.initial m.env)
    exact ⟨((hstart.moves ms).moves more).faithful, History.log_moves _ m more⟩

end Retrace
