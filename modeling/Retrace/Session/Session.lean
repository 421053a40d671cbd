import Retrace.Session.Breakpoints
import Retrace.Session.History
/-!
# Retrace — sessions

A session runs one machine and moves through its history: single steps in both
directions, a jump to a step, and continued runs in both directions that stop
at breakpoints. What the operator learns of a session without moving it is its
current snapshot and its `Summary`.
-/

namespace Retrace

/-- The most steps that a continued run takes where no bound is given. -/
def defaultStepLimit : Nat := 1000000

/-- Why a continued run stopped. -/
inductive StopReason where
  /-- The next instruction has a breakpoint. -/
  | breakpoint (pc : Nat)
  /-- There is nothing further to step into. -/
  | halted (reason : Halt)
  /-- A run backward came to the first snapshot. -/
  | startOfHistory
  /-- The run took as many steps as it may. -/
  | stepLimit (steps : Nat)
  deriving DecidableEq

/-- A step that a session was sent to and that the run does not reach. -/
structure StepOutOfRange where
  /-- The step asked for. -/
  index : Nat
  /-- The last step there is. -/
  highest : Nat
  deriving DecidableEq

/-- The wording of the refusal. -/
def StepOutOfRange.message (e : StepOutOfRange) : String :=
  "Step " ++ Text.decimal e.index ++ " out of range (max " ++ Text.decimal e.highest ++ ")"

/-- What a session has come to: the run by its furthest snapshot, and the place of the cursor. -/
structure Summary where
  /-- The number of snapshots. -/
  recorded : Nat
  /-- The place of the cursor. -/
  position : Nat
  /-- The gas used by the furthest snapshot. -/
  gasUsed : Nat
  /-- Why the furthest snapshot halted, if it did. -/
  halted : Option Halt
  /-- What the furthest snapshot handed back. -/
  output : Bytes
  deriving DecidableEq

/-- The exit code of a session: one if its furthest snapshot halted on a fault. -/
def Summary.exitCode (s : Summary) : Nat := (s.halted.map Halt.exitCode).getD 0

/-- A machine with its history. -/
structure Session where
  machine : Machine
  history : History
  /-- The most steps that a continued run takes. -/
  stepLimit : Nat

namespace Session

/-- The session of a machine before its first step. -/
def start (machine : Machine) (stepLimit : Nat) : Session where
  machine := machine
  history := History.start (State.initial machine.env)
  stepLimit := stepLimit

variable (s : Session)

/-- The snapshot under the cursor. -/
def current : Snapshot := s.history.current

/-- The place of the cursor. -/
def position : Nat := s.history.cursor

/-- What the session has come to. -/
def summary : Summary :=
  let frontier := s.history.frontier
  { recorded := s.history.size
    position := s.position
    gasUsed := frontier.gasUsed
    halted := frontier.halted
    output := frontier.state.output }

/-- The mnemonic of the instruction at an offset. Past the end of the code stands an implicit
stop, and a byte without an entry is unknown. -/
def mnemonicAt (pc : Nat) : String :=
  match s.machine.program.byteAt? pc with
  | some byte => (s.machine.table.mnemonic? byte).getD "UNKNOWN"
  | none => "STOP"

/-! ## Single steps -/

/-- Whether a step forward is possible. -/
def canStepForward : Bool := s.history.canAdvance

/-- Whether a step back is possible. -/
def canStepBack : Bool := s.history.canRetreat

/-- One step forward, if it is possible. -/
def stepForward : Session :=
  let ⟨machine, history, stepLimit⟩ := s
  ⟨machine, history.advance machine, stepLimit⟩

/-- One step back, if it is possible. -/
def stepBack : Session := { s with history := s.history.retreat }

/-- Move the cursor to a step that is not after it. -/
def rewindTo (step : Nat) : Session := { s with history := s.history.rewindTo step }

/-! ## Jumps -/

/-- At most `count` steps forward, as far as they are possible. -/
def stepForwardBy : Nat → Session → Session
  | 0, s => s
  | count + 1, s => if s.canStepForward then stepForwardBy count s.stepForward else s

/-- Move to a step, carrying out what is not yet recorded. If the run halts before it, the cursor
is where it was, and the refusal names the last step there is. -/
def goto (step : Nat) : Session × Except StepOutOfRange Snapshot :=
  let origin := s.position
  let moved := stepForwardBy (step - origin) s
  if moved.position < step then
    let highest := moved.history.highest
    (moved.rewindTo origin, .error ⟨step, highest⟩)
  else
    let arrived := moved.rewindTo step
    (arrived, .ok arrived.current)

/-! ## Continued runs -/

/-- Why a run stands still where no step forward is possible. -/
def standstill : StopReason :=
  match s.current.halted with
  | some reason => .halted reason
  | none => .stepLimit 0

/-- What stops a run that has just come to the current snapshot. A breakpoint comes first. -/
def stopHere? (breakpoints : Breakpoints) : Option StopReason :=
  if breakpoints.contains s.current.pc then some (.breakpoint s.current.pc)
  else s.current.halted.map .halted

/-- At most `count` steps forward, until one is stopped; `none` if none was. -/
def forwardWhile (breakpoints : Breakpoints) : Nat → Session → Session × Option StopReason
  | 0, s => (s, none)
  | count + 1, s =>
    if s.canStepForward then
      let s := s.stepForward
      match s.stopHere? breakpoints with
      | some reason => (s, some reason)
      | none => forwardWhile breakpoints count s
    else
      let reason := s.standstill
      (s, some reason)

/-- Run forward to a breakpoint, to the halt, or for as many steps as the session allows. -/
def continueForward (breakpoints : Breakpoints) : Session × StopReason :=
  let limit := s.stepLimit
  let (moved, reason) := forwardWhile breakpoints limit s
  (moved, reason.getD (.stepLimit limit))

/-- At most `count` steps back, until a breakpoint. -/
def backwardWhile (breakpoints : Breakpoints) : Nat → Session → Session × StopReason
  | 0, s => (s, .startOfHistory)
  | count + 1, s =>
    let s := s.stepBack
    let pc := s.current.pc
    if breakpoints.contains pc then (s, .breakpoint pc) else backwardWhile breakpoints count s

/-- Run back to a breakpoint or to the first snapshot. -/
def continueBackward (breakpoints : Breakpoints) : Session × StopReason :=
  let position := s.position
  backwardWhile breakpoints position s

end Session

end Retrace
