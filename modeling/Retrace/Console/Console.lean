import Retrace.Console.Command
import Retrace.Panel
/-!
# Retrace — the console

A console is a session with the breakpoints that the operator has set and the
sizes of the panels. Each command either moves the session or changes the
breakpoints or only looks, and answers with a text; `quit` ends the console.
-/

namespace Retrace

/-- A session as an operator works with it. -/
structure Console where
  session : Session
  breakpoints : Breakpoints
  /-- The rows of a listing. -/
  listingHeight : Nat
  /-- The words of the stack shown with a step. -/
  stackTop : Nat

/-- The answer to a command. -/
inductive Reply where
  | text (text : String)
  | quit
  deriving DecidableEq

namespace Console

variable (c : Console)

/-- The console of a session, without breakpoints. -/
def start (session : Session) (listingHeight stackTop : Nat) : Console :=
  ⟨session, Breakpoints.empty, listingHeight, stackTop⟩

/-- The current snapshot in detail. -/
def currentStep : String :=
  let s := c.session.current
  Panel.step s (c.session.mnemonicAt s.pc) c.session.history.size c.stackTop

/-- The listed snapshots: a window around the cursor. -/
def listWindow (count : Nat) : List Snapshot :=
  c.session.history.range (c.session.position - count / 2) count

/-- A snapshot of the list, marked if the cursor is on it. -/
def listLine (s : Snapshot) : String :=
  Panel.compactStep s (c.session.mnemonicAt s.pc) c.session.history.size
    (s.index == c.session.position)

/-- The snapshots around the cursor, one a line. -/
def list (count : Nat) : String :=
  let window := c.listWindow count
  if window.isEmpty then "No steps recorded." else Text.lines (window.map c.listLine)

/-- Why no step forward is possible. -/
def standstill : String :=
  match c.session.current.halted with
  | some reason => "execution halted (" ++ reason.message ++ ")"
  | none => "no further steps"

/-- The listing from the current instruction on, and the strip. -/
def code : String :=
  let pc := c.session.current.pc
  let machine := c.session.machine
  Panel.listing (Listing.rows machine.table machine.program c.listingHeight pc) pc ++ "\n\n" ++
    Listing.strip machine.program pc

/-! ## Commands -/

/-- Move the session, and answer with a headline and the snapshot that it came to. -/
def move (f : Session → Session × String) : Console × Reply :=
  let ⟨session, breakpoints, listingHeight, stackTop⟩ := c
  let (session, headline) := f session
  let c : Console := ⟨session, breakpoints, listingHeight, stackTop⟩
  let text := headline ++ c.currentStep
  (c, .text text)

/-- Step forward, or say why not. -/
def stepForward : Console × Reply :=
  if c.session.canStepForward then c.move fun session => (session.stepForward, "")
  else
    let text := "Cannot step forward: " ++ c.standstill ++ "."
    (c, .text text)

/-- Step back, or say why not. -/
def stepBack : Console × Reply :=
  if c.session.canStepBack then c.move fun session => (session.stepBack, "")
  else (c, .text "Already at first step.")

/-- The headline of a continued run. -/
def stopHeadline (run : Session × StopReason) : Session × String :=
  let (session, reason) := run
  (session, Panel.stopReason reason ++ "\n")

/-- Run forward and say why the run stopped. -/
def continueForward : Console × Reply :=
  let breakpoints := c.breakpoints
  c.move fun session => stopHeadline (session.continueForward breakpoints)

/-- Run back and say why the run stopped. -/
def continueBackward : Console × Reply :=
  let breakpoints := c.breakpoints
  c.move fun session => stopHeadline (session.continueBackward breakpoints)

/-- Go to a step, or say that there is none. -/
def goto (step : Nat) : Console × Reply :=
  let ⟨session, breakpoints, listingHeight, stackTop⟩ := c
  let (session, outcome) := session.goto step
  let c : Console := ⟨session, breakpoints, listingHeight, stackTop⟩
  match outcome with
  | .ok _ =>
    let text := c.currentStep
    (c, .text text)
  | .error e => (c, .text (e.message ++ "."))

/-- Set a breakpoint. -/
def setBreakpoint (pc : Nat) : Console × Reply :=
  ({ c with breakpoints := c.breakpoints.insert pc },
    .text ("Breakpoint set at " ++ Panel.bothWays pc ++ "."))

/-- Delete a breakpoint, if it is set. -/
def deleteBreakpoint (pc : Nat) : Console × Reply :=
  if c.breakpoints.contains pc then
    ({ c with breakpoints := c.breakpoints.erase pc },
      .text ("Breakpoint removed at " ++ Panel.bothWays pc ++ "."))
  else (c, .text ("No breakpoint at " ++ Panel.bothWays pc ++ "."))

/-- Carry out a command. -/
def execute (command : Command) : Console × Reply :=
  match command with
  | .step => c.stepForward
  | .stepBack => c.stepBack
  | .continueForward => c.continueForward
  | .continueBackward => c.continueBackward
  | .setBreakpoint pc => c.setBreakpoint pc
  | .deleteBreakpoint pc => c.deleteBreakpoint pc
  | .goto step => c.goto step
  | .info => (c, .text (Panel.info c.session.summary c.session.machine.env))
  | .stack => (c, .text (Panel.stack c.session.current.state.stack.words))
  | .memory => (c, .text (Panel.memory c.session.current.state.memory.nonZeroWords))
  | .storage => (c, .text (Panel.storage c.session.current.state.storage.visible))
  | .list count => (c, .text (c.list count))
  | .code => (c, .text c.code)
  | .breakpoints => (c, .text (Panel.breakpoints c.breakpoints))
  | .help => (c, .text Panel.help)
  | .quit => (c, .quit)

end Console

end Retrace
