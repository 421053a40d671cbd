import Retrace.Machine.Table
/-!
# Retrace — steps and runs

A machine is a program, an environment and a table; a step carries out the
instruction at `pc`. It never fails: a fault is the halted outcome of the state
that it met, untouched but for the reason. Past the end of the code stands an
implicit stop. A run repeats steps until one halts or the allowance of steps is
spent, and the *trace* is the sequence of states that steps alone lead through.
-/

namespace Retrace

/-- A program with all that is needed to run it. -/
structure Machine extends Context where
  table : Table

/-- What a step leads to. -/
inductive Outcome where
  | continued (s : State)
  | halted (s : State) (reason : Halt)
  deriving DecidableEq

namespace Outcome

/-- The state that a step leads to. -/
def state : Outcome → State
  | .continued s => s
  | .halted s _ => s

/-- The reason for which a step halted, if it did. -/
def reason? : Outcome → Option Halt
  | .continued _ => none
  | .halted _ reason => some reason

/-- The outcome of a state that halts. -/
def ofHalt (s : State) (reason : Halt) : Outcome := .halted (s.halt reason) reason

/-- The outcome of a fault: nothing of the state changes but the reason. -/
def ofFault (s : State) (cause : Fault) : Outcome := ofHalt s (.fault cause)

end Outcome

namespace Machine

variable (m : Machine)

/-- Carry out an entry on a running state. -/
def apply (entry : Entry) (s : State) : Outcome :=
  match entry.apply m.toContext { s with pc := s.pc + 1 } with
  | .error cause => .ofFault s cause
  | .ok next =>
    match entry.halts with
    | some reason => .ofHalt next reason
    | none => .continued next

/-- One step. -/
def step (s : State) : Outcome :=
  match s.halted with
  | some reason => .halted s reason
  | none =>
    match m.program.byteAt? s.pc with
    | none => .ofHalt s .stopped
    | some byte =>
      if m.program.isBoundary s.pc then
        match m.table.get? byte with
        | some entry => m.apply entry s
        | none => .ofFault s (.invalidOpcode byte)
      else .ofFault s (.malformedProgram s.pc)

/-- At most `count` steps, as long as none halts. -/
def run : Nat → State → Outcome
  | 0, s => .continued s
  | count + 1, s =>
    match m.step s with
    | .continued next => run count next
    | .halted next reason => .halted next reason

/-- The state after `n` steps, whether or not they halt. -/
def trace (s : State) : Nat → State
  | 0 => s
  | n + 1 => (m.step (trace s n)).state

end Machine

end Retrace
