import Retrace.Machine.Step
/-!
# Retrace — histories

A history is the log of the states of a run, with a cursor on one of them. The
log is never empty and only grows: moving back, and moving forward over what is
recorded, moves the cursor alone. A step is carried out only when the cursor
stands on the last record, the *frontier*, and that record has not halted. The
cursor stays inside the log by its type.
-/

namespace Retrace

/-- The state of a machine after some number of steps. -/
structure Snapshot where
  /-- The number of steps. -/
  index : Nat
  state : State
  /-- The gas spent since the first record. -/
  gasUsed : Nat
  deriving DecidableEq

namespace Snapshot

variable (s : Snapshot)

/-- The offset of the next instruction. -/
def pc : Nat := s.state.pc

/-- Why the machine halted, if it did. -/
def halted : Option Halt := s.state.halted

/-- Whether the machine halted. -/
def isHalted : Bool := s.state.halted.isSome

/-- The `n` topmost words of the stack. -/
def stackTop (n : Nat) : List Word := s.state.stack.words.take n

/-- The record of the state one step on. -/
def next (m : Machine) : Snapshot :=
  let state := (m.step s.state).state
  ⟨s.index + 1, state, s.gasUsed + (s.state.gas - state.gas)⟩

end Snapshot

/-- A log of snapshots with a cursor. -/
structure History where
  /-- The snapshots in the order of their steps. -/
  log : Array Snapshot
  /-- The position of the current snapshot. -/
  cursor : Nat
  /-- The cursor is in the log. -/
  cursor_lt : cursor < log.size

namespace History

/-- The history that starts from a state. -/
def start (s : State) : History := ⟨#[⟨0, s, 0⟩], 0, Nat.one_pos⟩

variable (h : History)

/-- The number of snapshots. -/
def size : Nat := h.log.size

theorem size_pos : 0 < h.log.size := Nat.zero_lt_of_lt h.cursor_lt

/-- The greatest index recorded. -/
def highest : Nat := h.log.size - 1

/-- The snapshot under the cursor. -/
def current : Snapshot := h.log[(⟨h.cursor, h.cursor_lt⟩ : Fin h.log.size)]

/-- The last snapshot. -/
def frontier : Snapshot :=
  h.log[(⟨h.log.size - 1, Nat.sub_one_lt_of_lt h.cursor_lt⟩ : Fin h.log.size)]

/-- The snapshot with an index, if it is recorded. -/
def get? (index : Nat) : Option Snapshot := h.log[index]?

/-- Where the `count` snapshots from `start` on end: at the end of the log at the latest. A sum that
is no 64-bit quantity counts as the greatest one. -/
def stop (start count : Nat) : Nat := min h.log.size (min (start + count) maxQuantity)

/-- The recorded snapshots among the `count` from `start` on. -/
def range (start count : Nat) : List Snapshot :=
  if start < h.log.size then (h.log.extract start (h.stop start count)).toList else []

/-! ## Moving the cursor -/

/-- Whether there is a snapshot before the current one. -/
def canRetreat : Bool := 0 < h.cursor

/-- Whether a later snapshot is recorded or can still be. -/
def canAdvance : Bool := h.cursor < h.log.size - 1 || !h.current.isHalted

/-- Move the cursor to an index that is not after it. -/
def rewindTo (index : Nat) : History :=
  ⟨h.log, min h.cursor index, Nat.lt_of_le_of_lt (Nat.min_le_left _ _) h.cursor_lt⟩

/-- Move the cursor back by one, if there is a snapshot before it. -/
def retreat : History := h.rewindTo (h.cursor - 1)

/-- Record a snapshot after the last and move there. -/
def record (s : Snapshot) : History :=
  let place := h.log.size
  ⟨h.log.push s, place, by simp [place]⟩

/-- Move the cursor forward by one: over what is recorded, or by carrying out a step. Where
neither is possible the history stays as it is. -/
def advance (m : Machine) : History :=
  if inside : h.cursor + 1 < h.log.size then ⟨h.log, h.cursor + 1, inside⟩
  else if h.frontier.isHalted then h
  else h.record (h.frontier.next m)

end History

end Retrace
