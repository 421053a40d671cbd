import Retrace.Listing
import Retrace.Session.Session
/-!
# Retrace — views

A view is all that a front end shows of a snapshot: the listing from the next
instruction on, the stack, the memory that is not zero, the visible storage and
the gas.
-/

namespace Retrace

/-- What is shown of a snapshot. -/
structure View where
  index : Nat
  pc : Nat
  listing : List Row
  /-- The stack, top first. -/
  stack : List Word
  /-- The words of memory that are not zero, each with its offset. -/
  memory : List (Nat × Word)
  /-- The visible slots of storage. -/
  storage : List Slot
  gasUsed : Nat
  gas : Nat
  halted : Option Halt
  deriving DecidableEq

namespace View

/-- The view of a snapshot with a listing of at most `height` rows. -/
def ofSnapshot (machine : Machine) (s : Snapshot) (height : Nat) : View where
  index := s.index
  pc := s.pc
  listing := Listing.rows machine.table machine.program height s.pc
  stack := s.state.stack.words
  memory := s.state.memory.nonZeroWords
  storage := s.state.storage.visible
  gasUsed := s.gasUsed
  gas := s.state.gas
  halted := s.halted

/-- The view of the current snapshot of a session. -/
def current (s : Session) (height : Nat) : View := ofSnapshot s.machine s.current height

end View

end Retrace
