import Retrace.Text.Digits
/-!
# Retrace — why a machine halts

A machine ends by stopping, by reverting, or by a *fault*: an instruction that
could not be carried out. A fault is not an error of the debugger; it is
recorded like any other state and can be navigated to.
-/

namespace Retrace

/-- Why an instruction could not be carried out. -/
inductive Fault where
  | outOfGas
  | invalidOpcode (byte : UInt8)
  | invalidJump
  | stackUnderflow
  | stackOverflow
  | returnStackUnderflow
  | returnStackOverflow
  /-- A subroutine entry was run into instead of being called. -/
  | subroutineEntry
  /-- Execution stood inside the immediate of a push. -/
  | malformedProgram (pc : Nat)
  deriving DecidableEq

/-- The wording of a fault. -/
def Fault.message : Fault → String
  | .outOfGas => "Out of gas"
  | .invalidOpcode byte => "Invalid opcode " ++ Text.hexPadded 2 byte.toNat
  | .invalidJump => "Invalid jump destination"
  | .stackUnderflow => "Stack underflow"
  | .stackOverflow => "Stack overflow"
  | .returnStackUnderflow => "Return stack underflow"
  | .returnStackOverflow => "Return stack overflow"
  | .subroutineEntry => "Subroutine entry reached by fallthrough"
  | .malformedProgram pc => "Malformed program at pc " ++ Text.offset pc

/-- Why a machine halted. -/
inductive Halt where
  | stopped
  | reverted
  | fault (cause : Fault)
  deriving DecidableEq

namespace Halt

/-- The wording of a halt. -/
def message : Halt → String
  | .stopped => "Stopped"
  | .reverted => "Reverted"
  | .fault cause => cause.message

/-- Whether the machine halted on a fault. -/
def isFault : Halt → Bool
  | .fault _ => true
  | _ => false

/-- The exit code that reports the halt: one for a fault. -/
def exitCode (halt : Halt) : Nat := if halt.isFault then 1 else 0

end Halt

end Retrace
