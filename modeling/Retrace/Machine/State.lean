import Retrace.Machine.Gas
import Retrace.Machine.Memory
import Retrace.Machine.Stack
import Retrace.Machine.Storage
import Retrace.Program
/-!
# Retrace — machine states

A state is everything that changes while a program runs. What does not change,
the program and the parameters of the session, is the `Context` that
instructions read from.
-/

namespace Retrace

/-- The gas allowance where none is given. -/
def defaultGasLimit : Nat := 15000000

/-- The parameters of a session. -/
structure Environment where
  /-- The account whose code runs. -/
  address : Address
  /-- The account that called it. -/
  caller : Address
  callData : Bytes
  callValue : Word
  /-- The gas that a run starts with. -/
  gasLimit : Nat
  deriving DecidableEq

/-- Nothing was sent, and nobody is named. -/
def Environment.blank : Environment := ⟨0, 0, ByteArray.empty, 0, defaultGasLimit⟩

/-- What instructions read and never change. -/
structure Context where
  program : Program
  env : Environment

/-- The state of a machine. -/
structure State where
  /-- The offset of the next instruction. -/
  pc : Nat
  stack : Stack
  returns : ReturnStack
  memory : Memory
  storage : Storage
  /-- The gas that is left. -/
  gas : Nat
  /-- Why the machine halted, unless it is running. -/
  halted : Option Halt
  /-- What was handed back. -/
  output : Bytes
  deriving DecidableEq

namespace State

/-- The state before the first instruction. -/
def initial (env : Environment) : State where
  pc := 0
  stack := Stack.empty
  returns := ReturnStack.empty
  memory := Memory.empty
  storage := Storage.empty
  gas := env.gasLimit
  halted := none
  output := ByteArray.empty

variable (s : State)

/-- Whether the machine can go on. -/
def isRunning : Bool := s.halted.isNone

/-- Pay for something, if there is gas enough. -/
def charge (price : Nat) : Except Fault State :=
  if price ≤ s.gas then .ok { s with gas := s.gas - price } else .error .outOfGas

/-- Pay for memory of the given size and grow to it. -/
def expandMemory (size : Nat) : Except Fault State := do
  let price ← Gas.expansion size s.memory.size
  let paid ← s.charge price
  let memory ← paid.memory.resize size
  .ok { paid with memory }

/-- Push a word. -/
def push (w : Word) : Except Fault State := do
  let stack ← s.stack.push w
  .ok { s with stack }

/-- Pop words, top first. -/
def pop (n : Nat) : Except Fault (Vector Word n × State) := do
  let (operands, stack) ← s.stack.pop n
  .ok (operands, { s with stack })

/-- The state halted for a reason. -/
def halt (reason : Halt) : State := { s with halted := some reason }

end State

end Retrace
