import Retrace.Keccak
import Retrace.Machine.State
/-!
# Retrace — what instructions do

`execute` is the effect of an instruction on a state whose `pc` already stands
behind the instruction byte and whose base fee is paid. Instructions pay their
dynamic price themselves. A fault carries no state: the caller keeps the one it
had. Operands are taken from the top of the stack, the topmost first.
-/

namespace Retrace

namespace State

variable (s : State)

/-! ## Words -/

/-- Replace the top by a function of it. -/
def unary (f : Word → Word) : Except Fault State := do
  let (operands, s) ← s.pop 1
  s.push (f operands[0])

/-- Replace the two topmost words by a function of them. -/
def binary (f : Word → Word → Word) : Except Fault State := do
  let (operands, s) ← s.pop 2
  s.push (f operands[0] operands[1])

/-- Raise the top to the power of the next word, paying for the exponent. -/
def power : Except Fault State := do
  let (operands, s) ← s.pop 2
  let price ← Gas.raising operands[1]
  let s ← s.charge price
  s.push (Word.pow operands[0] operands[1])

/-- The price is always computed, so that only paying it can fail. -/
theorem power_eq : s.power = (do
    let (operands, s) ← s.pop 2
    let s ← s.charge (Gas.power operands[1])
    s.push (Word.pow operands[0] operands[1])) := by
  simp only [power, Gas.raising_eq]
  rfl

/-- Push the big-endian word at an offset of a source, continued with zeros. -/
def loadFrom (source : Bytes) : Except Fault State := do
  let (operands, s) ← s.pop 1
  s.push (Word.ofBytes (Bytes.window source operands[0].toNat 32))

/-! ## Memory and storage -/

/-- Push the hash of a range of memory. -/
def hashMemory : Except Fault State := do
  let (operands, s) ← s.pop 2
  let (offset, size) ← rangeOperands operands[0] operands[1]
  let needed ← touchedSize offset size
  let price ← Gas.hashing needed s.memory.size size
  let s ← s.charge price
  let (data, memory) ← s.memory.load offset size
  { s with memory }.push (Keccak.hash data)

/-- Copy a range of a source, continued with zeros, to memory. -/
def copyFrom (source : Bytes) : Except Fault State := do
  let (operands, s) ← s.pop 3
  let (offset, size) ← rangeOperands operands[0] operands[2]
  let needed ← touchedSize offset size
  let price ← Gas.copying needed s.memory.size size
  let s ← s.charge price
  let data := Bytes.slice source operands[1].toNat (operands[1].toNat + size)
  let memory ← s.memory.storePadded offset data size
  .ok { s with memory }

/-- Replace the offset on top by the word of memory there. -/
def loadMemory : Except Fault State := do
  let (operands, s) ← s.pop 1
  let offset ← quantityOperand operands[0]
  let needed ← touchedSize offset 32
  let s ← s.expandMemory needed
  let (w, memory) ← s.memory.loadWord offset
  { s with memory }.push w

/-- Store bytes made of the second word at the offset on top. -/
def storeMemory (encode : Word → Bytes) : Except Fault State := do
  let (operands, s) ← s.pop 2
  let offset ← quantityOperand operands[0]
  let data := encode operands[1]
  let needed ← touchedSize offset data.size
  let s ← s.expandMemory needed
  let memory ← s.memory.store offset data
  .ok { s with memory }

/-- The least significant byte of a word. -/
def lowByte (w : Word) : Bytes := Bytes.ofNat 1 w.toNat

/-- Write a word to storage. -/
def storeSlot : Except Fault State := do
  let (operands, s) ← s.pop 2
  let s ← s.charge (Gas.storing (s.storage.get operands[0]) operands[1])
  .ok { s with storage := s.storage.set operands[0] operands[1] }

/-- Hand back a range of memory. -/
def captureOutput : Except Fault State := do
  let (operands, s) ← s.pop 2
  let (offset, size) ← rangeOperands operands[0] operands[1]
  let needed ← touchedSize offset size
  let s ← s.expandMemory needed
  let (output, memory) ← s.memory.load offset size
  .ok { s with memory, output }

/-! ## Control -/

/-- The offset of the instruction being carried out, `pc` standing behind its byte. -/
def instructionOffset : Nat := s.pc - 1

/-- Go to a jump destination. -/
def jumpTo (program : Program) (target : Word) : Except Fault State :=
  match program.jumpTarget? target with
  | some pc => .ok { s with pc }
  | none => .error .invalidJump

/-- Go to the destination on top if the next word is not zero; else it may be anything. -/
def jumpIf (program : Program) : Except Fault State := do
  let (operands, s) ← s.pop 2
  if operands[1] = 0 then .ok s else s.jumpTo program operands[0]

/-- Push an immediate of `size` bytes and go past it. Bytes that the code no longer holds are
zero, and `pc` stops at the end of the code. -/
def pushImmediate (program : Program) (size : Nat) : Except Fault State := do
  let immediate := Bytes.window program.code s.pc size
  let pushed ← s.push (Word.ofBytes immediate)
  .ok { pushed with pc := min (s.pc + size) program.size }

/-- Call a subroutine: remember where to resume and go behind the entry. -/
def callSubroutine (program : Program) : Except Fault State := do
  let (operands, s) ← s.pop 1
  match program.subroutineTarget? operands[0] with
  | some entry =>
    let returns ← s.returns.push s.pc
    .ok { s with returns, pc := entry + 1 }
  | none => .error .invalidJump

/-- Resume the innermost caller. -/
def returnToCaller : Except Fault State := do
  let (pc, returns) ← s.returns.pop
  .ok { s with returns, pc }

/-- The fault of an instruction that is defined to fail: it names the byte that stands there. -/
def refuse (program : Program) : Except Fault State :=
  .error (.invalidOpcode ((program.byteAt? s.instructionOffset).getD Opcode.invalid.toByte))

end State

/-! ## All instructions -/

/-- The effect of an instruction. -/
def execute (ctx : Context) (op : Opcode) (s : State) : Except Fault State :=
  match op with
  | .stop | .jumpDest => .ok s
  | .add => s.binary fun a b => a + b
  | .mul => s.binary fun a b => a * b
  | .sub => s.binary fun a b => a - b
  | .div => s.binary fun a b => a / b
  | .mod => s.binary Word.rem
  | .exp => s.power
  | .lt => s.binary fun a b => Word.ofBool (decide (a < b))
  | .gt => s.binary fun a b => Word.ofBool (decide (b < a))
  | .eq => s.binary fun a b => Word.ofBool (decide (a = b))
  | .isZero => s.unary fun a => Word.ofBool (decide (a = 0))
  | .and => s.binary fun a b => a &&& b
  | .or => s.binary fun a b => a ||| b
  | .xor => s.binary fun a b => a ^^^ b
  | .not => s.unary fun a => ~~~a
  | .byte => s.binary Word.byte
  | .shl => s.binary Word.shiftLeft
  | .shr => s.binary Word.shiftRight
  | .keccak256 => s.hashMemory
  | .address => s.push (ctx.env.address.zeroExtend 256)
  | .caller => s.push (ctx.env.caller.zeroExtend 256)
  | .callValue => s.push ctx.env.callValue
  | .callDataLoad => s.loadFrom ctx.env.callData
  | .callDataSize => s.push (BitVec.ofNat 256 ctx.env.callData.size)
  | .callDataCopy => s.copyFrom ctx.env.callData
  | .codeSize => s.push (BitVec.ofNat 256 ctx.program.size)
  | .codeCopy => s.copyFrom ctx.program.code
  | .pop => (s.pop 1).map (·.2)
  | .mload => s.loadMemory
  | .mstore => s.storeMemory Word.toBytes
  | .mstore8 => s.storeMemory State.lowByte
  | .sload => s.unary s.storage.get
  | .sstore => s.storeSlot
  | .jump => do
    let (operands, s) ← s.pop 1
    s.jumpTo ctx.program operands[0]
  | .jumpi => s.jumpIf ctx.program
  | .pc => s.push (BitVec.ofNat 256 s.instructionOffset)
  | .msize => s.push (BitVec.ofNat 256 s.memory.size)
  | .gas => s.push (BitVec.ofNat 256 s.gas)
  | .beginSub => .error .subroutineEntry
  | .returnSub => s.returnToCaller
  | .jumpSub => s.callSubroutine ctx.program
  | .push0 => s.push 0
  | .push n => s.pushImmediate ctx.program (n.val + 1)
  | .dup n => do
    let stack ← s.stack.dup n.val
    .ok { s with stack }
  | .swap n => do
    let stack ← s.stack.swap (n.val + 1)
    .ok { s with stack }
  | .ret | .revert => s.captureOutput
  | .invalid => s.refuse ctx.program

end Retrace
