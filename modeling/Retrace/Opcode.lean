/-!
# Retrace — opcodes

The instructions of the machine, each with its byte and its mnemonic. The push,
duplicate and exchange families are one constructor each; their argument counts
from zero, so that `push 0` pushes one byte. `ofByte?` reads a byte back and
`ofByte?_toByte` says that it undoes `toByte`.
-/

namespace Retrace

/-- An instruction of the machine. -/
inductive Opcode where
  | stop | add | mul | sub | div | mod | exp
  | lt | gt | eq | isZero | and | or | xor | not | byte | shl | shr
  | keccak256
  | address | caller | callValue | callDataLoad | callDataSize | callDataCopy | codeSize | codeCopy
  | pop | mload | mstore | mstore8 | sload | sstore
  | jump | jumpi | pc | msize | gas | jumpDest
  | beginSub | returnSub | jumpSub
  | push0
  | push (n : Fin 32)
  | dup (n : Fin 16)
  | swap (n : Fin 16)
  | ret | revert | invalid
  deriving DecidableEq

namespace Opcode

/-- The byte that marks a jump destination. -/
def jumpDestByte : UInt8 := 0x5b

/-- The byte that marks a subroutine entry. -/
def beginSubByte : UInt8 := 0x5c

/-- The number of immediate bytes that follow an instruction byte. -/
def immediateSize (byte : UInt8) : Nat :=
  if 0x60 ≤ byte ∧ byte ≤ 0x7f then byte.toNat - 0x5f else 0

/-- The byte of an instruction. -/
def toByte : Opcode → UInt8
  | .stop => 0x00 | .add => 0x01 | .mul => 0x02 | .sub => 0x03
  | .div => 0x04 | .mod => 0x06 | .exp => 0x0a
  | .lt => 0x10 | .gt => 0x11 | .eq => 0x14 | .isZero => 0x15
  | .and => 0x16 | .or => 0x17 | .xor => 0x18 | .not => 0x19
  | .byte => 0x1a | .shl => 0x1b | .shr => 0x1c
  | .keccak256 => 0x20
  | .address => 0x30 | .caller => 0x33 | .callValue => 0x34 | .callDataLoad => 0x35
  | .callDataSize => 0x36 | .callDataCopy => 0x37 | .codeSize => 0x38 | .codeCopy => 0x39
  | .pop => 0x50 | .mload => 0x51 | .mstore => 0x52 | .mstore8 => 0x53
  | .sload => 0x54 | .sstore => 0x55
  | .jump => 0x56 | .jumpi => 0x57 | .pc => 0x58 | .msize => 0x59
  | .gas => 0x5a | .jumpDest => 0x5b
  | .beginSub => 0x5c | .returnSub => 0x5d | .jumpSub => 0x5e
  | .push0 => 0x5f
  | .push n => UInt8.ofNat (0x60 + n.val)
  | .dup n => UInt8.ofNat (0x80 + n.val)
  | .swap n => UInt8.ofNat (0x90 + n.val)
  | .ret => 0xf3 | .revert => 0xfd | .invalid => 0xfe

/-- The instruction of a byte outside the three families. -/
def ofPlainByte? : Nat → Option Opcode
  | 0x00 => some .stop | 0x01 => some .add | 0x02 => some .mul | 0x03 => some .sub
  | 0x04 => some .div | 0x06 => some .mod | 0x0a => some .exp
  | 0x10 => some .lt | 0x11 => some .gt | 0x14 => some .eq | 0x15 => some .isZero
  | 0x16 => some .and | 0x17 => some .or | 0x18 => some .xor | 0x19 => some .not
  | 0x1a => some .byte | 0x1b => some .shl | 0x1c => some .shr
  | 0x20 => some .keccak256
  | 0x30 => some .address | 0x33 => some .caller | 0x34 => some .callValue
  | 0x35 => some .callDataLoad | 0x36 => some .callDataSize | 0x37 => some .callDataCopy
  | 0x38 => some .codeSize | 0x39 => some .codeCopy
  | 0x50 => some .pop | 0x51 => some .mload | 0x52 => some .mstore | 0x53 => some .mstore8
  | 0x54 => some .sload | 0x55 => some .sstore
  | 0x56 => some .jump | 0x57 => some .jumpi | 0x58 => some .pc | 0x59 => some .msize
  | 0x5a => some .gas | 0x5b => some .jumpDest
  | 0x5c => some .beginSub | 0x5d => some .returnSub | 0x5e => some .jumpSub
  | 0x5f => some .push0
  | 0xf3 => some .ret | 0xfd => some .revert | 0xfe => some .invalid
  | _ => none

/-- The instruction of a byte, if the byte has one. -/
def ofByte? (byte : UInt8) : Option Opcode :=
  let n := byte.toNat
  if h : 0x60 ≤ n ∧ n < 0x80 then some (.push ⟨n - 0x60, by omega⟩)
  else if h : 0x80 ≤ n ∧ n < 0x90 then some (.dup ⟨n - 0x80, by omega⟩)
  else if h : 0x90 ≤ n ∧ n < 0xa0 then some (.swap ⟨n - 0x90, by omega⟩)
  else ofPlainByte? n

/-- **Reading a byte undoes writing it.** -/
theorem ofByte?_toByte (op : Opcode) : ofByte? op.toByte = some op := by
  cases op with
  | push n => revert n; decide
  | dup n => revert n; decide
  | swap n => revert n; decide
  | _ => rfl

/-- Different instructions have different bytes. -/
theorem toByte_injective {a b : Opcode} (h : a.toByte = b.toByte) : a = b := by
  have := ofByte?_toByte a
  rw [h, ofByte?_toByte] at this
  exact (Option.some.inj this).symm

/-- The mnemonic of an instruction. -/
def mnemonic : Opcode → String
  | .stop => "STOP" | .add => "ADD" | .mul => "MUL" | .sub => "SUB"
  | .div => "DIV" | .mod => "MOD" | .exp => "EXP"
  | .lt => "LT" | .gt => "GT" | .eq => "EQ" | .isZero => "ISZERO"
  | .and => "AND" | .or => "OR" | .xor => "XOR" | .not => "NOT"
  | .byte => "BYTE" | .shl => "SHL" | .shr => "SHR"
  | .keccak256 => "KECCAK256"
  | .address => "ADDRESS" | .caller => "CALLER" | .callValue => "CALLVALUE"
  | .callDataLoad => "CALLDATALOAD" | .callDataSize => "CALLDATASIZE"
  | .callDataCopy => "CALLDATACOPY" | .codeSize => "CODESIZE" | .codeCopy => "CODECOPY"
  | .pop => "POP" | .mload => "MLOAD" | .mstore => "MSTORE" | .mstore8 => "MSTORE8"
  | .sload => "SLOAD" | .sstore => "SSTORE"
  | .jump => "JUMP" | .jumpi => "JUMPI" | .pc => "PC" | .msize => "MSIZE"
  | .gas => "GAS" | .jumpDest => "JUMPDEST"
  | .beginSub => "BEGINSUB" | .returnSub => "RETURNSUB" | .jumpSub => "JUMPSUB"
  | .push0 => "PUSH0"
  | .push n => "PUSH" ++ Nat.repr (n.val + 1)
  | .dup n => "DUP" ++ Nat.repr (n.val + 1)
  | .swap n => "SWAP" ++ Nat.repr (n.val + 1)
  | .ret => "RETURN" | .revert => "REVERT" | .invalid => "INVALID"

/-- All instructions, in the order of their bytes. -/
def all : List Opcode := (List.range 256).filterMap fun n => ofByte? (UInt8.ofNat n)

/-- The instruction with a mnemonic, written exactly so. -/
def ofMnemonic? (name : String) : Option Opcode := all.find? fun op => op.mnemonic == name

end Opcode

end Retrace
