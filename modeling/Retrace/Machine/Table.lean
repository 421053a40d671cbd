import Retrace.Machine.Execute
/-!
# Retrace — instruction tables

A table says which instructions a machine knows. An entry belongs to an
instruction and holds the fee, the action carried out, which may be that of
another instruction, and the reason for which the machine halts once the action
has succeeded, if it does. A byte without an entry is an invalid opcode.
-/

namespace Retrace

/-- What a machine does on an instruction. -/
structure Entry where
  /-- Charged before the action. -/
  fee : Nat
  /-- The instruction whose effect is carried out. -/
  action : Opcode
  /-- Why the machine halts after the action, if it does. -/
  halts : Option Halt
  deriving DecidableEq

namespace Entry

/-- The usual entry of an instruction. -/
def standard (op : Opcode) : Entry where
  fee := Gas.baseFee op
  action := op
  halts := match op with
    | .stop | .ret => some .stopped
    | .revert => some .reverted
    | _ => none

/-- Pay the fee and carry out the action. -/
def apply (entry : Entry) (ctx : Context) (s : State) : Except Fault State := do
  let s ← s.charge entry.fee
  execute ctx entry.action s

end Entry

/-- The entries of the instructions that a machine knows. -/
structure Table where
  /-- The entry of an instruction, if the machine knows it. -/
  entry? : Opcode → Option Entry

namespace Table

/-- The table that knows no instruction. -/
def empty : Table := ⟨fun _ => none⟩

/-- The table with every instruction, subroutines included. -/
def withSubroutines : Table := ⟨fun op => some (Entry.standard op)⟩

/-- The instructions that only the table with subroutines knows. -/
def isSubroutineOp : Opcode → Bool
  | .beginSub | .returnSub | .jumpSub => true
  | _ => false

/-- The table without the subroutine instructions. -/
def reference : Table :=
  ⟨fun op => if isSubroutineOp op then none else some (Entry.standard op)⟩

variable (t : Table)

/-- The entry of a byte, if the byte has one. -/
def get? (byte : UInt8) : Option Entry := (Opcode.ofByte? byte).bind t.entry?

/-- The mnemonic of a byte, if the byte has an entry. -/
def mnemonic? (byte : UInt8) : Option String :=
  (Opcode.ofByte? byte).bind fun op => (t.entry? op).map fun _ => op.mnemonic

/-- Whether subroutines can be called. -/
def supportsSubroutines : Bool := (t.entry? .jumpSub).isSome

/-- The table with the entry of an instruction set or removed. -/
def update (op : Opcode) (entry : Option Entry) : Table :=
  ⟨fun other => if other = op then entry else t.entry? other⟩

/-- The table with an entry for an instruction. -/
def insert (op : Opcode) (entry : Entry) : Table := t.update op (some entry)

/-- The table without an entry for the byte. -/
def erase (byte : UInt8) : Table :=
  match Opcode.ofByte? byte with
  | some op => t.update op none
  | none => t

end Table

end Retrace
