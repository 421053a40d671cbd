import Retrace.Machine.Execute
/-!
# Retrace — on what an instruction may fail

Faults arise deep inside the handlers, in checked arithmetic, on the stacks and
at jumps. `FaultsIn P x` says that whatever fault `x` ends on is one that `P`
admits; it is kept by carrying on (`FaultsIn.bind`), so that what a handler may
fail on is read off its parts. Arithmetic on extents and prices fails on nothing
but gas, and an instruction without a price of its own on anything but gas
(`faultsIn_execute_of_unpriced`). The instruction that is defined to fail is the
only one that names a byte (`faultsIn_execute_of_ne_invalid`), and no
instruction reports a machine out of step: that is the step's own doing
(`faultsIn_execute`).
-/

namespace Retrace

/-- Whatever fault a computation ends on is one that `P` admits. -/
def FaultsIn {α : Type} (P : Fault → Prop) (x : Except Fault α) : Prop :=
  ∀ cause, x = .error cause → P cause

namespace FaultsIn

variable {α β : Type} {P Q : Fault → Prop} {x : Except Fault α}

theorem ok (a : α) : FaultsIn P (.ok a : Except Fault α) := fun _ h => by cases h

theorem error {cause : Fault} (h : P cause) : FaultsIn P (.error cause : Except Fault α) :=
  fun _ heq => by cases heq; exact h

/-- A computation in parts fails as one of its parts does. -/
theorem bind {f : α → Except Fault β} (hx : FaultsIn P x) (hf : ∀ a, FaultsIn P (f a)) :
    FaultsIn P (x >>= f) := by
  intro cause h
  cases x with
  | error first =>
    cases h
    exact hx cause rfl
  | ok a => exact hf a cause h

theorem mono (hx : FaultsIn P x) (h : ∀ cause, P cause → Q cause) : FaultsIn Q x :=
  fun cause heq => h cause (hx cause heq)

end FaultsIn

/-! ## What could not be paid for -/

theorem faultsIn_bounded (n : Nat) : FaultsIn (· = .outOfGas) (bounded n) := by
  unfold bounded
  split
  · exact .ok n
  · exact .error rfl

theorem faultsIn_touchedSize (offset size : Nat) :
    FaultsIn (· = .outOfGas) (touchedSize offset size) := by
  unfold touchedSize
  split
  · exact .ok 0
  · exact .bind (faultsIn_bounded _) fun _ => faultsIn_bounded _

theorem faultsIn_rangeOperands (offset size : Word) :
    FaultsIn (· = .outOfGas) (rangeOperands offset size) := by
  unfold rangeOperands
  split
  · exact .ok _
  · exact .bind (faultsIn_bounded _) fun _ => .bind (faultsIn_bounded _) fun _ => .ok _

theorem faultsIn_memoryPrice (size : Nat) : FaultsIn (· = .outOfGas) (Gas.memoryPrice size) :=
  .bind (faultsIn_bounded _) fun _ => .bind (faultsIn_bounded _) fun _ => faultsIn_bounded _

theorem faultsIn_expansion (newSize size : Nat) :
    FaultsIn (· = .outOfGas) (Gas.expansion newSize size) := by
  unfold Gas.expansion
  split
  · exact .ok 0
  · exact .bind (faultsIn_memoryPrice _) fun _ => .bind (faultsIn_memoryPrice _) fun _ => .ok _

theorem faultsIn_expansionAndUnits (rate newSize oldSize size : Nat) :
    FaultsIn (· = .outOfGas) (Gas.expansionAndUnits rate newSize oldSize size) :=
  .bind (faultsIn_bounded _) fun _ => .bind (faultsIn_expansion _ _) fun _ => faultsIn_bounded _

theorem faultsIn_resize (m : Memory) (size : Nat) : FaultsIn (· = .outOfGas) (m.resize size) := by
  unfold Memory.resize
  split
  · exact .ok m
  · exact .bind (faultsIn_bounded _) fun _ => .ok _

theorem faultsIn_load (m : Memory) (offset size : Nat) :
    FaultsIn (· = .outOfGas) (m.load offset size) := by
  unfold Memory.load
  split
  · exact .ok _
  · exact .bind (faultsIn_bounded _) fun _ => .bind (faultsIn_resize _ _) fun _ => .ok _

theorem faultsIn_loadWord (m : Memory) (offset : Nat) :
    FaultsIn (· = .outOfGas) (m.loadWord offset) :=
  .bind (faultsIn_load m offset 32) fun ⟨_, _⟩ => .ok _

theorem faultsIn_store (m : Memory) (offset : Nat) (data : Bytes) :
    FaultsIn (· = .outOfGas) (m.store offset data) := by
  unfold Memory.store
  split
  · exact .ok m
  · exact .bind (faultsIn_bounded _) fun _ => .bind (faultsIn_resize _ _) fun _ => .ok _

theorem faultsIn_storePadded (m : Memory) (offset size : Nat) (data : Bytes) :
    FaultsIn (· = .outOfGas) (m.storePadded offset data size) := by
  unfold Memory.storePadded
  split
  · exact .ok m
  · exact .bind (faultsIn_bounded _) fun _ => .bind (faultsIn_resize _ _) fun _ => .ok _

theorem faultsIn_charge (s : State) (price : Nat) : FaultsIn (· = .outOfGas) (s.charge price) := by
  unfold State.charge
  split
  · exact .ok _
  · exact .error rfl

theorem faultsIn_expandMemory (s : State) (size : Nat) :
    FaultsIn (· = .outOfGas) (s.expandMemory size) :=
  .bind (faultsIn_expansion _ _) fun _ => .bind (faultsIn_charge _ _) fun _ =>
    .bind (faultsIn_resize _ _) fun _ => .ok _

/-! ## The faults of instructions -/

/-- The faults that an instruction can end on: all but the one of a machine out of step. -/
def Fault.IsInstructionFault (cause : Fault) : Prop := ∀ pc, cause ≠ .malformedProgram pc

/-- Those that do not name a byte. An instruction that is not defined to fail ends on no other. -/
def Fault.IsNameless (cause : Fault) : Prop :=
  (∀ byte, cause ≠ .invalidOpcode byte) ∧ cause.IsInstructionFault

/-- Those among them that have nothing to do with what an instruction costs. -/
def Fault.IsUnpriced (cause : Fault) : Prop := cause ≠ .outOfGas ∧ cause.IsNameless

/-- Out of gas does not name a byte. -/
theorem FaultsIn.ofGas {α : Type} {x : Except Fault α} (h : FaultsIn (· = .outOfGas) x) :
    FaultsIn Fault.IsNameless x :=
  h.mono fun cause hcause => by rw [hcause]; exact ⟨nofun, nofun⟩

/-- And neither does a fault that has nothing to do with gas. -/
theorem FaultsIn.ofUnpriced {α : Type} {x : Except Fault α} (h : FaultsIn Fault.IsUnpriced x) :
    FaultsIn Fault.IsNameless x :=
  h.mono fun _ hcause => hcause.2

namespace State

variable (s : State) (program : Program)

theorem faultsIn_pop (n : Nat) : FaultsIn Fault.IsUnpriced (s.pop n) := by
  refine .bind ?_ fun ⟨_, _⟩ => .ok _
  unfold Stack.pop
  split
  · exact .ok _
  · exact .error ⟨nofun, nofun, nofun⟩

theorem faultsIn_pushStack (stack : Stack) (w : Word) :
    FaultsIn Fault.IsUnpriced (stack.push w) := by
  unfold Stack.push
  split
  · exact .ok _
  · exact .error ⟨nofun, nofun, nofun⟩

theorem faultsIn_push (w : Word) : FaultsIn Fault.IsUnpriced (s.push w) :=
  .bind (faultsIn_pushStack s.stack w) fun _ => .ok _

/-- A push fails for want of room on the stack, whatever it pushes. -/
theorem push_error_congr {s t : State} (hstack : t.stack = s.stack) {cause : Fault} {v w : Word}
    (h : s.push v = .error cause) : t.push w = .error cause := by
  unfold push Stack.push at h ⊢
  rw [hstack]
  split at h
  · cases h
  · rename_i hfull
    rw [dif_neg hfull]
    exact h

theorem faultsIn_drop (n : Nat) : FaultsIn Fault.IsUnpriced ((s.pop n).map (·.2)) := by
  intro cause h
  have hpop := faultsIn_pop s n
  cases hx : s.pop n with
  | error first =>
    rw [hx] at h hpop
    cases h
    exact hpop cause rfl
  | ok popped =>
    rw [hx] at h
    cases h

theorem faultsIn_replace {n : Nat} (f : Vector Word n → Word) : FaultsIn Fault.IsUnpriced
    (do let (operands, s) ← s.pop n; s.push (f operands)) :=
  .bind (s.faultsIn_pop n) fun ⟨_, popped⟩ => popped.faultsIn_push _

theorem faultsIn_unary (f : Word → Word) : FaultsIn Fault.IsUnpriced (s.unary f) :=
  s.faultsIn_replace fun operands : Vector Word 1 => f operands[0]

theorem faultsIn_binary (f : Word → Word → Word) : FaultsIn Fault.IsUnpriced (s.binary f) :=
  s.faultsIn_replace fun operands : Vector Word 2 => f operands[0] operands[1]

theorem faultsIn_loadFrom (source : Bytes) : FaultsIn Fault.IsUnpriced (s.loadFrom source) :=
  s.faultsIn_replace fun operands : Vector Word 1 =>
    Word.ofBytes (Bytes.window source operands[0].toNat 32)

theorem faultsIn_power : FaultsIn Fault.IsNameless s.power := by
  rw [power_eq]
  exact .bind (s.faultsIn_pop 2).ofUnpriced fun ⟨_, popped⟩ =>
    .bind (faultsIn_charge popped _).ofGas fun paid => (paid.faultsIn_push _).ofUnpriced

theorem faultsIn_hashMemory : FaultsIn Fault.IsNameless s.hashMemory :=
  .bind (s.faultsIn_pop 2).ofUnpriced fun ⟨_, popped⟩ =>
  .bind (faultsIn_rangeOperands _ _).ofGas fun ⟨_, _⟩ =>
  .bind (faultsIn_touchedSize _ _).ofGas fun _ =>
  .bind (faultsIn_expansionAndUnits _ _ _ _).ofGas fun _ =>
  .bind (faultsIn_charge popped _).ofGas fun paid =>
  .bind (faultsIn_load paid.memory _ _).ofGas fun ⟨_, _⟩ => (faultsIn_push _ _).ofUnpriced

theorem faultsIn_copyFrom (source : Bytes) : FaultsIn Fault.IsNameless (s.copyFrom source) :=
  .bind (s.faultsIn_pop 3).ofUnpriced fun ⟨_, popped⟩ =>
  .bind (faultsIn_rangeOperands _ _).ofGas fun ⟨_, _⟩ =>
  .bind (faultsIn_touchedSize _ _).ofGas fun _ =>
  .bind (faultsIn_expansionAndUnits _ _ _ _).ofGas fun _ =>
  .bind (faultsIn_charge popped _).ofGas fun paid =>
  .bind (faultsIn_storePadded paid.memory _ _ _).ofGas fun _ => .ok _

theorem faultsIn_loadMemory : FaultsIn Fault.IsNameless s.loadMemory :=
  .bind (s.faultsIn_pop 1).ofUnpriced fun ⟨_, popped⟩ =>
  .bind (faultsIn_bounded _).ofGas fun _ =>
  .bind (faultsIn_touchedSize _ _).ofGas fun _ =>
  .bind (faultsIn_expandMemory popped _).ofGas fun expanded =>
  .bind (faultsIn_loadWord expanded.memory _).ofGas fun ⟨_, _⟩ => (faultsIn_push _ _).ofUnpriced

theorem faultsIn_storeMemory (encode : Word → Bytes) :
    FaultsIn Fault.IsNameless (s.storeMemory encode) :=
  .bind (s.faultsIn_pop 2).ofUnpriced fun ⟨_, popped⟩ =>
  .bind (faultsIn_bounded _).ofGas fun _ =>
  .bind (faultsIn_touchedSize _ _).ofGas fun _ =>
  .bind (faultsIn_expandMemory popped _).ofGas fun expanded =>
  .bind (faultsIn_store expanded.memory _ _).ofGas fun _ => .ok _

theorem faultsIn_storeSlot : FaultsIn Fault.IsNameless s.storeSlot :=
  .bind (s.faultsIn_pop 2).ofUnpriced fun ⟨_, popped⟩ =>
  .bind (faultsIn_charge popped _).ofGas fun _ => .ok _

theorem faultsIn_captureOutput : FaultsIn Fault.IsNameless s.captureOutput :=
  .bind (s.faultsIn_pop 2).ofUnpriced fun ⟨_, popped⟩ =>
  .bind (faultsIn_rangeOperands _ _).ofGas fun ⟨_, _⟩ =>
  .bind (faultsIn_touchedSize _ _).ofGas fun _ =>
  .bind (faultsIn_expandMemory popped _).ofGas fun expanded =>
  .bind (faultsIn_load expanded.memory _ _).ofGas fun ⟨_, _⟩ => .ok _

/-! ### Control -/

theorem faultsIn_jumpTo (target : Word) :
    FaultsIn Fault.IsUnpriced (s.jumpTo program target) := by
  unfold jumpTo
  split
  · exact .ok _
  · exact .error ⟨nofun, nofun, nofun⟩

theorem faultsIn_jumpIf : FaultsIn Fault.IsUnpriced (s.jumpIf program) := by
  refine .bind (s.faultsIn_pop 2) fun ⟨operands, popped⟩ => ?_
  dsimp only
  split
  · exact .ok _
  · exact popped.faultsIn_jumpTo program _

theorem faultsIn_pushImmediate (size : Nat) :
    FaultsIn Fault.IsUnpriced (s.pushImmediate program size) :=
  .bind (s.faultsIn_push _) fun _ => .ok _

theorem faultsIn_callSubroutine : FaultsIn Fault.IsUnpriced (s.callSubroutine program) := by
  refine .bind (s.faultsIn_pop 1) fun ⟨operands, popped⟩ => ?_
  dsimp only
  split
  · refine .bind ?_ fun _ => .ok _
    unfold ReturnStack.push
    split
    · exact .ok _
    · exact .error ⟨nofun, nofun, nofun⟩
  · exact .error ⟨nofun, nofun, nofun⟩

theorem faultsIn_returnToCaller : FaultsIn Fault.IsUnpriced s.returnToCaller := by
  refine .bind ?_ fun ⟨_, _⟩ => .ok _
  unfold ReturnStack.pop
  split
  · exact .error ⟨nofun, nofun, nofun⟩
  · exact .ok _

theorem faultsIn_dup (depth : Nat) : FaultsIn Fault.IsUnpriced (s.stack.dup depth) := by
  unfold Stack.dup
  split
  · exact faultsIn_pushStack s.stack _
  · exact .error ⟨nofun, nofun, nofun⟩

theorem faultsIn_swap (depth : Nat) : FaultsIn Fault.IsUnpriced (s.stack.swap depth) := by
  unfold Stack.swap
  split
  · exact .ok _
  · exact .error ⟨nofun, nofun, nofun⟩

end State

/-- Whether an instruction has a price of its own, besides its fee. -/
def Opcode.isPriced : Opcode → Bool
  | .exp | .keccak256 | .callDataCopy | .codeCopy | .mload | .mstore | .mstore8 | .sstore
  | .ret | .revert => true
  | _ => false

/-- **An instruction without a price of its own does not fail for want of gas.** -/
theorem faultsIn_execute_of_unpriced {op : Opcode} (h : op.isPriced = false) (hop : op ≠ .invalid)
    (ctx : Context) (s : State) : FaultsIn Fault.IsUnpriced (execute ctx op s) := by
  cases op with
  | exp | keccak256 | callDataCopy | codeCopy | mload | mstore | mstore8 | sstore | ret | revert =>
    cases h
  | invalid => exact absurd rfl hop
  | stop | jumpDest => exact .ok s
  | pop => exact s.faultsIn_drop 1
  | jump => exact .bind (s.faultsIn_pop 1) fun ⟨_, popped⟩ => popped.faultsIn_jumpTo ctx.program _
  | jumpi => exact s.faultsIn_jumpIf ctx.program
  | beginSub => exact .error ⟨nofun, nofun, nofun⟩
  | returnSub => exact s.faultsIn_returnToCaller
  | jumpSub => exact s.faultsIn_callSubroutine ctx.program
  | push n => exact s.faultsIn_pushImmediate ctx.program _
  | dup n => exact .bind (s.faultsIn_dup n) fun _ => .ok _
  | swap n => exact .bind (s.faultsIn_swap _) fun _ => .ok _
  | address | caller | callValue | callDataSize | codeSize | pc | msize | gas | push0 =>
    exact s.faultsIn_push _
  | callDataLoad => exact s.faultsIn_loadFrom _
  | isZero | not | sload =>
    simp only [execute]
    exact s.faultsIn_unary _
  | add | mul | sub | div | mod | lt | gt | eq | and | or | xor | byte | shl | shr =>
    simp only [execute]
    exact s.faultsIn_binary _

/-- **Only the instruction that is defined to fail names a byte.** -/
theorem faultsIn_execute_of_ne_invalid {op : Opcode} (hop : op ≠ .invalid) (ctx : Context)
    (s : State) : FaultsIn Fault.IsNameless (execute ctx op s) := by
  cases hpriced : op.isPriced with
  | false => exact (faultsIn_execute_of_unpriced hpriced hop ctx s).ofUnpriced
  | true =>
    cases op with
    | exp => exact s.faultsIn_power
    | keccak256 => exact s.faultsIn_hashMemory
    | callDataCopy | codeCopy => exact s.faultsIn_copyFrom _
    | mload => exact s.faultsIn_loadMemory
    | mstore | mstore8 => exact s.faultsIn_storeMemory _
    | sstore => exact s.faultsIn_storeSlot
    | ret | revert => exact s.faultsIn_captureOutput
    | _ => cases hpriced

/-- **No instruction reports a machine out of step.** -/
theorem faultsIn_execute (ctx : Context) (op : Opcode) (s : State) :
    FaultsIn Fault.IsInstructionFault (execute ctx op s) := by
  by_cases hop : op = .invalid
  · subst hop
    exact .error fun _ => nofun
  · exact (faultsIn_execute_of_ne_invalid hop ctx s).mono fun _ hcause => hcause.2

end Retrace
