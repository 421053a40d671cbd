import Mathlib.Data.Nat.Digits.Lemmas
import Retrace.Machine.Execute
import Retrace.Proofs.Decoding
import Retrace.Proofs.Machine.Growth
/-!
# Retrace — what an instruction changes where it succeeds

Instructions are written as computations that may fault at many places. This
file says once what one that succeeded has done: `Effect` has a case for each
way of touching the state, with the fields that may differ and how far they
do, and `effect_of_execute` says that there is no other. What a run preserves
is read off it by cases. The accounts of gas and memory are kept per
instruction: `touched` is the range of memory it reaches, `handling` what it
charges besides its base fee and the growth of memory. The bytes of an exponent
are counted there as digits in base 256.
-/

namespace Retrace

/-! ## What an instruction reaches and charges -/

/-- The operand at `index`, the top being at zero; zero where there is none. -/
def State.operand (s : State) (index : Nat) : Word := (s.stack.peek index).getD 0

/-- The bytes of a word are its digits in base 256. -/
theorem Word.byteLength_eq (w : Word) : byteLength w = (Nat.digits 256 w.toNat).length := by
  refine eq_of_forall_ge_iff fun count => ?_
  have hbase : 256 ^ count = 2 ^ (8 * count) := (Nat.pow_mul 2 8 count).symm
  rw [byteLength_le_iff, Nat.digits_length_le_iff (by decide), hbase, Nat.shiftRight_eq_div_pow,
    Nat.div_eq_zero_iff_lt (Nat.two_pow_pos _)]

namespace Opcode

/-- The range of memory that an instruction reaches: its offset and its size. -/
def touched (op : Opcode) (s : State) : Nat × Nat :=
  match op with
  | .keccak256 | .ret | .revert => ((s.operand 0).toNat, (s.operand 1).toNat)
  | .callDataCopy | .codeCopy => ((s.operand 0).toNat, (s.operand 2).toNat)
  | .mload | .mstore => ((s.operand 0).toNat, 32)
  | .mstore8 => ((s.operand 0).toNat, 1)
  | _ => (0, 0)

/-- What an instruction charges besides its base fee and the growth of memory: by the bytes of an
exponent, by the units hashed or copied, or by the slot that is written. -/
def handling (op : Opcode) (s : State) : Nat :=
  match op with
  | .exp => 50 * (Nat.digits 256 (s.operand 1).toNat).length
  | .keccak256 => 6 * units (s.operand 1).toNat
  | .callDataCopy | .codeCopy => 3 * units (s.operand 2).toNat
  | .sstore => if s.storage.get (s.operand 0) = 0 ∧ s.operand 1 ≠ 0 then 20000 else 5000
  | _ => 0

/-- The handling of a power is the price computed for it. -/
theorem handling_exp (s : State) : exp.handling s = Gas.power (s.operand 1) := by
  rw [Gas.power, Word.byteLength_eq]
  rfl

/-- Whether an instruction touches nothing but the operand stack. -/
def isQuiet : Opcode → Bool
  | .exp | .keccak256 | .callDataCopy | .codeCopy | .mload | .mstore | .mstore8 | .sstore
  | .jump | .jumpi | .returnSub | .jumpSub | .push _ | .ret | .revert => false
  | _ => true

/-- Whether an instruction pays by what it does, and otherwise touches only stack and memory. -/
def isMetered : Opcode → Bool
  | .exp | .keccak256 | .callDataCopy | .codeCopy | .mload | .mstore | .mstore8 => true
  | _ => false

end Opcode

/-- **The account of an instruction.** Memory has grown to hold the range that was reached, and
the gas that is gone is the handling with the difference of the two memories' prices. -/
structure Account (op : Opcode) (s next : State) : Prop where
  size_memory : next.memory.size =
    max s.memory.size (touchedEnd (op.touched s).1 (op.touched s).2)
  gas : next.gas + op.handling s + Gas.idealPrice (units next.memory.size) =
    s.gas + Gas.idealPrice (units s.memory.size)

/-- What an instruction may make of a state where it succeeds. -/
inductive Effect (program : Program) (op : Opcode) (s : State) : State → Prop
  /-- Only the stack is another. -/
  | quiet (kind : op.isQuiet = true) (stack : Stack) : Effect program op s { s with stack }
  /-- Stack and memory are others, and that has been paid for. -/
  | metered (kind : op.isMetered = true) (stack : Stack) (memory : Memory) (gas : Nat)
      (account : Account op s { s with stack, memory, gas }) :
      Effect program op s { s with stack, memory, gas }
  /-- A slot of storage has been written. -/
  | stored (kind : op = .sstore) (stack : Stack) (storage : Storage) (gas : Nat)
      (account : Account op s { s with stack, storage, gas }) :
      Effect program op s { s with stack, storage, gas }
  /-- A range of memory has been handed back. -/
  | captured (kind : op = .ret ∨ op = .revert) (stack : Stack) (memory : Memory) (gas : Nat)
      (output : Bytes) (account : Account op s { s with stack, memory, gas, output }) :
      Effect program op s { s with stack, memory, gas, output }
  /-- An immediate has been pushed and passed. -/
  | pushed (n : Fin 32) (kind : op = .push n) (stack : Stack) :
      Effect program op s { s with stack, pc := min (s.pc + (n.val + 1)) program.size }
  /-- A jump has landed. -/
  | jumped (kind : op = .jump ∨ op = .jumpi) (stack : Stack) (pc : Nat)
      (target : program.isMarked Opcode.jumpDestByte pc = true) :
      Effect program op s { s with stack, pc }
  /-- A jump has not been taken. -/
  | passed (kind : op = .jumpi) (stack : Stack) : Effect program op s { s with stack }
  /-- A subroutine has been called. -/
  | called (kind : op = .jumpSub) (stack : Stack) (returns : ReturnStack) (entry : Nat)
      (target : program.isMarked Opcode.beginSubByte entry = true)
      (resume : returns.offsets = s.pc :: s.returns.offsets) :
      Effect program op s { s with stack, returns, pc := entry + 1 }
  /-- A subroutine has returned. -/
  | returned (kind : op = .returnSub) (returns : ReturnStack) (pc : Nat)
      (resume : s.returns.offsets = pc :: returns.offsets) :
      Effect program op s { s with returns, pc }

/-! ## The stack and the purse -/

namespace State

variable {s next : State}

theorem pop_ok {n : Nat} {operands : Vector Word n} (h : s.pop n = .ok (operands, next)) :
    (∀ i (hi : i < n), operands[i] = s.operand i) ∧ ∃ stack, next = { s with stack } := by
  obtain ⟨⟨taken, rest⟩, htaken, h⟩ := bind_ok h
  cases h
  obtain ⟨-, hoperands, -⟩ := Stack.pop_ok htaken
  refine ⟨fun i hi => ?_, rest, rfl⟩
  have hword : operands.toList[i]? = some operands[i] := by
    rw [Vector.getElem?_toList, Vector.getElem?_eq_getElem hi]
  rw [hoperands, List.getElem?_take_of_lt hi] at hword
  rw [operand, Stack.peek, hword, Option.getD_some]

/-- What has been popped is gone, and the rest is as it was. -/
theorem pop_words {n : Nat} {operands : Vector Word n} (h : s.pop n = .ok (operands, next)) :
    next.stack.words = s.stack.words.drop n := by
  obtain ⟨⟨taken, rest⟩, htaken, h⟩ := bind_ok h
  cases h
  exact (Stack.pop_ok htaken).2.2

/-- What has been popped was there. -/
theorem pop_height {n : Nat} {popped : Vector Word n × State} (h : s.pop n = .ok popped) :
    n ≤ s.stack.words.length := by
  obtain ⟨⟨taken, rest⟩, htaken, -⟩ := bind_ok h
  exact (Stack.pop_ok htaken).1

/-- **Words that are there can be popped.** -/
theorem exists_pop {n : Nat} (h : n ≤ s.stack.height) : ∃ operands stack,
    s.pop n = .ok (operands, { s with stack }) ∧
      (∀ i (hi : i < n), operands[i] = s.operand i) ∧ stack.words = s.stack.words.drop n := by
  have hpop : ∃ popped, s.pop n = .ok popped := by
    obtain ⟨popped, next, htaken, -⟩ := Stack.pop_of_le h
    rw [pop, htaken]
    exact ⟨_, rfl⟩
  obtain ⟨⟨operands, popped⟩, hpop⟩ := hpop
  have hwords := pop_words hpop
  obtain ⟨hoperands, stack, rfl⟩ := pop_ok hpop
  exact ⟨operands, stack, hpop, hoperands, hwords⟩

/-- What they leave has lost as much height. -/
theorem height_of_popped {stack : Stack} {n : Nat} (h : n ≤ s.stack.height)
    (hwords : stack.words = s.stack.words.drop n) : stack.height + n = s.stack.height := by
  unfold Stack.height at h ⊢
  rw [hwords, List.length_drop]
  omega

/-- Where there are too few of them, none is. -/
theorem pop_of_lt {n : Nat} (h : s.stack.height < n) : s.pop n = .error .stackUnderflow := by
  rw [pop, Stack.pop_of_lt h]
  rfl

theorem drop_ok {n : Nat} (h : (s.pop n).map (·.2) = .ok next) :
    ∃ stack, next = { s with stack } := by
  cases hpop : s.pop n with
  | error cause => rw [hpop] at h; cases h
  | ok popped =>
    rw [hpop] at h
    cases h
    exact (pop_ok hpop).2

theorem push_ok {w : Word} (h : s.push w = .ok next) : ∃ stack, next = { s with stack } := by
  obtain ⟨stack, -, h⟩ := bind_ok h
  cases h
  exact ⟨stack, rfl⟩

theorem push_words {w : Word} (h : s.push w = .ok next) :
    next.stack.words = w :: s.stack.words := by
  obtain ⟨stack, hstack, h⟩ := bind_ok h
  cases h
  exact (Stack.push_ok hstack).2

theorem charge_of_le {price : Nat} (h : price ≤ s.gas) :
    s.charge price = .ok { s with gas := s.gas - price } := if_pos h

theorem charge_ok {price : Nat} (h : s.charge price = .ok next) :
    price ≤ s.gas ∧ next = { s with gas := s.gas - price } := by
  unfold charge at h
  split at h
  · rename_i hle
    cases h
    exact ⟨hle, rfl⟩
  · cases h

/-- **Paying for memory.** Gas and the price of memory exchange for one another. -/
theorem expandMemory_ok {offset size : Nat} (h : s.expandMemory (touchedEnd offset size) = .ok next) :
    ∃ memory gas, next = { s with memory, gas } ∧
      memory.size = max s.memory.size (touchedEnd offset size) ∧
      gas + Gas.idealPrice (units memory.size) = s.gas + Gas.idealPrice (units s.memory.size) := by
  obtain ⟨price, hprice, h⟩ := bind_ok h
  obtain ⟨paid, hpaid, h⟩ := bind_ok h
  obtain ⟨memory, hmemory, h⟩ := bind_ok h
  obtain ⟨hle, rfl⟩ := charge_ok hpaid
  cases h
  have hsize := Memory.resize_ok hmemory
  rw [unitSize_mul_units_touchedEnd] at hsize
  -- the price is known as a difference: it is paid from the gas and added to the memory
  have hsum := Gas.expansion_ok hprice
  refine ⟨memory, s.gas - price, rfl, hsize, ?_⟩
  rw [hsize, ← hsum]
  omega

end State

/-- The operands of a range name it: a range of no bytes may stand anywhere. -/
theorem range_of_operands {a b : Word} {offset size : Nat}
    (h : rangeOperands a b = .ok (offset, size)) :
    size = b.toNat ∧ (size ≠ 0 → offset = a.toNat) := by
  unfold rangeOperands at h
  split at h
  · rename_i hz
    cases h
    subst hz
    exact ⟨rfl, fun hne => absurd rfl hne⟩
  · obtain ⟨n, hn, h⟩ := bind_ok h
    obtain ⟨k, hk, h⟩ := bind_ok h
    cases h
    exact ⟨bounded_ok hn, fun _ => bounded_ok hk⟩

/-- So they say what it touches. -/
theorem rangeOperands_ok {a b : Word} {offset size : Nat}
    (h : rangeOperands a b = .ok (offset, size)) :
    size = b.toNat ∧ touchedEnd offset size = touchedEnd a.toNat b.toNat := by
  obtain ⟨hsize, hoffset⟩ := range_of_operands h
  refine ⟨hsize, ?_⟩
  rw [← hsize]
  by_cases hz : size = 0
  · rw [hz, touchedEnd_zero, touchedEnd_zero]
  · rw [hoffset hz]

/-- Handling a range and growing to hold it, as one price. -/
theorem metered_range {a b : Word} {m grown : Memory} {offset size needed rate price : Nat}
    (hrange : rangeOperands a b = .ok (offset, size))
    (hneeded : touchedSize offset size = .ok needed)
    (hprice : Gas.expansionAndUnits rate needed m.size size = .ok price)
    (hgrown : grown.size = max m.size (touchedEnd offset size)) :
    grown.size = max m.size (touchedEnd a.toNat b.toNat) ∧
      price + Gas.idealPrice (units m.size) =
        Gas.idealPrice (units grown.size) + rate * units b.toNat := by
  obtain ⟨hsize, hend⟩ := rangeOperands_ok hrange
  have hsum := Gas.expansionAndUnits_ok hprice
  rw [touchedSize_ok hneeded, ← hgrown, hsize] at hsum
  exact ⟨hend ▸ hgrown, hsum⟩

/-- An access to a range that memory has grown to hold changes no size. -/
theorem size_of_held {m held grown : Memory} {n : Nat} (hheld : held.size = max m.size n)
    (hgrown : grown.size = max held.size n) : grown.size = held.size := by
  rw [hgrown, hheld, Nat.max_assoc, Nat.max_self]

/-! ## One handler after the other -/

namespace State

variable {s next : State} {program : Program}

/-- Replacing the topmost words by a function of them. -/
theorem replace_ok {n : Nat} {f : Vector Word n → Word}
    (h : (do let (operands, s) ← s.pop n; s.push (f operands)) = .ok next) :
    ∃ stack, next = { s with stack } := by
  obtain ⟨⟨operands, popped⟩, hpop, h⟩ := bind_ok h
  obtain ⟨-, _, rfl⟩ := pop_ok hpop
  obtain ⟨stack, rfl⟩ := push_ok h
  exact ⟨stack, rfl⟩

theorem unary_ok {f : Word → Word} (h : s.unary f = .ok next) :
    ∃ stack, next = { s with stack } :=
  replace_ok (f := fun operands : Vector Word 1 => f operands[0]) h

theorem binary_ok {f : Word → Word → Word} (h : s.binary f = .ok next) :
    ∃ stack, next = { s with stack } :=
  replace_ok (f := fun operands : Vector Word 2 => f operands[0] operands[1]) h

theorem loadFrom_ok {source : Bytes} (h : s.loadFrom source = .ok next) :
    ∃ stack, next = { s with stack } :=
  replace_ok (f := fun operands : Vector Word 1 =>
    Word.ofBytes (Bytes.window source operands[0].toNat 32)) h

theorem effect_power (h : s.power = .ok next) : Effect program .exp s next := by
  rw [power_eq] at h
  obtain ⟨⟨operands, popped⟩, hpop, h⟩ := bind_ok h
  obtain ⟨paid, hpaid, h⟩ := bind_ok h
  obtain ⟨hoperands, _, rfl⟩ := pop_ok hpop
  obtain ⟨hle, rfl⟩ := charge_ok hpaid
  obtain ⟨stack, rfl⟩ := push_ok h
  rw [hoperands 1 (by omega), ← Opcode.handling_exp] at hle ⊢
  refine .metered rfl stack s.memory _ ⟨(Nat.max_zero _).symm, ?_⟩
  show s.gas - Opcode.exp.handling s + Opcode.exp.handling s + _ = _
  rw [Nat.sub_add_cancel hle]

theorem effect_hashMemory (h : s.hashMemory = .ok next) : Effect program .keccak256 s next := by
  obtain ⟨⟨operands, popped⟩, hpop, h⟩ := bind_ok h
  obtain ⟨⟨offset, size⟩, hrange, h⟩ := bind_ok h
  obtain ⟨needed, hneeded, h⟩ := bind_ok h
  obtain ⟨price, hprice, h⟩ := bind_ok h
  obtain ⟨paid, hpaid, h⟩ := bind_ok h
  obtain ⟨⟨data, memory⟩, hload, h⟩ := bind_ok h
  obtain ⟨hoperands, _, rfl⟩ := pop_ok hpop
  obtain ⟨hle, rfl⟩ := charge_ok hpaid
  obtain ⟨stack, rfl⟩ := push_ok h
  -- nothing has been expanded here: it is the load that grows what has been paid for
  obtain ⟨hgrown, hsum⟩ := metered_range hrange hneeded hprice (Memory.load_ok hload)
  rw [hoperands 0 (by omega), hoperands 1 (by omega)] at hgrown
  rw [hoperands 1 (by omega)] at hsum
  refine .metered rfl stack memory _ ⟨hgrown, ?_⟩
  simp only [Opcode.handling] at hsum hle ⊢
  omega

theorem effect_copyFrom {op : Opcode} {source : Bytes} (kind : op = .callDataCopy ∨ op = .codeCopy)
    (h : s.copyFrom source = .ok next) : Effect program op s next := by
  obtain ⟨⟨operands, popped⟩, hpop, h⟩ := bind_ok h
  obtain ⟨⟨offset, size⟩, hrange, h⟩ := bind_ok h
  obtain ⟨needed, hneeded, h⟩ := bind_ok h
  obtain ⟨price, hprice, h⟩ := bind_ok h
  obtain ⟨paid, hpaid, h⟩ := bind_ok h
  obtain ⟨memory, hstore, h⟩ := bind_ok h
  obtain ⟨hoperands, stack, rfl⟩ := pop_ok hpop
  obtain ⟨hle, rfl⟩ := charge_ok hpaid
  cases h
  obtain ⟨hgrown, hsum⟩ := metered_range hrange hneeded hprice (Memory.storePadded_ok hstore)
  rw [hoperands 0 (by omega), hoperands 2 (by omega)] at hgrown
  rw [hoperands 2 (by omega)] at hsum
  have hgas : s.gas - price + 3 * units (s.operand 2).toNat + Gas.idealPrice (units memory.size) =
      s.gas + Gas.idealPrice (units s.memory.size) := by
    simp only at hsum hle
    omega
  rcases kind with rfl | rfl
  · exact .metered rfl stack memory _ ⟨hgrown, hgas⟩
  · exact .metered rfl stack memory _ ⟨hgrown, hgas⟩

theorem effect_loadMemory (h : s.loadMemory = .ok next) : Effect program .mload s next := by
  obtain ⟨⟨operands, popped⟩, hpop, h⟩ := bind_ok h
  obtain ⟨offset, hoffset, h⟩ := bind_ok h
  obtain ⟨needed, hneeded, h⟩ := bind_ok h
  obtain ⟨expanded, hexpanded, h⟩ := bind_ok h
  obtain ⟨⟨w, memory⟩, hload, h⟩ := bind_ok h
  obtain ⟨hoperands, _, rfl⟩ := pop_ok hpop
  rw [touchedSize_ok hneeded] at hexpanded
  obtain ⟨held, gas, rfl, hheld, hgas⟩ := expandMemory_ok hexpanded
  obtain ⟨stack, rfl⟩ := push_ok h
  -- the load grows memory by itself, but it finds the range held already
  have hsame := size_of_held hheld (Memory.loadWord_ok hload)
  rw [bounded_ok hoffset, hoperands 0 (by omega)] at hheld
  exact .metered rfl stack memory gas ⟨hsame ▸ hheld, hsame ▸ hgas⟩

/-- A store touches as many bytes as its encoding of a word has. -/
theorem effect_storeMemory {op : Opcode} {encode : Word → Bytes} {size : Nat}
    (kind : op.isMetered = true) (htouched : op.touched s = ((s.operand 0).toNat, size))
    (hhandling : op.handling s = 0) (hencode : ∀ w, (encode w).size = size)
    (h : s.storeMemory encode = .ok next) : Effect program op s next := by
  obtain ⟨⟨operands, popped⟩, hpop, h⟩ := bind_ok h
  obtain ⟨offset, hoffset, h⟩ := bind_ok h
  obtain ⟨needed, hneeded, h⟩ := bind_ok h
  obtain ⟨expanded, hexpanded, h⟩ := bind_ok h
  obtain ⟨memory, hstore, h⟩ := bind_ok h
  obtain ⟨hoperands, stack, rfl⟩ := pop_ok hpop
  rw [touchedSize_ok hneeded] at hexpanded
  obtain ⟨held, gas, rfl, hheld, hgas⟩ := expandMemory_ok hexpanded
  cases h
  have hsame := size_of_held hheld (Memory.store_ok hstore)
  rw [bounded_ok hoffset, hoperands 0 (by omega), hencode] at hheld
  refine .metered kind stack memory gas ⟨?_, ?_⟩
  · rw [htouched, hsame]
    exact hheld
  · rw [hhandling, Nat.add_zero, hsame]
    exact hgas

theorem effect_storeSlot (h : s.storeSlot = .ok next) : Effect program .sstore s next := by
  obtain ⟨⟨operands, popped⟩, hpop, h⟩ := bind_ok h
  obtain ⟨paid, hpaid, h⟩ := bind_ok h
  obtain ⟨hoperands, stack, rfl⟩ := pop_ok hpop
  obtain ⟨hle, rfl⟩ := charge_ok hpaid
  cases h
  rw [hoperands 0 (by omega), hoperands 1 (by omega)] at hle ⊢
  refine .stored rfl stack _ _ ⟨(Nat.max_zero _).symm, ?_⟩
  simp only [Opcode.handling, Gas.storing] at hle ⊢
  omega

theorem effect_captureOutput {op : Opcode} (kind : op = .ret ∨ op = .revert)
    (h : s.captureOutput = .ok next) : Effect program op s next := by
  obtain ⟨⟨operands, popped⟩, hpop, h⟩ := bind_ok h
  obtain ⟨⟨offset, size⟩, hrange, h⟩ := bind_ok h
  obtain ⟨needed, hneeded, h⟩ := bind_ok h
  obtain ⟨expanded, hexpanded, h⟩ := bind_ok h
  obtain ⟨⟨output, memory⟩, hload, h⟩ := bind_ok h
  obtain ⟨hoperands, stack, rfl⟩ := pop_ok hpop
  rw [touchedSize_ok hneeded] at hexpanded
  obtain ⟨held, gas, rfl, hheld, hgas⟩ := expandMemory_ok hexpanded
  cases h
  have hsame := size_of_held hheld (Memory.load_ok hload)
  rw [(rangeOperands_ok hrange).2, hoperands 0 (by omega), hoperands 1 (by omega)] at hheld
  rcases kind with rfl | rfl
  · exact .captured (.inl rfl) stack memory gas output ⟨hsame ▸ hheld, hsame ▸ hgas⟩
  · exact .captured (.inr rfl) stack memory gas output ⟨hsame ▸ hheld, hsame ▸ hgas⟩

/-! ### Control -/

theorem jumpTo_ok {w : Word} (h : s.jumpTo program w = .ok next) :
    ∃ pc, program.isMarked Opcode.jumpDestByte pc = true ∧ next = { s with pc } := by
  unfold jumpTo at h
  split at h
  · rename_i pc htarget
    cases h
    rw [Program.jumpTarget?_eq] at htarget
    exact ⟨pc, Program.isMarked_of_target? htarget, rfl⟩
  · cases h

theorem effect_jump {ctx : Context} (h : execute ctx .jump s = .ok next) :
    Effect ctx.program .jump s next := by
  obtain ⟨⟨operands, popped⟩, hpop, h⟩ := bind_ok h
  obtain ⟨-, stack, rfl⟩ := pop_ok hpop
  obtain ⟨pc, htarget, rfl⟩ := jumpTo_ok h
  exact .jumped (.inl rfl) stack pc htarget

theorem effect_jumpIf (h : s.jumpIf program = .ok next) : Effect program .jumpi s next := by
  obtain ⟨⟨operands, popped⟩, hpop, h⟩ := bind_ok h
  obtain ⟨-, stack, rfl⟩ := pop_ok hpop
  dsimp only at h
  -- a target that is not taken is not looked at
  split at h
  · cases h
    exact .passed rfl stack
  · obtain ⟨pc, htarget, rfl⟩ := jumpTo_ok h
    exact .jumped (.inr rfl) stack pc htarget

theorem effect_pushImmediate {n : Fin 32} (h : s.pushImmediate program (n.val + 1) = .ok next) :
    Effect program (.push n) s next := by
  obtain ⟨pushed, hpushed, h⟩ := bind_ok h
  obtain ⟨stack, rfl⟩ := push_ok hpushed
  cases h
  exact .pushed n rfl stack

theorem effect_callSubroutine (h : s.callSubroutine program = .ok next) :
    Effect program .jumpSub s next := by
  obtain ⟨⟨operands, popped⟩, hpop, h⟩ := bind_ok h
  obtain ⟨-, stack, rfl⟩ := pop_ok hpop
  dsimp only at h
  split at h
  · rename_i entry htarget
    obtain ⟨returns, hreturns, h⟩ := bind_ok h
    cases h
    rw [Program.subroutineTarget?_eq] at htarget
    unfold ReturnStack.push at hreturns
    split at hreturns
    · cases hreturns
      exact .called rfl stack _ entry (Program.isMarked_of_target? htarget) rfl
    · cases hreturns
  · cases h

theorem effect_returnToCaller (h : s.returnToCaller = .ok next) :
    Effect program .returnSub s next := by
  obtain ⟨⟨pc, returns⟩, hpop, h⟩ := bind_ok h
  cases h
  refine .returned rfl returns pc ?_
  unfold ReturnStack.pop at hpop
  split at hpop
  · cases hpop
  · rename_i offset rest hdepth heq
    cases hpop
    rw [heq]

end State

/-! ## All instructions -/

/-- **There is no other way to succeed.** -/
theorem effect_of_execute {ctx : Context} {op : Opcode} {s next : State}
    (h : execute ctx op s = .ok next) : Effect ctx.program op s next := by
  cases op with
  | exp => exact State.effect_power h
  | keccak256 => exact State.effect_hashMemory h
  | callDataCopy => exact State.effect_copyFrom (.inl rfl) h
  | codeCopy => exact State.effect_copyFrom (.inr rfl) h
  | mload => exact State.effect_loadMemory h
  | mstore => exact State.effect_storeMemory rfl rfl rfl Word.size_toBytes h
  | mstore8 => exact State.effect_storeMemory rfl rfl rfl (fun w => Bytes.size_ofNat 1 w.toNat) h
  | sstore => exact State.effect_storeSlot h
  | ret => exact State.effect_captureOutput (.inl rfl) h
  | revert => exact State.effect_captureOutput (.inr rfl) h
  | jump => exact State.effect_jump h
  | jumpi => exact State.effect_jumpIf h
  | push n => exact State.effect_pushImmediate h
  | jumpSub => exact State.effect_callSubroutine h
  | returnSub => exact State.effect_returnToCaller h
  | stop => cases h; exact .quiet rfl s.stack
  | jumpDest => cases h; exact .quiet rfl s.stack
  | beginSub => cases h
  | invalid => cases h
  | pop => obtain ⟨stack, rfl⟩ := State.drop_ok h; exact .quiet rfl stack
  | dup n =>
    obtain ⟨stack, -, h⟩ := bind_ok h
    cases h
    exact .quiet rfl stack
  | swap n =>
    obtain ⟨stack, -, h⟩ := bind_ok h
    cases h
    exact .quiet rfl stack
  | callDataLoad => obtain ⟨stack, rfl⟩ := State.loadFrom_ok h; exact .quiet rfl stack
  | isZero | not | sload =>
    simp only [execute] at h
    obtain ⟨stack, rfl⟩ := State.unary_ok h
    exact .quiet rfl stack
  | address | caller | callValue | callDataSize | codeSize | pc | msize | gas | push0 =>
    obtain ⟨stack, rfl⟩ := State.push_ok h
    exact .quiet rfl stack
  | add | mul | sub | div | mod | lt | gt | eq | and | or | xor | byte | shl | shr =>
    simp only [execute] at h
    obtain ⟨stack, rfl⟩ := State.binary_ok h
    exact .quiet rfl stack

/-! ## What every effect has in common -/

namespace Opcode

/-- A quiet instruction reaches no memory and charges nothing but its fee. -/
theorem touched_of_isQuiet {op : Opcode} (h : op.isQuiet = true) (s : State) :
    op.touched s = (0, 0) ∧ op.handling s = 0 := by
  cases op <;> first | exact ⟨rfl, rfl⟩ | cases h

end Opcode

/-- Where no memory is reached and nothing is charged, the account is that nothing changed. -/
theorem Account.of_untouched {op : Opcode} {s next : State}
    (h : op.touched s = (0, 0) ∧ op.handling s = 0) (hmemory : next.memory = s.memory)
    (hgas : next.gas = s.gas) : Account op s next where
  size_memory := by rw [hmemory, h.1, touchedEnd_zero, Nat.max_zero]
  gas := by rw [hmemory, hgas, h.2, Nat.add_zero]

namespace Account

variable {op : Opcode} {s next : State}

/-- Memory never shrinks. -/
theorem units_le (h : Account op s next) : units s.memory.size ≤ units next.memory.size := by
  rw [h.size_memory]
  exact units_mono (Nat.le_max_left _ _)

/-- Gas is only spent. -/
theorem gas_le (h : Account op s next) : next.gas ≤ s.gas := by
  have hprice := Gas.idealPrice_mono h.units_le
  have hgas := h.gas
  omega

end Account

namespace Effect

variable {program : Program} {op : Opcode} {s next : State}

/-- **Every success keeps its account.** -/
theorem account (h : Effect program op s next) : Account op s next := by
  cases h with
  | metered _ _ _ _ account => exact account
  | stored _ _ _ _ account => exact account
  | captured _ _ _ _ _ account => exact account
  | quiet kind => exact .of_untouched (Opcode.touched_of_isQuiet kind s) rfl rfl
  | pushed n kind => subst kind; exact .of_untouched ⟨rfl, rfl⟩ rfl rfl
  | jumped kind =>
    rcases kind with rfl | rfl
    · exact .of_untouched ⟨rfl, rfl⟩ rfl rfl
    · exact .of_untouched ⟨rfl, rfl⟩ rfl rfl
  | passed kind => subst kind; exact .of_untouched ⟨rfl, rfl⟩ rfl rfl
  | called kind => subst kind; exact .of_untouched ⟨rfl, rfl⟩ rfl rfl
  | returned kind => subst kind; exact .of_untouched ⟨rfl, rfl⟩ rfl rfl

/-- No instruction halts the machine by itself. -/
theorem halted_eq (h : Effect program op s next) : next.halted = s.halted := by
  cases h <;> rfl

/-- Only a return and a revert write the output. -/
theorem output_eq (h : Effect program op s next) (hret : op ≠ .ret) (hrevert : op ≠ .revert) :
    next.output = s.output := by
  cases h with
  | captured kind =>
    rcases kind with rfl | rfl
    · exact absurd rfl hret
    · exact absurd rfl hrevert
  | quiet | metered | stored | pushed | jumped | passed | called | returned => rfl

end Effect

end Retrace
