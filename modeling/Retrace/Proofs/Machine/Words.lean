import Retrace.Proofs.Machine.Discipline
/-!
# Retrace — what the word instructions compute

Seventeen instructions replace one or two words by a function of them. They are
carried out with the operations of 256-bit words, a power by repeated squaring, a
byte and a shift by moving bits; what they mean is a matter of natural numbers
and is said in these terms (`Opcode.Computes`). The operand on top is the
minuend, the dividend, the base, the left side of a comparison, the index of a
byte and the amount of a shift. An index or an amount may be any word: past the
width nothing is left.
-/

namespace Retrace

/-! ## The operations of words -/

namespace Word

theorem toNat_ofBool (p : Prop) [Decidable p] :
    (ofBool (decide p)).toNat = if p then 1 else 0 := by
  unfold ofBool
  by_cases h : p
  · simp only [h, decide_true, if_true]
    rfl
  · simp only [h, decide_false, if_false]
    rfl

/-- A difference wraps. -/
theorem toNat_difference (a b : Word) :
    ((a - b).toNat : Int) = ((a.toNat : Int) - b.toNat) % (2 ^ 256 : Nat) := by
  have ha := a.isLt
  have hb := b.isLt
  rw [BitVec.toNat_sub]
  omega

theorem toNat_quotient (a b : Word) :
    (a / b).toNat = if b.toNat = 0 then 0 else a.toNat / b.toNat := by
  rw [BitVec.toNat_udiv]
  split
  · rename_i hb
    rw [hb, Nat.div_zero]
  · rfl

theorem toNat_rem (a b : Word) :
    (rem a b).toNat = if b.toNat = 0 then 0 else a.toNat % b.toNat := by
  have hzero : b = 0 ↔ b.toNat = 0 := BitVec.toNat_inj.symm
  unfold rem
  by_cases hb : b = 0
  · rw [if_pos hb, if_pos (hzero.1 hb)]
    rfl
  · rw [if_neg hb, if_neg (hb ∘ hzero.2), BitVec.toNat_umod]

/-- **Repeated squaring is a power**, of an exponent that has no more bits than there are rounds. -/
theorem toNat_powBits {bits exponent : Nat} (base : Word) (h : exponent < 2 ^ bits) :
    (powBits bits base exponent).toNat = base.toNat ^ exponent % 2 ^ 256 := by
  induction bits generalizing base exponent with
  | zero =>
    obtain rfl : exponent = 0 := Nat.lt_one_iff.1 h
    rfl
  | succ bits ih =>
    unfold powBits
    split
    · rename_i hzero
      rw [hzero]
      rfl
    · have hrest : (powBits bits (base * base) (exponent / 2)).toNat =
          base.toNat ^ (2 * (exponent / 2)) % 2 ^ 256 := by
        rw [ih (base * base) (by omega), BitVec.toNat_mul, ← Nat.pow_mod, ← Nat.pow_two,
          ← Nat.pow_mul]
      dsimp only
      -- the lowest bit of the exponent says whether the base itself is a factor
      split
      · rename_i hodd
        rw [BitVec.toNat_mul, hrest, Nat.mul_mod_mod, Nat.mul_comm, ← Nat.pow_succ]
        congr 2
        omega
      · rw [hrest]
        congr 2
        omega

theorem toNat_pow (a b : Word) : (pow a b).toNat = a.toNat ^ b.toNat % 2 ^ 256 :=
  toNat_powBits a b.isLt

/-- Bytes count from the most significant one. -/
theorem toNat_byte (a b : Word) :
    (byte a b).toNat = if a.toNat < 32 then b.toNat / 256 ^ (31 - a.toNat) % 256 else 0 := by
  unfold byte
  split
  · have hmask : (0xff : Word).toNat = 2 ^ 8 - 1 := rfl
    rw [BitVec.toNat_and, hmask, Nat.and_two_pow_sub_one_eq_mod, BitVec.toNat_ushiftRight,
      Nat.shiftRight_eq_div_pow, Nat.pow_mul]
  · rfl

theorem toNat_shiftLeft (a b : Word) :
    (shiftLeft a b).toNat = b.toNat * 2 ^ a.toNat % 2 ^ 256 := by
  unfold shiftLeft
  split
  · rw [BitVec.toNat_shiftLeft, Nat.shiftLeft_eq]
  · rename_i hfar
    -- all bits have been moved out
    have hdvd : 2 ^ 256 ∣ b.toNat * 2 ^ a.toNat :=
      Nat.dvd_mul_left_of_dvd (Nat.pow_dvd_pow 2 (Nat.le_of_not_lt hfar)) _
    rw [Nat.mod_eq_zero_of_dvd hdvd]
    rfl

theorem toNat_shiftRight (a b : Word) :
    (shiftRight a b).toNat = b.toNat / 2 ^ a.toNat := by
  unfold shiftRight
  split
  · rw [BitVec.toNat_ushiftRight, Nat.shiftRight_eq_div_pow]
  · rename_i hfar
    have hlt : b.toNat < 2 ^ a.toNat :=
      Nat.lt_of_lt_of_le b.isLt (Nat.pow_le_pow_right (by decide) (Nat.le_of_not_lt hfar))
    rw [Nat.div_eq_of_lt hlt]
    rfl

end Word

/-! ## The functions -/

namespace Opcode

/-- The instructions that replace words by a function of them. -/
def isWordFunction : Opcode → Bool
  | .add | .mul | .sub | .div | .mod | .exp | .lt | .gt | .eq | .isZero | .and | .or | .xor | .not
  | .byte | .shl | .shr => true
  | _ => false

/-- The value that an instruction computes from the number `a` on top and the number `b` below. -/
def Computes (op : Opcode) (a b : Nat) (value : Word) : Prop :=
  match op with
  | .add => value.toNat = (a + b) % 2 ^ 256
  | .mul => value.toNat = a * b % 2 ^ 256
  | .sub => (value.toNat : Int) = ((a : Int) - b) % (2 ^ 256 : Nat)
  | .div => value.toNat = if b = 0 then 0 else a / b
  | .mod => value.toNat = if b = 0 then 0 else a % b
  | .exp => value.toNat = a ^ b % 2 ^ 256
  | .lt => value.toNat = if a < b then 1 else 0
  | .gt => value.toNat = if b < a then 1 else 0
  | .eq => value.toNat = if a = b then 1 else 0
  | .isZero => value.toNat = if a = 0 then 1 else 0
  | .and => ∀ i < 256, value.getLsbD i = (a.testBit i && b.testBit i)
  | .or => ∀ i < 256, value.getLsbD i = (a.testBit i || b.testBit i)
  | .xor => ∀ i < 256, value.getLsbD i = (a.testBit i ^^ b.testBit i)
  | .not => ∀ i < 256, value.getLsbD i = !a.testBit i
  | .byte => value.toNat = if a < 32 then b / 256 ^ (31 - a) % 256 else 0
  | .shl => value.toNat = b * 2 ^ a % 2 ^ 256
  | .shr => value.toNat = b / 2 ^ a
  | _ => False

/-- **There is one such value.** -/
theorem Computes.unique {op : Opcode} {a b : Nat} {value other : Word} (h : op.Computes a b value)
    (h' : op.Computes a b other) : value = other := by
  cases op with
  | and | or | xor | not => exact BitVec.eq_of_getLsbD_eq fun i hi => (h i hi).trans (h' i hi).symm
  | sub => exact BitVec.eq_of_toNat_eq (Int.ofNat_inj.1 (h.trans h'.symm))
  | add | mul | div | mod | exp | lt | gt | eq | isZero | byte | shl | shr =>
    exact BitVec.eq_of_toNat_eq (h.trans h'.symm)
  | _ => exact h.elim

end Opcode

/-! ## Carrying them out -/

namespace State

variable {s : State}

/-- A word is pushed where others have been popped. -/
theorem exists_push {n : Nat} {stack : Stack} (hn : n ≠ 0) (henough : n ≤ s.stack.height)
    (hrest : stack.words = s.stack.words.drop n) {t : State} (ht : t.stack = stack) (w : Word) :
    ∃ pushed : Stack, pushed.words = w :: s.stack.words.drop n ∧
      t.push w = .ok { t with stack := pushed } := by
  have hroom : stack.height < stackLimit := room_of_popped hn (height_of_popped henough hrest)
  obtain ⟨next, hnext⟩ := push_of_lt (s := t) (w := w) (ht ▸ hroom)
  have hwords := push_words hnext
  obtain ⟨pushed, rfl⟩ := push_ok hnext
  rw [ht, hrest] at hwords
  exact ⟨pushed, hwords, hnext⟩

/-- **Operands that are there give way to a function of them.** -/
theorem exists_replace {n : Nat} (hn : n ≠ 0) (henough : n ≤ s.stack.height)
    {f : Vector Word n → Word} {w : Word}
    (hf : ∀ operands, (∀ i (hi : i < n), operands[i] = s.operand i) → f operands = w) :
    ∃ stack : Stack, stack.words = w :: s.stack.words.drop n ∧
      (do let (operands, s) ← s.pop n; s.push (f operands)) = .ok { s with stack } := by
  obtain ⟨operands, stack, hpop, hoperands, hrest⟩ := exists_pop henough
  rw [hpop, ← hf operands hoperands]
  exact exists_push hn henough hrest (t := { s with stack }) rfl (f operands)

end State

/-- What a computation makes of a state where an instruction finds its operands: it succeeds, puts
the value that the instruction computes in their place and pays for the handling. -/
def Replaces (op : Opcode) (s : State) (x : Except Fault State) : Prop :=
  ∃ stack value, op.Computes (s.operand 0).toNat (s.operand 1).toNat value ∧
    stack.words = value :: s.stack.words.drop op.needs ∧
    x = .ok { s with stack, gas := s.gas - op.handling s }

namespace State

variable {s : State} (op : Opcode)

theorem replaces_unary (hneeds : op.needs = 1) (hfree : op.handling s = 0)
    (henough : 1 ≤ s.stack.height) {f : Word → Word}
    (hf : op.Computes (s.operand 0).toNat (s.operand 1).toNat (f (s.operand 0))) :
    Replaces op s (s.unary f) := by
  obtain ⟨stack, hwords, success⟩ := exists_replace (w := f (s.operand 0)) (by decide) henough
    (f := fun operands : Vector Word 1 => f operands[0])
    fun operands hoperands => by rw [hoperands 0 (by omega)]
  refine ⟨stack, _, hf, by rw [hneeds, hwords], ?_⟩
  rw [hfree]
  exact success

theorem replaces_binary (hneeds : op.needs = 2) (hfree : op.handling s = 0)
    (henough : 2 ≤ s.stack.height) {f : Word → Word → Word}
    (hf : op.Computes (s.operand 0).toNat (s.operand 1).toNat (f (s.operand 0) (s.operand 1))) :
    Replaces op s (s.binary f) := by
  obtain ⟨stack, hwords, success⟩ := exists_replace (w := f (s.operand 0) (s.operand 1))
    (by decide) henough (f := fun operands : Vector Word 2 => f operands[0] operands[1])
    fun operands hoperands => by rw [hoperands 0 (by omega), hoperands 1 (by omega)]
  refine ⟨stack, _, hf, by rw [hneeds, hwords], ?_⟩
  rw [hfree]
  exact success

/-- A power is paid for by the bytes of its exponent. -/
theorem replaces_power (henough : 2 ≤ s.stack.height) (paid : Opcode.exp.handling s ≤ s.gas) :
    Replaces .exp s s.power := by
  obtain ⟨operands, stack, hpop, hoperands, hrest⟩ := exists_pop henough
  have hprice : Gas.power operands[1] = Opcode.exp.handling s := by
    rw [hoperands 1 (by omega), Opcode.handling_exp]
  have hcharge := charge_of_le (s := { s with stack }) paid
  obtain ⟨pushed, hwords, hpush⟩ := exists_push (by decide) henough hrest
    (t := { s with stack, gas := s.gas - Opcode.exp.handling s }) rfl
    (Word.pow (s.operand 0) (s.operand 1))
  refine ⟨pushed, _, Word.toNat_pow _ _, hwords, ?_⟩
  rw [power_eq, hpop]
  dsimp only [bind, Except.bind]
  rw [hprice, hcharge, hoperands 0 (by omega), hoperands 1 (by omega)]
  exact hpush

end State

/-- **Each word instruction computes its function.** -/
theorem replaces_execute {op : Opcode} (kind : op.isWordFunction = true) {s : State}
    (enough : op.needs ≤ s.stack.height) (paid : op.handling s ≤ s.gas) (ctx : Context) :
    Replaces op s (execute ctx op s) := by
  cases op with
  | add => exact State.replaces_binary .add rfl rfl enough (BitVec.toNat_add _ _)
  | mul => exact State.replaces_binary .mul rfl rfl enough (BitVec.toNat_mul _ _)
  | sub => exact State.replaces_binary .sub rfl rfl enough (Word.toNat_difference _ _)
  | div => exact State.replaces_binary .div rfl rfl enough (Word.toNat_quotient _ _)
  | mod => exact State.replaces_binary .mod rfl rfl enough (Word.toNat_rem _ _)
  | exp => exact State.replaces_power enough paid
  | lt =>
    rw [execute]
    exact State.replaces_binary .lt rfl rfl enough (Word.toNat_ofBool _)
  | gt =>
    rw [execute]
    exact State.replaces_binary .gt rfl rfl enough (Word.toNat_ofBool _)
  | eq =>
    rw [execute]
    refine State.replaces_binary .eq rfl rfl enough ?_
    simp only [Opcode.Computes, Word.toNat_ofBool, BitVec.toNat_inj]
  | isZero =>
    rw [execute]
    refine State.replaces_unary .isZero rfl rfl enough ?_
    simp only [Opcode.Computes, Word.toNat_ofBool, ← BitVec.toNat_inj]
    rfl
  | and => exact State.replaces_binary .and rfl rfl enough fun _ _ => BitVec.getLsbD_and
  | or => exact State.replaces_binary .or rfl rfl enough fun _ _ => BitVec.getLsbD_or
  | xor => exact State.replaces_binary .xor rfl rfl enough fun _ _ => BitVec.getLsbD_xor
  | not =>
    refine State.replaces_unary .not rfl rfl enough fun i hi => ?_
    rw [BitVec.getLsbD_not, decide_eq_true hi, Bool.true_and]
    rfl
  | byte => exact State.replaces_binary .byte rfl rfl enough (Word.toNat_byte _ _)
  | shl => exact State.replaces_binary .shl rfl rfl enough (Word.toNat_shiftLeft _ _)
  | shr => exact State.replaces_binary .shr rfl rfl enough (Word.toNat_shiftRight _ _)
  | _ => cases kind

/-- **Word instructions compute the mathematical function.** Under standard entries, of any fee, a
running machine that has come to one of them with its operands on the stack and the gas to pay for
it carries it out: the operands give way to the value of the function, `pc` goes on by one, the
price is paid and nothing else changes. -/
theorem word_instructions_compute (m : Machine) (standard : m.table.Standard) (s : State)
    (op : Opcode) (kind : op.isWordFunction = true) (entry : Entry) (running : s.halted = none)
    (found : m.program.isMarked op.toByte s.pc = true) (known : m.table.entry? op = some entry)
    (enough : op.needs ≤ s.stack.words.length) (paid : entry.fee + op.handling s ≤ s.gas) :
    ∃ stack value, op.Computes (s.operand 0).toNat (s.operand 1).toNat value ∧
      stack.words = value :: s.stack.words.drop op.needs ∧
      m.step s = .continued
        { s with pc := s.pc + 1, stack, gas := s.gas - (entry.fee + op.handling s) } := by
  have hgoes : (Entry.standard op).halts = none := by cases op <;> first | rfl | cases kind
  -- what is charged is read off operands and storage, which the fee leaves alone
  have hhandling : op.handling (s.entered entry.fee) = op.handling s := rfl
  have hhandled : op.handling (s.entered entry.fee) ≤ (s.entered entry.fee).gas := by
    rw [hhandling]
    exact Nat.le_sub_of_add_le' paid
  obtain ⟨stack, value, hvalue, hwords, success⟩ :=
    replaces_execute (s := s.entered entry.fee) kind enough hhandled m.toContext
  refine ⟨stack, value, hvalue, hwords, ?_⟩
  rw [hhandling] at success
  rw [← Nat.sub_sub]
  exact Machine.continued_of_execute standard hgoes running found known
    (Nat.le_of_add_right_le paid) success

/-- A code that takes the second word from the top. -/
def subtractingMachine : Machine where
  program := .load (.ofList [0x03])
  env := Environment.blank
  table := .reference

/-- Three is on top and five below. -/
def subtractingState : State :=
  { State.initial subtractingMachine.env with stack := ⟨[3, 5], by decide⟩ }

/-- Three less five wraps, and costs a very low fee. -/
theorem word_instructions_compute_of_difference :
    ∃ stack : Stack, stack.words = [BitVec.ofNat 256 (2 ^ 256 - 2)] ∧
      subtractingMachine.step subtractingState =
        .continued { subtractingState with pc := 1, stack, gas := defaultGasLimit - 3 } := by
  have hbuiltIn : subtractingMachine.table.IsBuiltIn := .inl rfl
  obtain ⟨stack, value, hvalue, hwords, hstep⟩ := word_instructions_compute subtractingMachine
    hbuiltIn.standard subtractingState .sub rfl (.standard .sub) rfl (by decide +kernel)
    (hbuiltIn.entry?_eq rfl) (by decide) (by decide)
  have hdifference : Opcode.sub.Computes 3 5 (BitVec.ofNat 256 (2 ^ 256 - 2)) := by
    unfold Opcode.Computes
    decide
  obtain rfl : value = BitVec.ofNat 256 (2 ^ 256 - 2) := hvalue.unique hdifference
  exact ⟨stack, hwords, hstep⟩

end Retrace
