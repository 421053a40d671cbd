import Retrace.Proofs.Machine.Accounts
import Retrace.Proofs.Machine.Alignment
import Retrace.Proofs.Machine.Checks
/-!
# Retrace — out of gas means unaffordable

What an instruction costs is computed in 64 bits, and a computation that leaves
the range counts as out of gas. `Opcode.dynamicPrice` is the same price in
unbounded integers, read off the operands. The two agree on what can be paid
for: a run of bounded gas keeps gas and the price of its memory together below a
fixed bound (`State.Funded`), a touched range that is affordable then ends below
`2 ^ 32` units (`Funded.units_touchedEnd_lt`), and no computation on so few units
leaves the range. So every handler goes through where its price is affordable
and is out of gas elsewhere, and a step is out of gas exactly where fee and
price exceed the gas that is left (`outOfGas_exact`).
-/

namespace Retrace

/-! ## The price in unbounded integers -/

/-- The price of growing memory to hold a range: the difference of the prices, if it grows. -/
def State.growthPrice (s : State) (offset size : Nat) : Nat :=
  if size = 0 then 0
  else Gas.idealPrice (units (offset + size)) - Gas.idealPrice (units s.memory.size)

namespace Opcode

/-- What an instruction costs besides its fee, in unbounded integers. -/
def dynamicPrice (op : Opcode) (s : State) : Nat :=
  s.growthPrice (op.touched s).1 (op.touched s).2 + op.handling s

/-- The words that an instruction needs on the stack. -/
def needs : Opcode → Nat
  | .isZero | .not | .callDataLoad | .pop | .mload | .sload | .jump | .jumpSub => 1
  | .add | .mul | .sub | .div | .mod | .exp | .lt | .gt | .eq | .and | .or | .xor | .byte
  | .shl | .shr | .keccak256 | .mstore | .mstore8 | .sstore | .jumpi | .ret | .revert => 2
  | .callDataCopy | .codeCopy => 3
  | .dup n => n.val + 1
  | .swap n => n.val + 2
  | .stop | .address | .caller | .callValue | .callDataSize | .codeSize | .pc | .msize | .gas
  | .jumpDest | .beginSub | .returnSub | .push0 | .push _ | .invalid => 0

/-- An instruction without a price of its own costs its fee and nothing else. -/
theorem dynamicPrice_of_unpriced {op : Opcode} (h : op.isPriced = false) (s : State) :
    op.dynamicPrice s = 0 := by
  cases op <;> first | rfl | cases h

end Opcode

namespace State

variable {s : State}

/-- **Growing is paid as a difference**: with it the old memory has cost as much as the new one. -/
theorem growthPrice_add (s : State) (offset size : Nat) :
    s.growthPrice offset size + Gas.idealPrice (units s.memory.size) =
      Gas.idealPrice (units (max s.memory.size (touchedEnd offset size))) := by
  unfold growthPrice
  split
  · rename_i hz
    rw [hz, touchedEnd_zero, Nat.max_zero, Nat.zero_add]
  · rename_i hz
    rw [touchedEnd_of_ne hz, units_max, units_unitSize_mul]
    rcases Nat.le_total (units s.memory.size) (units (offset + size)) with hle | hge
    · rw [Nat.max_eq_right hle]
      exact Nat.sub_add_cancel (Gas.idealPrice_mono hle)
    · rw [Nat.max_eq_left hge, Nat.sub_eq_zero_of_le (Gas.idealPrice_mono hge), Nat.zero_add]

/-- The price depends only on where the range ends. -/
theorem growthPrice_congr {offset size offset' size' : Nat}
    (h : touchedEnd offset size = touchedEnd offset' size') :
    s.growthPrice offset size = s.growthPrice offset' size' := by
  have hleft := s.growthPrice_add offset size
  have hright := s.growthPrice_add offset' size'
  rw [h] at hleft
  omega

end State

/-! ## Bounded gas -/

/-- **The price of `2 ^ 32` units is beyond the largest allowance.** -/
theorem Gas.lt_of_idealPrice_le {count : Nat} (h : idealPrice count ≤ 2 ^ 55) : count < 2 ^ 32 := by
  refine Nat.lt_of_not_le fun hge => ?_
  have hmono := idealPrice_mono hge
  have htop : 2 ^ 55 < idealPrice (2 ^ 32) := by decide
  omega

namespace State

variable {s : State}

/-- What is left and what the memory has cost do not exceed the largest allowance. -/
def Funded (s : State) : Prop := s.gas + Gas.idealPrice (units s.memory.size) ≤ 2 ^ 55

/-- What can be paid for ends well inside the range of the computations. -/
theorem Funded.units_touchedEnd_lt (hs : s.Funded) {offset size : Nat}
    (hpaid : s.growthPrice offset size ≤ s.gas) : units (touchedEnd offset size) < 2 ^ 32 := by
  refine Gas.lt_of_idealPrice_le ?_
  have hfunded : s.gas + Gas.idealPrice (units s.memory.size) ≤ 2 ^ 55 := hs
  have hsum := s.growthPrice_add offset size
  have hreach := Gas.idealPrice_mono
    (units_mono (Nat.le_max_right s.memory.size (touchedEnd offset size)))
  omega

theorem Funded.touchedEnd_lt (hs : s.Funded) {offset size : Nat}
    (hpaid : s.growthPrice offset size ≤ s.gas) : touchedEnd offset size < quantityBound := by
  have hunits := hs.units_touchedEnd_lt hpaid
  have hwhole := unitSize_mul_units_touchedEnd offset size
  rw [quantityBound_eq]
  simp only [unitSize] at hwhole
  omega

/-! ## Paying -/

theorem settledBy_charge (s : State) (price : Nat) :
    SettledBy (price ≤ s.gas) (s.charge price) := by
  unfold charge
  exact ⟨fun h => ⟨_, if_pos h⟩, fun h => if_neg h⟩

/-- **Memory is refused exactly where it is not affordable.** -/
theorem Funded.settledBy_expandMemory (hs : s.Funded) (offset size : Nat) :
    SettledBy (s.growthPrice offset size ≤ s.gas) (s.expandMemory (touchedEnd offset size)) := by
  unfold expandMemory
  refine .bind (Gas.settledBy_expansion _ _) (fun hpaid => .inr (hs.units_touchedEnd_lt hpaid))
    fun _ price hprice => ?_
  have hsum := Gas.expansion_ok hprice
  rw [← growthPrice_add] at hsum
  obtain rfl : price = s.growthPrice offset size := Nat.add_right_cancel hsum
  refine .bind (s.settledBy_charge _) id fun hpaid paid _ => ?_
  refine .bind (paid.memory.settledBy_resize _) (fun _ => ?_) fun _ _ _ => .of_ok hpaid ⟨_, rfl⟩
  rw [unitSize_mul_units_touchedEnd]
  exact hs.touchedEnd_lt hpaid

/-! ## Operands -/

/-- **Operands that are there are popped**, and leave room for a result. -/
theorem settledBy_pop {α : Type} {n : Nat} {P : Prop} (hneeds : n ≤ s.stack.height)
    {f : Vector Word n × State → Except Fault α}
    (hf : ∀ operands stack, (∀ i (hi : i < n), operands[i] = s.operand i) →
      stack.height + n = s.stack.height → SettledBy P (f (operands, { s with stack }))) :
    SettledBy P (s.pop n >>= f) := by
  obtain ⟨operands, stack, hpop, hoperands, hwords⟩ := exists_pop hneeds
  rw [hpop]
  exact hf operands stack hoperands (height_of_popped hneeds hwords)

/-- A word is pushed where there is room for it. -/
theorem push_of_lt {w : Word} (h : s.stack.height < stackLimit) : ∃ next, s.push w = .ok next := by
  obtain ⟨stack, hstack, -⟩ := Stack.push_of_lt h w
  rw [push, hstack]
  exact ⟨_, rfl⟩

/-- **A range that is affordable passes every check on its operands.** -/
theorem Funded.settledBy_range {α : Type} {P : Prop} (hs : s.Funded) {a b : Word}
    (hP : P → s.growthPrice a.toNat b.toNat ≤ s.gas) {f : Nat × Nat → Except Fault α}
    (hf : ∀ offset, b.toNat < quantityBound →
      touchedEnd offset b.toNat = touchedEnd a.toNat b.toNat → SettledBy P (f (offset, b.toNat))) :
    SettledBy P (rangeOperands a b >>= f) := by
  refine .bind (settledBy_rangeOperands a b) (fun h hne => ?_) fun hoperands range hrange => ?_
  · have hend := hs.touchedEnd_lt (hP h)
    have hle : a.toNat + b.toNat ≤ touchedEnd a.toNat b.toNat :=
      add_le_touchedEnd fun hz => hne (BitVec.eq_of_toNat_eq hz)
    omega
  · obtain ⟨offset, size⟩ := range
    obtain ⟨rfl, hsame⟩ := rangeOperands_ok hrange
    refine hf offset ?_ hsame
    by_cases hz : b = 0
    · rw [hz]
      decide
    · exact (hoperands hz).1

/-- An offset that is affordable with a given size passes its check. -/
theorem Funded.settledBy_offset {α : Type} {P : Prop} (hs : s.Funded) {a : Word} {size : Nat}
    (hsize : size ≠ 0) (hP : P → s.growthPrice a.toNat size ≤ s.gas) {f : Nat → Except Fault α}
    (hf : SettledBy P (f a.toNat)) : SettledBy P (quantityOperand a >>= f) := by
  refine .bind (settledBy_bounded _) (fun h => ?_) fun _ offset hoffset => ?_
  · have hend := hs.touchedEnd_lt (hP h)
    have hle : a.toNat + size ≤ touchedEnd a.toNat size := add_le_touchedEnd hsize
    omega
  · obtain rfl := bounded_ok hoffset
    exact hf

/-- The end of a range that is affordable is computed. -/
theorem Funded.settledBy_end {α : Type} {P : Prop} (hs : s.Funded) {offset size : Nat}
    (hP : P → s.growthPrice offset size ≤ s.gas) {f : Nat → Except Fault α}
    (hf : SettledBy P (f (touchedEnd offset size))) :
    SettledBy P (touchedSize offset size >>= f) := by
  refine .bind (settledBy_touchedSize _ _) (fun h => hs.touchedEnd_lt (hP h)) fun _ _ hneeded => ?_
  rw [touchedSize_ok hneeded]
  exact hf

/-- Paying for a range that is handled at a rate, and then doing what needs no more than its end. -/
theorem Funded.settledBy_metered {α : Type} (hs : s.Funded) {rate offset size : Nat}
    (hrate : rate ≤ 6) (hsize : size < quantityBound) {f : State → Except Fault α}
    (hf : ∀ gas, SettledBy (touchedEnd offset size < quantityBound) (f { s with gas })) :
    SettledBy (s.growthPrice offset size + rate * units size ≤ s.gas) (do
      let price ← Gas.expansionAndUnits rate (touchedEnd offset size) s.memory.size size
      let paid ← s.charge price
      f paid) := by
  refine .bind (Gas.settledBy_expansionAndUnits hrate hsize _ _)
    (fun h => .inr (hs.units_touchedEnd_lt (by omega))) fun _ price hprice => ?_
  have hsum := Gas.expansionAndUnits_ok hprice
  have hgrowth := s.growthPrice_add offset size
  obtain rfl : price = s.growthPrice offset size + rate * units size := by omega
  refine .bind (s.settledBy_charge _) id fun hpaid paid hcharged => ?_
  obtain ⟨-, rfl⟩ := charge_ok hcharged
  exact .of_ok hpaid ((hf _).goes (hs.touchedEnd_lt (by omega)))

/-- Paying for memory to hold a range, and then doing what needs no more than its end. -/
theorem Funded.settledBy_expanded {α : Type} (hs : s.Funded) {offset size : Nat}
    {f : State → Except Fault α}
    (hf : ∀ memory gas,
      SettledBy (touchedEnd offset size < quantityBound) (f { s with memory, gas })) :
    SettledBy (s.growthPrice offset size ≤ s.gas)
      (s.expandMemory (touchedEnd offset size) >>= f) := by
  refine .bind (hs.settledBy_expandMemory _ _) id fun hpaid expanded hexpanded => ?_
  obtain ⟨memory, gas, rfl, -, -⟩ := expandMemory_ok hexpanded
  exact .of_ok hpaid ((hf memory gas).goes (hs.touchedEnd_lt hpaid))

/-! ## One handler after the other -/

/-- Popping words leaves room for one. -/
theorem room_of_popped {stack : Stack} {n : Nat} (hn : n ≠ 0)
    (h : stack.height + n = s.stack.height) : stack.height < stackLimit := by
  have hlimit := s.stack.height_le
  unfold Stack.height at h ⊢
  omega

theorem settledBy_power (hneeds : 2 ≤ s.stack.height) :
    SettledBy (Opcode.exp.dynamicPrice s ≤ s.gas) s.power := by
  rw [power_eq]
  refine settledBy_pop hneeds fun operands stack hoperands hheight => ?_
  have hprice : Gas.power operands[1] = Opcode.exp.dynamicPrice s := by
    rw [hoperands 1 (by omega), ← Opcode.handling_exp]
    exact (Nat.zero_add _).symm
  rw [← hprice]
  refine .bind (settledBy_charge _ _) id fun hpaid paid hcharged => ?_
  obtain ⟨-, rfl⟩ := charge_ok hcharged
  exact .of_ok hpaid (push_of_lt (room_of_popped (by omega) hheight))

theorem settledBy_storeSlot (hneeds : 2 ≤ s.stack.height) :
    SettledBy (Opcode.sstore.dynamicPrice s ≤ s.gas) s.storeSlot := by
  refine settledBy_pop hneeds fun operands stack hoperands _ => ?_
  have hprice : Gas.storing (s.storage.get operands[0]) operands[1] =
      Opcode.sstore.dynamicPrice s := by
    rw [hoperands 0 (by omega), hoperands 1 (by omega)]
    exact (Nat.zero_add _).symm
  rw [← hprice]
  exact .bind (settledBy_charge _ _) id fun hpaid _ _ => .of_ok hpaid ⟨_, rfl⟩

namespace Funded

theorem settledBy_hashMemory (hs : s.Funded) (hneeds : 2 ≤ s.stack.height) :
    SettledBy (s.growthPrice (s.operand 0).toNat (s.operand 1).toNat +
      6 * units (s.operand 1).toNat ≤ s.gas) s.hashMemory := by
  refine settledBy_pop hneeds fun operands stack hoperands hheight => ?_
  have hpopped : ({ s with stack } : State).Funded := hs
  rw [← hoperands 0 (by omega), ← hoperands 1 (by omega)]
  refine hpopped.settledBy_range (Nat.le_trans (Nat.le_add_right _ _)) fun offset hsize hsame => ?_
  rw [← growthPrice_congr hsame]
  refine hpopped.settledBy_end (Nat.le_trans (Nat.le_add_right _ _)) ?_
  refine hpopped.settledBy_metered (by decide) hsize fun gas => ?_
  refine .bind (s.memory.settledBy_load offset _) id fun hend _ _ => .of_ok hend ?_
  exact push_of_lt (room_of_popped (by omega) hheight)

theorem settledBy_copyFrom (hs : s.Funded) (hneeds : 3 ≤ s.stack.height) (source : Bytes) :
    SettledBy (s.growthPrice (s.operand 0).toNat (s.operand 2).toNat +
      3 * units (s.operand 2).toNat ≤ s.gas) (s.copyFrom source) := by
  refine settledBy_pop hneeds fun operands stack hoperands _ => ?_
  have hpopped : ({ s with stack } : State).Funded := hs
  rw [← hoperands 0 (by omega), ← hoperands 2 (by omega)]
  refine hpopped.settledBy_range (Nat.le_trans (Nat.le_add_right _ _)) fun offset hsize hsame => ?_
  rw [← growthPrice_congr hsame]
  refine hpopped.settledBy_end (Nat.le_trans (Nat.le_add_right _ _)) ?_
  refine hpopped.settledBy_metered (by decide) hsize fun gas => ?_
  exact .bind (s.memory.settledBy_storePadded offset _ _) id fun hend _ _ => .of_ok hend ⟨_, rfl⟩

theorem settledBy_loadMemory (hs : s.Funded) (hneeds : 1 ≤ s.stack.height) :
    SettledBy (s.growthPrice (s.operand 0).toNat 32 ≤ s.gas) s.loadMemory := by
  refine settledBy_pop hneeds fun operands stack hoperands hheight => ?_
  have hpopped : ({ s with stack } : State).Funded := hs
  rw [← hoperands 0 (by omega)]
  refine hpopped.settledBy_offset (by decide) id ?_
  refine hpopped.settledBy_end id ?_
  refine hpopped.settledBy_expanded fun memory gas => ?_
  refine .bind (memory.settledBy_loadWord _) id fun hend _ _ => .of_ok hend ?_
  exact push_of_lt (room_of_popped (by omega) hheight)

theorem settledBy_storeMemory (hs : s.Funded) (hneeds : 2 ≤ s.stack.height)
    {encode : Word → Bytes} {size : Nat} (hsize : size ≠ 0) (hencode : ∀ w, (encode w).size = size) :
    SettledBy (s.growthPrice (s.operand 0).toNat size ≤ s.gas) (s.storeMemory encode) := by
  refine settledBy_pop hneeds fun operands stack hoperands _ => ?_
  have hpopped : ({ s with stack } : State).Funded := hs
  rw [← hoperands 0 (by omega), ← hencode operands[1]]
  refine hpopped.settledBy_offset (by rwa [hencode]) id ?_
  refine hpopped.settledBy_end id ?_
  refine hpopped.settledBy_expanded fun memory gas => ?_
  exact .bind (memory.settledBy_store _ _) id fun hend _ _ => .of_ok hend ⟨_, rfl⟩

theorem settledBy_captureOutput (hs : s.Funded) (hneeds : 2 ≤ s.stack.height) :
    SettledBy (s.growthPrice (s.operand 0).toNat (s.operand 1).toNat ≤ s.gas) s.captureOutput := by
  refine settledBy_pop hneeds fun operands stack hoperands _ => ?_
  have hpopped : ({ s with stack } : State).Funded := hs
  rw [← hoperands 0 (by omega), ← hoperands 1 (by omega)]
  refine hpopped.settledBy_range id fun offset _ hsame => ?_
  rw [← growthPrice_congr hsame]
  refine hpopped.settledBy_end id ?_
  refine hpopped.settledBy_expanded fun memory gas => ?_
  exact .bind (memory.settledBy_load offset _) id fun hend _ _ => .of_ok hend ⟨_, rfl⟩

/-! ## All instructions -/

/-- **An instruction with a price of its own goes through exactly where it is affordable.** -/
theorem settledBy_execute (hs : s.Funded) {op : Opcode} (hpriced : op.isPriced = true)
    (hneeds : op.needs ≤ s.stack.height) (ctx : Context) :
    SettledBy (op.dynamicPrice s ≤ s.gas) (execute ctx op s) := by
  cases op with
  | exp => exact settledBy_power hneeds
  | sstore => exact settledBy_storeSlot hneeds
  | keccak256 => exact hs.settledBy_hashMemory hneeds
  | callDataCopy | codeCopy => exact hs.settledBy_copyFrom hneeds _
  | mload => exact hs.settledBy_loadMemory hneeds
  | mstore => exact hs.settledBy_storeMemory hneeds (by decide) Word.size_toBytes
  | mstore8 =>
    exact hs.settledBy_storeMemory hneeds (by decide) fun w => Bytes.size_ofNat 1 w.toNat
  | ret | revert => exact hs.settledBy_captureOutput hneeds
  | _ => cases hpriced

/-- **An instruction is out of gas exactly where it is not affordable**, if its operands are
there. -/
theorem outOfGas_iff_execute (hs : s.Funded) {op : Opcode} (hneeds : op.needs ≤ s.stack.height)
    (ctx : Context) : execute ctx op s = .error .outOfGas ↔ s.gas < op.dynamicPrice s := by
  cases hpriced : op.isPriced with
  | true => exact (hs.settledBy_execute hpriced hneeds ctx).outOfGas_iff.trans Nat.not_le
  | false =>
    rw [Opcode.dynamicPrice_of_unpriced hpriced]
    refine ⟨fun h => ?_, fun h => absurd h (Nat.not_lt_zero _)⟩
    have hop : op ≠ .invalid := by rintro rfl; cases h
    exact absurd rfl (faultsIn_execute_of_unpriced hpriced hop ctx s _ h).1

end Funded

end State

/-! ## At a step -/

/-- **Fee and price are refused as one.** -/
theorem Entry.outOfGas_iff_apply {op : Opcode} {s : State} (hs : s.Funded)
    (hneeds : op.needs ≤ s.stack.height) (ctx : Context) :
    (Entry.standard op).apply ctx { s with pc := s.pc + 1 } = .error .outOfGas ↔
      s.gas < Gas.baseFee op + op.dynamicPrice s := by
  by_cases hfee : Gas.baseFee op ≤ s.gas
  · have hentered : (s.entered (Gas.baseFee op)).Funded :=
      Nat.le_trans (Nat.add_le_add_right (Nat.sub_le _ _) _) hs
    -- the price is read off operands, memory and storage, which the fee leaves alone
    have hprice : op.dynamicPrice (s.entered (Gas.baseFee op)) = op.dynamicPrice s := rfl
    have hexecute := hentered.outOfGas_iff_execute hneeds ctx
    have happly : (Entry.standard op).apply ctx { s with pc := s.pc + 1 } =
        execute ctx op (s.entered (Gas.baseFee op)) := apply_of_paid ctx hfee
    rw [happly, hexecute, hprice]
    simp only [State.entered]
    omega
  · exact ⟨fun _ => by omega, fun _ => apply_of_unpaid ctx hfee⟩

namespace Machine

variable {m : Machine} {s : State}

/-- A step ends on a fault where its entry does: no standard entry halts on one by itself. -/
theorem reason?_apply_iff (op : Opcode) {cause : Fault} :
    (m.apply (Entry.standard op) s).reason? = some (.fault cause) ↔
      (Entry.standard op).apply m.toContext { s with pc := s.pc + 1 } = .error cause := by
  cases hentry : (Entry.standard op).apply m.toContext { s with pc := s.pc + 1 } with
  | error other =>
    rw [apply_of_error hentry]
    exact ⟨fun h => by cases h; rfl, fun h => by cases h; rfl⟩
  | ok next =>
    obtain ⟨paid, success⟩ := Entry.apply_ok hentry
    rw [apply_of_ok paid success, Outcome.reason?_ofSuccess]
    refine ⟨fun h => ?_, nofun⟩
    cases op <;> cases h

/-! ## Along a run -/

/-- **A run of bounded gas stays funded.** -/
theorem funded_trace (ht : m.table.IsBuiltIn) (hlimit : m.env.gasLimit ≤ 2 ^ 55) (n : Nat) :
    (m.trace (State.initial m.env) n).Funded := by
  have hgas := gas_trace_eq ht (State.initial m.env) n
  have hempty : Gas.idealPrice (units (State.initial m.env).memory.size) = 0 := by
    show Gas.idealPrice (units Memory.empty.size) = 0
    decide
  have hstart : (State.initial m.env).gas = m.env.gasLimit := rfl
  unfold State.Funded
  omega

end Machine

/-- **Out of gas means unaffordable.** From an allowance of at most `2 ^ 55`, a running machine
that meets an instruction it knows, with its operands on the stack, is out of gas exactly where
the fee and the price in unbounded integers exceed the gas that is left. -/
theorem outOfGas_exact (m : Machine) (builtIn : m.table.IsBuiltIn)
    (limit : m.env.gasLimit ≤ 2 ^ 55) (n : Nat) (op : Opcode) :
    let s := m.trace (State.initial m.env) n
    s.halted = none → m.program.byteAt? s.pc = some op.toByte → (m.table.entry? op).isSome →
      op.needs ≤ s.stack.height →
      ((m.step s).reason? = some (.fault .outOfGas) ↔
        s.gas < Gas.baseFee op + op.dynamicPrice s) := by
  intro s running byte known operands
  obtain ⟨entry, hentry⟩ := Option.isSome_iff_exists.1 known
  obtain rfl := builtIn.entry_eq hentry
  have hboundary : m.program.isBoundary s.pc = true :=
    (m.inStep_trace builtIn.standard n).pc.resolve_right
      (Nat.ne_of_lt (Program.lt_size_of_byteAt? byte))
  have hfound : m.program.isMarked op.toByte s.pc = true := Program.isMarked_iff.2 ⟨hboundary, byte⟩
  rw [Machine.step_of_known running hfound hentry, Machine.reason?_apply_iff]
  exact Entry.outOfGas_iff_apply (Machine.funded_trace builtIn limit n) operands m.toContext

/-- A code that loads a word from far outside any memory, on the largest allowance. -/
def reachingMachine : Machine where
  program := .load (.ofList [0x64, 0x20, 0x00, 0x00, 0x00, 0x00, 0x51])
  env := { Environment.blank with gasLimit := 2 ^ 55 }
  table := .withSubroutines

/-- The load would need a unit more than `2 ^ 32`, and is out of gas. -/
theorem outOfGas_exact_of_load :
    let s := reachingMachine.trace (State.initial reachingMachine.env) 1
    s.gas < Gas.baseFee .mload + Opcode.mload.dynamicPrice s ∧
      (reachingMachine.step s).reason? = some (.fault .outOfGas) := by
  intro s
  have hexact := outOfGas_exact reachingMachine (.inr rfl) (by decide) 1 .mload (by decide +kernel)
    (by decide +kernel) rfl (by decide +kernel)
  have hprice : s.gas < Gas.baseFee .mload + Opcode.mload.dynamicPrice s := by decide +kernel
  exact ⟨hprice, hexact.2 hprice⟩

end Retrace
