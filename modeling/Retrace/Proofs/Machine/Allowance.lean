import Retrace.Proofs.Machine.Faults
import Retrace.Proofs.Machine.Step
/-!
# Retrace — gas is only a budget

An instruction asks whether there is gas enough, in several places and at the
price that each has computed, and does nothing else with the gas there is. So
a run that never falls short goes the same way from a larger allowance and has
the difference left at the end (`run_credit`). The exception is the instruction
that pushes the gas that is left. `Follows` compares two computations of which
the second has the larger purse: it goes the way of the first, faults included,
unless that one was out of gas; and it is kept by carrying on
(`Follows.bind`), so that it holds of a handler as it holds of its parts.
-/

namespace Retrace

/-- The state with so much more gas. -/
def State.credit (d : Nat) (s : State) : State := { s with gas := s.gas + d }

/-- The second computation goes the way of the first, with `f` between their results, unless the
first is out of gas. -/
def Follows {α β : Type} (f : α → β) (x : Except Fault α) (y : Except Fault β) : Prop :=
  x = .error .outOfGas ∨ y = x.map f

namespace Follows

variable {α β γ δ : Type} {f : α → β} {g : γ → δ} {x : Except Fault α} {y : Except Fault β}

theorem ok (a : α) : Follows f (.ok a) (.ok (f a)) := .inr rfl

theorem error (cause : Fault) : Follows f (.error cause) (.error cause) := .inr rfl

/-- **Computations in parts follow each other part by part.** -/
theorem bind_of_ok {k : α → Except Fault γ} {l : β → Except Fault δ} (hx : Follows f x y)
    (hk : ∀ a, x = .ok a → Follows g (k a) (l (f a))) : Follows g (x >>= k) (y >>= l) := by
  rcases hx with rfl | rfl
  · exact .inl rfl
  · cases x with
    | error cause => exact .error cause
    | ok a => exact hk a rfl

theorem bind {k : α → Except Fault γ} {l : β → Except Fault δ} (hx : Follows f x y)
    (hk : ∀ a, Follows g (k a) (l (f a))) : Follows g (x >>= k) (y >>= l) :=
  hx.bind_of_ok fun a _ => hk a

/-- A part that both have in common. -/
theorem same {k : α → Except Fault γ} {l : α → Except Fault δ}
    (hk : ∀ a, Follows g (k a) (l a)) : Follows g (x >>= k) (x >>= l) := by
  cases x with
  | error cause => exact .error cause
  | ok a => exact hk a

/-- Where the first does not run out of gas, the second does the same. -/
theorem eq_map (h : Follows f x y) (hx : x ≠ .error .outOfGas) : y = x.map f :=
  h.resolve_left hx

end Follows

namespace State

variable (d : Nat) (s : State) (program : Program)

/-! ## Stack and purse -/

theorem follows_pop (n : Nat) :
    Follows (Prod.map id (credit d)) (s.pop n) ((s.credit d).pop n) :=
  .same fun ⟨_, _⟩ => .ok _

theorem follows_push (w : Word) : Follows (credit d) (s.push w) ((s.credit d).push w) :=
  .same fun _ => .ok _

/-- **A price that could be paid can be paid from more**, and leaves as much more. -/
theorem follows_charge (price : Nat) :
    Follows (credit d) (s.charge price) ((s.credit d).charge price) := by
  by_cases hpaid : price ≤ s.gas
  · have hmore : price ≤ s.gas + d := Nat.le_add_right_of_le hpaid
    have hleft : s.gas + d - price = s.gas - price + d := Nat.sub_add_comm hpaid
    right
    simp only [charge, credit, if_pos hpaid, if_pos hmore, hleft]
    rfl
  · left
    exact if_neg hpaid

theorem follows_expandMemory (size : Nat) :
    Follows (credit d) (s.expandMemory size) ((s.credit d).expandMemory size) :=
  .same fun _ => .bind (follows_charge d s _) fun _ => .same fun _ => .ok _

/-! ## One handler after the other -/

theorem follows_replace {n : Nat} (f : Vector Word n → Word) : Follows (credit d)
    (do let (operands, s) ← s.pop n; s.push (f operands))
    (do let (operands, s) ← (s.credit d).pop n; s.push (f operands)) :=
  .bind (follows_pop d s n) fun ⟨_, popped⟩ => follows_push d popped _

theorem follows_unary (f : Word → Word) : Follows (credit d) (s.unary f) ((s.credit d).unary f) :=
  follows_replace d s fun operands : Vector Word 1 => f operands[0]

theorem follows_binary (f : Word → Word → Word) :
    Follows (credit d) (s.binary f) ((s.credit d).binary f) :=
  follows_replace d s fun operands : Vector Word 2 => f operands[0] operands[1]

theorem follows_drop (n : Nat) :
    Follows (credit d) ((s.pop n).map (·.2)) (((s.credit d).pop n).map (·.2)) := by
  rcases follows_pop d s n with h | h
  · left
    rw [h]
    rfl
  · right
    rw [h]
    cases s.pop n <;> rfl

theorem follows_power : Follows (credit d) s.power (s.credit d).power :=
  .bind (follows_pop d s 2) fun ⟨_, popped⟩ => .same fun _ =>
  .bind (follows_charge d popped _) fun paid => follows_push d paid _

theorem follows_hashMemory : Follows (credit d) s.hashMemory (s.credit d).hashMemory :=
  .bind (follows_pop d s 2) fun ⟨_, popped⟩ =>
  .same fun ⟨_, _⟩ => .same fun _ => .same fun _ =>
  .bind (follows_charge d popped _) fun paid =>
  .same fun ⟨_, memory⟩ => follows_push d { paid with memory } _

theorem follows_copyFrom (source : Bytes) :
    Follows (credit d) (s.copyFrom source) ((s.credit d).copyFrom source) :=
  .bind (follows_pop d s 3) fun ⟨_, popped⟩ =>
  .same fun ⟨_, _⟩ => .same fun _ => .same fun _ =>
  .bind (follows_charge d popped _) fun _ => .same fun _ => .ok _

theorem follows_loadMemory : Follows (credit d) s.loadMemory (s.credit d).loadMemory :=
  .bind (follows_pop d s 1) fun ⟨_, popped⟩ =>
  .same fun _ => .same fun _ =>
  .bind (follows_expandMemory d popped _) fun expanded =>
  .same fun ⟨_, memory⟩ => follows_push d { expanded with memory } _

theorem follows_storeMemory (encode : Word → Bytes) :
    Follows (credit d) (s.storeMemory encode) ((s.credit d).storeMemory encode) :=
  .bind (follows_pop d s 2) fun ⟨_, popped⟩ =>
  .same fun _ => .same fun _ =>
  .bind (follows_expandMemory d popped _) fun _ => .same fun _ => .ok _

theorem follows_storeSlot : Follows (credit d) s.storeSlot (s.credit d).storeSlot :=
  .bind (follows_pop d s 2) fun ⟨_, popped⟩ =>
  .bind (follows_charge d popped _) fun _ => .ok _

theorem follows_captureOutput : Follows (credit d) s.captureOutput (s.credit d).captureOutput :=
  .bind (follows_pop d s 2) fun ⟨_, popped⟩ =>
  .same fun ⟨_, _⟩ => .same fun _ =>
  .bind (follows_expandMemory d popped _) fun _ => .same fun ⟨_, _⟩ => .ok _

/-! ### Control -/

theorem follows_jumpTo (target : Word) :
    Follows (credit d) (s.jumpTo program target) ((s.credit d).jumpTo program target) := by
  unfold jumpTo
  cases program.jumpTarget? target with
  | none => exact .error _
  | some pc => exact .ok { s with pc }

theorem follows_jump (ctx : Context) :
    Follows (credit d) (execute ctx .jump s) (execute ctx .jump (s.credit d)) :=
  .bind (follows_pop d s 1) fun ⟨_, popped⟩ => follows_jumpTo d popped ctx.program _

theorem follows_jumpIf : Follows (credit d) (s.jumpIf program) ((s.credit d).jumpIf program) := by
  refine .bind (follows_pop d s 2) fun ⟨operands, popped⟩ => ?_
  show Follows _ (if operands[1] = 0 then _ else _) (if operands[1] = 0 then _ else _)
  by_cases hzero : operands[1] = 0
  · rw [if_pos hzero, if_pos hzero]
    exact .ok popped
  · rw [if_neg hzero, if_neg hzero]
    exact follows_jumpTo d popped program _

theorem follows_pushImmediate (size : Nat) :
    Follows (credit d) (s.pushImmediate program size) ((s.credit d).pushImmediate program size) :=
  .bind (follows_push d s _) fun _ => .ok _

theorem follows_callSubroutine :
    Follows (credit d) (s.callSubroutine program) ((s.credit d).callSubroutine program) := by
  refine .bind (follows_pop d s 1) fun ⟨operands, popped⟩ => ?_
  dsimp only [Prod.map, id]
  cases program.subroutineTarget? operands[0] with
  | none => exact .error _
  | some entry => exact .same fun _ => .ok _

theorem follows_returnToCaller :
    Follows (credit d) s.returnToCaller (s.credit d).returnToCaller :=
  .same fun ⟨_, _⟩ => .ok _

/-! ## All instructions -/

/-- **More gas does not change what an instruction does**, unless it succeeds in pushing the gas
that is left. -/
theorem follows_execute (ctx : Context) {op : Opcode}
    (hgas : ∀ next, execute ctx op s = .ok next → op ≠ .gas) :
    Follows (credit d) (execute ctx op s) (execute ctx op (s.credit d)) := by
  cases op with
  | gas =>
    cases hpush : execute ctx .gas s with
    | error cause =>
      have hmore : execute ctx .gas (s.credit d) = .error cause :=
        push_error_congr (s := s) (t := s.credit d) rfl hpush
      exact .inr hmore
    | ok next => exact absurd rfl (hgas next hpush)
  | stop | jumpDest => exact .ok s
  | exp => exact follows_power d s
  | keccak256 => exact follows_hashMemory d s
  | callDataLoad =>
    exact follows_replace d s fun operands : Vector Word 1 =>
      Word.ofBytes (Bytes.window ctx.env.callData operands[0].toNat 32)
  | callDataCopy | codeCopy => exact follows_copyFrom d s _
  | pop => exact follows_drop d s 1
  | mload => exact follows_loadMemory d s
  | mstore | mstore8 => exact follows_storeMemory d s _
  | sstore => exact follows_storeSlot d s
  | jump => exact follows_jump d s ctx
  | jumpi => exact follows_jumpIf d s ctx.program
  | beginSub | invalid => exact .error _
  | returnSub => exact follows_returnToCaller d s
  | jumpSub => exact follows_callSubroutine d s ctx.program
  | push n => exact follows_pushImmediate d s ctx.program _
  | dup n | swap n => exact .same fun _ => .ok _
  | ret | revert => exact follows_captureOutput d s
  | address | caller | callValue | callDataSize | codeSize | pc | msize | push0 =>
    exact follows_push d s _
  | isZero | not | sload =>
    simp only [execute]
    exact follows_unary d s _
  | add | mul | sub | div | mod | lt | gt | eq | and | or | xor | byte | shl | shr =>
    simp only [execute]
    exact follows_binary d s _

end State

/-! ## Steps -/

/-- The outcome with so much more gas left. -/
def Outcome.credit (d : Nat) : Outcome → Outcome
  | .continued s => .continued (s.credit d)
  | .halted s reason => .halted (s.credit d) reason

theorem Entry.follows_apply (d : Nat) (entry : Entry) (ctx : Context) (s : State)
    (hgas : ∀ next, entry.apply ctx s = .ok next → entry.action ≠ .gas) :
    Follows (State.credit d) (entry.apply ctx s) (entry.apply ctx (s.credit d)) := by
  refine (State.follows_charge d s entry.fee).bind_of_ok fun paid hpaid => ?_
  refine State.follows_execute d paid ctx fun next hnext => hgas next ?_
  unfold apply
  rw [hpaid]
  exact hnext

namespace Machine

variable {m : Machine} {s : State}

/-- An entry goes the same way with more gas, if it was not short of it. -/
theorem apply_credit (d : Nat) {entry : Entry}
    (hgas : ∀ next, entry.apply m.toContext { s with pc := s.pc + 1 } = .ok next →
      entry.action ≠ .gas)
    (hpaid : (m.apply entry s).reason? ≠ some (.fault .outOfGas)) :
    m.apply entry (s.credit d) = (m.apply entry s).credit d := by
  have hfollows := entry.follows_apply d m.toContext { s with pc := s.pc + 1 } hgas
  have hsame := hfollows.eq_map fun hshort => hpaid (by rw [apply_of_error hshort]; rfl)
  have hentered : ({ s.credit d with pc := (s.credit d).pc + 1 } : State) =
      State.credit d { s with pc := s.pc + 1 } := rfl
  unfold apply
  rw [hentered, hsame]
  cases entry.apply m.toContext { s with pc := s.pc + 1 } with
  | error cause => rfl
  | ok next => cases entry.halts <;> rfl

/-- And so does an instruction that the machine knows. -/
theorem step_credit_of_known (ht : m.table.Standard) (d : Nat) {op : Opcode} {entry : Entry}
    (running : s.halted = none) (found : m.program.isMarked op.toByte s.pc = true)
    (known : m.table.entry? op = some entry) (hop : m.performed? s ≠ some .gas)
    (hpaid : (m.step s).reason? ≠ some (.fault .outOfGas)) :
    m.step (s.credit d) = (m.step s).credit d := by
  have hstep := step_of_known running found known
  rw [hstep] at hpaid ⊢
  rw [step_of_known (s := s.credit d) running found known]
  refine apply_credit d (fun next hnext haction => hop ?_) hpaid
  obtain ⟨paid, success⟩ := Entry.apply_ok hnext
  have hperformed := performed?_of_carried ht running found known
    (hstep.trans (apply_of_ok paid success))
  rwa [← haction, ht.action_eq known]

/-- **A step goes the same way with more gas**, unless it was short of gas or pushed what was
left. -/
theorem step_credit (ht : m.table.Standard) (d : Nat) (hop : m.performed? s ≠ some .gas)
    (hpaid : (m.step s).reason? ≠ some (.fault .outOfGas)) :
    m.step (s.credit d) = (m.step s).credit d := by
  have hway := m.stepped s
  generalize hstep : m.step s = outcome at hway
  cases hway with
  | rested reason halted => exact step_of_halted (s := s.credit d) halted
  | ended running past => exact step_of_ended (s := s.credit d) running past
  | strayed running inside =>
    rcases Nat.lt_or_ge s.pc m.program.size with short | past
    · exact step_of_strayed (s := s.credit d) running short inside
    · rw [step_of_ended running past] at hstep
      cases hstep
  | unknown running byte found missing =>
    exact step_of_unknown (s := s.credit d) running found missing
  | faulted running op found entry known =>
    rw [← hstep]
    exact step_credit_of_known ht d running found known hop hpaid
  | carried running op found entry known =>
    rw [← hstep]
    exact step_credit_of_known ht d running found known hop hpaid

end Machine

/-! ## Runs -/

/-- **Gas is only a budget.** From any state, a run of at most `n` steps that does not halt out of
gas, and in which no instruction pushes the gas that is left, goes the same way with `d` more gas:
it continues or halts as before and for the same reason, and its last state is the same but for
the gas, of which there is `d` more. -/
theorem run_credit (m : Machine) (standard : m.table.Standard) (s : State) (d n : Nat)
    (unseen : ∀ i < n, m.performed? (m.trace s i) ≠ some .gas)
    (paid : (m.run n s).reason? ≠ some (.fault .outOfGas)) :
    m.run n (s.credit d) = (m.run n s).credit d := by
  induction n generalizing s with
  | zero => rfl
  | succ n ih =>
    have hfirst : m.performed? s ≠ some .gas := unseen 0 (Nat.succ_pos n)
    rw [Machine.run, Machine.run]
    rw [Machine.run] at paid
    cases hstep : m.step s with
    | halted final reason =>
      rw [hstep] at paid
      have hcredit := Machine.step_credit standard d hfirst (by rw [hstep]; exact paid)
      rw [hcredit, hstep]
      rfl
    | continued next =>
      rw [hstep] at paid
      have hcredit := Machine.step_credit standard d hfirst (by rw [hstep]; nofun)
      rw [hcredit, hstep]
      refine ih next (fun i hi => ?_) paid
      have hnext : next = (m.step s).state := by rw [hstep]; rfl
      rw [hnext, Machine.trace_step]
      exact unseen (i + 1) (Nat.succ_lt_succ hi)

/-- A code that fills a slot of storage and then adds with nothing on the stack, on the least
allowance that gets so far. -/
def fillingMachine : Machine where
  program := .load (.ofList [0x60, 0x02, 0x60, 0x07, 0x55, 0x01])
  env := { Environment.blank with gasLimit := 20009 }
  table := .reference

/-- With five more units the addition still fails for want of operands, and five more are left. -/
theorem run_credit_of_fill :
    let s := State.initial fillingMachine.env
    let short := fillingMachine.run 4 s
    let more := fillingMachine.run 4 (s.credit 5)
    short.reason? = some (.fault .stackUnderflow) ∧ short.state.gas = 3 ∧
      more.reason? = some (.fault .stackUnderflow) ∧ more.state = short.state.credit 5 := by
  intro s short more
  have hbuiltIn : fillingMachine.table.IsBuiltIn := .inl rfl
  have hunseen : ∀ i < 4, fillingMachine.performed? (fillingMachine.trace s i) ≠ some .gas := by
    decide +kernel
  have hreason : short.reason? = some (.fault .stackUnderflow) := by decide +kernel
  have hmore : more = short.credit 5 :=
    run_credit fillingMachine hbuiltIn.standard s 5 4 hunseen (by rw [hreason]; nofun)
  rw [hmore]
  exact ⟨hreason, by decide +kernel, by decide +kernel, by decide +kernel⟩

end Retrace
