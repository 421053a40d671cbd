import Retrace.Proofs.Machine.Contents
import Retrace.Proofs.Machine.Solvency
/-!
# Retrace — the discipline of the stack

An instruction needs some words on the stack, and leaves some in their place.
Handlers check this early and late: they take their operands first, then pay,
reach into memory or look at a target, and only then push a result. Which fault
comes first is nevertheless a matter of two numbers (`Disciplined`). With too few
words it is an underflow, since operands are taken before anything else can fail.
With too many it is an overflow, since only instructions that take no operands
grow the stack, and these do nothing before they push. In between the stack has
no part in whatever fault there is, and a success has replaced the words at the
top and left those below them alone (`Leaves`).
-/

namespace Retrace

namespace Opcode

/-- The words that an instruction takes off the stack. What it copies or exchanges stays there. -/
def pops : Opcode → Nat
  | .dup _ | .swap _ => 0
  | op => op.needs

/-- The words that an instruction puts on the stack. -/
def pushes : Opcode → Nat
  | .stop | .callDataCopy | .codeCopy | .pop | .mstore | .mstore8 | .sstore | .jump | .jumpi
  | .jumpDest | .beginSub | .returnSub | .jumpSub | .swap _ | .ret | .revert | .invalid => 0
  | _ => 1

/-- The words that stand, after an instruction, where those stood that it needs. -/
def leaves (op : Opcode) : Nat := op.needs - op.pops + op.pushes

/-- What is taken is needed. -/
theorem pops_le_needs (op : Opcode) : op.pops ≤ op.needs := by
  cases op <;> first | exact Nat.le_refl _ | exact Nat.zero_le _

end Opcode

/-! ## Computations that respect the stack -/

/-- The faults that have nothing to do with the operand stack. -/
def Fault.IsOffStack (cause : Fault) : Prop := cause ≠ .stackUnderflow ∧ cause ≠ .stackOverflow

/-- Out of gas is one of them. -/
theorem FaultsIn.offStack {α : Type} {x : Except Fault α} (h : FaultsIn (· = .outOfGas) x) :
    FaultsIn Fault.IsOffStack x :=
  h.mono fun cause hcause => by rw [hcause]; exact ⟨nofun, nofun⟩

/-- A computation that is not stopped by the stack, and that puts `count` words on top of `rest`
where it succeeds. -/
structure Leaves (count : Nat) (rest : List Word) (x : Except Fault State) : Prop where
  faults : FaultsIn Fault.IsOffStack x
  words : ∀ next, x = .ok next →
    ∃ results : List Word, results.length = count ∧ next.stack.words = results ++ rest

namespace Leaves

variable {α : Type} {count : Nat} {rest : List Word} {s : State}

/-- What comes before may fail for reasons of its own. -/
theorem bind {y : Except Fault α} {f : α → Except Fault State}
    (hy : FaultsIn Fault.IsOffStack y) (hf : ∀ a, y = .ok a → Leaves count rest (f a)) :
    Leaves count rest (y >>= f) := by
  cases y with
  | error cause => exact ⟨.error (hy cause rfl), nofun⟩
  | ok a => exact hf a rfl

theorem ok (h : s.stack.words = rest) : Leaves 0 rest (.ok s) where
  faults := .ok s
  words next hnext := by
    cases hnext
    exact ⟨[], rfl, h⟩

/-- Where there is room, a push leaves a word. -/
theorem push {w : Word} (room : s.stack.height < stackLimit) (h : s.stack.words = rest) :
    Leaves 1 rest (s.push w) where
  faults := by
    obtain ⟨next, hnext⟩ := State.push_of_lt (w := w) room
    rw [hnext]
    exact .ok next
  words next hnext := ⟨[w], rfl, by rw [State.push_words hnext, h]; rfl⟩

end Leaves

/-- **The discipline of a computation that needs `takes` words and leaves `leaves` for them.** -/
structure Disciplined (takes leaves : Nat) (s : State) (x : Except Fault State) : Prop where
  underflow : s.stack.height < takes → x = .error .stackUnderflow
  overflow : takes ≤ s.stack.height → stackLimit < s.stack.height - takes + leaves →
    x = .error .stackOverflow
  goes : takes ≤ s.stack.height → s.stack.height - takes + leaves ≤ stackLimit →
    Leaves leaves (s.stack.words.drop takes) x

namespace Disciplined

variable {takes leaves : Nat} {s next : State} {x : Except Fault State}

/-- Whatever is not an underflow has found its words. -/
theorem words_of_ne (h : Disciplined takes leaves s x) (hx : x ≠ .error .stackUnderflow) :
    takes ≤ s.stack.height :=
  Nat.le_of_not_lt fun hshort => hx (h.underflow hshort)

/-- Whatever has found them and is not an overflow has found room. -/
theorem room_of_ne (h : Disciplined takes leaves s x) (hneeds : takes ≤ s.stack.height)
    (hx : x ≠ .error .stackOverflow) : s.stack.height - takes + leaves ≤ stackLimit :=
  Nat.le_of_not_lt fun hfull => hx (h.overflow hneeds hfull)

/-- **It underflows exactly for want of words.** -/
theorem underflow_iff (h : Disciplined takes leaves s x) :
    x = .error .stackUnderflow ↔ s.stack.height < takes := by
  refine ⟨fun hx => Nat.lt_of_not_le fun hneeds => ?_, h.underflow⟩
  have hroom := h.room_of_ne hneeds (by rw [hx]; nofun)
  exact ((h.goes hneeds hroom).faults _ hx).1 rfl

/-- **It overflows exactly for want of room**, if it has its words. -/
theorem overflow_iff (h : Disciplined takes leaves s x) : x = .error .stackOverflow ↔
    takes ≤ s.stack.height ∧ stackLimit < s.stack.height - takes + leaves := by
  refine ⟨fun hx => ?_, fun hfull => h.overflow hfull.1 hfull.2⟩
  have hneeds := h.words_of_ne (by rw [hx]; nofun)
  refine ⟨hneeds, Nat.lt_of_not_le fun hroom => ?_⟩
  exact ((h.goes hneeds hroom).faults _ hx).2 rfl

/-- **Where it succeeds it had its words**, and has put others on what was below them. -/
theorem words (h : Disciplined takes leaves s x) (hx : x = .ok next) :
    takes ≤ s.stack.height ∧ ∃ results : List Word,
      results.length = leaves ∧ next.stack.words = results ++ s.stack.words.drop takes := by
  have hneeds := h.words_of_ne (by rw [hx]; nofun)
  have hroom := h.room_of_ne hneeds (by rw [hx]; nofun)
  exact ⟨hneeds, (h.goes hneeds hroom).words next hx⟩

/-- What leaves the stack alone has no part in it. -/
theorem of_leaves (h : Leaves 0 s.stack.words x) : Disciplined 0 0 s x where
  underflow hshort := absurd hshort (Nat.not_lt_zero _)
  overflow _ hfull := absurd hfull (Nat.not_lt_of_le s.stack.height_le)
  goes _ _ := h

/-- What is done afterwards to the rest of the state does not matter. -/
theorem map (h : Disciplined takes leaves s x) {g : State → State}
    (hg : ∀ t : State, (g t).stack = t.stack) :
    Disciplined takes leaves s (x >>= fun t => .ok (g t)) where
  underflow hshort := by rw [h.underflow hshort]; rfl
  overflow hneeds hfull := by rw [h.overflow hneeds hfull]; rfl
  goes hneeds hroom := by
    have hleaves := h.goes hneeds hroom
    refine ⟨.bind hleaves.faults fun t => .ok (g t), fun next hnext => ?_⟩
    obtain ⟨t, ht, hnext⟩ := bind_ok hnext
    cases hnext
    rw [hg]
    exact hleaves.words t ht

end Disciplined

/-! ## One handler after the other -/

namespace State

variable (s : State) (program : Program)

/-- **Operands come first.** What pops its operands before anything else, leaves no more than it
takes and does not look at the rest of the stack, is disciplined. -/
theorem disciplined_pop {n leaves : Nat} (hle : leaves ≤ n)
    {f : Vector Word n × State → Except Fault State}
    (hf : ∀ operands stack, stack.height + n = s.stack.height →
      Leaves leaves stack.words (f (operands, { s with stack }))) :
    Disciplined n leaves s (s.pop n >>= f) where
  underflow hshort := by
    rw [pop_of_lt hshort]
    rfl
  overflow hneeds hfull := by
    have hlimit : s.stack.height ≤ stackLimit := s.stack.height_le
    omega
  goes hneeds _ := by
    obtain ⟨operands, stack, hpop, -, hwords⟩ := exists_pop hneeds
    rw [hpop, ← hwords]
    exact hf operands stack (height_of_popped hneeds hwords)

/-- A result fits where words have been popped. -/
theorem leaves_push {stack : Stack} {n : Nat} (hn : n ≠ 0) (h : stack.height + n = s.stack.height)
    {t : State} (ht : t.stack = stack) (w : Word) : Leaves 1 stack.words (t.push w) :=
  .push (ht ▸ room_of_popped hn h) (congrArg Stack.words ht)

theorem disciplined_replace {n : Nat} (hn : n ≠ 0) (f : Vector Word n → Word) :
    Disciplined n 1 s (do let (operands, s) ← s.pop n; s.push (f operands)) :=
  s.disciplined_pop (Nat.pos_of_ne_zero hn) fun _ _ hheight => s.leaves_push hn hheight rfl _

theorem disciplined_unary (f : Word → Word) : Disciplined 1 1 s (s.unary f) :=
  s.disciplined_replace (by decide) fun operands : Vector Word 1 => f operands[0]

theorem disciplined_binary (f : Word → Word → Word) : Disciplined 2 1 s (s.binary f) :=
  s.disciplined_replace (by decide) fun operands : Vector Word 2 => f operands[0] operands[1]

theorem disciplined_loadFrom (source : Bytes) : Disciplined 1 1 s (s.loadFrom source) :=
  s.disciplined_replace (by decide) fun operands : Vector Word 1 =>
    Word.ofBytes (Bytes.window source operands[0].toNat 32)

theorem disciplined_drop : Disciplined 1 0 s ((s.pop 1).map (·.2)) := by
  have hbind : (s.pop 1).map (·.2) = s.pop 1 >>= fun popped => .ok popped.2 := by
    cases s.pop 1 <;> rfl
  rw [hbind]
  exact s.disciplined_pop (Nat.zero_le 1) fun _ _ _ => .ok rfl

theorem disciplined_power : Disciplined 2 1 s s.power := by
  rw [power_eq]
  refine s.disciplined_pop (by decide) fun operands stack hheight => ?_
  refine .bind (faultsIn_charge _ _).offStack fun paid hpaid => ?_
  obtain ⟨-, rfl⟩ := charge_ok hpaid
  exact s.leaves_push (by decide) hheight rfl _

theorem disciplined_hashMemory : Disciplined 2 1 s s.hashMemory := by
  refine s.disciplined_pop (by decide) fun operands stack hheight => ?_
  refine .bind (faultsIn_rangeOperands _ _).offStack fun range _ => ?_
  refine .bind (faultsIn_touchedSize _ _).offStack fun needed _ => ?_
  refine .bind (faultsIn_expansionAndUnits _ _ _ _).offStack fun price _ => ?_
  refine .bind (faultsIn_charge _ _).offStack fun paid hpaid => ?_
  obtain ⟨-, rfl⟩ := charge_ok hpaid
  refine .bind (faultsIn_load _ _ _).offStack fun loaded _ => ?_
  exact s.leaves_push (by decide) hheight rfl _

theorem disciplined_copyFrom (source : Bytes) : Disciplined 3 0 s (s.copyFrom source) := by
  refine s.disciplined_pop (Nat.zero_le 3) fun operands stack _ => ?_
  refine .bind (faultsIn_rangeOperands _ _).offStack fun range _ => ?_
  refine .bind (faultsIn_touchedSize _ _).offStack fun needed _ => ?_
  refine .bind (faultsIn_expansionAndUnits _ _ _ _).offStack fun price _ => ?_
  refine .bind (faultsIn_charge _ _).offStack fun paid hpaid => ?_
  obtain ⟨-, rfl⟩ := charge_ok hpaid
  exact .bind (faultsIn_storePadded _ _ _ _).offStack fun memory _ => .ok rfl

theorem disciplined_loadMemory : Disciplined 1 1 s s.loadMemory := by
  refine s.disciplined_pop (Nat.le_refl 1) fun operands stack hheight => ?_
  refine .bind (faultsIn_bounded _).offStack fun offset _ => ?_
  refine .bind (faultsIn_touchedSize _ _).offStack fun needed _ => ?_
  refine .bind (faultsIn_expandMemory _ _).offStack fun expanded hexpanded => ?_
  refine .bind (faultsIn_loadWord _ _).offStack fun ⟨w, memory⟩ _ => ?_
  have hstack : ({ expanded with memory } : State).stack = stack := (expandMemory_keeps hexpanded).2
  exact s.leaves_push (by decide) hheight hstack w

theorem disciplined_storeMemory (encode : Word → Bytes) :
    Disciplined 2 0 s (s.storeMemory encode) := by
  refine s.disciplined_pop (Nat.zero_le 2) fun operands stack _ => ?_
  refine .bind (faultsIn_bounded _).offStack fun offset _ => ?_
  refine .bind (faultsIn_touchedSize _ _).offStack fun needed _ => ?_
  refine .bind (faultsIn_expandMemory _ _).offStack fun expanded hexpanded => ?_
  refine .bind (faultsIn_store _ _ _).offStack fun memory _ => .ok ?_
  exact congrArg Stack.words (expandMemory_keeps hexpanded).2

theorem disciplined_storeSlot : Disciplined 2 0 s s.storeSlot := by
  refine s.disciplined_pop (Nat.zero_le 2) fun operands stack _ => ?_
  refine .bind (faultsIn_charge _ _).offStack fun paid hpaid => ?_
  obtain ⟨-, rfl⟩ := charge_ok hpaid
  exact .ok rfl

theorem disciplined_captureOutput : Disciplined 2 0 s s.captureOutput := by
  refine s.disciplined_pop (Nat.zero_le 2) fun operands stack _ => ?_
  refine .bind (faultsIn_rangeOperands _ _).offStack fun range _ => ?_
  refine .bind (faultsIn_touchedSize _ _).offStack fun needed _ => ?_
  refine .bind (faultsIn_expandMemory _ _).offStack fun expanded hexpanded => ?_
  refine .bind (faultsIn_load _ _ _).offStack fun loaded _ => .ok ?_
  exact congrArg Stack.words (expandMemory_keeps hexpanded).2

/-! ### Control -/

/-- A jump that goes wrong has its own fault. -/
theorem leaves_jumpTo (target : Word) : Leaves 0 s.stack.words (s.jumpTo program target) := by
  unfold jumpTo
  split
  · exact .ok rfl
  · exact ⟨.error ⟨nofun, nofun⟩, nofun⟩

theorem disciplined_jumpIf : Disciplined 2 0 s (s.jumpIf program) := by
  refine s.disciplined_pop (Nat.zero_le 2) fun operands stack _ => ?_
  dsimp only
  split
  · exact .ok rfl
  · exact leaves_jumpTo { s with stack } program _

/-- The return stack has faults of its own. -/
theorem faultsIn_pushReturn (returns : ReturnStack) (offset : Nat) :
    FaultsIn Fault.IsOffStack (returns.push offset) := by
  unfold ReturnStack.push
  split
  · exact .ok _
  · exact .error ⟨by decide, by decide⟩

theorem disciplined_callSubroutine : Disciplined 1 0 s (s.callSubroutine program) := by
  refine s.disciplined_pop (Nat.zero_le 1) fun operands stack _ => ?_
  dsimp only
  split
  · exact .bind (faultsIn_pushReturn _ _) fun returns _ => .ok rfl
  · exact ⟨.error ⟨nofun, nofun⟩, nofun⟩

theorem disciplined_returnToCaller : Disciplined 0 0 s s.returnToCaller := by
  refine .of_leaves (.bind ?_ fun ⟨pc, returns⟩ _ => .ok rfl)
  unfold ReturnStack.pop
  split
  · exact .error ⟨nofun, nofun⟩
  · exact .ok _

/-! ### Pushing, copying and exchanging -/

theorem disciplined_push (w : Word) : Disciplined 0 1 s (s.push w) where
  underflow hshort := absurd hshort (Nat.not_lt_zero _)
  overflow _ hfull := by
    rw [push, Stack.push_of_le (by unfold Stack.height at hfull; omega)]
    rfl
  goes _ hroom := .push (by omega) rfl

theorem disciplined_pushImmediate (size : Nat) :
    Disciplined 0 1 s (s.pushImmediate program size) :=
  (s.disciplined_push _).map fun _ => rfl

/-- **A copy is pushed last**: where the word is missing, the room does not matter. -/
theorem disciplined_dup (depth : Nat) : Disciplined (depth + 1) (depth + 2) s
    (do let stack ← s.stack.dup depth; .ok { s with stack }) := by
  rcases Nat.lt_or_ge depth s.stack.height with hdepth | hshort
  · rw [Stack.dup_of_lt hdepth]
    have hpush := s.disciplined_push s.stack.words[depth]
    refine ⟨fun h => by omega, fun _ hfull => hpush.overflow (Nat.zero_le _) (by omega),
      fun _ hroom => ?_⟩
    have hleaves := hpush.goes (Nat.zero_le _) (by omega)
    refine ⟨hleaves.faults, fun next hnext => ?_⟩
    have hwords : next.stack.words = s.stack.words[depth] :: s.stack.words := push_words hnext
    refine ⟨s.stack.words[depth] :: s.stack.words.take (depth + 1), ?_, ?_⟩
    · rw [List.length_cons, List.length_take]
      unfold Stack.height at hdepth
      omega
    · rw [hwords, List.cons_append, List.take_append_drop]
  · rw [Stack.dup_of_le hshort]
    exact ⟨fun _ => rfl, fun h => by omega, fun h => by omega⟩

variable {s} {next : State}

/-- What a copy does: the word at the depth is put on top. -/
theorem dup_ok {depth : Nat}
    (h : (do let stack ← s.stack.dup depth; .ok { s with stack } : Except Fault State) = .ok next) :
    ∃ w, s.stack.words[depth]? = some w ∧ next.stack.words = w :: s.stack.words := by
  unfold Stack.dup Stack.peek at h
  cases hpeek : s.stack.words[depth]? with
  | none =>
    rw [hpeek] at h
    cases h
  | some w =>
    rw [hpeek] at h
    exact ⟨w, rfl, push_words h⟩

/-- What an exchange does: top and depth change places. -/
theorem swap_ok {depth : Nat}
    (h : (do let stack ← s.stack.swap depth; .ok { s with stack } : Except Fault State) =
      .ok next) :
    ∃ top deep, s.stack.words[0]? = some top ∧ s.stack.words[depth]? = some deep ∧
      next.stack.words = (s.stack.words.set 0 deep).set depth top := by
  obtain ⟨stack, hstack, h⟩ := bind_ok h
  cases h
  unfold Stack.swap Stack.peek at hstack
  split at hstack
  · rename_i top deep htop hdeep
    cases hstack
    exact ⟨top, deep, htop, hdeep, rfl⟩
  · cases hstack

/-- The same, place by place. -/
theorem swapped {depth : Nat}
    (h : (do let stack ← s.stack.swap (depth + 1); .ok { s with stack } : Except Fault State) =
      .ok next) :
    next.stack.words[0]? = s.stack.words[depth + 1]? ∧
      next.stack.words[depth + 1]? = s.stack.words[0]? ∧
      ∀ i, i ≠ 0 → i ≠ depth + 1 → next.stack.words[i]? = s.stack.words[i]? := by
  obtain ⟨top, deep, htop, hdeep, hwords⟩ := swap_ok h
  have hdepth : depth + 1 < s.stack.words.length := (List.getElem?_eq_some_iff.1 hdeep).1
  rw [hwords]
  refine ⟨?_, ?_, fun i hi hi' => ?_⟩
  · rw [List.getElem?_set_ne (Nat.succ_ne_zero depth), List.getElem?_set_self (by omega), hdeep]
  · rw [List.getElem?_set_self (by rw [List.length_set]; exact hdepth), htop]
  · rw [List.getElem?_set_ne (Ne.symm hi'), List.getElem?_set_ne (Ne.symm hi)]

theorem disciplined_swap (s : State) (depth : Nat) : Disciplined (depth + 1) (depth + 1) s
    (do let stack ← s.stack.swap depth; .ok { s with stack }) where
  underflow hshort := by
    rw [Stack.swap_of_le (Nat.le_of_lt_succ hshort)]
    rfl
  overflow hneeds hfull := by
    have hlimit : s.stack.height ≤ stackLimit := s.stack.height_le
    omega
  goes hneeds _ := by
    refine ⟨?_, fun next hnext => ?_⟩
    · have hdepth : depth < s.stack.words.length := hneeds
      obtain ⟨stack, hstack, -⟩ := Stack.swap_of_lt hdepth (Nat.zero_lt_of_lt hdepth)
      rw [hstack]
      exact .ok _
    · obtain ⟨top, deep, -, -, hwords⟩ := swap_ok hnext
      refine ⟨next.stack.words.take (depth + 1), ?_, ?_⟩
      · rw [List.length_take, hwords, List.length_set, List.length_set]
        exact Nat.min_eq_left hneeds
      -- both places lie above what is left
      · have hbelow : s.stack.words.drop (depth + 1) = next.stack.words.drop (depth + 1) := by
          rw [hwords, List.drop_set_of_lt (Nat.lt_succ_self depth),
            List.drop_set_of_lt (Nat.succ_pos depth)]
        rw [hbelow, List.take_append_drop]

end State

/-! ## All instructions -/

/-- **Every instruction is disciplined**, but for the two that always fail. -/
theorem disciplined_execute {op : Opcode} (hinvalid : op ≠ .invalid) (hentry : op ≠ .beginSub)
    (ctx : Context) (s : State) : Disciplined op.needs op.leaves s (execute ctx op s) := by
  cases op with
  | invalid => exact absurd rfl hinvalid
  | beginSub => exact absurd rfl hentry
  | stop | jumpDest => exact .of_leaves (.ok rfl)
  | exp => exact s.disciplined_power
  | keccak256 => exact s.disciplined_hashMemory
  | callDataLoad => exact s.disciplined_loadFrom _
  | callDataCopy | codeCopy => exact s.disciplined_copyFrom _
  | pop => exact s.disciplined_drop
  | mload => exact s.disciplined_loadMemory
  | mstore | mstore8 => exact s.disciplined_storeMemory _
  | sstore => exact s.disciplined_storeSlot
  | ret | revert => exact s.disciplined_captureOutput
  | jump =>
    exact s.disciplined_pop (Nat.zero_le 1) fun operands stack _ =>
      State.leaves_jumpTo { s with stack } ctx.program _
  | jumpi => exact s.disciplined_jumpIf ctx.program
  | jumpSub => exact s.disciplined_callSubroutine ctx.program
  | returnSub => exact s.disciplined_returnToCaller
  | push n => exact s.disciplined_pushImmediate ctx.program _
  | dup n =>
    have hleaves : (Opcode.dup n).leaves = n.val + 2 := rfl
    rw [hleaves]
    exact s.disciplined_dup n
  | swap n =>
    have hleaves : (Opcode.swap n).leaves = n.val + 2 := rfl
    rw [hleaves]
    exact s.disciplined_swap (n.val + 1)
  | address | caller | callValue | callDataSize | codeSize | pc | msize | gas | push0 =>
    exact s.disciplined_push _
  | isZero | not | sload =>
    simp only [execute]
    exact s.disciplined_unary _
  | add | mul | sub | div | mod | lt | gt | eq | and | or | xor | byte | shl | shr =>
    simp only [execute]
    exact s.disciplined_binary _

/-! ## At a step -/

namespace Machine

variable {m : Machine} {s : State} {op : Opcode}

/-- Where the fee can be paid, a step ends on the fault of its instruction. -/
theorem reason?_step_iff (running : s.halted = none)
    (found : m.program.isMarked op.toByte s.pc = true)
    (known : m.table.entry? op = some (Entry.standard op)) (paid : Gas.baseFee op ≤ s.gas)
    {cause : Fault} : (m.step s).reason? = some (.fault cause) ↔
      execute m.toContext op (s.entered (Gas.baseFee op)) = .error cause := by
  have happly : (Entry.standard op).apply m.toContext { s with pc := s.pc + 1 } =
      execute m.toContext op (s.entered (Gas.baseFee op)) := Entry.apply_of_paid m.toContext paid
  rw [step_of_known running found known, reason?_apply_iff, happly]

/-- **Where it cannot, nothing else is looked at.** -/
theorem reason?_step_of_unpaid (running : s.halted = none)
    (found : m.program.isMarked op.toByte s.pc = true)
    (known : m.table.entry? op = some (Entry.standard op)) (unpaid : s.gas < Gas.baseFee op) :
    (m.step s).reason? = some (.fault .outOfGas) := by
  rw [step_of_known running found known, reason?_apply_iff]
  exact Entry.apply_of_unpaid m.toContext (Nat.not_le_of_lt unpaid)

end Machine

/-- **The discipline of the stack.** A running machine that has come to an instruction that it knows
is out of gas if it cannot pay the base fee, whatever stands on the stack. If it can, the stack
underflows exactly where it holds fewer words than are needed, and overflows exactly where it holds
them and would end up with more than 1024, so that only an instruction that grows the stack
overflows it. A success leaves the words below the ones that were needed alone, and changes the
height by what is pushed and popped. A copy puts the word of its depth on top, and an exchange lets
the top change places with the word of its depth and moves no other. No stack of a run is ever
higher than 1024 words. -/
theorem stack_discipline (m : Machine) (builtIn : m.table.IsBuiltIn) :
    (∀ s op, s.halted = none → m.program.isMarked op.toByte s.pc = true →
      (m.table.entry? op).isSome →
      let words := s.stack.words
      let after := (m.step s).state.stack.words
      let reason := (m.step s).reason?
      (s.gas < Gas.baseFee op → reason = some (.fault .outOfGas)) ∧
      (Gas.baseFee op ≤ s.gas → op ≠ .invalid → op ≠ .beginSub →
        (reason = some (.fault .stackUnderflow) ↔ words.length < op.needs) ∧
        (reason = some (.fault .stackOverflow) ↔
          op.needs ≤ words.length ∧ 1024 < words.length - op.pops + op.pushes) ∧
        (reason = some (.fault .stackOverflow) → op.pops < op.pushes) ∧
        ((m.step s).isFault = false →
          after.drop (op.needs - op.pops + op.pushes) = words.drop op.needs ∧
          after.length = words.length - op.pops + op.pushes ∧
          (∀ n, op = .dup n → ∃ w, words[n.val]? = some w ∧ after = w :: words) ∧
          (∀ n, op = .swap n → after[0]? = words[n.val + 1]? ∧ after[n.val + 1]? = words[0]? ∧
            ∀ i, i ≠ 0 → i ≠ n.val + 1 → after[i]? = words[i]?)))) ∧
    ∀ n, (m.trace (State.initial m.env) n).stack.words.length ≤ 1024 := by
  refine ⟨fun s op running found hsome => ?_, fun n => Stack.height_le _⟩
  intro words after reason
  obtain ⟨entry, known⟩ := Option.isSome_iff_exists.1 hsome
  obtain rfl := builtIn.entry_eq known
  refine ⟨Machine.reason?_step_of_unpaid running found known, fun paid hinvalid hentry => ?_⟩
  have hdiscipline := disciplined_execute hinvalid hentry m.toContext (s.entered (Gas.baseFee op))
  have hlimit : words.length ≤ 1024 := s.stack.height_le
  have hpops := op.pops_le_needs
  -- the two ways of counting agree where the words are there
  have hcount : op.needs ≤ words.length →
      words.length - op.needs + op.leaves = words.length - op.pops + op.pushes := by
    unfold Opcode.leaves
    omega
  have hover : reason = some (.fault .stackOverflow) ↔
      op.needs ≤ words.length ∧ 1024 < words.length - op.pops + op.pushes := by
    refine (Machine.reason?_step_iff running found known paid).trans ?_
    refine hdiscipline.overflow_iff.trans (and_congr_right fun hneeds => ?_)
    rw [← hcount hneeds]
    exact Iff.rfl
  refine ⟨?_, hover, fun hreason => ?_, fun hgood => ?_⟩
  · exact (Machine.reason?_step_iff running found known paid).trans
      hdiscipline.underflow_iff
  · have hfull := hover.1 hreason
    omega
  · have hop : m.performed? s = some op :=
      Machine.performed?_eq_some_iff.2 ⟨running, hgood, (Program.isMarked_iff.1 found).2⟩
    obtain ⟨entry, next, hknown, -, success, hstep⟩ :=
      Machine.execute_of_performed? builtIn.standard hop
    obtain rfl := Option.some.inj (known.symm.trans hknown)
    have hafter : after = next.stack.words := by
      show (m.step s).state.stack.words = next.stack.words
      rw [hstep]
    obtain ⟨hneeds, results, hresults, hwords⟩ := hdiscipline.words success
    have hrest : next.stack.words = results ++ words.drop op.needs := hwords
    refine ⟨?_, ?_, fun n hn => ?_, fun n hn => ?_⟩
    · rw [hafter, hrest]
      exact List.drop_left' hresults
    · rw [hafter, hrest, List.length_append, List.length_drop, hresults, Nat.add_comm]
      exact hcount hneeds
    · subst hn
      rw [hafter]
      exact State.dup_ok (s := s.entered (Gas.baseFee (.dup n))) success
    · subst hn
      rw [hafter]
      exact State.swapped (s := s.entered (Gas.baseFee (.swap n))) success

/-- A code that pushes, adds, exchanges and jumps. -/
def shufflingMachine : Machine where
  program := .load (.ofList [0x5f, 0x01, 0x90, 0x56])
  env := Environment.blank
  table := .withSubroutines

/-- The machine at an offset of its code, with some words on the stack. -/
def shufflingState (pc height : Nat) (bounded : height ≤ stackLimit) : State :=
  { State.initial shufflingMachine.env with
    pc, stack := ⟨.replicate height 1, by rwa [List.length_replicate]⟩ }

/-- On a full stack a push overflows and a sum finds its place; on a stack with a word too few an
exchange underflows, and so does a jump, which has no target to look at. -/
theorem stack_discipline_of_shuffling :
    (shufflingMachine.step (shufflingState 0 1024 (by decide))).reason? =
        some (.fault .stackOverflow) ∧
      (shufflingMachine.step (shufflingState 1 1024 (by decide))).state.stack.words.length = 1023 ∧
      (shufflingMachine.step (shufflingState 2 1 (by decide))).reason? =
        some (.fault .stackUnderflow) ∧
      (shufflingMachine.step (shufflingState 3 0 (by decide))).reason? =
        some (.fault .stackUnderflow) := by
  have hsteps := (stack_discipline shufflingMachine (.inr rfl)).1
  have hpush := (hsteps (shufflingState 0 1024 (by decide)) .push0 rfl (by decide) rfl).2
    (by decide) nofun nofun
  have hadd := (hsteps (shufflingState 1 1024 (by decide)) .add rfl (by decide) rfl).2
    (by decide) nofun nofun
  have hswap := (hsteps (shufflingState 2 1 (by decide)) (.swap 0) rfl (by decide) rfl).2
    (by decide) nofun nofun
  have hjump := (hsteps (shufflingState 3 0 (by decide)) .jump rfl (by decide) rfl).2
    (by decide) nofun nofun
  have hsum : (shufflingMachine.step (shufflingState 1 1024 (by decide))).isFault = false := by
    decide +kernel
  have hfull : ∀ pc, (shufflingState pc 1024 (by decide)).stack.words.length = 1024 :=
    fun _ => List.length_replicate
  refine ⟨hpush.2.1.2 ⟨Nat.zero_le _, ?_⟩, ?_, hswap.1.2 (by decide), hjump.1.2 (by decide)⟩
  · rw [hfull]
    decide
  · rw [(hadd.2.2.2 hsum).2.1, hfull]
    decide

end Retrace
