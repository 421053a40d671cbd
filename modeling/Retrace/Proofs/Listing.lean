import Retrace.Listing
import Retrace.Proofs.Machine.Accounts
/-!
# Retrace — a listing foretells the step

The rows of a listing are cut by the decoding, while each instruction moves
`pc` by itself and a push reads its own immediate bytes. At a boundary the two
agree: the first row shows the instruction that a step carries out, with the
fee that it pays and the bytes that it pushes, and the second row shows where
the step leads (`rows_foretell`), unless the instruction goes elsewhere
(`Opcode.Diverts`). Both sides of it are an offset cut at the end of the code:
`start_rows` says so of a listing, `pc_step` of a step.
-/

namespace Retrace

/-! ## Rows -/

namespace Listing

variable {table : Table} {program : Program} {offset : Nat} {byte : UInt8}

theorem rows_of_byteAt? (height : Nat) (h : program.byteAt? offset = some byte) :
    rows table program (height + 1) offset =
      row table program offset byte :: rows table program height (following program offset) := by
  rw [rows, h]

/-- A listing starts at the offset asked for, or shows nothing where the code has ended. -/
theorem start_rows (table : Table) (program : Program) (height offset : Nat) :
    ((rows table program (height + 1) offset)[0]?.map Row.offset).getD program.size =
      min offset program.size := by
  cases hbyte : program.byteAt? offset with
  | none =>
    rw [rows, hbyte, Nat.min_eq_right (Program.byteAt?_eq_none_iff.1 hbyte)]
    rfl
  | some byte =>
    rw [rows_of_byteAt? height hbyte,
      Nat.min_eq_left (Nat.le_of_lt (Program.lt_size_of_byteAt? hbyte))]
    rfl

/-- Behind an instruction stand its immediate bytes, and then the next row. -/
theorem following_of_isMarked (found : program.isMarked byte offset = true) :
    following program offset = offset + 1 + Opcode.immediateSize byte := by
  rw [following, Program.instructionLength_of_isMarked found]
  omega

theorem fee_row_eq_none_iff : (row table program offset byte).fee = none ↔
    table.get? byte = none := Option.map_eq_none_iff

/-- **The immediate that a row shows**, continued with zeros, is what a push reads behind its
byte. -/
theorem window_eq_immediate (table : Table) (fits : program.size < quantityBound)
    (found : program.isMarked byte offset = true) (hpush : Opcode.immediateSize byte ≠ 0) :
    let shown := (row table program offset byte).immediate
    Bytes.window program.code (offset + 1) (Opcode.immediateSize byte) =
      shown ++ Bytes.zeros (Opcode.immediateSize byte - shown.size) := by
  have hbound : program.code.size ≤ maxQuantity := Nat.le_sub_one_of_lt fits
  have hstop : offset + (Opcode.immediateSize byte + 1) =
      offset + 1 + Opcode.immediateSize byte := by omega
  have hshown : (row table program offset byte).immediate =
      Bytes.slice program.code (offset + 1) (offset + 1 + Opcode.immediateSize byte) := by
    rw [row, if_neg hpush, Program.immediate, Program.nextOffset,
      Program.instructionLength_of_isMarked found, Bytes.slice_min_stop hbound, hstop]
  intro shown
  rw [show shown = _ from hshown, Bytes.window]

end Listing

/-! ## Where a step leads -/

namespace Opcode

/-- An instruction that goes elsewhere than behind itself: a jump, if it is taken. -/
def Diverts (op : Opcode) (s : State) : Prop :=
  op = .jump ∨ (op = .jumpi ∧ s.operand 1 ≠ 0) ∨ op = .jumpSub ∨ op = .returnSub

end Opcode

namespace State

variable {s next : State} {program : Program}

/-- A jump whose condition is zero is not taken. -/
theorem jumpIf_pc (h : s.jumpIf program = .ok next) (hzero : s.operand 1 = 0) :
    next.pc = s.pc := by
  obtain ⟨⟨operands, popped⟩, hpop, h⟩ := bind_ok h
  obtain ⟨hoperands, stack, rfl⟩ := pop_ok hpop
  dsimp only at h
  rw [hoperands 1 (by omega), if_pos hzero] at h
  cases h
  rfl

theorem pushImmediate_words {size : Nat} (h : s.pushImmediate program size = .ok next) :
    next.stack.words = Word.ofBytes (Bytes.window program.code s.pc size) :: s.stack.words := by
  obtain ⟨pushed, hpushed, h⟩ := bind_ok h
  have hwords := push_words hpushed
  cases h
  exact hwords

end State

/-- **What does not divert goes on behind its immediate bytes**, or to the end of the code. -/
theorem pc_of_execute {ctx : Context} {op : Opcode} {s next : State}
    (h : execute ctx op s = .ok next) (inside : s.pc ≤ ctx.program.size)
    (stays : ¬ op.Diverts s) :
    next.pc = min (s.pc + Opcode.immediateSize op.toByte) ctx.program.size := by
  -- all but the pushes leave `pc` where it is, right behind their byte
  have hkept : (∀ n, op ≠ .push n) → s.pc =
      min (s.pc + Opcode.immediateSize op.toByte) ctx.program.size := by
    intro hpush
    rw [Opcode.immediateSize_toByte_of_ne hpush, Nat.add_zero, Nat.min_eq_left inside]
  cases effect_of_execute h with
  | quiet kind | metered kind => exact hkept (by rintro n rfl; cases kind)
  | stored kind | passed kind => exact hkept (by rintro n rfl; cases kind)
  | captured kind => exact hkept (by rintro n rfl; rcases kind with kind | kind <;> cases kind)
  | pushed n kind =>
    subst kind
    rw [Opcode.immediateSize_toByte]
  | jumped kind =>
    rcases kind with rfl | rfl
    · exact absurd (.inl rfl) stays
    · have hzero : s.operand 1 = 0 :=
        Decidable.byContradiction fun hne => stays (.inr (.inl ⟨rfl, hne⟩))
      exact (State.jumpIf_pc h hzero).trans (hkept nofun)
  | called kind => exact absurd (.inr (.inr (.inl kind))) stays
  | returned kind => exact absurd (.inr (.inr (.inr kind))) stays

namespace Machine

variable {m : Machine} {s : State} {op : Opcode}

theorem pc_step (ht : m.table.Standard) (h : m.performed? s = some op) (stays : ¬ op.Diverts s) :
    (m.step s).state.pc =
      min (s.pc + 1 + Opcode.immediateSize op.toByte) m.program.size := by
  obtain ⟨entry, next, -, -, success, hstep⟩ := execute_of_performed? ht h
  have hinside := Program.lt_size_of_byteAt? (performed?_eq_some_iff.1 h).2.2
  rw [hstep]
  exact pc_of_execute success hinside stays

/-- A push puts on top the word that stands behind its byte. -/
theorem words_step_push {n : Fin 32} (ht : m.table.Standard)
    (h : m.performed? s = some (.push n)) :
    (m.step s).state.stack.words =
      Word.ofBytes (Bytes.window m.program.code (s.pc + 1) (n.val + 1)) :: s.stack.words := by
  obtain ⟨entry, next, -, -, success, hstep⟩ := execute_of_performed? ht h
  have hpushed : (s.entered entry.fee).pushImmediate m.program (n.val + 1) = .ok next := success
  have hwords := State.pushImmediate_words hpushed
  rw [hstep]
  exact hwords

end Machine

/-! ## The two together -/

/-- **A listing foretells the step.** At a boundary the first row of a listing stands for the
instruction there. It shows no fee exactly where the table knows no entry, and then the step
faults on the byte. Where the step succeeds, the fee shown is what it pays besides handling and
the growth of memory; a push puts the immediate shown on the stack, continued with zeros; and
unless the instruction diverts, the second row, or the end of the code where there is none, is
where the step leads. That the size of the code is a 64-bit quantity matters to the immediate,
which is cut at an offset of that width. -/
theorem rows_foretell (m : Machine) (standard : m.table.Standard)
    (fits : m.program.size < quantityBound) {s : State} (running : s.halted = none)
    (boundary : m.program.isBoundary s.pc = true) {height : Nat} (tall : 2 ≤ height) :
    let rows := Listing.rows m.table m.program height s.pc
    let next := (m.step s).state
    ∃ byte row, m.program.byteAt? s.pc = some byte ∧ rows[0]? = some row ∧ row.offset = s.pc ∧
      (row.fee = none ↔ m.table.get? byte = none) ∧
      (row.fee = none → m.step s = .ofFault s (.invalidOpcode byte)) ∧
      ((m.step s).isFault = false → ∃ (op : Opcode) (fee : Nat),
        op.toByte = byte ∧ row.fee = some fee ∧
        (s.gas : Int) - next.gas = fee + op.handling s +
          Gas.idealPrice (next.memory.size / 32) - Gas.idealPrice (s.memory.size / 32) ∧
        (∀ n : Fin 32, op = .push n → next.stack.words =
          Word.ofBytes (row.immediate ++ Bytes.zeros (n.val + 1 - row.immediate.size)) ::
            s.stack.words) ∧
        (¬ op.Diverts s → next.pc = (rows[1]?.map Row.offset).getD m.program.size)) := by
  obtain ⟨byte, hbyte⟩ := Program.exists_byteAt? (Program.lt_size_of_isBoundary boundary)
  have hfound := Program.isMarked_iff.2 ⟨boundary, hbyte⟩
  obtain ⟨below, rfl⟩ := Nat.exists_eq_add_of_le' tall
  intro rows next
  have hrows : rows = Listing.row m.table m.program s.pc byte ::
      Listing.rows m.table m.program (below + 1) (Listing.following m.program s.pc) :=
    Listing.rows_of_byteAt? (below + 1) hbyte
  have hunknown : (Listing.row m.table m.program s.pc byte).fee = none →
      m.step s = .ofFault s (.invalidOpcode byte) := fun hfee =>
    Machine.step_of_unknown running hfound (Listing.fee_row_eq_none_iff.1 hfee)
  refine ⟨byte, Listing.row m.table m.program s.pc byte, hbyte, by rw [hrows]; rfl, rfl,
    Listing.fee_row_eq_none_iff, hunknown, fun hsuccess => ?_⟩
  -- what succeeds has an entry, hence an instruction that it performs
  obtain ⟨entry, hentry⟩ : ∃ entry, m.table.get? byte = some entry := by
    refine Option.ne_none_iff_exists'.1 fun hmissing => ?_
    rw [Machine.step_of_unknown running hfound hmissing] at hsuccess
    cases hsuccess
  obtain ⟨op, rfl, hknown⟩ := Machine.entry_of_get? hentry
  have hop : m.performed? s = some op :=
    Machine.performed?_eq_some_iff.2 ⟨running, hsuccess, hbyte⟩
  refine ⟨op, entry.fee, rfl, by rw [Listing.row, hentry]; rfl,
    Machine.gas_of_performed? standard hknown hop, ?_, fun hstays => ?_⟩
  · rintro n rfl
    have hsize : Opcode.immediateSize (Opcode.push n).toByte = n.val + 1 :=
      Opcode.immediateSize_toByte _
    have hshown := Listing.window_eq_immediate m.table fits hfound (by omega)
    rw [hsize] at hshown
    rw [← hshown]
    exact Machine.words_step_push standard hop
  · calc next.pc = min (Listing.following m.program s.pc) m.program.size := by
          rw [Listing.following_of_isMarked hfound]
          exact Machine.pc_step standard hop hstays
      _ = (rows[1]?.map Row.offset).getD m.program.size := by
          rw [hrows, List.getElem?_cons_succ, Listing.start_rows]

/-- A code that ends inside the immediate of its last push. -/
def truncatedMachine : Machine where
  program := .load (.ofList [0x60, 0x01, 0x62, 0xaa])
  env := .blank
  table := .reference

/-- The row of that push shows the one byte there is; the word pushed has it in front of two
zeros, and no row follows. -/
theorem rows_foretell_of_truncated :
    let s := truncatedMachine.trace (State.initial truncatedMachine.env) 1
    let rows := Listing.rows truncatedMachine.table truncatedMachine.program 2 s.pc
    let next := (truncatedMachine.step s).state
    s.halted = none ∧ truncatedMachine.program.isBoundary s.pc = true ∧
      rows = [⟨2, "PUSH3", some 3, .ofList [0xaa]⟩] ∧ (s.gas : Int) - next.gas = 3 ∧
      next.stack.words = [0xaa0000, 1] ∧ next.pc = 4 := by
  intro s rows next
  have hrunning : s.halted = none := by decide +kernel
  have hboundary : truncatedMachine.program.isBoundary s.pc = true := by decide +kernel
  have hrows : rows = [⟨2, "PUSH3", some 3, .ofList [0xaa]⟩] := by decide +kernel
  have hbyte : truncatedMachine.program.byteAt? s.pc = some (Opcode.push 2).toByte := by
    decide +kernel
  have hsuccess : (truncatedMachine.step s).isFault = false := by decide +kernel
  have hmemory : next.memory.size = 0 ∧ s.memory.size = 0 := by decide +kernel
  have hstack : s.stack.words = [1] := by decide +kernel
  obtain ⟨byte, row, hfound, hrow, -, -, -, hforetold⟩ :=
    rows_foretell truncatedMachine (Table.IsBuiltIn.standard (.inl rfl)) (by decide +kernel)
      hrunning hboundary (Nat.le_refl 2)
  obtain ⟨op, fee, rfl, hfee, hgas, hwords, hpc⟩ := hforetold hsuccess
  obtain rfl := Opcode.toByte_injective (Option.some.inj (hfound.symm.trans hbyte))
  rw [show Listing.rows _ _ 2 s.pc = _ from hrows] at hrow hpc
  cases hrow
  cases hfee
  rw [hmemory.1, hmemory.2] at hgas
  refine ⟨hrunning, hboundary, hrows, hgas, ?_, hpc ?_⟩
  · rw [show next.stack.words = _ from hwords 2 rfl, hstack]
    decide +kernel
  · rintro (h | ⟨h, -⟩ | h | h) <;> cases h

end Retrace
