import Retrace.Machine.Step
import Retrace.Proofs.Decoding
import Retrace.Proofs.Machine.Effect
import Retrace.Proofs.Machine.Table
/-!
# Retrace — what a step can do

`Stepped` has a case for each way a step can go, with all that has been checked
by then, and `stepped` says that a step goes one of these ways. Everything that
is proved of runs is proved of the cases, once for each, and carried along the
trace by `trace_induction`. Only one case, `carried`, changes more than the
reason for halting; the instruction that was carried out there is what
`performed?` reads back.
-/

namespace Retrace

/-- The state that an entry's action meets: behind the byte, with the fee paid. -/
def State.entered (s : State) (fee : Nat) : State := { s with pc := s.pc + 1, gas := s.gas - fee }

namespace Outcome

/-- The outcome of an action that has succeeded. -/
def ofSuccess (next : State) : Option Halt → Outcome
  | some reason => .ofHalt next reason
  | none => .continued next

/-- Whether a step ended on a fault. -/
def isFault (outcome : Outcome) : Bool := outcome.reason?.any Halt.isFault

theorem state_ofSuccess (next : State) (halts : Option Halt) :
    (ofSuccess next halts).state = { next with halted := halts.or next.halted } := by
  cases halts <;> rfl

theorem reason?_ofSuccess (next : State) (halts : Option Halt) :
    (ofSuccess next halts).reason? = halts := by
  cases halts <;> rfl

theorem isFault_ofSuccess (next : State) (halts : Option Halt) :
    (ofSuccess next halts).isFault = halts.any Halt.isFault := by
  rw [isFault, reason?_ofSuccess]

end Outcome

/-! ## The ways of a step -/

/-- The ways a step can go. -/
inductive Stepped (m : Machine) (s : State) : Outcome → Prop
  /-- The machine had halted. -/
  | rested (reason : Halt) (halted : s.halted = some reason) : Stepped m s (.halted s reason)
  /-- The code has ended, and behind it stands an implicit stop. -/
  | ended (running : s.halted = none) (past : m.program.size ≤ s.pc) :
      Stepped m s (.ofHalt s .stopped)
  /-- No instruction starts here. -/
  | strayed (running : s.halted = none) (inside : ¬ m.program.Lands s.pc) :
      Stepped m s (.ofFault s (.malformedProgram s.pc))
  /-- The byte here has no entry. -/
  | unknown (running : s.halted = none) (byte : UInt8)
      (found : m.program.isMarked byte s.pc = true) (missing : m.table.get? byte = none) :
      Stepped m s (.ofFault s (.invalidOpcode byte))
  /-- The instruction here could not be carried out. -/
  | faulted (running : s.halted = none) (op : Opcode)
      (found : m.program.isMarked op.toByte s.pc = true) (entry : Entry)
      (known : m.table.entry? op = some entry) (cause : Fault)
      (failure : entry.apply m.toContext { s with pc := s.pc + 1 } = .error cause) :
      Stepped m s (.ofFault s cause)
  /-- The instruction here was carried out. -/
  | carried (running : s.halted = none) (op : Opcode)
      (found : m.program.isMarked op.toByte s.pc = true) (entry : Entry)
      (known : m.table.entry? op = some entry) (paid : entry.fee ≤ s.gas) (next : State)
      (success : execute m.toContext entry.action (s.entered entry.fee) = .ok next) :
      Stepped m s (.ofSuccess next entry.halts)

/-- An entry that can be paid for does what its action does. -/
theorem Entry.apply_of_paid {entry : Entry} {s : State} (ctx : Context) (paid : entry.fee ≤ s.gas) :
    entry.apply ctx { s with pc := s.pc + 1 } =
      execute ctx entry.action (s.entered entry.fee) := by
  have hcharge : ({ s with pc := s.pc + 1 } : State).charge entry.fee =
      .ok (s.entered entry.fee) := if_pos paid
  exact congrArg (· >>= execute ctx entry.action) hcharge

/-- An entry that cannot be paid for does nothing else. -/
theorem Entry.apply_of_unpaid {entry : Entry} {s : State} (ctx : Context)
    (unpaid : ¬ entry.fee ≤ s.gas) :
    entry.apply ctx { s with pc := s.pc + 1 } = .error .outOfGas := by
  have hcharge : ({ s with pc := s.pc + 1 } : State).charge entry.fee = .error .outOfGas :=
    if_neg unpaid
  exact congrArg (· >>= execute ctx entry.action) hcharge

/-- An entry that applies has been paid for and its action has succeeded. -/
theorem Entry.apply_ok {entry : Entry} {ctx : Context} {s next : State}
    (h : entry.apply ctx { s with pc := s.pc + 1 } = .ok next) :
    entry.fee ≤ s.gas ∧ execute ctx entry.action (s.entered entry.fee) = .ok next := by
  obtain ⟨paid, hpaid, h⟩ := bind_ok h
  obtain ⟨hle, rfl⟩ := State.charge_ok hpaid
  exact ⟨hle, h⟩

namespace Machine

variable {m : Machine} {s : State}

/-- The entry of a byte belongs to the instruction that the byte stands for. -/
theorem entry_of_get? {byte : UInt8} {entry : Entry} (h : m.table.get? byte = some entry) :
    ∃ op : Opcode, op.toByte = byte ∧ m.table.entry? op = some entry := by
  obtain ⟨op, hop, hentry⟩ := Option.bind_eq_some_iff.1 h
  exact ⟨op, Opcode.toByte_of_ofByte? hop, hentry⟩

/-- **A step goes one of its ways.** -/
theorem stepped (m : Machine) (s : State) : Stepped m s (m.step s) := by
  unfold step
  split
  · rename_i reason hhalted
    exact .rested reason hhalted
  · rename_i hrunning
    split
    · rename_i hbyte
      exact .ended hrunning (Program.byteAt?_eq_none_iff.1 hbyte)
    · rename_i byte hbyte
      split
      · rename_i hboundary
        have hfound := Program.isMarked_iff.2 ⟨hboundary, hbyte⟩
        split
        · rename_i entry hentry
          obtain ⟨op, rfl, hknown⟩ := entry_of_get? hentry
          unfold apply
          split
          · rename_i cause hfailure
            exact .faulted hrunning op hfound entry hknown cause hfailure
          · rename_i next hsuccess
            obtain ⟨hpaid, hexecute⟩ := Entry.apply_ok hsuccess
            -- an entry that halts and one that goes on are one case
            have hway := Stepped.carried hrunning op hfound entry hknown hpaid next hexecute
            cases hhalts : entry.halts <;> rw [hhalts] at hway <;> exact hway
        · rename_i hmissing
          exact .unknown hrunning byte hfound hmissing
      · rename_i hinside
        refine .strayed hrunning fun hlands => ?_
        rcases hlands with hboundary | hend
        · exact hinside hboundary
        · exact absurd (Program.lt_size_of_byteAt? hbyte) (by omega)

/-! ## Where it is known how a step goes -/

/-- A machine that has halted stays as it is. -/
theorem step_of_halted {reason : Halt} (h : s.halted = some reason) :
    m.step s = .halted s reason := by
  unfold step
  rw [h]

theorem step_of_ended (running : s.halted = none) (past : m.program.size ≤ s.pc) :
    m.step s = .ofHalt s .stopped := by
  unfold step
  rw [running, Program.byteAt?_eq_none_iff.2 past]

theorem step_of_strayed (running : s.halted = none) (short : s.pc < m.program.size)
    (inside : ¬ m.program.Lands s.pc) : m.step s = .ofFault s (.malformedProgram s.pc) := by
  obtain ⟨byte, hbyte⟩ := Program.exists_byteAt? short
  have hboundary : ¬ m.program.isBoundary s.pc = true := fun h => inside (.inl h)
  unfold step
  simp only [running, hbyte, if_neg hboundary]

theorem step_of_unknown {byte : UInt8} (running : s.halted = none)
    (found : m.program.isMarked byte s.pc = true) (missing : m.table.get? byte = none) :
    m.step s = .ofFault s (.invalidOpcode byte) := by
  obtain ⟨hboundary, hbyte⟩ := Program.isMarked_iff.1 found
  unfold step
  simp only [running, hbyte, hboundary, missing, if_true]

theorem step_of_known {op : Opcode} {entry : Entry} (running : s.halted = none)
    (found : m.program.isMarked op.toByte s.pc = true) (known : m.table.entry? op = some entry) :
    m.step s = m.apply entry s := by
  obtain ⟨hboundary, hbyte⟩ := Program.isMarked_iff.1 found
  have hget : m.table.get? op.toByte = some entry := by
    rw [Table.get?, Opcode.ofByte?_toByte]
    exact known
  unfold step
  simp only [running, hbyte, hboundary, hget, if_true]

theorem apply_of_error {entry : Entry} {cause : Fault}
    (failure : entry.apply m.toContext { s with pc := s.pc + 1 } = .error cause) :
    m.apply entry s = .ofFault s cause := by
  unfold apply
  rw [failure]

theorem apply_of_ok {entry : Entry} {next : State} (paid : entry.fee ≤ s.gas)
    (success : execute m.toContext entry.action (s.entered entry.fee) = .ok next) :
    m.apply entry s = .ofSuccess next entry.halts := by
  unfold apply
  rw [Entry.apply_of_paid m.toContext paid, success]
  cases entry.halts <;> rfl

/-! ## The instruction carried out -/

/-- The instruction that a step carries out: none in a machine that has halted, past the end of
the code, and where the step ends on a fault. -/
def performed? (m : Machine) (s : State) : Option Opcode :=
  if s.isRunning && !(m.step s).isFault then (m.program.byteAt? s.pc).bind Opcode.ofByte? else none

theorem performed?_eq_some_iff {op : Opcode} : m.performed? s = some op ↔
    s.halted = none ∧ (m.step s).isFault = false ∧ m.program.byteAt? s.pc = some op.toByte := by
  have hread : (m.program.byteAt? s.pc).bind Opcode.ofByte? = some op ↔
      m.program.byteAt? s.pc = some op.toByte := by
    constructor
    · intro h
      obtain ⟨byte, hbyte, hop⟩ := Option.bind_eq_some_iff.1 h
      rw [hbyte, Opcode.toByte_of_ofByte? hop]
    · intro h
      rw [h]
      exact Opcode.ofByte?_toByte op
  unfold performed? State.isRunning
  cases s.halted with
  | some reason => simp
  | none => cases (m.step s).isFault <;> simp [hread]

/-- **A step that carries out an instruction has come through**: the entry was known and paid for,
its action succeeded, and the step ends as the entry says. -/
theorem carried_of_performed? {op : Opcode} (h : m.performed? s = some op) :
    ∃ entry next, m.table.entry? op = some entry ∧ entry.fee ≤ s.gas ∧
      execute m.toContext entry.action (s.entered entry.fee) = .ok next ∧
      m.step s = .ofSuccess next entry.halts := by
  obtain ⟨hrunning, hfault, hbyte⟩ := performed?_eq_some_iff.1 h
  have hway := m.stepped s
  generalize m.step s = outcome at hway hfault ⊢
  -- of the ways of a step only one starts from a byte and ends without a fault
  cases hway with
  | rested reason halted => rw [hrunning] at halted; cases halted
  | ended _ past => exact absurd (Program.lt_size_of_byteAt? hbyte) (by omega)
  | strayed => cases hfault
  | unknown => cases hfault
  | faulted => cases hfault
  | carried _ other found entry known paid next success =>
    have hsame := (Program.isMarked_iff.1 found).2.symm.trans hbyte
    obtain rfl := Opcode.toByte_injective (Option.some.inj hsame)
    exact ⟨entry, next, known, paid, success, rfl⟩

/-- Under standard entries what has come through is the instruction itself. -/
theorem execute_of_performed? (ht : m.table.Standard) {op : Opcode}
    (h : m.performed? s = some op) :
    ∃ entry next, m.table.entry? op = some entry ∧ entry.fee ≤ s.gas ∧
      execute m.toContext op (s.entered entry.fee) = .ok next ∧
      (m.step s).state = { next with halted := entry.halts.or next.halted } := by
  obtain ⟨entry, next, known, paid, success, hstep⟩ := carried_of_performed? h
  rw [ht.action_eq known] at success
  refine ⟨entry, next, known, paid, success, ?_⟩
  rw [hstep, Outcome.state_ofSuccess]

/-- Under standard entries every success carries out its instruction. -/
theorem performed?_of_carried {op : Opcode} {entry : Entry} {next : State}
    (ht : m.table.Standard) (running : s.halted = none)
    (found : m.program.isMarked op.toByte s.pc = true) (known : m.table.entry? op = some entry)
    (hstep : m.step s = .ofSuccess next entry.halts) : m.performed? s = some op := by
  refine performed?_eq_some_iff.2 ⟨running, ?_, (Program.isMarked_iff.1 found).2⟩
  rw [hstep, Outcome.isFault_ofSuccess, ht.isFault_halts known]

/-- An instruction that is paid for, succeeds and does not end the run leads on to what it has made
of the state. -/
theorem continued_of_execute {op : Opcode} {entry : Entry} {next : State}
    (ht : m.table.Standard) (goes : (Entry.standard op).halts = none) (running : s.halted = none)
    (found : m.program.isMarked op.toByte s.pc = true) (known : m.table.entry? op = some entry)
    (paid : entry.fee ≤ s.gas)
    (success : execute m.toContext op (s.entered entry.fee) = .ok next) :
    m.step s = .continued next := by
  rw [← ht.action_eq known] at success
  rw [step_of_known running found known, apply_of_ok paid success, ht.halts_eq known, goes]
  rfl

/-! ## Along a run -/

/-- **What holds at first and is kept by every step holds throughout.** -/
theorem trace_induction {motive : State → Prop} (start : motive s)
    (step : ∀ t, motive t → motive (m.step t).state) : ∀ n, motive (m.trace s n)
  | 0 => start
  | n + 1 => step _ (trace_induction start step n)

/-- A trace goes on from the state after its first step. -/
theorem trace_step (m : Machine) (s : State) (n : Nat) :
    m.trace (m.step s).state n = m.trace s (n + 1) := by
  induction n with
  | zero => rfl
  | succ n ih => exact congrArg (fun t => (m.step t).state) ih

/-- **The state that a step leads to knows its outcome.** It has halted exactly where the step
has, and for the same reason. -/
theorem halted_step (m : Machine) (s : State) : (m.step s).state.halted = (m.step s).reason? := by
  have h := m.stepped s
  generalize m.step s = outcome at h ⊢
  cases h with
  | rested reason halted => exact halted
  | carried running _ _ entry _ _ next success =>
    -- the action does not halt by itself, so that the entry alone decides
    have hnext : next.halted = none := (effect_of_execute success).halted_eq.trans running
    rw [Outcome.state_ofSuccess, Outcome.reason?_ofSuccess]
    exact (congrArg entry.halts.or hnext).trans Option.or_none
  | ended | strayed | unknown | faulted => rfl

/-- **Gas is only spent.** -/
theorem gas_step_le (m : Machine) (s : State) : (m.step s).state.gas ≤ s.gas := by
  have h := m.stepped s
  generalize m.step s = outcome at h ⊢
  cases h with
  | carried _ op _ entry _ hpaid next hsuccess =>
    have hle := (effect_of_execute hsuccess).account.gas_le
    rw [Outcome.state_ofSuccess]
    exact Nat.le_trans hle (Nat.sub_le _ _)
  | rested | ended | strayed | unknown | faulted => exact Nat.le_refl _

end Machine

end Retrace
