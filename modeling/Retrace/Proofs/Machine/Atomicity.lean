import Retrace.Proofs.Machine.Faults
import Retrace.Proofs.Machine.Step
/-!
# Retrace — a step that fails leaves no trace

A handler may have popped operands, paid, grown memory or moved `pc` before it
fails. None of that is to be seen: a fault is the state that the step met, with
the reason put down (`step_eq_ofFault`), whatever the table carries out under
which byte, as long as no entry halts on a fault of its own accord. What a step
says about its outcome is what the state that it leads to says, so that nothing
is lost where only the state is kept. A byte is refused by name in two ways
only: the table has no entry for it, or the entry carries out the instruction
that is defined to fail (`invalidOpcode_iff`).
-/

namespace Retrace

namespace Machine

variable {m : Machine} {s : State}

/-! ## What a fault leaves behind -/

/-- **A fault changes nothing but the reason for halting.** -/
theorem step_eq_ofFault (ht : m.table.HaltsCleanly) (running : s.halted = none) {cause : Fault}
    (h : (m.step s).reason? = some (.fault cause)) : m.step s = .ofFault s cause := by
  have hway := m.stepped s
  generalize m.step s = outcome at hway h ⊢
  cases hway with
  | rested reason halted =>
    rw [running] at halted
    cases halted
  | ended => cases h
  | strayed | unknown | faulted =>
    cases h
    rfl
  | carried _ op _ entry known =>
    rw [Outcome.reason?_ofSuccess] at h
    exact absurd h (ht.halts_ne known cause)

/-! ## Bytes that are refused -/

/-- The instruction that is defined to fail names the byte that stands before `pc`. -/
theorem apply_eq_invalidOpcode {entry : Entry} {byte : UInt8}
    (hbyte : m.program.byteAt? s.pc = some byte) (hinvalid : entry.action = .invalid)
    (paid : entry.fee ≤ s.gas) :
    entry.apply m.toContext { s with pc := s.pc + 1 } = .error (.invalidOpcode byte) := by
  have hoffset : (s.entered entry.fee).instructionOffset = s.pc := Nat.add_sub_cancel s.pc 1
  rw [Entry.apply_of_paid m.toContext paid, hinvalid, execute, State.refuse, hoffset, hbyte]
  rfl

/-- An entry that refuses a byte by name has been paid for and is defined to fail. -/
theorem invalid_of_apply {entry : Entry} {byte : UInt8}
    (failure : entry.apply m.toContext { s with pc := s.pc + 1 } =
      .error (.invalidOpcode byte)) : entry.action = .invalid ∧ entry.fee ≤ s.gas := by
  by_cases paid : entry.fee ≤ s.gas
  · rw [Entry.apply_of_paid m.toContext paid] at failure
    by_cases hinvalid : entry.action = .invalid
    · exact ⟨hinvalid, paid⟩
    · exact absurd rfl ((faultsIn_execute_of_ne_invalid hinvalid _ _ _ failure).1 byte)
  · rw [Entry.apply_of_unpaid m.toContext paid] at failure
    cases failure

/-- **A step refuses a byte by name** where the table has no entry for it or one that is defined
to fail and can be paid for; and it names the byte that stands there. -/
theorem invalidOpcode_iff (ht : m.table.HaltsCleanly) (running : s.halted = none) {byte : UInt8}
    (found : m.program.isMarked byte s.pc = true) (named : UInt8) :
    (m.step s).reason? = some (.fault (.invalidOpcode named)) ↔
      named = byte ∧ (m.table.get? byte = none ∨
        ∃ entry, m.table.get? byte = some entry ∧ entry.action = .invalid ∧ entry.fee ≤ s.gas) := by
  have hbyte := (Program.isMarked_iff.1 found).2
  constructor
  · intro h
    have hway := m.stepped s
    generalize m.step s = outcome at hway h
    cases hway with
    | rested reason halted =>
      rw [running] at halted
      cases halted
    | ended | strayed => cases h
    | unknown _ other found' missing =>
      cases h
      obtain rfl := Option.some.inj ((Program.isMarked_iff.1 found').2.symm.trans hbyte)
      exact ⟨rfl, .inl missing⟩
    | faulted _ op found' entry known cause failure =>
      cases h
      obtain rfl := Option.some.inj ((Program.isMarked_iff.1 found').2.symm.trans hbyte)
      obtain ⟨hinvalid, paid⟩ := invalid_of_apply failure
      rw [apply_eq_invalidOpcode hbyte hinvalid paid] at failure
      cases failure
      have hget : m.table.get? op.toByte = some entry := by
        rw [Table.get?, Opcode.ofByte?_toByte]
        exact known
      exact ⟨rfl, .inr ⟨entry, hget, hinvalid, paid⟩⟩
    | carried _ op _ entry known =>
      rw [Outcome.reason?_ofSuccess] at h
      exact absurd h (ht.halts_ne known _)
  · rintro ⟨rfl, missing | ⟨entry, hget, hinvalid, paid⟩⟩
    · rw [step_of_unknown running found missing]
      rfl
    · obtain ⟨op, rfl, known⟩ := entry_of_get? hget
      rw [step_of_known running found known,
        apply_of_error (apply_eq_invalidOpcode hbyte hinvalid paid)]
      rfl

end Machine

/-- **Faults are atomic and outcomes coherent.** Under a table of any actions, no entry of which
halts on a fault: a step that continues leads to a running state and one that halts to a state
halted for the same reason; a running machine that halts on a fault is left as it was but for
the reason; one that has halted stays as it is; and a running machine where an instruction starts
halts on an invalid opcode exactly where the byte has no entry, or one that carries out the
instruction defined to fail and can be paid for, and then it names that byte. -/
theorem faults_atomic (m : Machine) (clean : m.table.HaltsCleanly) (s : State) :
    (∀ t, m.step s = .continued t → t.halted = none) ∧
    (∀ t reason, m.step s = .halted t reason → t.halted = some reason) ∧
    (s.halted = none → ∀ t cause, m.step s = .halted t (.fault cause) →
      t = { s with halted := some (.fault cause) }) ∧
    (∀ reason, s.halted = some reason → m.step s = .halted s reason) ∧
    ∀ byte, s.halted = none → m.program.isBoundary s.pc = true →
      m.program.byteAt? s.pc = some byte → ∀ named,
      ((m.step s).reason? = some (.fault (.invalidOpcode named)) ↔
        named = byte ∧ (m.table.get? byte = none ∨ ∃ entry, m.table.get? byte = some entry ∧
          entry.action = .invalid ∧ entry.fee ≤ s.gas)) := by
  have hhalted := m.halted_step s
  refine ⟨fun t h => ?_, fun t reason h => ?_, fun running t cause h => ?_,
    fun reason halted => Machine.step_of_halted halted,
    fun byte running boundary hbyte =>
      Machine.invalidOpcode_iff clean running (Program.isMarked_iff.2 ⟨boundary, hbyte⟩)⟩
  · rw [h] at hhalted
    exact hhalted
  · rw [h] at hhalted
    exact hhalted
  · have hreason : (m.step s).reason? = some (.fault cause) := by rw [h]; rfl
    have hfault := Machine.step_eq_ofFault clean running hreason
    rw [h] at hfault
    cases hfault
    rfl

/-- A code of one addition, on a table that refuses additions at a fee of seven. -/
def refusingMachine : Machine where
  program := .load (.ofList [0x01])
  env := .blank
  table := Table.reference.insert .add { fee := 7, action := .invalid, halts := some .stopped }

/-- The addition is refused by its byte, and the seven units are still there. -/
theorem faults_atomic_of_refusal :
    let s := State.initial refusingMachine.env
    let refused := Halt.fault (.invalidOpcode 0x01)
    refusingMachine.table.HaltsCleanly ∧
      refusingMachine.step s = .halted { s with halted := some refused } refused := by
  intro s refused
  have hbuiltIn : Table.reference.IsBuiltIn := .inl rfl
  have hclean : refusingMachine.table.HaltsCleanly :=
    hbuiltIn.standard.haltsCleanly.insert .add rfl
  obtain ⟨-, -, hatomic, -, hnamed⟩ := faults_atomic refusingMachine hclean s
  have hreason : (refusingMachine.step s).reason? = some refused :=
    (hnamed 0x01 rfl (by decide +kernel) (by decide +kernel) 0x01).2
      ⟨rfl, .inr ⟨_, rfl, rfl, by decide⟩⟩
  refine ⟨hclean, ?_⟩
  cases hstep : refusingMachine.step s with
  | continued t =>
    rw [hstep] at hreason
    cases hreason
  | halted t reason =>
    rw [hstep] at hreason
    obtain rfl := Option.some.inj hreason
    rw [hatomic rfl t _ hstep]

end Retrace
