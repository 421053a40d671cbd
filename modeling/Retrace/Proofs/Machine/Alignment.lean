import Retrace.Proofs.Machine.Faults
import Retrace.Proofs.Machine.Step
/-!
# Retrace — a machine stays in step with its program

A program is decoded once, and a machine could stand between the instructions
found there only if something put it there. Two invariants say that nothing
does. Under any table `pc` and the recorded return offsets stay inside the code
or at its end (`State.Inside`). Where every entry carries out its own
instruction, they stay where instructions start, and what is recorded is behind
a call (`State.InStep`); hence the fault of a machine out of step never arises.
The table matters: an entry that carries out another instruction need not pass
the immediate bytes of its own.
-/

namespace Retrace

/-! ## Inside the code -/

/-- Neither `pc` nor any recorded offset lies beyond the end of the code. -/
structure State.Inside (p : Program) (s : State) : Prop where
  pc : s.pc ≤ p.size
  returns : ∀ r ∈ s.returns.offsets, r ≤ p.size

/-- No instruction leaves the code. -/
theorem Effect.inside {p : Program} {op : Opcode} {s next : State} (h : Effect p op s next)
    (hs : s.Inside p) : next.Inside p := by
  cases h with
  | quiet | metered | stored | captured | passed => exact ⟨hs.pc, hs.returns⟩
  | pushed => exact ⟨Nat.min_le_right _ _, hs.returns⟩
  | jumped _ _ pc target => exact ⟨Nat.le_of_lt (Program.lt_size_of_isMarked target), hs.returns⟩
  | called _ _ returns entry target resume =>
    refine ⟨Program.lt_size_of_isMarked target, fun r hr => ?_⟩
    rw [resume] at hr
    rcases List.mem_cons.1 hr with rfl | hr
    · exact hs.pc
    · exact hs.returns r hr
  | returned _ returns pc resume =>
    refine ⟨hs.returns pc ?_, fun r hr => hs.returns r ?_⟩
    · rw [resume]
      exact List.mem_cons_self
    · rw [resume]
      exact List.mem_cons_of_mem _ hr

/-- **Whatever the table, no step leaves the code.** -/
theorem State.Inside.step {m : Machine} {s : State} (hs : s.Inside m.program) :
    (m.step s).state.Inside m.program := by
  have h := m.stepped s
  generalize m.step s = outcome at h ⊢
  cases h with
  | carried _ op found entry _ _ next success =>
    have hentered : (s.entered entry.fee).Inside m.program :=
      ⟨Program.lt_size_of_isMarked found, hs.returns⟩
    have hnext := (effect_of_execute success).inside hentered
    rw [Outcome.state_ofSuccess]
    exact ⟨hnext.pc, hnext.returns⟩
  | rested | ended | strayed | unknown | faulted => exact ⟨hs.pc, hs.returns⟩

/-! ## In step -/

/-- An offset at which a caller may resume: it lies right behind a call. -/
def Program.Resumes (p : Program) (r : Nat) : Prop :=
  p.Lands r ∧ ∃ call, r = call + 1 ∧ p.isMarked Opcode.jumpSub.toByte call = true

/-- The machine stands where an instruction starts, callers resume behind their calls, and no
step has found it elsewhere. -/
structure State.InStep (p : Program) (s : State) : Prop where
  pc : p.Lands s.pc
  returns : ∀ r ∈ s.returns.offsets, p.Resumes r
  halted : ∀ pc, s.halted ≠ some (.fault (.malformedProgram pc))

/-- **Each way of moving `pc` restores the alignment**, for the instruction that stands right
before it. -/
theorem Effect.inStep {p : Program} {op : Opcode} {s next : State} {pc : Nat}
    (h : Effect p op s next) (found : p.isMarked op.toByte pc = true) (hpc : s.pc = pc + 1)
    (hs : ∀ r ∈ s.returns.offsets, p.Resumes r) :
    p.Lands next.pc ∧ ∀ r ∈ next.returns.offsets, p.Resumes r := by
  -- what leaves `pc` alone leaves it behind the instruction byte, which will do for all but a push
  have hbehind : (∀ n, op ≠ .push n) → p.Lands s.pc :=
    fun hpush => hpc ▸ Program.lands_behind found hpush
  cases h with
  | quiet kind | metered kind =>
    exact ⟨hbehind (by rintro n rfl; cases kind), hs⟩
  | stored kind | passed kind => exact ⟨hbehind (by rintro n rfl; cases kind), hs⟩
  | captured kind => exact ⟨hbehind (by rintro n rfl; rcases kind with kind | kind <;> cases kind), hs⟩
  | pushed n kind =>
    subst kind
    obtain ⟨hboundary, hbyte⟩ := Program.isMarked_iff.1 found
    have hnext := Program.lands_next hboundary hbyte
    rw [Opcode.immediateSize_toByte, ← hpc] at hnext
    exact ⟨hnext, hs⟩
  | jumped _ _ target marked => exact ⟨.inl (Program.isMarked_iff.1 marked).1, hs⟩
  | called kind _ returns entry target resume =>
    subst kind
    -- a call goes past the entry, an instruction without immediate bytes
    have hentry : p.isMarked Opcode.beginSub.toByte entry = true := target
    refine ⟨Program.lands_behind hentry nofun, fun r hr => ?_⟩
    rw [resume] at hr
    rcases List.mem_cons.1 hr with rfl | hr
    · exact ⟨hbehind nofun, pc, hpc, found⟩
    · exact hs r hr
  | returned _ returns target resume =>
    rw [resume] at hs
    exact ⟨(hs target List.mem_cons_self).1, fun r hr => hs r (List.mem_cons_of_mem _ hr)⟩

/-- An entry that fails does so on a fault of an instruction. -/
theorem Entry.faultsIn_apply (entry : Entry) (ctx : Context) (s : State) :
    FaultsIn Fault.IsInstructionFault (entry.apply ctx s) :=
  .bind ((faultsIn_charge s entry.fee).ofGas.mono fun _ hcause => hcause.2)
    fun paid => faultsIn_execute ctx entry.action paid

namespace State.InStep

variable {m : Machine} {s : State}

/-- A machine in step does not find itself out of step. -/
theorem reason?_ne (hs : s.InStep m.program) (ht : m.table.Standard) (pc : Nat) :
    (m.step s).reason? ≠ some (.fault (.malformedProgram pc)) := by
  have h := m.stepped s
  generalize m.step s = outcome at h ⊢
  cases h with
  | rested reason halted => exact fun heq => hs.halted pc (halted.trans heq)
  | ended => exact nofun
  | strayed _ inside => exact absurd hs.pc inside
  | unknown => exact nofun
  | faulted _ op _ entry _ cause failure =>
    rintro heq
    cases heq
    exact entry.faultsIn_apply m.toContext _ _ failure pc rfl
  | carried _ op _ entry known =>
    rw [Outcome.reason?_ofSuccess]
    exact ht.haltsCleanly.halts_ne known _

/-- **A step keeps a machine in step**, where entries carry out their own instructions. -/
theorem step (hs : s.InStep m.program) (ht : m.table.Standard) :
    (m.step s).state.InStep m.program := by
  have hplace : m.program.Lands (m.step s).state.pc ∧
      ∀ r ∈ (m.step s).state.returns.offsets, m.program.Resumes r := by
    have h := m.stepped s
    generalize m.step s = outcome at h ⊢
    cases h with
    | carried _ op found entry known _ next success =>
      have heffect := effect_of_execute success
      rw [ht.action_eq known] at heffect
      rw [Outcome.state_ofSuccess]
      exact heffect.inStep found rfl hs.returns
    | rested | ended | strayed | unknown | faulted => exact ⟨hs.pc, hs.returns⟩
  refine ⟨hplace.1, hplace.2, fun pc => ?_⟩
  rw [m.halted_step s]
  exact hs.reason?_ne ht pc

end State.InStep

/-! ## Along a run -/

theorem State.inside_initial (p : Program) (env : Environment) : (initial env).Inside p :=
  ⟨Nat.zero_le _, fun _ hr => absurd hr List.not_mem_nil⟩

theorem State.inStep_initial (p : Program) (env : Environment) : (initial env).InStep p :=
  ⟨p.lands_zero, fun _ hr => absurd hr List.not_mem_nil, fun _ => nofun⟩

theorem Machine.inside_trace (m : Machine) (n : Nat) :
    (m.trace (State.initial m.env) n).Inside m.program :=
  trace_induction (motive := State.Inside m.program) (State.inside_initial _ _)
    (fun _ hs => hs.step) n

theorem Machine.inStep_trace (m : Machine) (ht : m.table.Standard) (n : Nat) :
    (m.trace (State.initial m.env) n).InStep m.program :=
  trace_induction (motive := State.InStep m.program) (State.inStep_initial _ _)
    (fun _ hs => hs.step ht) n

/-- **A run never finds itself out of step.** Under any table `pc` stays inside the code or at its
end. Under a built-in one, with whatever entries removed and fees changed, `pc` and the recorded
offsets stay where instructions start or the code ends, each recorded offset is behind a call,
and no step halts for want of an instruction. -/
theorem trace_in_step (m : Machine) (n : Nat) :
    let s := m.trace (State.initial m.env) n
    s.pc ≤ m.program.size ∧
    (m.table.Standard →
      (m.program.isBoundary s.pc = true ∨ s.pc = m.program.size) ∧
      (∀ r ∈ s.returns.offsets, (m.program.isBoundary r = true ∨ r = m.program.size) ∧
        ∃ call, r = call + 1 ∧ m.program.isBoundary call = true ∧
          m.program.byteAt? call = some 0x5e) ∧
      ∀ pc, (m.step s).reason? ≠ some (.fault (.malformedProgram pc))) := by
  refine ⟨(m.inside_trace n).pc, fun ht => ?_⟩
  have hs := m.inStep_trace ht n
  refine ⟨hs.pc, fun r hr => ?_, hs.reason?_ne ht⟩
  obtain ⟨hlands, call, hcall, hmarked⟩ := hs.returns r hr
  exact ⟨hlands, call, hcall, Program.isMarked_iff.1 hmarked⟩

/-- A code that calls a subroutine at offset four, on a table without the first arithmetic
instruction and with a dearer return. -/
def callingMachine : Machine where
  program := .load (.ofList [0x60, 0x04, 0x5e, 0x00, 0x5c, 0x5d])
  env := .blank
  table := (Table.withSubroutines.erase 0x01).insert .returnSub
    { Entry.standard .returnSub with fee := 7 }

/-- Inside the subroutine the caller is to resume at offset three, behind its call. -/
theorem trace_in_step_of_call :
    callingMachine.table.Standard ∧
    (callingMachine.trace (State.initial callingMachine.env) 2).returns.offsets = [3] ∧
    ∃ call, 3 = call + 1 ∧ callingMachine.program.byteAt? call = some 0x5e := by
  have hbuiltIn : Table.withSubroutines.IsBuiltIn := .inr rfl
  have ht : callingMachine.table.Standard := (hbuiltIn.standard.erase 0x01).reprice rfl 7
  have hreturns :
      (callingMachine.trace (State.initial callingMachine.env) 2).returns.offsets = [3] := by
    decide +kernel
  obtain ⟨-, call, hcall, -, hbyte⟩ := ((trace_in_step callingMachine 2).2 ht).2.1 3
    (hreturns ▸ List.mem_cons_self)
  exact ⟨ht, hreturns, call, hcall, hbyte⟩

end Retrace
