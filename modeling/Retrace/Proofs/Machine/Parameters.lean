import Retrace.Proofs.Machine.Coincidence
import Retrace.Proofs.Machine.Faults
/-!
# Retrace — what a run can know of its session

The parameters of a session are fixed before it starts, and a program learns of
them only by asking. Six instructions ask, each for one parameter
(`Opcode.reads?`); nothing asks for the gas limit, which is spent before the
first step. A run is therefore the same in two environments that differ only in
what it has not asked for (`parameters_flow`). An instruction that fails has
asked for nothing: it fails for want of operands, room or gas, and the value
that it would have read has no part in that (`execute_error_withEnv`).
-/

namespace Retrace

/-! ## What is read -/

/-- A parameter of a session. -/
inductive Parameter where
  | address
  | caller
  | callData
  | callValue
  | gasLimit
  deriving DecidableEq

namespace Parameter

/-- Two environments have the same value of a parameter. -/
def Agrees (env env' : Environment) : Parameter → Prop
  | .address => env.address = env'.address
  | .caller => env.caller = env'.caller
  | .callData => env.callData = env'.callData
  | .callValue => env.callValue = env'.callValue
  | .gasLimit => env.gasLimit = env'.gasLimit

end Parameter

/-- The parameter that an instruction asks for, if it asks for one. -/
def Opcode.reads? : Opcode → Option Parameter
  | .address => some .address
  | .caller => some .caller
  | .callValue => some .callValue
  | .callDataLoad | .callDataSize | .callDataCopy => some .callData
  | _ => none

/-- No instruction asks for the gas limit. -/
theorem Opcode.reads?_ne_gasLimit (op : Opcode) : op.reads? ≠ some .gasLimit := by
  cases op with
  | _ => nofun

/-! ## Failing alike -/

/-- Where the first computation fails the second fails for the same reason. -/
def FailsAs {α β : Type} (x : Except Fault α) (y : Except Fault β) : Prop :=
  ∀ cause, x = .error cause → y = .error cause

namespace FailsAs

variable {α β γ δ : Type} {x : Except Fault α} {y : Except Fault β}

/-- A part that both have in common. -/
theorem same {k : α → Except Fault γ} {l : α → Except Fault δ} (h : ∀ a, FailsAs (k a) (l a)) :
    FailsAs (x >>= k) (x >>= l) := by
  intro cause hfail
  cases x with
  | error first =>
    cases hfail
    rfl
  | ok a => exact h a cause hfail

/-- What is done with the result does not fail. -/
theorem map (h : FailsAs x y) (f : α → γ) (g : β → δ) :
    FailsAs (x >>= fun a => .ok (f a)) (y >>= fun b => .ok (g b)) := by
  intro cause hfail
  cases x with
  | error first =>
    obtain rfl : first = cause := Except.error.inj hfail
    rw [h first rfl]
    rfl
  | ok a => cases hfail

end FailsAs

namespace State

variable (s : State)

theorem failsAs_push (v w : Word) : FailsAs (s.push v) (s.push w) :=
  fun _ h => push_error_congr rfl h

/-- A load from a source fails whatever the source is. -/
theorem failsAs_loadFrom (source other : Bytes) :
    FailsAs (s.loadFrom source) (s.loadFrom other) :=
  .same fun ⟨_, popped⟩ => popped.failsAs_push _ _

theorem failsAs_storePadded (m : Memory) (offset size : Nat) (data other : Bytes) :
    FailsAs (m.storePadded offset data size) (m.storePadded offset other size) := by
  unfold Memory.storePadded
  split
  · intro cause h
    cases h
  · exact .same fun _ => .same fun _ _ h => by cases h

/-- And so does a copy: its price and its reach are in the operands. -/
theorem failsAs_copyFrom (source other : Bytes) :
    FailsAs (s.copyFrom source) (s.copyFrom other) :=
  .same fun ⟨_, _⟩ => .same fun ⟨_, _⟩ => .same fun _ => .same fun _ => .same fun paid =>
    (failsAs_storePadded paid.memory _ _ _ _).map _ _

end State

/-! ## One instruction -/

section Instructions

variable {program : Program} {env env' : Environment} {op : Opcode} {s : State}

/-- **An instruction does the same where it finds the same.** -/
theorem execute_withEnv (h : ∀ p, op.reads? = some p → p.Agrees env env') :
    execute ⟨program, env'⟩ op s = execute ⟨program, env⟩ op s := by
  cases op with
  | address =>
    have hread : env.address = env'.address := h .address rfl
    simp only [execute, hread]
  | caller =>
    have hread : env.caller = env'.caller := h .caller rfl
    simp only [execute, hread]
  | callValue =>
    have hread : env.callValue = env'.callValue := h .callValue rfl
    simp only [execute, hread]
  | callDataLoad | callDataSize | callDataCopy =>
    have hread : env.callData = env'.callData := h .callData rfl
    simp only [execute, hread]
  | _ => rfl

/-- **What an instruction would have read does not make it fail.** -/
theorem execute_error_withEnv (env' : Environment) :
    FailsAs (execute ⟨program, env⟩ op s) (execute ⟨program, env'⟩ op s) := by
  cases op with
  | address | caller | callValue | callDataSize => exact s.failsAs_push _ _
  | callDataLoad => exact s.failsAs_loadFrom _ _
  | callDataCopy => exact s.failsAs_copyFrom _ _
  | _ => exact fun _ h => h

theorem Entry.apply_error_withEnv {entry : Entry} {cause : Fault} (env' : Environment)
    (h : entry.apply ⟨program, env⟩ s = .error cause) :
    entry.apply ⟨program, env'⟩ s = .error cause :=
  FailsAs.same (x := s.charge entry.fee) (fun _ => execute_error_withEnv env') cause h

end Instructions

/-! ## Steps and runs -/

namespace Machine

variable {m : Machine} {s : State} {n : Nat}

/-- The machine in another environment. -/
def withEnv (m : Machine) (env : Environment) : Machine := { m with env }

/-- **A step depends on the environment by what it reads**, if it carries out an instruction, and
not at all if it does not. -/
theorem step_withEnv (ht : m.table.Standard) {env : Environment}
    (blind : ∀ op p, m.performed? s = some op → op.reads? = some p → p.Agrees m.env env) :
    (m.withEnv env).step s = m.step s := by
  refine step_congr rfl fun byte running found => ⟨rfl, fun entry hentry => ?_⟩
  obtain ⟨op, rfl, known⟩ := entry_of_get? hentry
  have hstep := step_of_known running found known
  cases hentered : entry.apply m.toContext { s with pc := s.pc + 1 } with
  | error cause =>
    have hfailure := Entry.apply_error_withEnv env hentered
    rw [apply_of_error hentered, apply_of_error (m := m.withEnv env) hfailure]
  | ok next =>
    -- the instruction has been carried out, and so what it has read is the same in both
    obtain ⟨paid, success⟩ := Entry.apply_ok hentered
    have happly := apply_of_ok paid success
    have hperformed := performed?_of_carried ht running found known (hstep.trans happly)
    have hreads : ∀ p, entry.action.reads? = some p → p.Agrees m.env env := by
      intro p hp
      rw [ht.action_eq known] at hp
      exact blind op p hperformed hp
    have hsuccess : execute (m.withEnv env).toContext entry.action (s.entered entry.fee) =
        .ok next := (execute_withEnv hreads).trans success
    rw [happly, apply_of_ok (m := m.withEnv env) paid hsuccess]

end Machine

/-- **Parameters reach a run only through the instructions that ask for them.** From any state, if
none of the instructions carried out by the first `n` steps asks for a parameter in which another
environment differs, the run goes the same way there: the states are the same, and so are the
outcomes of all steps. The gas limit is not asked for at all. -/
theorem parameters_flow (m : Machine) (standard : m.table.Standard) (s : State) (n : Nat) :
    (∀ env,
      (∀ i < n, ∀ op p, m.performed? (m.trace s i) = some op → op.reads? = some p →
        p.Agrees m.env env) →
      m.Coincides (m.withEnv env) s n) ∧
    ∀ limit, m.Coincides (m.withEnv { m.env with gasLimit := limit }) s n := by
  have hflow : ∀ env,
      (∀ i < n, ∀ op p, m.performed? (m.trace s i) = some op → op.reads? = some p →
        p.Agrees m.env env) →
      m.Coincides (m.withEnv env) s n :=
    fun env blind => Machine.coincides_of_step fun i hi => Machine.step_withEnv standard (blind i hi)
  refine ⟨hflow, fun limit => hflow _ fun i hi op p hop hp => ?_⟩
  cases p with
  | gasLimit => exact absurd hp op.reads?_ne_gasLimit
  | address | caller | callData | callValue => rfl

/-- A code that asks for its caller, copies from the call data with too few operands, and would ask
for the value. -/
def askingMachine : Machine where
  program := .load (.ofList [0x33, 0x50, 0x37, 0x34])
  env := .blank
  table := .withSubroutines

/-- With other call data, another value and another gas limit it still fails at the copy. -/
theorem parameters_flow_of_failed_copy :
    let s := State.initial askingMachine.env
    let env : Environment := ⟨5, 0, .ofList [0xaa], 7, 100⟩
    askingMachine.performed? s = some .caller ∧
      (askingMachine.run 4 s).reason? = some (.fault .stackUnderflow) ∧
      (askingMachine.withEnv env).run 4 s = askingMachine.run 4 s := by
  intro s env
  have hbuiltIn : askingMachine.table.IsBuiltIn := .inr rfl
  have hperformed : ∀ i < 4, askingMachine.performed? (askingMachine.trace s i) = some .caller ∨
      askingMachine.performed? (askingMachine.trace s i) = some .pop ∨
      askingMachine.performed? (askingMachine.trace s i) = none := by
    decide +kernel
  have hblind : ∀ i < 4, ∀ op p, askingMachine.performed? (askingMachine.trace s i) = some op →
      op.reads? = some p → p.Agrees askingMachine.env env := by
    intro i hi op p hop hp
    rcases hperformed i hi with h | h | h
    -- the caller is the same in both
    · obtain rfl := Option.some.inj (h.symm.trans hop)
      cases hp
      rfl
    · obtain rfl := Option.some.inj (h.symm.trans hop)
      cases hp
    · rw [h] at hop
      cases hop
  obtain ⟨hflow, -⟩ := parameters_flow askingMachine hbuiltIn.standard s 4
  exact ⟨by decide +kernel, by decide +kernel, (hflow env hblind).run_eq 4 (Nat.le_refl 4)⟩

end Retrace
