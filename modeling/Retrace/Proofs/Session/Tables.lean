import Retrace.Proofs.Machine.Coincidence
import Retrace.Proofs.Session.Log
/-!
# Retrace — more instructions change nothing that was known

A table that gains entries leaves every run alone that did not miss them. The
run need not know: what the larger table adds may stand in the code, inside an
immediate or where the run never comes to, and stays without effect. For the
two built-in tables the bytes in question are three. A run without subroutines
that is not refused one of these is the same run with them, and a history of it
is the same history, record by record.
-/

namespace Retrace

/-! ## Tables that are extended -/

namespace Table

/-- The second table has the entries of the first, unchanged. -/
def Extends (t t' : Table) : Prop :=
  ∀ byte entry, t.get? byte = some entry → t'.get? byte = some entry

/-- The bytes that only the table with subroutines knows. -/
def subroutineBytes : List UInt8 := [0x5c, 0x5d, 0x5e]

/-- The two built-in tables agree on all other bytes. -/
theorem get?_withSubroutines {byte : UInt8} (h : byte ∉ subroutineBytes) :
    withSubroutines.get? byte = reference.get? byte := by
  unfold get?
  cases hop : Opcode.ofByte? byte with
  | none => rfl
  | some op =>
    have hbyte : op.toByte = byte := Opcode.toByte_of_ofByte? hop
    have hplain : isSubroutineOp op = false := by
      cases op with
      | beginSub | returnSub | jumpSub => exact absurd (hbyte ▸ by decide) h
      | _ => rfl
    simp only [Option.bind_some, withSubroutines, reference, hplain]
    rfl

/-- The smaller one does not know these. -/
theorem get?_reference_of_mem {byte : UInt8} (h : byte ∈ subroutineBytes) :
    reference.get? byte = none := by
  simp only [subroutineBytes, List.mem_cons, List.not_mem_nil, or_false] at h
  rcases h with rfl | rfl | rfl
  · rfl
  · rfl
  · rfl

/-- **Subroutines replace no entry.** -/
theorem reference_extends_withSubroutines : reference.Extends withSubroutines := by
  intro byte entry hknown
  by_cases hbyte : byte ∈ subroutineBytes
  · rw [get?_reference_of_mem hbyte] at hknown
    cases hknown
  · rw [get?_withSubroutines hbyte]
    exact hknown

end Table

/-! ## Runs -/

namespace Machine

variable {m : Machine} {s : State} {n : Nat}

/-- The machine has come to a byte that its table does not know. -/
def AtUnknown (m : Machine) (s : State) : Prop :=
  s.halted = none ∧ ∃ byte, m.program.isMarked byte s.pc = true ∧ m.table.get? byte = none

/-- Such a step ends on a fault. -/
theorem AtUnknown.isFault (h : m.AtUnknown s) : (m.step s).isFault = true := by
  obtain ⟨running, byte, found, missing⟩ := h
  rw [step_of_unknown running found missing]
  rfl

/-- **A run that misses no entry does not notice that there are more.** -/
theorem coincides_of_extends {table : Table} (h : m.table.Extends table)
    (known : ∀ i < n, ¬ m.AtUnknown (m.trace s i)) : m.Coincides (m.withTable table) s n := by
  refine coincides_of_step fun i hi => step_withTable fun byte running found => ?_
  cases hget : m.table.get? byte with
  | none => exact absurd ⟨running, byte, found, hget⟩ (known i hi)
  | some entry => exact h byte entry hget

/-- **A run that is not refused a subroutine instruction is the same with subroutines.** Of the
bytes that it does not know these alone make a difference. -/
theorem coincides_withSubroutines (ht : m.table = .reference)
    (served : ∀ i < n, ∀ byte ∈ Table.subroutineBytes,
      (m.step (m.trace s i)).reason? ≠ some (.fault (.invalidOpcode byte))) :
    m.Coincides (m.withTable .withSubroutines) s n := by
  refine coincides_of_step fun i hi => step_withTable fun byte running found => ?_
  rw [ht]
  refine Table.get?_withSubroutines fun hbyte => served i hi byte hbyte ?_
  have hmissing : m.table.get? byte = none := by rw [ht]; exact Table.get?_reference_of_mem hbyte
  rw [step_of_unknown running found hmissing]
  rfl

/-- What a run has recorded is what any machine records that makes the same run. -/
theorem Coincides.snapshot_eq {m' : Machine} (h : m.Coincides m' s n) {i : Nat} (hi : i ≤ n) :
    m'.snapshot s i = m.snapshot s i := by
  rw [snapshot, snapshot, h.trace_eq i hi]

end Machine

/-! ## Histories -/

namespace History

variable {m m' : Machine} {s : State} {h : History} {n : Nat}

/-- Machines that make the same run record the same, as far as the run is the same. -/
theorem Records.move_eq (hr : h.Records m s) (hsame : m.Coincides m' s n) (mv : Move)
    (hsize : (h.move m mv).log.size ≤ n + 1) : h.move m' mv = h.move m mv := by
  cases mv with
  | back => rfl
  | forward =>
    simp only [History.move] at hsize ⊢
    unfold History.advance at hsize ⊢
    split
    · rfl
    · rename_i houtside
      rw [dif_neg houtside] at hsize
      split
      · rfl
      · rename_i hrunning
        -- a record has been made, of a step that both machines make
        rw [if_neg hrunning] at hsize
        simp only [record, Array.size_push] at hsize
        have hpos := h.size_pos
        have hstep : m'.step h.frontier.state = m.step h.frontier.state := by
          rw [hr.frontier_eq]
          have hlast := hsame.step_eq (h.log.size - 1) (by omega)
          rw [hsame.trace_eq (h.log.size - 1) (by omega)] at hlast
          exact hlast
        rw [Snapshot.next, Snapshot.next, hstep]

theorem Records.moves_eq (hr : h.Records m s) (hsame : m.Coincides m' s n) (ms : List Move)
    (hsize : (h.moves m ms).log.size ≤ n + 1) : h.moves m' ms = h.moves m ms := by
  induction ms generalizing h with
  | nil => rfl
  | cons mv ms ih =>
    have hgrown := (log_moves (h.move m mv) m ms).length_le
    rw [moves_cons] at hsize
    rw [moves_cons, moves_cons, hr.move_eq hsame mv (Nat.le_trans hgrown hsize)]
    exact ih (hr.move mv) hsize

/-- The last record tells how the steps before it have ended. -/
theorem Records.reason?_of_frontier (hr : h.Records m s) {i : Nat} (hi : i < h.log.size - 1)
    {reason : Halt} (hstep : (m.step (m.trace s i)).reason? = some reason) :
    h.frontier.halted = some reason := by
  have hnext : (m.trace s (i + 1)).halted = some reason := (m.halted_step _).trans hstep
  rw [hr.frontier_eq]
  rcases Nat.lt_or_ge (i + 2) h.log.size with hlt | hge
  -- a halt is the last thing recorded
  · rw [hr.running (i + 1) hlt] at hnext
    cases hnext
  · have hlast : h.log.size - 1 = i + 1 := by omega
    rw [hlast]
    exact hnext

end History

/-- **Extending a table is conservative.** From any state, a run that comes to no byte without an
entry goes the same way under every table that extends its own, with the same states and the same
outcomes. The table with subroutines extends the one without; and a run on the latter that does
not halt for want of one of their three instructions is the same with them, snapshot by snapshot,
and so is every history, however it is moved through. -/
theorem extension_conservative (m : Machine) :
    (∀ table, m.table.Extends table → ∀ s n,
      (∀ i < n, ¬ m.AtUnknown (m.trace s i)) → m.Coincides (m.withTable table) s n) ∧
    Table.reference.Extends .withSubroutines ∧
    (m.table = .reference →
      let more := m.withTable .withSubroutines
      (∀ s n,
        (∀ byte ∈ [0x5c, 0x5d, 0x5e],
          (m.run n s).reason? ≠ some (.fault (.invalidOpcode byte))) →
        m.Coincides more s n ∧ ∀ i ≤ n, more.snapshot s i = m.snapshot s i) ∧
      ∀ s moves,
        let h := (History.start s).moves m moves
        (∀ byte ∈ [0x5c, 0x5d, 0x5e],
          h.frontier.halted ≠ some (.fault (.invalidOpcode byte))) →
        (History.start s).moves more moves = h) := by
  refine ⟨fun table hextends s n hknown => Machine.coincides_of_extends hextends hknown,
    Table.reference_extends_withSubroutines, fun ht => ?_⟩
  intro more
  refine ⟨fun s n hserved => ?_, fun s moves => ?_⟩
  · have hsame : m.Coincides more s n :=
      Machine.coincides_withSubroutines ht fun i hi byte hbyte hstep =>
        hserved byte hbyte (Machine.reason?_run hi hstep)
    exact ⟨hsame, fun i hi => hsame.snapshot_eq hi⟩
  · intro h hserved
    have hrecords : h.Records m s := (History.records_start m s).moves moves
    have hsame : m.Coincides more s (h.log.size - 1) :=
      Machine.coincides_withSubroutines ht fun i hi byte hbyte hstep =>
        hserved byte hbyte (hrecords.reason?_of_frontier hi hstep)
    have hsize : h.log.size = h.log.size - 1 + 1 := (Nat.sub_add_cancel h.size_pos).symm
    exact (History.records_start m s).moves_eq hsame moves (Nat.le_of_eq hsize)

/-- A code with the subroutine bytes inside an immediate, and with a call behind the stop. -/
def inertMachine : Machine where
  program := .load (.ofList [0x62, 0x5c, 0x5d, 0x5e, 0x00, 0x5e])
  env := .blank
  table := .reference

/-- With subroutines it still pushes the three bytes and stops, and a history that goes to the stop,
back and beyond it is the same. -/
theorem extension_conservative_of_inert :
    let s := State.initial inertMachine.env
    let more := inertMachine.withTable .withSubroutines
    let moves := [History.Move.forward, .forward, .back, .forward, .forward]
    (more.trace s 1).stack.words = [0x5c5d5e] ∧ more.run 5 s = inertMachine.run 5 s ∧
      (History.start s).moves more moves = (History.start s).moves inertMachine moves := by
  intro s more moves
  obtain ⟨hextended, hsubroutines, hreference⟩ := extension_conservative inertMachine
  obtain ⟨hrun, hhistory⟩ := hreference rfl
  have hknown : ∀ i < 1, ¬ inertMachine.AtUnknown (inertMachine.trace s i) := by
    intro i hi hunknown
    obtain rfl : i = 0 := by omega
    have hfault := hunknown.isFault
    revert hfault
    decide +kernel
  have hpush : more.trace s 1 = inertMachine.trace s 1 :=
    (hextended _ hsubroutines s 1 hknown).trace_eq 1 (Nat.le_refl 1)
  have hstopped : (inertMachine.run 5 s).reason? = some .stopped := by decide +kernel
  have hfrontier : ((History.start s).moves inertMachine moves).frontier.halted = some .stopped := by
    decide +kernel
  refine ⟨?_, ?_, ?_⟩
  · rw [hpush]
    decide +kernel
  · exact (hrun s 5 fun byte _ => by rw [hstopped]; nofun).1.run_eq 5 (Nat.le_refl 5)
  · exact hhistory s moves fun byte _ => by rw [hfrontier]; nofun

end Retrace
