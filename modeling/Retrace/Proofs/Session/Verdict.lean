import Retrace.Proofs.Machine.Spending
import Retrace.Proofs.Machine.Stores
import Retrace.Proofs.Session.Log
/-!
# Retrace — what a session has come to

Only a return and a revert write the output, and the machine halts on both, so
that a machine that is running has nothing in it (`output_trace`). A record has
an output, then, exactly where the step before it carried out one of the two: a
fault writes none, not even a fault of a return. The summary of a session is read
off its last record, wherever the cursor stands, and behind a halt none is made:
once a session has failed it stays so.
-/

namespace Retrace

namespace State

variable {s next : State}

/-- The second state has handed back a range of its memory, of which the two topmost words of the
first are the offset and the size. -/
def HandsBack (s next : State) : Prop :=
  ∃ offset size rest, s.stack.words = offset :: size :: rest ∧
    next.output = Bytes.slice next.memory.bytes offset.toNat (offset.toNat + size.toNat) ∧
    next.output.size = size.toNat

/-- A stack of two words or more begins with its operands. -/
theorem words_of_height (h : 2 ≤ s.stack.words.length) :
    s.stack.words = s.operand 0 :: s.operand 1 :: s.stack.words.drop 2 := by
  unfold operand Stack.peek
  generalize s.stack.words = words at h ⊢
  rcases words with _ | ⟨offset, _ | ⟨size, rest⟩⟩
  · cases h
  · exact absurd h (Nat.not_succ_le_self 1)
  · rfl

/-- What hands back a range has found its operands, and has grown memory to hold the range. -/
theorem handsBack_of_execute {ctx : Context} {op : Opcode} (kind : op = .ret ∨ op = .revert)
    (h : execute ctx op s = .ok next) : s.HandsBack next := by
  have hcaptured : s.captureOutput = .ok next := by rcases kind with rfl | rfl <;> exact h
  obtain ⟨popped, hpop, -⟩ := bind_ok hcaptured
  obtain ⟨houtput, hsame⟩ := captureOutput_reads hcaptured
  have htouched : op.touched s = ((s.operand 0).toNat, (s.operand 1).toNat) := by
    rcases kind with rfl | rfl <;> rfl
  have hfit : (s.operand 1).toNat ≠ 0 →
      (s.operand 0).toNat + (s.operand 1).toNat ≤ next.memory.size := by
    intro hsize
    have hend : (s.operand 0).toNat + (s.operand 1).toNat ≤
        touchedEnd (s.operand 0).toNat (s.operand 1).toNat := add_le_touchedEnd hsize
    rw [(effect_of_execute h).account.size_memory, htouched]
    exact Nat.le_trans hend (Nat.le_max_right _ _)
  refine ⟨_, _, _, words_of_height (pop_height hpop), ?_, ?_⟩
  · rw [Memory.slice_bytes hfit, houtput, hsame]
  · rw [houtput, Bytes.size_ofMap]

end State

namespace Machine

variable {m : Machine} {s : State}

/-! ## At a step -/

/-- An instruction that is carried out halts the machine as its entry says. -/
theorem halted_of_performed? (ht : m.table.Standard) {op : Opcode}
    (h : m.performed? s = some op) :
    (m.step s).state.halted = (Entry.standard op).halts := by
  obtain ⟨entry, next, known, -, -, hstep⟩ := carried_of_performed? h
  rw [halted_step, hstep, Outcome.reason?_ofSuccess, ht.halts_eq known]

/-- **A return and a revert hand back the range that their operands name.** -/
theorem handsBack_of_performed? (ht : m.table.Standard) {op : Opcode}
    (kind : op = .ret ∨ op = .revert) (h : m.performed? s = some op) :
    s.HandsBack (m.step s).state := by
  obtain ⟨entry, next, -, -, success, hstep⟩ := execute_of_performed? ht h
  have hnext : (s.entered entry.fee).HandsBack next := State.handsBack_of_execute kind success
  rw [hstep]
  -- the fee leaves the stack alone, and the halt leaves memory and output
  exact hnext

/-- **No other step writes the output**, whether it carries out an instruction or fails. -/
theorem output_step (ht : m.table.Standard) (hret : m.performed? s ≠ some .ret)
    (hrevert : m.performed? s ≠ some .revert) : (m.step s).state.output = s.output := by
  cases hop : m.performed? s with
  | none =>
    obtain ⟨halted, hstep⟩ := state_of_not_performed? ht hop
    rw [hstep]
  | some op =>
    rw [hop] at hret hrevert
    obtain ⟨entry, next, -, -, success, hstep⟩ := execute_of_performed? ht hop
    rw [hstep]
    exact (effect_of_execute success).output_eq (fun h => hret (congrArg some h))
      fun h => hrevert (congrArg some h)

/-- A step that goes on, or ends on a fault, has written none. -/
theorem output_step_of_halted (ht : m.table.Standard)
    (h : (m.step s).state.halted = none ∨ ∃ cause, (m.step s).state.halted = some (.fault cause)) :
    (m.step s).state.output = s.output := by
  refine output_step ht (fun hop => ?_) fun hop => ?_
  all_goals
    rw [halted_of_performed? ht hop] at h
    rcases h with h | ⟨cause, h⟩ <;> cases h

/-! ## Along a run -/

/-- **A machine that is running has handed back nothing.** -/
theorem output_trace (ht : m.table.Standard) (hstart : s.output = ByteArray.empty) (n : Nat)
    (running : (m.trace s n).halted = none) : (m.trace s n).output = ByteArray.empty := by
  induction n with
  | zero => exact hstart
  | succ n ih =>
    obtain ⟨hbefore, -⟩ := continued_of_running running
    exact (output_step_of_halted ht (.inl running)).trans (ih hbefore)

end Machine

/-! ## Records -/

namespace History

variable {m : Machine} {s : State} {h : History}

/-- The frontier is the last record, wherever the cursor stands. -/
theorem back?_log (h : History) : h.log.back? = some h.frontier := by
  rw [Array.back?_eq_getElem?]
  exact Array.getElem?_eq_getElem _

/-- And it depends on the log alone. -/
theorem frontier_congr {h h' : History} (hlog : h'.log = h.log) : h'.frontier = h.frontier := by
  have hlast : some h'.frontier = some h.frontier := by rw [← back?_log, ← back?_log, hlog]
  exact Option.some.inj hlast

/-- Behind a halt nothing is recorded. -/
theorem log_move_of_halted (hhalted : h.frontier.isHalted = true) (m : Machine) (mv : Move) :
    (h.move m mv).log = h.log := by
  cases mv with
  | back => rfl
  | forward =>
    rw [History.move, advance]
    by_cases hinside : h.cursor + 1 < h.log.size
    · rw [dif_pos hinside]
    · rw [dif_neg hinside, if_pos hhalted]

/-- So the frontier stays what it is. -/
theorem frontier_moves_of_halted (hhalted : h.frontier.isHalted = true) (m : Machine)
    (ms : List Move) : (h.moves m ms).frontier = h.frontier := by
  induction ms generalizing h with
  | nil => rfl
  | cons mv ms ih =>
    have hmove : (h.move m mv).frontier = h.frontier :=
      frontier_congr (log_move_of_halted hhalted m mv)
    rw [moves_cons, ih (hmove ▸ hhalted), hmove]

/-- What is recorded is the run's. -/
theorem Records.eq_snapshot (hr : h.Records m s) {i : Nat} {record : Snapshot}
    (hrecord : h.log[i]? = some record) : i < h.log.size ∧ record = m.snapshot s i := by
  obtain ⟨hi, rfl⟩ := Array.getElem?_eq_some_iff.1 hrecord
  exact ⟨hi, hr.log_eq i hi⟩

/-- **A record has an output only where the step before it has returned or reverted.** -/
theorem Records.output_eq_empty (hr : h.Records m s) (ht : m.table.Standard)
    (hstart : s.output = ByteArray.empty) {i : Nat} (hi : i + 1 < h.log.size)
    (hret : m.performed? (m.trace s i) ≠ some .ret)
    (hrevert : m.performed? (m.trace s i) ≠ some .revert) :
    (m.trace s (i + 1)).output = ByteArray.empty :=
  (Machine.output_step ht hret hrevert).trans (Machine.output_trace ht hstart i (hr.running i hi))

/-- **A session that has failed has no output**, even if what failed was to hand one back. -/
theorem Records.output_of_fault (hr : h.Records m s) (ht : m.table.Standard)
    (hstart : s.output = ByteArray.empty) {cause : Fault}
    (hfault : h.frontier.halted = some (.fault cause)) :
    h.frontier.state.output = ByteArray.empty := by
  rw [hr.frontier_eq] at hfault ⊢
  cases hlast : h.log.size - 1 with
  | zero => exact hstart
  | succ j =>
    rw [hlast] at hfault
    have hbefore := Machine.output_trace ht hstart j (hr.running j (by omega))
    exact (Machine.output_step_of_halted ht (.inr ⟨cause, hfault⟩)).trans hbefore

end History

/-! ## Summaries -/

/-- The exit code is one exactly for a fault. -/
theorem Summary.exitCode_eq_one_iff (s : Summary) :
    s.exitCode = 1 ↔ ∃ cause, s.halted = some (.fault cause) := by
  unfold exitCode
  rcases s.halted with _ | _ | _ | cause
  · exact ⟨nofun, nofun⟩
  · exact ⟨nofun, nofun⟩
  · exact ⟨nofun, nofun⟩
  · exact ⟨fun _ => ⟨cause, rfl⟩, fun _ => rfl⟩

namespace Session

variable {s : Session}

/-- **Once a session has failed it stays so**, whatever it is made to do. -/
theorem exitCode_moves (h : s.summary.exitCode = 1) (ms : List Move) :
    (s.moves ms).summary.exitCode = 1 := by
  rw [Summary.exitCode_eq_one_iff] at h ⊢
  obtain ⟨cause, hcause⟩ := h
  have hhalted : s.history.frontier.isHalted = true := congrArg Option.isSome hcause
  obtain ⟨moves, hmoves⟩ := movesTo_moves s ms
  have hfrontier : (s.moves ms).history.frontier = s.history.frontier := by
    rw [hmoves]
    exact History.frontier_moves_of_halted hhalted s.machine moves
  exact ⟨cause, (congrArg Snapshot.halted hfrontier).trans hcause⟩

end Session

/-- **Output, summary and exit code follow the last record.** In the log of a session, the record
behind a step that has carried out a return has stopped, the one behind a revert has reverted, and
both hand back the range of their own memory that the operands name; every other record has no
output, the one behind a return that failed included. The summary is that of the last record,
wherever the cursor stands. The exit code is one exactly if that record halted on a fault; then
there is no output, and it stays one whatever the session is made to do. -/
theorem outcome_follows_frontier (m : Machine) (standard : m.table.Standard) (limit : Nat)
    (moves : List Session.Move) :
    let session := (Session.start m limit).moves moves
    let log := session.history.log
    (∀ i before after, log[i]? = some before → log[i + 1]? = some after →
      (m.performed? before.state = some .ret →
        after.halted = some .stopped ∧ before.state.HandsBack after.state) ∧
      (m.performed? before.state = some .revert →
        after.halted = some .reverted ∧ before.state.HandsBack after.state) ∧
      (m.performed? before.state ≠ some .ret → m.performed? before.state ≠ some .revert →
        after.state.output = ByteArray.empty)) ∧
    (∀ first, log[0]? = some first → first.state.output = ByteArray.empty) ∧
    ∃ last, log.back? = some last ∧
      session.summary.gasUsed = last.gasUsed ∧
      session.summary.halted = last.halted ∧
      session.summary.output = last.state.output ∧
      (session.summary.exitCode = 1 ↔ ∃ cause, last.halted = some (.fault cause)) ∧
      (session.summary.exitCode = 1 → session.summary.output = ByteArray.empty ∧
        ∀ more, (session.moves more).summary.exitCode = 1) := by
  intro session log
  have hrecords := (Session.runs_moves m limit moves).records
  refine ⟨fun i before after hbefore hafter => ?_, fun first hfirst => ?_, ?_⟩
  · obtain ⟨-, rfl⟩ := hrecords.eq_snapshot hbefore
    obtain ⟨hi, rfl⟩ := hrecords.eq_snapshot hafter
    exact ⟨fun hop => ⟨Machine.halted_of_performed? standard hop,
        Machine.handsBack_of_performed? standard (.inl rfl) hop⟩,
      fun hop => ⟨Machine.halted_of_performed? standard hop,
        Machine.handsBack_of_performed? standard (.inr rfl) hop⟩,
      fun hret hrevert => hrecords.output_eq_empty standard rfl hi hret hrevert⟩
  · obtain ⟨-, rfl⟩ := hrecords.eq_snapshot hfirst
    rfl
  · refine ⟨_, session.history.back?_log, rfl, rfl, rfl, Summary.exitCode_eq_one_iff _,
      fun hexit => ⟨?_, Session.exitCode_moves hexit⟩⟩
    obtain ⟨cause, hfault⟩ := (Summary.exitCode_eq_one_iff _).1 hexit
    exact hrecords.output_of_fault standard rfl hfault

/-- A code that stores a byte and returns two bytes of memory, or many more, by the high byte of the
size. There is not gas enough for many more. -/
def handingMachine (high : UInt8) : Machine where
  program := .load (.ofList [0x60, 0xaa, 0x60, 0x00, 0x53, 0x61, high, 0x02, 0x60, 0x00, 0xf3])
  env := { Environment.blank with gasLimit := 100 }
  table := .reference

/-- Having run to its end and gone back, it has returned the byte and a zero. With the larger size
the return has failed, there is no output, and rewinding to the start does not change that. -/
theorem outcome_follows_frontier_of_return :
    let session := (Session.start (handingMachine 0x00) 10).moves [.goto 6, .back, .back]
    let failed := (Session.start (handingMachine 0xff) 10).moves [.goto 6]
    session.position = 4 ∧ session.summary.output = .ofList [0xaa, 0x00] ∧
      session.summary.exitCode ≠ 1 ∧
      failed.summary.exitCode = 1 ∧ failed.summary.output = ByteArray.empty ∧
      (failed.moves [.goto 0, .forward]).summary.exitCode = 1 := by
  intro session failed
  have hbuiltIn : ∀ high, (handingMachine high).table.IsBuiltIn := fun _ => .inl rfl
  let record := (handingMachine 0x00).snapshot (State.initial (handingMachine 0x00).env)
  have hbefore : session.history.log[5]? = some (record 5) := by decide +kernel
  have hafter : session.history.log[6]? = some (record 6) := by decide +kernel
  have hend : session.history.log.back? = some (record 6) := by decide +kernel
  have hop : (handingMachine 0x00).performed? (record 5).state = some .ret := by decide +kernel
  have hwords : (record 5).state.stack.words = [0, 2] := by decide +kernel
  obtain ⟨hlog, -, last, hlast, -, -, houtput, hexit, -⟩ :=
    outcome_follows_frontier (handingMachine 0x00) (hbuiltIn _).standard 10 [.goto 6, .back, .back]
  obtain rfl : last = record 6 := Option.some.inj (hlast.symm.trans hend)
  obtain ⟨hstopped, offset, size, rest, hoperands, hreturned, -⟩ :=
    (hlog 5 (record 5) (record 6) hbefore hafter).1 hop
  cases hwords.symm.trans hoperands
  have hfailed : failed.summary.exitCode = 1 := by decide +kernel
  obtain ⟨-, -, -, -, -, -, -, -, hstays⟩ :=
    outcome_follows_frontier (handingMachine 0xff) (hbuiltIn _).standard 10 [.goto 6]
  obtain ⟨hempty, hmore⟩ := hstays hfailed
  refine ⟨by decide +kernel, ?_, fun hone => ?_, hfailed, hempty, hmore [.goto 0, .forward]⟩
  · rw [houtput, hreturned]
    decide +kernel
  · obtain ⟨cause, hcause⟩ := hexit.1 hone
    rw [hstopped] at hcause
    cases hcause

end Retrace
