import Retrace.Proofs.Session.Events
/-!
# Retrace — where a continued run stops

The two loops of a continued run walk a history in opposite directions, over
records that are there and over new ones. What they come to is a matter of the
run alone: the loop forward ends at the first event in its reach, the loop
backward at the last breakpoint before it (`Runs.forwardWhile`,
`Runs.backwardWhile`, each by induction on the steps left). Between the two ends
of a continued run there is then nothing for either direction to stop at, and so
each finds the way back that the other has come.
-/

namespace Retrace

/-! ## The loops -/

namespace Session

variable {s : Session} {m : Machine} {limit : Nat}

/-- What stops a session is what stops the run at its position. -/
theorem Runs.stopHere?_eq (hs : s.Runs m limit) (breakpoints : Breakpoints) :
    s.stopHere? breakpoints = m.stopAt? (State.initial m.env) breakpoints s.position := by
  rw [stopHere?, hs.current_eq]
  rfl

/-- **A session stands still only where it has halted**, and says so. -/
theorem Runs.standstill_eq (hs : s.Runs m limit) (stuck : s.canStepForward = false) :
    ∃ reason, m.HaltsAt (State.initial m.env) s.position reason ∧
      s.current.halted = some reason ∧ s.standstill = .halted reason := by
  obtain ⟨reason, hhalts⟩ := hs.haltsAt stuck
  have hcurrent : s.current.halted = some reason := by
    rw [hs.current_eq]
    exact hhalts.halted
  refine ⟨reason, hhalts, hcurrent, ?_⟩
  rw [standstill, hcurrent]

/-- **The loop forward ends as the run says**, by induction on the steps that it may still take. -/
theorem Runs.forwardWhile (hs : s.Runs m limit) (breakpoints : Breakpoints) (count : Nat) :
    Machine.EndsForward m (State.initial m.env) breakpoints s.position count
      (forwardWhile breakpoints count s).1.position (forwardWhile breakpoints count s).2 := by
  induction count generalizing s with
  | zero =>
    refine .spent (Set.eq_empty_of_forall_notMem ?_) (.inl rfl)
    rintro k ⟨hlow, hhigh, -⟩
    omega
  | succ count ih =>
    rw [Session.forwardWhile]
    cases hforward : s.canStepForward with
    | false =>
      obtain ⟨reason, hhalts, -, hstands⟩ := hs.standstill_eq hforward
      rw [if_neg Bool.false_ne_true, hstands]
      exact .stood (Nat.succ_pos count) hhalts
    | true =>
      have hnext := hs.movesTo (movesTo_stepForward s)
      have hposition := position_stepForward s
      rw [if_pos hforward] at hposition
      have hstop := hnext.stopHere?_eq breakpoints
      rw [hposition] at hstop
      have hrest := ih hnext
      rw [hposition] at hrest
      rw [if_pos rfl]
      dsimp only
      cases hreason : s.stepForward.stopHere? breakpoints with
      | some reason =>
        rw [hreason] at hstop
        have hrunning : ∀ j < s.position + 1, (m.trace (State.initial m.env) j).halted = none :=
          fun j hj => hnext.running (by omega)
        have hevent := Machine.eventAt_of_stopAt? hrunning hstop.symm
        dsimp only
        rw [hposition]
        exact .event (Machine.isLeast_events_succ hevent) hstop.symm
      | none =>
        rw [hreason] at hstop
        exact .succ hstop.symm (hs.canStepForward_iff.1 hforward) hrest

/-- **The loop backward ends as the run says**, by induction on the steps there are before it. -/
theorem Runs.backwardWhile (hs : s.Runs m limit) (breakpoints : Breakpoints) (count : Nat)
    (h : s.position = count) :
    Machine.EndsBackward m (State.initial m.env) breakpoints count
      (backwardWhile breakpoints count s).1.position (backwardWhile breakpoints count s).2 := by
  induction count generalizing s with
  | zero =>
    rw [Session.backwardWhile, h]
    refine .start (Set.eq_empty_of_forall_notMem ?_)
    rintro k ⟨hlt, -⟩
    omega
  | succ count ih =>
    have hnext := hs.movesTo (movesTo_stepBack s)
    have hposition := position_stepBack s
    rw [h, Nat.add_sub_cancel] at hposition
    have hpc : s.stepBack.current.pc = (m.trace (State.initial m.env) count).pc := by
      rw [hnext.current_eq, hposition]
      rfl
    rw [Session.backwardWhile, hpc]
    split
    · rename_i hhit
      rw [hposition]
      exact .hit (Machine.isGreatest_hits_succ hhit)
    · rename_i hmiss
      exact .succ (Bool.eq_false_iff.2 hmiss) (ih hnext hposition)

/-- A run backward records nothing. -/
theorem log_backwardWhile (breakpoints : Breakpoints) (count : Nat) (s : Session) :
    (Session.backwardWhile breakpoints count s).1.history.log = s.history.log := by
  induction count generalizing s with
  | zero => rfl
  | succ count ih =>
    rw [Session.backwardWhile]
    split
    · rfl
    · exact ih s.stepBack

/-- What a continued run replies is what its loop has ended with, or the limit. -/
theorem Runs.continueForward (hs : s.Runs m limit) (breakpoints : Breakpoints) :
    ∃ reason, Machine.EndsForward m (State.initial m.env) breakpoints s.position limit
        (s.continueForward breakpoints).1.position reason ∧
      (s.continueForward breakpoints).2 = reason.getD (.stepLimit limit) := by
  have hends := hs.forwardWhile breakpoints s.stepLimit
  rw [hs.stepLimit_eq] at hends
  unfold Session.continueForward
  rw [hs.stepLimit_eq]
  exact ⟨_, hends, rfl⟩

/-- Since it ends in one way only, any way in which it may end tells position and reply. -/
theorem Runs.continueForward_eq (hs : s.Runs m limit) {breakpoints : Breakpoints} {j : Nat}
    {reason : Option StopReason}
    (ends : Machine.EndsForward m (State.initial m.env) breakpoints s.position limit j reason) :
    (s.continueForward breakpoints).1.position = j ∧
      (s.continueForward breakpoints).2 = reason.getD (.stepLimit limit) := by
  obtain ⟨found, hends, hreply⟩ := hs.continueForward breakpoints
  obtain ⟨hposition, hfound⟩ := hends.unique ends
  refine ⟨hposition, ?_⟩
  rw [hreply, hfound]

theorem Runs.continueBackward (hs : s.Runs m limit) (breakpoints : Breakpoints) :
    Machine.EndsBackward m (State.initial m.env) breakpoints s.position
      (s.continueBackward breakpoints).1.position (s.continueBackward breakpoints).2 :=
  hs.backwardWhile breakpoints s.position rfl

/-! ## There and back -/

/-- **What lies between the ends of a run forward does not stop the way back.** -/
theorem Runs.isGreatest_hits (hs : s.Runs m limit) {breakpoints : Breakpoints}
    (hit : breakpoints.contains (m.trace (State.initial m.env) s.position).pc = true)
    (moved : s.position < (s.continueForward breakpoints).1.position) :
    IsGreatest (m.hits (State.initial m.env) breakpoints
      (s.continueForward breakpoints).1.position) s.position := by
  have hahead := hs.movesTo (movesTo_move s (.continueForward breakpoints))
  obtain ⟨reason, hends, -⟩ := hs.continueForward breakpoints
  refine ⟨⟨moved, hit⟩, ?_⟩
  rintro k ⟨hlt, hhit⟩
  refine Nat.le_of_not_lt fun hlow => ?_
  have hmiss := hends.passes (fun i hi => hahead.running hi) hlow hlt
  rw [hhit] at hmiss
  cases hmiss

/-- **What lies between the ends of a run backward does not stop the way forth.** -/
theorem Runs.isLeast_events (hs : s.Runs m limit) {breakpoints : Breakpoints} {i count : Nat}
    (hit : breakpoints.contains (m.trace (State.initial m.env) s.position).pc = true)
    (last : IsGreatest (m.hits (State.initial m.env) breakpoints s.position) i)
    (reach : s.position ≤ i + count) :
    IsLeast (m.events (State.initial m.env) breakpoints i count) s.position := by
  refine ⟨⟨last.1.1, reach, fun j hj => hs.running hj, .inl hit⟩, ?_⟩
  rintro k ⟨hlow, -, hevent⟩
  refine Nat.le_of_not_lt fun hlt => ?_
  rcases hevent.event with hhit | ⟨reason, hhalted⟩
  · have hle := last.2 ⟨hlt, hhit⟩
    omega
  · rw [hs.running hlt] at hhalted
    cases hhalted

end Session

/-- **A run forward stops at the first event.** Wherever a session stands and whatever it has
recorded, let the events be the breakpoints that the run comes to within the step limit, and its
halt. The session goes to the first one, and says that it has come to a breakpoint, or else that it
has halted. Without one it stays if it had halted before, with or without a breakpoint there, and
otherwise makes as many steps as it may. It is refused a step nowhere but where it has halted. -/
theorem continueForward_stops_at_first (m : Machine) (limit : Nat) (before : List Session.Move)
    (breakpoints : Breakpoints) :
    let start := State.initial m.env
    let session := (Session.start m limit).moves before
    let events := m.events start breakpoints session.position limit
    let after := (session.continueForward breakpoints).1
    let reason := (session.continueForward breakpoints).2
    (∀ k, IsLeast events k → after.position = k ∧
      (breakpoints.contains (m.trace start k).pc = true →
        reason = .breakpoint (m.trace start k).pc) ∧
      (breakpoints.contains (m.trace start k).pc = false →
        ∃ why, m.HaltsAt start k why ∧ reason = .halted why)) ∧
    (events = ∅ →
      (∀ why, 1 ≤ limit → m.HaltsAt start session.position why →
        after.position = session.position ∧ reason = .halted why) ∧
      (limit = 0 ∨ (∀ why, ¬ m.HaltsAt start session.position why) →
        after.position = session.position + limit ∧ reason = .stepLimit limit)) ∧
    (session.canStepForward = false → ∃ why, m.HaltsAt start session.position why ∧
      session.current.halted = some why ∧ session.standstill = .halted why) := by
  intro start session events after reason
  have hs : session.Runs m limit := Session.runs_moves m limit before
  refine ⟨fun k first => ?_, fun quiet => ?_, hs.standstill_eq⟩
  · -- an event without a breakpoint is the halt
    have hevent := first.1.2.2
    by_cases hhit : breakpoints.contains (m.trace start k).pc = true
    · obtain ⟨hposition, hreason⟩ :=
        hs.continueForward_eq (.event first (Machine.stopAt?_of_contains hhit))
      refine ⟨hposition, fun _ => hreason, fun hmiss => ?_⟩
      rw [hhit] at hmiss
      cases hmiss
    · obtain ⟨why, hwhy⟩ := hevent.event.resolve_left hhit
      have hmiss := Bool.eq_false_iff.2 hhit
      obtain ⟨hposition, hreason⟩ :=
        hs.continueForward_eq (.event first (Machine.stopAt?_of_halted hmiss hwhy))
      exact ⟨hposition, fun h => absurd h hhit, fun _ => ⟨why, ⟨hwhy, hevent.running⟩, hreason⟩⟩
  · refine ⟨fun why hallowed hhalts => hs.continueForward_eq (.stood hallowed hhalts),
      fun hmoves => ?_⟩
    -- a session comes no further than the halt, so that a halt here would be the run's
    have hgoes : limit = 0 ∨ (m.trace start session.position).halted = none := by
      refine hmoves.imp_right fun hnone => Option.eq_none_iff_forall_ne_some.2 fun why hwhy => ?_
      exact hnone why ⟨hwhy, fun _ hk => hs.running hk⟩
    exact hs.continueForward_eq (.spent quiet hgoes)

/-- A code that pops from an empty stack behind its first byte. -/
def poppingMachine : Machine where
  program := .load (.ofList [0x5b, 0x50])
  env := .blank
  table := .reference

/-- A breakpoint on the pop stops the run in front of it, and stops it once more when the pop has
failed, for the fault has left the offset as it was. Then it is the fault that stops the run, in
spite of the breakpoint. Without breakpoints a limit of one step stops it. -/
theorem continueForward_stops_at_first_of_fault :
    let start := State.initial poppingMachine.env
    let pop := Breakpoints.empty.insert 1
    let front := (Session.start poppingMachine 10).moves [.forward]
    let failed := (Session.start poppingMachine 10).moves [.goto 2]
    let short := Session.start poppingMachine 1
    IsLeast (poppingMachine.events start pop 1 10) 2 ∧
    (front.continueForward pop).1.position = 2 ∧ (front.continueForward pop).2 = .breakpoint 1 ∧
    poppingMachine.HaltsAt start 2 (.fault .stackUnderflow) ∧
    (failed.continueForward pop).1.position = 2 ∧
    (failed.continueForward pop).2 = .halted (.fault .stackUnderflow) ∧
    (short.continueForward .empty).1.position = 1 ∧
    (short.continueForward .empty).2 = .stepLimit 1 ∧
    failed.canStepForward = false ∧ failed.standstill = .halted (.fault .stackUnderflow) := by
  intro start pop front failed short
  have hfront : front.position = 1 := by decide +kernel
  have hfailed : failed.position = 2 := by decide +kernel
  have hstuck : failed.canStepForward = false := by decide +kernel
  have hhalts : poppingMachine.HaltsAt start 2 (.fault .stackUnderflow) :=
    ⟨by decide +kernel, by decide +kernel⟩
  have hevent : poppingMachine.EventAt start pop 2 := ⟨hhalts.running, .inl (by decide +kernel)⟩
  have hfirst : IsLeast (poppingMachine.events start pop 1 10) 2 :=
    Machine.isLeast_events_succ hevent
  have hquiet : poppingMachine.events start .empty 0 1 = ∅ := by
    refine Set.eq_empty_of_forall_notMem ?_
    rintro k ⟨hlow, hhigh, hreached⟩
    obtain rfl : k = 1 := by omega
    exact Machine.not_eventAt_of_stopAt? (by decide +kernel) hreached
  have hgoes : ∀ why, ¬ poppingMachine.HaltsAt start 0 why := fun why h => by
    have hle := h.le_of_running hhalts.running
    omega
  obtain ⟨hat, -, -⟩ := continueForward_stops_at_first poppingMachine 10 [.forward] pop
  obtain ⟨-, hstays, hrefused⟩ := continueForward_stops_at_first poppingMachine 10 [.goto 2] pop
  obtain ⟨-, hspends, -⟩ := continueForward_stops_at_first poppingMachine 1 [] .empty
  rw [show (Session.moves _ _).position = 1 from hfront] at hat
  rw [show (Session.moves _ _).position = 2 from hfailed] at hstays hrefused
  obtain ⟨hcome, hbreak, -⟩ := hat 2 hfirst
  obtain ⟨hstay, -⟩ := hstays hhalts.events_eq_empty
  obtain ⟨hstood, hreason⟩ := hstay _ (by decide) hhalts
  obtain ⟨-, hspend⟩ := hspends hquiet
  obtain ⟨hmoved, hlimit⟩ := hspend (.inr hgoes)
  obtain ⟨why, hwhy, -, hstands⟩ := hrefused hstuck
  obtain rfl := (hwhy.unique hhalts).2
  exact ⟨hfirst, hcome, hbreak (by decide +kernel), hhalts, hstood, hreason, hmoved, hlimit,
    hstuck, hstands⟩

/-- **A run backward stops at the last breakpoint before it**, or at step zero for want of one, and
records nothing. The two directions undo each other between breakpoints. From a breakpoint,
whatever stops the run forward, the run backward comes back; and what the run backward has come
from, a breakpoint, the run forward comes to again, if it may make as many steps. -/
theorem continueBackward_mirrors_forward (m : Machine) (limit : Nat) (before : List Session.Move)
    (breakpoints : Breakpoints) :
    let start := State.initial m.env
    let session := (Session.start m limit).moves before
    let hits := m.hits start breakpoints session.position
    let pc := (m.trace start session.position).pc
    let ahead := session.continueForward breakpoints
    let back := session.continueBackward breakpoints
    (∀ k, IsGreatest hits k →
      back.1.position = k ∧ back.2 = .breakpoint (m.trace start k).pc) ∧
    (hits = ∅ → back.1.position = 0 ∧ back.2 = .startOfHistory) ∧
    back.1.history.log = session.history.log ∧
    (breakpoints.contains pc = true →
      (session.position < ahead.1.position →
        (ahead.1.continueBackward breakpoints).1.position = session.position ∧
        (ahead.1.continueBackward breakpoints).2 = .breakpoint pc) ∧
      (∀ other, back.2 = .breakpoint other → session.position - back.1.position ≤ limit →
        (back.1.continueForward breakpoints).1.position = session.position ∧
        (back.1.continueForward breakpoints).2 = .breakpoint pc)) := by
  intro start session hits pc ahead back
  have hs : session.Runs m limit := Session.runs_moves m limit before
  have hends := hs.continueBackward breakpoints
  refine ⟨fun k last => hends.unique (.hit last), fun quiet => hends.unique (.start quiet),
    Session.log_backwardWhile breakpoints session.position session,
    fun hhit => ⟨fun hmoved => ?_, fun other hback hreach => ?_⟩⟩
  · have hahead := hs.movesTo (Session.movesTo_move session (.continueForward breakpoints))
    exact (hahead.continueBackward breakpoints).unique (.hit (hs.isGreatest_hits hhit hmoved))
  · have hback_runs := hs.movesTo (Session.movesTo_move session (.continueBackward breakpoints))
    have hfirst : IsLeast (m.events start breakpoints back.1.position limit) session.position :=
      hs.isLeast_events hhit (hends.isGreatest hback) (by omega)
    exact hback_runs.continueForward_eq (.event hfirst (Machine.stopAt?_of_contains hhit))

/-- Three instructions go round, with a breakpoint on the second one. A limit of two steps stops the
run forward at the start of the next round, and the run backward finds the breakpoint that it has
left. From the third time there the run backward comes to the second one, and the run forward to
the third one again. Before the first time there is nothing. -/
theorem continueBackward_mirrors_forward_of_circle :
    let start := State.initial freeMachine.env
    let second := Breakpoints.empty.insert 1
    let early := (Session.start freeMachine 2).moves [.goto 1]
    let late := (Session.start freeMachine 3).moves [.goto 7]
    (early.continueForward second).1.position = 3 ∧
    ((early.continueForward second).1.continueBackward second).1.position = 1 ∧
    ((early.continueForward second).1.continueBackward second).2 = .breakpoint 1 ∧
    IsGreatest (freeMachine.hits start second 7) 4 ∧
    (late.continueBackward second).1.position = 4 ∧
    (late.continueBackward second).2 = .breakpoint 1 ∧
    ((late.continueBackward second).1.continueForward second).1.position = 7 ∧
    ((late.continueBackward second).1.continueForward second).2 = .breakpoint 1 ∧
    freeMachine.hits start second 1 = ∅ ∧
    (early.continueBackward second).2 = .startOfHistory := by
  intro start second early late
  have hearly : early.position = 1 := by decide +kernel
  have hlate : late.position = 7 := by decide +kernel
  have hahead : (early.continueForward second).1.position = 3 := by decide +kernel
  have hbelow : ∀ k < 7, second.contains (freeMachine.trace start k).pc = true → k ≤ 4 := by
    decide +kernel
  have hlast : IsGreatest (freeMachine.hits start second 7) 4 :=
    ⟨⟨by decide, by decide +kernel⟩, fun k hk => hbelow k hk.1 hk.2⟩
  have hquiet : freeMachine.hits start second 1 = ∅ := by
    refine Set.eq_empty_of_forall_notMem ?_
    rintro k ⟨hlt, hhit⟩
    obtain rfl : k = 0 := by omega
    revert hhit
    decide +kernel
  obtain ⟨-, hnone, -, hreturn⟩ :=
    continueBackward_mirrors_forward freeMachine 2 [.goto 1] second
  obtain ⟨hfound, -, -, hagain⟩ :=
    continueBackward_mirrors_forward freeMachine 3 [.goto 7] second
  rw [show (Session.moves _ _).position = 1 from hearly] at hnone hreturn
  rw [show (Session.moves _ _).position = 7 from hlate] at hfound hagain
  obtain ⟨hposition, hbreak⟩ := hfound 4 hlast
  have hmoved : 1 < (early.continueForward second).1.position :=
    Nat.lt_of_lt_of_eq (by decide) hahead.symm
  have hreach : 7 - (late.continueBackward second).1.position ≤ 3 :=
    Nat.le_of_eq (congrArg (7 - ·) hposition)
  obtain ⟨hback, hreply⟩ := (hreturn (by decide +kernel)).1 hmoved
  obtain ⟨hforth, hreached⟩ := (hagain (by decide +kernel)).2 _ hbreak hreach
  exact ⟨hahead, hback, hreply, hlast, hposition, hbreak, hforth, hreached, hquiet,
    (hnone hquiet).2⟩

end Retrace
