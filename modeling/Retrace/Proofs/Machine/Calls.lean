import Retrace.Proofs.Machine.Step
/-!
# Retrace — calls and returns

A call puts the place where it resumes on the return stack and a return takes
it off; no other instruction touches it, and a step that fails does not either
(`ReturnMove`). What lies on the return stack below a call can therefore only
be reached through the return that belongs to it. The file follows one frame,
the resume offset of a call with all that was recorded before, through a run:
it stays at the bottom of the return stack for as long as the run is deeper
than the call was (`frame_of_deeper`), and the step that leaves that depth
takes exactly this frame apart (`return_of_left`). Nested calls, loops and
jumps in between need no attention, since the frame is all that is followed.
-/

namespace Retrace

theorem ReturnStack.eq_of_offsets {a b : ReturnStack} (h : a.offsets = b.offsets) : a = b := by
  cases a
  cases b
  cases h
  rfl

/-- What a step may do to the return stack. -/
inductive ReturnMove (m : Machine) (s next : State) : Prop
  /-- It is left alone. -/
  | kept (same : next.returns = s.returns)
  /-- A call has recorded that it resumes behind itself. -/
  | called (call : m.performed? s = some .jumpSub)
      (resume : next.returns.offsets = (s.pc + 1) :: s.returns.offsets)
  /-- A return has resumed the innermost caller. -/
  | returned (ret : m.performed? s = some .returnSub)
      (resume : s.returns.offsets = next.pc :: next.returns.offsets)

namespace Machine

variable {m : Machine} {s : State}

/-- **Only calls and returns touch the return stack.** -/
theorem returnMove_step (ht : m.table.Standard) (s : State) :
    ReturnMove m s (m.step s).state := by
  have hway := m.stepped s
  generalize hstep : m.step s = outcome at hway ⊢
  cases hway with
  | carried running op found entry known _ next success =>
    have hop := performed?_of_carried ht running found known hstep
    have heffect := effect_of_execute success
    rw [ht.action_eq known] at heffect
    rw [Outcome.state_ofSuccess]
    cases heffect with
    | quiet | metered | stored | captured | pushed | jumped | passed => exact .kept rfl
    | called kind _ returns entry _ resume =>
      subst kind
      exact .called hop resume
    | returned kind returns pc resume =>
      subst kind
      exact .returned hop resume
  | rested | ended | strayed | unknown | faulted => exact .kept rfl

/-- **A step that fails leaves the return stack as it was.** -/
theorem returns_of_isFault (ht : m.table.Standard) (h : (m.step s).isFault = true) :
    (m.step s).state.returns = s.returns := by
  -- neither a call nor a return that was carried out ends on a fault
  have hnone : ∀ op, m.performed? s ≠ some op := by
    intro op hop
    have hfault := (performed?_eq_some_iff.1 hop).2.1
    rw [h] at hfault
    cases hfault
  cases returnMove_step ht s with
  | kept same => exact same
  | called call => exact absurd call (hnone _)
  | returned ret => exact absurd ret (hnone _)

/-- **A call records its frame**: where it resumes, above all that was recorded before. -/
theorem frame_of_call (ht : m.table.Standard) (h : m.performed? s = some .jumpSub) :
    (m.step s).state.returns.offsets = (s.pc + 1) :: s.returns.offsets := by
  obtain ⟨entry, next, -, -, success, hstep⟩ := execute_of_performed? ht h
  rw [hstep]
  cases effect_of_execute success with
  | called _ _ returns _ _ resume => exact resume
  | quiet kind | metered kind => cases kind
  | stored kind | pushed _ kind | passed kind | returned kind => cases kind
  | captured kind | jumped kind => rcases kind with kind | kind <;> cases kind

/-- A call finds room on the return stack. -/
theorem depth_lt_of_call (ht : m.table.Standard) (h : m.performed? s = some .jumpSub) :
    s.returns.depth < returnStackLimit := by
  have hdepth := (m.step s).state.returns.depth_le
  rw [frame_of_call ht h] at hdepth
  exact hdepth

/-! ## One frame -/

/-- A frame stays on the return stack in a step that does not become too shallow to hold it. -/
theorem frame_step (ht : m.table.Standard) {frame : List Nat}
    (hframe : frame <:+ s.returns.offsets)
    (hdeep : frame.length ≤ (m.step s).state.returns.depth) :
    frame <:+ (m.step s).state.returns.offsets := by
  cases returnMove_step ht s with
  | kept same =>
    rw [same]
    exact hframe
  | called _ resume =>
    rw [resume]
    exact hframe.trans (List.suffix_cons _ _)
  | returned _ resume =>
    rw [resume] at hframe
    rcases List.suffix_cons_iff.1 hframe with heq | hrest
    -- the return would have taken the frame itself, and is not deep enough for it any more
    · have hlength := congrArg List.length heq
      have hdepth : (m.step s).state.returns.depth =
          (m.step s).state.returns.offsets.length := rfl
      rw [List.length_cons] at hlength
      omega
    · exact hrest

/-- **The step that leaves a frame is the return that takes it.** It resumes where the frame says
and leaves what was below. -/
theorem return_of_left (ht : m.table.Standard) {resume : Nat} {below : List Nat}
    (hframe : resume :: below <:+ s.returns.offsets)
    (hleft : (m.step s).state.returns.depth ≤ below.length) :
    m.performed? s = some .returnSub ∧ (m.step s).state.pc = resume ∧
      (m.step s).state.returns.offsets = below := by
  have hheight := hframe.length_le
  have hdepth : (m.step s).state.returns.depth = (m.step s).state.returns.offsets.length := rfl
  rw [List.length_cons] at hheight
  cases returnMove_step ht s with
  -- a step that takes nothing off does not become shallower than the frame
  | kept same =>
    rw [same] at hdepth hleft
    omega
  | called _ pushed =>
    rw [pushed, List.length_cons] at hdepth
    omega
  | returned ret popped =>
    rw [popped] at hframe
    rcases List.suffix_cons_iff.1 hframe with heq | hrest
    · obtain ⟨hpc, hbelow⟩ := List.cons.inj heq
      exact ⟨ret, hpc.symm, hbelow.symm⟩
    · have hlength := hrest.length_le
      rw [List.length_cons] at hlength
      omega

/-! ## Along a run -/

/-- **The frame of a call stays for as long as the run is deeper than the call was.** -/
theorem frame_of_deeper (ht : m.table.Standard) (start : State) {i : Nat}
    (hcall : m.performed? (m.trace start i) = some .jumpSub) (count : Nat)
    (hdeep : ∀ k, i < k → k ≤ i + 1 + count →
      (m.trace start i).returns.depth < (m.trace start k).returns.depth) :
    ((m.trace start i).pc + 1) :: (m.trace start i).returns.offsets <:+
      (m.trace start (i + 1 + count)).returns.offsets := by
  induction count with
  | zero => exact frame_of_call ht hcall ▸ List.suffix_rfl
  | succ count ih =>
    have hbefore := ih fun k hik hk => hdeep k hik (by omega)
    have hdeeper := hdeep (i + 1 + (count + 1)) (by omega) (Nat.le_refl _)
    exact frame_step ht hbefore hdeeper

end Machine

/-- **Calls are well bracketed.** From a call on, for as long as the run is deeper than the call
was, its return stack holds what it held at the call, then the offset behind the call. The step
that leaves that depth is a return, it goes to that offset, and it restores the return stack of
the call. There is never more on the return stack than it may hold, and a step that fails leaves
it alone. -/
theorem calls_bracketed (m : Machine) (standard : m.table.Standard) :
    (∀ (start : State) (i j : Nat), i < j →
      let run := m.trace start
      m.performed? (run i) = some .jumpSub →
      (∀ k, i < k → k ≤ j → (run i).returns.depth < (run k).returns.depth) →
      (∀ k, i < k → k ≤ j →
        (run i).returns.outermostFirst ++ [(run i).pc + 1] <+: (run k).returns.outermostFirst) ∧
      ((run (j + 1)).returns.depth ≤ (run i).returns.depth →
        m.performed? (run j) = some .returnSub ∧ (run (j + 1)).pc = (run i).pc + 1 ∧
          (run (j + 1)).returns = (run i).returns)) ∧
    (∀ s : State, s.returns.depth ≤ 1023 ∧
      (m.performed? s = some .jumpSub → s.returns.depth < 1023)) ∧
    ∀ s : State, (m.step s).isFault = true → (m.step s).state.returns = s.returns := by
  refine ⟨?_, fun s => ⟨s.returns.depth_le, Machine.depth_lt_of_call standard⟩,
    fun s => Machine.returns_of_isFault standard⟩
  intro start i j hij run hcall hdeep
  have hframe : ∀ k, i < k → k ≤ j →
      ((run i).pc + 1) :: (run i).returns.offsets <:+ (run k).returns.offsets := by
    intro k hik hkj
    obtain ⟨count, rfl⟩ := Nat.exists_eq_add_of_le hik
    exact Machine.frame_of_deeper standard start hcall count
      fun k' hik' hk' => hdeep k' hik' (by omega)
  refine ⟨fun k hik hkj => ?_, fun hleft => ?_⟩
  -- read from the other end, what is at the bottom comes first
  · have hprefix := List.reverse_prefix.2 (hframe k hik hkj)
    rw [List.reverse_cons] at hprefix
    exact hprefix
  · obtain ⟨hret, hpc, hreturns⟩ :=
      Machine.return_of_left standard (hframe j hij (Nat.le_refl _)) hleft
    exact ⟨hret, hpc, ReturnStack.eq_of_offsets hreturns⟩

/-- A code that calls a subroutine which calls another one before it returns. -/
def nestedMachine : Machine where
  program := .load (.ofList [0x60, 0x04, 0x5e, 0x00, 0x5c, 0x60, 0x09, 0x5e, 0x5d, 0x5c, 0x5d])
  env := .blank
  table := .withSubroutines

/-- The outer call stands at offset two. Inside the inner subroutine the frames of both calls are
recorded, the outer one first, and once both have returned the run goes on behind the outer call
with the return stack it had there. -/
theorem calls_bracketed_of_nested :
    let run := nestedMachine.trace (State.initial nestedMachine.env)
    nestedMachine.performed? (run 1) = some .jumpSub ∧ (run 4).returns.outermostFirst = [3, 8] ∧
      [3] <+: (run 4).returns.outermostFirst ∧
      nestedMachine.performed? (run 5) = some .returnSub ∧ (run 6).pc = 3 ∧
      (run 6).returns = (run 1).returns := by
  intro run
  have hbuiltIn : Table.withSubroutines.IsBuiltIn := .inr rfl
  have hcall : nestedMachine.performed? (run 1) = some .jumpSub := by decide +kernel
  have hdeep : ∀ k, 1 < k → k ≤ 5 → (run 1).returns.depth < (run k).returns.depth := by
    intro k hlt hle
    have hcases : k = 2 ∨ k = 3 ∨ k = 4 ∨ k = 5 := by omega
    rcases hcases with rfl | rfl | rfl | rfl <;> decide +kernel
  obtain ⟨hframe, hreturn⟩ := (calls_bracketed nestedMachine hbuiltIn.standard).1
    (State.initial nestedMachine.env) 1 5 (by decide) hcall hdeep
  obtain ⟨hret, hpc, hreturns⟩ := hreturn (by decide +kernel)
  exact ⟨hcall, by decide +kernel, hframe 4 (by decide) (by decide), hret, hpc, hreturns⟩

end Retrace
