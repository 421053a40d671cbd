import Retrace.Proofs.Machine.Alignment
/-!
# Retrace — zeros behind the code

Past the end of the code stands an implicit stop, and an immediate that the
code cuts short reads as zero. Both say that a code behaves as if zero bytes
followed it: zero is the byte of the instruction that stops. This file runs a
program beside one that continues it with zeros (`Program.Padded`), in
lockstep, and keeps their states alike but for where they stand past the end
(`State.Alike`). Only the instruction that asks for the size of the code can
tell the two apart. The two stop in different ways, one for want of a byte and
the other on a zero byte, and it takes the alignment of the longer one to know
that it finds an instruction there.
-/

namespace Retrace

/-! ## A program and its continuation -/

/-- The second program continues the first with zero bytes. -/
structure Program.Padded (p q : Program) : Prop where
  size_le : p.size ≤ q.size
  byteAt? : ∀ pc, pc < p.size → q.byteAt? pc = p.byteAt? pc
  isBoundary : ∀ pc, pc < p.size → q.isBoundary pc = p.isBoundary pc
  zero : ∀ pc, p.size ≤ pc → pc < q.size → q.byteAt? pc = some 0
  window : ∀ offset size, Bytes.window q.code offset size = Bytes.window p.code offset size

namespace Program

/-- A program is the decoding of its bytes. -/
theorem load_code (p : Program) : load p.code = p := by
  obtain ⟨code, lengths, rfl⟩ := p
  rfl

theorem padded_append_zeros (code : Bytes) (k : Nat) :
    Padded (load code) (load (code ++ Bytes.zeros k)) where
  size_le := by
    show code.size ≤ (code ++ Bytes.zeros k).size
    rw [ByteArray.size_append]
    omega
  byteAt? _ h := byteAt?_load_append _ h
  isBoundary _ h := isBoundary_load_append _ h
  zero pc hge hlt := by
    have hlist : (load (code ++ Bytes.zeros k)).byteAt? pc =
        (Bytes.toList code ++ List.replicate k 0)[pc]? := by
      rw [byteAt?_eq, ← Bytes.toList_zeros, ← Bytes.toList_append]
      rfl
    have hsize : (load (code ++ Bytes.zeros k)).size = code.size + k := by
      show (code ++ Bytes.zeros k).size = _
      rw [ByteArray.size_append, Bytes.size_zeros]
    have hcode : (load code).size = (Bytes.toList code).length := rfl
    rw [hsize] at hlt
    rw [hcode] at hge
    rw [hlist, List.getElem?_append_right hge, List.getElem?_replicate, if_pos]
    rw [Bytes.length_toList] at hge ⊢
    omega
  window offset size := Bytes.window_append_zeros code k offset size

namespace Padded

variable {p q : Program}

/-- A continuation finds the instructions of the program. -/
theorem isMarked_of_isMarked (h : Padded p q) {mark : UInt8} {pc : Nat}
    (found : p.isMarked mark pc = true) : q.isMarked mark pc = true := by
  have hlt := lt_size_of_isMarked found
  rw [isMarked, h.isBoundary pc hlt, h.byteAt? pc hlt]
  exact found

/-- A continuation by zeros has no marks that the program has not. -/
theorem isMarked_eq (h : Padded p q) {mark : UInt8} (hmark : mark ≠ 0) (pc : Nat) :
    q.isMarked mark pc = p.isMarked mark pc := by
  rcases Nat.lt_or_ge pc p.size with hlt | hge
  · rw [isMarked, isMarked, h.isBoundary pc hlt, h.byteAt? pc hlt]
  · have hp : ¬ p.isMarked mark pc = true := fun hp => absurd (lt_size_of_isMarked hp) (by omega)
    -- a mark behind the end would be a zero byte
    have hq : ¬ q.isMarked mark pc = true := by
      intro hq
      have hbyte := (isMarked_iff.1 hq).2
      rw [h.zero pc hge (lt_size_of_isMarked hq)] at hbyte
      exact hmark (Option.some.inj hbyte).symm
    rw [Bool.not_eq_true] at hp hq
    rw [hp, hq]

theorem target?_eq (h : Padded p q) {mark : UInt8} (hmark : mark ≠ 0) (w : Word) :
    q.target? mark w = p.target? mark w := by
  have hmarks : q.isMarked mark = p.isMarked mark := funext (h.isMarked_eq hmark)
  rw [target?, target?, hmarks]

end Padded

end Program

/-! ## Alike but for where they stand past the end -/

/-- The second state is the first, unless both stand past `size`, where the place may differ. -/
def State.Alike (size : Nat) (s t : State) : Prop :=
  ∃ pc, t = { s with pc } ∧ (pc = s.pc ∨ size ≤ s.pc ∧ size ≤ pc)

theorem State.Alike.refl (size : Nat) (s : State) : s.Alike size s := ⟨s.pc, rfl, .inl rfl⟩

/-- Before the end there is one place only. -/
theorem State.Alike.eq_of_lt {size : Nat} {s t : State} (h : s.Alike size t) (hlt : s.pc < size) :
    t = s := by
  obtain ⟨pc, rfl, hpc⟩ := h
  obtain rfl : pc = s.pc := by omega
  rfl

/-- Halting keeps states alike. -/
theorem State.Alike.ofSuccess {size : Nat} {s t : State} (h : s.Alike size t)
    (halts : Option Halt) :
    (Outcome.ofSuccess s halts).state.Alike size (Outcome.ofSuccess t halts).state := by
  obtain ⟨pc, rfl, hpc⟩ := h
  rw [Outcome.state_ofSuccess, Outcome.state_ofSuccess]
  exact ⟨pc, rfl, hpc⟩

/-! ## Instructions -/

section Instructions

variable {p q : Program} {s next : State}

theorem jumpTo_eq_of_padded (h : Program.Padded p q) (s : State) (target : Word) :
    s.jumpTo q target = s.jumpTo p target := by
  have htarget : q.jumpTarget? target = p.jumpTarget? target := by
    rw [Program.jumpTarget?_eq, Program.jumpTarget?_eq]
    exact h.target?_eq (by decide) target
  rw [State.jumpTo, State.jumpTo, htarget]

theorem copyFrom_eq_of_padded (h : Program.Padded p q) (s : State) :
    s.copyFrom q.code = s.copyFrom p.code := by
  have hstore : ∀ (m : Memory) (offset a size : Nat),
      m.storePadded offset (Bytes.slice q.code a (a + size)) size =
        m.storePadded offset (Bytes.slice p.code a (a + size)) size := by
    intro m offset a size
    simp only [Memory.storePadded, Bytes.window_slice, h.window]
  simp only [State.copyFrom, hstore]

/-- **Most instructions cannot tell the programs apart.** -/
theorem execute_eq_of_padded (h : Program.Padded p q) (env : Environment) {op : Opcode}
    (hsize : op ≠ .codeSize) (hpush : ∀ n, op ≠ .push n) (hpc : s.instructionOffset < p.size) :
    execute ⟨q, env⟩ op s = execute ⟨p, env⟩ op s := by
  cases op with
  | codeSize => exact absurd rfl hsize
  | push n => exact absurd rfl (hpush n)
  | codeCopy => exact copyFrom_eq_of_padded h s
  | jump => simp only [execute, jumpTo_eq_of_padded h]
  | jumpi => simp only [execute, State.jumpIf, jumpTo_eq_of_padded h]
  | jumpSub =>
    have htarget : ∀ w, q.subroutineTarget? w = p.subroutineTarget? w := by
      rw [Program.subroutineTarget?_eq, Program.subroutineTarget?_eq]
      exact h.target?_eq (by decide)
    simp only [execute, State.callSubroutine, htarget]
  | invalid => simp only [execute, State.refuse, h.byteAt? _ hpc]
  | _ => rfl

/-- A push finds the same bytes, and fails for the same reason. -/
theorem pushImmediate_error_of_padded (h : Program.Padded p q) {n : Nat} {cause : Fault}
    (hs : s.pushImmediate p n = .error cause) : s.pushImmediate q n = .error cause := by
  unfold State.pushImmediate at hs ⊢
  rw [h.window]
  cases hpush : s.push (Word.ofBytes (Bytes.window p.code s.pc n)) with
  | error first =>
    simp only [hpush, bind, Except.bind] at hs ⊢
    exact hs
  | ok pushed =>
    simp only [hpush, bind, Except.bind] at hs
    cases hs

/-- A push that the shorter program cuts short may go past its end on the longer one. -/
theorem pushImmediate_ok_of_padded (h : Program.Padded p q) {n : Nat}
    (hs : s.pushImmediate p n = .ok next) :
    ∃ next', s.pushImmediate q n = .ok next' ∧ next.Alike p.size next' := by
  obtain ⟨pushed, hpush, hnext⟩ := bind_ok hs
  obtain rfl := Except.ok.inj hnext
  -- where the program ends first, it stops at its end and the continuation beyond
  have hle := h.size_le
  refine ⟨{ pushed with pc := min (s.pc + n) q.size }, ?_, min (s.pc + n) q.size, rfl, ?_⟩
  · unfold State.pushImmediate
    rw [h.window]
    simp only [hpush, bind, Except.bind]
  · show min (s.pc + n) q.size = min (s.pc + n) p.size ∨
      p.size ≤ min (s.pc + n) p.size ∧ p.size ≤ min (s.pc + n) q.size
    omega

/-- **What fails on the program fails on its continuation**, and for the same reason. -/
theorem execute_error_of_padded (h : Program.Padded p q) (env : Environment) {op : Opcode}
    (hpc : s.instructionOffset < p.size) {cause : Fault}
    (hs : execute ⟨p, env⟩ op s = .error cause) : execute ⟨q, env⟩ op s = .error cause := by
  by_cases hsize : op = .codeSize
  -- the sizes differ, but pushing either needs the same room
  · subst hsize
    exact State.push_error_congr rfl hs
  · by_cases hpush : ∃ n, op = .push n
    · obtain ⟨n, rfl⟩ := hpush
      exact pushImmediate_error_of_padded h hs
    · rw [execute_eq_of_padded h env hsize (fun n hn => hpush ⟨n, hn⟩) hpc]
      exact hs

/-- **What succeeds on the program succeeds on its continuation**, with states that are alike,
unless it asked for the size of the code. -/
theorem execute_ok_of_padded (h : Program.Padded p q) (env : Environment) {op : Opcode}
    (hsize : op ≠ .codeSize) (hpc : s.instructionOffset < p.size)
    (hs : execute ⟨p, env⟩ op s = .ok next) :
    ∃ next', execute ⟨q, env⟩ op s = .ok next' ∧ next.Alike p.size next' := by
  by_cases hpush : ∃ n, op = .push n
  · obtain ⟨n, rfl⟩ := hpush
    exact pushImmediate_ok_of_padded h hs
  · rw [execute_eq_of_padded h env hsize (fun n hn => hpush ⟨n, hn⟩) hpc]
    exact ⟨next, hs, .refl _ _⟩

end Instructions

/-! ## Lockstep -/

/-- The machine with zero bytes behind its code. -/
def Machine.extend (m : Machine) (k : Nat) : Machine :=
  { m with program := .load (m.program.code ++ Bytes.zeros k) }

theorem Machine.padded_extend (m : Machine) (k : Nat) :
    Program.Padded m.program (m.extend k).program := by
  have h := Program.padded_append_zeros m.program.code k
  rw [Program.load_code] at h
  exact h

section Lockstep

variable {m : Machine} {k : Nat} {s t : State}

/-- An entry that fails on the code fails for the same reason with zeros behind it. -/
theorem Entry.apply_error_extend (k : Nat) {entry : Entry} {cause : Fault}
    (hpc : s.pc < m.program.size)
    (hs : entry.apply m.toContext { s with pc := s.pc + 1 } = .error cause) :
    entry.apply (m.extend k).toContext { s with pc := s.pc + 1 } = .error cause := by
  have hoffset : (s.entered entry.fee).instructionOffset < m.program.size := hpc
  unfold Entry.apply State.charge at hs ⊢
  split at hs
  · rename_i hpaid
    rw [if_pos hpaid]
    exact execute_error_of_padded (m.padded_extend k) m.env hoffset hs
  · rename_i hpaid
    rw [if_neg hpaid]
    exact hs

/-- A machine in step that runs behind the end of the code stops, on a zero byte or for want of
one. -/
theorem step_extend_of_past (hstop : m.table.entry? .stop = some (Entry.standard .stop))
    (running : t.halted = none) (hin : t.InStep (m.extend k).program)
    (past : m.program.size ≤ t.pc) :
    ∃ pc, m.program.size ≤ pc ∧ ((m.extend k).step t).state = { t.halt .stopped with pc } := by
  rcases Nat.lt_or_ge t.pc (m.extend k).program.size with hlt | hge
  · have hboundary : (m.extend k).program.isBoundary t.pc = true :=
      hin.pc.resolve_right (by omega)
    have hfound : (m.extend k).program.isMarked Opcode.stop.toByte t.pc = true :=
      Program.isMarked_iff.2 ⟨hboundary, (m.padded_extend k).zero _ past hlt⟩
    have hexecute : execute (m.extend k).toContext .stop (t.entered 0) = .ok (t.entered 0) := rfl
    refine ⟨t.pc + 1, by omega, ?_⟩
    rw [Machine.step_of_known running hfound hstop,
      Machine.apply_of_ok (m := m.extend k) (Nat.zero_le _) hexecute]
    rfl
  · refine ⟨t.pc, past, ?_⟩
    rw [Machine.step_of_ended running hge]
    rfl

/-- **One step in lockstep.** Machines that stand alike stand alike after a step, unless it
carries out the instruction that asks for the size of the code. -/
theorem State.Alike.step (ht : m.table.Standard)
    (hstop : m.table.entry? .stop = some (Entry.standard .stop))
    (hst : s.Alike m.program.size t) (hs : s.InStep m.program)
    (hin : t.InStep (m.extend k).program) (hsize : m.performed? s ≠ some .codeSize) :
    (m.step s).state.Alike m.program.size ((m.extend k).step t).state := by
  have hpadded := m.padded_extend k
  have hway := m.stepped s
  generalize hstep : m.step s = outcome at hway ⊢
  cases hway with
  | rested reason halted =>
    obtain ⟨pc, rfl, hpc⟩ := hst
    rw [Machine.step_of_halted (s := { s with pc }) halted]
    exact ⟨pc, rfl, hpc⟩
  | ended running past =>
    obtain ⟨pc, rfl, hpc⟩ := hst
    have hpast : m.program.size ≤ pc := by omega
    obtain ⟨pc', hpc', hstep'⟩ :=
      step_extend_of_past (t := { s with pc }) hstop running hin hpast
    exact ⟨pc', hstep', .inr ⟨past, hpc'⟩⟩
  | strayed _ inside => exact absurd hs.pc inside
  -- The other ways find an instruction before the end of the code, where `t` is `s`.
  | unknown running byte found missing =>
    obtain rfl := hst.eq_of_lt (Program.lt_size_of_isMarked found)
    rw [Machine.step_of_unknown (m := m.extend k) running
      (hpadded.isMarked_of_isMarked found) missing]
    exact .refl _ _
  | faulted running op found entry known cause failure =>
    have hlt := Program.lt_size_of_isMarked found
    obtain rfl := hst.eq_of_lt hlt
    rw [Machine.step_of_known (m := m.extend k) running
        (hpadded.isMarked_of_isMarked found) known,
      Machine.apply_of_error (Entry.apply_error_extend k hlt failure)]
    exact .refl _ _
  | carried running op found entry known paid next success =>
    have hlt := Program.lt_size_of_isMarked found
    obtain rfl := hst.eq_of_lt hlt
    have hop : entry.action ≠ .codeSize := by
      rw [ht.action_eq known]
      rintro rfl
      exact hsize (Machine.performed?_of_carried ht running found known hstep)
    obtain ⟨next', hnext', halike⟩ :=
      execute_ok_of_padded (s := t.entered entry.fee) hpadded m.env hop hlt success
    rw [Machine.step_of_known (m := m.extend k) running
        (hpadded.isMarked_of_isMarked found) known,
      Machine.apply_of_ok (m := m.extend k) paid hnext']
    exact halike.ofSuccess entry.halts

/-- Machines that stand alike after a step have come to the same end. -/
theorem reason?_extend (h : (m.step s).state.Alike m.program.size ((m.extend k).step t).state) :
    ((m.extend k).step t).reason? = (m.step s).reason? := by
  obtain ⟨pc, heq, -⟩ := h
  have hhalted := congrArg State.halted heq
  rw [Machine.halted_step] at hhalted
  exact hhalted.trans (m.halted_step s)

/-- What is carried out is carried out with zeros behind the code. -/
theorem performed?_extend (hst : s.Alike m.program.size t)
    (hnext : (m.step s).state.Alike m.program.size ((m.extend k).step t).state) {op : Opcode}
    (hs : m.performed? s = some op) : (m.extend k).performed? t = some op := by
  obtain ⟨running, hfault, hbyte⟩ := Machine.performed?_eq_some_iff.1 hs
  have hlt : s.pc < m.program.size := Program.lt_size_of_byteAt? hbyte
  obtain rfl := hst.eq_of_lt hlt
  refine Machine.performed?_eq_some_iff.2
    ⟨running, ?_, ((m.padded_extend k).byteAt? _ hlt).trans hbyte⟩
  unfold Outcome.isFault at hfault ⊢
  rw [reason?_extend hnext]
  exact hfault

end Lockstep

/-! ## Along a run -/

/-- Machines that start alike stay alike, as long as the size of the code is not asked for. -/
theorem alike_trace_extend {m : Machine} (ht : m.table.IsBuiltIn) (k : Nat) : ∀ n : Nat,
    (∀ i < n, m.performed? (m.trace (State.initial m.env) i) ≠ some .codeSize) →
    (m.trace (State.initial m.env) n).Alike m.program.size
      ((m.extend k).trace (State.initial m.env) n)
  | 0, _ => .refl _ _
  | n + 1, hsize => by
    -- each machine is in step with its own code, which the lockstep of a step relies on
    have hn := alike_trace_extend ht k n fun i hi => hsize i (by omega)
    exact hn.step ht.standard ht.entry?_stop (m.inStep_trace ht.standard n)
      ((m.extend k).inStep_trace ht.standard n) (hsize n (by omega))

/-- **Zeros behind the code change nothing**, as long as its size is not asked for. After the same
number of steps the states agree but for `pc`, which may differ past the end. Running off the end
is the stop that stands there, and a push that the end cuts short is the push of the zeros that
follow. -/
theorem trace_extend (m : Machine) (builtIn : m.table.IsBuiltIn) (k n : Nat)
    (hsize : ∀ i < n, m.performed? (m.trace (State.initial m.env) i) ≠ some .codeSize) :
    let s := m.trace (State.initial m.env) n
    let t := (m.extend k).trace (State.initial m.env) n
    t.stack = s.stack ∧ t.returns = s.returns ∧ t.memory = s.memory ∧ t.storage = s.storage ∧
    t.gas = s.gas ∧ t.halted = s.halted ∧ t.output = s.output ∧
    (t.pc = s.pc ∨ m.program.size ≤ s.pc ∧ m.program.size ≤ t.pc) ∧
    (s.halted = none → m.program.size ≤ s.pc →
      (m.step s).reason? = some .stopped ∧ ((m.extend k).step t).reason? = some .stopped) ∧
    ∀ j, m.performed? s = some (.push j) →
      (m.extend k).performed? t = some (.push j) ∧
        ((m.extend k).step t).state.stack = (m.step s).state.stack := by
  intro s t
  have hst : s.Alike m.program.size t := alike_trace_extend builtIn k n hsize
  have hnext : m.performed? s ≠ some .codeSize →
      (m.step s).state.Alike m.program.size ((m.extend k).step t).state :=
    hst.step builtIn.standard builtIn.entry?_stop (m.inStep_trace builtIn.standard n)
      ((m.extend k).inStep_trace builtIn.standard n)
  have hstopped : s.halted = none → m.program.size ≤ s.pc →
      (m.step s).reason? = some .stopped ∧ ((m.extend k).step t).reason? = some .stopped := by
    intro running past
    have hreason : (m.step s).reason? = some .stopped := by
      rw [Machine.step_of_ended running past]
      rfl
    refine ⟨hreason, (reason?_extend (hnext fun hop => ?_)).trans hreason⟩
    have hlt := Program.lt_size_of_byteAt? (Machine.performed?_eq_some_iff.1 hop).2.2
    omega
  have hpush : ∀ j, m.performed? s = some (.push j) →
      (m.extend k).performed? t = some (.push j) ∧
        ((m.extend k).step t).state.stack = (m.step s).state.stack := by
    intro j hop
    have halike := hnext (by rw [hop]; nofun)
    obtain ⟨pc, heq, -⟩ := id halike
    refine ⟨performed?_extend hst halike hop, ?_⟩
    rw [heq]
  clear hnext
  obtain ⟨pc, heq, hpc⟩ := hst
  -- with `t` written as `s` at another place, the fields agree by definition
  generalize t = t' at heq hstopped hpush ⊢
  subst heq
  exact ⟨rfl, rfl, rfl, rfl, rfl, rfl, rfl, hpc, hstopped, hpush⟩

/-- A push of two bytes of which the code holds one. -/
def cutMachine : Machine where
  program := .load (.ofList [0x61, 0xaa])
  env := .blank
  table := .reference

/-- With five zeros behind, the push still pushes the byte and a zero, and the stop is found. -/
theorem trace_extend_of_cut :
    let s := cutMachine.trace (State.initial cutMachine.env) 2
    let t := (cutMachine.extend 5).trace (State.initial cutMachine.env) 2
    s.stack.words = [0xaa00] ∧ t.stack = s.stack ∧
      s.halted = some .stopped ∧ t.halted = s.halted ∧ t.pc ≠ s.pc := by
  have hsize : ∀ i < 2, cutMachine.performed? (cutMachine.trace (State.initial cutMachine.env) i) ≠
      some .codeSize := by
    decide +kernel
  obtain ⟨hstack, -, -, -, -, hhalted, -⟩ := trace_extend cutMachine (.inl rfl) 5 2 hsize
  exact ⟨by decide +kernel, hstack, by decide +kernel, hhalted, by decide +kernel⟩

end Retrace
