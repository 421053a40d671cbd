import Retrace.Proofs.Machine.Stores
import Retrace.Proofs.Machine.Words
/-!
# Retrace — call data and code, continued with zeros

Call data and code end somewhere, and instructions may ask for what lies behind
the end. Two ways lead there. A copy clips its range to the source and lets
memory fill up what is missing; a load of a word takes a window of the source.
Either reads what the source has and zeros from its end on, at every offset that
fits a word (`receives_execute`, `State.exists_loadFrom`), so that loading a word
is the same as copying it to memory and loading it from there. A copy of nothing
looks neither at its destination nor at its offset.
-/

namespace Retrace

/-- The byte of a source at an index, zero from its end on. -/
def Bytes.zeroExtended (source : Bytes) (index : Nat) : UInt8 :=
  if h : index < source.size then source[index] else 0

theorem Bytes.getD_toList (source : Bytes) (index : Nat) :
    (toList source)[index]?.getD 0 = zeroExtended source index := by
  unfold zeroExtended
  split
  · rename_i h
    rw [List.getElem?_eq_getElem (show index < (toList source).length from h), Option.getD_some]
    rfl
  · rename_i h
    rw [List.getElem?_eq_none (show (toList source).length ≤ index from Nat.le_of_not_lt h),
      Option.getD_none]

/-- The source of a copy. -/
def Opcode.source? (ctx : Context) : Opcode → Option Bytes
  | .callDataCopy => some ctx.env.callData
  | .codeCopy => some ctx.program.code
  | _ => none

/-- What memory is after it has received `size` bytes of a source, from `offset` on. -/
structure Memory.Receives (before after : Memory) (source : Bytes)
    (destination offset size : Nat) : Prop where
  /-- The bytes are there, zeros where the source has ended. -/
  received : ∀ i < size, (Bytes.toList after.bytes)[destination + i]? =
    some (source.zeroExtended (offset + i))
  /-- Every other address keeps its byte. -/
  kept : ∀ address < before.size, address < destination ∨ destination + size ≤ address →
    (Bytes.toList after.bytes)[address]? = (Bytes.toList before.bytes)[address]?
  /-- And what has been added is zero. -/
  added : ∀ address < after.size, before.size ≤ address →
    address < destination ∨ destination + size ≤ address →
      (Bytes.toList after.bytes)[address]? = some 0

/-- What memory has received is what the source has there. -/
theorem Memory.Receives.ofMap_eq {before after : Memory} {source : Bytes}
    {destination offset size : Nat} (h : before.Receives after source destination offset size) :
    Bytes.ofMap after.byteAt destination size = Bytes.ofMap source.zeroExtended offset size := by
  refine Bytes.eq_of_toList (List.ext_getElem? fun i => ?_)
  rw [Bytes.getElem?_ofMap, Bytes.getElem?_ofMap]
  split
  · rename_i hi
    rw [Memory.byteAt, h.received i hi, Option.getD_some]
  · rfl

/-- And so is a window. -/
theorem Bytes.window_eq_ofMap (source : Bytes) (offset size : Nat) :
    window source offset size = ofMap source.zeroExtended offset size := by
  refine eq_of_toList (List.ext_getElem? fun i => ?_)
  rw [getElem?_ofMap, getElem?_window, getD_toList]

/-! ## Copies -/

section Copies

variable {ctx : Context} {op : Opcode} {source : Bytes} {s next : State}

/-- A copy differs from another in its source alone. -/
theorem execute_of_source? (h : op.source? ctx = some source) (s : State) :
    execute ctx op s = s.copyFrom source ∧
      op.touched s = ((s.operand 0).toNat, (s.operand 2).toNat) := by
  cases op with
  | callDataCopy | codeCopy =>
    cases h
    exact ⟨rfl, rfl⟩
  | _ => cases h

/-- **A copy that succeeds has been received.** -/
theorem receives_execute (hsource : op.source? ctx = some source)
    (h : execute ctx op s = .ok next) :
    s.memory.Receives next.memory source
      (s.operand 0).toNat (s.operand 1).toNat (s.operand 2).toNat := by
  obtain ⟨hexecute, htouched⟩ := execute_of_source? hsource s
  have hbyte := State.copyFrom_writes (hexecute.symm.trans h)
  have hsize := (effect_of_execute h).account.size_memory
  rw [htouched] at hsize
  dsimp only at hsize
  refine ⟨fun i hi => ?_, fun address hlt hout => ?_, fun address hlt hge hout => ?_⟩
  · have hend : (s.operand 0).toNat + (s.operand 2).toNat ≤
        touchedEnd (s.operand 0).toNat (s.operand 2).toNat := add_le_touchedEnd (by omega)
    rw [Memory.getElem?_bytes (by rw [hsize]; omega), hbyte, if_pos (by omega),
      Bytes.getD_toList, Nat.add_sub_cancel_left]
  · rw [Memory.getElem?_bytes (by rw [hsize]; omega), Memory.getElem?_bytes hlt, hbyte,
      if_neg (by omega)]
  · rw [Memory.getElem?_bytes hlt, hbyte, if_neg (by omega), Memory.byteAt_of_size_le hge]

/-- The same at a step. -/
theorem Machine.receives_step {m : Machine} (standard : m.table.Standard)
    (hsource : op.source? m.toContext = some source) (h : m.performed? s = some op) :
    s.memory.Receives (m.step s).state.memory source
      (s.operand 0).toNat (s.operand 1).toNat (s.operand 2).toNat := by
  obtain ⟨entry, next, -, -, success, hstep⟩ := execute_of_performed? standard h
  have hreceived := receives_execute hsource success
  rw [hstep]
  exact hreceived

/-- **Nothing can be copied from anywhere to anywhere**, and costs nothing. -/
theorem State.copyFrom_nothing (henough : 3 ≤ s.stack.height) (hsize : s.operand 2 = 0)
    (source : Bytes) : ∃ stack : Stack, stack.words = s.stack.words.drop 3 ∧
      s.copyFrom source = .ok { s with stack } := by
  obtain ⟨operands, stack, hpop, hoperands, hrest⟩ := exists_pop henough
  have hrange : rangeOperands operands[0] operands[2] = .ok (0, 0) := by
    rw [hoperands 2 (by omega), hsize]
    exact if_pos rfl
  have hprice : Gas.copying 0 s.memory.size 0 = .ok 0 := by
    have hgrowth : Gas.expansion 0 s.memory.size = .ok 0 := if_pos (Nat.zero_le _)
    unfold Gas.copying Gas.expansionAndUnits
    rw [hgrowth]
    rfl
  have hcharge := charge_of_le (s := { s with stack }) (Nat.zero_le _)
  have hneeded : touchedSize 0 0 = .ok 0 := rfl
  refine ⟨stack, hrest, ?_⟩
  unfold copyFrom
  simp only [hpop, hrange, hneeded, hprice, hcharge, bind, Except.bind]
  rfl

end Copies

/-! ## Loads -/

/-- **A load pushes the word that the source has at the offset.** -/
theorem State.exists_loadFrom {s : State} (henough : 1 ≤ s.stack.height) (source : Bytes) :
    ∃ stack : Stack,
      stack.words = Word.ofBytes (Bytes.ofMap source.zeroExtended (s.operand 0).toNat 32) ::
        s.stack.words.drop 1 ∧
      s.loadFrom source = .ok { s with stack } :=
  exists_replace (by decide) henough
    (f := fun operands : Vector Word 1 =>
      Word.ofBytes (Bytes.window source operands[0].toNat 32))
    fun operands hoperands => by rw [hoperands 0 (by omega), Bytes.window_eq_ofMap]

/-- **Reads of call data and code are zero-extended**, at every offset. Under standard entries a
copy that succeeds leaves in memory what the source has from the offset on, zeros from its end on,
and nothing else is changed. A copy of no bytes goes through wherever it is to go, for the fee alone
and without touching memory. And a load of call data pushes the word that lies there in the same
sense: the word that is pushed, on any machine with these call data, by loading it from a place of
memory to which it has been copied just before. -/
theorem sources_read_zero_extended (m : Machine) (standard : m.table.Standard) (s : State) :
    (∀ op source, op.source? m.toContext = some source → m.performed? s = some op →
      s.memory.Receives (m.step s).state.memory source
        (s.operand 0).toNat (s.operand 1).toNat (s.operand 2).toNat) ∧
    (∀ op source entry, op.source? m.toContext = some source → s.halted = none →
      m.program.isMarked op.toByte s.pc = true → m.table.entry? op = some entry →
      entry.fee ≤ s.gas → 3 ≤ s.stack.words.length → s.operand 2 = 0 →
      ∃ stack : Stack, stack.words = s.stack.words.drop 3 ∧
        m.step s = .continued { s with pc := s.pc + 1, stack, gas := s.gas - entry.fee }) ∧
    (∀ entry, s.halted = none → m.program.isMarked Opcode.callDataLoad.toByte s.pc = true →
      m.table.entry? .callDataLoad = some entry → entry.fee ≤ s.gas →
      1 ≤ s.stack.words.length →
      ∃ (stack : Stack) (word : Word), stack.words = word :: s.stack.words.drop 1 ∧
        m.step s = .continued { s with pc := s.pc + 1, stack, gas := s.gas - entry.fee } ∧
        word = Word.ofBytes (Bytes.ofMap m.env.callData.zeroExtended (s.operand 0).toNat 32) ∧
        ∀ (other : Machine) (t u : State), other.table.Standard →
          other.env.callData = m.env.callData →
          other.performed? t = some .callDataCopy → t.operand 1 = s.operand 0 →
          t.operand 2 = 32 → other.performed? u = some .mload → u.operand 0 = t.operand 0 →
          u.memory = (other.step t).state.memory →
          (other.step u).state.stack.words = word :: u.stack.words.drop 1) := by
  refine ⟨fun op source => Machine.receives_step standard, ?_, ?_⟩
  · intro op source entry hsource running found known paid enough hsize
    obtain ⟨stack, hrest, success⟩ :=
      State.copyFrom_nothing (s := s.entered entry.fee) enough hsize source
    rw [← (execute_of_source? hsource _).1] at success
    have hgoes : (Entry.standard op).halts = none := by
      cases op <;> first | rfl | cases hsource
    exact ⟨stack, hrest,
      Machine.continued_of_execute standard hgoes running found known paid success⟩
  · intro entry running found known paid enough
    obtain ⟨stack, hwords, success⟩ :=
      State.exists_loadFrom (s := s.entered entry.fee) enough m.env.callData
    refine ⟨stack, _, hwords,
      Machine.continued_of_execute standard rfl running found known paid success, rfl, ?_⟩
    intro other t u hother hdata hcopy hoffset hsize hload hplace hmemory
    have hcopied := (Machine.receives_step hother rfl hcopy).ofMap_eq
    rw [hsize, hoffset, hdata] at hcopied
    rw [Machine.words_of_mload hother hload, hplace, hmemory]
    exact congrArg (fun bytes => Word.ofBytes bytes :: _) hcopied

/-- A code that copies call data, loads a word of memory and loads one of call data. -/
def fetchingMachine : Machine where
  program := .load (.ofList [0x37, 0x51, 0x35])
  env := { Environment.blank with callData := .ofList [0xaa, 0xbb] }
  table := .reference

/-- The machine at an offset of its code, with a memory and some words on the stack. -/
def fetchingState (pc : Nat) (memory : Memory) (words : List Word)
    (bounded : words.length ≤ stackLimit) : State :=
  { State.initial fetchingMachine.env with pc, memory, stack := ⟨words, bounded⟩ }

/-- Two bytes of call data, read from the second one on: the copy writes it and zeros behind it, the
load pushes it and zeros behind it, and so does the load of the copy. A copy of nothing from and to
the largest word goes through. -/
theorem sources_read_zero_extended_of_tail :
    let copying := fetchingState 0 .empty [0, 1, 32] (by decide)
    let copied := (fetchingMachine.step copying).state.memory
    let idle := fetchingState 0 .empty [.allOnes 256, .allOnes 256, 0] (by decide)
    let loading := fetchingState 2 .empty [1] (by decide)
    (Bytes.toList copied.bytes)[0]? = some 0xbb ∧ (Bytes.toList copied.bytes)[1]? = some 0 ∧
      fetchingMachine.step idle =
        .continued { idle with pc := 1, stack := .empty, gas := defaultGasLimit - 3 } ∧
      (fetchingMachine.step loading).state.stack.words =
        (fetchingMachine.step (fetchingState 1 copied [0] (by decide))).state.stack.words := by
  intro copying copied idle loading
  have hbuiltIn : fetchingMachine.table.IsBuiltIn := .inl rfl
  have hreads := sources_read_zero_extended fetchingMachine hbuiltIn.standard
  have hcopy : fetchingMachine.performed? copying = some .callDataCopy := by decide +kernel
  have hreceived := (hreads copying).1 .callDataCopy _ rfl hcopy
  obtain ⟨stack, hempty, hidle⟩ := (hreads idle).2.1 .callDataCopy _ (.standard .callDataCopy) rfl
    rfl (by decide +kernel) (hbuiltIn.entry?_eq rfl) (by decide) (by decide) rfl
  obtain ⟨pushed, word, hword, hload, -, hsame⟩ := (hreads loading).2.2 (.standard .callDataLoad)
    rfl (by decide +kernel) (hbuiltIn.entry?_eq rfl) (by decide) (by decide)
  have hagain := hsame fetchingMachine copying (fetchingState 1 copied [0] (by decide))
    hbuiltIn.standard rfl hcopy rfl rfl (by decide +kernel) rfl rfl
  obtain rfl : stack = .empty := by
    cases stack
    simp only [Stack.empty, Stack.mk.injEq]
    exact hempty
  refine ⟨hreceived.received 0 (by decide), hreceived.received 1 (by decide), hidle, ?_⟩
  rw [hload, hagain]
  exact hword

end Retrace
