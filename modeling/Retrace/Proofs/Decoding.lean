import Retrace.Program
import Retrace.Proofs.Windows
/-!
# Retrace — where instructions start

`scan` walks the code once and says of each byte whether an instruction starts
there. This file reads the walk from the inside: from a boundary on, the scan
is the scan of what is left (`drop_scan`), so that the instruction after a
boundary starts at a boundary again or past the last byte (`lands_next`). That
is what keeps a machine aligned which goes from one instruction to the next.
An offset is marked with a byte where an instruction with that byte starts
(`isMarked`); the places to go to that the scan has recorded are the offsets
marked with the one byte or the other (`isJumpDestination_eq`,
`isSubroutineEntry_eq`). A scan also looks only backward, so that bytes put
behind a code leave its boundaries as they are (`isBoundary_load_append`).
-/

namespace Retrace

/-! ## Bytes and their instructions -/

namespace Opcode

theorem toNat_toByte_of_ofPlainByte? {n : Nat} {op : Opcode} (h : ofPlainByte? n = some op) :
    op.toByte.toNat = n := by
  unfold ofPlainByte? at h
  split at h <;> cases h <;> rfl

/-- **Writing a byte undoes reading it.** -/
theorem toByte_of_ofByte? {byte : UInt8} {op : Opcode} (h : ofByte? byte = some op) :
    op.toByte = byte := by
  have hlt := byte.toNat_lt
  refine UInt8.toNat_inj.1 ?_
  simp only [ofByte?] at h
  -- the three families first, then the bytes with a name of their own
  split at h
  · cases h
    simp only [toByte, UInt8.toNat_ofNat']
    omega
  · split at h
    · cases h
      simp only [toByte, UInt8.toNat_ofNat']
      omega
    · split at h
      · cases h
        simp only [toByte, UInt8.toNat_ofNat']
        omega
      · exact toNat_toByte_of_ofPlainByte? h

/-- Only the pushes carry immediate bytes. -/
theorem immediateSize_toByte (op : Opcode) :
    immediateSize op.toByte = match op with | .push n => n.val + 1 | _ => 0 := by
  cases op with
  | push n => revert n; decide
  | dup n => revert n; decide
  | swap n => revert n; decide
  | _ => rfl

/-- All other instructions are a single byte. -/
theorem immediateSize_toByte_of_ne {op : Opcode} (hpush : ∀ n, op ≠ .push n) :
    immediateSize op.toByte = 0 := by
  rw [immediateSize_toByte]
  split
  · rename_i n
    exact absurd rfl (hpush n)
  · rfl

end Opcode

/-! ## The walk -/

/-- **The scan is in step wherever an instruction starts**: from there on it is the scan of the
rest. -/
theorem drop_scan {skip o : Nat} {code : List UInt8} {note : Note}
    (h : (scan skip code)[o]? = some note) (hlength : note.length ≠ 0) :
    (scan skip code).drop o = scan 0 (code.drop o) := by
  induction code generalizing skip o with
  | nil => cases skip <;> cases h
  | cons byte rest ih =>
    cases skip with
    | zero =>
      cases o with
      | zero => rfl
      | succ o => exact ih h
    | succ skip =>
      cases o with
      -- inside an immediate nothing starts
      | zero =>
        cases Option.some.inj h
        exact absurd rfl hlength
      | succ o => exact ih h

/-- Behind the immediate bytes the scan starts afresh. -/
theorem getElem?_scan_add (skip i : Nat) (code : List UInt8) :
    (scan skip code)[skip + i]? = (scan 0 (code.drop skip))[i]? := by
  induction skip generalizing code with
  | zero => rw [Nat.zero_add, List.drop_zero]
  | succ skip ih =>
    cases code with
    | nil => rfl
    | cons byte rest =>
      rw [Nat.succ_add]
      exact ih rest

/-- A fresh scan starts with an instruction. -/
theorem getElem?_scan_zero {code : List UInt8} {byte : UInt8} (h : code[0]? = some byte) :
    (scan 0 code)[0]? = some (.ofByte byte) := by
  cases code with
  | nil => cases h
  | cons first rest =>
    cases Option.some.inj h
    rfl

/-- **The scan does not look ahead.** -/
theorem getElem?_scan_append {skip o : Nat} {code : List UInt8} (more : List UInt8)
    (h : o < code.length) : (scan skip (code ++ more))[o]? = (scan skip code)[o]? := by
  induction code generalizing skip o with
  | nil => exact absurd h (Nat.not_lt_zero o)
  | cons byte rest ih =>
    cases o with
    | zero => cases skip <;> rfl
    | succ o =>
      have ho : o < rest.length := Nat.lt_of_succ_lt_succ h
      cases skip with
      | zero => exact ih ho
      | succ skip => exact ih ho

/-- Where the scan finds no instruction it records no mark. -/
theorem eq_inside_of_mem_scan {skip : Nat} {code : List UInt8} {note : Note}
    (h : note ∈ scan skip code) (hlength : note.length = 0) : note = .inside := by
  induction code generalizing skip with
  | nil => cases skip <;> cases h
  | cons byte rest ih =>
    cases skip with
    | zero =>
      rcases List.mem_cons.1 h with rfl | hrest
      · exact absurd hlength (Note.length_ofByte_ne_zero byte)
      · exact ih hrest
    | succ skip =>
      rcases List.mem_cons.1 h with rfl | hrest
      · rfl
      · exact ih hrest

/-! ## Boundaries -/

namespace Program

variable {p : Program} {pc : Nat} {byte : UInt8}

/-- Where an instruction may start or the code has just ended: the offsets at which a machine
that keeps in step with the decoding stands. -/
def Lands (p : Program) (pc : Nat) : Prop := p.isBoundary pc = true ∨ pc = p.size

theorem byteAt?_eq (p : Program) (pc : Nat) : p.byteAt? pc = (Bytes.toList p.code)[pc]? := by
  unfold byteAt?
  by_cases h : pc < p.code.size
  · rw [getElem?_pos p.code pc h]
    exact (List.getElem?_eq_getElem h).symm
  · rw [getElem?_neg p.code pc h]
    exact (List.getElem?_eq_none (Nat.le_of_not_lt h)).symm

theorem byteAt?_eq_none_iff : p.byteAt? pc = none ↔ p.size ≤ pc := by
  rw [byteAt?_eq, List.getElem?_eq_none_iff]
  exact Iff.rfl

theorem lt_size_of_byteAt? (h : p.byteAt? pc = some byte) : pc < p.size := by
  rw [byteAt?_eq] at h
  exact (List.getElem?_eq_some_iff.1 h).1

theorem exists_byteAt? (h : pc < p.size) : ∃ byte, p.byteAt? pc = some byte := by
  rw [byteAt?_eq]
  exact ⟨_, List.getElem?_eq_getElem h⟩

theorem isBoundary_iff : p.isBoundary pc = true ↔
    ∃ note, (scan 0 (Bytes.toList p.code))[pc]? = some note ∧ note.length ≠ 0 := by
  rw [isBoundary, p.notes_eq, List.getElem?_toArray]
  cases (scan 0 (Bytes.toList p.code))[pc]? <;> simp

theorem lt_size_of_isBoundary (h : p.isBoundary pc = true) : pc < p.size := by
  obtain ⟨note, hscan, -⟩ := isBoundary_iff.1 h
  have hlt := (List.getElem?_eq_some_iff.1 hscan).1
  rw [length_scan] at hlt
  exact hlt

/-- Whether an instruction with the given byte starts at the offset. -/
def isMarked (p : Program) (mark : UInt8) (offset : Nat) : Bool :=
  p.isBoundary offset && p.byteAt? offset == some mark

theorem isMarked_iff {mark : UInt8} : p.isMarked mark pc = true ↔
    p.isBoundary pc = true ∧ p.byteAt? pc = some mark := by
  rw [isMarked, Bool.and_eq_true, beq_iff_eq]

theorem lt_size_of_isMarked {mark : UInt8} (h : p.isMarked mark pc = true) : pc < p.size :=
  lt_size_of_isBoundary (isMarked_iff.1 h).1

/-- An instruction has a byte. -/
theorem exists_isMarked (h : p.isBoundary pc = true) : ∃ byte, p.isMarked byte pc = true := by
  obtain ⟨byte, hbyte⟩ := exists_byteAt? (lt_size_of_isBoundary h)
  exact ⟨byte, isMarked_iff.2 ⟨h, hbyte⟩⟩

/-- **Where an instruction starts, it is recorded.** -/
theorem getElem?_notes_of_isMarked {mark : UInt8} (h : p.isMarked mark pc = true) :
    p.notes[pc]? = some (.ofByte mark) := by
  obtain ⟨hboundary, hbyte⟩ := isMarked_iff.1 h
  obtain ⟨note, hscan, hlength⟩ := isBoundary_iff.1 hboundary
  have hfirst : ((Bytes.toList p.code).drop pc)[0]? = some mark := by
    rw [List.getElem?_drop, Nat.add_zero, ← byteAt?_eq, hbyte]
  calc p.notes[pc]?
      = (scan 0 (Bytes.toList p.code))[pc]? := by rw [p.notes_eq, List.getElem?_toArray]
    _ = ((scan 0 (Bytes.toList p.code)).drop pc)[0]? := by rw [List.getElem?_drop, Nat.add_zero]
    _ = (scan 0 ((Bytes.toList p.code).drop pc))[0]? := by rw [drop_scan hscan hlength]
    _ = some (.ofByte mark) := getElem?_scan_zero hfirst

/-- Its length is that of its byte. -/
theorem instructionLength_of_isMarked {mark : UInt8} (h : p.isMarked mark pc = true) :
    p.instructionLength pc = Opcode.immediateSize mark + 1 := by
  rw [instructionLength, getElem?_notes_of_isMarked h]
  rfl

/-- Behind the byte of an instruction the scan goes on inside its immediate. -/
theorem getElem?_scan_behind {mark : UInt8} (h : p.isMarked mark pc = true) (i : Nat) :
    (scan 0 (Bytes.toList p.code))[pc + 1 + i]? =
      (scan (Opcode.immediateSize mark) ((Bytes.toList p.code).drop (pc + 1)))[i]? := by
  obtain ⟨hboundary, hbyte⟩ := isMarked_iff.1 h
  obtain ⟨note, hscan, hlength⟩ := isBoundary_iff.1 hboundary
  rw [byteAt?_eq] at hbyte
  obtain ⟨hpc, hget⟩ := List.getElem?_eq_some_iff.1 hbyte
  have hwalk := drop_scan hscan hlength
  rw [List.drop_eq_getElem_cons hpc, hget] at hwalk
  rw [Nat.add_assoc, Nat.add_comm 1 i, ← List.getElem?_drop, hwalk]
  rfl

/-- **One instruction after the other.** The instruction behind a boundary starts at a boundary,
or the code has ended. -/
theorem lands_next (h : p.isBoundary pc = true) (hbyte : p.byteAt? pc = some byte) :
    p.Lands (min (pc + 1 + Opcode.immediateSize byte) p.size) := by
  rcases Nat.lt_or_ge (pc + 1 + Opcode.immediateSize byte) p.size with hlt | hge
  · rw [Nat.min_eq_left (Nat.le_of_lt hlt)]
    obtain ⟨next, hnext⟩ := exists_byteAt? hlt
    rw [byteAt?_eq] at hnext
    have hstart : (List.drop (Opcode.immediateSize byte)
        (List.drop (pc + 1) (Bytes.toList p.code)))[0]? = some next := by
      rw [List.getElem?_drop, List.getElem?_drop, Nat.add_zero]
      exact hnext
    refine .inl (isBoundary_iff.2 ⟨_, ?_, Note.length_ofByte_ne_zero next⟩)
    calc (scan 0 (Bytes.toList p.code))[pc + 1 + Opcode.immediateSize byte]?
        = (scan (Opcode.immediateSize byte) ((Bytes.toList p.code).drop (pc + 1)))[
            Opcode.immediateSize byte + 0]? := getElem?_scan_behind (isMarked_iff.2 ⟨h, hbyte⟩) _
      _ = some (.ofByte next) := by rw [getElem?_scan_add, getElem?_scan_zero hstart]
  · rw [Nat.min_eq_right hge]
    exact .inr rfl

/-- Behind an instruction without immediate bytes the next one starts. -/
theorem lands_behind {op : Opcode} (found : p.isMarked op.toByte pc = true)
    (hpush : ∀ n, op ≠ .push n) : p.Lands (pc + 1) := by
  obtain ⟨hboundary, hbyte⟩ := isMarked_iff.1 found
  have hnext := lands_next hboundary hbyte
  rw [Opcode.immediateSize_toByte_of_ne hpush, Nat.add_zero,
    Nat.min_eq_left (lt_size_of_isBoundary hboundary)] at hnext
  exact hnext

/-- The first instruction starts at offset zero. -/
theorem lands_zero (p : Program) : p.Lands 0 := by
  rcases Nat.eq_zero_or_pos p.size with hz | hpos
  · exact .inr hz.symm
  · obtain ⟨byte, hbyte⟩ := exists_byteAt? hpos
    rw [byteAt?_eq] at hbyte
    exact .inl (isBoundary_iff.2 ⟨_, getElem?_scan_zero hbyte, Note.length_ofByte_ne_zero byte⟩)

/-! ## Places to go to -/

/-- **What is recorded of instructions with one byte is found where they start**, and nowhere
else. -/
theorem any_notes_eq {mark : UInt8} {recorded : Note → Bool} (hinside : recorded .inside = false)
    (hbyte : ∀ byte, recorded (.ofByte byte) = (byte == mark)) (pc : Nat) :
    p.notes[pc]?.any recorded = p.isMarked mark pc := by
  cases hboundary : p.isBoundary pc with
  | true =>
    obtain ⟨byte, hfound⟩ := exists_isMarked hboundary
    rw [getElem?_notes_of_isMarked hfound, Option.any_some, hbyte, isMarked,
      (isMarked_iff.1 hfound).2, hboundary]
    rfl
  | false =>
    rw [isMarked, hboundary, Bool.false_and]
    cases hnote : p.notes[pc]? with
    | none => rfl
    | some note =>
      have hlength : note.length = 0 := by
        simpa [isBoundary, hnote] using hboundary
      rw [p.notes_eq, List.getElem?_toArray] at hnote
      rw [Option.any_some, eq_inside_of_mem_scan (List.mem_of_getElem? hnote) hlength, hinside]

theorem isJumpDestination_eq (pc : Nat) :
    p.isJumpDestination pc = p.isMarked Opcode.jumpDestByte pc :=
  any_notes_eq rfl (fun _ => rfl) pc

theorem isSubroutineEntry_eq (pc : Nat) :
    p.isSubroutineEntry pc = p.isMarked Opcode.beginSubByte pc :=
  any_notes_eq rfl (fun _ => rfl) pc

/-- The offset that a word names, if an instruction with the given byte starts there. -/
def target? (p : Program) (mark : UInt8) (word : Word) : Option Nat :=
  (Word.quantity? word).filter (p.isMarked mark)

theorem jumpTarget?_eq (p : Program) : p.jumpTarget? = p.target? Opcode.jumpDestByte := by
  funext word
  rw [jumpTarget?, target?, funext isJumpDestination_eq]

theorem subroutineTarget?_eq (p : Program) :
    p.subroutineTarget? = p.target? Opcode.beginSubByte := by
  funext word
  rw [subroutineTarget?, target?, funext isSubroutineEntry_eq]

/-- A target carries the mark that was asked for. -/
theorem isMarked_of_target? {mark : UInt8} {w : Word} (h : p.target? mark w = some pc) :
    p.isMarked mark pc = true :=
  (Option.filter_eq_some_iff.1 h).2

/-! ## More code behind -/

theorem byteAt?_load_append {code : Bytes} (more : Bytes) (h : pc < code.size) :
    (load (code ++ more)).byteAt? pc = (load code).byteAt? pc := by
  rw [byteAt?_eq, byteAt?_eq]
  simp only [load, Bytes.toList_append]
  exact List.getElem?_append_left h

/-- **What stands behind a code does not move its boundaries.** -/
theorem isBoundary_load_append {code : Bytes} (more : Bytes) (h : pc < code.size) :
    (load (code ++ more)).isBoundary pc = (load code).isBoundary pc := by
  have hlt : pc < (Bytes.toList code).length := h
  simp only [isBoundary, load, Bytes.toList_append, List.getElem?_toArray]
  rw [getElem?_scan_append _ hlt]

end Program

end Retrace
