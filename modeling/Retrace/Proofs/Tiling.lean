import Mathlib.Data.Set.Pairwise.Lattice
import Mathlib.Order.CompletePartialOrder
import Mathlib.Order.Interval.Set.Defs
import Retrace.Proofs.Decoding
/-!
# Retrace — instructions tile the code

Where instructions start can be said without a scan: at offset zero, behind
every instruction inside the code, and nowhere else (`Bytes.ClosedStarts`). The
boundaries that the scan finds are the least set of offsets of that kind. Two
facts about them carry everything else. No instruction starts inside another
one (`not_isBoundary_of_between`), and every byte belongs to an instruction
(`exists_span`), so that the instructions cut the code into pieces without a
gap. A marker byte counts only where an instruction starts, and the words and
the lists that name marked offsets name the same ones.
-/

namespace Retrace

/-! ## Where instructions may start -/

/-- A set of offsets that has the first instruction of a code and, with any instruction in it, the
one behind. -/
structure Bytes.ClosedStarts (code : Bytes) (starts : Set Nat) : Prop where
  first : 0 < code.size → 0 ∈ starts
  next : ∀ o ∈ starts, ∀ byte, code[o]? = some byte →
    o + 1 + Opcode.immediateSize byte < code.size → o + 1 + Opcode.immediateSize byte ∈ starts

/-- Inside an immediate the scan says that nothing starts. -/
theorem getElem?_scan_of_lt {skip i : Nat} {code : List UInt8} (hskip : i < skip)
    (hi : i < code.length) : (scan skip code)[i]? = some .inside := by
  induction code generalizing skip i with
  | nil => exact absurd hi (Nat.not_lt_zero i)
  | cons byte rest ih =>
    cases skip with
    | zero => exact absurd hskip (Nat.not_lt_zero i)
    | succ skip =>
      cases i with
      | zero => rfl
      | succ i => exact ih (Nat.lt_of_succ_lt_succ hskip) (Nat.lt_of_succ_lt_succ hi)

namespace Program

variable {p : Program} {byte mark : UInt8} {i o k : Nat}

/-- The offsets at which an instruction starts. -/
def starts (p : Program) : Set Nat := {o | p.isBoundary o = true}

/-- The offsets of an instruction, as far as the code reaches. -/
def span (p : Program) (o : Nat) : Set Nat := Set.Ico o (min (o + p.instructionLength o) p.size)

/-! ## No instruction inside another one -/

/-- **Nothing starts before an instruction has ended.** -/
theorem not_isBoundary_of_between (h : p.isBoundary o = true) (hlow : o < k)
    (hhigh : k < o + p.instructionLength o) : p.isBoundary k = false := by
  refine Bool.eq_false_iff.2 fun hk => ?_
  obtain ⟨byte, hfound⟩ := exists_isMarked h
  have hlength := instructionLength_of_isMarked hfound
  have hsize : k < (Bytes.toList p.code).length := lt_size_of_isBoundary hk
  have hbehind : o + 1 + (k - o - 1) = k := by omega
  have hinside : (scan 0 (Bytes.toList p.code))[k]? = some .inside := by
    calc (scan 0 (Bytes.toList p.code))[k]?
        = (scan (Opcode.immediateSize byte) ((Bytes.toList p.code).drop (o + 1)))[k - o - 1]? := by
          rw [← getElem?_scan_behind hfound, hbehind]
      _ = some .inside := by
          refine getElem?_scan_of_lt (by omega) ?_
          rw [List.length_drop]
          omega
  obtain ⟨other, hother, hother_nonzero⟩ := isBoundary_iff.1 hk
  rw [hinside] at hother
  cases hother
  exact hother_nonzero rfl

/-- So a byte belongs to one instruction at most. -/
theorem eq_of_mem_span {o' : Nat} (ho : o ∈ p.starts) (ho' : o' ∈ p.starts) (hi : i ∈ p.span o)
    (hi' : i ∈ p.span o') : o = o' := by
  obtain ⟨hlow, hhigh⟩ := hi
  obtain ⟨hlow', hhigh'⟩ := hi'
  rcases Nat.lt_trichotomy o o' with hlt | heq | hgt
  · have hinside : p.isBoundary o' = false := not_isBoundary_of_between ho hlt (by omega)
    rw [show p.isBoundary o' = true from ho'] at hinside
    cases hinside
  · exact heq
  · have hinside : p.isBoundary o = false := not_isBoundary_of_between ho' hgt (by omega)
    rw [show p.isBoundary o = true from ho] at hinside
    cases hinside

/-! ## No gap between instructions -/

/-- The instruction behind one that ends inside the code starts right there. -/
theorem isBoundary_next (h : p.isBoundary o = true)
    (hinside : o + p.instructionLength o < p.size) :
    p.isBoundary (o + p.instructionLength o) = true := by
  obtain ⟨byte, hfound⟩ := exists_isMarked h
  have hlength := instructionLength_of_isMarked hfound
  have hnext := lands_next h (isMarked_iff.1 hfound).2
  have hend : o + 1 + Opcode.immediateSize byte = o + p.instructionLength o := by omega
  rw [hend, Nat.min_eq_left (Nat.le_of_lt hinside)] at hnext
  rcases hnext with hboundary | hsize
  · exact hboundary
  · omega

/-- An instruction is not empty. -/
theorem instructionLength_pos (h : p.isBoundary o = true) : 0 < p.instructionLength o := by
  obtain ⟨byte, hfound⟩ := exists_isMarked h
  rw [instructionLength_of_isMarked hfound]
  exact Nat.succ_pos _

/-- **Every byte belongs to an instruction**, by induction on its offset: either to that of the byte
before, or that one has just ended and the next one starts. -/
theorem exists_span (hi : i < p.size) : ∃ o ∈ p.starts, i ∈ p.span o := by
  induction i with
  | zero =>
    rcases p.lands_zero with hboundary | hsize
    · have hpos := instructionLength_pos hboundary
      exact ⟨0, hboundary, Nat.le_refl 0, by omega⟩
    · omega
  | succ i ih =>
    obtain ⟨o, hstart, hlow, hhigh⟩ := ih (by omega)
    rcases Nat.lt_or_ge (i + 1) (o + p.instructionLength o) with hlt | hge
    · exact ⟨o, hstart, by omega, by omega⟩
    · have hend : o + p.instructionLength o = i + 1 := by omega
      have hnext := isBoundary_next hstart (by omega)
      rw [hend] at hnext
      have hpos := instructionLength_pos hnext
      exact ⟨i + 1, hnext, Nat.le_refl _, by omega⟩

/-- **An instruction that is not the first stands behind another one.** -/
theorem exists_before (h : p.isBoundary o = true) (hpos : 0 < o) :
    ∃ before, p.isBoundary before = true ∧ before < o ∧
      before + p.instructionLength before = o := by
  have hsize := lt_size_of_isBoundary h
  -- the byte in front belongs to an instruction, which ends here as none starts inside it
  obtain ⟨before, hstart, hlow, hhigh⟩ := exists_span (p := p) (i := o - 1) (by omega)
  refine ⟨before, hstart, by omega, ?_⟩
  rcases Nat.lt_or_ge o (before + p.instructionLength before) with hlt | hge
  · rw [not_isBoundary_of_between hstart (by omega) hlt] at h
    cases h
  · omega

/-! ## The least set of starts -/

/-- The boundaries have all that a set of starts must have. -/
theorem closedStarts_starts (p : Program) : Bytes.ClosedStarts p.code p.starts where
  first hpos := by
    rcases p.lands_zero with hboundary | hsize
    · exact hboundary
    · exact absurd hsize (Nat.ne_of_lt hpos)
  next o hstart byte hbyte hinside := by
    have hlength := instructionLength_of_isMarked (isMarked_iff.2 ⟨hstart, hbyte⟩)
    have hend : o + 1 + Opcode.immediateSize byte = o + p.instructionLength o := by omega
    rw [hend] at hinside ⊢
    exact isBoundary_next hstart hinside

/-- And nothing else: a boundary is reached from the first one, instruction by instruction. -/
theorem mem_of_closedStarts {starts : Set Nat} (closed : Bytes.ClosedStarts p.code starts)
    (h : p.isBoundary o = true) : o ∈ starts := by
  induction o using Nat.strong_induction_on with
  | _ o ih =>
    have hsize : o < p.code.size := lt_size_of_isBoundary h
    rcases Nat.eq_zero_or_pos o with rfl | hpos
    · exact closed.first hsize
    · obtain ⟨before, hstart, hlt, hend⟩ := exists_before h hpos
      obtain ⟨byte, hfound⟩ := exists_isMarked hstart
      have hlength := instructionLength_of_isMarked hfound
      have hnext : before + 1 + Opcode.immediateSize byte = o := by omega
      have hclosed := closed.next before (ih before hlt hstart) byte (isMarked_iff.1 hfound).2
      rw [hnext] at hclosed
      exact hclosed hsize

theorem isLeast_starts (p : Program) :
    IsLeast {starts | Bytes.ClosedStarts p.code starts} p.starts :=
  ⟨p.closedStarts_starts, fun _ closed _ h => mem_of_closedStarts closed h⟩

/-! ## Lengths and immediates -/

/-- Length zero is what the bytes of immediates have, and only they. -/
theorem instructionLength_eq_zero_iff :
    p.instructionLength o = 0 ↔ o < p.size ∧ p.isBoundary o = false := by
  have hsize := p.size_notes
  unfold instructionLength isBoundary
  rcases Nat.lt_or_ge o p.size with hlt | hge
  · rw [Array.getElem?_eq_getElem (by omega)]
    simp [hlt]
  · rw [Array.getElem?_eq_none (by omega)]
    simp
    omega

/-- An immediate is what the code has behind the instruction byte. -/
theorem immediate_of_isMarked (fits : p.size < quantityBound) (found : p.isMarked byte o = true) :
    p.immediate o =
      p.code.extract (o + 1) (min (o + 1 + Opcode.immediateSize byte) p.code.size) := by
  have hbound : p.code.size ≤ maxQuantity := Nat.le_sub_one_of_lt fits
  have hlength := instructionLength_of_isMarked found
  have hend : o + p.instructionLength o = o + 1 + Opcode.immediateSize byte := by omega
  rw [immediate, nextOffset, Bytes.slice_min_stop hbound, hend, Bytes.slice]
  split
  · rfl
  · -- the instruction byte is the last one of the code
    rename_i hlast
    refine (Bytes.eq_of_toList ?_).symm
    rw [Bytes.toList_extract, List.drop_eq_nil_of_le (by rw [Bytes.length_toList]; omega)]
    exact List.take_nil

/-! ## Marked offsets -/

/-- The words and the list that name the offsets with a mark: a word is taken for an offset exactly
where an instruction with that byte starts, and the list has the same offsets, ascending. -/
structure NamesMarked (p : Program) (mark : UInt8) (target? : Word → Option Nat)
    (offsets : List Nat) : Prop where
  target : ∀ word : Word, target? word =
    if p.isBoundary word.toNat = true ∧ p.code[word.toNat]? = some mark then some word.toNat
    else none
  ascending : offsets.Pairwise (· < ·)
  mem : ∀ o, o ∈ offsets ↔ p.isBoundary o = true ∧ p.code[o]? = some mark

/-- A word too large for an offset names none, as no code is so long. -/
theorem target?_eq_ite (fits : p.size < quantityBound) (mark : UInt8) (word : Word) :
    p.target? mark word = if p.isMarked mark word.toNat = true then some word.toNat else none := by
  rw [target?, Word.quantity?, quantity?]
  by_cases hfound : p.isMarked mark word.toNat = true
  · have hsize := lt_size_of_isMarked hfound
    rw [if_pos (by omega), if_pos hfound, Option.filter_some, if_pos hfound]
  · rw [if_neg hfound]
    split
    · rw [Option.filter_some, if_neg hfound]
    · rfl

theorem namesMarked (fits : p.size < quantityBound) (mark : UInt8) :
    p.NamesMarked mark (p.target? mark) ((List.range p.size).filter (p.isMarked mark)) where
  target word := by
    rw [target?_eq_ite fits]
    exact if_congr isMarked_iff rfl rfl
  ascending := List.pairwise_lt_range.filter _
  mem o := by
    rw [List.mem_filter, List.mem_range]
    constructor
    · rintro ⟨-, hfound⟩
      exact isMarked_iff.1 hfound
    · intro h
      have hfound : p.isMarked mark o = true := isMarked_iff.2 h
      exact ⟨lt_size_of_isMarked hfound, hfound⟩

theorem namesMarked_jumpDestinations (fits : p.size < quantityBound) :
    p.NamesMarked Opcode.jumpDestByte p.jumpTarget? p.jumpDestinations := by
  rw [jumpTarget?_eq, jumpDestinations, funext isJumpDestination_eq]
  exact namesMarked fits _

theorem namesMarked_subroutineEntries (fits : p.size < quantityBound) :
    p.NamesMarked Opcode.beginSubByte p.subroutineTarget? p.subroutineEntries := by
  rw [subroutineTarget?_eq, subroutineEntries, funext isSubroutineEntry_eq]
  exact namesMarked fits _

end Program

/-- **A code is cut into instructions in one way.** Instructions start at the least set of offsets
that has zero and, with an instruction, the one behind it. They do not overlap and leave no byte
out, and length zero is that of the bytes at which none starts. In a code that 64-bit offsets can
reach, the immediate of an instruction is what the code has behind its byte, and jumps and calls may
go exactly to the instructions with their marker. -/
theorem instructions_tile_code (code : Bytes) :
    let p := Program.load code
    IsLeast {starts | Bytes.ClosedStarts code starts} p.starts ∧
    p.starts.PairwiseDisjoint p.span ∧
    (⋃ o ∈ p.starts, p.span o) = Set.Iio code.size ∧
    (∀ o ∈ p.starts, ∀ byte, code[o]? = some byte →
      p.instructionLength o = 1 + Opcode.immediateSize byte) ∧
    (∀ o, p.instructionLength o = 0 ↔ o < code.size ∧ o ∉ p.starts) ∧
    (code.size < quantityBound →
      (∀ o ∈ p.starts, ∀ byte, code[o]? = some byte → p.immediate o =
        code.extract (o + 1) (min (o + 1 + Opcode.immediateSize byte) code.size)) ∧
      p.NamesMarked 0x5b p.jumpTarget? p.jumpDestinations ∧
      p.NamesMarked 0x5c p.subroutineTarget? p.subroutineEntries) := by
  intro p
  refine ⟨p.isLeast_starts, ?_, ?_, ?_, fun o => ?_, fun fits => ?_⟩
  · intro o ho o' ho' hne
    refine Set.disjoint_left.2 fun i hi hi' => ?_
    exact hne (Program.eq_of_mem_span ho ho' hi hi')
  · ext i
    rw [Set.mem_iUnion₂]
    constructor
    · rintro ⟨o, -, -, hhigh⟩
      exact Nat.lt_of_lt_of_le hhigh (Nat.min_le_right _ _)
    · intro hi
      obtain ⟨o, hstart, hspan⟩ := Program.exists_span (p := p) hi
      exact ⟨o, hstart, hspan⟩
  · intro o hstart byte hbyte
    have hfound : p.isMarked byte o = true := Program.isMarked_iff.2 ⟨hstart, hbyte⟩
    rw [Program.instructionLength_of_isMarked hfound, Nat.add_comm]
  · rw [Program.instructionLength_eq_zero_iff]
    exact and_congr_right fun _ => Bool.eq_false_iff
  · have hsize : p.size < quantityBound := fits
    refine ⟨fun o hstart byte hbyte => ?_, Program.namesMarked_jumpDestinations hsize,
      Program.namesMarked_subroutineEntries hsize⟩
    exact Program.immediate_of_isMarked hsize (Program.isMarked_iff.2 ⟨hstart, hbyte⟩)

/-- A code with markers inside immediates: a push of four of them, one of each kind to go to, and a
push that the end of the code cuts short. -/
def markedCode : Bytes := .ofList [0x63, 0x5b, 0x5b, 0x5b, 0x5b, 0x5b, 0x5c, 0x61, 0x5c]

/-- A jump may go to offset five alone: not into the push, and not to a word that is five only in
its low bits. A call may go to offset six, and the last push has the one byte left. -/
theorem instructions_tile_code_of_markers :
    let p := Program.load markedCode
    markedCode.size < quantityBound ∧
    p.jumpTarget? 5 = some 5 ∧ p.jumpTarget? 1 = none ∧ p.jumpTarget? 0x10000000000000005 = none ∧
    p.subroutineTarget? 6 = some 6 ∧ p.subroutineTarget? 8 = none ∧
    p.immediate 7 = .ofList [0x5c] := by
  intro p
  have hsize : markedCode.size < quantityBound := by decide
  have hlast : p.isBoundary 7 = true := by decide +kernel
  obtain ⟨-, -, -, -, -, hreached⟩ := instructions_tile_code markedCode
  obtain ⟨himmediate, hjump, hcall⟩ := hreached hsize
  refine ⟨hsize, (hjump.target 5).trans ?_, (hjump.target 1).trans ?_,
    (hjump.target 0x10000000000000005).trans ?_, (hcall.target 6).trans ?_,
    (hcall.target 8).trans ?_, (himmediate 7 hlast 0x61 (by decide +kernel)).trans ?_⟩
  all_goals decide +kernel

end Retrace
