import Retrace.Proofs.Rows
/-!
# Retrace — the strip spells the code

The strip writes the instructions one after the other, each as the digits of its
bytes, and one of them in brackets. Since the instructions tile the code it
spells the code (`Listing.flatMap_boundaries`); the digits in front of a
boundary are then those of the bytes in front of it, because those from it on
are the rest (`Program.flatMap_below`). A digit is no bracket, so that leaving
the brackets out leaves the digits of the code.
-/

namespace Retrace

namespace Program

variable {program : Program} {pc : Nat}

/-- The next instruction is not in front of an offset inside the code. -/
theorem le_nextOffset (fits : program.size < quantityBound) (hlt : pc < program.size) :
    pc ≤ program.nextOffset pc := by
  have hbound : program.size ≤ maxQuantity := Nat.le_sub_one_of_lt fits
  rw [nextOffset]
  omega

/-- **At a boundary** the list of all boundaries comes apart: those below, and those from it on. -/
theorem exists_below (h : program.isBoundary pc = true) : ∃ below,
    program.boundaries = below ++ program.boundariesFrom pc ∧ ∀ o ∈ below, o < pc := by
  have hmem : pc ∈ program.boundaries := by
    rw [← boundariesFrom_zero]
    exact mem_boundariesFrom.2 ⟨Nat.zero_le pc, h⟩
  obtain ⟨below, above, hsplit⟩ := List.append_of_mem hmem
  have hordered := program.pairwise_boundariesFrom 0
  rw [boundariesFrom_zero, hsplit] at hordered
  obtain ⟨-, habove, hbelow⟩ := List.pairwise_append.1 hordered
  have hlow : ∀ o ∈ below, o < pc := fun o ho => hbelow o ho pc List.mem_cons_self
  refine ⟨below, ?_, hlow⟩
  have hnone : below.filter (pc ≤ ·) = [] :=
    List.filter_eq_nil_iff.2 fun o ho => by
      rw [decide_eq_true_iff]
      exact Nat.not_le_of_lt (hlow o ho)
  have hall : (pc :: above).filter (pc ≤ ·) = pc :: above :=
    List.filter_eq_self.2 fun o ho => by
      rw [decide_eq_true_iff]
      rcases List.mem_cons.1 ho with rfl | ho
      · exact Nat.le_refl o
      · exact Nat.le_of_lt ((List.pairwise_cons.1 habove).1 o ho)
  rw [boundariesFrom, hsplit, List.filter_append, hnone, hall]
  rfl

/-- The instructions below a boundary are the code in front of it. -/
theorem flatMap_below (fits : program.size < quantityBound) (h : program.isBoundary pc = true)
    {below : List Nat} (hsplit : program.boundaries = below ++ program.boundariesFrom pc) :
    (below.flatMap fun o => Bytes.toList (Listing.instructionBytes program o)) =
      (Bytes.toList program.code).take pc := by
  -- with the instructions from the boundary on they are the code, and those are its rest
  have hwhole := Listing.flatMap_boundaries fits
  rw [hsplit, List.flatMap_append, Listing.flatMap_instructionBytes fits (.inl h)] at hwhole
  refine List.append_cancel_right (hwhole.trans ?_)
  exact (List.take_append_drop pc _).symm

end Program

/-! ## Brackets -/

namespace Text

/-- Digits are no brackets. -/
theorem not_mem_bytesHex (bytes : Bytes) :
    '[' ∉ (bytesHex bytes).toList ∧ ']' ∉ (bytesHex bytes).toList :=
  ⟨fun h => absurd (mem_hexDigits_of_mem_bytesHex h) (by decide),
    fun h => absurd (mem_hexDigits_of_mem_bytesHex h) (by decide)⟩

theorem count_bytesHex (bytes : Bytes) :
    (bytesHex bytes).toList.count '[' = 0 ∧ (bytesHex bytes).toList.count ']' = 0 :=
  (not_mem_bytesHex bytes).imp List.count_eq_zero.2 List.count_eq_zero.2

/-- Nothing is left out of digits where brackets are. -/
theorem filter_bytesHex (bytes : Bytes) :
    ((bytesHex bytes).toList.filter fun c => c ≠ '[' ∧ c ≠ ']') = (bytesHex bytes).toList := by
  obtain ⟨hopening, hclosing⟩ := not_mem_bytesHex bytes
  refine List.filter_eq_self.2 fun c hc => decide_eq_true ⟨?_, ?_⟩
  · rintro rfl
    exact hopening hc
  · rintro rfl
    exact hclosing hc

/-- The digits of three byte strings, the second ones in brackets. -/
def bracketed (a b c : Bytes) : List Char :=
  (bytesHex a).toList ++ ('[' :: (bytesHex b).toList ++ [']']) ++ (bytesHex c).toList

theorem count_bracketed (a b c : Bytes) :
    (bracketed a b c).count '[' = 1 ∧ (bracketed a b c).count ']' = 1 := by
  simp [bracketed, List.count_append, count_bytesHex]

/-- Leaving the brackets out leaves the digits of the three together. -/
theorem filter_bracketed (a b c : Bytes) :
    ((bracketed a b c).filter fun c => c ≠ '[' ∧ c ≠ ']') = (bytesHex (a ++ b ++ c)).toList := by
  have hinside : (('[' :: (bytesHex b).toList ++ [']']).filter fun c => c ≠ '[' ∧ c ≠ ']') =
      (bytesHex b).toList := by
    rw [List.filter_append, List.filter_cons_of_neg (by decide), filter_bytesHex]
    exact List.append_nil _
  rw [bracketed, List.filter_append, List.filter_append, hinside, filter_bytesHex, filter_bytesHex,
    bytesHex_append, bytesHex_append, String.toList_append, String.toList_append]

end Text

namespace Listing

variable {program : Program} {pc o : Nat}

/-! ## Pieces of the strip -/

theorem toList_strip (program : Program) (pc : Nat) : (strip program pc).toList =
    program.boundaries.flatMap fun o => (stripPiece program pc o).toList := by
  rw [strip, String.toList_join, List.flatMap_map]

/-- Instructions other than the marked one are written as their digits. -/
theorem flatMap_stripPiece {offsets : List Nat} (h : pc ∉ offsets) :
    (offsets.flatMap fun o => (stripPiece program pc o).toList) =
      (offsets.flatMap fun o => Bytes.toList (instructionBytes program o)).flatMap
        Text.byteDigits := by
  rw [List.flatMap_assoc]
  refine List.flatMap_congr fun o ho => ?_
  have hne : o ≠ pc := fun heq => h (heq ▸ ho)
  rw [stripPiece, if_neg hne, Text.toList_bytesHex]

/-- And that one in brackets. -/
theorem toList_stripPiece_self (program : Program) (pc : Nat) :
    (stripPiece program pc pc).toList =
      '[' :: (Bytes.toList (instructionBytes program pc)).flatMap Text.byteDigits ++ [']'] := by
  rw [stripPiece, if_pos rfl, String.toList_append, String.toList_append, Text.toList_bytesHex]
  rfl

/-- **Where nothing is marked** the strip is the digits of the code. -/
theorem toList_strip_of_not_isBoundary (fits : program.size < quantityBound)
    (h : program.isBoundary pc = false) :
    (strip program pc).toList = (Text.bytesHex program.code).toList := by
  have hnot : pc ∉ program.boundaries := by
    intro hmem
    rw [(List.mem_filter.1 hmem).2] at h
    cases h
  rw [toList_strip, flatMap_stripPiece hnot, flatMap_boundaries fits, Text.toList_bytesHex]

/-- **At a boundary** it is the digits in front, those of the instruction in brackets, and those
behind. -/
theorem toList_strip_of_isBoundary (fits : program.size < quantityBound)
    (h : program.isBoundary pc = true) :
    let stop := min (program.nextOffset pc) program.code.size
    (strip program pc).toList = Text.bracketed (program.code.extract 0 pc)
      (program.code.extract pc stop) (program.code.extract stop program.code.size) := by
  intro stop
  obtain ⟨below, hsplit, hlow⟩ := Program.exists_below h
  have hsize : pc < program.code.size := Program.lt_size_of_isBoundary h
  have hbound : program.code.size ≤ maxQuantity := Nat.le_sub_one_of_lt fits
  have hpos := Program.instructionLength_pos h
  have hbelow : pc ∉ below := fun hmem => Nat.lt_irrefl pc (hlow pc hmem)
  have habove : pc ∉ program.boundariesFrom (pc + program.instructionLength pc) := by
    intro hmem
    have hle := (Program.mem_boundariesFrom.1 hmem).1
    omega
  have hfront : (Bytes.toList program.code).take pc = Bytes.toList (program.code.extract 0 pc) := by
    rw [Bytes.toList_extract, Nat.sub_zero, List.drop_zero]
  have hmarked : instructionBytes program pc = program.code.extract pc stop := if_pos hsize
  have hstop : stop = min (pc + program.instructionLength pc) program.code.size := by
    show min (program.nextOffset pc) program.code.size = _
    rw [Program.nextOffset, Nat.min_assoc, Nat.min_eq_right hbound]
  have hback : (Bytes.toList program.code).drop (pc + program.instructionLength pc) =
      Bytes.toList (program.code.extract stop program.code.size) := by
    rw [hstop, Bytes.toList_extract_size]
  -- the marked instruction stands between those below and those above it
  rw [toList_strip, hsplit, Program.boundariesFrom_of_isBoundary h, List.flatMap_append,
    List.flatMap_cons, flatMap_stripPiece hbelow, flatMap_stripPiece habove,
    toList_stripPiece_self, Program.flatMap_below fits h hsplit,
    flatMap_instructionBytes fits (Program.isBoundary_or_size_le h), hfront, hmarked, hback,
    ← List.append_assoc, Text.bracketed, Text.toList_bytesHex, Text.toList_bytesHex,
    Text.toList_bytesHex]

end Listing

/-- **The strip spells the code.** Without its brackets it is the digits of the code. It has one
bracket of each kind where an instruction starts at the offset, and none where no one does; and
between them are the digits of that instruction, as far as the code reaches, behind two digits for
each byte in front of it. That the size of the code is a 64-bit quantity matters to where the next
instruction starts, which is an offset of that width. -/
theorem strip_spells_code (program : Program) (fits : program.size < quantityBound) (pc : Nat) :
    let strip := (Listing.strip program pc).toList
    let digits (bytes : Bytes) := (Text.bytesHex bytes).toList
    let front := digits (program.code.extract 0 pc)
    let stop := min (program.nextOffset pc) program.code.size
    (strip.filter fun c => c ≠ '[' ∧ c ≠ ']') = digits program.code ∧
    strip.count '[' = (if program.isBoundary pc = true then 1 else 0) ∧
    strip.count ']' = (if program.isBoundary pc = true then 1 else 0) ∧
    (program.isBoundary pc = true →
      strip = front ++ ('[' :: digits (program.code.extract pc stop) ++ [']']) ++
        digits (program.code.extract stop program.code.size) ∧
      front.length = 2 * pc ∧ ∀ c ∈ front, c ∈ Text.hexDigits) := by
  intro strip digits front stop
  cases h : program.isBoundary pc with
  | false =>
    have hstrip : strip = digits program.code := Listing.toList_strip_of_not_isBoundary fits h
    obtain ⟨hopening, hclosing⟩ := Text.count_bytesHex program.code
    rw [hstrip, if_neg Bool.false_ne_true]
    exact ⟨Text.filter_bytesHex program.code, hopening, hclosing, nofun⟩
  | true =>
    have hsize : pc < program.code.size := Program.lt_size_of_isBoundary h
    have hstrip : strip = Text.bracketed (program.code.extract 0 pc)
        (program.code.extract pc stop) (program.code.extract stop program.code.size) :=
      Listing.toList_strip_of_isBoundary fits h
    have hcode : program.code.extract 0 pc ++ program.code.extract pc stop ++
        program.code.extract stop program.code.size = program.code := by
      have hstop : pc ≤ stop :=
        Nat.le_min.2 ⟨Program.le_nextOffset fits hsize, Nat.le_of_lt hsize⟩
      rw [ByteArray.extract_append_extract, Nat.zero_min, Nat.max_eq_right hstop,
        ByteArray.extract_append_extract, Nat.zero_min, Nat.max_eq_right (Nat.min_le_right _ _),
        ByteArray.extract_zero_size]
    have hfront : front.length = 2 * pc := by
      rw [Text.length_bytesHex, ByteArray.size_extract]
      omega
    obtain ⟨hopening, hclosing⟩ := Text.count_bracketed (program.code.extract 0 pc)
      (program.code.extract pc stop) (program.code.extract stop program.code.size)
    rw [hstrip, if_pos rfl, Text.filter_bracketed, hcode]
    exact ⟨rfl, hopening, hclosing,
      fun _ => ⟨rfl, hfront, fun c => Text.mem_hexDigits_of_mem_bytesHex⟩⟩

/-- Of a push that the code cuts short the one byte there is stands in the brackets; at an offset
inside the push before it nothing is marked. -/
theorem strip_spells_code_of_truncated :
    let program := truncatedMachine.program
    program.size < quantityBound ∧ (Listing.strip program 2).toList = "6001[62aa]".toList ∧
      ((Listing.strip program 1).toList.filter fun c => c ≠ '[' ∧ c ≠ ']') = "600162aa".toList ∧
      (Listing.strip program 1).toList.count '[' = 0 := by
  intro program
  have fits : program.size < quantityBound := by decide
  have hboundary : program.isBoundary 2 = true := by decide +kernel
  have hinside : program.isBoundary 1 = false := by decide +kernel
  obtain ⟨-, -, -, hmarked⟩ := strip_spells_code program fits 2
  obtain ⟨hspelled, hopening, -⟩ := strip_spells_code program fits 1
  rw [hinside] at hopening
  refine ⟨fits, (hmarked hboundary).1.trans ?_, hspelled.trans ?_, hopening⟩
  · decide +kernel
  · decide +kernel

end Retrace
