import Mathlib.Data.List.Sort
import Retrace.Panel
import Retrace.Proofs.Listing
import Retrace.Proofs.Text.Lines
import Retrace.Proofs.Tiling
/-!
# Retrace — rows from any offset on

A listing may be asked for from any offset on, also from inside an immediate. It
takes the bytes there one by one, as if each were an instruction, and is in step
with the decoding as soon as it meets a boundary (`Program.walk`): it neither
goes past one nor stays where it is, since the length at an offset is that of
the instruction there, or zero (`Program.walk_of_lt`). From a boundary on the
instructions that are left give the rest of the code, byte by byte
(`Listing.flatMap_instructionBytes`), and the rows show them whole. In the text
of a listing each row is a line, and only the first one is marked
(`Listing.splitOn_listing`).
-/

namespace Retrace

namespace Program

variable {p : Program} {start o : Nat}

/-! ## Boundaries from an offset on -/

/-- The boundaries from an offset on, ascending. -/
def boundariesFrom (p : Program) (start : Nat) : List Nat := p.boundaries.filter (start ≤ ·)

/-- Where a listing is in step with the decoding: at the next boundary, or where the code ends. -/
def resync (p : Program) (start : Nat) : Nat := (p.boundariesFrom start).headD p.size

/-- The offsets that a listing visits: byte after byte up to the next boundary, and then the
boundaries. -/
def walk (p : Program) (start : Nat) : List Nat :=
  List.range' start (p.resync start - start) ++ p.boundariesFrom (p.resync start)

theorem mem_boundariesFrom :
    o ∈ p.boundariesFrom start ↔ start ≤ o ∧ p.isBoundary o = true := by
  rw [boundariesFrom, boundaries, List.mem_filter, List.mem_filter, List.mem_range,
    decide_eq_true_iff, and_comm, and_congr_right_iff]
  exact fun _ => and_iff_right_of_imp lt_size_of_isBoundary

theorem pairwise_boundariesFrom (p : Program) (start : Nat) :
    (p.boundariesFrom start).Pairwise (· < ·) :=
  (List.pairwise_lt_range.filter _).filter _

theorem boundariesFrom_zero (p : Program) : p.boundariesFrom 0 = p.boundaries :=
  List.filter_eq_self.2 fun o _ => decide_eq_true (Nat.zero_le o)

theorem boundariesFrom_of_size_le (h : p.size ≤ start) : p.boundariesFrom start = [] := by
  refine List.eq_nil_iff_forall_not_mem.2 fun o ho => ?_
  obtain ⟨hle, hboundary⟩ := mem_boundariesFrom.1 ho
  have hsize := lt_size_of_isBoundary hboundary
  omega

/-- **From an instruction on** the boundaries are that instruction and those from behind it on,
since none starts inside it. -/
theorem boundariesFrom_of_isBoundary (h : p.isBoundary start = true) :
    p.boundariesFrom start = start :: p.boundariesFrom (start + p.instructionLength start) := by
  have hpos := instructionLength_pos h
  have hfirst : ∀ o ∈ p.boundariesFrom (start + p.instructionLength start), start < o := by
    intro o ho
    have hle := (mem_boundariesFrom.1 ho).1
    omega
  refine (p.pairwise_boundariesFrom start).eq_of_mem_iff
    (List.pairwise_cons.2 ⟨hfirst, p.pairwise_boundariesFrom _⟩) fun o => ?_
  rw [List.mem_cons, mem_boundariesFrom, mem_boundariesFrom]
  constructor
  · rintro ⟨hle, hboundary⟩
    by_cases heq : o = start
    · exact .inl heq
    · refine .inr ⟨Nat.le_of_not_lt fun hlt => ?_, hboundary⟩
      rw [not_isBoundary_of_between h (by omega) hlt] at hboundary
      cases hboundary
  · rintro (rfl | ⟨hle, hboundary⟩)
    · exact ⟨Nat.le_refl _, h⟩
    · exact ⟨by omega, hboundary⟩

/-- Where none starts they are those from the next byte on. -/
theorem boundariesFrom_succ (h : p.isBoundary start = false) :
    p.boundariesFrom (start + 1) = p.boundariesFrom start := by
  refine List.filter_congr fun o ho => decide_eq_decide.2 ?_
  have hne : o ≠ start := by
    rintro rfl
    rw [(List.mem_filter.1 ho).2] at h
    cases h
  omega

/-! ## The walk -/

theorem resync_of_isBoundary (h : p.isBoundary start = true) : p.resync start = start := by
  rw [resync, boundariesFrom_of_isBoundary h]
  rfl

theorem resync_of_size_le (h : p.size ≤ start) : p.resync start = p.size := by
  rw [resync, boundariesFrom_of_size_le h]
  rfl

theorem resync_succ (h : p.isBoundary start = false) : p.resync (start + 1) = p.resync start := by
  rw [resync, resync, boundariesFrom_succ h]

/-- A listing that is not in step goes on at least to the next byte. -/
theorem lt_resync (hlt : start < p.size) (h : p.isBoundary start = false) :
    start < p.resync start := by
  rw [resync, ← boundariesFrom_succ h]
  cases hlist : p.boundariesFrom (start + 1) with
  | nil => exact hlt
  | cons first rest =>
    have hfirst : first ∈ p.boundariesFrom (start + 1) := hlist ▸ List.mem_cons_self
    exact (mem_boundariesFrom.1 hfirst).1

/-- **Where a listing is in step** is the least boundary there is, or the end of the code. -/
theorem resync_spec (p : Program) (start : Nat) :
    IsLeast {o | start ≤ o ∧ p.isBoundary o = true} (p.resync start) ∨
      (∀ o, start ≤ o → p.isBoundary o = false) ∧ p.resync start = p.size := by
  have hmem : ∀ o, start ≤ o ∧ p.isBoundary o = true ↔ o ∈ p.boundariesFrom start :=
    fun o => mem_boundariesFrom.symm
  have hordered := p.pairwise_boundariesFrom start
  unfold resync
  cases hlist : p.boundariesFrom start with
  | nil =>
    refine .inr ⟨fun o hle => Bool.eq_false_iff.2 fun hboundary => ?_, rfl⟩
    have ho := (hmem o).1 ⟨hle, hboundary⟩
    rw [hlist] at ho
    cases ho
  | cons first rest =>
    rw [hlist] at hmem hordered
    refine .inl ⟨(hmem first).2 List.mem_cons_self, fun o ho => ?_⟩
    rcases List.mem_cons.1 ((hmem o).1 ho) with rfl | hrest
    · exact Nat.le_refl _
    · exact Nat.le_of_lt ((List.pairwise_cons.1 hordered).1 o hrest)

/-- In step a walk is along the boundaries. -/
theorem walk_of_isBoundary (h : p.isBoundary start = true) :
    p.walk start = p.boundariesFrom start := by
  rw [walk, resync_of_isBoundary h, Nat.sub_self]
  rfl

theorem walk_of_size_le (h : p.size ≤ start) : p.walk start = [] := by
  rw [walk, resync_of_size_le h, Nat.sub_eq_zero_of_le h, boundariesFrom_of_size_le (Nat.le_refl _)]
  rfl

/-- **On a walk** stand bytes of the code from its start on, all of them before the listing is in
step and the boundaries from there on. -/
theorem of_mem_walk (h : o ∈ p.walk start) : start ≤ o ∧ o < p.size ∧
    (o < p.resync start → p.isBoundary o = false) ∧
    (p.resync start ≤ o → p.isBoundary o = true) := by
  rcases List.mem_append.1 h with h | h
  · obtain ⟨hle, hlt⟩ := List.mem_range'_1.1 h
    have hbefore : o < p.resync start := by omega
    refine ⟨hle, ?_, fun _ => ?_, fun hafter => absurd hbefore (Nat.not_lt_of_le hafter)⟩
    · rcases p.resync_spec start with hleast | ⟨-, hend⟩
      · exact Nat.lt_trans hbefore (lt_size_of_isBoundary hleast.1.2)
      · omega
    · rcases p.resync_spec start with hleast | ⟨hnone, -⟩
      · exact Bool.eq_false_iff.2 fun hboundary =>
          absurd hbefore (Nat.not_lt_of_le (hleast.2 ⟨hle, hboundary⟩))
      · exact hnone o hle
  · obtain ⟨hafter, hboundary⟩ := mem_boundariesFrom.1 h
    have hsize := lt_size_of_isBoundary hboundary
    refine ⟨?_, hsize, fun hbefore => absurd hbefore (Nat.not_lt_of_le hafter), fun _ => hboundary⟩
    rcases p.resync_spec start with hleast | ⟨-, hend⟩
    · exact Nat.le_trans hleast.1.1 hafter
    · omega

/-- Behind an instruction the next one starts, or the code has ended. -/
theorem isBoundary_or_size_le (h : p.isBoundary start = true) :
    p.isBoundary (start + p.instructionLength start) = true ∨
      p.size ≤ start + p.instructionLength start :=
  (Nat.lt_or_ge _ _).imp_left (isBoundary_next h)

/-- So a walk is along the boundaries there too. -/
theorem walk_next (h : p.isBoundary start = true) :
    p.walk (start + p.instructionLength start) =
      p.boundariesFrom (start + p.instructionLength start) := by
  rcases isBoundary_or_size_le h with hnext | hend
  · exact walk_of_isBoundary hnext
  · rw [walk_of_size_le hend, boundariesFrom_of_size_le hend]

end Program

namespace Listing

variable {table : Table} {program : Program} {start : Nat}

/-! ## Rows along the walk -/

theorem following_of_isBoundary (h : program.isBoundary start = true) :
    following program start = start + program.instructionLength start := by
  have hpos := Program.instructionLength_pos h
  rw [following]
  omega

/-- Inside an immediate the row of the next byte follows. -/
theorem following_of_not_isBoundary (hlt : start < program.size)
    (h : program.isBoundary start = false) : following program start = start + 1 := by
  rw [following, Program.instructionLength_eq_zero_iff.2 ⟨hlt, h⟩]
  rfl

/-- A row is never followed by itself. -/
theorem lt_following (program : Program) (offset : Nat) : offset < following program offset := by
  rw [following]
  omega

/-- **The walk goes on at the next row.** -/
theorem walk_of_lt (hlt : start < program.size) :
    program.walk start = start :: program.walk (following program start) := by
  cases h : program.isBoundary start with
  | true =>
    rw [following_of_isBoundary h, Program.walk_of_isBoundary h,
      Program.boundariesFrom_of_isBoundary h, Program.walk_next h]
  | false =>
    have hresync := Program.lt_resync hlt h
    have hcount : program.resync start - start = program.resync start - (start + 1) + 1 := by omega
    rw [following_of_not_isBoundary hlt h, Program.walk, Program.walk, Program.resync_succ h,
      hcount, List.range'_succ]
    rfl

/-- **The rows stand along the walk**, by induction on how many there may be. -/
theorem offsets_rows (table : Table) (program : Program) (height start : Nat) :
    (rows table program height start).map Row.offset = (program.walk start).take height := by
  induction height generalizing start with
  | zero => rfl
  | succ height ih =>
    rcases Nat.lt_or_ge start program.size with hlt | hge
    · obtain ⟨byte, hbyte⟩ := Program.exists_byteAt? hlt
      rw [rows_of_byteAt? height hbyte, List.map_cons, ih, walk_of_lt hlt]
      rfl
    · rw [rows, Program.byteAt?_eq_none_iff.2 hge, Program.walk_of_size_le hge]
      rfl

/-- And each is the row of the byte there. -/
theorem mem_rows {height : Nat} {row : Row} (h : row ∈ rows table program height start) :
    ∃ byte, program.byteAt? row.offset = some byte ∧
      row = Listing.row table program row.offset byte := by
  induction height generalizing start with
  | zero => cases h
  | succ height ih =>
    cases hbyte : program.byteAt? start with
    | none =>
      rw [rows, hbyte] at h
      cases h
    | some byte =>
      rw [rows_of_byteAt? height hbyte] at h
      rcases List.mem_cons.1 h with rfl | h
      · exact ⟨byte, hbyte, rfl⟩
      · exact ih h

/-- A row stands on the walk. -/
theorem offset_mem_walk {height : Nat} {row : Row} (h : row ∈ rows table program height start) :
    row.offset ∈ program.walk start := by
  have hoffset := List.mem_map_of_mem (f := Row.offset) h
  rw [offsets_rows] at hoffset
  exact List.mem_of_mem_take hoffset

/-- A walk has no more offsets than bytes are left, by induction on these. -/
theorem length_walk_le (program : Program) (start : Nat) :
    (program.walk start).length ≤ program.size - start := by
  induction hleft : program.size - start using Nat.strong_induction_on generalizing start with
  | _ left ih =>
    rcases Nat.lt_or_ge start program.size with hlt | hge
    · have hnext := lt_following program start
      have hrest := ih (program.size - following program start) (by omega) _ rfl
      rw [walk_of_lt hlt, List.length_cons]
      omega
    · rw [Program.walk_of_size_le hge]
      exact Nat.zero_le _

/-! ## What the rows show -/

variable {offset : Nat} {byte : UInt8}

/-- Before a listing is in step its rows show no immediate. -/
theorem immediate_row_of_not_isBoundary (hlt : offset < program.size)
    (h : program.isBoundary offset = false) :
    (row table program offset byte).immediate = ByteArray.empty := by
  unfold row
  dsimp only
  split
  · rfl
  · have hlength := Program.instructionLength_eq_zero_iff.2 ⟨hlt, h⟩
    refine Bytes.eq_of_toList ?_
    rw [Program.immediate, Program.nextOffset, hlength, Bytes.toList_slice,
      Nat.sub_eq_zero_of_le (by omega)]
    exact List.take_zero

/-- From there on they show what the code has behind the byte. -/
theorem immediate_row_of_isMarked (table : Table) (fits : program.size < quantityBound)
    (found : program.isMarked byte offset = true) :
    (row table program offset byte).immediate = program.code.extract (offset + 1)
      (min (offset + 1 + Opcode.immediateSize byte) program.code.size) := by
  unfold row
  dsimp only
  split
  · rename_i hsize
    refine (Bytes.eq_of_toList ?_).symm
    rw [Bytes.toList_extract, hsize, Nat.sub_eq_zero_of_le (by omega)]
    exact List.take_zero
  · exact Program.immediate_of_isMarked fits found

/-! ## The code, instruction by instruction -/

/-- The bytes of an instruction are as many as it is long, or as the code has left. -/
theorem toList_instructionBytes (fits : program.size < quantityBound) (offset : Nat) :
    Bytes.toList (instructionBytes program offset) =
      ((Bytes.toList program.code).drop offset).take (program.instructionLength offset) := by
  have hbound : program.code.size ≤ maxQuantity := Nat.le_sub_one_of_lt fits
  rw [instructionBytes, Program.nextOffset, Bytes.slice_min_stop hbound, Bytes.toList_slice,
    Nat.add_sub_cancel_left]

/-- **The instructions from a boundary on are the rest of the code**, by induction on it: the first
of them is its beginning, and the others are what is left behind that. -/
theorem flatMap_instructionBytes (fits : program.size < quantityBound)
    (h : program.isBoundary start = true ∨ program.size ≤ start) :
    ((program.boundariesFrom start).flatMap fun o => Bytes.toList (instructionBytes program o)) =
      (Bytes.toList program.code).drop start := by
  induction hleft : program.size - start using Nat.strong_induction_on generalizing start with
  | _ left ih =>
    rcases h with h | hge
    · have hlt := Program.lt_size_of_isBoundary h
      have hpos := Program.instructionLength_pos h
      have hrest := ih _ (by omega) (Program.isBoundary_or_size_le h) rfl
      rw [Program.boundariesFrom_of_isBoundary h, List.flatMap_cons, hrest,
        toList_instructionBytes fits, ← List.drop_drop, List.take_append_drop]
    · rw [Program.boundariesFrom_of_size_le hge]
      exact (List.drop_eq_nil_of_le hge).symm

/-- All of them are the code. -/
theorem flatMap_boundaries (fits : program.size < quantityBound) :
    (program.boundaries.flatMap fun o => Bytes.toList (instructionBytes program o)) =
      Bytes.toList program.code := by
  have hfirst : program.isBoundary 0 = true ∨ program.size ≤ 0 :=
    program.lands_zero.imp_right fun hzero => Nat.le_of_eq hzero.symm
  rw [← Program.boundariesFrom_zero, flatMap_instructionBytes fits hfirst, List.drop_zero]

/-- A row in step has the bytes of the instruction. -/
theorem toList_instructionBytes_of_isMarked (table : Table) (fits : program.size < quantityBound)
    (found : program.isMarked byte offset = true) :
    Bytes.toList (instructionBytes program offset) =
      byte :: Bytes.toList (row table program offset byte).immediate := by
  have hbyte := (Program.isMarked_iff.1 found).2
  rw [Program.byteAt?_eq] at hbyte
  obtain ⟨hlt, hget⟩ := List.getElem?_eq_some_iff.1 hbyte
  rw [immediate_row_of_isMarked table fits found, toList_instructionBytes fits,
    Program.instructionLength_of_isMarked found, List.drop_eq_getElem_cons hlt, hget,
    List.take_succ_cons, Bytes.toList_extract]
  refine congrArg (byte :: ·) (List.take_eq_take_iff.2 ?_)
  rw [List.length_drop, Bytes.length_toList]
  omega

end Listing

/-! ## The text of a listing -/

theorem Listing.plain_mnemonic_row (table : Table) (program : Program) (offset : Nat)
    (byte : UInt8) : Text.Plain (row table program offset byte).mnemonic := by
  have hunknown : Text.Plain "UNKNOWN" := by decide
  show Text.Plain ((table.mnemonic? byte).getD "UNKNOWN")
  cases hname : table.mnemonic? byte with
  | none => exact hunknown
  | some name =>
    obtain ⟨op, -, hop⟩ := Option.bind_eq_some_iff.1 hname
    obtain ⟨entry, -, rfl⟩ := Option.map_eq_some_iff.1 hop
    exact op.plain_mnemonic

namespace Panel

/-- **The line of a row** is marked if the row stands at `pc`. -/
theorem markedIf_listingLine {row : Row} (h : Text.Plain row.mnemonic) (pc : Nat) :
    Text.MarkedIf (row.offset = pc) (listingLine pc row) := by
  have hfee : Text.Plain ((row.fee.map Text.decimal).getD "-") := by
    cases row.fee with
    | none => decide
    | some fee => exact Text.plain_decimal fee
  have himmediate : Text.Plain
      (if row.immediate.size = 0 then "" else " 0x" ++ Text.bytesHex row.immediate) := by
    split
    · decide
    · exact .append (by decide) (Text.plain_bytesHex row.immediate)
  have hbody := Text.Plain.append (show Text.Plain " " by decide)
    (.append (Text.plain_offset row.offset) (.append (show Text.Plain "  " by decide)
      (.append (h.padRight 14) (.append (show Text.Plain " fee=" by decide)
        (.append (hfee.padRight 5) himmediate)))))
  refine ⟨_, hbody, ?_⟩
  simp only [listingLine, String.append_assoc]
  rw [String.toList_append]
  split <;> rfl

/-- A listing has a line for each row. -/
theorem splitOn_listing {rows : List Row} (hne : rows ≠ [])
    (h : ∀ row ∈ rows, Text.Plain row.mnemonic) (pc : Nat) :
    (listing rows pc).toList.splitOn '\n' = rows.map fun row => (listingLine pc row).toList := by
  rw [listing, if_neg fun hnone => hne (List.isEmpty_iff.1 hnone)]
  apply Text.splitOn_lines hne
  intro row hrow
  exact (markedIf_listingLine (h row hrow) pc).not_break

end Panel

namespace Listing

variable {table : Table} {program : Program} {start height : Nat}

/-- In step from the start, and tall enough, a listing gives back the rest of the code. -/
theorem flatMap_rows (fits : program.size < quantityBound) (h : program.isBoundary start = true)
    (tall : (program.walk start).length ≤ height) :
    ((rows table program height start).flatMap fun row =>
      (program.byteAt? row.offset).toList ++ Bytes.toList row.immediate) =
        (Bytes.toList program.code).drop start := by
  have hpiece : ∀ row ∈ rows table program height start,
      (program.byteAt? row.offset).toList ++ Bytes.toList row.immediate =
        Bytes.toList (instructionBytes program row.offset) := by
    intro row hrow
    obtain ⟨byte, hbyte, hrow_eq⟩ := mem_rows hrow
    obtain ⟨hle, -, -, hboundary⟩ := Program.of_mem_walk (offset_mem_walk hrow)
    rw [Program.resync_of_isBoundary h] at hboundary
    rw [toList_instructionBytes_of_isMarked table fits
      (Program.isMarked_iff.2 ⟨hboundary hle, hbyte⟩), ← hrow_eq, hbyte]
    rfl
  calc (rows table program height start).flatMap (fun row =>
        (program.byteAt? row.offset).toList ++ Bytes.toList row.immediate)
      = ((rows table program height start).map Row.offset).flatMap fun o =>
          Bytes.toList (instructionBytes program o) := by
        rw [List.flatMap_map]
        exact List.flatMap_congr hpiece
    _ = (program.boundariesFrom start).flatMap fun o =>
          Bytes.toList (instructionBytes program o) := by
        rw [offsets_rows, List.take_of_length_le tall, Program.walk_of_isBoundary h]
    _ = (Bytes.toList program.code).drop start := flatMap_instructionBytes fits (.inl h)

theorem plain_of_mem_rows {row : Row} (h : row ∈ rows table program height start) :
    Text.Plain row.mnemonic := by
  obtain ⟨byte, -, hrow⟩ := mem_rows h
  rw [hrow]
  exact plain_mnemonic_row table program row.offset byte

/-- **The first line of a listing is marked**, and no other one. -/
theorem splitOn_listing (table : Table) (hheight : 0 < height) (hlt : start < program.size) :
    ∃ line others,
      (Panel.listing (rows table program height start) start).toList.splitOn '\n' =
        ('>' :: line) :: others ∧
      others.length + 1 = (rows table program height start).length ∧
      '>' ∉ line ∧ ∀ other ∈ others, '>' ∉ other := by
  obtain ⟨below, rfl⟩ := Nat.exists_eq_add_of_le' hheight
  obtain ⟨byte, hbyte⟩ := Program.exists_byteAt? hlt
  have hrows : rows table program (below + 1) start = row table program start byte ::
      rows table program below (following program start) := rows_of_byteAt? below hbyte
  have hmnemonics : ∀ row ∈ rows table program (below + 1) start, Text.Plain row.mnemonic :=
    fun row => plain_of_mem_rows
  have hsplit := Panel.splitOn_listing (hrows ▸ List.cons_ne_nil _ _) hmnemonics start
  obtain ⟨body, hplain, hfirst⟩ :=
    Panel.markedIf_listingLine (plain_mnemonic_row table program start byte) start
  rw [hsplit, hrows]
  refine ⟨body.toList, (rows table program below (following program start)).map fun row =>
    (Panel.listingLine start row).toList, ?_, ?_, hplain.2, ?_⟩
  · have hhere : (row table program start byte).offset = start := rfl
    rw [List.map_cons, hfirst, if_pos hhere]
  · rw [List.length_map, List.length_cons]
  · intro other hother
    obtain ⟨row, hrow, rfl⟩ := List.mem_map.1 hother
    -- the other rows stand further on
    have hnext := lt_following program start
    have hfar := (Program.of_mem_walk (offset_mem_walk hrow)).1
    rw [(Panel.markedIf_listingLine (plain_of_mem_rows hrow) start).mem_iff]
    omega

end Listing

/-- **A listing from any offset is in step at the next boundary.** Its rows stand at each byte up to
there and then at each boundary, as many as there may be and no more than bytes are left. Those
before are shown without an immediate, and those from there on with just what the code has behind
their byte; so that, in step from the start, enough of them give back the rest of the code. In the
text each row is a line, and the first line alone is marked. That the size of the code is a 64-bit
quantity matters to the immediates, which are cut at an offset of that width. -/
theorem listing_resynchronises (table : Table) (program : Program)
    (fits : program.size < quantityBound) (start height : Nat) :
    let rows := Listing.rows table program height start
    let inStep := program.resync start
    let walk := List.range' start (inStep - start) ++ program.boundaries.filter (inStep ≤ ·)
    (IsLeast {o | start ≤ o ∧ program.isBoundary o = true} inStep ∨
      (∀ o, start ≤ o → program.isBoundary o = false) ∧ inStep = program.size) ∧
    rows.map Row.offset = walk.take height ∧
    walk.length ≤ program.size - start ∧
    (∀ row ∈ rows, row.offset < inStep → row.immediate = ByteArray.empty) ∧
    (∀ row ∈ rows, inStep ≤ row.offset → ∃ byte, program.code[row.offset]? = some byte ∧
      row.immediate = program.code.extract (row.offset + 1)
        (min (row.offset + 1 + Opcode.immediateSize byte) program.code.size)) ∧
    (program.isBoundary start = true → walk.length ≤ height →
      (rows.flatMap fun row => (program.code[row.offset]?).toList ++ Bytes.toList row.immediate) =
        (Bytes.toList program.code).drop start) ∧
    (0 < height → start < program.size → ∃ line others,
      (Panel.listing rows start).toList.splitOn '\n' = ('>' :: line) :: others ∧
      others.length + 1 = rows.length ∧ '>' ∉ line ∧ ∀ other ∈ others, '>' ∉ other) := by
  intro rows inStep walk
  refine ⟨program.resync_spec start, Listing.offsets_rows table program height start,
    Listing.length_walk_le program start, fun row hrow hbefore => ?_, fun row hrow hafter => ?_,
    Listing.flatMap_rows fits, Listing.splitOn_listing table⟩
  · obtain ⟨byte, -, hrow_eq⟩ := Listing.mem_rows hrow
    obtain ⟨-, hsize, hinside, -⟩ := Program.of_mem_walk (Listing.offset_mem_walk hrow)
    rw [hrow_eq]
    exact Listing.immediate_row_of_not_isBoundary hsize (hinside hbefore)
  · obtain ⟨byte, hbyte, hrow_eq⟩ := Listing.mem_rows hrow
    obtain ⟨-, -, -, hboundary⟩ := Program.of_mem_walk (Listing.offset_mem_walk hrow)
    refine ⟨byte, hbyte, ?_⟩
    have himmediate := Listing.immediate_row_of_isMarked table fits
      (Program.isMarked_iff.2 ⟨hboundary hafter, hbyte⟩)
    rw [← hrow_eq] at himmediate
    exact himmediate

/-- A push of three bytes that are instructions by themselves, the first of them a push too, and a
push of two bytes of which the code has one. -/
def maskedProgram : Program := .load (.ofList [0x62, 0x60, 0x01, 0x5b, 0x61, 0xaa])

/-- From inside the first push a listing shows the three bytes, each as an instruction without an
immediate, and is in step at the second one; the first of four lines is marked. From its start the
rows have all bytes. -/
theorem listing_resynchronises_of_masked :
    let rows := Listing.rows .reference maskedProgram 9
    maskedProgram.size < quantityBound ∧ (rows 1).map Row.offset = [1, 2, 3, 4] ∧
      (∀ row ∈ rows 1, row.offset < 4 → row.immediate = ByteArray.empty) ∧
      (∃ line others, (Panel.listing (rows 1) 1).toList.splitOn '\n' = ('>' :: line) :: others ∧
        others.length = 3 ∧ '>' ∉ line ∧ ∀ other ∈ others, '>' ∉ other) ∧
      (rows 0).flatMap (fun row =>
        (maskedProgram.code[row.offset]?).toList ++ Bytes.toList row.immediate) =
          [0x62, 0x60, 0x01, 0x5b, 0x61, 0xaa] := by
  intro rows
  have fits : maskedProgram.size < quantityBound := by decide
  have hstep : maskedProgram.resync 1 = 4 := by decide +kernel
  have hbehind : maskedProgram.boundaries.filter (4 ≤ ·) = [4] := by decide +kernel
  obtain ⟨-, hoffsets, -, hbefore, -, -, htext⟩ :=
    listing_resynchronises .reference maskedProgram fits 1 9
  obtain ⟨-, -, -, -, -, hcode, -⟩ := listing_resynchronises .reference maskedProgram fits 0 9
  rw [hstep] at hoffsets hbefore
  rw [hbehind] at hoffsets
  have hfour : (rows 1).length = 4 := by
    rw [← List.length_map, hoffsets]
    rfl
  obtain ⟨line, others, hsplit, hlength, hline, hothers⟩ := htext (by decide) (by decide)
  rw [show (Listing.rows .reference maskedProgram 9 1).length = 4 from hfour] at hlength
  exact ⟨fits, hoffsets, hbefore, ⟨line, others, hsplit, by omega, hline, hothers⟩,
    hcode (by decide +kernel) (by decide +kernel)⟩

end Retrace
