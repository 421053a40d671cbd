import Mathlib.Data.List.Intervals
import Retrace.Console.Console
import Retrace.Proofs.Rows
import Retrace.Proofs.Session.Navigation
/-!
# Retrace — the list around the cursor

A record knows its index, so that the records of a window can be said without
the places they have in the log: they are those whose index lies between the
two ends (`History.recordsIn`). What a history hands out as a range is just
that, and the list is such a range with the cursor in it. It starts as many
records before the cursor as half of those asked for, rounded down, or at the
first; so there is always room for the cursor itself. Each line of it begins
with the sign of the current record or a blank, and with the index of its own.
-/

namespace Retrace

namespace History

variable {m : Machine} {s : State} {h : History} {start count low high : Nat}

/-- The records with an index from `low` on and below `high`. -/
def recordsIn (h : History) (low high : Nat) : List Snapshot :=
  h.log.toList.filter fun record => low ≤ record.index ∧ record.index < high

/-- A log is the run, snapshot by snapshot. -/
theorem Records.toList_log (hr : h.Records m s) :
    h.log.toList = (List.Ico 0 h.log.size).map (m.snapshot s) := by
  rw [List.Ico.zero_bot]
  refine List.ext_getElem (by simp) fun i hi _ => ?_
  rw [List.getElem_map, List.getElem_range, Array.getElem_toList]
  exact hr.log_eq i hi

/-- The records of a window are the snapshots of a stretch of the run. -/
theorem Records.recordsIn_eq (hr : h.Records m s) :
    h.recordsIn low high = (List.Ico low (min h.log.size high)).map (m.snapshot s) := by
  have hbounds : (fun record : Snapshot => decide (low ≤ record.index ∧ record.index < high)) ∘
      m.snapshot s = fun i => decide (low ≤ i) && decide (i < high) := by
    funext i
    exact Bool.decide_and _ _
  rw [recordsIn, hr.toList_log, List.filter_map, hbounds, ← List.filter_filter,
    List.Ico.filter_lt, List.Ico.filter_le, Nat.zero_max]

/-- One record of a window has a given index inside it. -/
theorem Records.filter_index (hr : h.Records m s) {i : Nat} (hlow : low ≤ i)
    (hhigh : i < min h.log.size high) :
    (h.recordsIn low high).filter (fun record => record.index = i) = [m.snapshot s i] := by
  have hindex : (fun record : Snapshot => decide (record.index = i)) ∘ m.snapshot s =
      fun j => decide (j = i) := rfl
  have honce : (List.Ico low (min h.log.size high)).count i = 1 :=
    List.count_eq_one_of_mem (List.Ico.nodup _ _) (List.Ico.mem.2 ⟨hlow, hhigh⟩)
  rw [hr.recordsIn_eq, List.filter_map, hindex, List.filter_eq, honce]
  rfl

/-- A range ends inside the log, behind its start. -/
theorem stop_bounds (fits : h.log.size < quantityBound) (hstart : start < h.log.size) :
    start ≤ h.stop start count ∧ h.stop start count ≤ h.log.size := by
  unfold stop maxQuantity
  omega

/-- **A range is the records with the indices asked for.** -/
theorem Records.range_eq (hr : h.Records m s) (fits : h.log.size < quantityBound) :
    h.range start count = h.recordsIn start (start + count) := by
  rw [hr.recordsIn_eq]
  unfold range
  split
  · have hstop : h.stop start count = min h.log.size (start + count) := by
      unfold stop maxQuantity
      omega
    rw [hstop]
    refine List.ext_getElem ?_ fun i hi hi' => ?_
    · simp only [Array.length_toList, Array.size_extract, List.length_map, List.Ico.length]
      omega
    · simp only [Array.getElem_toList, Array.getElem_extract, List.getElem_map, List.Ico,
        List.getElem_range', Nat.one_mul]
      exact hr.log_eq _ _
  · rename_i hstart
    rw [List.Ico.eq_nil_of_le (by omega), List.map_nil]

end History

/-! ## The lines of the list -/

/-- Every mnemonic is plain, also where there is no instruction. -/
theorem Session.plain_mnemonicAt (s : Session) (pc : Nat) : Text.Plain (s.mnemonicAt pc) := by
  unfold mnemonicAt
  split
  · rename_i byte _
    exact Listing.plain_mnemonic_row s.machine.table s.machine.program pc byte
  · decide

namespace Panel

theorem plain_stepLine {mnemonic : String} (h : Text.Plain mnemonic) (s : Snapshot) (total : Nat) :
    Text.Plain (stepLine s mnemonic total) := by
  have hplace : Text.Plain ("[" ++ Text.decimal s.index ++ "/" ++ Text.decimal total) :=
    .append (.append (.append (by decide) (Text.plain_decimal s.index)) (by decide))
      (Text.plain_decimal total)
  have hpc : Text.Plain ("] PC=" ++ Text.offset s.pc ++ "  ") :=
    .append (.append (by decide) (Text.plain_offset s.pc)) (by decide)
  have hgas : Text.Plain (" gas_used=" ++ Text.decimal s.gasUsed) :=
    .append (by decide) (Text.plain_decimal s.gasUsed)
  have hline := ((hplace.append hpc).append (h.padRight 14)).append hgas
  simpa only [stepLine, String.append_assoc] using hline

/-- The line of a snapshot is marked if it is said to be the current one. -/
theorem markedIf_compactStep {mnemonic : String} (h : Text.Plain mnemonic) (s : Snapshot)
    (total : Nat) {p : Prop} [Decidable p] {isCurrent : Bool} (hp : isCurrent = true ↔ p) :
    Text.MarkedIf p (compactStep s mnemonic total isCurrent) := by
  have hblank : Text.Plain " " := by decide
  refine ⟨_, hblank.append (plain_stepLine h s total), ?_⟩
  simp only [compactStep, String.append_assoc, hp]
  rw [String.toList_append]
  split <;> rfl

/-- The line of a snapshot begins with its sign and its index. -/
theorem exists_toList_compactStep (s : Snapshot) (mnemonic : String) (total : Nat)
    (isCurrent : Bool) : ∃ rest, (compactStep s mnemonic total isCurrent).toList =
      (if isCurrent then '>' else ' ') :: ' ' :: '[' :: (Nat.toDigits 10 s.index ++ '/' :: rest) := by
  have hsign : (if isCurrent then ">" else " ").toList = [if isCurrent then '>' else ' '] := by
    cases isCurrent <;> decide
  have hblank : " ".toList = [' '] := by decide
  have hopen : "[".toList = ['['] := by decide
  have hslash : "/".toList = ['/'] := by decide
  refine ⟨(Text.decimal total ++ ("] PC=" ++ (Text.offset s.pc ++ ("  " ++
    (Text.padRight 14 mnemonic ++ (" gas_used=" ++ Text.decimal s.gasUsed)))))).toList, ?_⟩
  simp only [compactStep, stepLine, String.append_assoc]
  -- the parts up to the index, one after the other
  rw [String.toList_append, String.toList_append, String.toList_append, String.toList_append,
    String.toList_append, hsign, hblank, hopen, Text.decimal, String.toList_ofList, hslash]
  rfl

end Panel

namespace Console

variable {c : Console} {m : Machine} {limit n low high : Nat}

/-- In the list the record at the cursor is marked. -/
theorem markedIf_listLine (c : Console) (record : Snapshot) :
    Text.MarkedIf (record.index = c.session.position) (c.listLine record) :=
  Panel.markedIf_compactStep (c.session.plain_mnemonicAt record.pc) record _ beq_iff_eq

/-- And the line begins with the index of its record. -/
theorem exists_toList_listLine (c : Console) (record : Snapshot) :
    ∃ rest, (c.listLine record).toList = (if record.index = c.session.position then '>' else ' ') ::
      ' ' :: '[' :: (Nat.toDigits 10 record.index ++ '/' :: rest) := by
  obtain ⟨rest, hline⟩ := Panel.exists_toList_compactStep record
    (c.session.mnemonicAt record.pc) c.session.history.size (record.index == c.session.position)
  simp only [beq_iff_eq] at hline
  exact ⟨rest, hline⟩

/-- The list of records that there are is a line for each. -/
theorem splitOn_list (hne : c.listWindow n ≠ []) :
    (c.list n).toList.splitOn '\n' =
      (c.listWindow n).map fun record => (c.listLine record).toList := by
  rw [list, if_neg fun hnone => hne (List.isEmpty_iff.1 hnone)]
  apply Text.splitOn_lines hne
  intro record _
  exact (c.markedIf_listLine record).not_break

/-- **In a window with the cursor in it one line is marked**, that of the current record. -/
theorem filter_listLine (hruns : c.session.Runs m limit) (hlow : low ≤ c.session.position)
    (hhigh : c.session.position < min c.session.history.size high) :
    ((c.session.history.recordsIn low high).map fun record =>
        (c.listLine record).toList).filter (fun line => decide ('>' ∈ line)) =
      [(c.listLine c.session.current).toList] := by
  have hmarked : (fun line => decide ('>' ∈ line)) ∘ (fun record => (c.listLine record).toList) =
      fun record => decide (record.index = c.session.position) := by
    funext record
    exact decide_eq_decide.2 (c.markedIf_listLine record).mem_iff
  rw [List.filter_map, hmarked, hruns.records.filter_index hlow hhigh, hruns.current_eq]
  rfl

end Console

/-- **The list shows the cursor.** Wherever a session has been sent, a range of its history is the
records with the indices asked for, and a list of at least one step is a line for each record of a
window. The window begins half of that number before the cursor, or with the first record, and has
that number of records, or all up to the last. A line begins with the sign of the cursor or a blank,
and with the index of its record. The cursor is on one of them, and its line is the only one that is
marked. That the size of the log is a 64-bit quantity matters to where a range
ends, which is computed in that width. -/
theorem list_shows_cursor (m : Machine) (limit : Nat) (before : List Session.Move) (c : Console)
    (reached : c.session = (Session.start m limit).moves before)
    (fits : c.session.history.size < quantityBound) :
    let history := c.session.history
    let position := c.session.position
    (∀ start count, history.range start count = history.recordsIn start (start + count) ∧
      (start < history.size →
        start ≤ history.stop start count ∧ history.stop start count ≤ history.size)) ∧
    c.session.current.index = position ∧
    ∀ n, 1 ≤ n →
      let start := position - n / 2
      let stop := min history.size (start + n)
      let lines := (c.list n).toList.splitOn '\n'
      c.execute (.list n) = (c, .text (c.list n)) ∧
      start ≤ position ∧ position < stop ∧
      (history.recordsIn start (start + n)).map Snapshot.index = List.Ico start stop ∧
      lines = (history.recordsIn start (start + n)).map (fun record => (c.listLine record).toList) ∧
      lines.length = min n (history.size - start) ∧
      (∀ i, start + i < stop → ∃ rest, lines[i]? =
        some ((if start + i = position then '>' else ' ') :: ' ' :: '[' ::
          (Nat.toDigits 10 (start + i) ++ '/' :: rest))) ∧
      (∀ record, '>' ∈ (c.listLine record).toList ↔ record.index = position) ∧
      lines.filter (fun line => decide ('>' ∈ line)) = [(c.listLine c.session.current).toList] := by
  intro history position
  have hruns : c.session.Runs m limit := by
    rw [reached]
    exact Session.runs_moves m limit before
  have hrecords : history.Records m (State.initial m.env) := hruns.records
  have hinside : position < history.log.size := history.cursor_lt
  refine ⟨fun start count => ⟨hrecords.range_eq fits, History.stop_bounds fits⟩, ?_, ?_⟩
  · rw [hruns.current_eq]
    rfl
  intro n hn start stop lines
  -- the cursor is in the window: at most half of it lies before the cursor
  have hstart : start ≤ position := Nat.sub_le _ _
  have hstop : position < stop := by
    show position < min history.log.size (position - n / 2 + n)
    omega
  have hwindow : c.listWindow n = history.recordsIn start (start + n) := hrecords.range_eq fits
  have hstretch : history.recordsIn start (start + n) =
      (List.Ico start stop).map (m.snapshot (State.initial m.env)) := hrecords.recordsIn_eq
  have hne : c.listWindow n ≠ [] := by
    rw [hwindow, hstretch]
    intro hnil
    have hempty := List.Ico.eq_empty_iff.1 (List.map_eq_nil_iff.1 hnil)
    omega
  have hlines : lines =
      (history.recordsIn start (start + n)).map fun record => (c.listLine record).toList := by
    rw [← hwindow]
    exact Console.splitOn_list hne
  refine ⟨rfl, hstart, hstop, ?_, hlines, ?_, fun i hi => ?_,
    fun record => (c.markedIf_listLine record).mem_iff, ?_⟩
  · rw [hstretch, List.map_map]
    exact List.map_id _
  · rw [hlines, hstretch, List.length_map, List.length_map, List.Ico.length]
    show min history.log.size (start + n) - start = min n (history.log.size - start)
    omega
  · obtain ⟨rest, hline⟩ :=
      c.exists_toList_listLine (m.snapshot (State.initial m.env) (start + i))
    have hplace : (List.Ico start stop)[i]? = some (start + i) := by
      rw [List.Ico, List.getElem?_range' (by omega), Nat.one_mul]
    refine ⟨rest, ?_⟩
    rw [hlines, hstretch, List.getElem?_map, List.getElem?_map, hplace]
    exact congrArg some hline
  · rw [hlines]
    exact Console.filter_listLine hruns hstart hstop

/-- A session has gone to the halt and back by one. A list of two steps ends on the cursor, with the
line of record three, and one of all steps that a number can ask for has the five that there are. -/
theorem list_shows_cursor_of_return :
    let c := Console.start ((Session.start addingMachine 100).moves [.goto 4, .back]) 10 8
    let lines := fun n => (c.list n).toList.splitOn '\n'
    let marked := [(c.listLine c.session.current).toList]
    c.session.history.size < quantityBound ∧ c.session.position = 3 ∧
      (lines 2).length = 2 ∧ (lines 2).filter (fun line => decide ('>' ∈ line)) = marked ∧
      (∃ rest, (lines 2)[1]? = some ('>' :: ' ' :: '[' :: '3' :: '/' :: rest)) ∧
      (lines maxQuantity).length = 5 ∧
      (lines maxQuantity).filter (fun line => decide ('>' ∈ line)) = marked ∧
      c.session.history.range 2 maxQuantity = c.session.history.recordsIn 2 (2 + maxQuantity) := by
  intro c lines marked
  have hsize : c.session.history.size = 5 := by decide +kernel
  have hposition : c.session.position = 3 := by decide +kernel
  have fits : c.session.history.size < quantityBound := by
    rw [hsize]
    decide
  obtain ⟨hrange, -, hlist⟩ :=
    list_shows_cursor addingMachine 100 [.goto 4, .back] c rfl fits
  obtain ⟨-, -, -, -, -, htwo, hheads, -, hmarkedTwo⟩ := hlist 2 (by decide)
  obtain ⟨-, -, -, -, -, hall, -, -, hmarkedAll⟩ := hlist maxQuantity (by decide)
  have hhead := hheads 1
  rw [hsize, hposition] at htwo hall hhead
  exact ⟨fits, hposition, htwo, hmarkedTwo, hhead (by decide), hall, hmarkedAll,
    (hrange 2 maxQuantity).1⟩

end Retrace
