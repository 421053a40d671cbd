import Mathlib.Data.List.Basic
import Retrace.Console.Console
import Retrace.Proofs.Text.Lines
import Retrace.Proofs.Text.Spelling
/-!
# Retrace — panels are told apart

A panel is a headline and a line for each of its items, or one line that says
that there is none. None of its parts has a line break in it, so that the lines
behind the first one are the items, one by one (`tail_splitOn_panel`); where there
is none there is no line behind the first. A line has a number or two. Each is
written in figures, and what stands behind it begins with none: so it ends there
(`Figured.cut`), and which number it is its figures tell. Hence the text of a
panel tells all of what it shows.
-/

namespace Retrace

attribute [ext] Stack Breakpoints

namespace Text

/-! ## Where a number ends -/

/-- **A number ends before what begins with no figure.** -/
theorem Figured.cut {a b x y sign : String} (ha : Figured a) (hb : Figured b) (mark : Char)
    (hsign : sign.toList.head? = some mark) (hmark : mark ∉ figures)
    (h : a ++ (sign ++ x) = b ++ (sign ++ y)) : a = b ∧ x = y := by
  obtain ⟨more, hmore⟩ := List.head?_eq_some_iff.1 hsign
  have hlists := congrArg String.toList h
  simp only [String.toList_append, hmore, List.cons_append] at hlists
  have hnotA : mark ∉ a.toList := fun hin => hmark (ha mark hin)
  have hnotB : mark ∉ b.toList := fun hin => hmark (hb mark hin)
  -- in either text the sign is the first of its kind, so that it stands at the same place
  have hlength : a.toList.length = b.toList.length := by
    have hplace := congrArg (List.idxOf mark) hlists
    rwa [List.idxOf_append_of_notMem hnotA, List.idxOf_append_of_notMem hnotB,
      List.idxOf_cons_self, List.idxOf_cons_self] at hplace
  obtain ⟨hfront, hback⟩ := List.append_inj hlists hlength
  have hrest := List.append_cancel_left (List.cons.inj hback).2
  exact ⟨String.toList_inj.1 hfront, String.toList_inj.1 hrest⟩

/-! ## Lines -/

/-- A text that stands within a line. -/
def Unbroken (text : String) : Prop := '\n' ∉ text.toList

instance (text : String) : Decidable (Unbroken text) :=
  inferInstanceAs (Decidable ('\n' ∉ text.toList))

theorem Unbroken.append {a b : String} (ha : Unbroken a) (hb : Unbroken b) : Unbroken (a ++ b) := by
  unfold Unbroken
  rw [String.toList_append, List.mem_append, not_or]
  exact ⟨ha, hb⟩

theorem Figured.unbroken {text : String} (h : Figured text) : Unbroken text := by
  intro hbreak
  exact absurd (h _ hbreak) (by decide)

end Text

namespace Panel

open Text

variable {none headline headline' : String} {entries entries' : List String}

/-- **Behind its first line a panel has its entries**, one a line. -/
theorem tail_splitOn_panel (hnone : Unbroken none) (hheadline : Unbroken headline)
    (hentries : ∀ entry ∈ entries, Unbroken entry) :
    ((panel none headline entries).toList.splitOn '\n').tail = entries.map String.toList := by
  unfold panel
  split
  · rename_i hempty
    rw [List.isEmpty_iff.1 hempty, List.splitOn_eq_singleton hnone]
    rfl
  · have hlines : ∀ line ∈ headline :: entries, '\n' ∉ (id line).toList := by
      intro line hline
      rcases List.mem_cons.1 hline with rfl | hline
      · exact hheadline
      · exact hentries line hline
    have hsplit := splitOn_lines (List.cons_ne_nil headline entries) hlines
    rw [List.map_id] at hsplit
    rw [hsplit]
    rfl

/-- The entries are all that a panel can differ in, whatever the headlines. -/
theorem eq_of_panel_eq (hnone : Unbroken none) (hheadline : Unbroken headline)
    (hheadline' : Unbroken headline') (hentries : ∀ entry ∈ entries, Unbroken entry)
    (hentries' : ∀ entry ∈ entries', Unbroken entry)
    (h : panel none headline entries = panel none headline' entries') : entries = entries' := by
  have hlines := tail_splitOn_panel hnone hheadline hentries
  rw [h, tail_splitOn_panel hnone hheadline' hentries'] at hlines
  have hinjective : Function.Injective String.toList := @String.toList_injective
  exact (hinjective.list_map hlines).symm

/-- A panel of items: how many there are, and a line for each. -/
def itemized {α : Type} (none before behind : String) (line : α → String) (items : List α) :
    String :=
  panel none (before ++ decimal items.length ++ behind) (items.map line)

/-- **A panel tells its items** if each line tells its item. -/
theorem itemized_injective {α : Type} {none before behind : String} {line : α → String}
    (hnone : Unbroken none) (hbefore : Unbroken before) (hbehind : Unbroken behind)
    (hunbroken : ∀ item, Unbroken (line item)) (hline : Function.Injective line) :
    Function.Injective (itemized none before behind line) := by
  intro items others h
  have hheadline (n : Nat) : Unbroken (before ++ decimal n ++ behind) :=
    (hbefore.append (figured_decimal n).unbroken).append hbehind
  have hentries (list : List α) : ∀ entry ∈ list.map line, Unbroken entry := by
    intro entry hentry
    obtain ⟨item, -, rfl⟩ := List.mem_map.1 hentry
    exact hunbroken item
  exact hline.list_map
    (eq_of_panel_eq hnone (hheadline _) (hheadline _) (hentries items) (hentries others) h)

/-! ## The lines of the panels -/

theorem figured_word (w : Word) : Figured (word w) := figured_hex w.toNat

theorem word_injective : Function.Injective word := fun _ _ h =>
  BitVec.eq_of_toNat_eq (hex_injective h)

theorem unbroken_stackLine (entry : Word × Nat) : Unbroken (stackLine entry) :=
  (((show Unbroken "  [" by decide).append (figured_decimal entry.2).unbroken).append
    (by decide)).append (figured_word entry.1).unbroken

theorem stackLine_injective : Function.Injective stackLine := by
  rintro ⟨w, i⟩ ⟨v, j⟩ h
  simp only [stackLine, String.append_assoc, String.append_right_inj] at h
  obtain ⟨hplace, hword⟩ :=
    (figured_decimal i).cut (figured_decimal j) ']' (by decide) (by decide) h
  rw [decimal_injective hplace, word_injective hword]

theorem unbroken_memoryLine (entry : Nat × Word) : Unbroken (memoryLine entry) :=
  (((show Unbroken "  " by decide).append (figured_offset entry.1).unbroken).append
    (by decide)).append (figured_word entry.2).unbroken

theorem memoryLine_injective : Function.Injective memoryLine := by
  rintro ⟨o, w⟩ ⟨p, v⟩ h
  simp only [memoryLine, String.append_assoc, String.append_right_inj] at h
  obtain ⟨hoffset, hword⟩ := (figured_offset o).cut (figured_offset p) ':' (by decide) (by decide) h
  rw [offset_injective hoffset, word_injective hword]

theorem unbroken_storageLine (slot : Slot) : Unbroken (storageLine slot) :=
  (((show Unbroken "  " by decide).append (figured_word slot.1).unbroken).append
    (by decide)).append (figured_word slot.2).unbroken

theorem storageLine_injective : Function.Injective storageLine := by
  rintro ⟨key, value⟩ ⟨key', value'⟩ h
  simp only [storageLine, String.append_assoc, String.append_right_inj] at h
  obtain ⟨hkey, hvalue⟩ := (figured_word key).cut (figured_word key') ' ' (by decide) (by decide) h
  rw [word_injective hkey, word_injective hvalue]

theorem unbroken_bothWays (pc : Nat) : Unbroken (bothWays pc) :=
  ((((show Unbroken "PC=" by decide).append (figured_offset pc).unbroken).append
    (by decide)).append (figured_decimal pc).unbroken).append (by decide)

theorem bothWays_injective : Function.Injective bothWays := by
  intro pc other h
  simp only [bothWays, String.append_assoc, String.append_right_inj] at h
  obtain ⟨hoffset, -⟩ :=
    (figured_offset pc).cut (figured_offset other) ' ' (by decide) (by decide) h
  exact offset_injective hoffset

/-! ## The panels -/

/-- A stack is shown with the place of each word, which changes nothing about the words. -/
theorem stack_injective : Function.Injective stack := by
  have hstack (words : List Word) : stack words =
      itemized "Stack depth: 0 (empty)" "Stack depth: " ":" stackLine words.zipIdx := by
    rw [itemized, List.length_zipIdx]
    rfl
  intro words others h
  rw [hstack, hstack] at h
  have hplaced := itemized_injective (by decide) (by decide) (by decide) unbroken_stackLine
    stackLine_injective h
  rw [← List.zipIdx_map_fst 0 words, hplaced, List.zipIdx_map_fst]

theorem memory_injective : Function.Injective memory :=
  itemized_injective (show Unbroken "Memory: (all zero)" by decide)
    (show Unbroken "Memory (" by decide) (show Unbroken " non-zero words):" by decide)
    unbroken_memoryLine memoryLine_injective

theorem storage_injective : Function.Injective storage :=
  itemized_injective (show Unbroken "Storage: (empty)" by decide)
    (show Unbroken "Storage (" by decide) (show Unbroken " slots):" by decide)
    unbroken_storageLine storageLine_injective

/-- Breakpoints are a set, of which the panel shows the offsets in order. -/
theorem breakpoints_injective : Function.Injective breakpoints := by
  have hunbroken (pc : Nat) : Unbroken ("  " ++ bothWays pc) :=
    (show Unbroken "  " by decide).append (unbroken_bothWays pc)
  have hline : Function.Injective fun pc => "  " ++ bothWays pc := fun _ _ h =>
    bothWays_injective ((String.append_right_inj "  ").1 h)
  intro b other h
  exact Breakpoints.ext <|
    itemized_injective (show Unbroken "No breakpoints set." by decide)
      (show Unbroken "Breakpoints (" by decide) (show Unbroken "):" by decide) hunbroken hline h

end Panel

/-- **What the operator reads tells what there is.** Snapshots with different stacks are shown by
different texts, and so are different lists of memory words with their offsets, different lists of
slots and different sets of breakpoints. Two consoles therefore answer alike when asked for the
stack, the memory, the storage or the breakpoints exactly if these are the same: all of the stack,
the words of memory that are not zero, the slots that are visible, and the breakpoints. -/
theorem panels_unambiguous :
    (∀ s t : Snapshot, s.state.stack ≠ t.state.stack →
      Panel.stack s.state.stack.words ≠ Panel.stack t.state.stack.words) ∧
    Function.Injective Panel.memory ∧
    Function.Injective Panel.storage ∧
    Function.Injective Panel.breakpoints ∧
    ∀ c d : Console,
      let shown := c.session.current.state
      let other := d.session.current.state
      ((c.execute .stack).2 = (d.execute .stack).2 ↔ shown.stack = other.stack) ∧
      ((c.execute .memory).2 = (d.execute .memory).2 ↔
        shown.memory.nonZeroWords = other.memory.nonZeroWords) ∧
      ((c.execute .storage).2 = (d.execute .storage).2 ↔
        shown.storage.visible = other.storage.visible) ∧
      ((c.execute .breakpoints).2 = (d.execute .breakpoints).2 ↔
        c.breakpoints = d.breakpoints) := by
  have hstack (s t : Stack) : Panel.stack s.words = Panel.stack t.words ↔ s = t := by
    rw [Panel.stack_injective.eq_iff, Stack.ext_iff]
  refine ⟨fun s t hne h => hne ((hstack _ _).1 h), Panel.memory_injective, Panel.storage_injective,
    Panel.breakpoints_injective, fun c d => ?_⟩
  simp only [Console.execute, Reply.text.injEq, hstack, Panel.memory_injective.eq_iff,
    Panel.storage_injective.eq_iff, Panel.breakpoints_injective.eq_iff, and_self]

/-- Two stacks with the same digits in the same order, cut at different places, two slots of that
kind, and an offset that has more digits than are asked for beside one that has not. -/
theorem panels_unambiguous_of_same_digits :
    let holding := fun stack => Snapshot.mk 0 { State.initial .blank with stack } 0
    let s := holding ⟨[0x12, 0x3], by decide⟩
    let t := holding ⟨[0x1, 0x23], by decide⟩
    s.state.stack ≠ t.state.stack ∧
      Panel.stack s.state.stack.words ≠ Panel.stack t.state.stack.words ∧
      Panel.memory [(0x10000, 1)] ≠ Panel.memory [(0x1000, 1)] ∧
      Panel.storage [(0x12, 0x3)] ≠ Panel.storage [(0x1, 0x23)] ∧
      Panel.breakpoints (.ofList [1, 2]) ≠ Panel.breakpoints .empty := by
  intro holding s t
  obtain ⟨hstack, hmemory, hstorage, hbreakpoints, -⟩ := panels_unambiguous
  have hne : s.state.stack ≠ t.state.stack := by decide
  exact ⟨hne, hstack s t hne, hmemory.ne (by decide), hstorage.ne (by decide),
    hbreakpoints.ne (by decide)⟩

end Retrace
