import Retrace.Opcode
import Retrace.Proofs.Text.Digits
/-!
# Retrace — texts made of lines

What the operator reads is made of lines. Where no line has a break in it, the
text comes apart into the same lines again (`splitOn_lines`). No part of a line
has a break, nor the sign that marks a line: such parts are plain, and so is
what is put together from them. That is said of a part once, where it is
written; of numbers it holds because they are written in figures. A line that
can be marked begins with the sign or with a blank, and the sign tells whether it
is (`MarkedIf.mem_iff`).
-/

namespace Retrace

namespace Text

/-! ## Figures -/

/-- The characters of a number, and of the sign that it is in hexadecimal. -/
def figures : List Char := 'x' :: hexDigits

/-- A text in figures. -/
def Figured (text : String) : Prop := ∀ c ∈ text.toList, c ∈ figures

theorem figured_of_hexDigits {text : String} (h : ∀ c ∈ text.toList, c ∈ hexDigits) :
    Figured text := fun c hc => List.mem_cons_of_mem 'x' (h c hc)

theorem Figured.append {a b : String} (ha : Figured a) (hb : Figured b) : Figured (a ++ b) := by
  intro c hc
  rw [String.toList_append] at hc
  rcases List.mem_append.1 hc with hc | hc
  · exact ha c hc
  · exact hb c hc

/-- The sign of a number in hexadecimal is counted among its figures. -/
theorem figured_mark : Figured "0x" := forall_of_all (by decide)

/-- The digits of a number are figures. -/
theorem figured_digits {base : Nat} (hone : 1 < base) (hbase : base ≤ 16) (n : Nat) :
    Figured (String.ofList (Nat.toDigits base n)) := by
  apply figured_of_hexDigits
  intro c hc
  rw [String.toList_ofList] at hc
  exact mem_hexDigits_of_mem_toDigits hone hbase hc

theorem figured_decimal (n : Nat) : Figured (decimal n) := figured_digits (by decide) (by decide) n

theorem figured_hex (n : Nat) : Figured (hex n) :=
  figured_mark.append (figured_digits (by decide) (by decide) n)

theorem figured_offset (n : Nat) : Figured (offset n) := by
  apply figured_mark.append
  intro c hc
  rw [String.toList_ofList] at hc
  rcases List.mem_append.1 hc with hzero | hdigit
  · rw [List.eq_of_mem_replicate hzero]
    decide
  · rw [← String.toList_ofList (l := Nat.toDigits 16 n)] at hdigit
    exact figured_digits (by decide) (by decide) n c hdigit

/-! ## Plain parts -/

-- Two characters are looked for in the text: a condition on each of its characters would be decided
-- over all characters that there are.
/-- A text that stands within a line and does not mark it. -/
def Plain (text : String) : Prop := '\n' ∉ text.toList ∧ '>' ∉ text.toList

instance (text : String) : Decidable (Plain text) :=
  inferInstanceAs (Decidable ('\n' ∉ text.toList ∧ '>' ∉ text.toList))

theorem Plain.append {a b : String} (ha : Plain a) (hb : Plain b) : Plain (a ++ b) := by
  unfold Plain
  rw [String.toList_append, List.mem_append, List.mem_append, not_or, not_or]
  exact ⟨⟨ha.1, hb.1⟩, ⟨ha.2, hb.2⟩⟩

/-- What is written in figures is plain. -/
theorem Figured.plain {text : String} (h : Figured text) : Plain text :=
  ⟨fun hbreak => absurd (h _ hbreak) (by decide), fun hmark => absurd (h _ hmark) (by decide)⟩

theorem plain_decimal (n : Nat) : Plain (decimal n) := (figured_decimal n).plain

theorem plain_offset (n : Nat) : Plain (offset n) := (figured_offset n).plain

theorem plain_bytesHex (bytes : Bytes) : Plain (bytesHex bytes) :=
  (figured_of_hexDigits fun _ => mem_hexDigits_of_mem_bytesHex).plain

theorem Plain.padRight {text : String} (h : Plain text) (width : Nat) :
    Plain (padRight width text) := by
  refine h.append ?_
  unfold Plain
  rw [String.toList_ofList, List.mem_replicate, List.mem_replicate]
  exact ⟨fun hbreak => absurd hbreak.2 (by decide), fun hmark => absurd hmark.2 (by decide)⟩

/-- A line that may be the marked one: it begins with its mark, and is plain behind it. -/
def MarkedIf (p : Prop) [Decidable p] (text : String) : Prop :=
  ∃ body, Plain body ∧ text.toList = (if p then '>' else ' ') :: body.toList

section MarkedIf

variable {p : Prop} [Decidable p] {text : String}

theorem MarkedIf.not_break (h : MarkedIf p text) : '\n' ∉ text.toList := by
  obtain ⟨body, hplain, htext⟩ := h
  rw [htext]
  intro hbreak
  rcases List.mem_cons.1 hbreak with hmark | hbody
  · revert hmark
    split <;> decide
  · exact hplain.1 hbody

/-- The sign shows which line is marked. -/
theorem MarkedIf.mem_iff (h : MarkedIf p text) : '>' ∈ text.toList ↔ p := by
  obtain ⟨body, hplain, htext⟩ := h
  rw [htext, List.mem_cons, or_iff_left hplain.2]
  split
  · rename_i hp
    exact iff_of_true rfl hp
  · rename_i hp
    exact iff_of_false (by decide) hp

end MarkedIf

/-- A text with a line for each item comes apart into these lines. -/
theorem splitOn_lines {α : Type} {line : α → String} {items : List α} (hne : items ≠ [])
    (h : ∀ item ∈ items, '\n' ∉ (line item).toList) :
    (lines (items.map line)).toList.splitOn '\n' = items.map fun item => (line item).toList := by
  have hbreak : "\n".toList = ['\n'] := by decide
  rw [lines, String.toList_intercalate, hbreak, List.map_map]
  refine List.splitOn_intercalate '\n' (fun text htext => ?_) fun hnil =>
    hne (List.map_eq_nil_iff.1 hnil)
  obtain ⟨item, hitem, rfl⟩ := List.mem_map.1 htext
  exact h item hitem

end Text

/-- Mnemonics are plain: those of the families end on a number. -/
theorem Opcode.plain_mnemonic (op : Opcode) : Text.Plain op.mnemonic := by
  cases op with
  | push n | dup n | swap n => exact .append (by decide) (Text.plain_decimal (n.val + 1))
  | _ => decide

end Retrace
