import Mathlib.Data.List.TakeWhile
import Retrace.Text.Blank
/-!
# Retrace — what trimming leaves

Trimming takes the blanks off the two ends of a text and nothing else. A text is
blanks, then what trimming leaves, then blanks again, and what is left neither
begins nor ends with one; no other part of the text is like that
(`trim_eq_iff`). So a reader that trims is told of any text by telling of a
trimmed one.
-/

namespace Retrace.Text

variable {text core front back : List Char}

/-- A text of blanks only. -/
def Blank (text : List Char) : Prop := ∀ c ∈ text, isBlank c = true

instance (text : List Char) : Decidable (Blank text) :=
  decidable_of_iff (text.all isBlank = true) List.all_eq_true

/-- A text that neither begins nor ends with a blank. -/
structure Bare (text : List Char) : Prop where
  first : ∀ c ∈ text.head?, isBlank c = false
  last : ∀ c ∈ text.getLast?, isBlank c = false

/-- A text without blanks is bare. -/
theorem bare_of_forall (h : ∀ c ∈ text, isBlank c = false) : Bare text where
  first c hc := h c (List.mem_of_mem_head? hc)
  last c hc := h c (List.mem_of_getLast? hc)

theorem Blank.reverse (h : Blank text) : Blank text.reverse := by
  intro c hc
  exact h c (List.mem_reverse.1 hc)

theorem trimStart_append (h : Blank front) : trimStart (front ++ text) = trimStart text :=
  List.dropWhile_append_of_pos h

theorem trimStart_eq_self (h : ∀ c ∈ text.head?, isBlank c = false) : trimStart text = text := by
  cases text with
  | nil => rfl
  | cons c rest =>
    have hc : isBlank c = false := h c rfl
    exact List.dropWhile_cons_of_neg (by simp [hc])

/-- Blanks and the rest, which does not begin with one. -/
theorem exists_trimStart (text : List Char) : ∃ front, Blank front ∧
    text = front ++ trimStart text ∧ ∀ c ∈ (trimStart text).head?, isBlank c = false := by
  refine ⟨text.takeWhile isBlank, ?_, List.takeWhile_append_dropWhile.symm, ?_⟩
  · intro c hc
    exact List.mem_takeWhile_imp hc
  · intro c hc
    have hhead := List.head?_dropWhile_not isBlank text
    rw [show (text.dropWhile isBlank).head? = some c from hc] at hhead
    exact hhead

/-- The same at the other end. -/
theorem exists_trimEnd (text : List Char) : ∃ back, Blank back ∧
    text = trimEnd text ++ back ∧ ∀ c ∈ (trimEnd text).getLast?, isBlank c = false := by
  obtain ⟨front, hfront, hsplit, hhead⟩ := exists_trimStart text.reverse
  refine ⟨front.reverse, hfront.reverse, ?_, ?_⟩
  · have hreversed := congrArg List.reverse hsplit
    simpa [trimEnd] using hreversed
  · intro c hc
    rw [trimEnd, List.getLast?_reverse] at hc
    exact hhead c hc

theorem exists_trim (text : List Char) : ∃ front back, Blank front ∧ Blank back ∧
    text = front ++ trim text ++ back ∧ Bare (trim text) := by
  obtain ⟨front, hfront, hstart, hfirst⟩ := exists_trimStart text
  obtain ⟨back, hback, hend, hlast⟩ := exists_trimEnd (trimStart text)
  refine ⟨front, back, hfront, hback, ?_, ⟨?_, hlast⟩⟩
  · rw [List.append_assoc]
    exact hstart.trans (congrArg (front ++ ·) hend)
  -- what is left begins as the text without the blanks in front of it does
  · intro c hc
    have hbegins : (trimEnd (trimStart text)).head? = some c := hc
    apply hfirst c
    rw [hend, List.head?_append, hbegins]
    rfl

theorem trim_padded (hfront : Blank front) (hback : Blank back) (hcore : Bare core) :
    trim (front ++ core ++ back) = core := by
  rw [trim, List.append_assoc, trimStart_append hfront]
  cases core with
  | nil =>
    have hnone : trimStart back = [] := List.dropWhile_eq_nil_iff.2 hback
    rw [List.nil_append, hnone]
    rfl
  | cons c rest =>
    have hstart : trimStart (c :: rest ++ back) = c :: rest ++ back :=
      trimStart_eq_self fun d hd => hcore.first d hd
    have hlast : trimStart (c :: rest).reverse = (c :: rest).reverse := by
      apply trimStart_eq_self
      intro d hd
      rw [List.head?_reverse] at hd
      exact hcore.last d hd
    rw [hstart, trimEnd, List.reverse_append, trimStart_append hback.reverse, hlast,
      List.reverse_reverse]

/-- **Trimming takes the blanks off both ends**, and nothing else does. -/
theorem trim_eq_iff : trim text = core ↔
    Bare core ∧ ∃ front back, Blank front ∧ Blank back ∧ text = front ++ core ++ back := by
  constructor
  · rintro rfl
    obtain ⟨front, back, hfront, hback, hsplit, hbare⟩ := exists_trim text
    exact ⟨hbare, front, back, hfront, hback, hsplit⟩
  · rintro ⟨hbare, front, back, hfront, hback, rfl⟩
    exact trim_padded hfront hback hbare

theorem trim_eq_self (h : Bare text) : trim text = text :=
  trim_eq_iff.2 ⟨h, [], [], nofun, nofun, by simp⟩

theorem trim_trim (text : List Char) : trim (trim text) = trim text := by
  obtain ⟨-, -, -, -, -, hbare⟩ := exists_trim text
  exact trim_eq_self hbare

end Retrace.Text
