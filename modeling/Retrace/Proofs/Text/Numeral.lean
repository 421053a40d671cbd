import Retrace.Proofs.Text.Blank
import Retrace.Proofs.Text.Spelling
import Retrace.Text.Numeral
/-!
# Retrace — numerals and their values

A numeral is at least one digit behind at most one plus sign, and where it is
hexadecimal a marker stands in front of that (`Numeral`). Its value may be any
number. Read, between blanks, it gives that value where it is a 64-bit quantity
and nothing where it is larger (`numeral?_of_numeral`); and nothing else is read
as a number (`numeral_of_numeral?`). How numbers are shown, in decimal and as an
offset, are numerals of them.
-/

namespace Retrace

theorem quantity?_eq_some_iff {n m : Nat} : quantity? n = some m ↔ n < quantityBound ∧ n = m := by
  rw [quantity?]
  split
  · rename_i hlt
    exact ⟨fun h => ⟨hlt, Option.some.inj h⟩, fun h => congrArg some h.2⟩
  · rename_i hge
    exact ⟨nofun, fun h => absurd h.1 hge⟩

namespace Text

variable {base n : Nat} {mark : Char} {text digits : List Char}

/-- At least one digit of a base, behind at most one plus sign. -/
inductive Signed (base : Nat) : List Char → Nat → Prop
  | plain {digits : List Char} {n : Nat} (hne : digits ≠ []) (h : Spells base digits n) :
      Signed base digits n
  | plus {digits : List Char} {n : Nat} (hne : digits ≠ []) (h : Spells base digits n) :
      Signed base ('+' :: digits) n

/-- **The numerals**, with their values. -/
inductive Numeral : List Char → Nat → Prop
  | decimal {text : List Char} {n : Nat} (h : Signed 10 text n) : Numeral text n
  | hexadecimal {mark : Char} {text : List Char} {n : Nat} (hmark : mark = 'x' ∨ mark = 'X')
      (h : Signed 16 text n) : Numeral ('0' :: mark :: text) n

/-! ## Characters that are no digits -/

/-- No blank is a digit. -/
theorem HexDigit.not_blank {c : Char} (h : HexDigit c) : isBlank c = false := by
  have hall : ∀ c ∈ blanks, ¬ HexDigit c := forall_of_all (by decide)
  rw [Bool.eq_false_iff]
  intro hblank
  exact hall c (List.contains_iff_mem.1 hblank) h

theorem Signed.not_blank (hbase : base ≤ 16) (h : Signed base text n) :
    ∀ c ∈ text, isBlank c = false := by
  intro c hc
  cases h with
  | plain _ h => exact (h.hexDigit hbase c hc).not_blank
  | plus _ h =>
    rcases List.mem_cons.1 hc with rfl | hc
    · decide
    · exact (h.hexDigit hbase c hc).not_blank

theorem Numeral.not_blank (h : Numeral text n) : ∀ c ∈ text, isBlank c = false := by
  intro c hc
  cases h with
  | decimal h => exact h.not_blank (by decide) c hc
  | hexadecimal hmark h =>
    rcases List.mem_cons.1 hc with rfl | hc
    · decide
    · rcases List.mem_cons.1 hc with rfl | hc
      · rcases hmark with rfl | rfl
        · decide
        · decide
      · exact h.not_blank (by decide) c hc

theorem Signed.ne_nil (h : Signed base text n) : text ≠ [] := by
  cases h with
  | plain hne _ => exact hne
  | plus _ _ => exact List.cons_ne_nil _ _

theorem Numeral.ne_nil (h : Numeral text n) : text ≠ [] := by
  cases h with
  | decimal h => exact h.ne_nil
  | hexadecimal _ _ => exact List.cons_ne_nil _ _

/-- No decimal number begins like a hexadecimal one. -/
theorem not_signed_of_mark (hmark : mark = 'x' ∨ mark = 'X') :
    ¬ Signed 10 ('0' :: mark :: digits) n := by
  intro h
  cases h with
  | plain _ h =>
    obtain ⟨values, hvalues, -⟩ := h
    obtain ⟨-, rest, -, -, -, hrest⟩ := digits_cons_iff.1 hvalues
    obtain ⟨d, -, -, hd, hchar, -⟩ := digits_cons_iff.1 hrest
    have hnone : ∀ d < 10, Nat.digitChar d ≠ 'x' := by decide
    rcases hmark with rfl | rfl
    · exact hnone d hd hchar.symm
    · exact hnone d hd hchar.symm

/-! ## Reading -/

/-- The sign is passed over and the digits are read. -/
theorem signed_iff (hbase : base ≤ 16) :
    Signed base text n ↔ number? base (unsigned text) = some n := by
  constructor
  · intro h
    cases h with
    | plus hne h => exact (number?_eq_some_iff hbase).2 ⟨hne, h⟩
    | plain hne h =>
      have hsame : unsigned text = text := by
        rw [unsigned]
        rintro digits rfl
        -- a plus sign is no digit
        have hplus := h.hexDigit hbase '+' List.mem_cons_self
        exact absurd hplus (by decide)
      rw [hsame]
      exact (number?_eq_some_iff hbase).2 ⟨hne, h⟩
  · intro h
    rw [unsigned.eq_def] at h
    split at h <;> obtain ⟨hne, hspells⟩ := (number?_eq_some_iff hbase).1 h
    · exact .plus hne hspells
    · exact .plain hne hspells

/-- A quantity is read where the value is one. -/
theorem quantityIn?_of_signed (hbase : base ≤ 16) (h : Signed base text n) :
    quantityIn? base text = quantity? n := by
  rw [quantityIn?, (signed_iff hbase).1 h]
  rfl

theorem signed_of_quantityIn? (hbase : base ≤ 16) (h : quantityIn? base text = some n) :
    Signed base text n ∧ n < quantityBound := by
  obtain ⟨m, hm, hquantity⟩ := Option.bind_eq_some_iff.1 h
  obtain ⟨hfits, rfl⟩ := quantity?_eq_some_iff.1 hquantity
  exact ⟨(signed_iff hbase).2 hm, hfits⟩

/-- **A numeral is read as its value**, if that is a 64-bit quantity, and else not at all. -/
theorem numeral?_of_numeral (h : Numeral (trim text) n) : numeral? text = quantity? n := by
  rw [numeral?]
  generalize trim text = core at h
  cases h with
  | hexadecimal hmark h =>
    rcases hmark with rfl | rfl
    · exact quantityIn?_of_signed (by decide) h
    · exact quantityIn?_of_signed (by decide) h
  | decimal h =>
    split
    · exact absurd h (not_signed_of_mark (.inl rfl))
    · exact absurd h (not_signed_of_mark (.inr rfl))
    · exact quantityIn?_of_signed (by decide) h

/-- **Only numerals are read.** -/
theorem numeral_of_numeral? (h : numeral? text = some n) :
    Numeral (trim text) n ∧ n < quantityBound := by
  rw [numeral?] at h
  split at h <;> rename_i heq
  · rw [heq]
    exact (signed_of_quantityIn? (by decide) h).imp_left (.hexadecimal (.inl rfl))
  · rw [heq]
    exact (signed_of_quantityIn? (by decide) h).imp_left (.hexadecimal (.inr rfl))
  · exact (signed_of_quantityIn? (by decide) h).imp_left .decimal

/-! ## Numbers as they are shown -/

theorem numeral_decimal (n : Nat) : Numeral (decimal n).toList n := by
  rw [decimal, String.toList_ofList]
  exact .decimal (.plain Nat.toDigits_ne_nil (spells_toDigits (by decide) (by decide) n))

theorem numeral_offset (n : Nat) : Numeral (offset n).toList n := by
  have hdigits : (offset n).toList = '0' :: 'x' :: paddedDigits 4 n := by
    rw [offset, hexPadded, String.toList_append, String.toList_ofList, String.toList_ofList]
    rfl
  have hspells : Spells 16 (Nat.toDigits 16 n) n := spells_toDigits (by decide) (by decide) n
  rw [hdigits]
  refine .hexadecimal (.inl rfl) (.plain ?_ (spells_zeros_append (by decide) (by decide) _ hspells))
  intro hnil
  exact Nat.toDigits_ne_nil (List.append_eq_nil_iff.1 hnil).2

end Text

end Retrace
