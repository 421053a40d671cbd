import Mathlib.Data.List.Induction
import Mathlib.Data.Nat.Digits.Defs
import Retrace.Proofs.Text.Digits
/-!
# Retrace — digits that spell a number

A text spells a number in a base if its characters, the case aside, are the
digits of values below the base, and the number is the sum of the values, each
at its power of the base (`Spells`). Nothing is read to say so. A run of digits
is read as just the number it spells (`number?_eq_some_iff`), which is the only
one (`Spells.unique`); a number is spelt by the digits it is written with, and by
those with zeros in front. So a number is told from how it is written.
-/

namespace Retrace.Text

variable {base n m d : Nat} {c : Char} {text : List Char} {values : List Nat}

/-! ## Single digits -/

theorem mem_hexDigits_iff : c ∈ hexDigits ↔ ∃ d < 16, c = Nat.digitChar d := by
  constructor
  · intro h
    have hall : ∀ c ∈ hexDigits, ∃ d < 16, c = Nat.digitChar d := forall_of_all (by decide)
    exact hall c h
  · rintro ⟨d, hd, rfl⟩
    exact digitChar_mem_hexDigits hd

/-- The character is a hexadecimal digit, in either case. -/
def HexDigit (c : Char) : Prop := c.toLower ∈ hexDigits

instance (c : Char) : Decidable (HexDigit c) := inferInstanceAs (Decidable (c.toLower ∈ hexDigits))

theorem hexDigit_iff : HexDigit c ↔ ∃ d < 16, c.toLower = Nat.digitChar d := mem_hexDigits_iff

/-- A digit is of lower case. -/
theorem toLower_digitChar (hd : d < 16) : (Nat.digitChar d).toLower = Nat.digitChar d := by
  revert d
  decide

/-- Digits are among the first 128 characters. -/
theorem HexDigit.toNat_lt (h : HexDigit c) : c.toNat < 128 := by
  have hlow : ∀ c ∈ hexDigits, c.toNat < 128 := forall_of_all (by decide)
  have hlower : c.toLower.toNat < 128 := hlow c.toLower h
  by_cases hupper : c.val ≥ 'A'.val ∧ c.val ≤ 'Z'.val
  · have hle : c.toNat ≤ 90 := hupper.2
    omega
  · have hsame : c.toLower = c := dif_neg hupper
    rw [hsame] at hlower
    exact hlower

/-- **The value of a digit**, in either case, is below sixteen, and no other character has one. -/
theorem digitValue?_eq_some_iff :
    digitValue? c = some d ↔ d < 16 ∧ c.toLower = Nat.digitChar d := by
  -- all characters that are looked at are among the first 128
  have hlow : ∀ k < 128, (∀ d < 16, digitValue? (Char.ofNat k) = some d ↔
      (Char.ofNat k).toLower = Nat.digitChar d) ∧
      ∀ d ∈ digitValue? (Char.ofNat k), d < 16 := by decide +kernel
  rcases Nat.lt_or_ge c.toNat 128 with hlt | hge
  · obtain ⟨hiff, hbound⟩ := hlow c.toNat hlt
    rw [Char.ofNat_toNat] at hiff hbound
    exact ⟨fun h => ⟨hbound d h, (hiff d (hbound d h)).1 h⟩, fun ⟨hd, h⟩ => (hiff d hd).2 h⟩
  · have hdigit : ¬ c ≤ '9' := fun h => absurd (show c.toNat ≤ 57 from h) (by omega)
    have hlower : ¬ c ≤ 'f' := fun h => absurd (show c.toNat ≤ 102 from h) (by omega)
    have hupper : ¬ c ≤ 'F' := fun h => absurd (show c.toNat ≤ 70 from h) (by omega)
    constructor
    · intro h
      simp [digitValue?, hdigit, hlower, hupper] at h
    · intro h
      have hlt := (hexDigit_iff.2 ⟨d, h⟩).toNat_lt
      omega

theorem digitIn?_eq_some_iff (hbase : base ≤ 16) :
    digitIn? base c = some d ↔ d < base ∧ c.toLower = Nat.digitChar d := by
  rw [digitIn?, Option.filter_eq_some_iff, digitValue?_eq_some_iff, decide_eq_true_iff]
  constructor
  · rintro ⟨⟨-, hc⟩, hd⟩
    exact ⟨hd, hc⟩
  · rintro ⟨hd, hc⟩
    exact ⟨⟨by omega, hc⟩, hd⟩

/-! ## Runs of digits -/

/-- The characters, the case aside, are the digits of values below the base. -/
structure Digits (base : Nat) (text : List Char) (values : List Nat) : Prop where
  below : ∀ d ∈ values, d < base
  written : text.map Char.toLower = values.map Nat.digitChar

/-- **The text spells the number**: the sum of the values of its digits, each at its power of the
base, the last at the lowest. -/
def Spells (base : Nat) (text : List Char) (n : Nat) : Prop :=
  ∃ values, Digits base text values ∧ Nat.ofDigits base values.reverse = n

theorem digits_nil_iff : Digits base [] values ↔ values = [] := by
  constructor
  · intro h
    exact List.map_eq_nil_iff.1 h.written.symm
  · rintro rfl
    exact ⟨nofun, rfl⟩

theorem digits_cons_iff : Digits base (c :: text) values ↔
    ∃ d rest, values = d :: rest ∧ d < base ∧ c.toLower = Nat.digitChar d ∧
      Digits base text rest := by
  constructor
  · rintro ⟨hbelow, hwritten⟩
    cases values with
    | nil => cases hwritten
    | cons d rest =>
      simp only [List.map_cons, List.cons.injEq] at hwritten
      exact ⟨d, rest, rfl, hbelow d List.mem_cons_self, hwritten.1,
        fun e he => hbelow e (List.mem_cons_of_mem d he), hwritten.2⟩
  · rintro ⟨d, rest, rfl, hd, hc, hrest⟩
    refine ⟨?_, by simp only [List.map_cons, hc, hrest.written]⟩
    intro e he
    rcases List.mem_cons.1 he with rfl | he
    · exact hd
    · exact hrest.below e he

theorem Digits.append {other : List Char} {more : List Nat} (h : Digits base text values)
    (hmore : Digits base other more) : Digits base (text ++ other) (values ++ more) where
  below d hd := (List.mem_append.1 hd).elim (h.below d) (hmore.below d)
  written := by simp only [List.map_append, h.written, hmore.written]

/-- Digits of a base are hexadecimal digits. -/
theorem Digits.hexDigit (hbase : base ≤ 16) (h : Digits base text values) :
    ∀ c ∈ text, HexDigit c := by
  intro c hc
  have hmem : c.toLower ∈ values.map Nat.digitChar := by
    rw [← h.written]
    exact List.mem_map_of_mem hc
  obtain ⟨d, hd, hchar⟩ := List.mem_map.1 hmem
  have hbelow := h.below d hd
  exact hexDigit_iff.2 ⟨d, by omega, hchar.symm⟩

/-- Hexadecimal digits have values. -/
theorem exists_digits (h : ∀ c ∈ text, HexDigit c) : ∃ values, Digits 16 text values := by
  induction text with
  | nil => exact ⟨[], digits_nil_iff.2 rfl⟩
  | cons c text ih =>
    obtain ⟨d, hd, hc⟩ := hexDigit_iff.1 (h c List.mem_cons_self)
    obtain ⟨values, hvalues⟩ := ih fun e he => h e (List.mem_cons_of_mem c he)
    exact ⟨d :: values, digits_cons_iff.2 ⟨d, values, rfl, hd, hc, hvalues⟩⟩

theorem Digits.length_eq (h : Digits base text values) : text.length = values.length := by
  have hlength := congrArg List.length h.written
  simpa using hlength

/-- Digits are read one after the other. -/
theorem mapM_digitIn?_eq_some_iff (hbase : base ≤ 16) :
    text.mapM (digitIn? base) = some values ↔ Digits base text values := by
  induction text generalizing values with
  | nil =>
    rw [digits_nil_iff, List.mapM_nil]
    exact ⟨fun h => (Option.some.inj h).symm, fun h => congrArg some h.symm⟩
  | cons c text ih =>
    rw [digits_cons_iff, List.mapM_cons]
    constructor
    · intro h
      obtain ⟨d, hd, h⟩ := Option.bind_eq_some_iff.1 h
      obtain ⟨rest, hrest, h⟩ := Option.bind_eq_some_iff.1 h
      obtain ⟨hbelow, hc⟩ := (digitIn?_eq_some_iff hbase).1 hd
      exact ⟨d, rest, (Option.some.inj h).symm, hbelow, hc, ih.1 hrest⟩
    · rintro ⟨d, rest, rfl, hbelow, hc, hrest⟩
      rw [(digitIn?_eq_some_iff hbase).2 ⟨hbelow, hc⟩, ih.2 hrest]
      rfl

/-- Reading from the front is summing up from the back. -/
theorem foldl_eq_ofDigits (base : Nat) (values : List Nat) :
    values.foldl (fun n d => base * n + d) 0 = Nat.ofDigits base values.reverse := by
  induction values using List.reverseRecOn with
  | nil => rfl
  | append_singleton values d ih =>
    rw [List.foldl_append, List.reverse_append, ih]
    exact Nat.add_comm _ _

/-- **A run of digits is read as the number it spells.** -/
theorem number?_eq_some_iff (hbase : base ≤ 16) :
    number? base text = some n ↔ text ≠ [] ∧ Spells base text n := by
  rw [number?]
  split
  · rename_i hempty
    rw [List.isEmpty_iff] at hempty
    exact ⟨nofun, fun h => absurd hempty h.1⟩
  · rename_i hne
    rw [List.isEmpty_iff] at hne
    rw [Option.map_eq_some_iff]
    constructor
    · rintro ⟨values, hvalues, rfl⟩
      exact ⟨hne, values, (mapM_digitIn?_eq_some_iff hbase).1 hvalues,
        (foldl_eq_ofDigits base values).symm⟩
    · rintro ⟨-, values, hvalues, rfl⟩
      exact ⟨values, (mapM_digitIn?_eq_some_iff hbase).2 hvalues, foldl_eq_ofDigits base values⟩

/-! ## What spells a number -/

/-- The values of digits are determined by them. -/
theorem Digits.unique {others : List Nat} (hbase : base ≤ 16) (h : Digits base text values)
    (hothers : Digits base text others) : values = others := by
  have hread := (mapM_digitIn?_eq_some_iff hbase).2 h
  rw [(mapM_digitIn?_eq_some_iff hbase).2 hothers] at hread
  exact (Option.some.inj hread).symm

theorem Spells.unique (hbase : base ≤ 16) (h : Spells base text n) (hm : Spells base text m) :
    n = m := by
  obtain ⟨values, hvalues, rfl⟩ := h
  obtain ⟨others, hothers, rfl⟩ := hm
  rw [hvalues.unique hbase hothers]

/-- One more digit at the end. -/
theorem Spells.concat (h : Spells base text n) (hd : d < base) (hc : c.toLower = Nat.digitChar d) :
    Spells base (text ++ [c]) (base * n + d) := by
  obtain ⟨values, hvalues, rfl⟩ := h
  have hlast : Digits base [c] [d] := digits_cons_iff.2 ⟨d, [], rfl, hd, hc, digits_nil_iff.2 rfl⟩
  refine ⟨values ++ [d], hvalues.append hlast, ?_⟩
  rw [List.reverse_append]
  exact Nat.add_comm _ _

theorem Spells.hexDigit (hbase : base ≤ 16) (h : Spells base text n) : ∀ c ∈ text, HexDigit c := by
  obtain ⟨values, hvalues, -⟩ := h
  exact hvalues.hexDigit hbase

/-- There is a power of the base for each digit. -/
theorem Spells.lt_pow (hone : 1 < base) (h : Spells base text n) : n < base ^ text.length := by
  obtain ⟨values, hvalues, rfl⟩ := h
  rw [hvalues.length_eq, ← List.length_reverse]
  apply Nat.ofDigits_lt_base_pow_length hone
  intro d hd
  exact hvalues.below d (List.mem_reverse.1 hd)

/-- A zero in front does not count. -/
theorem spells_zero_cons_iff (hone : 1 < base) (hbase : base ≤ 16) :
    Spells base ('0' :: text) n ↔ Spells base text n := by
  have hvalue (rest : List Nat) :
      Nat.ofDigits base (0 :: rest).reverse = Nat.ofDigits base rest.reverse := by
    rw [List.reverse_cons, Nat.ofDigits_append_zero]
  constructor
  · rintro ⟨values, hvalues, rfl⟩
    obtain ⟨d, rest, rfl, hd, hc, hrest⟩ := digits_cons_iff.1 hvalues
    have hzero : 0 = d := digitChar_inj (by decide) (by omega) hc
    subst hzero
    exact ⟨rest, hrest, (hvalue rest).symm⟩
  · rintro ⟨values, hvalues, rfl⟩
    exact ⟨0 :: values, digits_cons_iff.2 ⟨0, values, rfl, by omega, rfl, hvalues⟩, hvalue values⟩

/-- Nor do more of them. -/
theorem spells_zeros_append (hone : 1 < base) (hbase : base ≤ 16) (k : Nat)
    (h : Spells base text n) : Spells base (List.replicate k '0' ++ text) n := by
  induction k with
  | zero => exact h
  | succ k ih =>
    rw [List.replicate_succ, List.cons_append]
    exact (spells_zero_cons_iff hone hbase).2 ih

/-- **A number is spelt by the digits it is written with**, by induction on it. -/
theorem spells_toDigits (hone : 1 < base) (hbase : base ≤ 16) (n : Nat) :
    Spells base (Nat.toDigits base n) n := by
  induction n using Nat.strong_induction_on with
  | _ n ih =>
    have hlast : n % base < base := Nat.mod_lt n (by omega)
    have hcase := toLower_digitChar (show n % base < 16 by omega)
    rw [toDigits_eq_append hone]
    split
    · rename_i hlt
      have hempty : Spells base [] 0 := ⟨[], digits_nil_iff.2 rfl, rfl⟩
      have hdigit := hempty.concat hlast hcase
      have hvalue : base * 0 + n % base = n := by
        rw [Nat.mul_zero, Nat.zero_add, Nat.mod_eq_of_lt hlt]
      rwa [hvalue] at hdigit
    · have hquotient := (ih (n / base) (Nat.div_lt_self (by omega) hone)).concat hlast hcase
      rwa [Nat.div_add_mod] at hquotient

/-- **Numbers that are written alike are the same**: the digits spell only one. -/
theorem toDigits_inj (hone : 1 < base) (hbase : base ≤ 16)
    (h : Nat.toDigits base n = Nat.toDigits base m) : n = m := by
  have hn := spells_toDigits hone hbase n
  rw [h] at hn
  exact hn.unique hbase (spells_toDigits hone hbase m)

theorem decimal_injective : Function.Injective decimal := fun _ _ h =>
  toDigits_inj (by decide) (by decide) (String.ofList_inj.1 h)

theorem hex_injective : Function.Injective hex := fun _ _ h =>
  toDigits_inj (by decide) (by decide) (String.ofList_inj.1 ((String.append_right_inj "0x").1 h))

/-- Zeros in front do not hide which number it is. -/
theorem offset_injective : Function.Injective offset := by
  intro n m h
  have hdigits : paddedDigits 4 n = paddedDigits 4 m :=
    String.ofList_inj.1 ((String.append_right_inj "0x").1 h)
  have hn : Spells 16 (paddedDigits 4 n) n :=
    spells_zeros_append (by decide) (by decide) _ (spells_toDigits (by decide) (by decide) n)
  have hm : Spells 16 (paddedDigits 4 m) m :=
    spells_zeros_append (by decide) (by decide) _ (spells_toDigits (by decide) (by decide) m)
  rw [hdigits] at hn
  exact hn.unique (by decide) hm

end Retrace.Text
