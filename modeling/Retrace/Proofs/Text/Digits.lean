import Mathlib.Algebra.Order.Group.Nat
import Retrace.Proofs.Windows
import Retrace.Text.Digits
/-!
# Retrace — digits in text

Texts are made of words and numbers, and numbers of digits. That a number is
written with the sixteen digits of lower-case hexadecimal and nothing else
(`mem_hexDigits_of_mem_toDigits`, `mem_hexDigits_of_mem_bytesHex`) keeps it apart
from whatever stands around it. Leaving out the last digit of a number is
dividing it by the base; so the digits of one number stand somewhere among those
of another exactly where that, divided by a power of the base, ends on the first
(`toDigits_isInfix_iff`).
-/

namespace Retrace.Text

/-- The digits of lower-case hexadecimal. -/
def hexDigits : List Char := "0123456789abcdef".toList

/-- A condition on the characters of a text is decided over these, and not over all characters
that there are. -/
theorem forall_of_all {p : Char → Prop} [DecidablePred p] {text : List Char}
    (h : text.all (fun c => decide (p c)) = true) : ∀ c ∈ text, p c := by
  intro c hc
  exact of_decide_eq_true (List.all_eq_true.1 h c hc)

/-! ## Which characters there are -/

theorem digitChar_mem_hexDigits {d : Nat} (h : d < 16) : Nat.digitChar d ∈ hexDigits := by
  revert d
  decide

/-- Digits are told apart. -/
theorem digitChar_inj {a b : Nat} (ha : a < 16) (hb : b < 16)
    (h : Nat.digitChar a = Nat.digitChar b) : a = b := by
  have hall : ∀ a < 16, ∀ b < 16, Nat.digitChar a = Nat.digitChar b → a = b := by decide
  exact hall a ha b hb h

/-- The last digit of a number, and in front of it those of the quotient. -/
theorem toDigits_eq_append {base : Nat} (hone : 1 < base) (n : Nat) :
    Nat.toDigits base n =
      (if n < base then [] else Nat.toDigits base (n / base)) ++ [Nat.digitChar (n % base)] := by
  rw [Nat.toDigits_eq_if hone]
  split
  · rename_i hlt
    rw [Nat.mod_eq_of_lt hlt, List.nil_append]
  · rfl

/-- **A number is written in digits**, by induction on it: all but the last are those of its
quotient. -/
theorem mem_hexDigits_of_mem_toDigits {base n : Nat} {c : Char} (hone : 1 < base)
    (hbase : base ≤ 16) (h : c ∈ Nat.toDigits base n) : c ∈ hexDigits := by
  induction n using Nat.strong_induction_on with
  | _ n ih =>
    rw [toDigits_eq_append hone] at h
    rcases List.mem_append.1 h with h | h
    · split at h
      · cases h
      · exact ih (n / base) (Nat.div_lt_self (by omega) hone) h
    · obtain rfl := List.mem_singleton.1 h
      have hlast : n % base < base := Nat.mod_lt n (by omega)
      exact digitChar_mem_hexDigits (by omega)

/-- The characters of a byte string are two for each byte. -/
theorem toList_bytesHex (bytes : Bytes) :
    (bytesHex bytes).toList = (Bytes.toList bytes).flatMap byteDigits := String.toList_ofList

theorem bytesHex_append (a b : Bytes) : bytesHex (a ++ b) = bytesHex a ++ bytesHex b := by
  refine String.toList_inj.1 ?_
  rw [String.toList_append, toList_bytesHex, toList_bytesHex, toList_bytesHex,
    Bytes.toList_append, List.flatMap_append]

theorem length_bytesHex (bytes : Bytes) : (bytesHex bytes).toList.length = 2 * bytes.size := by
  rw [toList_bytesHex, List.length_flatMap, ← Bytes.length_toList]
  generalize Bytes.toList bytes = list
  induction list with
  | nil => rfl
  | cons byte rest ih =>
    rw [List.map_cons, List.sum_cons, ih, List.length_cons]
    show 2 + 2 * rest.length = 2 * (rest.length + 1)
    omega

theorem mem_hexDigits_of_mem_bytesHex {bytes : Bytes} {c : Char}
    (h : c ∈ (bytesHex bytes).toList) : c ∈ hexDigits := by
  rw [toList_bytesHex] at h
  obtain ⟨byte, -, hc⟩ := List.mem_flatMap.1 h
  have hlt := byte.toNat_lt
  rcases List.mem_cons.1 hc with rfl | hc
  · exact digitChar_mem_hexDigits (by omega)
  · obtain rfl := List.mem_singleton.1 hc
    exact digitChar_mem_hexDigits (by omega)

/-! ## Digits inside digits -/

variable {base n v : Nat}

theorem concat_isSuffix_concat_iff {xs ys : List Char} {x y : Char} :
    xs ++ [x] <:+ ys ++ [y] ↔ xs <:+ ys ∧ x = y := by
  rw [← List.reverse_prefix, List.reverse_append, List.reverse_append, List.reverse_singleton,
    List.reverse_singleton, List.singleton_append, List.singleton_append, List.cons_prefix_cons,
    List.reverse_prefix, and_comm]

/-- **The last digits of a number**: as many as another one has, they are its own exactly where it
is left as a remainder. -/
theorem toDigits_isSuffix_iff (hone : 1 < base) (hbase : base ≤ 16) :
    Nat.toDigits base v <:+ Nat.toDigits base n ↔
      n % base ^ (Nat.toDigits base v).length = v := by
  induction v using Nat.strong_induction_on generalizing n with
  | _ v ih =>
    have hlast : n % base < base := Nat.mod_lt n (by omega)
    rw [toDigits_eq_append hone n]
    rcases Nat.lt_or_ge v base with hv | hv
    -- a single digit is the last one
    · rw [Nat.toDigits_of_lt_base hv, List.singleton_suffix_append_singleton_iff,
        List.length_singleton, Nat.pow_one]
      exact ⟨fun h => (digitChar_inj (by omega) (by omega) h).symm, fun h => by rw [h]⟩
    -- of several the last ones agree, and those in front by induction
    · have hvlast : v % base < base := Nat.mod_lt v (by omega)
      have hquotient := ih (v / base) (Nat.div_lt_self (by omega) hone) (n := n / base)
      rw [Nat.toDigits_of_base_le hone hv, concat_isSuffix_concat_iff, List.length_append,
        List.length_singleton, Nat.pow_succ', Nat.mod_mul]
      split
      · rename_i hn
        have hzero : n / base = 0 := Nat.div_eq_of_lt hn
        rw [List.suffix_nil, hzero, Nat.zero_mod, Nat.mul_zero, Nat.add_zero]
        exact ⟨fun h => absurd h.1 Nat.toDigits_ne_nil, fun h => absurd h (by omega)⟩
      · rw [hquotient]
        constructor
        · rintro ⟨hfront, hdigit⟩
          rw [hfront, ← digitChar_inj (by omega) (by omega) hdigit, Nat.mod_add_div]
        · intro h
          have hfront := congrArg (· / base) h
          have hdigit := congrArg (· % base) h
          rw [Nat.add_mul_div_left _ _ (by omega), Nat.div_eq_of_lt hlast, Nat.zero_add] at hfront
          rw [Nat.add_mul_mod_self_left, Nat.mod_mod] at hdigit
          exact ⟨hfront, congrArg Nat.digitChar hdigit.symm⟩

/-- **The digits of a number among those of another one**, by induction on that: they are its last
ones, or stand among those in front of its last one. -/
theorem toDigits_isInfix_iff (hone : 1 < base) (hbase : base ≤ 16) (hv : v ≠ 0) :
    Nat.toDigits base v <:+: Nat.toDigits base n ↔
      ∃ j, n / base ^ j % base ^ (Nat.toDigits base v).length = v := by
  induction n using Nat.strong_induction_on with
  | _ n ih =>
    have hsplit : (∃ j, n / base ^ j % base ^ (Nat.toDigits base v).length = v) ↔
        n % base ^ (Nat.toDigits base v).length = v ∨
          ∃ j, n / base / base ^ j % base ^ (Nat.toDigits base v).length = v := by
      rw [← Nat.or_exists_add_one, Nat.pow_zero, Nat.div_one]
      refine or_congr_right (exists_congr fun j => ?_)
      rw [Nat.pow_succ', Nat.div_div_eq_div_mul]
    have hlast := toDigits_isSuffix_iff (n := n) (v := v) hone hbase
    rw [toDigits_eq_append hone n] at hlast ⊢
    rw [List.infix_concat_iff, hlast, hsplit]
    refine or_congr_right ?_
    split
    · rename_i hlt
      rw [Nat.div_eq_of_lt hlt, List.infix_nil]
      refine ⟨fun h => absurd h Nat.toDigits_ne_nil, fun ⟨j, hj⟩ => absurd hj.symm ?_⟩
      rw [Nat.zero_div, Nat.zero_mod]
      exact hv
    · rename_i hge
      exact ih (n / base) (Nat.div_lt_self (by omega) hone)

end Retrace.Text
