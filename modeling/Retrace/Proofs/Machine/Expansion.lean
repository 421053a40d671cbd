import Retrace.Proofs.Machine.Checks
import Retrace.Proofs.Machine.Effect
/-!
# Retrace — what growing memory costs

Growing memory costs the difference of two prices, each of a whole number of
units (`Gas.expansion_of_near`), up to a bound from which on it is refused
(`Gas.expansion_of_far`). So it does not matter in how many steps memory grows
(`Gas.expansion_split`), nor how far a size is from a whole number of units.
Handling bytes adds to the price and is never refused by itself
(`Gas.expansionAndUnits_eq`). Gas is paid before memory grows; but what has a
price can be grown to (`Memory.exists_resize_of_priced`), so that nothing is ever
paid for growth that then fails (`State.expandInPlace_eq`).
-/

namespace Retrace

namespace Gas

variable {a b c m price total rate size : Nat}

/-! ## The price of growing -/

/-- Nothing is charged where memory is large enough. -/
theorem expansion_of_le (h : b ≤ a) : expansion b a = .ok 0 := if_pos h

/-- Growing to `2 ^ 32` units or more is refused. -/
theorem expansion_of_far (h : a < b) (hfar : 2 ^ 32 ≤ units b) :
    expansion b a = .error .outOfGas := by
  apply (settledBy_expansion b a).refuses
  omega

/-- **Growing to fewer units costs the difference of the prices.** -/
theorem expansion_of_near (h : a < b) (hnear : units b < 2 ^ 32) :
    expansion b a = .ok (idealPrice (units b) - idealPrice (units a)) := by
  obtain ⟨price, hprice⟩ := (settledBy_expansion b a).goes (.inr hnear)
  have hsum := expansion_ok hprice
  rw [Nat.max_eq_right (Nat.le_of_lt h)] at hsum
  rw [hprice, Nat.eq_sub_of_add_eq hsum]

/-- **Growing in two steps costs as much as growing in one**, and neither step is refused where the
one is not. -/
theorem expansion_split (hlow : a ≤ m) (hhigh : m ≤ b) (h : expansion b a = .ok total) :
    ∃ first second, expansion m a = .ok first ∧ expansion b m = .ok second ∧
      first + second = total := by
  have hfits := (settledBy_expansion b a).holds h
  have hunits := units_mono hhigh
  obtain ⟨first, hfirst⟩ := (settledBy_expansion m a).goes (by omega)
  obtain ⟨second, hsecond⟩ := (settledBy_expansion b m).goes (by omega)
  refine ⟨first, second, hfirst, hsecond, ?_⟩
  -- each price is a difference, and the one in the middle cancels
  have htotal := expansion_ok h
  have hbelow := expansion_ok hfirst
  have habove := expansion_ok hsecond
  rw [Nat.max_eq_right (Nat.le_trans hlow hhigh)] at htotal
  rw [Nat.max_eq_right hlow] at hbelow
  rw [Nat.max_eq_right hhigh] at habove
  omega

/-- Growing less far is not refused where growing further is not, and costs no more. -/
theorem expansion_mono (hle : b ≤ c) (h : expansion c a = .ok total) :
    ∃ price, expansion b a = .ok price ∧ price ≤ total := by
  rcases Nat.le_total b a with hsmall | hlarge
  · exact ⟨0, expansion_of_le hsmall, Nat.zero_le total⟩
  · obtain ⟨first, second, hfirst, -, hsum⟩ := expansion_split hlarge hle h
    exact ⟨first, hfirst, by omega⟩

/-! ## Handling bytes -/

/-- **Handling bytes is paid on top**, and nothing is refused that growing alone is not refused. -/
theorem expansionAndUnits_eq (hrate : rate ≤ 6) (hsize : size < quantityBound) :
    expansionAndUnits rate b a size = (expansion b a).map (· + rate * units size) := by
  have hwhole := settledBy_expansionAndUnits hrate hsize b a
  have hgrowing := settledBy_expansion b a
  by_cases hfits : b ≤ a ∨ units b < 2 ^ 32
  · obtain ⟨price, hprice⟩ := hwhole.goes hfits
    obtain ⟨growth, hgrowth⟩ := hgrowing.goes hfits
    have hsum := expansionAndUnits_ok hprice
    rw [← expansion_ok hgrowth] at hsum
    have hvalue : price = growth + rate * units size := by omega
    rw [hprice, hgrowth, hvalue]
    rfl
  · rw [hwhole.refuses hfits, hgrowing.refuses hfits]
    rfl

/-- The price is a quantity. -/
theorem expansionAndUnits_lt (h : expansionAndUnits rate b a size = .ok price) :
    price < quantityBound := by
  obtain ⟨handling, -, h⟩ := bind_ok h
  obtain ⟨growth, -, h⟩ := bind_ok h
  have hvalue := bounded_ok h
  have hfits := (settledBy_bounded _).holds h
  omega

end Gas

/-! ## Paying and then growing -/

/-- **What has a price can be grown to.** -/
theorem Memory.exists_resize_of_priced {m : Memory} {size price : Nat}
    (fits : m.size < quantityBound) (h : Gas.expansion size m.size = .ok price) :
    ∃ grown, m.resize size = .ok grown ∧ grown.size = max m.size (unitSize * units size) := by
  have hend : unitSize * units size < quantityBound := by
    have haligned := m.aligned
    have hbound := quantityBound_eq
    simp only [Memory.size, unitSize] at fits haligned ⊢
    -- a size that memory has already ends with one of its units, and others are far below the bound
    rcases (Gas.settledBy_expansion size m.size).holds h with hheld | hunits
    · simp only [Memory.size, units, unitSize] at hheld ⊢
      omega
    · omega
  obtain ⟨grown, hgrown⟩ := (m.settledBy_resize size).goes hend
  exact ⟨grown, hgrown, resize_ok hgrown⟩

namespace State

variable {s : State} {size price : Nat}

/-- Paying for memory and growing it in place: whether that went through, and the state that it
leaves. Where a step fails, what the steps before it have done stays done. -/
def expandInPlace (s : State) (size : Nat) : Except Fault Unit × State :=
  match Gas.expansion size s.memory.size with
  | .error cause => (.error cause, s)
  | .ok price =>
    match s.charge price with
    | .error cause => (.error cause, s)
    | .ok paid =>
      match paid.memory.resize size with
      | .error cause => (.error cause, paid)
      | .ok memory => (.ok (), { paid with memory })

/-- **In place or not is the same**: nothing has been done where it fails, for the step that could
fail behind the payment does not. -/
theorem expandInPlace_eq (fits : s.memory.size < quantityBound) (size : Nat) :
    s.expandInPlace size =
      match s.expandMemory size with
      | .ok next => (.ok (), next)
      | .error cause => (.error cause, s) := by
  unfold expandInPlace expandMemory
  cases hprice : Gas.expansion size s.memory.size with
  | error cause => rfl
  | ok price =>
    obtain ⟨grown, hgrown, -⟩ := Memory.exists_resize_of_priced fits hprice
    by_cases hpaid : price ≤ s.gas
    · have hresize : ({ s with gas := s.gas - price } : State).memory.resize size = .ok grown :=
        hgrown
      simp only [bind, Except.bind, charge_of_le hpaid, hresize]
    · have hcharge : s.charge price = .error .outOfGas := if_neg hpaid
      simp only [bind, Except.bind, hcharge]

/-- What is affordable is paid and grown to. -/
theorem expandMemory_of_priced (fits : s.memory.size < quantityBound)
    (hprice : Gas.expansion size s.memory.size = .ok price) (hpaid : price ≤ s.gas) :
    ∃ grown : Memory, grown.size = max s.memory.size (unitSize * units size) ∧
      s.expandMemory size = .ok { s with gas := s.gas - price, memory := grown } := by
  obtain ⟨grown, hgrown, hsize⟩ := Memory.exists_resize_of_priced fits hprice
  refine ⟨grown, hsize, ?_⟩
  have hresize : ({ s with gas := s.gas - price } : State).memory.resize size = .ok grown := hgrown
  simp only [expandMemory, hprice, bind, Except.bind, charge_of_le hpaid, hresize]

/-- And what is not is refused. -/
theorem expandMemory_of_unaffordable
    (h : ∀ price, Gas.expansion size s.memory.size = .ok price → s.gas < price) :
    s.expandMemory size = .error .outOfGas := by
  unfold expandMemory
  cases hprice : Gas.expansion size s.memory.size with
  | error cause =>
    rw [(Gas.settledBy_expansion size s.memory.size).eq_outOfGas hprice]
    rfl
  | ok price =>
    have hcharge : s.charge price = .error .outOfGas := if_neg (Nat.not_le_of_lt (h price hprice))
    simp only [bind, Except.bind, hcharge]

end State

/-- **The price of growing memory is exact, monotone and independent of the steps.** With the price
of so many units as it is, nothing is charged where memory is large enough; growing to `2 ^ 32`
units or more is out of gas; and growing to fewer costs the difference of two prices, of which the
first is the larger one. Growing less far costs no more, and growing in two steps as much as in one.
Hashing and copying cost that, and so much for each unit of the bytes handled: they fail where
growing fails and nowhere else, and their prices are 64-bit quantities. Growing a state is paid with
just that price and brings its memory to the size asked for, rounded up to units, unless it is as
large already; where that is refused nothing has been done, though gas is paid first. -/
theorem expansion_exact :
    let units := fun size : Nat => (size + 31) / 32
    let price := fun count : Nat => count * count / 512 + 3 * count
    (∀ a b, b ≤ a → Gas.expansion b a = .ok 0) ∧
    (∀ a b, a < b → 2 ^ 32 ≤ units b → Gas.expansion b a = .error .outOfGas) ∧
    (∀ a b, a < b → units b < 2 ^ 32 → price (units a) ≤ price (units b) ∧
      price (units b) < 2 ^ 64 ∧
      Gas.expansion b a = .ok (price (units b) - price (units a))) ∧
    (∀ a b c total, b ≤ c → Gas.expansion c a = .ok total →
      ∃ part, Gas.expansion b a = .ok part ∧ part ≤ total) ∧
    (∀ a m b total, a ≤ m → m ≤ b → Gas.expansion b a = .ok total →
      ∃ first second, Gas.expansion m a = .ok first ∧ Gas.expansion b m = .ok second ∧
        first + second = total) ∧
    (∀ a b size, size < 2 ^ 64 →
      Gas.copying b a size = (Gas.expansion b a).map (· + 3 * units size) ∧
      Gas.hashing b a size = (Gas.expansion b a).map (· + 6 * units size) ∧
      ∀ total, Gas.copying b a size = .ok total ∨ Gas.hashing b a size = .ok total →
        total < 2 ^ 64) ∧
    ∀ (s : State) (size : Nat), s.memory.size < 2 ^ 64 →
      (∀ cost, Gas.expansion size s.memory.size = .ok cost → cost ≤ s.gas →
        ∃ grown : Memory, grown.size = max s.memory.size (32 * units size) ∧
          let paid := { s with gas := s.gas - cost, memory := grown }
          s.expandMemory size = .ok paid ∧ s.expandInPlace size = (.ok (), paid)) ∧
      ((∀ cost, Gas.expansion size s.memory.size = .ok cost → s.gas < cost) →
        s.expandMemory size = .error .outOfGas ∧
          s.expandInPlace size = (.error .outOfGas, s)) := by
  intro units price
  have hbound := quantityBound_eq
  refine ⟨fun a b => Gas.expansion_of_le, fun a b => Gas.expansion_of_far, ?_,
    fun a b c total => Gas.expansion_mono, fun a m b total => Gas.expansion_split, ?_, ?_⟩
  · intro a b hlt hnear
    have hmono : units a ≤ units b := units_mono (Nat.le_of_lt hlt)
    have htop : price (units b) ≤ price (2 ^ 32) := Gas.idealPrice_mono (Nat.le_of_lt hnear)
    have hbelow : price (2 ^ 32) < 2 ^ 64 := by decide
    exact ⟨Gas.idealPrice_mono hmono, by omega, Gas.expansion_of_near hlt hnear⟩
  · intro a b size hsize
    rw [← hbound] at hsize
    refine ⟨Gas.expansionAndUnits_eq (by decide) hsize, Gas.expansionAndUnits_eq (by decide) hsize,
      fun total htotal => ?_⟩
    rw [← hbound]
    rcases htotal with hcopying | hhashing
    · exact Gas.expansionAndUnits_lt hcopying
    · exact Gas.expansionAndUnits_lt hhashing
  · intro s size fits
    rw [← hbound] at fits
    constructor
    · intro cost hcost hpaid
      obtain ⟨grown, hgrown, hexpanded⟩ := State.expandMemory_of_priced fits hcost hpaid
      refine ⟨grown, hgrown, hexpanded, ?_⟩
      rw [State.expandInPlace_eq fits, hexpanded]
    · intro hunaffordable
      have hrefused := State.expandMemory_of_unaffordable hunaffordable
      refine ⟨hrefused, ?_⟩
      rw [State.expandInPlace_eq fits, hrefused]

/-- Sizes that are no whole number of units, on either side of an edge of one; the largest memory
that has a price and the first byte beyond it; and a state with gas for one more unit and not for
two. -/
theorem expansion_exact_of_edges :
    let s : State := { State.initial .blank with gas := 5 }
    Gas.expansion 64 33 = .ok 0 ∧ Gas.expansion 65 64 = .ok 3 ∧ Gas.expansion 65 33 = .ok 3 ∧
      Gas.expansion (2 ^ 37 - 32) 0 = .ok (2 ^ 55 + 3 * 2 ^ 32 - 2 ^ 24 - 3) ∧
      Gas.expansion (2 ^ 37 - 31) 0 = .error .outOfGas ∧
      Gas.copying 65 33 33 = .ok 9 ∧ Gas.hashing 65 33 33 = .ok 15 ∧
      (∃ grown : Memory, grown.size = 32 ∧
        s.expandInPlace 1 = (.ok (), { s with gas := 2, memory := grown })) ∧
      s.expandInPlace 33 = (.error .outOfGas, s) := by
  intro s
  obtain ⟨-, hfar, hnear, -, hsplit, hhandling, hstate⟩ := expansion_exact
  have hone : Gas.expansion 1 0 = .ok 3 := (hnear 0 1 (by decide) (by decide)).2.2
  have htwo : Gas.expansion 33 0 = .ok 6 := (hnear 0 33 (by decide) (by decide)).2.2
  have hsame : Gas.expansion 64 33 = .ok 0 := (hnear 33 64 (by decide) (by decide)).2.2
  have hover : Gas.expansion 65 33 = .ok 3 := (hnear 33 65 (by decide) (by decide)).2.2
  have hnext : Gas.expansion 65 64 = .ok 3 := by
    obtain ⟨first, second, hfirst, hsecond, hsum⟩ :=
      hsplit 33 64 65 3 (by decide) (by decide) hover
    rw [hsame] at hfirst
    cases hfirst
    rw [hsecond, ← hsum, Nat.zero_add]
  obtain ⟨hcopying, hhashing, -⟩ := hhandling 33 65 33 (by decide)
  rw [hover] at hcopying hhashing
  obtain ⟨grown, hsize, -, hpaid⟩ := (hstate s 1 (by decide)).1 3 hone (by decide)
  have hrefused := (hstate s 33 (by decide)).2 fun cost hcost => by
    have hvalue : Gas.expansion 33 0 = .ok cost := hcost
    rw [htwo] at hvalue
    cases hvalue
    decide
  exact ⟨hsame, hnext, hover, (hnear 0 (2 ^ 37 - 32) (by decide) (by decide)).2.2,
    hfar 0 (2 ^ 37 - 31) (by decide) (by decide), hcopying, hhashing, ⟨grown, hsize, hpaid⟩,
    hrefused.2⟩

end Retrace
