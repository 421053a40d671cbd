import Retrace.Machine.State
/-!
# Retrace — what memory costs and how far it grows

The price of memory is computed in one place and memory grows in another. This
file relates the two to one pair of notions: `Gas.idealPrice`, the price of so
many units in unbounded integers, and `touchedEnd`, the end of a touched range
rounded up to units. What an expansion charges is a difference of ideal prices
(`expansion_ok`), and every access leaves memory at the larger of its old size
and the touched end (`load_ok`, `store_ok`, `storePadded_ok`).
-/

namespace Retrace

/-! ## Carrying on after a success -/

/-- A computation that succeeds has succeeded at its first part. -/
theorem bind_ok {α β : Type} {x : Except Fault α} {f : α → Except Fault β} {b : β}
    (h : x >>= f = .ok b) : ∃ a, x = .ok a ∧ f a = .ok b := by
  cases x with
  | error cause => cases h
  | ok a => exact ⟨a, rfl, h⟩

theorem bounded_ok {n k : Nat} (h : bounded n = .ok k) : k = n := by
  unfold bounded at h
  split at h
  · cases h; rfl
  · cases h

/-! ## Units -/

theorem units_mono {a b : Nat} (h : a ≤ b) : units a ≤ units b := by
  simp only [units, unitSize]
  omega

/-- The units of the larger of two sizes are the larger of their units. -/
theorem units_max (a b : Nat) : units (max a b) = max (units a) (units b) := by
  rcases Nat.le_total a b with h | h
  · rw [Nat.max_eq_right h, Nat.max_eq_right (units_mono h)]
  · rw [Nat.max_eq_left h, Nat.max_eq_left (units_mono h)]

/-- Whole units take as many units as they are. -/
theorem units_unitSize_mul (count : Nat) : units (unitSize * count) = count := by
  simp only [units, unitSize]
  omega

/-- The end of the range of `size` bytes at `offset`, rounded up to units; zero for no bytes. -/
def touchedEnd (offset size : Nat) : Nat :=
  if size = 0 then 0 else unitSize * units (offset + size)

@[simp] theorem touchedEnd_zero (offset : Nat) : touchedEnd offset 0 = 0 := if_pos rfl

theorem touchedEnd_of_ne {offset size : Nat} (h : size ≠ 0) :
    touchedEnd offset size = unitSize * units (offset + size) := if_neg h

/-- A range lies before its touched end. -/
theorem add_le_touchedEnd {offset size : Nat} (h : size ≠ 0) :
    offset + size ≤ touchedEnd offset size := by
  rw [touchedEnd_of_ne h]
  simp only [units, unitSize]
  omega

/-- A touched end is a whole number of units. -/
theorem unitSize_mul_units_touchedEnd (offset size : Nat) :
    unitSize * units (touchedEnd offset size) = touchedEnd offset size := by
  by_cases h : size = 0
  · rw [h, touchedEnd_zero]; rfl
  · rw [touchedEnd_of_ne h, units_unitSize_mul]

theorem touchedSize_ok {offset size n : Nat} (h : touchedSize offset size = .ok n) :
    n = touchedEnd offset size := by
  unfold touchedSize at h
  split at h
  · rename_i hz
    cases h
    rw [hz, touchedEnd_zero]
  · rename_i hz
    obtain ⟨stop, hstop, h⟩ := bind_ok h
    rw [touchedEnd_of_ne hz, bounded_ok h, bounded_ok hstop]

/-! ## Prices -/

namespace Gas

/-- The price of a memory of `count` units, in unbounded integers. -/
def idealPrice (count : Nat) : Nat := count * count / 512 + 3 * count

theorem idealPrice_mono {a b : Nat} (h : a ≤ b) : idealPrice a ≤ idealPrice b := by
  have hsquare : a * a / 512 ≤ b * b / 512 := Nat.div_le_div_right (Nat.mul_le_mul h h)
  simp only [idealPrice]
  omega

theorem memoryPrice_ok {size price : Nat} (h : memoryPrice size = .ok price) :
    price = idealPrice (units size) := by
  obtain ⟨square, hsquare, h⟩ := bind_ok h
  obtain ⟨linear, hlinear, h⟩ := bind_ok h
  rw [bounded_ok h, bounded_ok hsquare, bounded_ok hlinear, idealPrice]

/-- **An expansion charges the difference.** What was paid for the old size and what growing
costs are together the price of the new size. -/
theorem expansion_ok {newSize size price : Nat} (h : expansion newSize size = .ok price) :
    price + idealPrice (units size) = idealPrice (units (max size newSize)) := by
  unfold expansion at h
  split at h
  -- nothing is charged where memory is large enough already
  · rename_i hle
    cases h
    rw [Nat.max_eq_left hle, Nat.zero_add]
  · rename_i hlt
    obtain ⟨after, hafter, h⟩ := bind_ok h
    obtain ⟨before, hbefore, h⟩ := bind_ok h
    cases h
    rw [memoryPrice_ok hafter, memoryPrice_ok hbefore, Nat.max_eq_right (by omega)]
    exact Nat.sub_add_cancel (idealPrice_mono (units_mono (by omega)))

/-- Handling bytes is charged on top of the expansion. -/
theorem expansionAndUnits_ok {rate newSize oldSize size price : Nat}
    (h : expansionAndUnits rate newSize oldSize size = .ok price) :
    price + idealPrice (units oldSize) =
      idealPrice (units (max oldSize newSize)) + rate * units size := by
  obtain ⟨handling, hhandling, h⟩ := bind_ok h
  obtain ⟨growth, hgrowth, h⟩ := bind_ok h
  have hsum := expansion_ok hgrowth
  rw [bounded_ok h, bounded_ok hhandling]
  omega

end Gas

/-! ## Growing accesses -/

namespace Memory

variable {m grown : Memory}

/-- A memory takes as many units as its bytes fill. -/
theorem units_size (m : Memory) : units m.size = m.size / 32 := by
  have := m.aligned
  simp only [units, unitSize, size] at *
  omega

theorem size_growTo (m : Memory) (count : Nat) :
    (m.growTo count).size = max m.size (unitSize * count) := by
  unfold growTo size
  split
  · simp only [ByteArray.size_append, Bytes.size_zeros]
    omega
  · omega

theorem size_write (m : Memory) (offset : Nat) (data : Bytes) :
    (m.write offset data).size = m.size := by
  unfold write
  split
  · rename_i hfit
    exact Bytes.size_overwrite hfit
  · rfl

theorem resize_ok {size : Nat} (h : m.resize size = .ok grown) :
    grown.size = max m.size (unitSize * units size) := by
  unfold resize at h
  split at h
  · rename_i hz
    cases h
    subst hz
    exact (Nat.max_eq_left (Nat.zero_le _)).symm
  · obtain ⟨_, _, h⟩ := bind_ok h
    cases h
    exact size_growTo m _

/-- Growing to the end of a range of some bytes. -/
theorem resize_stop_ok {offset size stop : Nat} (hsize : size ≠ 0)
    (hstop : bounded (offset + size) = .ok stop) (h : m.resize stop = .ok grown) :
    grown.size = max m.size (touchedEnd offset size) := by
  rw [resize_ok h, bounded_ok hstop, touchedEnd_of_ne hsize]

theorem load_ok {offset size : Nat} {bytes : Bytes} (h : m.load offset size = .ok (bytes, grown)) :
    grown.size = max m.size (touchedEnd offset size) := by
  unfold load at h
  split at h
  · rename_i hz
    cases h
    rw [hz, touchedEnd_zero, Nat.max_zero]
  · rename_i hz
    obtain ⟨stop, hstop, h⟩ := bind_ok h
    obtain ⟨resized, hresized, h⟩ := bind_ok h
    cases h
    exact resize_stop_ok hz hstop hresized

theorem loadWord_ok {offset : Nat} {w : Word} (h : m.loadWord offset = .ok (w, grown)) :
    grown.size = max m.size (touchedEnd offset 32) := by
  obtain ⟨⟨bytes, held⟩, hload, h⟩ := bind_ok h
  cases h
  exact load_ok hload

theorem store_ok {offset : Nat} {data : Bytes} (h : m.store offset data = .ok grown) :
    grown.size = max m.size (touchedEnd offset data.size) := by
  unfold store at h
  split at h
  · rename_i hz
    cases h
    rw [hz, touchedEnd_zero, Nat.max_zero]
  · rename_i hz
    obtain ⟨stop, hstop, h⟩ := bind_ok h
    obtain ⟨resized, hresized, h⟩ := bind_ok h
    cases h
    rw [size_write, resize_stop_ok hz hstop hresized]

theorem storePadded_ok {offset size : Nat} {data : Bytes}
    (h : m.storePadded offset data size = .ok grown) :
    grown.size = max m.size (touchedEnd offset size) := by
  unfold storePadded at h
  split at h
  · rename_i hz
    cases h
    rw [hz, touchedEnd_zero, Nat.max_zero]
  · rename_i hz
    obtain ⟨stop, hstop, h⟩ := bind_ok h
    obtain ⟨resized, hresized, h⟩ := bind_ok h
    cases h
    rw [size_write, resize_stop_ok hz hstop hresized]

end Memory

end Retrace
