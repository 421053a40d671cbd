import Mathlib.Algebra.Group.Nat.Defs
import Retrace.Proofs.Machine.Growth
/-!
# Retrace — when a check refuses

Extents and prices are computed in 64 bits, step by step, and each step that
leaves the range is out of gas. This file says of each computation for which
arguments that happens. `SettledBy P x` says that `x` goes through where `P`
holds and is out of gas elsewhere; it is kept by carrying on
(`SettledBy.bind`), as long as a check refuses only what the rest could not pay
for either. The bounds come down to two: a touched range is refused when its
end, rounded up to units, is no quantity (`settledBy_touchedSize`), and growing
memory when it would come to `2 ^ 32` units (`settledBy_expansion`), for it is
there that the square of the units leaves the range. Where memory is accessed
the same ends are checked again, with the same answer (`settledBy_load`,
`settledBy_store`, `settledBy_storePadded`).
-/

namespace Retrace

/-- A computation goes through where `P` holds, and is out of gas elsewhere. -/
structure SettledBy {α : Type} (P : Prop) (x : Except Fault α) : Prop where
  goes : P → ∃ a, x = .ok a
  refuses : ¬ P → x = .error .outOfGas

namespace SettledBy

variable {α β : Type} {P Q : Prop} {x : Except Fault α}

theorem of_ok (hP : P) (h : ∃ a, x = .ok a) : SettledBy P x :=
  ⟨fun _ => h, fun hn => absurd hP hn⟩

theorem congr (h : SettledBy Q x) (hPQ : P ↔ Q) : SettledBy P x :=
  ⟨fun hP => h.goes (hPQ.1 hP), fun hP => h.refuses fun hQ => hP (hPQ.2 hQ)⟩

/-- **Checks in a row.** A check that passes whatever the whole is to let through may come first. -/
theorem bind {f : α → Except Fault β} (hx : SettledBy Q x) (hPQ : P → Q)
    (hf : Q → ∀ a, x = .ok a → SettledBy P (f a)) : SettledBy P (x >>= f) := by
  by_cases hQ : Q
  · obtain ⟨a, ha⟩ := hx.goes hQ
    have hrest := hf hQ a ha
    rw [ha]
    exact hrest
  · have hP : ¬ P := fun hP => hQ (hPQ hP)
    refine ⟨fun h => absurd h hP, fun _ => ?_⟩
    rw [hx.refuses hQ]
    rfl

/-- What is settled is out of gas exactly where the condition fails. -/
theorem outOfGas_iff (h : SettledBy P x) : x = .error .outOfGas ↔ ¬ P := by
  refine ⟨fun hx hP => ?_, h.refuses⟩
  obtain ⟨a, ha⟩ := h.goes hP
  rw [hx] at ha
  cases ha

/-- What has gone through was let through. -/
theorem holds {a : α} (h : SettledBy P x) (hx : x = .ok a) : P := by
  refine Classical.byContradiction fun hP => ?_
  rw [h.refuses hP] at hx
  cases hx

/-- What has failed is out of gas. -/
theorem eq_outOfGas {cause : Fault} (h : SettledBy P x) (hx : x = .error cause) :
    cause = .outOfGas := by
  by_cases hP : P
  · obtain ⟨a, ha⟩ := h.goes hP
    rw [hx] at ha
    cases ha
  · rw [h.refuses hP] at hx
    exact (Except.error.inj hx).symm

end SettledBy

/-! ## Extents -/

theorem quantityBound_eq : quantityBound = 2 ^ 64 := by decide

theorem settledBy_bounded (n : Nat) : SettledBy (n < quantityBound) (bounded n) := by
  unfold bounded
  refine ⟨fun h => ⟨n, if_pos h⟩, fun h => if_neg h⟩

theorem settledBy_touchedSize (offset size : Nat) :
    SettledBy (touchedEnd offset size < quantityBound) (touchedSize offset size) := by
  unfold touchedSize
  split
  · rename_i hz
    rw [hz, touchedEnd_zero]
    exact .of_ok (by decide) ⟨0, rfl⟩
  · rename_i hz
    have hle : offset + size ≤ touchedEnd offset size := add_le_touchedEnd hz
    refine .bind (settledBy_bounded _) (fun hend => by omega) fun _ stop hstop => ?_
    rw [bounded_ok hstop, touchedEnd_of_ne hz]
    exact settledBy_bounded _

/-- The operands of a range have to be quantities, unless there is nothing in it. -/
theorem settledBy_rangeOperands (offset size : Word) :
    SettledBy (size ≠ 0 → size.toNat < quantityBound ∧ offset.toNat < quantityBound)
      (rangeOperands offset size) := by
  unfold rangeOperands
  split
  · rename_i hz
    exact .of_ok (fun h => absurd hz h) ⟨_, rfl⟩
  · rename_i hz
    refine .bind (settledBy_bounded _) (fun h => (h hz).1) fun hsize _ _ => ?_
    refine .bind (settledBy_bounded _) (fun h => (h hz).2) fun hoffset _ _ => ?_
    exact .of_ok (fun _ => ⟨hsize, hoffset⟩) ⟨_, rfl⟩

/-! ## Prices -/

namespace Gas

/-- **The price of memory leaves the range where the square of its units does.** -/
theorem settledBy_memoryPrice (size : Nat) :
    SettledBy (units size < 2 ^ 32) (memoryPrice size) := by
  have hbound := quantityBound_eq
  have hsquare : units size * units size < quantityBound ↔ units size < 2 ^ 32 := by
    rw [hbound, show (2 : Nat) ^ 64 = 2 ^ 32 * 2 ^ 32 from by decide]
    exact Nat.mul_self_lt_mul_self_iff
  unfold memoryPrice
  refine .bind (settledBy_bounded _) hsquare.2 fun hfits square hsq => ?_
  have hunits := hsquare.1 hfits
  refine .bind (settledBy_bounded _) (fun _ => by omega) fun _ linear hlin => ?_
  rw [bounded_ok hsq, bounded_ok hlin]
  refine (settledBy_bounded _).congr ⟨fun _ => ?_, fun _ => hunits⟩
  omega

/-- **Growing memory is refused from `2 ^ 32` units on.** -/
theorem settledBy_expansion (newSize size : Nat) :
    SettledBy (newSize ≤ size ∨ units newSize < 2 ^ 32) (expansion newSize size) := by
  unfold expansion
  split
  · rename_i hle
    exact .of_ok (.inl hle) ⟨0, rfl⟩
  · rename_i hgrows
    have hunits : units size ≤ units newSize := units_mono (by omega)
    refine .bind (settledBy_memoryPrice newSize) (fun h => h.resolve_left hgrows)
      fun hafter _ _ => ?_
    refine .bind (settledBy_memoryPrice size) (fun _ => by omega) fun _ _ _ => ?_
    exact .of_ok (.inr hafter) ⟨_, rfl⟩

/-- An expansion that is not refused costs little against the range. -/
theorem expansion_le {newSize size price : Nat} (h : expansion newSize size = .ok price)
    (hfits : newSize ≤ size ∨ units newSize < 2 ^ 32) : price ≤ 2 ^ 56 := by
  have hsum := expansion_ok h
  rcases hfits with hle | hunits
  · rw [Nat.max_eq_left hle] at hsum
    omega
  · rcases Nat.le_total newSize size with hle | hge
    · rw [Nat.max_eq_left hle] at hsum
      omega
    · have hprice : idealPrice (units newSize) ≤ idealPrice (2 ^ 32) :=
        idealPrice_mono (Nat.le_of_lt hunits)
      have htop : idealPrice (2 ^ 32) ≤ 2 ^ 56 := by decide
      rw [Nat.max_eq_right hge] at hsum
      omega

/-- **Handling bytes is never refused by itself.** The number of bytes being a quantity, what they
cost at the rates there are cannot bring the price out of the range. -/
theorem settledBy_expansionAndUnits {rate size : Nat} (hrate : rate ≤ 6)
    (hsize : size < quantityBound) (newSize oldSize : Nat) :
    SettledBy (newSize ≤ oldSize ∨ units newSize < 2 ^ 32)
      (expansionAndUnits rate newSize oldSize size) := by
  have hbound := quantityBound_eq
  have hunits : units size ≤ 2 ^ 59 := by
    simp only [units, unitSize]
    omega
  have hhandling : rate * units size ≤ 6 * 2 ^ 59 := Nat.mul_le_mul hrate hunits
  unfold expansionAndUnits
  refine .bind (settledBy_bounded _) (fun _ => by omega) fun _ handling hhandled => ?_
  refine .bind (settledBy_expansion _ _) id fun hfits growth hgrowth => ?_
  have hgrown := expansion_le hgrowth hfits
  rw [bounded_ok hhandled]
  exact .of_ok hfits ((settledBy_bounded _).goes (by omega))

end Gas

/-! ## Accesses -/

namespace Memory

theorem settledBy_resize (m : Memory) (size : Nat) :
    SettledBy (unitSize * units size < quantityBound) (m.resize size) := by
  unfold resize
  split
  · rename_i hz
    rw [hz]
    exact .of_ok (by decide) ⟨m, rfl⟩
  · refine .bind (settledBy_bounded _) id fun hfits _ _ => ?_
    exact .of_ok hfits ⟨_, rfl⟩

/-- Growing to hold a range of some bytes, and then doing what cannot fail. -/
theorem settledBy_reach {α : Type} (m : Memory) {offset size : Nat} (hsize : size ≠ 0)
    (f : Nat → Memory → α) :
    SettledBy (touchedEnd offset size < quantityBound)
      (do let stop ← bounded (offset + size)
          let grown ← m.resize stop
          .ok (f stop grown)) := by
  have hle : offset + size ≤ touchedEnd offset size := add_le_touchedEnd hsize
  refine .bind (settledBy_bounded _) (fun hend => by omega) fun _ stop hstop => ?_
  rw [bounded_ok hstop, touchedEnd_of_ne hsize]
  refine .bind (m.settledBy_resize _) id fun hend _ _ => ?_
  exact .of_ok hend ⟨_, rfl⟩

theorem settledBy_load (m : Memory) (offset size : Nat) :
    SettledBy (touchedEnd offset size < quantityBound) (m.load offset size) := by
  unfold load
  split
  · rename_i hz
    rw [hz, touchedEnd_zero]
    exact .of_ok (by decide) ⟨_, rfl⟩
  · rename_i hz
    exact m.settledBy_reach hz _

theorem settledBy_loadWord (m : Memory) (offset : Nat) :
    SettledBy (touchedEnd offset 32 < quantityBound) (m.loadWord offset) :=
  .bind (m.settledBy_load offset 32) id fun hend _ _ => .of_ok hend ⟨_, rfl⟩

theorem settledBy_store (m : Memory) (offset : Nat) (data : Bytes) :
    SettledBy (touchedEnd offset data.size < quantityBound) (m.store offset data) := by
  unfold store
  split
  · rename_i hz
    rw [hz, touchedEnd_zero]
    exact .of_ok (by decide) ⟨m, rfl⟩
  · rename_i hz
    exact m.settledBy_reach hz _

theorem settledBy_storePadded (m : Memory) (offset : Nat) (data : Bytes) (size : Nat) :
    SettledBy (touchedEnd offset size < quantityBound) (m.storePadded offset data size) := by
  unfold storePadded
  split
  · rename_i hz
    rw [hz, touchedEnd_zero]
    exact .of_ok (by decide) ⟨m, rfl⟩
  · rename_i hz
    exact m.settledBy_reach hz _

end Memory

end Retrace
