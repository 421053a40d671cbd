import Retrace.Proofs.Machine.Accesses
import Retrace.Proofs.Machine.Expansion
/-!
# Retrace — what is priced is what is touched

How far memory has to grow for a range is computed twice: where the growth is
priced, and where memory is accessed. The two agree on every range
(`Memory.leaves_touchedSize`): the price is refused where the access fails, and
otherwise the access leaves memory with the size that was priced, or as large as
it was. So an access to a range that has been paid for grows memory no further
(`State.leaves_of_expandMemory`).
-/

namespace Retrace

/-- The two computations of an end are refused alike and come to the same. -/
theorem map_size_eq_touchedSize {α : Type} {x : Except Fault α} {sizeOf : α → Nat}
    {held offset size : Nat} (hx : SettledBy (touchedEnd offset size < quantityBound) x)
    (hsize : ∀ a, x = .ok a → sizeOf a = max held (touchedEnd offset size)) :
    x.map sizeOf = (touchedSize offset size).map (max held) := by
  have hpriced := settledBy_touchedSize offset size
  by_cases hfits : touchedEnd offset size < quantityBound
  · obtain ⟨a, ha⟩ := hx.goes hfits
    obtain ⟨n, hn⟩ := hpriced.goes hfits
    have hsame : sizeOf a = max held n := by rw [hsize a ha, touchedSize_ok hn]
    rw [ha, hn]
    exact congrArg Except.ok hsame
  · rw [hx.refuses hfits, hpriced.refuses hfits]
    rfl

namespace Memory

variable {m : Memory} {offset size : Nat} {outcome : Except Fault Nat}

/-- What touching `size` bytes at `offset` comes to, in whichever way they are touched: the size
that memory is left with, or why it fails. -/
structure Leaves (m : Memory) (offset size : Nat) (outcome : Except Fault Nat) : Prop where
  load : (m.load offset size).map (fun read => read.2.size) = outcome
  store : ∀ data : Bytes, data.size = size → (m.store offset data).map Memory.size = outcome
  storePadded : ∀ data : Bytes, (m.storePadded offset data size).map Memory.size = outcome

/-- **Touching a range comes to what is priced for it.** -/
theorem leaves_touchedSize (m : Memory) (offset size : Nat) :
    m.Leaves offset size ((touchedSize offset size).map (max m.size)) where
  load := map_size_eq_touchedSize (m.settledBy_load offset size) fun _ h => load_ok h
  store := by
    rintro data rfl
    exact map_size_eq_touchedSize (m.settledBy_store offset data) fun _ h => store_ok h
  storePadded data :=
    map_size_eq_touchedSize (m.settledBy_storePadded offset data size) fun _ h => storePadded_ok h

/-- What has been read is as many bytes as were asked for. -/
theorem size_of_load {read : Bytes × Memory} (h : m.load offset size = .ok read) :
    read.1.size = size := by
  obtain ⟨bytes, grown⟩ := read
  rw [(load_bytes h).1, Bytes.size_ofMap]

/-- To touch no bytes is to do nothing, wherever that is. -/
theorem touch_nothing (m : Memory) (offset : Nat) :
    m.load offset 0 = .ok (ByteArray.empty, m) ∧ m.store offset ByteArray.empty = .ok m ∧
      ∀ data, m.storePadded offset data 0 = .ok m :=
  ⟨if_pos rfl, if_pos rfl, fun _ => if_pos rfl⟩

end Memory

/-- **What has been paid for grows no further.** -/
theorem State.leaves_of_expandMemory {s next : State} {offset size n : Nat}
    (hneeded : touchedSize offset size = .ok n) (h : s.expandMemory n = .ok next) :
    next.memory.size = max s.memory.size n ∧
      next.memory.Leaves offset size (.ok next.memory.size) := by
  have hend := touchedSize_ok hneeded
  rw [hend] at h
  obtain ⟨memory, gas, rfl, hsize, -⟩ := expandMemory_ok h
  rw [← hend] at hsize
  have hleaves := memory.leaves_touchedSize offset size
  have hsame : max memory.size n = memory.size := by omega
  have houtcome : (touchedSize offset size).map (max memory.size) = .ok memory.size := by
    rw [hneeded]
    exact congrArg Except.ok hsame
  rw [houtcome] at hleaves
  exact ⟨hsize, hleaves⟩

/-- **Pricing and touching agree.** The size that is priced for a range is its end rounded up to
units, or nothing for no bytes; it is refused where that is no 64-bit quantity, and nowhere else.
Loading the range, storing as many bytes there, and storing bytes cut or continued to that size are
refused in the same cases, for the same cause, and otherwise leave memory with the size that was
priced, or as large as it was; a load gives all of the bytes asked for. No bytes are touched without
a trace, wherever that is. And once memory has been paid for and has grown, none of them grows it
any further. -/
theorem pricing_agrees_with_touching (m : Memory) (offset size : Nat) :
    let needed := touchedSize offset size
    (needed = .error .outOfGas ↔ size ≠ 0 ∧ 2 ^ 64 ≤ 32 * ((offset + size + 31) / 32)) ∧
    (∀ n, needed = .ok n → n = if size = 0 then 0 else 32 * ((offset + size + 31) / 32)) ∧
    m.Leaves offset size (needed.map (max m.size)) ∧
    (∀ read, m.load offset size = .ok read → read.1.size = size) ∧
    (size = 0 → needed = .ok 0 ∧ m.load offset 0 = .ok (ByteArray.empty, m) ∧
      m.store offset ByteArray.empty = .ok m ∧ ∀ data, m.storePadded offset data 0 = .ok m) ∧
    ∀ (s next : State) (n : Nat), s.memory = m → needed = .ok n → s.expandMemory n = .ok next →
      next.memory.size = max m.size n ∧
        next.memory.Leaves offset size (.ok next.memory.size) := by
  intro needed
  refine ⟨?_, fun n hn => touchedSize_ok hn, m.leaves_touchedSize offset size,
    fun read => Memory.size_of_load, fun hzero => ⟨if_pos hzero, m.touch_nothing offset⟩, ?_⟩
  · have hrefused := (settledBy_touchedSize offset size).outOfGas_iff
    rw [not_touchedEnd_lt_iff] at hrefused
    rw [hrefused]
    omega
  · rintro s next n rfl hneeded hexpanded
    exact State.leaves_of_expandMemory hneeded hexpanded

/-- Nine bytes across the end of a unit are priced as two units, and touching them leaves that many,
also once they have been paid for. The last byte of the last unit but one of the address space is
within reach, and the one behind it, though it has an address, is not. -/
theorem pricing_agrees_with_touching_of_edges :
    let m : Memory := Memory.empty
    let s : State := State.initial .blank
    touchedSize 30 9 = .ok 64 ∧
      (m.storePadded 30 (.ofList [1, 2]) 9).map Memory.size = .ok 64 ∧
      (∃ next, s.expandMemory 64 = .ok next ∧ next.memory.size = 64 ∧
        (next.memory.load 30 9).map (fun read => read.2.size) = .ok 64) ∧
      touchedSize (2 ^ 64 - 33) 1 ≠ .error .outOfGas ∧
      touchedSize (2 ^ 64 - 32) 1 = .error .outOfGas ∧
      (m.load (2 ^ 64 - 32) 1).map (fun read => read.2.size) = .error .outOfGas := by
  intro m s
  obtain ⟨-, -, hleaves, -, -, hpaid⟩ := pricing_agrees_with_touching m 30 9
  obtain ⟨hnear, -⟩ := pricing_agrees_with_touching m (2 ^ 64 - 33) 1
  obtain ⟨hfar, -, hbeyond, -⟩ := pricing_agrees_with_touching m (2 ^ 64 - 32) 1
  have hneeded : touchedSize 30 9 = .ok 64 := by decide
  have hrefused : touchedSize (2 ^ 64 - 32) 1 = .error .outOfGas := hfar.2 (by decide)
  rw [hneeded] at hleaves
  rw [hrefused] at hbeyond
  have hcost : Gas.expansion 64 s.memory.size = .ok 6 := by decide
  obtain ⟨_, -, hnext⟩ := State.expandMemory_of_priced (by decide) hcost (by decide)
  obtain ⟨hsize, hafter⟩ := hpaid s _ 64 rfl hneeded hnext
  rw [hsize] at hafter
  exact ⟨hneeded, hleaves.storePadded (.ofList [1, 2]), ⟨_, hnext, hsize, hafter.load⟩,
    fun h => absurd (hnear.1 h) (by decide), hrefused, hbeyond.load⟩

end Retrace
