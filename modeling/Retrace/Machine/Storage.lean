import Retrace.Text.Digits
import Retrace.Word
/-!
# Retrace — storage

Storage maps words to words and reads as zero where nothing was written. It is
kept canonical: slots ascend by key and none holds zero, so that two storages
are equal exactly when they read alike. Slots whose value contains the marker
`deadbeaf` in hexadecimal are bookkeeping and are hidden from view.
-/

namespace Retrace

/-- A key with its value. -/
abbrev Slot := Word × Word

/-- Slots in ascending order of their keys. -/
def Ascending (slots : List Slot) : Prop := slots.Pairwise fun a b => a.1 < b.1

/-- The slots with one more, or with its value replaced. -/
def insertSlot (key value : Word) : List Slot → List Slot
  | [] => [(key, value)]
  | slot :: rest =>
    if key < slot.1 then (key, value) :: slot :: rest
    else if key = slot.1 then (key, value) :: rest
    else slot :: insertSlot key value rest

/-- A slot after an insertion is the new one or an old one. -/
theorem mem_of_mem_insertSlot {key value : Word} {slots : List Slot} {slot : Slot}
    (h : slot ∈ insertSlot key value slots) : slot = (key, value) ∨ slot ∈ slots := by
  induction slots with
  | nil => simpa [insertSlot] using h
  | cons first rest ih =>
    simp only [insertSlot] at h
    split at h
    · simpa using h
    · split at h
      · simp only [List.mem_cons] at h ⊢
        rcases h with h | h
        · exact .inl h
        · exact .inr (.inr h)
      · simp only [List.mem_cons] at h ⊢
        rcases h with h | h
        · exact .inr (.inl h)
        · exact (ih h).imp_right .inr

/-- **Insertion keeps the order.** -/
theorem Ascending.insertSlot {slots : List Slot} (h : Ascending slots) (key value : Word) :
    Ascending (insertSlot key value slots) := by
  induction slots with
  | nil => exact List.pairwise_singleton _ _
  | cons first rest ih =>
    have hrest := (List.pairwise_cons.1 h).2
    have hfirst := (List.pairwise_cons.1 h).1
    simp only [Retrace.insertSlot]
    split
    · rename_i hlt
      refine List.pairwise_cons.2 ⟨fun slot hslot => ?_, h⟩
      rcases List.mem_cons.1 hslot with rfl | hslot
      · exact hlt
      · exact BitVec.lt_trans hlt (hfirst slot hslot)
    · split
      · rename_i heq
        exact List.pairwise_cons.2 ⟨fun slot hslot => heq ▸ hfirst slot hslot, hrest⟩
      · rename_i hge hne
        refine List.pairwise_cons.2 ⟨fun slot hslot => ?_, ih hrest⟩
        rcases mem_of_mem_insertSlot hslot with rfl | hslot
        · show first.1 < key
          have hle := BitVec.not_lt.1 hge
          rw [BitVec.lt_def]
          rw [BitVec.le_def] at hle
          have : key.toNat ≠ first.1.toNat := fun he => hne (BitVec.eq_of_toNat_eq he)
          omega
        · exact hfirst slot hslot

/-- A map from words to words that reads as zero where nothing was written. -/
structure Storage where
  /-- The slots that do not read as zero. -/
  slots : List Slot
  /-- The slots ascend by key. -/
  ascending : Ascending slots
  /-- No slot holds zero. -/
  nonZero : ∀ slot ∈ slots, slot.2 ≠ 0
  deriving DecidableEq

namespace Storage

/-- The storage in which nothing was written. -/
def empty : Storage := ⟨[], List.Pairwise.nil, fun _ h => absurd h (List.not_mem_nil)⟩

variable (s : Storage)

/-- The value under a key. -/
def get (key : Word) : Word := ((s.slots.find? fun slot => slot.1 == key).map (·.2)).getD 0

/-- The storage with a value written under a key; writing zero clears the slot. -/
def set (key value : Word) : Storage :=
  if h : value = 0 then
    ⟨s.slots.filter fun slot => slot.1 != key, s.ascending.filter _,
      fun slot hslot => s.nonZero slot (List.mem_filter.1 hslot).1⟩
  else
    ⟨insertSlot key value s.slots, s.ascending.insertSlot key value, fun slot hslot => by
      rcases mem_of_mem_insertSlot hslot with rfl | hslot
      · exact h
      · exact s.nonZero slot hslot⟩

/-- The number of slots. -/
def size : Nat := s.slots.length

/-- The digits that mark a value as bookkeeping. -/
def marker : List Char := "deadbeaf".toList

instance (digits : List Char) : Decidable (marker <:+: digits) :=
  List.instDecidableIsInfixOfDecidableEq marker digits

/-- Whether a value carries the marker in its hexadecimal form. -/
def isMarked (value : Word) : Bool := decide (marker <:+: Nat.toDigits 16 value.toNat)

/-- The slots that are shown, ascending by key. -/
def visible : List Slot := s.slots.filter fun slot => !isMarked slot.2

end Storage

end Retrace
