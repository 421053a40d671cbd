import Retrace.Machine.Table
/-!
# Retrace — the built-in tables and what becomes of them

A machine starts with one of two tables (`Table.IsBuiltIn`), of standard
entries throughout. Entries can be removed and fees changed, and each entry
still carries out its own instruction and halts as that instruction does
(`Table.Standard`). Where entries are put in that carry out something else, what
is left is that none of them halts on a fault (`Table.HaltsCleanly`).
-/

namespace Retrace

namespace Table

variable {t : Table}

/-- Every entry is the standard one of its instruction, but for the fee: what the built-in tables
become when entries are removed and fees are changed. -/
def Standard (t : Table) : Prop :=
  ∀ op entry, t.entry? op = some entry → ∃ fee, entry = { Entry.standard op with fee }

/-- No standard entry halts on a fault. -/
theorem Standard.isFault_halts {op : Opcode} {entry : Entry} (h : t.Standard)
    (hknown : t.entry? op = some entry) : entry.halts.any Halt.isFault = false := by
  obtain ⟨fee, rfl⟩ := h op entry hknown
  cases op <;> rfl

/-- Setting or removing an entry, if what is set is standard. -/
theorem Standard.update {op : Opcode} {value : Option Entry} (h : t.Standard)
    (hentry : ∀ entry, value = some entry → ∃ fee, entry = { Entry.standard op with fee }) :
    (t.update op value).Standard := by
  intro other entry hother
  simp only [Table.update] at hother
  split at hother
  · rename_i heq
    rw [heq]
    exact hentry entry hother
  · exact h other entry hother

/-- Removing an entry. -/
theorem Standard.erase (h : t.Standard) (byte : UInt8) : (t.erase byte).Standard := by
  unfold Table.erase
  split
  · exact h.update nofun
  · exact h

/-- Changing a fee. -/
theorem Standard.reprice {op : Opcode} {entry : Entry} (h : t.Standard)
    (hknown : t.entry? op = some entry) (fee : Nat) :
    (t.insert op { entry with fee }).Standard := by
  obtain ⟨before, rfl⟩ := h op entry hknown
  refine h.update fun other hother => ?_
  exact ⟨fee, (Option.some.inj hother).symm⟩

/-! ### Clean halts -/

/-- No entry halts on a fault, whatever it carries out: only what fails ends on one. -/
def HaltsCleanly (t : Table) : Prop :=
  ∀ op entry, t.entry? op = some entry → entry.halts.any Halt.isFault = false

theorem Standard.haltsCleanly (h : t.Standard) : t.HaltsCleanly :=
  fun _ _ hknown => h.isFault_halts hknown

theorem HaltsCleanly.halts_ne {op : Opcode} {entry : Entry} (h : t.HaltsCleanly)
    (hknown : t.entry? op = some entry) (cause : Fault) : entry.halts ≠ some (.fault cause) := by
  intro hhalts
  have hclean := h op entry hknown
  rw [hhalts] at hclean
  cases hclean

theorem HaltsCleanly.insert (h : t.HaltsCleanly) (op : Opcode) {entry : Entry}
    (hentry : entry.halts.any Halt.isFault = false) : (t.insert op entry).HaltsCleanly := by
  intro other known hother
  simp only [Table.insert, Table.update] at hother
  split at hother
  · cases hother
    exact hentry
  · exact h other known hother

/-! ### Entries of their own -/

/-- What a standard entry carries out is its own instruction. -/
theorem Standard.action_eq {op : Opcode} {entry : Entry} (h : t.Standard)
    (hknown : t.entry? op = some entry) : entry.action = op := by
  obtain ⟨fee, rfl⟩ := h op entry hknown
  rfl

/-- And it halts as that does. -/
theorem Standard.halts_eq {op : Opcode} {entry : Entry} (h : t.Standard)
    (hknown : t.entry? op = some entry) : entry.halts = (Entry.standard op).halts := by
  obtain ⟨fee, rfl⟩ := h op entry hknown
  rfl

/-! ## Built-in tables -/

/-- The tables that come with the machine: without subroutines and with them. -/
def IsBuiltIn (t : Table) : Prop := t = reference ∨ t = withSubroutines

/-- An entry of a built-in table is the standard one. -/
theorem IsBuiltIn.entry_eq {op : Opcode} {entry : Entry} (h : t.IsBuiltIn)
    (hknown : t.entry? op = some entry) : entry = Entry.standard op := by
  rcases h with rfl | rfl
  · simp only [reference] at hknown
    split at hknown
    · cases hknown
    · exact (Option.some.inj hknown).symm
  · exact (Option.some.inj hknown).symm

theorem IsBuiltIn.standard (h : t.IsBuiltIn) : t.Standard :=
  fun _ _ hknown => ⟨_, h.entry_eq hknown⟩

/-- Subroutines apart, every built-in table knows every instruction. -/
theorem IsBuiltIn.entry?_eq {op : Opcode} (h : t.IsBuiltIn) (hop : isSubroutineOp op = false) :
    t.entry? op = some (Entry.standard op) := by
  rcases h with rfl | rfl
  · simp only [reference, hop]
    rfl
  · rfl

/-- Every built-in table knows how to stop. -/
theorem IsBuiltIn.entry?_stop (h : t.IsBuiltIn) :
    t.entry? .stop = some (Entry.standard .stop) :=
  h.entry?_eq rfl

end Table

end Retrace
