/-!
# Retrace — breakpoints

A set of code offsets at which a continued run stops. The offsets are kept in
ascending order without repetition, so that equal sets are equal values.
-/

namespace Retrace

/-- A set of code offsets. -/
structure Breakpoints where
  /-- The offsets, ascending. -/
  offsets : List Nat
  /-- The offsets ascend. -/
  ascending : offsets.Pairwise (· < ·)
  deriving DecidableEq

namespace Breakpoints

/-- Put an offset into an ascending list. -/
def insertAscending (pc : Nat) : List Nat → List Nat
  | [] => [pc]
  | first :: rest =>
    if pc < first then pc :: first :: rest
    else if pc = first then first :: rest
    else first :: insertAscending pc rest

theorem mem_insertAscending {pc other : Nat} {offsets : List Nat} :
    other ∈ insertAscending pc offsets ↔ other = pc ∨ other ∈ offsets := by
  induction offsets with
  | nil => simp [insertAscending]
  | cons first rest ih =>
    simp only [insertAscending]
    split
    · simp
    · split
      · simp_all
      · simp only [List.mem_cons, ih]
        exact ⟨fun h => h.elim (.inr ∘ .inl) (Or.imp_right .inr),
          fun h => h.elim (.inr ∘ .inl) (Or.imp_right .inr)⟩

theorem pairwise_insertAscending {pc : Nat} {offsets : List Nat} (h : offsets.Pairwise (· < ·)) :
    (insertAscending pc offsets).Pairwise (· < ·) := by
  induction offsets with
  | nil => simp [insertAscending]
  | cons first rest ih =>
    have hfirst := (List.pairwise_cons.1 h).1
    have hrest := (List.pairwise_cons.1 h).2
    simp only [insertAscending]
    split
    · rename_i hlt
      refine List.pairwise_cons.2 ⟨fun other hother => ?_, h⟩
      rcases List.mem_cons.1 hother with rfl | hother
      · exact hlt
      · exact Nat.lt_trans hlt (hfirst other hother)
    · split
      · exact h
      · refine List.pairwise_cons.2 ⟨fun other hother => ?_, ih hrest⟩
        rcases mem_insertAscending.1 hother with rfl | hother
        · omega
        · exact hfirst other hother

/-- The empty set. -/
def empty : Breakpoints := ⟨[], List.Pairwise.nil⟩

variable (b : Breakpoints)

/-- Whether an offset has a breakpoint. -/
def contains (pc : Nat) : Bool := b.offsets.contains pc

/-- The number of breakpoints. -/
def size : Nat := b.offsets.length

/-- The set with an offset added. -/
def insert (pc : Nat) : Breakpoints :=
  ⟨insertAscending pc b.offsets, pairwise_insertAscending b.ascending⟩

/-- The set without an offset. -/
def erase (pc : Nat) : Breakpoints := ⟨b.offsets.filter (· != pc), b.ascending.filter _⟩

/-- The set of the given offsets. -/
def ofList (offsets : List Nat) : Breakpoints := offsets.foldl insert empty

end Breakpoints

end Retrace
