import Mathlib.Logic.Basic
/-!
# Retrace — results that may be errors

A reader gives a value or says what is wrong. When it gives a value is put
together from when its steps do: a sequence succeeds where both of its steps
do, and to rename a value or an error changes nothing about success.
-/

namespace Retrace

variable {ε ε' α β : Type} {x : Except ε α} {a : α} {b : β}

theorem bind_eq_ok_iff {f : α → Except ε β} :
    (x >>= f) = .ok b ↔ ∃ a, x = .ok a ∧ f a = .ok b := by
  cases x <;> simp [bind, Except.bind]

theorem map_eq_ok_iff {f : α → β} : x.map f = .ok b ↔ ∃ a, x = .ok a ∧ f a = b := by
  cases x <;> simp [Except.map]

theorem mapError_eq_ok_iff {f : ε → ε'} : x.mapError f = .ok a ↔ x = .ok a := by
  cases x with
  | error e =>
    have hfail : (Except.error e : Except ε α).mapError f = .error (f e) := rfl
    simp [hfail]
  | ok value =>
    have hok : (Except.ok value : Except ε α).mapError f = .ok value := rfl
    simp [hok]

end Retrace
