/-!
# Computations in stages

A computation that may fail is put together from stages.  A later stage starts
from what an earlier one gave, or does not start at all; a result may be
wrapped, and so may a cause of failure.  Seen from its end, a computation that
succeeded did so in each stage, and one that failed did so in one of them.

* `bind_eq_error_iff` — two stages, one after the other;
* `map_eq_ok_iff`, `map_eq_error_iff` — a result that is wrapped;
* `mapError_eq_error_iff`, `mapError_bind` — a cause that is wrapped.
-/

namespace Except

variable {ε ε' α β : Type}

/-- Two stages fail if the first does, or if the second does on what the first gave. -/
theorem bind_eq_error_iff {x : Except ε α} {f : α → Except ε β} {cause : ε} :
    x >>= f = .error cause ↔ x = .error cause ∨ ∃ a, x = .ok a ∧ f a = .error cause := by
  cases x <;> simp [bind, Except.bind]

theorem map_eq_ok_iff {x : Except ε α} {f : α → β} {b : β} :
    x.map f = .ok b ↔ ∃ a, x = .ok a ∧ f a = b := by
  cases x <;> simp [Except.map]

/-- Wrapping a result does not touch a failure. -/
theorem map_eq_error_iff {x : Except ε α} {f : α → β} {cause : ε} :
    x.map f = .error cause ↔ x = .error cause := by
  cases x <;> simp [Except.map]

theorem mapError_eq_error_iff {x : Except ε α} {f : ε → ε'} {cause : ε'} :
    x.mapError f = .error cause ↔ ∃ inner, x = .error inner ∧ f inner = cause := by
  cases x with
  | error inner =>
      change (error (f inner) : Except ε' α) = error cause ↔ _
      simp
  | ok a =>
      change (ok a : Except ε' α) = error cause ↔ _
      simp

/-- Wrapping the causes of two stages is wrapping the causes of each. -/
theorem mapError_bind {x : Except ε α} {f : α → Except ε β} {wrap : ε → ε'} :
    (x >>= f).mapError wrap = x.mapError wrap >>= fun a => (f a).mapError wrap := by
  cases x <;> rfl

/-- Causes that are left as they are. -/
@[simp] theorem mapError_id (x : Except ε α) : x.mapError id = x := by
  cases x <;> rfl

end Except
