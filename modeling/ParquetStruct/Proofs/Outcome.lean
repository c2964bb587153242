/-
# ParquetStruct.Proofs.Outcome — how computations that may fail are taken apart.

A computation in `Except` ends in a value or in an error.  A sequence of two ends in a value exactly
if both do, and in an error if the first does, or the second does after the first did not.  The
error alone, if there is one, is given by `failure?`.
-/
import Mathlib.Logic.Basic

namespace ParquetStruct

variable {ε α β : Type}

/-! ## Sequences -/

@[simp] theorem ok_bind (a : α) (f : α → Except ε β) : (Except.ok a >>= f) = f a := rfl

@[simp] theorem error_bind (e : ε) (f : α → Except ε β) :
    ((Except.error e : Except ε α) >>= f) = .error e := rfl

@[simp] theorem pure_eq_ok (a : α) : (pure a : Except ε α) = .ok a := rfl

theorem bind_eq_ok_iff {x : Except ε α} {f : α → Except ε β} {b : β} :
    (x >>= f) = .ok b ↔ ∃ a, x = .ok a ∧ f a = .ok b := by
  cases x with
  | ok a => simp
  | error e => simp

theorem bind_eq_error_iff {x : Except ε α} {f : α → Except ε β} {e : ε} :
    (x >>= f) = .error e ↔ x = .error e ∨ ∃ a, x = .ok a ∧ f a = .error e := by
  cases x with
  | ok a => simp
  | error e' => simp

/-- A computation that succeeds under a condition goes on under that condition. -/
theorem ite_bind {p : Prop} [Decidable p] {a : α} {e : ε} (f : α → Except ε β) :
    ((if p then .ok a else .error e) >>= f) = if p then f a else .error e := by
  by_cases hp : p
  · rw [if_pos hp, if_pos hp, ok_bind]
  · rw [if_neg hp, if_neg hp, error_bind]

/-! ## Errors in another form -/

variable {ε' : Type}

@[simp] theorem mapError_ok (g : ε → ε') (a : α) : (Except.ok a : Except ε α).mapError g = .ok a :=
  rfl

@[simp] theorem mapError_error (g : ε → ε') (e : ε) :
    (Except.error e : Except ε α).mapError g = .error (g e) := rfl

/-- To put the error of a sequence in another form, put that of each part in this form. -/
theorem mapError_bind (g : ε → ε') (x : Except ε α) (f : α → Except ε β) :
    (x >>= f).mapError g = x.mapError g >>= fun a => (f a).mapError g := by
  cases x with
  | ok a => rfl
  | error e => rfl

/-! ## The error of a computation -/

/-- The error that a computation ends in, if it does not end in a value. -/
def failure? : Except ε α → Option ε
  | .ok _ => none
  | .error e => some e

@[simp] theorem failure?_ok (a : α) : failure? (.ok a : Except ε α) = none := rfl

@[simp] theorem failure?_error (e : ε) : failure? (.error e : Except ε α) = some e := rfl

theorem failure?_eq_some_iff {x : Except ε α} {e : ε} : failure? x = some e ↔ x = .error e := by
  cases x with
  | ok a => simp
  | error e' => simp

theorem failure?_eq_none_iff {x : Except ε α} : failure? x = none ↔ ∃ a, x = .ok a := by
  cases x with
  | ok a => simp
  | error e => simp

/-- A sequence whose second part fails in the same way after every value of the first fails as the
first part does, or else as the second does. -/
theorem failure?_bind {x : Except ε α} {f : α → Except ε β} {o : Option ε}
    (h : ∀ a, x = .ok a → failure? (f a) = o) : failure? (x >>= f) = (failure? x).or o := by
  cases x with
  | ok a => exact h a rfl
  | error e => rfl

/-- What is made of the value of a computation does not change how the computation fails. -/
theorem failure?_bind_ok {x : Except ε α} {g : α → β} :
    failure? (x >>= fun a => .ok (g a)) = failure? x := by
  cases x with
  | ok a => rfl
  | error e => rfl

end ParquetStruct
