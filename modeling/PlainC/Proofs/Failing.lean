/-
**Computations that fail.**

A computation made of others fails at the first of them that fails, and with its error; it succeeds
where all of them do.

Main definitions:

* `PlainC.failure?` — the error of a computation that fails.

Main results:

* `PlainC.except_bind_eq_ok_iff` — the steps of a computation that succeeds;
* `PlainC.failure?_bind`, `PlainC.failure?_mapM` — where a computation made of two others, or of a
  row of others, fails.
-/

set_option relaxedAutoImplicit false
set_option autoImplicit false

namespace PlainC

variable {ε α β : Type} {x : Except ε α} {e : ε}

/-! ### One after the other -/

theorem ok_bind (a : α) (f : α → Except ε β) : (Except.ok a >>= f) = f a := rfl

theorem error_bind (e : ε) (f : α → Except ε β) : (Except.error e >>= f) = .error e := rfl

theorem except_bind_eq_ok_iff {f : α → Except ε β} {b : β} :
    x >>= f = .ok b ↔ ∃ a, x = .ok a ∧ f a = .ok b := by
  cases x <;> simp [ok_bind, error_bind]

/-! ### Errors -/

/-- The error of a computation that fails. -/
def failure? : Except ε α → Option ε
  | .ok _ => none
  | .error e => some e

theorem failure?_eq_none_iff : failure? x = none ↔ ∃ a, x = .ok a := by
  cases x <;> simp [failure?]

theorem failure?_eq_some_iff : failure? x = some e ↔ x = .error e := by
  cases x <;> simp [failure?]

/-- A computation that goes on behind another one fails there, or later. -/
theorem failure?_bind {f : α → Except ε β} {later : Option ε} (each : ∀ a, failure? (f a) = later) :
    failure? (x >>= f) = (failure? x).or later := by
  cases x with
  | error e => rfl
  | ok a => exact each a

theorem failure?_andPure (f : α → β) : failure? (x >>= fun a => pure (f a)) = failure? x := by
  cases x <;> rfl

theorem failure?_map (f : α → β) : failure? (x.map f) = failure? x := by cases x <;> rfl

/-- A row of computations fails at the first one that fails. -/
theorem failure?_mapM (f : α → Except ε β) (as : List α) :
    failure? (as.mapM f) = as.findSome? fun a => failure? (f a) := by
  induction as with
  | nil => rfl
  | cons a as ih =>
      rw [List.mapM_cons, failure?_bind fun _ => failure?_andPure _, ih, List.findSome?_cons]
      cases failure? (f a) <;> rfl

end PlainC
