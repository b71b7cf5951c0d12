import Mathlib.Data.List.Basic

/-!
# Results of fallible computations

Sequencing in {lit}`Except` peels apart into the result of the first computation
and the result of the second.

Main results:

- Theorem {lit}`bind_eq_ok_iff`: a sequence succeeds exactly when both of its
  parts do.
- Theorem {lit}`bind_eq_error_iff`: a sequence fails in its first part or, after
  that succeeded, in its second.
- Theorem {lit}`Ends.bind`: what holds after both parts of a sequence, whichever of them
  fails.
-/

namespace Library

variable {ε α β : Type}

/-- A result is handed on. -/
@[simp] theorem ok_bind (a : α) (f : α → Except ε β) : (Except.ok a >>= f) = f a :=
  rfl

/-- An error ends the computation. -/
@[simp] theorem error_bind (e : ε) (f : α → Except ε β) :
    ((Except.error e : Except ε α) >>= f) = .error e :=
  rfl

/-- A sequence succeeds exactly when both of its parts do. -/
theorem bind_eq_ok_iff {x : Except ε α} {f : α → Except ε β} {b : β} :
    (x >>= f) = .ok b ↔ ∃ a, x = .ok a ∧ f a = .ok b := by
  cases x with
  | error e => simp
  | ok a => simp

/-- A sequence fails in its first part or, after that succeeded, in its second. -/
theorem bind_eq_error_iff {x : Except ε α} {f : α → Except ε β} {e : ε} :
    (x >>= f) = .error e ↔ x = .error e ∨ ∃ a, x = .ok a ∧ f a = .error e := by
  cases x with
  | error e' => simp
  | ok a => simp

/-- A result is mapped. -/
@[simp] theorem map_ok (f : α → β) (a : α) : (Except.ok a : Except ε α).map f = .ok (f a) :=
  rfl

/-- An error stays as it is. -/
@[simp] theorem map_error (f : α → β) (e : ε) :
    (Except.error e : Except ε α).map f = .error e :=
  rfl

/-- A mapped result comes from a result. -/
theorem map_eq_ok_iff {x : Except ε α} {f : α → β} {b : β} :
    x.map f = .ok b ↔ ∃ a, x = .ok a ∧ f a = b := by
  cases x with
  | error e => simp
  | ok a => simp

/-- Mapping neither makes nor hides an error. -/
theorem map_eq_error_iff {x : Except ε α} {f : α → β} {e : ε} :
    x.map f = .error e ↔ x = .error e := by
  cases x with
  | error e' => simp
  | ok a => simp

/-! ## Both ends -/

/-- A postcondition of the answer, and one of the error. -/
def Ends (succeeds : α → Prop) (fails : ε → Prop) : Except ε α → Prop
  | .ok a => succeeds a
  | .error e => fails e

variable {succeeds : α → Prop} {fails : ε → Prop} {x : Except ε α}

/-- What is said of a result is said of its value. -/
@[simp] theorem ends_ok_iff {a : α} : Ends succeeds fails (.ok a) ↔ succeeds a :=
  Iff.rfl

/-- What is said of a failure is said of its error. -/
@[simp] theorem ends_error_iff {e : ε} : Ends succeeds fails (.error e : Except ε α) ↔ fails e :=
  Iff.rfl

/-- A sequence ends well if its second part does after every answer of its first. -/
theorem Ends.bind {later : β → Prop} {f : α → Except ε β} (hx : Ends succeeds fails x)
    (hf : ∀ a, succeeds a → Ends later fails (f a)) : Ends later fails (x >>= f) := by
  cases x with
  | error e => exact hx
  | ok a => exact hf a hx

/-- What follows from both outcomes. -/
theorem Ends.imp {later : α → Prop} {worse : ε → Prop} (hx : Ends succeeds fails x)
    (hanswer : ∀ a, succeeds a → later a) (herror : ∀ e, fails e → worse e) :
    Ends later worse x := by
  cases x with
  | error e => exact herror e hx
  | ok a => exact hanswer a hx

/-! ## Forgetting the error -/

/-- Only a result has a value. -/
theorem toOption_eq_some_iff {x : Except ε α} {a : α} : x.toOption = some a ↔ x = .ok a := by
  cases x with
  | error e => simp [Except.toOption]
  | ok b => simp [Except.toOption]

/-- Only an error has none. -/
theorem toOption_eq_none_iff {x : Except ε α} : x.toOption = none ↔ ∃ e, x = .error e := by
  cases x with
  | error e => simp [Except.toOption]
  | ok a => simp [Except.toOption]

/-- Forgetting the errors, computations still compose. -/
theorem toOption_bind (x : Except ε α) (f : α → Except ε β) :
    (x >>= f).toOption = x.toOption.bind fun a => (f a).toOption := by
  cases x with
  | error e => rfl
  | ok a => rfl

end Library
