import Mathlib.Order.Lattice
/-!
# Computations that may fail

When a computation made of others succeeds: each of its parts does.  It fails where the first of
its parts does.  Two computations whose parts match, match.
-/
namespace LineCalc.Except

variable {ε ε' α β : Type}

/-! ## Success and failure -/

/-- A computation in two steps succeeds just if both steps do. -/
theorem bind_eq_ok_iff {x : Except ε α} {f : α → Except ε β} {b : β} :
    (x >>= f) = .ok b ↔ ∃ a, x = .ok a ∧ f a = .ok b := by
  cases x with
  | error e => simp [bind, Except.bind]
  | ok a => simp [bind, Except.bind]

/-- A computation whose result is changed succeeds just if it does. -/
theorem map_eq_ok_iff {x : Except ε α} {f : α → β} {b : β} :
    x.map f = .ok b ↔ ∃ a, x = .ok a ∧ f a = b := by
  cases x with
  | error e => simp [Except.map]
  | ok a => simp [Except.map]

/-- A computation whose error is changed succeeds just if it does. -/
theorem mapError_eq_ok_iff {x : Except ε α} {f : ε → ε'} {a : α} :
    x.mapError f = .ok a ↔ x = .ok a := by
  cases x with
  | error e => simp [Except.mapError]
  | ok a => simp [Except.mapError]

/-- A computation in two steps fails just if its first step does, or succeeds and the second one
fails. -/
theorem bind_eq_error_iff {x : Except ε α} {f : α → Except ε β} {e : ε} :
    (x >>= f) = .error e ↔ x = .error e ∨ ∃ a, x = .ok a ∧ f a = .error e := by
  cases x with
  | error e => simp [bind, Except.bind]
  | ok a => simp [bind, Except.bind]

/-- A computation whose result is changed fails just if it does. -/
theorem map_eq_error_iff {x : Except ε α} {f : α → β} {e : ε} :
    x.map f = .error e ↔ x = .error e := by
  cases x with
  | error e => simp [Except.map]
  | ok a => simp [Except.map]

/-- A computation whose error is changed fails just if it does. -/
theorem mapError_eq_error_iff {x : Except ε α} {f : ε → ε'} {e : ε'} :
    x.mapError f = .error e ↔ ∃ e', x = .error e' ∧ f e' = e := by
  cases x with
  | error e => simp [Except.mapError]
  | ok a => simp [Except.mapError]

/-- A computation with a value succeeds with it. -/
theorem eq_ok_of_toOption {x : Except ε α} {a : α} (h : x.toOption = some a) : x = .ok a := by
  cases x with
  | error e => cases h
  | ok b => exact congrArg Except.ok (Option.some.inj h)

/-- Changing the error of a computation in two steps changes that of each step. -/
theorem mapError_bind {x : Except ε α} {f : α → Except ε β} {g : ε → ε'} :
    (x >>= f).mapError g = x.mapError g >>= fun a => (f a).mapError g := by
  cases x with
  | error e => rfl
  | ok a => rfl

/-! ## Computations that match -/

/-- Both computations fail, with errors that match, or both succeed, with values that match. -/
inductive Matches {ε ε' α α' : Type} (E : ε → ε' → Prop) (R : α → α' → Prop) :
    Except ε α → Except ε' α' → Prop
  | error {e : ε} {e' : ε'} (h : E e e') : Matches E R (.error e) (.error e')
  | ok {a : α} {a' : α'} (h : R a a') : Matches E R (.ok a) (.ok a')

namespace Matches

variable {ε₁ ε₂ α' β' : Type} {E : ε → ε' → Prop} {R : α → α' → Prop} {S : β → β' → Prop}
  {x : Except ε α} {x' : Except ε' α'}

/-- A computation matches itself. -/
theorem refl (x : Except ε α) : Matches (· = ·) (· = ·) x x := by
  cases x with
  | error e => exact .error rfl
  | ok a => exact .ok rfl

/-- Computations whose values match in one way match in any weaker way. -/
theorem mono (h : Matches E R x x') {R' : α → α' → Prop} (hR : ∀ a a', R a a' → R' a a') :
    Matches E R' x x' := by
  cases h with
  | error h => exact .error h
  | ok h => exact .ok (hR _ _ h)

/-- What matches a failure fails. -/
theorem of_error {e : ε} (h : Matches E R (.error e) x') : ∃ e', x' = .error e' ∧ E e e' := by
  cases h with
  | error h => exact ⟨_, rfl, h⟩

/-- What matches a success succeeds. -/
theorem of_ok {a : α} (h : Matches E R (.ok a) x') : ∃ a', x' = .ok a' ∧ R a a' := by
  cases h with
  | ok h => exact ⟨_, rfl, h⟩

/-- Computations in two steps match if their steps do. -/
theorem bind (h : Matches E R x x') {f : α → Except ε β} {f' : α' → Except ε' β'}
    (hf : ∀ a a', R a a' → Matches E S (f a) (f' a')) : Matches E S (x >>= f) (x' >>= f') := by
  cases h with
  | error h => exact .error h
  | ok h => exact hf _ _ h

/-- Computations whose results are changed match if they do. -/
theorem map (h : Matches E R x x') {f : α → β} {f' : α' → β'}
    (hf : ∀ a a', R a a' → S (f a) (f' a')) : Matches E S (x.map f) (x'.map f') := by
  cases h with
  | error h => exact .error h
  | ok h => exact .ok (hf _ _ h)

/-- Computations whose errors are changed match if they do. -/
theorem mapError (h : Matches E R x x') {F : ε₁ → ε₂ → Prop} {f : ε → ε₁} {f' : ε' → ε₂}
    (hf : ∀ e e', E e e' → F (f e) (f' e')) : Matches F R (x.mapError f) (x'.mapError f') := by
  cases h with
  | error h => exact .error (hf _ _ h)
  | ok h => exact .ok h

end Matches

end LineCalc.Except
