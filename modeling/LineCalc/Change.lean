/-!
# Changes of a state

What changes a state may fail, and then too it leaves a state: nothing is taken back that was done
before the failure.

* `Change.on_bind` : two changes, one after the other;
* `Change.on_finally` : a change with another one that is made after it, however it ends;
* `Change.Preserves.bind`, `Change.Preserves.finally` : what both keep is kept.
-/
namespace LineCalc

/-- What is done to a state.  It may fail, and then too it leaves a state. -/
abbrev Change (σ ε α : Type) := ExceptT ε (StateM σ) α

namespace Change

variable {σ ε ε' α β : Type}

/-- The result of a change and the state that it leaves. -/
def on (x : Change σ ε α) (s : σ) : Except ε α × σ := (x.run.run s).run

/-- Looking at the state leaves it as it is. -/
@[simp]
theorem on_get (s : σ) : on (get : Change σ ε σ) s = (.ok s, s) := rfl

/-- So does a result without a write. -/
@[simp]
theorem on_pure (a : α) (s : σ) : on (pure a : Change σ ε α) s = (.ok a, s) := rfl

/-- So does an error. -/
@[simp]
theorem on_throw (e : ε) (s : σ) : on (throw e : Change σ ε α) s = (.error e, s) := rfl

/-- A write leaves what is written. -/
@[simp]
theorem on_modify (f : σ → σ) (s : σ) : on (modify f : Change σ ε PUnit) s = (.ok ⟨⟩, f s) := rfl

/-- What was done when the second of two changes fails stays done. -/
theorem on_bind (x : Change σ ε α) (f : α → Change σ ε β) (s : σ) : (x >>= f).on s =
    match x.on s with
    | (.ok a, s') => (f a).on s'
    | (.error e, s') => (.error e, s') := by
  show (ExceptT.bindCont f (x.on s).1 (x.on s).2) = _
  cases x.on s with
  | mk r s' =>
      cases r with
      | ok a => rfl
      | error e => rfl

/-- Changing the error leaves the same state. -/
theorem on_adapt (x : Change σ ε α) (f : ε → ε') (s : σ) :
    on (x.adapt f) s = ((x.on s).1.mapError f, (x.on s).2) := by
  show ((fun r => (r.mapError f, (x.on s).2)) (x.on s).1) = _
  rfl

/-- A result that is known leaves the state as it is. -/
theorem on_ofExcept (r : Except ε α) (s : σ) :
    on (MonadExcept.ofExcept r : Change σ ε α) s = (r, s) := by
  cases r with
  | ok a => rfl
  | error e => rfl

/-- What is done in the end is done on what was left, whether there was an error or not. -/
theorem on_finally (x : Change σ ε α) (y : Change σ ε β) (s : σ) :
    on (tryFinally x y) s =
      match y.on (x.on s).2 with
      | (.ok _, s') => ((x.on s).1, s')
      | (.error e, s') => (.error e, s') := by
  cases hx : x.on s with
  | mk r s' =>
      cases hy : y.on s' with
      | mk r' s'' =>
          have hx : x s = (r, s') := hx
          have hy : y s' = (r', s'') := hy
          simp only [on, tryFinally, tryFinally', Functor.map, ExceptT.map, ExceptT.mk,
            ExceptT.run, StateT.run, bind, StateT.bind, Id.run, hx]
          cases r with
          | ok a =>
              simp only [hy]
              cases r' <;> rfl
          | error e =>
              simp only [hy]
              cases r' <;> rfl

/-! ## What changes keep -/

/-- The change keeps a property of the state, however it ends. -/
def Preserves (p : σ → Prop) (x : Change σ ε α) : Prop := ∀ s, p s → p (x.on s).2

variable {p : σ → Prop}

/-- So do two such changes, one after the other. -/
theorem Preserves.bind {x : Change σ ε α} (hx : x.Preserves p) {f : α → Change σ ε β}
    (hf : ∀ a, (f a).Preserves p) : Preserves p (x >>= f) := by
  intro s hs
  have hleft := hx s hs
  rw [on_bind]
  cases h : x.on s with
  | mk r s' =>
      rw [h] at hleft
      cases r with
      | ok a => exact hf a s' hleft
      | error e => exact hleft

/-- So do a change and one that is made after it in any case. -/
theorem Preserves.finally {x : Change σ ε α} (hx : x.Preserves p) {y : Change σ ε β}
    (hy : y.Preserves p) : Preserves p (tryFinally x y) := by
  intro s hs
  have hleft := hy _ (hx s hs)
  rw [on_finally]
  cases h : y.on (x.on s).2 with
  | mk r s' =>
      rw [h] at hleft
      cases r with
      | ok b => exact hleft
      | error e => exact hleft

/-- So does a result without a write. -/
theorem preserves_pure (a : α) : Preserves p (pure a : Change σ ε α) := fun _ hs => hs

end Change

end LineCalc
