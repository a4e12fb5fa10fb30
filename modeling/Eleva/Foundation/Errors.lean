import Eleva.Foundation.Fallible

/-!
# Foundation - Which errors a computation throws

Rules for the errors that a fallible computation can end with, from one state or from all.

Main results:

- Theorems {lit}`ThrowsOnlyAt.bind` and {lit}`ThrowsOnly.bind`: a sequence throws what its parts
  throw.
- Theorem {lit}`ThrowsOnlyAt.ne_error`: an error that is not among them is not thrown.
-/

namespace Eleva
namespace Foundation
namespace Fallible

variable {σ ε α β : Type} {E : ε → Prop}

/-- From a state, all errors of a computation are among {lit}`E`. -/
def ThrowsOnlyAt (E : ε → Prop) (x : Fallible σ ε α) (s : σ) : Prop :=
  ∀ e, (x s).1 = .error e → E e

/-- All errors of a computation are among {lit}`E`. -/
def ThrowsOnly (E : ε → Prop) (x : Fallible σ ε α) : Prop :=
  ∀ s, ThrowsOnlyAt E x s

/-! ## From one state -/

theorem ThrowsOnlyAt.ne_error {x : Fallible σ ε α} {s : σ} (hx : ThrowsOnlyAt E x s) {e : ε}
    (he : ¬E e) : (x s).1 ≠ .error e :=
  fun h => he (hx e h)

theorem ThrowsOnlyAt.of_ok {x : Fallible σ ε α} {s s' : σ} {a : α} (h : x s = (.ok a, s')) :
    ThrowsOnlyAt E x s := by
  intro e he
  rw [h] at he
  cases he

/-- A sequence throws what its parts throw, each from the state that it starts in. -/
theorem ThrowsOnlyAt.bind {x : Fallible σ ε α} {f : α → Fallible σ ε β} {s : σ}
    (hx : ThrowsOnlyAt E x s)
    (hf : ∀ a s', x s = (.ok a, s') → ThrowsOnlyAt E (f a) s') : ThrowsOnlyAt E (x >>= f) s := by
  intro e h
  rcases hrun : x s with ⟨e' | a, s'⟩
  · rw [bind_of_error hrun] at h
    cases h
    exact hx e (by rw [hrun])
  · rw [bind_of_ok hrun] at h
    exact hf a s' hrun e h

theorem ThrowsOnlyAt.transaction {x : Fallible σ ε α} {s : σ} (hx : ThrowsOnlyAt E x s) :
    ThrowsOnlyAt E (transaction x) s := by
  intro e h
  unfold Fallible.transaction at h
  rcases hrun : x s with ⟨e' | a, s'⟩
  · rw [hrun] at h
    cases h
    exact hx e (by rw [hrun])
  · rw [hrun] at h
    cases h

/-! ## From all states -/

theorem ThrowsOnly.pure (a : α) : ThrowsOnly E (pure a : Fallible σ ε α) :=
  fun _ => .of_ok rfl

theorem ThrowsOnly.throw {e : ε} (he : E e) : ThrowsOnly E (throw e : Fallible σ ε α) := by
  rintro s e' ⟨⟩
  exact he

theorem ThrowsOnly.throwIf (c : Bool) {e : ε} (he : E e) :
    ThrowsOnly E (throwIf c e : Fallible σ ε Unit) := by
  intro s e' h
  cases c with
  | false => cases h
  | true =>
      cases h
      exact he

theorem ThrowsOnly.reads_ok (f : σ → α) :
    ThrowsOnly E (reads fun s => .ok (f s) : Fallible σ ε α) :=
  fun _ => .of_ok rfl

/-- A sequence throws what its parts throw. -/
theorem ThrowsOnly.bind {x : Fallible σ ε α} {f : α → Fallible σ ε β} (hx : ThrowsOnly E x)
    (hf : ∀ a, ThrowsOnly E (f a)) : ThrowsOnly E (x >>= f) :=
  fun s => (hx s).bind fun a s' _ => hf a s'

theorem ThrowsOnly.ite {c : Prop} [Decidable c] {x y : Fallible σ ε α} (hx : ThrowsOnly E x)
    (hy : ThrowsOnly E y) : ThrowsOnly E (if c then x else y) := by
  split
  · exact hx
  · exact hy

end Fallible
end Foundation
end Eleva
