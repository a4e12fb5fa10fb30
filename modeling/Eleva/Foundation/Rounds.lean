import Mathlib.Order.Nat

/-!
# Foundation - Objects that come and go in rounds

In every round objects arrive, and after that objects leave.  An object is there when its last
arrival has not been followed by a departure.

Main results:

- Theorem {lit}`Rounds.present_iff`: which objects are there after a number of rounds.
- Theorem {lit}`recorded_iff`: what a record holds that is only added to.
-/

namespace Eleva
namespace Foundation

variable {κ : Type}

/-- Rounds are counted from one; before them the objects of {lit}`present 0` are there. -/
structure Rounds (κ : Type) where
  present : ℕ → κ → Prop
  arrives : ℕ → κ → Prop
  leaves : ℕ → κ → Prop
  step : ∀ m k, present (m + 1) k ↔ (present m k ∨ arrives (m + 1) k) ∧ ¬leaves (m + 1) k

namespace Rounds

variable (R : Rounds κ) {m : ℕ} {k : κ}

/-- From a round on, the object does not leave. -/
def Stays (a m : ℕ) (k : κ) : Prop :=
  ∀ j, a ≤ j → j ≤ m → ¬R.leaves j k

theorem stays_succ {a : ℕ} (ha : a ≤ m + 1) :
    R.Stays a (m + 1) k ↔ R.Stays a m k ∧ ¬R.leaves (m + 1) k := by
  constructor
  · intro h
    exact ⟨fun j haj hj => h j haj (by omega), h (m + 1) ha le_rfl⟩
  · rintro ⟨h, hlast⟩ j haj hj
    by_cases hj' : j ≤ m
    · exact h j haj hj'
    · have hjm : j = m + 1 := by omega
      rw [hjm]
      exact hlast

/-- An object is there when it arrived and stayed, or was there before and stayed. -/
theorem present_iff : R.present m k ↔
    (∃ a, 1 ≤ a ∧ a ≤ m ∧ R.arrives a k ∧ R.Stays a m k) ∨
      R.present 0 k ∧ R.Stays 1 m k := by
  induction m with
  | zero =>
      constructor
      · intro h
        exact Or.inr ⟨h, fun j h1 h0 => by omega⟩
      · rintro (⟨a, h1, h0, _⟩ | ⟨h, _⟩)
        · omega
        · exact h
  | succ m ih =>
      rw [R.step, ih]
      constructor
      · rintro ⟨(⟨a, ha1, ham, harr, hstay⟩ | ⟨h0, hstay⟩) | harr, hlast⟩
        · exact Or.inl ⟨a, ha1, by omega, harr, (R.stays_succ (by omega)).mpr ⟨hstay, hlast⟩⟩
        · exact Or.inr ⟨h0, (R.stays_succ (by omega)).mpr ⟨hstay, hlast⟩⟩
        · refine Or.inl ⟨m + 1, by omega, le_rfl, harr, fun j hmj hj => ?_⟩
          have hjm : j = m + 1 := by omega
          rw [hjm]
          exact hlast
      · rintro (⟨a, ha1, ham, harr, hstay⟩ | ⟨h0, hstay⟩)
        · refine ⟨?_, hstay (m + 1) ham le_rfl⟩
          by_cases ham' : a ≤ m
          · exact Or.inl (Or.inl ⟨a, ha1, ham', harr, ((R.stays_succ ham).mp hstay).1⟩)
          · have hlast : a = m + 1 := by omega
            rw [hlast] at harr
            exact Or.inr harr
        · exact ⟨Or.inl (Or.inr ⟨h0, ((R.stays_succ (by omega)).mp hstay).1⟩),
            hstay (m + 1) (by omega) le_rfl⟩

end Rounds

/-- What a record holds that every round adds to. -/
theorem recorded_iff (recorded adds : ℕ → Prop)
    (hstep : ∀ m, recorded (m + 1) ↔ recorded m ∨ adds (m + 1)) (m : ℕ) :
    recorded m ↔ recorded 0 ∨ ∃ j, 1 ≤ j ∧ j ≤ m ∧ adds j := by
  induction m with
  | zero =>
      constructor
      · exact Or.inl
      · rintro (h | ⟨j, h1, h0, _⟩)
        · exact h
        · omega
  | succ m ih =>
      rw [hstep, ih]
      constructor
      · rintro ((h | ⟨j, h1, hj, hadds⟩) | hadds)
        · exact Or.inl h
        · exact Or.inr ⟨j, h1, by omega, hadds⟩
        · exact Or.inr ⟨m + 1, by omega, le_rfl, hadds⟩
      · rintro (h | ⟨j, h1, hj, hadds⟩)
        · exact Or.inl (Or.inl h)
        · by_cases hjm : j ≤ m
          · exact Or.inl (Or.inr ⟨j, h1, hjm, hadds⟩)
          · have hlast : j = m + 1 := by omega
            rw [hlast] at hadds
            exact Or.inr hadds

end Foundation
end Eleva
