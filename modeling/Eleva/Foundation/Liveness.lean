import Mathlib.Order.Nat
import Eleva.Foundation.Machine

/-!
# Foundation - Runs without an end

The states of a machine that goes on forever, and the rules by which something happens in the end.

Main results:

- Definition {lit}`Machine.trace`: the states of an endless run.
- Theorem {lit}`Machine.trace_invariant`: the invariant rule.
- Theorem {lit}`eventually_zero`: a number that never grows, and shrinks again and again, is zero
  in the end.
-/

namespace Eleva
namespace Foundation

/-- The first actions of an endless run. -/
def firstOf {A : Type} (actions : ℕ → A) (n : ℕ) : List A :=
  (List.range n).map actions

namespace Machine

variable {A S O β : Type} (M : Machine A S O) {actions : ℕ → A} {s : S} {n m : ℕ}

/-- The states of an endless run. -/
def trace (actions : ℕ → A) (s : S) : ℕ → S
  | 0 => s
  | n + 1 => (M.step (actions n) (trace actions s n)).2

@[simp]
theorem trace_zero : M.trace actions s 0 = s :=
  rfl

theorem trace_succ (n : ℕ) :
    M.trace actions s (n + 1) = (M.step (actions n) (M.trace actions s n)).2 :=
  rfl

/-- A state of the run is that after its first actions. -/
theorem trace_eq_exec (n : ℕ) : M.trace actions s n = M.exec (firstOf actions n) s := by
  induction n with
  | zero => rfl
  | succ n ih =>
      have hlast : firstOf actions (n + 1) = firstOf actions n ++ [actions n] := by
        unfold firstOf
        rw [List.range_succ, List.map_append, List.map_singleton]
      rw [trace_succ, ih, hlast, exec_append, exec_cons, exec_nil]

/-- What every action preserves holds in every state of a run. -/
theorem trace_invariant {I : S → Prop} (hstep : ∀ a s, I s → I (M.step a s).2) (hs : I s)
    (n : ℕ) : I (M.trace actions s n) := by
  induction n with
  | zero => exact hs
  | succ n ih => exact hstep _ _ ih

/-- What does not change from one state to the next does not change. -/
theorem trace_unchanged {f : S → β} (hnm : n ≤ m)
    (hstep : ∀ j, n ≤ j → j < m → f (M.trace actions s (j + 1)) = f (M.trace actions s j)) :
    f (M.trace actions s m) = f (M.trace actions s n) := by
  induction m with
  | zero =>
      have hn : n = 0 := by omega
      rw [hn]
  | succ m ih =>
      by_cases hn : n = m + 1
      · rw [hn]
      · have hle : n ≤ m := by omega
        rw [hstep m hle (by omega)]
        exact ih hle fun j hj hjm => hstep j hj (by omega)

end Machine

/-- The first time from a given one at which something happens. -/
theorem exists_first {P : ℕ → Prop} {n m : ℕ} (hnm : n ≤ m) (hm : P m) :
    ∃ k, n ≤ k ∧ P k ∧ ∀ j, n ≤ j → j < k → ¬P j := by
  classical
  have hexists : ∃ k, n ≤ k ∧ P k := ⟨m, hnm, hm⟩
  refine ⟨Nat.find hexists, (Nat.find_spec hexists).1, (Nat.find_spec hexists).2, ?_⟩
  intro j hj hfirst hP
  exact Nat.find_min hexists hfirst ⟨hj, hP⟩

/-- What never grows stays below what it was. -/
theorem le_of_never_grows {μ : ℕ → ℕ} {N : ℕ} (hmono : ∀ n, N ≤ n → μ (n + 1) ≤ μ n) {n m : ℕ}
    (hn : N ≤ n) (hnm : n ≤ m) : μ m ≤ μ n := by
  induction m with
  | zero =>
      have hzero : n = 0 := by omega
      rw [hzero]
  | succ m ih =>
      by_cases hlast : n = m + 1
      · rw [hlast]
      · exact Nat.le_trans (hmono m (by omega)) (ih (by omega))

/-- A number that never grows, and shrinks again and again while it is not zero, is zero in the
end. -/
theorem eventually_zero {μ : ℕ → ℕ} {N : ℕ} (hmono : ∀ n, N ≤ n → μ (n + 1) ≤ μ n)
    (hshrinks : ∀ n, N ≤ n → 0 < μ n → ∃ m, n ≤ m ∧ μ (m + 1) < μ m) :
    ∃ n, N ≤ n ∧ ∀ m, n ≤ m → μ m = 0 := by
  have hbelow : ∀ b n, N ≤ n → μ n ≤ b → ∃ k, n ≤ k ∧ μ k = 0 := by
    intro b
    induction b with
    | zero => exact fun n _ hb => ⟨n, Nat.le_refl n, by omega⟩
    | succ b ih =>
        intro n hn hb
        by_cases hzero : μ n = 0
        · exact ⟨n, Nat.le_refl n, hzero⟩
        · rcases hshrinks n hn (by omega) with ⟨m, hnm, hless⟩
          have hle := le_of_never_grows hmono hn hnm
          rcases ih (m + 1) (by omega) (by omega) with ⟨k, hk, hzero'⟩
          exact ⟨k, by omega, hzero'⟩
  rcases hbelow (μ N) N (Nat.le_refl N) (Nat.le_refl _) with ⟨k, hk, hzero⟩
  refine ⟨k, hk, fun m hm => ?_⟩
  have hle := le_of_never_grows hmono hk hm
  omega

end Foundation
end Eleva
