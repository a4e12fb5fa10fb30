import Mathlib.Logic.Function.Iterate
import Mathlib.Data.List.Basic

/-!
# Foundation - Interleaved calls over shared state

A concurrent component is described by what one call does in one atomic step:
the step reads and replaces the shared state and moves the call to its next
phase.  A schedule lists which call moves next, together with the choice the
environment makes for that step, so that a theorem about every schedule is a
theorem about every interleaving of any number of calls.

Main results:

- Theorem {lit}`CallSystem.eachStep_iff`: a property of every step of a run is a
  property of every way to cut the schedule before one step.
- Theorem {lit}`CallSystem.run_induction`: an invariant that every admitted step
  preserves holds after the run.
- Theorem {lit}`CallSystem.prefix_iff_eachStep`: the invariant rule with a condition that is
  exact.
- Theorem {lit}`CallSystem.eachStep_congr`: two step properties that agree under an
  invariant agree along every run.
- Theorem {lit}`CallSystem.run_replicate`: a call that moves alone repeats its own step.
- Theorem {lit}`CallSystem.run_rel`: a reflexive and transitive relation respected
  by every step relates the two ends of the run.
-/

namespace Eleva
namespace Foundation

/-- Calls indexed by {lit}`ι`, moving through phases {lit}`P` over shared state
{lit}`S`.  {lit}`next i a s p` is the atomic step of call {lit}`i` when the
environment chooses {lit}`a`. -/
structure CallSystem (ι A S P : Type) where
  next : ι → A → S → P → S × P

/-- The shared state together with the phase every call has reached. -/
structure Config (ι S P : Type) where
  shared : S
  phase : ι → P

namespace CallSystem

variable {ι A S P : Type} [DecidableEq ι]

/-- One atomic step of the scheduled call; every other call keeps its phase. -/
def step (sys : CallSystem ι A S P) (c : Config ι S P) (l : ι × A) : Config ι S P where
  shared := (sys.next l.1 l.2 c.shared (c.phase l.1)).1
  phase := Function.update c.phase l.1 (sys.next l.1 l.2 c.shared (c.phase l.1)).2

/-- The configuration after a whole schedule. -/
def run (sys : CallSystem ι A S P) : Config ι S P → List (ι × A) → Config ι S P
  | c, [] => c
  | c, l :: ls => run sys (sys.step c l) ls

/-- Every step of the run satisfies {lit}`Q` in the configuration it starts from. -/
def EachStep (sys : CallSystem ι A S P) (Q : Config ι S P → ι × A → Prop) :
    Config ι S P → List (ι × A) → Prop
  | _, [] => True
  | c, l :: ls => Q c l ∧ EachStep sys Q (sys.step c l) ls

instance decidableEachStep (sys : CallSystem ι A S P) (Q : Config ι S P → ι × A → Prop)
    [∀ c l, Decidable (Q c l)] :
    (c : Config ι S P) → (ls : List (ι × A)) → Decidable (sys.EachStep Q c ls)
  | _, [] => isTrue trivial
  | c, l :: ls =>
      have := decidableEachStep sys Q (sys.step c l) ls
      inferInstanceAs (Decidable (Q c l ∧ sys.EachStep Q (sys.step c l) ls))

@[simp]
theorem step_shared (sys : CallSystem ι A S P) (c : Config ι S P) (l : ι × A) :
    (sys.step c l).shared = (sys.next l.1 l.2 c.shared (c.phase l.1)).1 :=
  rfl

@[simp]
theorem step_phase_self (sys : CallSystem ι A S P) (c : Config ι S P) (l : ι × A) :
    (sys.step c l).phase l.1 = (sys.next l.1 l.2 c.shared (c.phase l.1)).2 := by
  simp [step]

theorem step_phase_of_ne (sys : CallSystem ι A S P) (c : Config ι S P) (l : ι × A)
    {j : ι} (hj : j ≠ l.1) : (sys.step c l).phase j = c.phase j := by
  simp [step, Function.update_of_ne hj]

theorem run_append (sys : CallSystem ι A S P) (c : Config ι S P)
    (pre suf : List (ι × A)) :
    sys.run c (pre ++ suf) = sys.run (sys.run c pre) suf := by
  induction pre generalizing c with
  | nil => rfl
  | cons l ls ih => exact ih (sys.step c l)

/-- A property of every step, read off the schedule: cut it anywhere before a
step and look at the configuration reached so far. -/
theorem eachStep_iff (sys : CallSystem ι A S P) (Q : Config ι S P → ι × A → Prop)
    (c : Config ι S P) (ls : List (ι × A)) :
    sys.EachStep Q c ls ↔
      ∀ pre l suf, ls = pre ++ l :: suf → Q (sys.run c pre) l := by
  induction ls generalizing c with
  | nil =>
      constructor
      · intro _ pre l suf hsplit
        simp at hsplit
      · intro _
        trivial
  | cons head tail ih =>
      constructor
      · rintro ⟨hhead, htail⟩ pre l suf hsplit
        cases pre with
        | nil =>
            cases hsplit
            exact hhead
        | cons p ps =>
            cases hsplit
            exact (ih (sys.step c head)).mp htail ps l suf rfl
      · intro hall
        refine ⟨hall [] head tail rfl, (ih (sys.step c head)).mpr ?_⟩
        intro pre l suf hsplit
        exact hall (head :: pre) l suf (by rw [hsplit]; rfl)

/-- Invariant rule: what holds at the start and survives every step that meets
{lit}`Q` holds after a run whose steps all meet {lit}`Q`. -/
theorem run_induction (sys : CallSystem ι A S P) {I : Config ι S P → Prop}
    {Q : Config ι S P → ι × A → Prop}
    (hstep : ∀ c l, I c → Q c l → I (sys.step c l))
    {c : Config ι S P} {ls : List (ι × A)}
    (hinit : I c) (hall : sys.EachStep Q c ls) : I (sys.run c ls) := by
  induction ls generalizing c with
  | nil => exact hinit
  | cons l ls ih => exact ih (hstep c l hinit hall.1) hall.2

/-- The invariant rule for a property that every step preserves. -/
theorem run_invariant (sys : CallSystem ι A S P) {I : Config ι S P → Prop}
    (hstep : ∀ c l, I c → I (sys.step c l))
    {c : Config ι S P} (hinit : I c) (ls : List (ι × A)) : I (sys.run c ls) := by
  induction ls generalizing c with
  | nil => exact hinit
  | cons l ls ih => exact ih (hstep c l hinit)

/-- Where, under {lit}`P`, a step leaves {lit}`P` exactly when it meets {lit}`Q`, the property
holds in every configuration of a run exactly when every step meets {lit}`Q`. -/
theorem prefix_iff_eachStep (sys : CallSystem ι A S P) {I : Config ι S P → Prop}
    {Q : Config ι S P → ι × A → Prop} (hstep : ∀ c l, I c → (I (sys.step c l) ↔ Q c l))
    {c : Config ι S P} (hinit : I c) (ls : List (ι × A)) :
    (∀ pre, pre <+: ls → I (sys.run c pre)) ↔ sys.EachStep Q c ls := by
  induction ls generalizing c with
  | nil =>
      refine ⟨fun _ => trivial, fun _ pre hpre => ?_⟩
      rw [List.prefix_nil.mp hpre]
      exact hinit
  | cons l ls ih =>
      constructor
      · intro h
        have hnext := h [l] ⟨ls, rfl⟩
        refine ⟨(hstep c l hinit).mp hnext, (ih hnext).mp fun pre hpre => ?_⟩
        exact h (l :: pre) ((List.prefix_cons_inj l).mpr hpre)
      · rintro ⟨hnow, hrest⟩ pre hpre
        cases pre with
        | nil => exact hinit
        | cons p ps =>
            rcases List.cons_prefix_cons.mp hpre with ⟨rfl, htail⟩
            exact (ih ((hstep c p hinit).mpr hnow)).mpr hrest ps htail

/-- Step properties that agree wherever an invariant holds agree along runs. -/
theorem eachStep_congr (sys : CallSystem ι A S P) {I : Config ι S P → Prop}
    {Q R : Config ι S P → ι × A → Prop}
    (hstep : ∀ c l, I c → I (sys.step c l))
    (hiff : ∀ c l, I c → (Q c l ↔ R c l))
    {c : Config ι S P} (hinit : I c) (ls : List (ι × A)) :
    sys.EachStep Q c ls ↔ sys.EachStep R c ls := by
  induction ls generalizing c with
  | nil => exact Iff.rfl
  | cons l ls ih => exact and_congr (hiff c l hinit) (ih (hstep c l hinit))

/-- A step property that implies another implies it along runs. -/
theorem EachStep.mono {sys : CallSystem ι A S P} {Q R : Config ι S P → ι × A → Prop}
    (himp : ∀ c l, Q c l → R c l) {c : Config ι S P} {ls : List (ι × A)}
    (h : sys.EachStep Q c ls) : sys.EachStep R c ls := by
  induction ls generalizing c with
  | nil => trivial
  | cons l ls ih => exact ⟨himp c l h.1, ih h.2⟩

/-- What an invariant and a step property give of each step, they give along runs. -/
theorem EachStep.of_invariant {sys : CallSystem ι A S P} {I : Config ι S P → Prop}
    {Q R : Config ι S P → ι × A → Prop}
    (hstep : ∀ c l, I c → Q c l → I (sys.step c l))
    (himp : ∀ c l, I c → Q c l → R c l)
    {c : Config ι S P} {ls : List (ι × A)}
    (hinit : I c) (h : sys.EachStep Q c ls) : sys.EachStep R c ls := by
  induction ls generalizing c with
  | nil => trivial
  | cons l ls ih => exact ⟨himp c l hinit h.1, ih (hstep c l hinit h.1) h.2⟩

/-- A preorder on the shared state that every step respects relates the start of
a run to its end. -/
theorem run_rel (sys : CallSystem ι A S P) {Rel : S → S → Prop}
    (hrefl : ∀ s, Rel s s)
    (htrans : ∀ s t u, Rel s t → Rel t u → Rel s u)
    {c : Config ι S P} {ls : List (ι × A)}
    (hall : sys.EachStep (fun c l => Rel c.shared (sys.step c l).shared) c ls) :
    Rel c.shared (sys.run c ls).shared := by
  induction ls generalizing c with
  | nil => exact hrefl _
  | cons l ls ih => exact htrans _ _ _ hall.1 (ih hall.2)

/-- A step property of a whole run holds on every part of the schedule. -/
theorem eachStep_append (sys : CallSystem ι A S P) (Q : Config ι S P → ι × A → Prop)
    (c : Config ι S P) (pre suf : List (ι × A)) :
    sys.EachStep Q c (pre ++ suf) ↔
      sys.EachStep Q c pre ∧ sys.EachStep Q (sys.run c pre) suf := by
  induction pre generalizing c with
  | nil => simp [EachStep, run]
  | cons l ls ih => simp only [List.cons_append, EachStep, run, ih, and_assoc]

/-- A call that moves alone, with the same choice each time, repeats its own step. -/
theorem run_replicate (sys : CallSystem ι A S P) (i : ι) (a : A) (n : ℕ)
    (c : Config ι S P) :
    ((sys.run c (List.replicate n (i, a))).shared,
        (sys.run c (List.replicate n (i, a))).phase i) =
      (fun x : S × P => sys.next i a x.1 x.2)^[n] (c.shared, c.phase i) := by
  induction n generalizing c with
  | zero => rfl
  | succ n ih =>
      have hphase := step_phase_self sys c (i, a)
      have hnext := ih (sys.step c (i, a))
      rw [step_shared, hphase] at hnext
      exact hnext

end CallSystem

end Foundation
end Eleva
