import Mathlib.Data.List.Basic

/-!
# Foundation - Deterministic machines

A machine answers one action at a time and carries a state between them.  A run
is the list of answers to a list of actions together with the last state.

Main results:

- Theorem {lit}`Machine.run_invariant`: an invariant that every action of the run
  preserves holds after it.
- Theorem {lit}`Machine.eachStep_of_invariant`: the invariant rule under a condition on
  every action, for what each action does.
- Theorem {lit}`Machine.prefix_iff_of_eachStep`: the invariant rule with a condition that is
  exact, along runs whose actions are restricted.
- Theorem {lit}`Machine.run_rel`: a preorder that every action respects relates the
  two ends of a run.
- Theorem {lit}`Machine.unwinding`: states that the actions of a run cannot tell apart give
  the same answers, and stay indistinguishable.
-/

namespace Eleva
namespace Foundation

/-- A machine with actions {lit}`A`, states {lit}`S` and answers {lit}`O`. -/
structure Machine (A S O : Type) where
  step : A → S → O × S

namespace Machine

variable {A S O : Type} (M : Machine A S O)

/-- The answers to a list of actions, and the state after them. -/
def run : List A → S → List O × S
  | [], s => ([], s)
  | a :: as, s =>
      let rest := run as (M.step a s).2
      ((M.step a s).1 :: rest.1, rest.2)

/-- The state after a list of actions. -/
def exec (as : List A) (s : S) : S :=
  (M.run as s).2

@[simp]
theorem exec_nil (s : S) : M.exec [] s = s :=
  rfl

@[simp]
theorem exec_cons (a : A) (as : List A) (s : S) :
    M.exec (a :: as) s = M.exec as (M.step a s).2 :=
  rfl

theorem exec_append (as bs : List A) (s : S) :
    M.exec (as ++ bs) s = M.exec bs (M.exec as s) := by
  induction as generalizing s with
  | nil => rfl
  | cons a as ih => exact ih (M.step a s).2

/-- Invariant rule, for the actions that occur in the run. -/
theorem run_invariant {I : S → Prop} {as : List A}
    (hstep : ∀ a ∈ as, ∀ s, I s → I (M.step a s).2) {s : S} (hs : I s) :
    I (M.exec as s) := by
  induction as generalizing s with
  | nil => exact hs
  | cons a as ih =>
      exact ih (fun b hb => hstep b (List.mem_cons_of_mem a hb))
        (hstep a List.mem_cons_self s hs)

/-- Every action of the run meets {lit}`Q` in the state it starts from. -/
def EachStep (Q : A → S → Prop) : List A → S → Prop
  | [], _ => True
  | a :: as, s => Q a s ∧ EachStep Q as (M.step a s).2

theorem eachStep_append {Q : A → S → Prop} (as bs : List A) (s : S) :
    M.EachStep Q (as ++ bs) s ↔ M.EachStep Q as s ∧ M.EachStep Q bs (M.exec as s) := by
  induction as generalizing s with
  | nil => exact ⟨fun h => ⟨trivial, h⟩, fun h => h.2⟩
  | cons a as ih => exact (and_congr_right fun _ => ih _).trans and_assoc.symm

/-- Invariant rule for a run whose actions all meet {lit}`Q`: what follows from the
invariant and {lit}`Q` for one action holds of every action of the run. -/
theorem eachStep_of_invariant {I : S → Prop} {Q R : A → S → Prop} {as : List A}
    (hstep : ∀ a ∈ as, ∀ s, I s → Q a s → I (M.step a s).2 ∧ R a s) {s : S}
    (hs : I s) (hall : M.EachStep Q as s) : M.EachStep R as s := by
  induction as generalizing s with
  | nil => trivial
  | cons a as ih =>
      rcases hstep a List.mem_cons_self s hs hall.1 with ⟨hnext, hnow⟩
      exact ⟨hnow, ih (fun b hb => hstep b (List.mem_cons_of_mem a hb)) hnext hall.2⟩

/-- Invariant rule for the end of a run whose actions all meet {lit}`Q`. -/
theorem exec_of_eachStep {I : S → Prop} {Q : A → S → Prop} {as : List A}
    (hstep : ∀ a ∈ as, ∀ s, I s → Q a s → I (M.step a s).2) {s : S} (hs : I s)
    (hall : M.EachStep Q as s) : I (M.exec as s) := by
  induction as generalizing s with
  | nil => exact hs
  | cons a as ih =>
      exact ih (fun b hb => hstep b (List.mem_cons_of_mem a hb))
        (hstep a List.mem_cons_self s hs hall.1) hall.2

theorem eachStep_of_forall {Q : A → S → Prop} (hQ : ∀ a s, Q a s) (as : List A) (s : S) :
    M.EachStep Q as s := by
  induction as generalizing s with
  | nil => trivial
  | cons a as ih => exact ⟨hQ a s, ih _⟩

/-- Along a run whose actions all meet {lit}`R`: where, under an invariant, {lit}`P` holds after
such an action exactly when the action meets {lit}`Q`, it holds in every state of the run
exactly when every action meets {lit}`Q`. -/
theorem prefix_iff_of_eachStep {I P : S → Prop} {Q R : A → S → Prop} {as : List A}
    (hinv : ∀ s, I s → P s)
    (hstep : ∀ a ∈ as, ∀ s, I s → R a s →
      (P (M.step a s).2 ↔ Q a s) ∧ (Q a s → I (M.step a s).2))
    {s : S} (hs : I s) (hall : M.EachStep R as s) :
    (∀ bs, bs <+: as → P (M.exec bs s)) ↔ M.EachStep Q as s := by
  induction as generalizing s with
  | nil =>
      refine ⟨fun _ => trivial, fun _ bs hbs => ?_⟩
      rw [List.prefix_nil.mp hbs]
      exact hinv s hs
  | cons a as ih =>
      rcases hstep a List.mem_cons_self s hs hall.1 with ⟨hnow, hnext⟩
      have hlater := fun b hb => hstep b (List.mem_cons_of_mem a hb)
      constructor
      · intro h
        have hQ := hnow.mp (h [a] ⟨as, rfl⟩)
        refine ⟨hQ, (ih hlater (hnext hQ) hall.2).mp fun bs hbs => ?_⟩
        exact h (a :: bs) ((List.prefix_cons_inj a).mpr hbs)
      · rintro ⟨hQ, hrest⟩ bs hbs
        cases bs with
        | nil => exact hinv s hs
        | cons b bs =>
            rcases List.cons_prefix_cons.mp hbs with ⟨rfl, htail⟩
            exact (ih hlater (hnext hQ) hall.2).mpr hrest bs htail

/-- Where, under an invariant, {lit}`P` holds after an action exactly when the action meets
{lit}`Q`, it holds in every state of a run exactly when every action meets {lit}`Q`. -/
theorem prefix_iff_eachStep {I P : S → Prop} {Q : A → S → Prop} {as : List A}
    (hinv : ∀ s, I s → P s)
    (hstep : ∀ a ∈ as, ∀ s, I s → (P (M.step a s).2 ↔ Q a s) ∧ (Q a s → I (M.step a s).2))
    {s : S} (hs : I s) : (∀ bs, bs <+: as → P (M.exec bs s)) ↔ M.EachStep Q as s :=
  M.prefix_iff_of_eachStep hinv (fun a ha s hs _ => hstep a ha s hs) hs
    (M.eachStep_of_forall (Q := fun _ _ => True) (fun _ _ => trivial) as s)

/-- Properties of single actions that agree everywhere agree along runs. -/
theorem eachStep_congr {Q R : A → S → Prop} (hiff : ∀ a s, Q a s ↔ R a s) (as : List A) (s : S) :
    M.EachStep Q as s ↔ M.EachStep R as s := by
  induction as generalizing s with
  | nil => exact Iff.rfl
  | cons a as ih => exact and_congr (hiff a s) (ih _)

/-- A preorder that every action of the run respects relates its two ends. -/
theorem run_rel {Rel : S → S → Prop} (hrefl : ∀ s, Rel s s)
    (htrans : ∀ s t u, Rel s t → Rel t u → Rel s u) {as : List A}
    (hstep : ∀ a ∈ as, ∀ s, Rel s (M.step a s).2) (s : S) : Rel s (M.exec as s) := by
  induction as generalizing s with
  | nil => exact hrefl s
  | cons a as ih =>
      exact htrans _ _ _ (hstep a List.mem_cons_self s)
        (ih (fun b hb => hstep b (List.mem_cons_of_mem a hb)) _)

/-- Every action of two runs of the same actions meets {lit}`Q` in the states it starts from. -/
def EachPair (Q : A → S → S → Prop) : List A → S → S → Prop
  | [], _, _ => True
  | a :: as, s, t => Q a s t ∧ EachPair Q as (M.step a s).2 (M.step a t).2

/-- Unwinding: if no action that meets {lit}`Q` can tell related states apart, and related
states stay related, then runs of such actions from related states answer alike. -/
theorem unwinding {Rel : S → S → Prop} {Q : A → S → S → Prop} {as : List A}
    (hstep : ∀ a ∈ as, ∀ s t, Rel s t → Q a s t →
      (M.step a s).1 = (M.step a t).1 ∧ Rel (M.step a s).2 (M.step a t).2)
    {s t : S} (hst : Rel s t) (hall : M.EachPair Q as s t) :
    (M.run as s).1 = (M.run as t).1 ∧ Rel (M.exec as s) (M.exec as t) := by
  induction as generalizing s t with
  | nil => exact ⟨rfl, hst⟩
  | cons a as ih =>
      rcases hstep a List.mem_cons_self s t hst hall.1 with ⟨hanswer, hnext⟩
      rcases ih (fun b hb => hstep b (List.mem_cons_of_mem a hb)) hnext hall.2 with
        ⟨hrest, hend⟩
      refine ⟨?_, hend⟩
      change (M.step a s).1 :: (M.run as (M.step a s).2).1 =
        (M.step a t).1 :: (M.run as (M.step a t).2).1
      rw [hanswer, hrest]

end Machine

end Foundation
end Eleva
