import Mathlib.Data.List.Basic

/-!
# Foundation - Repeated attempts

A loop that attempts something until an answer settles it, one way or the other, or a number of
attempts is used up.  Between attempts it pauses.

Main results:

- Theorem {lit}`Retrying.answers_tried`: which answers the loop gets.
- Theorem {lit}`Retrying.run_result`: what it reports, from the answers it got.
- Theorem {lit}`Retrying.run_log`: what a log of the attempts holds after the loop.
-/

namespace Eleva
namespace Foundation

/-- What an answer means for the loop. -/
inductive Verdict
  | settled (success : Bool)
  | again
deriving DecidableEq, Repr

/-- Attempts with answers {lit}`A` on states {lit}`S`. -/
structure Retrying (A S : Type) where
  attempt : S → A × S
  judge : A → Verdict
  pause : ℕ → S → S

/-- What a loop reports. -/
structure RetryResult where
  success : Bool
  attempts : ℕ
deriving DecidableEq, Repr

namespace Retrying

variable {A S : Type} (R : Retrying A S)

/-- The loop, with attempts left and attempts made. -/
def loop : ℕ → ℕ → S → RetryResult × S
  | 0, attempts, s => (⟨false, attempts⟩, s)
  | left + 1, attempts, s =>
      let next := R.attempt s
      match R.judge next.1 with
      | .settled success => (⟨success, attempts + 1⟩, next.2)
      | .again => loop left (attempts + 1) (R.pause (attempts + 1) next.2)

/-- The loop from the first attempt on. -/
def run (maxAttempts : ℕ) (s : S) : RetryResult × S :=
  R.loop maxAttempts 0 s

/-- The answers that the loop gets. -/
def loopAnswers : ℕ → ℕ → S → List A
  | 0, _, _ => []
  | left + 1, attempts, s =>
      let next := R.attempt s
      match R.judge next.1 with
      | .settled _ => [next.1]
      | .again => next.1 :: loopAnswers left (attempts + 1) (R.pause (attempts + 1) next.2)

def answers (maxAttempts : ℕ) (s : S) : List A :=
  R.loopAnswers maxAttempts 0 s

section Steps

variable {R} {s : S} {success : Bool} (left attempts : ℕ)

theorem loop_of_settled (h : R.judge (R.attempt s).1 = .settled success) :
    R.loop (left + 1) attempts s = (⟨success, attempts + 1⟩, (R.attempt s).2) := by
  simp only [loop, h]

theorem loop_of_again (h : R.judge (R.attempt s).1 = .again) :
    R.loop (left + 1) attempts s =
      R.loop left (attempts + 1) (R.pause (attempts + 1) (R.attempt s).2) := by
  simp only [loop, h]

theorem loopAnswers_of_settled (h : R.judge (R.attempt s).1 = .settled success) :
    R.loopAnswers (left + 1) attempts s = [(R.attempt s).1] := by
  simp only [loopAnswers, h]

theorem loopAnswers_of_again (h : R.judge (R.attempt s).1 = .again) :
    R.loopAnswers (left + 1) attempts s =
      (R.attempt s).1 ::
        R.loopAnswers left (attempts + 1) (R.pause (attempts + 1) (R.attempt s).2) := by
  simp only [loopAnswers, h]

end Steps

/-- The answers of a loop: the first ones ask for another attempt, and the last one does so only
when no attempt is left. -/
structure Tried (judge : A → Verdict) (left : ℕ) (answers : List A) : Prop where
  some : 0 < left → answers ≠ []
  atMost : answers.length ≤ left
  goesOn : ∀ answer ∈ answers.dropLast, judge answer = .again
  stops : answers.length = left ∨ ∀ answer ∈ answers.getLast?, judge answer ≠ .again

theorem Tried.single {judge : A → Verdict} {answer : A} (left : ℕ) (h : judge answer ≠ .again) :
    Tried judge (left + 1) [answer] where
  some _ := List.cons_ne_nil _ _
  atMost := Nat.le_add_left 1 left
  goesOn _ hmem := absurd hmem List.not_mem_nil
  stops := Or.inr fun other hother => by
    cases hother
    exact h

theorem Tried.cons {judge : A → Verdict} {answer : A} {left : ℕ} {answers : List A}
    (h : judge answer = .again) (hrest : Tried judge left answers) :
    Tried judge (left + 1) (answer :: answers) := by
  refine ⟨fun _ => List.cons_ne_nil _ _, Nat.succ_le_succ hrest.atMost, ?_, ?_⟩
  · intro other hother
    cases answers with
    | nil => exact absurd hother List.not_mem_nil
    | cons next rest =>
        rcases List.mem_cons.mp hother with rfl | hmem
        · exact h
        · exact hrest.goesOn other hmem
  · cases answers with
    | nil =>
        cases left with
        | zero => exact Or.inl rfl
        | succ left => exact absurd rfl (hrest.some (Nat.succ_pos left))
    | cons next rest =>
        rcases hrest.stops with hlength | hlast
        · exact Or.inl (congrArg Nat.succ hlength)
        · exact Or.inr fun other hother => hlast other hother

theorem loopAnswers_tried (left attempts : ℕ) (s : S) :
    Tried R.judge left (R.loopAnswers left attempts s) := by
  induction left generalizing attempts s with
  | zero =>
      exact ⟨fun h => absurd h (Nat.lt_irrefl 0), Nat.le_refl 0,
        fun _ hmem => absurd hmem List.not_mem_nil, Or.inl rfl⟩
  | succ left ih =>
      cases hjudge : R.judge (R.attempt s).1 with
      | settled success =>
          have hsettled : R.judge (R.attempt s).1 ≠ .again := by
            rw [hjudge]
            exact Verdict.noConfusion
          rw [loopAnswers_of_settled left attempts hjudge]
          exact Tried.single left hsettled
      | again =>
          rw [loopAnswers_of_again left attempts hjudge]
          exact Tried.cons hjudge (ih _ _)

/-- Which answers the loop gets. -/
theorem answers_tried (maxAttempts : ℕ) (s : S) :
    Tried R.judge maxAttempts (R.answers maxAttempts s) :=
  R.loopAnswers_tried maxAttempts 0 s

theorem loop_result (left attempts : ℕ) (s : S) :
    (R.loop left attempts s).1.attempts = attempts + (R.loopAnswers left attempts s).length ∧
      ((R.loop left attempts s).1.success = true ↔
        ∃ answer ∈ (R.loopAnswers left attempts s).getLast?, R.judge answer = .settled true) := by
  induction left generalizing attempts s with
  | zero => exact ⟨rfl, by simp [loop, loopAnswers]⟩
  | succ left ih =>
      cases hjudge : R.judge (R.attempt s).1 with
      | settled success =>
          rw [loop_of_settled left attempts hjudge, loopAnswers_of_settled left attempts hjudge]
          exact ⟨rfl, by simp [hjudge]⟩
      | again =>
          rw [loop_of_again left attempts hjudge, loopAnswers_of_again left attempts hjudge]
          rcases ih (attempts + 1) (R.pause (attempts + 1) (R.attempt s).2) with
            ⟨hattempts, hsuccess⟩
          refine ⟨?_, hsuccess.trans ?_⟩
          · rw [hattempts, List.length_cons]
            omega
          · cases hanswers : R.loopAnswers left (attempts + 1)
              (R.pause (attempts + 1) (R.attempt s).2) with
            | nil => simp [hjudge]
            | cons next rest => rw [List.getLast?_cons_cons]

/-- What the loop reports, from the answers it got. -/
theorem run_result (maxAttempts : ℕ) (s : S) :
    (R.run maxAttempts s).1.attempts = (R.answers maxAttempts s).length ∧
      ((R.run maxAttempts s).1.success = true ↔
        ∃ answer ∈ (R.answers maxAttempts s).getLast?, R.judge answer = .settled true) := by
  have h := R.loop_result maxAttempts 0 s
  rw [Nat.zero_add] at h
  exact h

/-- An invariant of attempts and pauses. -/
theorem run_invariant {I : S → Prop} (hattempt : ∀ s, I s → I (R.attempt s).2)
    (hpause : ∀ n s, I s → I (R.pause n s)) (maxAttempts : ℕ) {s : S} (hs : I s) :
    I (R.run maxAttempts s).2 := by
  have hloop : ∀ left attempts s, I s → I (R.loop left attempts s).2 := by
    intro left
    induction left with
    | zero => exact fun _ _ h => h
    | succ left ih =>
        intro attempts s h
        cases hjudge : R.judge (R.attempt s).1 with
        | settled success =>
            rw [loop_of_settled left attempts hjudge]
            exact hattempt s h
        | again =>
            rw [loop_of_again left attempts hjudge]
            exact ih _ _ (hpause _ _ (hattempt s h))
  exact hloop maxAttempts 0 s hs

/-- What a log of the attempts holds after the loop: what each attempt has logged for its answer,
one after the other. -/
theorem run_log {B : Type} {log : S → List B} {Logs : A → List B → Prop}
    (hattempt : ∀ s, ∃ entries, log (R.attempt s).2 = log s ++ entries ∧
      Logs (R.attempt s).1 entries)
    (hpause : ∀ n s, log (R.pause n s) = log s) (maxAttempts : ℕ) (s : S) :
    ∃ entries, log (R.run maxAttempts s).2 = log s ++ entries.flatten ∧
      List.Forall₂ Logs (R.answers maxAttempts s) entries := by
  have hloop : ∀ left attempts s, ∃ entries,
      log (R.loop left attempts s).2 = log s ++ entries.flatten ∧
        List.Forall₂ Logs (R.loopAnswers left attempts s) entries := by
    intro left
    induction left with
    | zero => exact fun _ s => ⟨[], (List.append_nil _).symm, .nil⟩
    | succ left ih =>
        intro attempts s
        rcases hattempt s with ⟨first, hfirst, hlogs⟩
        cases hjudge : R.judge (R.attempt s).1 with
        | settled success =>
            rw [loop_of_settled left attempts hjudge, loopAnswers_of_settled left attempts hjudge]
            exact ⟨[first], by rw [hfirst, List.flatten_singleton], .cons hlogs .nil⟩
        | again =>
            rw [loop_of_again left attempts hjudge, loopAnswers_of_again left attempts hjudge]
            rcases ih (attempts + 1) (R.pause (attempts + 1) (R.attempt s).2) with
              ⟨rest, hrest, hall⟩
            refine ⟨first :: rest, ?_, .cons hlogs hall⟩
            rw [hrest, hpause, hfirst, List.flatten_cons, List.append_assoc]
  exact hloop maxAttempts 0 s

end Retrying

end Foundation
end Eleva
