import Eleva.Foundation.Fallible

/-!
# Foundation - Endless loops that break

The statement {lit}`for (;;)` runs its body round after round.  A body answers whether another
round follows; the loop ends with the first round that breaks, or that throws.

Main results:

- Definition {lit}`LoopEnds`: the loop ends, and how.
- Theorem {lit}`LoopEnds.unique`: a loop ends in one way at most.
- Theorem {lit}`LoopEnds.of_measure`: a loop ends where each round that is followed by another one
  lowers a measure.
- Theorem {lit}`LoopEnds.invariant`: what every round keeps holds at the end.
-/

namespace Eleva
namespace Foundation

variable {σ ε : Type}

/-- The loop, from a round on, ends with a result. -/
inductive LoopEnds (body : ℕ → Fallible σ ε Bool) : ℕ → σ → Except ε Unit × σ → Prop
  | stop {round : ℕ} {s s' : σ} (breaks : body round s = (.ok false, s')) :
      LoopEnds body round s (.ok (), s')
  | fail {round : ℕ} {s s' : σ} {e : ε} (throws : body round s = (.error e, s')) :
      LoopEnds body round s (.error e, s')
  | again {round : ℕ} {s s' : σ} {result : Except ε Unit × σ}
      (follows : body round s = (.ok true, s')) (rest : LoopEnds body (round + 1) s' result) :
      LoopEnds body round s result

namespace LoopEnds

variable {body : ℕ → Fallible σ ε Bool} {round : ℕ} {s : σ} {result : Except ε Unit × σ}

/-- A loop ends in one way at most. -/
theorem unique {result' : Except ε Unit × σ} (h : LoopEnds body round s result)
    (h' : LoopEnds body round s result') : result' = result := by
  induction h with
  | stop breaks =>
      cases h' with
      | stop breaks' =>
          cases breaks.symm.trans breaks'
          rfl
      | fail throws' => cases breaks.symm.trans throws'
      | again follows' rest' => cases breaks.symm.trans follows'
  | fail throws =>
      cases h' with
      | stop breaks' => cases throws.symm.trans breaks'
      | fail throws' =>
          cases throws.symm.trans throws'
          rfl
      | again follows' rest' => cases throws.symm.trans follows'
  | again follows rest ih =>
      cases h' with
      | stop breaks' => cases follows.symm.trans breaks'
      | fail throws' => cases follows.symm.trans throws'
      | again follows' rest' =>
          cases follows.symm.trans follows'
          exact ih rest'

/-- A loop ends where each round that is followed by another one keeps an invariant and lowers a
measure. -/
theorem of_measure (I : σ → Prop) (μ : σ → ℕ)
    (hround : ∀ round s s', I s → body round s = (.ok true, s') → I s' ∧ μ s' < μ s) (hs : I s) :
    ∃ result, LoopEnds body round s result := by
  induction hμ : μ s using Nat.strongRecOn generalizing round s with
  | ind n ih =>
      rcases hbody : body round s with ⟨e | goesOn, s'⟩
      · exact ⟨_, fail hbody⟩
      · cases goesOn with
        | false => exact ⟨_, stop hbody⟩
        | true =>
            rcases hround round s s' hs hbody with ⟨hkept, hless⟩
            have hnext : ∃ result, LoopEnds body (round + 1) s' result :=
              ih (μ s') (hμ ▸ hless) hkept rfl
            rcases hnext with ⟨result, hrest⟩
            exact ⟨result, again hbody hrest⟩

/-- What holds at the start and is kept by each round that is followed by another one, and what a
last round makes of it. -/
theorem invariant (I : σ → Prop) (Q : Except ε Unit × σ → Prop)
    (hagain : ∀ round s s', I s → body round s = (.ok true, s') → I s')
    (hstop : ∀ round s s', I s → body round s = (.ok false, s') → Q (.ok (), s'))
    (hfail : ∀ round s s' e, I s → body round s = (.error e, s') → Q (.error e, s'))
    (h : LoopEnds body round s result) (hs : I s) : Q result := by
  induction h with
  | stop breaks => exact hstop _ _ _ hs breaks
  | fail throws => exact hfail _ _ _ _ hs throws
  | again follows rest ih => exact ih (hagain _ _ _ hs follows)

end LoopEnds

end Foundation
end Eleva
