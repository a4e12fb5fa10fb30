import Mathlib.Data.List.Basic

/-!
# Foundation - Fixed windows

A counter of hits that starts again when its window is over.  A window is opened by a hit, lasts
until its reset time, and the first hit strictly after that opens the next one.

Main results:

- Theorem {lit}`FixedWindow.hits_eq_windows`: what a counter shows after each of the hits, from
  the windows into which their times fall.
- Theorem {lit}`FixedWindow.hit_of_equivalent`: a window that is over counts like no window.
-/

namespace Eleva
namespace Foundation

/-- The hits that a window has counted, and the last moment at which it counts. -/
structure FixedWindow where
  count : ℕ
  resetTime : ℕ
deriving DecidableEq, Repr

namespace FixedWindow

variable {windowMs now : ℕ}

/-- The window after a hit. -/
def hit (windowMs now : ℕ) : Option FixedWindow → FixedWindow
  | none => { count := 1, resetTime := now + windowMs }
  | some window =>
      if now > window.resetTime then { count := 1, resetTime := now + windowMs }
      else { window with count := window.count + 1 }

/-- The window after each of the hits. -/
def hits (windowMs : ℕ) : Option FixedWindow → List ℕ → List FixedWindow
  | _, [] => []
  | window, now :: times =>
      hit windowMs now window :: hits windowMs (some (hit windowMs now window)) times

/-- The windows into which hits fall: the first hit opens one, which takes the hits up to its
reset time, and the first hit after that opens the next. -/
def windows (windowMs : ℕ) : List ℕ → List (List ℕ)
  | [] => []
  | opening :: times =>
      (opening :: times.takeWhile (· ≤ opening + windowMs)) ::
        windows windowMs (times.dropWhile (· ≤ opening + windowMs))
termination_by times => times.length
decreasing_by
  have := (List.dropWhile_suffix (l := times) (· ≤ opening + windowMs)).length_le
  exact Nat.lt_succ_of_le this

/-- A window that counts from {lit}`start` on, after each of the next hits. -/
def counted (start resetTime hits : ℕ) : List FixedWindow :=
  (List.range hits).map fun i => { count := start + i + 1, resetTime }

/-- What the counter shows during one window. -/
def shown (windowMs : ℕ) : List ℕ → List FixedWindow
  | [] => []
  | opening :: times => counted 0 (opening + windowMs) (opening :: times).length

@[simp]
theorem hit_none (windowMs now : ℕ) :
    hit windowMs now none = { count := 1, resetTime := now + windowMs } :=
  rfl

theorem hit_over {window : FixedWindow} (hover : window.resetTime < now) :
    hit windowMs now (some window) = hit windowMs now none :=
  if_pos hover

theorem hit_within {window : FixedWindow} (hwithin : now ≤ window.resetTime) :
    hit windowMs now (some window) = { window with count := window.count + 1 } :=
  if_neg (Nat.not_lt.mpr hwithin)

/-- A hit keeps a window or opens one. -/
theorem hit_resetTime_le {w : Option FixedWindow} {deadline : ℕ}
    (hold : ∀ window, w = some window → window.resetTime ≤ deadline)
    (hnew : now + windowMs ≤ deadline) : (hit windowMs now w).resetTime ≤ deadline := by
  cases w with
  | none => exact hnew
  | some window =>
      by_cases hover : window.resetTime < now
      · rw [hit_over hover]
        exact hnew
      · rw [hit_within (Nat.not_lt.mp hover)]
        exact hold window rfl

theorem counted_succ (start resetTime hits : ℕ) :
    counted start resetTime (hits + 1) =
      { count := start + 1, resetTime } :: counted (start + 1) resetTime hits := by
  unfold counted
  rw [List.range_succ_eq_map, List.map_cons, List.map_map]
  refine congrArg (_ :: ·) (List.map_congr_left fun i _ => ?_)
  rw [Function.comp_apply, Nat.succ_eq_add_one, Nat.add_assoc start 1 i, Nat.add_comm 1 i]

/-- The hits up to the reset time are counted in the window, the others as if there were none. -/
theorem hits_some (window : FixedWindow) (times : List ℕ) :
    hits windowMs (some window) times =
      counted window.count window.resetTime (times.takeWhile (· ≤ window.resetTime)).length ++
        hits windowMs none (times.dropWhile (· ≤ window.resetTime)) := by
  induction times generalizing window with
  | nil => rfl
  | cons now times ih =>
      let p : ℕ → Bool := (· ≤ window.resetTime)
      by_cases hwithin : now ≤ window.resetTime
      · have hnow : p now = true := decide_eq_true hwithin
        rw [List.takeWhile_cons_of_pos (p := p) hnow, List.dropWhile_cons_of_pos (p := p) hnow,
          List.length_cons, counted_succ, hits, hit_within hwithin, ih, List.cons_append]
      · have hnow : ¬p now = true := fun h => hwithin (of_decide_eq_true h)
        rw [List.takeWhile_cons_of_neg (p := p) hnow, List.dropWhile_cons_of_neg (p := p) hnow,
          hits, hits, hit_over (Nat.not_le.mp hwithin)]
        rfl

/-- A counter shows, window by window, the numbers from one on. -/
theorem hits_eq_windows (times : List ℕ) :
    hits windowMs none times = (windows windowMs times).flatMap (shown windowMs) := by
  induction times using windows.induct windowMs with
  | case1 => simp [windows, hits]
  | case2 opening times ih =>
      rw [windows, List.flatMap_cons, ← ih, hits, hit_none, hits_some, shown, List.length_cons,
        counted_succ, List.cons_append]

/-! ## Windows that are over -/

/-- No window counts any more. -/
def Over (now : ℕ) : Option FixedWindow → Prop
  | none => True
  | some window => window.resetTime < now

/-- Two counters that differ at most by a window that is over. -/
def Equivalent (now : ℕ) (w v : Option FixedWindow) : Prop :=
  w = v ∨ Over now w ∧ Over now v

theorem Over.mono {w : Option FixedWindow} {later : ℕ} (h : Over now w) (hle : now ≤ later) :
    Over later w := by
  cases w with
  | none => trivial
  | some window => exact Nat.lt_of_lt_of_le h hle

theorem Equivalent.mono {w v : Option FixedWindow} {later : ℕ} (h : Equivalent now w v)
    (hle : now ≤ later) : Equivalent later w v :=
  h.imp_right fun hover => ⟨hover.1.mono hle, hover.2.mono hle⟩

theorem Equivalent.trans {w v u : Option FixedWindow} (h : Equivalent now w v)
    (h' : Equivalent now v u) : Equivalent now w u := by
  rcases h with rfl | ⟨hw, hv⟩
  · exact h'
  · rcases h' with rfl | ⟨-, hu⟩
    · exact Or.inr ⟨hw, hv⟩
    · exact Or.inr ⟨hw, hu⟩

theorem hit_of_over {w : Option FixedWindow} (h : Over now w) :
    hit windowMs now w = hit windowMs now none := by
  cases w with
  | none => rfl
  | some window => exact hit_over h

/-- A window that is over counts like no window. -/
theorem hit_of_equivalent {w v : Option FixedWindow} (h : Equivalent now w v) :
    hit windowMs now w = hit windowMs now v := by
  rcases h with rfl | ⟨hw, hv⟩
  · rfl
  · rw [hit_of_over hw, hit_of_over hv]

end FixedWindow

end Foundation
end Eleva
