import Mathlib.Algebra.BigOperators.Group.List.Basic
import Mathlib.Algebra.Order.Group.Int
import Mathlib.Logic.Function.Basic
import Eleva.Foundation.Batches

/-!
# Foundation - Lines under keys

A list of lines, each with a key and a count, stands for the function that gives every key its
count: at most one line has the key, and a key without a line counts nothing.  Counting more
under a key, changing a count, dropping the lines that count nothing and removing a line update
the function at that key.

Main results:

- Theorems {lit}`Counts.merge` and {lit}`Counts.append`: more under a key with and without a line.
- Theorem {lit}`Counts.change`: a count that is changed, and dropped when nothing is left.
- Theorem {lit}`Counts.remove`: a line that is removed.
- Theorem {lit}`sum_rewriteWhere`: a sum over lines of which one is rewritten.
-/

namespace Eleva
namespace Foundation

variable {α κ : Type}

/-- The lines count {lit}`t`. -/
structure Counts (key : α → κ) (count : α → ℤ) (lines : List α) (t : κ → ℤ) : Prop where
  nodup : (lines.map key).Nodup
  positive : ∀ x ∈ lines, 0 < count x
  held : ∀ x ∈ lines, t (key x) = count x
  absent : ∀ k, k ∉ lines.map key → t k = 0

namespace Counts

variable {key : α → κ} {count : α → ℤ} {lines : List α} {t : κ → ℤ}

theorem empty : Counts key count [] fun _ => 0 where
  nodup := List.nodup_nil
  positive := by simp
  held := by simp
  absent := by simp

variable [DecidableEq κ] {k : κ} {n : ℤ}

/-- A new line. -/
theorem append (h : Counts key count lines t) {x : α} (hnew : key x ∉ lines.map key)
    (hpos : 0 < count x) :
    Counts key count (lines ++ [x]) (Function.update t (key x) (t (key x) + count x)) where
  nodup := by
    rw [List.map_append, List.map_singleton]
    exact h.nodup.append (List.nodup_singleton _) (by simpa using hnew)
  positive y hy := by
    rcases List.mem_append.mp hy with hold | hlast
    · exact h.positive y hold
    · rwa [List.mem_singleton.mp hlast]
  held y hy := by
    rcases List.mem_append.mp hy with hold | hlast
    · have hne : key y ≠ key x := fun heq => hnew (heq ▸ List.mem_map_of_mem hold)
      rw [Function.update_of_ne hne, h.held y hold]
    · rw [List.mem_singleton.mp hlast, Function.update_self, h.absent _ hnew, zero_add]
  absent k hk := by
    simp only [List.map_append, List.map_singleton, List.mem_append, List.mem_singleton,
      not_or] at hk
    rw [Function.update_of_ne hk.2, h.absent k hk.1]

variable {f : α → α}

/-- What becomes of the lines when those of a key are rewritten and some are dropped. -/
theorem rewrite (h : Counts key count lines t) (hkey : ∀ x, key (f x) = key x) {keep : α → Bool}
    (hkeep : ∀ x, keep x = true ↔ 0 < count x) {m : ℤ}
    (hm : ∀ x ∈ lines, key x = k → max 0 (count (f x)) = m) (habsent : k ∉ lines.map key → m = 0) :
    Counts key count ((rewriteWhere (fun x => key x == k) f lines).filter keep)
      (Function.update t k m) where
  nodup := by
    have hkeys := map_rewriteWhere (p := fun x => key x == k) hkey lines
    exact (hkeys ▸ h.nodup).sublist (List.filter_sublist.map key)
  positive x hx := (hkeep x).mp (List.mem_filter.mp hx).2
  held y hy := by
    rcases List.mem_filter.mp hy with ⟨hmem, hkept⟩
    have hpos := (hkeep y).mp hkept
    rcases mem_rewriteWhere.mp hmem with ⟨x, hx, rfl⟩
    by_cases hxk : key x = k
    · simp only [hxk, beq_self_eq_true, if_true, hkey, Function.update_self] at hpos ⊢
      rw [← hm x hx hxk, max_eq_right (le_of_lt hpos)]
    · simp only [beq_eq_false_iff_ne.mpr hxk, Bool.false_eq_true, if_false]
      rw [Function.update_of_ne hxk, h.held x hx]
  absent k' hk' := by
    by_cases hsame : k' = k
    · subst hsame
      rw [Function.update_self]
      by_cases hk : k' ∈ lines.map key
      · rcases List.mem_map.mp hk with ⟨x, hx, hxk⟩
        have hdropped : ¬ 0 < count (f x) := fun hpos => hk' (List.mem_map.mpr
          ⟨f x, List.mem_filter.mpr ⟨mem_rewriteWhere.mpr ⟨x, hx, by simp [hxk]⟩,
            (hkeep _).mpr hpos⟩, (hkey x).trans hxk⟩)
        have hmax := hm x hx hxk
        omega
      · exact habsent hk
    · rw [Function.update_of_ne hsame]
      refine h.absent k' fun hmem => hk' ?_
      rcases List.mem_map.mp hmem with ⟨x, hx, rfl⟩
      exact List.mem_map.mpr ⟨x, List.mem_filter.mpr ⟨mem_rewriteWhere_of_not hx
        (beq_eq_false_iff_ne.mpr hsame), (hkeep x).mpr (h.positive x hx)⟩, rfl⟩

/-- More under the key of a line. -/
theorem merge (h : Counts key count lines t) (hkey : ∀ x, key (f x) = key x)
    (hcount : ∀ x, count (f x) = count x + n) (hn : 0 < n) (hk : k ∈ lines.map key) :
    Counts key count (rewriteWhere (fun x => key x == k) f lines)
      (Function.update t k (t k + n)) := by
  have hm : ∀ x ∈ lines, key x = k → max 0 (count (f x)) = t k + n := by
    intro x hx hxk
    have hpos := h.positive x hx
    rw [← hxk, h.held x hx, hcount]
    omega
  have hrewrite := h.rewrite hkey (fun x => decide_eq_true_iff) hm fun hno => absurd hk hno
  rwa [List.filter_eq_self.mpr] at hrewrite
  intro y hy
  rcases mem_rewriteWhere.mp hy with ⟨x, hx, rfl⟩
  have hpos := h.positive x hx
  by_cases hxk : key x = k
  · simp only [hxk, beq_self_eq_true, if_true, hcount, decide_eq_true_eq]
    omega
  · simpa [hxk] using hpos

/-- A count that is changed, where a line has the key, and dropped when nothing is left. -/
theorem change (h : Counts key count lines t) (hkey : ∀ x, key (f x) = key x)
    (hcount : ∀ x, count (f x) = max 0 (count x + n)) :
    Counts key count
      ((rewriteWhere (fun x => key x == k) f lines).filter fun x => decide (0 < count x))
      (Function.update t k (if t k = 0 then 0 else max 0 (t k + n))) := by
  refine h.rewrite hkey (fun x => decide_eq_true_iff) (fun x hx hxk => ?_) fun hno => ?_
  · have hpos := h.positive x hx
    rw [← hxk, h.held x hx, hcount, if_neg (ne_of_gt hpos)]
    omega
  · rw [h.absent k hno, if_pos rfl]

/-- A line that is removed. -/
theorem remove (h : Counts key count lines t) :
    Counts key count (lines.filter fun x => key x != k) (Function.update t k 0) where
  nodup := h.nodup.sublist (List.filter_sublist.map key)
  positive x hx := h.positive x (List.mem_of_mem_filter hx)
  held x hx := by
    have hne : key x ≠ k := by simpa using (List.mem_filter.mp hx).2
    rw [Function.update_of_ne hne, h.held x (List.mem_of_mem_filter hx)]
  absent k' hk' := by
    by_cases hsame : k' = k
    · rw [hsame, Function.update_self]
    · rw [Function.update_of_ne hsame]
      refine h.absent k' fun hmem => hk' ?_
      rcases List.mem_map.mp hmem with ⟨x, hx, rfl⟩
      exact List.mem_map_of_mem (List.mem_filter.mpr ⟨hx, by simpa using hsame⟩)

end Counts

/-- A sum over lines of which one is rewritten. -/
theorem sum_rewriteWhere {M : Type} [AddCommMonoid M] [DecidableEq κ] {key : α → κ} {f : α → α}
    {g : α → M} {lines : List α} (hnodup : (lines.map key).Nodup) {line : α}
    (hline : line ∈ lines) :
    ((rewriteWhere (fun x => key x == key line) f lines).map g).sum + g line =
      (lines.map g).sum + g (f line) := by
  induction lines with
  | nil => cases hline
  | cons x lines ih =>
      rcases List.nodup_cons.mp hnodup with ⟨hnew, hrest⟩
      have hcons : rewriteWhere (fun x => key x == key line) f (x :: lines) =
          (if key x == key line then f x else x) ::
            rewriteWhere (fun x => key x == key line) f lines := rfl
      rw [hcons]
      rcases List.mem_cons.mp hline with rfl | hmem
      · have hnone : rewriteWhere (fun x => key x == key line) f lines = lines :=
          rewriteWhere_of_none fun y hy => beq_eq_false_iff_ne.mpr fun heq =>
            hnew (heq ▸ List.mem_map_of_mem hy)
        rw [hnone]
        simp [add_comm, add_left_comm]
      · have hne : (key x == key line) = false :=
          beq_eq_false_iff_ne.mpr fun heq => hnew (heq ▸ List.mem_map_of_mem hmem)
        simp only [hne, Bool.false_eq_true, if_false, List.map_cons, List.sum_cons]
        rw [add_assoc, ih hrest hmem, add_assoc]

end Foundation
end Eleva
