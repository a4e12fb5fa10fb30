import Mathlib.Data.List.Basic
import Mathlib.Data.List.Nodup
import Mathlib.Data.List.Pairwise

/-!
# Foundation - Rewriting a list in batches

A condition {lit}`p` selects elements of a list, and a rewriting {lit}`f` makes of an element one
that is not selected.  Rewriting the selected elements batch by batch then comes to the same as
rewriting them all at once, and each batch leaves fewer of them.

Main results:

- Theorem {lit}`rewriteMembers_then_where`: a batch first, and the rest later.
- Theorem {lit}`countP_rewriteMembers_lt`: what a batch leaves.
-/

namespace Eleva
namespace Foundation

variable {α κ : Type}

/-- Rewrite the elements that {lit}`p` selects. -/
def rewriteWhere (p : α → Bool) (f : α → α) (xs : List α) : List α :=
  xs.map fun x => if p x then f x else x

/-- Rewrite the elements of a batch. -/
def rewriteMembers [DecidableEq α] (batch : List α) (f : α → α) (xs : List α) : List α :=
  rewriteWhere (fun x => batch.contains x) f xs

theorem rewriteWhere_congr {p q : α → Bool} {f : α → α} {xs : List α}
    (h : ∀ x ∈ xs, p x = q x) : rewriteWhere p f xs = rewriteWhere q f xs := by
  refine List.map_congr_left fun x hx => ?_
  rw [h x hx]

theorem rewriteWhere_of_none {p : α → Bool} {f : α → α} {xs : List α}
    (h : ∀ x ∈ xs, p x = false) : rewriteWhere p f xs = xs := by
  have hsame : xs.map (fun x => if p x then f x else x) = xs.map id :=
    List.map_congr_left fun x hx => by rw [h x hx]; rfl
  exact hsame.trans (List.map_id xs)

/-- A rewriting that leaves a key leaves the list of the keys. -/
theorem map_rewriteWhere {key : α → κ} {p : α → Bool} {f : α → α} (hf : ∀ x, key (f x) = key x)
    (xs : List α) : (rewriteWhere p f xs).map key = xs.map key := by
  unfold rewriteWhere
  rw [List.map_map]
  refine List.map_congr_left fun x _ => ?_
  simp only [Function.comp]
  split
  · exact hf x
  · rfl

theorem mem_rewriteWhere {p : α → Bool} {f : α → α} {xs : List α} {y : α} :
    y ∈ rewriteWhere p f xs ↔ ∃ x ∈ xs, (if p x then f x else x) = y :=
  List.mem_map

/-- An element that is not selected stays. -/
theorem mem_rewriteWhere_of_not {p : α → Bool} {f : α → α} {xs : List α} {x : α} (hx : x ∈ xs)
    (hp : p x = false) : x ∈ rewriteWhere p f xs :=
  mem_rewriteWhere.mpr ⟨x, hx, by rw [hp]; rfl⟩

/-- A rewriting that takes keys away leaves some of the keys. -/
theorem filterMap_rewriteWhere_sublist {key : α → Option κ} {p : α → Bool} {f : α → α}
    (hf : ∀ x, key (f x) = none) (xs : List α) :
    ((rewriteWhere p f xs).filterMap key).Sublist (xs.filterMap key) := by
  induction xs with
  | nil => exact List.Sublist.refl _
  | cons x xs ih =>
      have hcons : rewriteWhere p f (x :: xs) = (if p x then f x else x) :: rewriteWhere p f xs :=
        rfl
      rw [hcons]
      split
      · rw [List.filterMap_cons_none (hf x)]
        exact ih.trans ((List.sublist_cons_self x xs).filterMap key)
      · cases hkey : key x with
        | none => rwa [List.filterMap_cons_none hkey, List.filterMap_cons_none hkey]
        | some k =>
            rw [List.filterMap_cons_some hkey, List.filterMap_cons_some hkey]
            exact ih.cons_cons k

/-- Elements of a list with distinct keys that have the same key are the same. -/
theorem eq_of_filterMap_nodup {key : α → Option κ} {xs : List α} (h : (xs.filterMap key).Nodup)
    {x y : α} (hx : x ∈ xs) (hy : y ∈ xs) {k : κ} (hkx : key x = some k) (hky : key y = some k) :
    x = y := by
  by_contra hne
  have hsymm : Std.Symm fun a b => ∀ l, key a = some l → ∀ l', key b = some l' → l ≠ l' :=
    ⟨fun a b hab l hl l' hl' heq => hab l' hl' l hl heq.symm⟩
  exact (List.pairwise_filterMap.mp h).forall hx hy hne k hkx k hky rfl

/-- Rewriting one element at most leaves distinct keys distinct, when the new key is not the key
of another element. -/
theorem nodup_filterMap_rewriteWhere {key : α → Option κ} {p : α → Bool} {f : α → α} {xs : List α}
    (hkeys : (xs.filterMap key).Nodup)
    (hone : xs.Pairwise fun x y => p x = true → p y = false)
    (hnew : ∀ x ∈ xs, ∀ y ∈ xs, p x = true → p y = false → ∀ k, key (f x) = some k →
      key y ≠ some k) : ((rewriteWhere p f xs).filterMap key).Nodup := by
  unfold rewriteWhere List.Nodup
  rw [List.pairwise_filterMap, List.pairwise_map]
  refine (hone.and (List.pairwise_filterMap.mp hkeys)).imp_of_mem ?_
  rintro x y hx hy ⟨hxy, hdistinct⟩ k hk k' hk' rfl
  cases hpx : p x with
  | true =>
      have hpy := hxy hpx
      rw [hpx, if_pos rfl] at hk
      rw [hpy, if_neg Bool.false_ne_true] at hk'
      exact hnew x hx y hy hpx hpy k hk hk'
  | false =>
      rw [hpx, if_neg Bool.false_ne_true] at hk
      cases hpy : p y with
      | true =>
          rw [hpy, if_pos rfl] at hk'
          exact hnew y hy x hx hpy hpx k hk' hk
      | false =>
          rw [hpy, if_neg Bool.false_ne_true] at hk'
          exact hdistinct k hk k hk' rfl
/-- A rewriting under which no element comes to meet {lit}`q` leaves as many of them at most. -/
theorem countP_rewriteWhere_le {p q : α → Bool} {f : α → α} {xs : List α}
    (h : ∀ x ∈ xs, p x = true → q (f x) = true → q x = true) :
    (rewriteWhere p f xs).countP q ≤ xs.countP q := by
  unfold rewriteWhere
  rw [List.countP_map]
  refine List.countP_mono_left fun x hx hq => ?_
  simp only [Function.comp] at hq
  split at hq
  · exact h x hx ‹_› hq
  · exact hq

/-- A rewriting under which every selected element comes to meet {lit}`q` adds them to the
others. -/
theorem countP_rewriteWhere_add {p q : α → Bool} {f : α → α} {xs : List α}
    (h : ∀ x ∈ xs, p x = true → q x = false ∧ q (f x) = true) :
    (rewriteWhere p f xs).countP q = xs.countP q + xs.countP p := by
  induction xs with
  | nil => rfl
  | cons x xs ih =>
      have hcons : rewriteWhere p f (x :: xs) = (if p x then f x else x) :: rewriteWhere p f xs :=
        rfl
      rw [hcons, List.countP_cons, List.countP_cons, List.countP_cons,
        ih fun y hy => h y (List.mem_cons_of_mem _ hy)]
      cases hp : p x with
      | false =>
          simp only [Bool.false_eq_true, if_false]
          omega
      | true =>
          rcases h x List.mem_cons_self hp with ⟨hbefore, hafter⟩
          simp only [hbefore, hafter, Bool.false_eq_true, if_false, if_true]
          omega

/-- Elements with keys of their own: a condition on the key selects one of them at most. -/
theorem countP_le_one_of_nodup {key : α → κ} {p : α → Bool} {k : κ} {xs : List α}
    (hnodup : (xs.map key).Nodup) (hp : ∀ x ∈ xs, p x = true → key x = k) :
    xs.countP p ≤ 1 := by
  induction xs with
  | nil => exact Nat.zero_le 1
  | cons x xs ih =>
      rw [List.map_cons, List.nodup_cons] at hnodup
      rw [List.countP_cons]
      have hrest := ih hnodup.2 fun y hy => hp y (List.mem_cons_of_mem _ hy)
      by_cases hx : p x = true
      · have hnone : xs.countP p = 0 := by
          rw [List.countP_eq_zero]
          intro y hy hpy
          have hkey := (hp y (List.mem_cons_of_mem _ hy) hpy).trans
            (hp x List.mem_cons_self hx).symm
          exact hnodup.1 (List.mem_map.mpr ⟨y, hy, hkey⟩)
        simp [hnone, hx]
      · rw [if_neg hx]
        omega

/-- Where one element at most meets a condition, a search finds it. -/
theorem find?_iff_of_unique {p : α → Bool} {xs : List α}
    (hunique : ∀ x ∈ xs, ∀ y ∈ xs, p x = true → p y = true → x = y) {x : α} :
    xs.find? p = some x ↔ x ∈ xs ∧ p x = true := by
  constructor
  · intro h
    exact ⟨List.mem_of_find?_eq_some h, List.find?_some h⟩
  · rintro ⟨hx, hp⟩
    cases hfind : xs.find? p with
    | none => exact absurd hp (List.find?_eq_none.mp hfind x hx)
    | some y =>
        rw [hunique x hx y (List.mem_of_find?_eq_some hfind) hp (List.find?_some hfind)]

section Batches

variable [DecidableEq α] {p : α → Bool} {f : α → α} {batch xs : List α}

/-- The first element of a batch, and then the others. -/
theorem rewriteMembers_cons {x : α} (hp : ∀ y ∈ batch, p y = true) (hf : p (f x) = false) :
    rewriteMembers batch f (rewriteWhere (fun y => decide (y = x)) f xs) =
      rewriteMembers (x :: batch) f xs := by
  unfold rewriteMembers rewriteWhere
  rw [List.map_map]
  refine List.map_congr_left fun y _ => ?_
  by_cases hy : y = x
  · subst hy
    have hout : f y ∉ batch := fun hmem => by
      rw [hp _ hmem] at hf
      cases hf
    simp [hout]
  · simp [hy]

/-- A batch of selected elements first, and the other selected elements later. -/
theorem rewriteMembers_then_where (hp : ∀ x ∈ batch, p x = true) (hf : ∀ x, p (f x) = false) :
    rewriteWhere p f (rewriteMembers batch f xs) = rewriteWhere p f xs := by
  unfold rewriteMembers rewriteWhere
  rw [List.map_map]
  refine List.map_congr_left fun x _ => ?_
  by_cases hx : x ∈ batch
  · simp [hx, hp x hx, hf x]
  · simp [hx]

/-- A batch with all selected elements. -/
theorem rewriteMembers_filter :
    rewriteMembers (xs.filter p) f xs = rewriteWhere p f xs :=
  rewriteWhere_congr fun x hx => by simp [hx]

theorem rewriteMembers_head (y : α) (ys : List α) :
    rewriteMembers batch f (y :: ys) =
      (if y ∈ batch then f y else y) :: rewriteMembers batch f ys := by
  simp [rewriteMembers, rewriteWhere]

/-- A batch selects nothing new. -/
theorem countP_rewriteMembers_le (hf : ∀ x, p (f x) = false) :
    (rewriteMembers batch f xs).countP p ≤ xs.countP p :=
  countP_rewriteWhere_le fun x _ _ hfx => by
    rw [hf x] at hfx
    cases hfx

/-- A batch leaves fewer selected elements. -/
theorem countP_rewriteMembers_lt {x : α} (hx : x ∈ xs) (hbatch : x ∈ batch) (hp : p x = true)
    (hf : ∀ x, p (f x) = false) :
    (rewriteMembers batch f xs).countP p < xs.countP p := by
  induction xs with
  | nil => cases hx
  | cons y ys ih =>
      rw [rewriteMembers_head, List.countP_cons, List.countP_cons]
      rcases List.mem_cons.mp hx with rfl | htail
      · rw [if_pos hbatch, hf, hp]
        have hle : (rewriteMembers batch f ys).countP p ≤ ys.countP p :=
          countP_rewriteMembers_le hf
        simp only [Bool.false_eq_true, if_false, if_true]
        omega
      · have hrest := ih htail
        by_cases hy : y ∈ batch
        · rw [if_pos hy, hf]
          simp only [Bool.false_eq_true, if_false]
          omega
        · rw [if_neg hy]
          omega

end Batches

end Foundation
end Eleva
