import Mathlib.Data.List.Nodup
import Eleva.Foundation.Batches

/-!
# Foundation - Values under an id and a key

A map that keeps its insertion order replaces the value of an id where it stands, and puts the
value of a new id last.  Where the values also have a key, and a value that is set has the id of
the one with its key or an id that is new, the map is one from keys to values as well.

Main results:

- Theorem {lit}`prefix_setById`: nothing that the id decides is lost or moved.
- Theorem {lit}`Unambiguous.setById`: ids and keys stay distinct.
- Theorem {lit}`find_setById`: what a key finds after a value was set.
- Theorem {lit}`filter_setById`: what of it is seen through a filter on the keys.
-/

namespace Eleva
namespace Foundation

variable {α β ι κ : Type} {id : α → ι} {key : α → κ} {xs : List α} {x : α}

/-- {lit}`map.set(id(x), x)`, on the values in insertion order. -/
def setById [DecidableEq ι] (id : α → ι) (x : α) (xs : List α) : List α :=
  if id x ∈ xs.map id then rewriteWhere (fun y => id y == id x) (fun _ => x) xs
  else xs ++ [x]

/-- No two values share an id, and no two share a key. -/
structure Unambiguous (id : α → ι) (key : α → κ) (xs : List α) : Prop where
  ids : (xs.map id).Nodup
  keys : (xs.map key).Nodup

/-- The value has the id of the value with its key, or an id that no value has. -/
def Fits (id : α → ι) (key : α → κ) (x : α) (xs : List α) : Prop :=
  ∀ y ∈ xs, id y = id x ↔ key y = key x

/-! ## What may be set -/

/-- The value under the key is replaced under its own id. -/
theorem Unambiguous.fits_of_mem (h : Unambiguous id key xs) {y : α} (hy : y ∈ xs)
    (hid : id x = id y) (hkey : key x = key y) : Fits id key x xs := by
  intro z hz
  rw [hid, hkey]
  constructor
  · intro hzy
    rw [List.inj_on_of_nodup_map h.ids hz hy hzy]
  · intro hzy
    rw [List.inj_on_of_nodup_map h.keys hz hy hzy]

/-- A value under a new key has a new id. -/
theorem fits_of_new (hid : id x ∉ xs.map id) (hkey : key x ∉ xs.map key) :
    Fits id key x xs := by
  intro y hy
  constructor
  · intro heq
    exact absurd (heq ▸ List.mem_map_of_mem hy) hid
  · intro heq
    exact absurd (heq ▸ List.mem_map_of_mem hy) hkey

theorem Fits.filter (h : Fits id key x xs) (p : α → Bool) : Fits id key x (xs.filter p) :=
  fun y hy => h y (List.mem_of_mem_filter hy)

theorem Fits.mem_ids_iff (h : Fits id key x xs) : id x ∈ xs.map id ↔ key x ∈ xs.map key := by
  simp only [List.mem_map]
  constructor
  · rintro ⟨y, hy, hid⟩
    exact ⟨y, hy, (h y hy).mp hid⟩
  · rintro ⟨y, hy, hkey⟩
    exact ⟨y, hy, (h y hy).mpr hkey⟩

/-! ## What is there afterwards -/

section Set

variable [DecidableEq ι]

theorem mem_setById {y : α} : y ∈ setById id x xs ↔ y = x ∨ y ∈ xs ∧ id y ≠ id x := by
  unfold setById
  split
  case isTrue h =>
    rcases List.mem_map.mp h with ⟨z, hz, hid⟩
    rw [mem_rewriteWhere]
    constructor
    · rintro ⟨w, hw, rfl⟩
      by_cases hwx : id w = id x
      · simp [hwx]
      · simp [hwx, hw]
    · rintro (rfl | ⟨hy, hne⟩)
      · exact ⟨z, hz, by simp [hid]⟩
      · exact ⟨y, hy, by simp [hne]⟩
  case isFalse h =>
    rw [List.mem_append, List.mem_singleton, or_comm]
    refine or_congr_right (and_iff_left_of_imp fun hy heq => ?_).symm
    exact h (heq ▸ List.mem_map_of_mem hy)

theorem setById_ne_nil (id : α → ι) (x : α) (xs : List α) : setById id x xs ≠ [] :=
  List.ne_nil_of_mem (mem_setById.mpr (Or.inl rfl))

/-- What the id decides: it stays where it is, and comes last for a value under a new id. -/
theorem map_setById {f : α → β} (hf : ∀ y ∈ xs, id y = id x → f y = f x) :
    (setById id x xs).map f = if id x ∈ xs.map id then xs.map f else xs.map f ++ [f x] := by
  unfold setById
  split
  case isTrue h =>
    rw [rewriteWhere, List.map_map]
    refine List.map_congr_left fun y hy => ?_
    by_cases hyx : id y = id x
    · simp [hyx, hf y hy hyx]
    · simp [hyx]
  case isFalse h => rw [List.map_append, List.map_singleton]

/-- Nothing that the id decides is lost or moved. -/
theorem prefix_setById {f : α → β} (hf : ∀ y ∈ xs, id y = id x → f y = f x) :
    xs.map f <+: (setById id x xs).map f := by
  rw [map_setById hf]
  split
  · exact List.prefix_refl _
  · exact List.prefix_append _ _

theorem Unambiguous.setById (h : Unambiguous id key xs) (hx : Fits id key x xs) :
    Unambiguous id key (Foundation.setById id x xs) where
  ids := by
    rw [map_setById fun y _ hid => hid]
    split
    case isTrue => exact h.ids
    case isFalse hnew =>
      exact h.ids.append (List.nodup_singleton _) (List.disjoint_singleton.mpr hnew)
  keys := by
    rw [map_setById fun y hy hid => (hx y hy).mp hid]
    split
    case isTrue => exact h.keys
    case isFalse hnew =>
      rw [hx.mem_ids_iff] at hnew
      exact h.keys.append (List.nodup_singleton _) (List.disjoint_singleton.mpr hnew)

/-- What is seen through a filter on the keys. -/
theorem filter_setById {p : κ → Bool} (hx : Fits id key x xs) :
    (setById id x xs).filter (fun y => p (key y)) =
      if p (key x) then setById id x (xs.filter fun y => p (key y))
      else xs.filter fun y => p (key y) := by
  have hids : id x ∈ (xs.filter fun y => p (key y)).map id ↔
      id x ∈ xs.map id ∧ p (key x) = true := by
    simp only [List.mem_map, List.mem_filter]
    constructor
    · rintro ⟨y, ⟨hy, hpy⟩, hid⟩
      exact ⟨⟨y, hy, hid⟩, (hx y hy).mp hid ▸ hpy⟩
    · rintro ⟨⟨y, hy, hid⟩, hpx⟩
      exact ⟨y, ⟨hy, (hx y hy).mp hid ▸ hpx⟩, hid⟩
  unfold setById
  by_cases hmem : id x ∈ xs.map id
  · rw [if_pos hmem]
    have hkept : ∀ y ∈ xs, p (key (if id y == id x then x else y)) = p (key y) := by
      intro y hy
      by_cases hyx : id y = id x
      · simp [hyx, (hx y hy).mp hyx]
      · simp [hyx]
    have hcommute : (rewriteWhere (fun y => id y == id x) (fun _ => x) xs).filter
          (fun y => p (key y)) =
        rewriteWhere (fun y => id y == id x) (fun _ => x) (xs.filter fun y => p (key y)) := by
      rw [rewriteWhere, List.filter_map]
      exact congrArg _ (List.filter_congr hkept)
    rw [hcommute]
    by_cases hpx : p (key x) = true
    · rw [if_pos hpx, if_pos (hids.mpr ⟨hmem, hpx⟩)]
    · rw [if_neg hpx]
      refine rewriteWhere_of_none fun y hy => ?_
      rcases List.mem_filter.mp hy with ⟨hy, hpy⟩
      refine beq_eq_false_iff_ne.mpr fun heq => hpx ?_
      rwa [← (hx y hy).mp heq]
  · rw [if_neg hmem, List.filter_append]
    by_cases hpx : p (key x) = true
    · rw [if_pos hpx, if_neg fun h => hmem (hids.mp h).1]
      simp [hpx]
    · simp [hpx]

/-- A key finds the value that was set under it, and otherwise what it found before. -/
theorem find_setById [BEq κ] [LawfulBEq κ] (h : Unambiguous id key xs) (hx : Fits id key x xs)
    (k : κ) :
    (setById id x xs).find? (fun y => key y == k) =
      if key x == k then some x else xs.find? fun y => key y == k := by
  have hafter := h.setById hx
  ext y
  rw [find?_iff_of_unique fun a ha b hb hak hbk => List.inj_on_of_nodup_map hafter.keys ha hb
    ((beq_iff_eq.mp hak).trans (beq_iff_eq.mp hbk).symm), mem_setById, beq_iff_eq]
  split
  case isTrue hk =>
    rw [beq_iff_eq] at hk
    rw [Option.some.injEq]
    constructor
    · rintro ⟨rfl | ⟨hy, hne⟩, hyk⟩
      · rfl
      · exact absurd ((hx y hy).mpr (hyk.trans hk.symm)) hne
    · rintro rfl
      exact ⟨Or.inl rfl, hk⟩
  case isFalse hk =>
    rw [beq_iff_eq] at hk
    rw [find?_iff_of_unique fun a ha b hb hak hbk => List.inj_on_of_nodup_map h.keys ha hb
      ((beq_iff_eq.mp hak).trans (beq_iff_eq.mp hbk).symm), beq_iff_eq]
    constructor
    · rintro ⟨rfl | ⟨hy, _⟩, hyk⟩
      · exact absurd hyk hk
      · exact ⟨hy, hyk⟩
    · rintro ⟨hy, hyk⟩
      exact ⟨Or.inr ⟨hy, fun hid => hk (((hx y hy).mp hid).symm.trans hyk)⟩, hyk⟩

end Set

end Foundation
end Eleva
