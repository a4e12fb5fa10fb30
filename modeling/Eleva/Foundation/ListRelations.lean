import Mathlib.Data.List.Forall2

/-!
# Foundation - Lists related entry by entry

Rules for two lists whose entries correspond one by one, as the lines of a request
and the rows stored for them do.

Main results:

- Theorems {lit}`exists_of_mem_right` and {lit}`exists_of_mem_left`: the partner of an
  entry.
- Theorem {lit}`forall₂_trans`: relations compose along a middle list.
- Theorem {lit}`map_eq_map_of_forall₂`: related entries with equal images.
- Theorem {lit}`mem_exchange`: exchanging the visible entries of a list leaves the desired ones
  among the visible.
-/

namespace Eleva
namespace Foundation

variable {α β γ : Type} {R : α → β → Prop} {xs : List α} {ys : List β}

/-- The partner in the left list of an entry of the right one. -/
theorem exists_of_mem_right (h : List.Forall₂ R xs ys) {y : β} (hy : y ∈ ys) :
    ∃ x ∈ xs, R x y := by
  induction h with
  | nil => cases hy
  | cons hhead _ ih =>
      rcases List.mem_cons.mp hy with rfl | htail
      · exact ⟨_, List.mem_cons_self, hhead⟩
      · rcases ih htail with ⟨x, hx, hxy⟩
        exact ⟨x, List.mem_cons_of_mem _ hx, hxy⟩

/-- The partner in the right list of an entry of the left one. -/
theorem exists_of_mem_left (h : List.Forall₂ R xs ys) {x : α} (hx : x ∈ xs) :
    ∃ y ∈ ys, R x y := by
  have hflip : List.Forall₂ (flip R) ys xs := h.flip
  exact exists_of_mem_right hflip hx

/-- Relations that compose entry by entry compose on lists. -/
theorem forall₂_trans {S : β → γ → Prop} {Q : α → γ → Prop} {zs : List γ}
    (hxy : List.Forall₂ R xs ys) (hyz : List.Forall₂ S ys zs)
    (hcomp : ∀ x y z, R x y → S y z → Q x z) : List.Forall₂ Q xs zs := by
  induction hxy generalizing zs with
  | nil =>
      cases hyz
      exact .nil
  | cons hhead _ ih =>
      cases hyz with
      | cons hhead' htail' => exact .cons (hcomp _ _ _ hhead hhead') (ih htail')

/-- Related lists have equal images under functions that agree on related entries. -/
theorem map_eq_map_of_forall₂ {f : α → γ} {g : β → γ} (h : List.Forall₂ R xs ys)
    (hfg : ∀ x y, R x y → f x = g y) : xs.map f = ys.map g := by
  induction h with
  | nil => rfl
  | cons hhead _ ih => rw [List.map_cons, List.map_cons, hfg _ _ hhead, ih]

/-- Take entries that are not desired out of a list and add desired ones; {lit}`current` are the
entries that it is known to have. -/
def exchange [DecidableEq α] (current desired links : List α) : List α :=
  links.filter (fun x => !(current.filter fun y => !desired.contains y).contains x) ++
    desired.filter fun x => !current.contains x

/-- Where the visible entries of a list are known, and the desired ones that are known are in
the list, an exchange leaves the desired entries among the visible ones. -/
theorem mem_exchange [DecidableEq α] {P : α → Prop} {current desired links : List α}
    (hvisible : ∀ x ∈ links, P x → x ∈ current)
    (hknown : ∀ x ∈ desired, x ∈ current → x ∈ links) {x : α} (hx : P x) :
    x ∈ exchange current desired links ↔ x ∈ desired := by
  simp only [exchange, List.mem_append, List.mem_filter, Bool.not_eq_true', List.contains_eq_mem,
    decide_eq_false_iff_not, not_and, not_not]
  constructor
  · rintro (⟨hlink, hkept⟩ | ⟨hdesired, _⟩)
    · exact hkept (hvisible x hlink hx)
    · exact hdesired
  · intro hdesired
    by_cases hcurrent : x ∈ current
    · exact Or.inl ⟨hknown x hdesired hcurrent, fun _ => hdesired⟩
    · exact Or.inr ⟨hdesired, hcurrent⟩

end Foundation
end Eleva
