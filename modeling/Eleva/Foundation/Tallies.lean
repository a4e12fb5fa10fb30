import Mathlib.Algebra.BigOperators.Group.List.Basic

/-!
# Foundation - Tallies

Totals under keys: each entry adds its amount under its key, and a new key comes last.  Whatever
set of keys is summed over, the totals sum to what the entries sum to.

Main results:

- Theorem {lit}`Tally.sumOver_tally`: totals and entries have the same sums.
- Theorems {lit}`Tally.nodup_tally` and {lit}`Tally.mem_keys_tally`: the keys of the totals.
-/

namespace Eleva
namespace Foundation
namespace Tally

variable {κ M : Type} [AddCommMonoid M]

/-- The sum of what stands under some keys. -/
def sumOver (p : κ → Bool) (entries : List (κ × M)) : M :=
  ((entries.filter fun entry => p entry.1).map Prod.snd).sum

@[simp]
theorem sumOver_nil (p : κ → Bool) : sumOver p ([] : List (κ × M)) = 0 := by
  simp [sumOver]

@[simp]
theorem sumOver_cons (p : κ → Bool) (key : κ) (amount : M) (entries : List (κ × M)) :
    sumOver p ((key, amount) :: entries) =
      (if p key then amount else 0) + sumOver p entries := by
  cases hkey : p key <;> simp [sumOver, hkey]

/-- Items that make two entries each. -/
theorem sumOver_pairs {α : Type} (p : κ → Bool) (first second : α → κ) (amount : α → M)
    (items : List α) :
    sumOver p (items.flatMap fun a => [(first a, amount a), (second a, amount a)]) =
      (items.map fun a => (if p (first a) then amount a else 0) +
        if p (second a) then amount a else 0).sum := by
  induction items with
  | nil => simp
  | cons a items ih =>
      rw [List.flatMap_cons, List.cons_append, List.cons_append, List.nil_append, sumOver_cons,
        sumOver_cons, ih, List.map_cons, List.sum_cons, add_assoc]

variable [DecidableEq κ]

/-- Add an amount under a key. -/
def add (key : κ) (amount : M) : List (κ × M) → List (κ × M)
  | [] => [(key, amount)]
  | (other, total) :: rest =>
      if other = key then (other, total + amount) :: rest
      else (other, total) :: add key amount rest

/-- The totals of entries. -/
def tally (entries : List (κ × M)) : List (κ × M) :=
  entries.foldl (fun totals entry => add entry.1 entry.2 totals) []

section Sums

variable (p : κ → Bool)

/-- An amount counts where its key is summed over. -/
theorem sumOver_add (key : κ) (amount : M) (totals : List (κ × M)) :
    sumOver p (add key amount totals) = sumOver p totals + if p key then amount else 0 := by
  induction totals with
  | nil => simp [add]
  | cons entry rest ih =>
      rcases entry with ⟨other, total⟩
      by_cases hsame : other = key
      · subst hsame
        cases hkey : p other
        · simp [add, hkey]
        · simp [add, hkey, add_right_comm]
      · simp [add, hsame, ih, add_assoc]

/-- Totals and entries have the same sums. -/
theorem sumOver_tally (entries : List (κ × M)) : sumOver p (tally entries) = sumOver p entries := by
  have hfold : ∀ (entries totals : List (κ × M)),
      sumOver p (entries.foldl (fun totals entry => add entry.1 entry.2 totals) totals) =
        sumOver p totals + sumOver p entries := by
    intro entries
    induction entries with
    | nil => simp
    | cons entry entries ih =>
        intro totals
        rcases entry with ⟨key, amount⟩
        rw [List.foldl_cons, ih, sumOver_add, sumOver_cons, add_assoc]
  have hempty := hfold entries []
  rw [sumOver_nil, zero_add] at hempty
  exact hempty

end Sums

/-! ## Keys -/

theorem mem_keys_add {key other : κ} {amount : M} {totals : List (κ × M)} :
    other ∈ (add key amount totals).map Prod.fst ↔ other = key ∨ other ∈ totals.map Prod.fst := by
  induction totals with
  | nil => simp [add]
  | cons entry rest ih =>
      rcases entry with ⟨first, total⟩
      by_cases hsame : first = key
      · simp [add, hsame]
      · simp only [add, hsame, if_false, List.map_cons, List.mem_cons, ih]
        exact or_left_comm

theorem nodup_add {key : κ} {amount : M} {totals : List (κ × M)}
    (h : (totals.map Prod.fst).Nodup) : ((add key amount totals).map Prod.fst).Nodup := by
  induction totals with
  | nil => simp [add]
  | cons entry rest ih =>
      rcases entry with ⟨first, total⟩
      rcases List.nodup_cons.mp h with ⟨hnew, hrest⟩
      by_cases hsame : first = key
      · simp only [add, hsame, if_true]
        rw [hsame] at hnew
        exact List.nodup_cons.mpr ⟨hnew, hrest⟩
      · simp only [add, hsame, if_false]
        refine List.nodup_cons.mpr ⟨fun hmem => ?_, ih hrest⟩
        rcases mem_keys_add.mp hmem with heq | hold
        · exact hsame heq
        · exact hnew hold

/-- Each key has one total. -/
theorem nodup_tally (entries : List (κ × M)) : ((tally entries).map Prod.fst).Nodup := by
  have hfold : ∀ (entries totals : List (κ × M)), (totals.map Prod.fst).Nodup →
      ((entries.foldl (fun totals entry => add entry.1 entry.2 totals) totals).map
        Prod.fst).Nodup := by
    intro entries
    induction entries with
    | nil => exact fun _ h => h
    | cons entry entries ih => exact fun totals h => ih _ (nodup_add h)
  exact hfold entries [] List.nodup_nil

/-- The keys of the totals are those of the entries. -/
theorem mem_keys_tally {key : κ} {entries : List (κ × M)} :
    key ∈ (tally entries).map Prod.fst ↔ key ∈ entries.map Prod.fst := by
  have hfold : ∀ (entries totals : List (κ × M)),
      key ∈ (entries.foldl (fun totals entry => add entry.1 entry.2 totals) totals).map Prod.fst ↔
        key ∈ totals.map Prod.fst ∨ key ∈ entries.map Prod.fst := by
    intro entries
    induction entries with
    | nil => simp
    | cons entry entries ih =>
        intro totals
        rw [List.foldl_cons, ih, mem_keys_add, List.map_cons, List.mem_cons]
        exact or_assoc.trans or_left_comm
  have hempty := hfold entries []
  simp only [List.map_nil, List.not_mem_nil, false_or] at hempty
  exact hempty

end Tally
end Foundation
end Eleva
