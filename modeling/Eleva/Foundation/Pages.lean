import Eleva.Foundation.Fallible

/-!
# Foundation - Reading page after page

A reader asks for the page at an offset, then for the one a page size further, and stops with the
first page that is shorter.

Main results:

- Definition {lit}`ReadsPages`: the reading, and what it has read.
- Theorem {lit}`readsPages_iff`: where the pages are windows on one list, a reading ends, and it has
  read the list.
-/

namespace Eleva
namespace Foundation

variable {σ ε α : Type}

/-- The pages of a size, read from an offset on until one is shorter, one after the other. -/
inductive ReadsPages (read : ℕ → Fallible σ ε (List α)) (size : ℕ) :
    ℕ → σ → List α → σ → Prop
  | last {offset : ℕ} {s s' : σ} {page : List α} (found : read offset s = (.ok page, s'))
      (short : page.length < size) : ReadsPages read size offset s page s'
  | next {offset : ℕ} {s s' s'' : σ} {page rest : List α}
      (found : read offset s = (.ok page, s')) (full : size ≤ page.length)
      (following : ReadsPages read size (offset + size) s' rest s'') :
      ReadsPages read size offset s (page ++ rest) s''

/-- A page, and what comes after it. -/
theorem window_append (xs : List α) (offset size : ℕ) :
    (xs.drop offset).take size ++ xs.drop (offset + size) = xs.drop offset := by
  rw [← List.drop_drop, List.take_append_drop]

section Windows

variable {read : ℕ → Fallible σ ε (List α)} {size offset : ℕ} {s s' : σ} {xs ys : List α}
  (hread : ∀ offset, read offset s = (.ok ((xs.drop offset).take size), s))

include hread

/-- A reading has read what follows its offset. -/
theorem ReadsPages.eq_drop (h : ReadsPages read size offset s ys s') :
    ys = xs.drop offset ∧ s' = s := by
  induction h with
  | last found short =>
      cases (hread _).symm.trans found
      rw [List.length_take] at short
      exact ⟨List.take_of_length_le (by omega), rfl⟩
  | next found full following ih =>
      cases (hread _).symm.trans found
      rcases ih hread with ⟨hrest, hstate⟩
      refine ⟨?_, hstate⟩
      rw [hrest, window_append]

/-- A reading ends: each full page lowers what is left. -/
theorem readsPages_drop (hsize : 0 < size) : ReadsPages read size offset s (xs.drop offset) s := by
  induction hleft : xs.length - offset using Nat.strongRecOn generalizing offset with
  | ind left ih =>
      by_cases hshort : ((xs.drop offset).take size).length < size
      · have hpage : (xs.drop offset).take size = xs.drop offset := by
          rw [List.length_take] at hshort
          exact List.take_of_length_le (by omega)
        have hlast := ReadsPages.last (hread offset) hshort
        rwa [hpage] at hlast
      · have hfull : size ≤ ((xs.drop offset).take size).length := Nat.le_of_not_lt hshort
        have hmore : size ≤ xs.length - offset := by
          rw [List.length_take, List.length_drop] at hfull
          omega
        have hnext := ReadsPages.next (hread offset) hfull
          (ih (xs.length - (offset + size)) (by omega) rfl)
        rwa [window_append] at hnext

/-- Where the pages are windows on one list, a reading from the start has read the list. -/
theorem readsPages_iff (hsize : 0 < size) :
    ReadsPages read size 0 s ys s' ↔ ys = xs ∧ s' = s := by
  constructor
  · intro h
    exact h.eq_drop hread
  · rintro ⟨rfl, rfl⟩
    exact readsPages_drop hread hsize

end Windows

end Foundation
end Eleva
