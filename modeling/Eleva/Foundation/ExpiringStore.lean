import Mathlib.Logic.Function.Basic
import Mathlib.Data.List.Basic

/-!
# Foundation - Stores whose entries end

A store keeps one value under a key until the moment that was fixed when the value
was written.  A read at or after that moment finds nothing.  The clock is part of
the store and only moves forward.

Main results:

- Theorem {lit}`ExpiringStore.read_of_entry`: what a read finds, from the entry alone.
- Theorem {lit}`ExpiringStore.read_advance_of_none`: time does not bring values back.
-/

namespace Eleva
namespace Foundation

/-- Values under keys, each with the moment from which it is gone, and the clock. -/
structure ExpiringStore (κ V : Type) where
  now : ℕ
  entry : κ → Option (V × ℕ)

namespace ExpiringStore

variable {κ V : Type}

/-- The value under a key, while its time is not over. -/
def read (s : ExpiringStore κ V) (k : κ) : Option V :=
  (s.entry k).bind fun e => if s.now < e.2 then some e.1 else none

/-- Let time pass. -/
def advance (s : ExpiringStore κ V) (d : ℕ) : ExpiringStore κ V :=
  { s with now := s.now + d }

@[simp]
theorem advance_now (s : ExpiringStore κ V) (d : ℕ) : (s.advance d).now = s.now + d :=
  rfl

@[simp]
theorem advance_entry (s : ExpiringStore κ V) (d : ℕ) (k : κ) :
    (s.advance d).entry k = s.entry k :=
  rfl

/-- What a read finds depends on the entry and the clock only. -/
theorem read_of_entry {s : ExpiringStore κ V} {k : κ} {v : V} {t : ℕ}
    (hentry : s.entry k = some (v, t)) :
    s.read k = if s.now < t then some v else none := by
  unfold read
  rw [hentry]
  rfl

theorem read_of_no_entry {s : ExpiringStore κ V} {k : κ} (hentry : s.entry k = none) :
    s.read k = none := by
  unfold read
  rw [hentry]
  rfl

/-- A value that is read has an entry whose time is not over. -/
theorem read_eq_some {s : ExpiringStore κ V} {k : κ} {v : V} :
    s.read k = some v ↔ ∃ t, s.entry k = some (v, t) ∧ s.now < t := by
  constructor
  · intro hread
    cases hentry : s.entry k with
    | none =>
        rw [read_of_no_entry hentry] at hread
        cases hread
    | some e =>
        rcases e with ⟨u, t⟩
        rw [read_of_entry hentry] at hread
        split at hread <;> rename_i hlive
        · cases hread
          exact ⟨t, rfl, hlive⟩
        · cases hread
  · rintro ⟨t, hentry, hlive⟩
    rw [read_of_entry hentry, if_pos hlive]

/-- Time does not bring a value back. -/
theorem read_advance_of_none {s : ExpiringStore κ V} {k : κ} (hread : s.read k = none)
    (d : ℕ) : (s.advance d).read k = none := by
  cases hentry : s.entry k with
  | none => exact read_of_no_entry hentry
  | some e =>
      rcases e with ⟨v, t⟩
      have hdead : ¬s.now < t := by
        intro hlive
        rw [read_of_entry hentry, if_pos hlive] at hread
        cases hread
      have hentry' : (s.advance d).entry k = some (v, t) := hentry
      rw [read_of_entry hentry', if_neg (by simp only [advance_now]; omega)]

/-- What is found after some time was there before. -/
theorem read_of_read_advance {s : ExpiringStore κ V} {k : κ} {v : V} {d : ℕ}
    (hread : (s.advance d).read k = some v) : s.read k = some v := by
  rcases read_eq_some.mp hread with ⟨t, hentry, hlive⟩
  refine read_eq_some.mpr ⟨t, hentry, ?_⟩
  rw [advance_now] at hlive
  omega

variable [DecidableEq κ]

/-- Put a value under a key for {lit}`ttl` units of time. -/
def write (s : ExpiringStore κ V) (k : κ) (v : V) (ttl : ℕ) : ExpiringStore κ V :=
  { s with entry := Function.update s.entry k (some (v, s.now + ttl)) }

/-- Remove what is under a key. -/
def delete (s : ExpiringStore κ V) (k : κ) : ExpiringStore κ V :=
  { s with entry := Function.update s.entry k none }

@[simp]
theorem write_now (s : ExpiringStore κ V) (k : κ) (v : V) (ttl : ℕ) :
    (s.write k v ttl).now = s.now :=
  rfl

@[simp]
theorem delete_now (s : ExpiringStore κ V) (k : κ) : (s.delete k).now = s.now :=
  rfl

@[simp]
theorem write_entry_self (s : ExpiringStore κ V) (k : κ) (v : V) (ttl : ℕ) :
    (s.write k v ttl).entry k = some (v, s.now + ttl) := by
  simp [write]

@[simp]
theorem delete_entry_self (s : ExpiringStore κ V) (k : κ) : (s.delete k).entry k = none := by
  simp [delete]

theorem write_entry_of_ne (s : ExpiringStore κ V) {k k' : κ} (hne : k' ≠ k) (v : V)
    (ttl : ℕ) : (s.write k v ttl).entry k' = s.entry k' := by
  simp [write, Function.update_of_ne hne]

theorem delete_entry_of_ne (s : ExpiringStore κ V) {k k' : κ} (hne : k' ≠ k) :
    (s.delete k).entry k' = s.entry k' := by
  simp [delete, Function.update_of_ne hne]

end ExpiringStore

end Foundation
end Eleva
