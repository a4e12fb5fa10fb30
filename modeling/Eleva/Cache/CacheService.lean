import Eleva.Foundation.ExpiringStore

/-!
# Cache - The cache service

Redis as the application sees it while the client is online: values under keys with
an expiry in seconds, and the fallback values that reads which missed have sent back
and that have not landed yet.  The clock counts milliseconds.

Main results:

- Definitions {lit}`CacheState.get`, {lit}`CacheState.set`, {lit}`CacheState.setStrict` and
  {lit}`CacheState.del`: the operations of the service.
- Theorem {lit}`CacheState.land_entry`: the only thing that a write-back changes.
-/

namespace Eleva

open Foundation

namespace Cache

/-- A fallback value on its way back to Redis. -/
structure WriteBack (κ V : Type) where
  key : κ
  value : V
  ttlSeconds : ℕ
deriving DecidableEq, Repr

/-- Redis, and the fallback values that have been sent and have not landed. -/
structure CacheState (κ V : Type) where
  redis : ExpiringStore κ V
  pending : List (WriteBack κ V) := []

namespace CacheState

variable {κ V : Type}

/-! ## Reads -/

/-- Send a fallback value back to the cache without waiting for it. -/
def writeBack (s : CacheState κ V) (w : WriteBack κ V) : CacheState κ V :=
  { s with pending := s.pending ++ [w] }

/-- Cache-aside read with a fallback value that is known: a miss hands out the fallback
and sends it back. -/
def get (s : CacheState κ V) (key : κ) (fallback : V) (ttlSeconds : ℕ) :
    V × CacheState κ V :=
  match s.redis.read key with
  | some value => (value, s)
  | none => (fallback, s.writeBack { key, value := fallback, ttlSeconds })

/-- Let time pass. -/
def advance (s : CacheState κ V) (elapsed : ℕ) : CacheState κ V :=
  { s with redis := s.redis.advance elapsed }

@[simp]
theorem advance_now (s : CacheState κ V) (elapsed : ℕ) :
    (s.advance elapsed).redis.now = s.redis.now + elapsed :=
  rfl

@[simp]
theorem advance_entry (s : CacheState κ V) (elapsed : ℕ) (key : κ) :
    (s.advance elapsed).redis.entry key = s.redis.entry key :=
  rfl

@[simp]
theorem advance_pending (s : CacheState κ V) (elapsed : ℕ) :
    (s.advance elapsed).pending = s.pending :=
  rfl

@[simp]
theorem writeBack_redis (s : CacheState κ V) (w : WriteBack κ V) :
    (s.writeBack w).redis = s.redis :=
  rfl

@[simp]
theorem get_redis (s : CacheState κ V) (key : κ) (fallback : V) (ttlSeconds : ℕ) :
    (s.get key fallback ttlSeconds).2.redis = s.redis := by
  unfold get
  split <;> rfl

/-- A read sends back at most the fallback for its own key. -/
theorem get_pending {s : CacheState κ V} {key : κ} {fallback : V} {ttlSeconds : ℕ}
    {w : WriteBack κ V} (hw : w ∈ (s.get key fallback ttlSeconds).2.pending) :
    w ∈ s.pending ∨ s.redis.read key = none ∧ w = { key, value := fallback, ttlSeconds } := by
  unfold get at hw
  cases hread : s.redis.read key with
  | some value =>
      rw [hread] at hw
      exact Or.inl hw
  | none =>
      rw [hread] at hw
      rcases List.mem_append.mp hw with hw | hw
      · exact Or.inl hw
      · exact Or.inr ⟨rfl, List.mem_singleton.mp hw⟩

/-- What a read hands out. -/
theorem get_value (s : CacheState κ V) (key : κ) (fallback : V) (ttlSeconds : ℕ) :
    (s.get key fallback ttlSeconds).1 = (s.redis.read key).getD fallback := by
  unfold get
  cases s.redis.read key <;> rfl

variable [DecidableEq κ]

/-! ## Writes -/

/-- {lit}`SET key value EX ttlSeconds`; Redis refuses an expiry of zero seconds. -/
def setEx (s : CacheState κ V) (key : κ) (value : V) (ttlSeconds : ℕ) : CacheState κ V :=
  if ttlSeconds = 0 then s
  else { s with redis := s.redis.write key value (1000 * ttlSeconds) }

/-- Best-effort write: an error is logged and the call returns as if it succeeded. -/
def set (s : CacheState κ V) (key : κ) (value : V) (ttlSeconds : ℕ) : CacheState κ V :=
  s.setEx key value ttlSeconds

/-- Durable write: reports whether the value was persisted. -/
def setStrict (s : CacheState κ V) (key : κ) (value : V) (ttlSeconds : ℕ) :
    Bool × CacheState κ V :=
  (ttlSeconds != 0, s.setEx key value ttlSeconds)

/-- Remove a key. -/
def del (s : CacheState κ V) (key : κ) : CacheState κ V :=
  { s with redis := s.redis.delete key }

/-- One of the values that were sent back lands. -/
def land (s : CacheState κ V) (slot : ℕ) : CacheState κ V :=
  match s.pending[slot]? with
  | none => s
  | some w =>
      { s.setEx w.key w.value w.ttlSeconds with pending := s.pending.eraseIdx slot }

/-! ## What the operations leave alone -/

@[simp]
theorem setEx_pending (s : CacheState κ V) (key : κ) (value : V) (ttlSeconds : ℕ) :
    (s.setEx key value ttlSeconds).pending = s.pending := by
  unfold setEx
  split <;> rfl

@[simp]
theorem setEx_now (s : CacheState κ V) (key : κ) (value : V) (ttlSeconds : ℕ) :
    (s.setEx key value ttlSeconds).redis.now = s.redis.now := by
  unfold setEx
  split <;> rfl

@[simp]
theorem del_pending (s : CacheState κ V) (key : κ) : (s.del key).pending = s.pending :=
  rfl

@[simp]
theorem del_now (s : CacheState κ V) (key : κ) : (s.del key).redis.now = s.redis.now :=
  rfl

@[simp]
theorem land_now (s : CacheState κ V) (slot : ℕ) :
    (s.land slot).redis.now = s.redis.now := by
  unfold land
  split
  · rfl
  · exact setEx_now ..

/-! ## What they write -/

theorem setEx_entry_self (s : CacheState κ V) (key : κ) (value : V) {ttlSeconds : ℕ}
    (httl : ttlSeconds ≠ 0) :
    (s.setEx key value ttlSeconds).redis.entry key =
      some (value, s.redis.now + 1000 * ttlSeconds) := by
  unfold setEx
  rw [if_neg httl]
  exact ExpiringStore.write_entry_self ..

theorem setEx_entry_of_ne (s : CacheState κ V) {key key' : κ} (hne : key' ≠ key) (value : V)
    (ttlSeconds : ℕ) :
    (s.setEx key value ttlSeconds).redis.entry key' = s.redis.entry key' := by
  unfold setEx
  split
  · rfl
  · exact ExpiringStore.write_entry_of_ne _ hne _ _

theorem del_entry_of_ne (s : CacheState κ V) {key key' : κ} (hne : key' ≠ key) :
    (s.del key).redis.entry key' = s.redis.entry key' :=
  ExpiringStore.delete_entry_of_ne _ hne

/-- The entry that a landing value makes of a key, if it is sent to that key. -/
def landing (s : CacheState κ V) (slot : ℕ) (key : κ) : Option (V × ℕ) :=
  (s.pending[slot]?).bind fun w =>
    if w.key = key ∧ w.ttlSeconds ≠ 0 then
      some (w.value, s.redis.now + 1000 * w.ttlSeconds)
    else none

/-- A landing value replaces the entry of its key and no other. -/
theorem land_entry (s : CacheState κ V) (slot : ℕ) (key : κ) :
    (s.land slot).redis.entry key = (s.landing slot key).or (s.redis.entry key) := by
  unfold land landing
  cases hslot : s.pending[slot]? with
  | none => rfl
  | some w =>
      simp only [Option.bind_some]
      by_cases hkey : w.key = key
      · subst hkey
        by_cases httl : w.ttlSeconds = 0
        · simp [setEx, httl]
        · simp [setEx_entry_self s w.key w.value httl, httl]
      · simp [setEx_entry_of_ne s (Ne.symm hkey) w.value w.ttlSeconds, hkey]

/-- What lands is taken from what was sent. -/
theorem land_pending_subset (s : CacheState κ V) (slot : ℕ) {w : WriteBack κ V}
    (hw : w ∈ (s.land slot).pending) : w ∈ s.pending := by
  unfold land at hw
  split at hw
  · exact hw
  · exact List.mem_of_mem_eraseIdx hw

/-- With nothing under way nothing lands. -/
theorem land_of_pending_nil {s : CacheState κ V} (hpending : s.pending = []) (slot : ℕ) :
    s.land slot = s := by
  unfold land
  simp [hpending]

/-- A read whose fallback is the only value under way, and lands: nothing is under way after it,
and its entries are the old ones and perhaps the fallback. -/
theorem get_advance_land {s : CacheState κ V} (hpending : s.pending = []) (key : κ)
    (fallback : V) (ttlSeconds elapsed : ℕ) :
    (((s.get key fallback ttlSeconds).2.advance elapsed).land 0).pending = [] ∧
      ∀ key' value deadline,
        (((s.get key fallback ttlSeconds).2.advance elapsed).land 0).redis.entry key' =
            some (value, deadline) →
          s.redis.entry key' = some (value, deadline) ∨
            (key' = key ∧ value = fallback ∧
              deadline = s.redis.now + elapsed + 1000 * ttlSeconds) := by
  cases hread : s.redis.read key with
  | some found =>
      have hget : (s.get key fallback ttlSeconds).2 = s := by
        unfold get
        rw [hread]
      rw [hget, land_of_pending_nil (by simpa using hpending)]
      exact ⟨hpending, fun _ _ _ hentry => Or.inl hentry⟩
  | none =>
      have hget : (s.get key fallback ttlSeconds).2 =
          { s with pending := [{ key, value := fallback, ttlSeconds }] } := by
        unfold get
        rw [hread]
        simp [writeBack, hpending]
      rw [hget]
      refine ⟨rfl, fun key' value deadline hentry => ?_⟩
      rw [land_entry] at hentry
      unfold landing at hentry
      simp only [advance_pending, List.getElem?_cons_zero, Option.bind_some, advance_now] at hentry
      split at hentry
      · next hkey =>
          cases hentry
          exact Or.inr ⟨hkey.1.symm, rfl, rfl⟩
      · exact Or.inl hentry

end CacheState

end Cache
end Eleva
