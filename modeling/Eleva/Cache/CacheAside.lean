import Mathlib.Data.Nat.Basic
import Eleva.Foundation.Interleaving
import Eleva.Cache.CacheService

/-!
# Cache - Concurrent cache-aside calls

Any number of calls of the cache service on one Redis.  A read that misses computes
its fallback in a later step, hands it out and sends it back; what was sent back lands
whenever the connection delivers it.

Main results:

- Theorem {lit}`cacheCalls_entry`: between two explicit writes of a key, its entry
  changes only when a fallback lands on it.
- Theorem {lit}`get_after_set_iff`: exactly when a read that starts after a completed
  write, in its time to live, returns the written value.
- Theorem {lit}`writeBack_undoes_revocation`: a run in which it does not.
-/

namespace Eleva

open Foundation

namespace Cache

/-- A call of the service. -/
inductive CacheCall (κ V : Type) where
  | get (key : κ) (ttlSeconds : ℕ)
  | set (key : κ) (value : V) (ttlSeconds : ℕ)
  | setStrict (key : κ) (value : V) (ttlSeconds : ℕ)
  | del (key : κ)
deriving DecidableEq, Repr

/-- How far a call has come. -/
inductive CachePhase (V : Type) where
  | start
  | missed
  | refetching
  | returned (value : V)
  | persisted (ok : Bool)
  | done
  | failed
deriving DecidableEq, Repr

/-- What the surroundings add to a step: the time since the last one, what the fallback
function answers ({lit}`none` when it throws), and which sent value lands. -/
structure Moment (V : Type) where
  elapsed : ℕ := 0
  fetched : Option V := none
  slot : ℕ := 0
deriving DecidableEq, Repr

/-- What a read has returned. -/
def CachePhase.result {V : Type} : CachePhase V → Option V
  | .returned value => some value
  | _ => none

variable {ι κ V : Type} [DecidableEq ι] [DecidableEq κ]

/-- The key that a call writes by itself. -/
def CacheCall.writtenKey : CacheCall κ V → Option κ
  | .get _ _ => none
  | .set key _ _ => some key
  | .setStrict key _ _ => some key
  | .del key => some key

/-- The next step of a call. -/
def callStep (call : CacheCall κ V) (fetched : Option V) (s : CacheState κ V) :
    CachePhase V → CacheState κ V × CachePhase V
  | .start =>
      match call with
      | .get key _ =>
          match s.redis.read key with
          | some value => (s, .returned value)
          | none => (s, .missed)
      | .set key value ttlSeconds => (s.set key value ttlSeconds, .done)
      | .setStrict key value ttlSeconds =>
          ((s.setStrict key value ttlSeconds).2,
            .persisted (s.setStrict key value ttlSeconds).1)
      | .del key => (s.del key, .done)
  | .missed =>
      match call, fetched with
      | .get key ttlSeconds, some value =>
          (s.writeBack { key, value, ttlSeconds }, .returned value)
      | _, _ => (s, .refetching)
  | .refetching =>
      match fetched with
      | some value => (s, .returned value)
      | none => (s, .failed)
  | phase => (s, phase)

/-- Any number of calls on one Redis; {lit}`none` is the connection, which delivers what
was sent back. -/
def cacheCalls (calls : ι → CacheCall κ V) :
    CallSystem (Option ι) (Moment V) (CacheState κ V) (CachePhase V) where
  next i moment s phase :=
    match i with
    | none => ((s.advance moment.elapsed).land moment.slot, phase)
    | some i => callStep (calls i) moment.fetched (s.advance moment.elapsed) phase

/-- A configuration of a run. -/
abbrev CacheConfig (ι κ V : Type) := Config (Option ι) (CacheState κ V) (CachePhase V)

/-- The start of a run on a Redis: nothing has been sent, no call has begun. -/
def startOf (redis : ExpiringStore κ V) : CacheConfig ι κ V where
  shared := { redis }
  phase _ := .start

/-! ## What the steps do to one key -/

section Steps

variable (calls : ι → CacheCall κ V)

/-- The step is the write of a {lit}`set` or {lit}`setStrict` of the value to the key. -/
def SetsTo (c : CacheConfig ι κ V) (l : Option ι × Moment V) (key : κ) (value : V)
    (ttlSeconds : ℕ) : Prop :=
  c.phase l.1 = .start ∧ ∃ i, l.1 = some i ∧
    (calls i = .set key value ttlSeconds ∨ calls i = .setStrict key value ttlSeconds)

/-- The step starts an explicit write of the key. -/
def StartsWrite (key : κ) (c : CacheConfig ι κ V) (l : Option ι × Moment V) : Prop :=
  c.phase l.1 = .start ∧ ∃ i, l.1 = some i ∧ (calls i).writtenKey = some key

/-- The entry that a step lands on the key. -/
def landed (key : κ) (c : CacheConfig ι κ V) (l : Option ι × Moment V) : Option (V × ℕ) :=
  match l.1 with
  | none => (c.shared.advance l.2.elapsed).landing l.2.slot key
  | some _ => none

/-- The entry that the last landing on the key during a run left there. -/
def lastLanded (key : κ) : CacheConfig ι κ V → List (Option ι × Moment V) → Option (V × ℕ)
  | _, [] => none
  | c, l :: ls => (lastLanded key ((cacheCalls calls).step c l) ls).or (landed key c l)

/-- A step that starts no explicit write of the key changes its entry only by landing
on it. -/
theorem cacheCalls_step_entry {key : κ} {c : CacheConfig ι κ V} {l : Option ι × Moment V}
    (hquiet : ¬StartsWrite calls key c l) :
    ((cacheCalls calls).step c l).shared.redis.entry key =
      (landed key c l).or (c.shared.redis.entry key) := by
  rcases l with ⟨_ | i, moment⟩
  · exact CacheState.land_entry _ _ _
  · rw [CallSystem.step_shared]
    simp only [cacheCalls, landed, Option.none_or]
    have hother : ∀ key', c.phase (some i) = .start →
        (calls i).writtenKey = some key' → key ≠ key' := by
      rintro key' hstart hcall rfl
      exact hquiet ⟨hstart, i, rfl, hcall⟩
    cases hphase : c.phase (some i) with
    | start =>
        cases hcall : calls i with
        | get key' ttlSeconds =>
            simp only [callStep]
            split <;> rfl
        | set key' value ttlSeconds =>
            exact CacheState.setEx_entry_of_ne _
              (hother key' hphase (by rw [hcall]; rfl)) _ _
        | setStrict key' value ttlSeconds =>
            exact CacheState.setEx_entry_of_ne _
              (hother key' hphase (by rw [hcall]; rfl)) _ _
        | del key' =>
            exact CacheState.del_entry_of_ne _ (hother key' hphase (by rw [hcall]; rfl))
    | missed =>
        simp only [callStep]
        split <;> rfl
    | refetching =>
        simp only [callStep]
        split <;> rfl
    | returned value => rfl
    | persisted ok => rfl
    | done => rfl
    | failed => rfl

/-- Between two explicit writes of a key its entry changes only by landings. -/
theorem cacheCalls_entry {key : κ} {c : CacheConfig ι κ V} {ls : List (Option ι × Moment V)}
    (hquiet : (cacheCalls calls).EachStep (fun c l => ¬StartsWrite calls key c l) c ls) :
    ((cacheCalls calls).run c ls).shared.redis.entry key =
      (lastLanded calls key c ls).or (c.shared.redis.entry key) := by
  induction ls generalizing c with
  | nil => rfl
  | cons l ls ih =>
      have hrest := ih hquiet.2
      rw [cacheCalls_step_entry calls hquiet.1] at hrest
      simp only [CallSystem.run, lastLanded, hrest, Option.or_assoc]

/-- The write of a {lit}`set` or {lit}`setStrict`, with a positive time to live. -/
theorem entry_of_setsTo {c : CacheConfig ι κ V} {l : Option ι × Moment V} {key : κ} {value : V}
    {ttlSeconds : ℕ} (hsets : SetsTo calls c l key value ttlSeconds) (httl : ttlSeconds ≠ 0) :
    ((cacheCalls calls).step c l).shared.redis.entry key =
      some (value, c.shared.redis.now + l.2.elapsed + 1000 * ttlSeconds) := by
  rcases l with ⟨_, moment⟩
  rcases hsets with ⟨hstart, i, rfl, hcall⟩
  rw [CallSystem.step_shared]
  simp only [cacheCalls, hstart]
  rcases hcall with hcall | hcall <;> rw [hcall] <;>
    exact CacheState.setEx_entry_self _ key value httl

/-- A step moves the clock by the time that has passed. -/
theorem now_step (c : CacheConfig ι κ V) (l : Option ι × Moment V) :
    ((cacheCalls calls).step c l).shared.redis.now = c.shared.redis.now + l.2.elapsed := by
  rcases l with ⟨_ | i, moment⟩
  · exact CacheState.land_now _ _
  · rw [CallSystem.step_shared]
    simp only [cacheCalls]
    cases c.phase (some i) with
    | start =>
        cases calls i with
        | get key ttlSeconds =>
            simp only [callStep]
            split <;> rfl
        | set key value ttlSeconds => exact CacheState.setEx_now ..
        | setStrict key value ttlSeconds => exact CacheState.setEx_now ..
        | del key => rfl
    | missed =>
        simp only [callStep]
        split <;> rfl
    | refetching =>
        simp only [callStep]
        split <;> rfl
    | returned value => rfl
    | persisted ok => rfl
    | done => rfl
    | failed => rfl

/-- The clock never goes back. -/
theorem now_le_run (c : CacheConfig ι κ V) (ls : List (Option ι × Moment V)) :
    c.shared.redis.now ≤ ((cacheCalls calls).run c ls).shared.redis.now := by
  induction ls generalizing c with
  | nil => exact Nat.le_refl _
  | cons l ls ih =>
      have hstep := now_step calls c l
      have hrest := ih ((cacheCalls calls).step c l)
      rw [CallSystem.run]
      omega

/-! ## Reads after a completed write -/

/-- The step {lit}`w` completes a {lit}`set` or {lit}`setStrict` of the value, no explicit write
of the key starts in {lit}`mid`, and the step {lit}`g` starts a read of the key while the
value's time to live is not over. -/
structure ReadInSpan (c : CacheConfig ι κ V) (w : Option ι × Moment V)
    (mid : List (Option ι × Moment V)) (g : Option ι × Moment V) (key : κ) (value : V)
    (ttlSeconds : ℕ) : Prop where
  sets : SetsTo calls c w key value ttlSeconds
  quiet : (cacheCalls calls).EachStep (fun c l => ¬StartsWrite calls key c l)
    ((cacheCalls calls).step c w) mid
  live : ((cacheCalls calls).run c (w :: mid)).shared.redis.now + g.2.elapsed <
    c.shared.redis.now + w.2.elapsed + 1000 * ttlSeconds
  reads : ∃ j t, g.1 = some j ∧ calls j = .get key t
  starts : ((cacheCalls calls).run c (w :: mid)).phase g.1 = .start

/-- The call that starts in step {lit}`g` returns the value and nothing else, however the run
goes on. -/
def Returns (c : CacheConfig ι κ V) (g : Option ι × Moment V) (value : V) : Prop :=
  ∀ suf u, (((cacheCalls calls).run c (g :: suf)).phase g.1).result = some u → u = value

/-- A call that has returned stays as it is. -/
theorem phase_returned_run {c : CacheConfig ι κ V} {i : Option ι} {value : V}
    (hphase : c.phase i = .returned value) (ls : List (Option ι × Moment V)) :
    ((cacheCalls calls).run c ls).phase i = .returned value := by
  have hstep : ∀ (c : CacheConfig ι κ V) (l : Option ι × Moment V),
      c.phase i = .returned value → ((cacheCalls calls).step c l).phase i = .returned value := by
    intro c l hphase
    by_cases hi : i = l.1
    · subst hi
      rw [CallSystem.step_phase_self]
      rcases l with ⟨_ | j, moment⟩
      · exact hphase
      · simp only [cacheCalls, hphase, callStep]
    · rw [CallSystem.step_phase_of_ne _ _ _ hi]
      exact hphase
  exact CallSystem.run_invariant _ hstep hphase ls

section Reads

variable {calls} {c : CacheConfig ι κ V} {g : Option ι × Moment V} {key : κ} {j : ι} {t : ℕ}

/-- A read that finds a value returns it. -/
theorem step_phase_hit (hg : g.1 = some j) (hcall : calls j = .get key t)
    (hstart : c.phase g.1 = .start) {value : V}
    (hread : (c.shared.advance g.2.elapsed).redis.read key = some value) :
    ((cacheCalls calls).step c g).phase g.1 = .returned value := by
  rcases g with ⟨_, moment⟩
  subst hg
  rw [CallSystem.step_phase_self]
  simp only [cacheCalls, hstart, callStep, hcall, hread]

/-- A read that finds nothing goes on to its fallback. -/
theorem step_phase_miss (hg : g.1 = some j) (hcall : calls j = .get key t)
    (hstart : c.phase g.1 = .start)
    (hread : (c.shared.advance g.2.elapsed).redis.read key = none) :
    ((cacheCalls calls).step c g).phase g.1 = .missed := by
  rcases g with ⟨_, moment⟩
  subst hg
  rw [CallSystem.step_phase_self]
  simp only [cacheCalls, hstart, callStep, hcall, hread]

theorem returns_of_hit (hg : g.1 = some j) (hcall : calls j = .get key t)
    (hstart : c.phase g.1 = .start) {value value' : V}
    (hread : (c.shared.advance g.2.elapsed).redis.read key = some value') :
    Returns calls c g value ↔ value' = value := by
  have hphase := step_phase_hit hg hcall hstart hread
  have hresult : ∀ suf, (((cacheCalls calls).run c (g :: suf)).phase g.1).result =
      some value' := by
    intro suf
    rw [CallSystem.run, phase_returned_run calls hphase]
    rfl
  constructor
  · intro hreturns
    exact hreturns [] value' (hresult [])
  · rintro rfl suf u hu
    rw [hresult] at hu
    exact (Option.some.inj hu).symm

/-- A read that finds nothing hands out whatever its fallback answers. -/
theorem not_returns_of_miss [Nontrivial V] (hg : g.1 = some j)
    (hcall : calls j = .get key t) (hstart : c.phase g.1 = .start) {value : V}
    (hread : (c.shared.advance g.2.elapsed).redis.read key = none) :
    ¬Returns calls c g value := by
  intro hreturns
  rcases exists_ne value with ⟨other, hother⟩
  have hphase := step_phase_miss hg hcall hstart hread
  refine hother (hreturns [(g.1, { fetched := some other })] other ?_)
  simp only [CallSystem.run]
  have hself := CallSystem.step_phase_self (cacheCalls calls)
    ((cacheCalls calls).step c g) (g.1, { fetched := some other })
  rw [hself, hphase, hg]
  simp only [cacheCalls, callStep, hcall]
  rfl

end Reads

/-- A read that starts in the span of a completed write returns the written value exactly
when no fallback has landed on the key since, or the last that did wrote the value again
and its own time is not over. -/
theorem get_after_set_iff [Nontrivial V] {c : CacheConfig ι κ V} {w : Option ι × Moment V}
    {mid : List (Option ι × Moment V)} {g : Option ι × Moment V} {key : κ} {value : V}
    {ttlSeconds : ℕ} (hspan : ReadInSpan calls c w mid g key value ttlSeconds) :
    Returns calls ((cacheCalls calls).run c (w :: mid)) g value ↔
      ∀ e ∈ lastLanded calls key ((cacheCalls calls).step c w) mid,
        e.1 = value ∧
          ((cacheCalls calls).run c (w :: mid)).shared.redis.now + g.2.elapsed < e.2 := by
  rcases hspan with ⟨hsets, hquiet, hlive, ⟨j, t, hg, hcall⟩, hstart⟩
  have hforward := now_le_run calls ((cacheCalls calls).step c w) mid
  rw [now_step] at hforward
  have httl : ttlSeconds ≠ 0 := by
    rintro rfl
    simp only [CallSystem.run] at hlive
    omega
  have hentry := cacheCalls_entry calls hquiet
  rw [entry_of_setsTo calls hsets httl] at hentry
  cases hlast : lastLanded calls key ((cacheCalls calls).step c w) mid with
  | none =>
      -- Nothing has landed: the written value is still there.
      rw [hlast, Option.none_or] at hentry
      have hread := ExpiringStore.read_of_entry
        (s := (((cacheCalls calls).run c (w :: mid)).shared.advance g.2.elapsed).redis) hentry
      rw [CacheState.advance_now, if_pos hlive] at hread
      rw [returns_of_hit hg hcall hstart hread]
      simp
  | some e =>
      rcases e with ⟨value', deadline⟩
      rw [hlast, Option.some_or] at hentry
      have hread := ExpiringStore.read_of_entry
        (s := (((cacheCalls calls).run c (w :: mid)).shared.advance g.2.elapsed).redis) hentry
      rw [CacheState.advance_now] at hread
      by_cases hdead : ((cacheCalls calls).run c (w :: mid)).shared.redis.now + g.2.elapsed <
          deadline
      · rw [if_pos hdead] at hread
        rw [returns_of_hit hg hcall hstart hread]
        simp [hdead]
      · rw [if_neg hdead] at hread
        have hmiss : ¬Returns calls ((cacheCalls calls).run c (w :: mid)) g value :=
          not_returns_of_miss hg hcall hstart hread
        simp [hmiss, hdead]

end Steps

/-! ## A revocation that a reader undoes -/

/-- A request reads the revocation cutoff of a user, the user's sessions are revoked, and
a second request reads the cutoff. -/
def cutoffCalls : Fin 3 → CacheCall String ℕ
  | 0 => .get "revoked:user:u1" 3600
  | 1 => .setStrict "revoked:user:u1" 1700000001 3600
  | 2 => .get "revoked:user:u1" 3600

/-- A Redis without entries. -/
def emptyRedis : ExpiringStore String ℕ where
  now := 1700000000000
  entry _ := none

/-- Without a reader under way the second request sees the cutoff. -/
theorem cutoff_read_after_revocation :
    Returns cutoffCalls
      ((cacheCalls cutoffCalls).run (startOf emptyRedis) [(some 1, {})]) (some 2, {})
      1700000001 := by
  have hspan : ReadInSpan cutoffCalls (startOf emptyRedis) (some 1, {}) [] (some 2, {})
      "revoked:user:u1" 1700000001 3600 :=
    { sets := ⟨rfl, 1, rfl, Or.inr rfl⟩
      quiet := trivial
      live := by decide
      reads := ⟨2, 3600, rfl, rfl⟩
      starts := rfl }
  refine (get_after_set_iff cutoffCalls hspan).mpr ?_
  rintro e ⟨⟩

/-- The first request has missed before the revocation and its fallback lands after it:
the second request reads that fallback and finds no cutoff. -/
theorem writeBack_undoes_revocation :
    ¬∀ pre w mid g key value ttlSeconds,
      ReadInSpan cutoffCalls ((cacheCalls cutoffCalls).run (startOf emptyRedis) pre) w mid g
        key value ttlSeconds →
      Returns cutoffCalls
        ((cacheCalls cutoffCalls).run
          ((cacheCalls cutoffCalls).run (startOf emptyRedis) pre) (w :: mid)) g value := by
  intro hkeeps
  have hreturns := hkeeps [(some 0, {}), (some 0, { fetched := some 0 })] (some 1, {})
    [(none, {})] (some 2, {}) "revoked:user:u1" 1700000001 3600
    { sets := ⟨rfl, 1, rfl, Or.inr rfl⟩
      quiet := by
        refine ⟨?_, trivial⟩
        rintro ⟨_, i, hi, _⟩
        cases hi
      live := by decide
      reads := ⟨2, 3600, rfl, rfl⟩
      starts := rfl }
  have hzero := hreturns [] 0 (by decide)
  exact absurd hzero (by decide)

end Cache
end Eleva
