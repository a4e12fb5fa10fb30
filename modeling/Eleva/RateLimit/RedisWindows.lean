import Eleva.RateLimit.RateLimitService

/-!
# Rate limits - The end of a window in Redis

The counter of a window is made by {lit}`INCR` and gets its expiry by a second command, which is
sent only when the counter shows one.  A counter whose expiry was not set stays.

Main results:

- Theorem {lit}`isRateLimited_endsBy`: after a call that sets the expiry of the counter it
  starts, the counter and the entry of its key end within the window.
- Theorem {lit}`limits_end`: in a run of such calls, a call after the end of the window is let
  through.
- Theorem {lit}`limited_without_expiry`: a full counter without an expiry refuses every call.
-/

namespace Eleva

open Foundation

namespace RateLimitService

/-- The command is executed. -/
def Fate.Executed (fate : Fate) : Prop :=
  fate = .answered ∨ fate = .lost

/-- A call that starts a counter learns so, and its expiry is set. -/
def ExpirySet (call : RateLimitCall) (s : LimiterState) : Prop :=
  call.cacheActive = true → call.incr.Executed → s.counter call.now call.fullKey = none →
    call.incr = .answered ∧ call.expire.Executed

instance (fate : Fate) : Decidable fate.Executed :=
  inferInstanceAs (Decidable (_ ∨ _))

instance (call : RateLimitCall) (s : LimiterState) : Decidable (ExpirySet call s) :=
  inferInstanceAs (Decidable (_ → _ → _ → _))

/-- What is counted under a key is forgotten after the deadline. -/
structure EndsBy (key : String) (deadline : ℕ) (s : LimiterState) : Prop where
  counter : ∀ c, s.redis key = some c → ∃ t, c.expiresAt = some t ∧ t ≤ deadline
  entry : ∀ e, s.memoryStore key = some e → e.resetTime ≤ deadline

namespace EndsBy

variable {key : String} {deadline : ℕ} {s : LimiterState}

theorem of_fresh (hredis : s.redis key = none) (hmemory : s.memoryStore key = none) :
    EndsBy key deadline s where
  counter c hc := by
    rw [hredis] at hc
    cases hc
  entry e he := by
    rw [hmemory] at he
    cases he

theorem mono (h : EndsBy key deadline s) {later : ℕ} (hle : deadline ≤ later) :
    EndsBy key later s where
  counter c hc := by
    rcases h.counter c hc with ⟨t, ht, hdeadline⟩
    exact ⟨t, ht, Nat.le_trans hdeadline hle⟩
  entry e he := Nat.le_trans (h.entry e he) hle

/-- The process starts again with an empty map. -/
theorem restart (h : EndsBy key deadline s) :
    EndsBy key deadline { s with memoryStore := fun _ => none } where
  counter := h.counter
  entry e he := by cases he

/-- Another counter under a key that ends in time, or none. -/
theorem setCounter (h : EndsBy key deadline s) {key' : String} {c : Option Counter}
    (hc : key' = key → ∀ c', c = some c' → ∃ t, c'.expiresAt = some t ∧ t ≤ deadline) :
    EndsBy key deadline { s with redis := Function.update s.redis key' c } where
  counter c' hc' := by
    by_cases hkey : key' = key
    · subst hkey
      exact hc rfl c' (by simpa using hc')
    · exact h.counter c' (by simpa [Function.update_of_ne (Ne.symm hkey)] using hc')
  entry := h.entry

/-- Another entry under a key that ends in time. -/
theorem setEntry (h : EndsBy key deadline s) {key' : String} {e : MemoryEntry}
    (he : key' = key → e.resetTime ≤ deadline) :
    EndsBy key deadline
      { s with memoryStore := Function.update s.memoryStore key' (some e) } where
  counter := h.counter
  entry e' he' := by
    by_cases hkey : key' = key
    · subst hkey
      have heq : e = e' := by simpa using he'
      exact heq ▸ he rfl
    · exact h.entry e' (by simpa [Function.update_of_ne (Ne.symm hkey)] using he')

end EndsBy

section Step

variable {key : String} {deadline : ℕ} {call : RateLimitCall}

theorem command_endsBy {α : Type} {run : LimiterState → α × LimiterState}
    (hrun : ∀ s, EndsBy key deadline s → EndsBy key deadline (run s).2) (fate : Fate) :
    Fallible.Keeps (EndsBy key deadline) (command fate run) := by
  intro s hs
  cases fate with
  | answered => exact hrun s hs
  | failed => exact hs
  | lost => exact hrun s hs
  | stopped => exact hs.restart

theorem ttl_endsBy (now : ℕ) (key' : String) (s : LimiterState) (hs : EndsBy key deadline s) :
    EndsBy key deadline (s.ttl now key').2 := by
  unfold LimiterState.ttl
  split <;> exact hs

/-- A counter that {lit}`EXPIRE` leaves has the expiry. -/
theorem expire_counter {now seconds : ℕ} {key : String} {s : LimiterState} {c : Counter}
    (hc : (s.expire now key seconds).2.redis key = some c) :
    c.expiresAt = some (now + 1000 * seconds) := by
  change Function.update s.redis key _ key = some c at hc
  rw [Function.update_self] at hc
  rcases Option.bind_eq_some_iff.mp hc with ⟨c', -, hrenewed⟩
  split at hrenewed <;> cases hrenewed
  rfl

/-- Whatever a counter was, setting its expiry bounds it. -/
theorem expire_bounds {now seconds : ℕ} (htime : now + 1000 * seconds ≤ deadline)
    {s : LimiterState} (hs : ∀ e, s.memoryStore key = some e → e.resetTime ≤ deadline) :
    EndsBy key deadline (s.expire now key seconds).2 where
  counter _ hc := ⟨_, expire_counter hc, htime⟩
  entry := hs

theorem expire_endsBy {now seconds : ℕ} {key' : String}
    (htime : key' = key → now + 1000 * seconds ≤ deadline) (s : LimiterState)
    (hs : EndsBy key deadline s) : EndsBy key deadline (s.expire now key' seconds).2 := by
  by_cases hkey : key' = key
  · subst hkey
    exact expire_bounds (htime rfl) hs.entry
  · exact hs.setCounter fun h => absurd h hkey

/-- Counting on keeps the expiry of the counter. -/
theorem incr_endsBy {now : ℕ} {key' : String} {s : LimiterState}
    (hlive : key' = key → s.counter now key ≠ none) (hs : EndsBy key deadline s) :
    EndsBy key deadline (s.incr now key').2 := by
  refine hs.setCounter fun hkey c hc => ?_
  subst hkey
  cases hcounter : s.counter now key' with
  | none => exact absurd hcounter (hlive rfl)
  | some old =>
      rw [hcounter] at hc
      cases hc
      exact hs.counter old (Option.filter_eq_some_iff.mp hcounter).1

theorem startWindow_endsBy
    (htime : call.fullKey = key → call.now + 1000 * call.windowSec ≤ deadline) (count : ℕ) :
    Fallible.Keeps (EndsBy key deadline) (startWindow call count) :=
  Fallible.Keeps.ite (fun _ => command_endsBy (expire_endsBy htime) _) fun _ =>
    Fallible.Keeps.pure ()

/-- What follows the increment keeps the deadline of a key. -/
theorem replyInRedis_endsBy
    (htime : call.fullKey = key → call.now + 1000 * call.windowSec ≤ deadline) (count : ℕ) :
    Fallible.Keeps (EndsBy key deadline) (replyInRedis call count) :=
  (startWindow_endsBy htime count).bind fun _ =>
    (command_endsBy (ttl_endsBy _ _) _).bind fun _ => Fallible.Keeps.pure _

/-- A call for another key keeps the deadline of a key, as does one that counts on. -/
theorem countInRedis_endsBy {s : LimiterState}
    (hlive : call.fullKey = key → s.counter call.now key ≠ none)
    (htime : call.fullKey = key → call.now + 1000 * call.windowSec ≤ deadline)
    (hs : EndsBy key deadline s) : EndsBy key deadline (countInRedis call s).2 := by
  have hincr := incr_endsBy hlive hs
  unfold countInRedis
  cases call.incr with
  | answered => exact replyInRedis_endsBy htime _ _ hincr
  | failed => exact hs
  | lost => exact hincr
  | stopped => exact hs.restart

/-- A call that starts the counter and sets its expiry bounds its key. -/
theorem countInRedis_starts {s : LimiterState}
    (hnone : s.counter call.now call.fullKey = none)
    (hset : call.incr.Executed → call.incr = .answered ∧ call.expire.Executed)
    (htime : call.now + 1000 * call.windowSec ≤ deadline)
    (hs : EndsBy call.fullKey deadline s) :
    EndsBy call.fullKey deadline (countInRedis call s).2 := by
  unfold countInRedis
  cases hincr : call.incr with
  | failed => exact hs
  | stopped => exact hs.restart
  | lost =>
      have hanswered := (hset (Or.inr hincr)).1
      rw [hincr] at hanswered
      cases hanswered
  | answered =>
      have hcount : (s.incr call.now call.fullKey).1 = 1 := by
        change ((s.counter call.now call.fullKey).getD _).value + 1 = 1
        rw [hnone]
        rfl
      change EndsBy _ _ (replyInRedis call (s.incr call.now call.fullKey).1
        (s.incr call.now call.fullKey).2).2
      have hexpire : EndsBy call.fullKey deadline
          ((s.incr call.now call.fullKey).2.expire call.now call.fullKey call.windowSec).2 :=
        expire_bounds htime hs.entry
      rw [hcount]
      unfold replyInRedis startWindow
      rw [if_pos rfl]
      have httl : Fallible.Keeps (EndsBy call.fullKey deadline)
          (command call.ttl fun s => s.ttl call.now call.fullKey) :=
        command_endsBy (ttl_endsBy _ _) _
      rcases (hset (Or.inl hincr)).2 with hdone | hlost
      · rw [hdone]
        exact httl.bind (fun _ => Fallible.Keeps.pure _) _ hexpire
      · rw [hlost]
        exact hexpire

theorem windowMs_le (call : RateLimitCall) : call.config.windowMs ≤ 1000 * call.windowSec := by
  unfold RateLimitCall.windowSec
  omega

theorem countInMemory_endsBy
    (htime : call.fullKey = key → call.now + 1000 * call.windowSec ≤ deadline) :
    Fallible.Keeps (EndsBy key deadline) (countInMemory call) := by
  intro s hs
  rw [countInMemory_state]
  refine hs.setEntry fun hkey => ?_
  subst hkey
  exact FixedWindow.hit_resetTime_le hs.entry
    (Nat.le_trans (Nat.add_le_add_left (windowMs_le call) _) (htime rfl))

/-- After a call that sets the expiry of the counter it starts, what is counted under a key ends
within the window. -/
theorem isRateLimited_endsBy {s : LimiterState} (hset : call.fullKey = key → ExpirySet call s)
    (htime : call.fullKey = key → call.now + 1000 * call.windowSec ≤ deadline)
    (hs : EndsBy key deadline s) : EndsBy key deadline (isRateLimited call s).2 := by
  unfold isRateLimited
  cases hactive : call.cacheActive with
  | false => exact countInMemory_endsBy htime s hs
  | true =>
      have hredis : EndsBy key deadline (countInRedis call s).2 := by
        by_cases hstarts : call.fullKey = key ∧ s.counter call.now key = none
        · rcases hstarts with ⟨rfl, hnone⟩
          exact countInRedis_starts hnone (fun hincr => hset rfl hactive hincr hnone)
            (htime rfl) hs
        · exact countInRedis_endsBy (fun hkey hnone => hstarts ⟨hkey, hnone⟩) htime hs
      rcases hrun : countInRedis call s with ⟨outcome, s'⟩
      rw [hrun] at hredis
      rcases outcome with (_ | _) | reply
      · exact countInMemory_endsBy htime s' hredis
      · exact hredis
      · exact hredis

/-! ## After the deadline -/

theorem command_eq_ok {α : Type} {run : LimiterState → α × LimiterState} {fate : Fate}
    {s s' : LimiterState} {a : α} (h : command fate run s = (.ok a, s')) :
    fate = .answered ∧ (run s).1 = a := by
  cases fate with
  | answered =>
      cases h
      exact ⟨rfl, rfl⟩
  | failed | lost | stopped => cases h

/-- Redis limits a request that counts more than the limit. -/
theorem countInRedis_limited {s s' : LimiterState} {reply : RateLimitReply}
    (h : countInRedis call s = (.ok reply, s')) :
    reply.limited = decide (((s.incr call.now call.fullKey).1 : ℤ) > call.config.limit) := by
  rcases Fallible.bind_eq_ok.mp h with ⟨count, s₁, hincr, hreply⟩
  rcases Fallible.bind_eq_ok.mp hreply with ⟨_, s₂, -, hreply⟩
  rcases Fallible.bind_eq_ok.mp hreply with ⟨ttl, s₃, -, hreply⟩
  cases hreply
  rw [(command_eq_ok hincr).2]

theorem counter_eq_none {s : LimiterState} {now : ℕ} (hs : EndsBy key deadline s)
    (hlate : deadline < now) : s.counter now key = none := by
  unfold LimiterState.counter
  cases hredis : s.redis key with
  | none => rfl
  | some c =>
      rcases hs.counter c hredis with ⟨t, ht, hle⟩
      have hgone : ¬now ≤ t := Nat.not_le.mpr (Nat.lt_of_le_of_lt hle hlate)
      simp [Option.filter, ht, hgone]

/-- An entry of the map that Redis leaves to the fall-back. -/
theorem countInRedis_entry {s s' : LimiterState} {outcome : Except Halt RateLimitReply}
    (hs : EndsBy key deadline s) (h : countInRedis call s = (outcome, s')) {e : MemoryEntry}
    (he : s'.memoryStore key = some e) : e.resetTime ≤ deadline := by
  have hcommand : ∀ {α : Type} (fate : Fate) (run : LimiterState → α × LimiterState),
      (∀ s, (run s).2.memoryStore = s.memoryStore) →
      Fallible.Keeps (fun s => ∀ e, s.memoryStore key = some e → e.resetTime ≤ deadline)
        (command fate run) := by
    intro α fate run hrun s hs e he
    cases fate with
    | answered => exact hs e (by rwa [← hrun s])
    | failed => exact hs e he
    | lost => exact hs e (by rwa [← hrun s])
    | stopped => cases he
  have hkeeps : Fallible.Keeps (fun s => ∀ e, s.memoryStore key = some e → e.resetTime ≤ deadline)
      (countInRedis call) := by
    refine (hcommand _ _ fun _ => rfl).bind fun count => Fallible.Keeps.bind ?_ fun _ =>
      (hcommand _ _ fun s => ?_).bind fun _ => Fallible.Keeps.pure _
    · exact Fallible.Keeps.ite (fun _ => hcommand _ _ fun _ => rfl) fun _ => Fallible.Keeps.pure ()
    · unfold LimiterState.ttl
      split <;> rfl
  have hend := hkeeps s hs.entry
  rw [h] at hend
  exact hend e he

/-- A call after the deadline of its key is let through. -/
theorem isRateLimited_after {s : LimiterState} {reply : RateLimitReply}
    (hlimit : 1 ≤ call.config.limit) (hs : EndsBy call.fullKey deadline s)
    (hlate : deadline < call.now) (h : (isRateLimited call s).1 = .ok reply) :
    reply.limited = false := by
  have hone : decide (((1 : ℕ) : ℤ) > call.config.limit) = false :=
    decide_eq_false (by omega)
  have hmemory : ∀ s' : LimiterState,
      (∀ e, s'.memoryStore call.fullKey = some e → e.resetTime ≤ deadline) →
      (countInMemory call s').1 = .ok reply → reply.limited = false := by
    intro s' hs' hreply
    have hover : FixedWindow.Over call.now (s'.memoryStore call.fullKey) := by
      cases hentry : s'.memoryStore call.fullKey with
      | none => trivial
      | some e => exact Nat.lt_of_le_of_lt (hs' e hentry) hlate
    rw [countInMemory_reply hlimit, FixedWindow.hit_of_over hover] at hreply
    cases hreply
    exact hone
  unfold isRateLimited at h
  cases hactive : call.cacheActive with
  | false =>
      rw [hactive] at h
      exact hmemory s hs.entry h
  | true =>
      rw [hactive] at h
      rcases hrun : countInRedis call s with ⟨outcome, s'⟩
      rw [hrun] at h
      rcases outcome with (_ | _) | answer
      · exact hmemory s' (fun e he => countInRedis_entry hs hrun he) h
      · cases h
      · cases h
        have hfirst : (s.incr call.now call.fullKey).1 = 1 := by
          change ((s.counter call.now call.fullKey).getD _).value + 1 = 1
          rw [counter_eq_none hs hlate]
          rfl
        rw [countInRedis_limited hrun, hfirst]
        exact hone

end Step

/-! ## Runs -/

/-- Each call that starts the counter of the key sets its expiry. -/
def KeepsExpiry (key : String) (actions : List LimiterAction) (s : LimiterState) : Prop :=
  limiter.EachStep
    (fun action s => action.OnCall fun call => call.fullKey = key → ExpirySet call s) actions s

/-- A call later than the window after the previous call for the key is not limited. -/
def LimitsEnd (key : String) (actions : List LimiterAction) (s : LimiterState) : Prop :=
  ∀ before first between later after reply,
    actions = before ++ .request first :: (between ++ .request later :: after) →
    first.fullKey = key → later.fullKey = key →
    (∀ a ∈ between, a.requests key = false) →
    first.now + 1000 * first.windowSec < later.now →
    (isRateLimited later (limiter.exec (before ++ .request first :: between) s)).1 =
      .ok reply →
    reply.limited = false

section Runs

variable {key : String} {config : RateLimitConfig} {actions : List LimiterAction}
  {s : LimiterState}

/-- A run whose calls for a key are in time keeps its deadline. -/
theorem exec_endsBy {deadline : ℕ}
    (htime : ∀ a ∈ actions, a.OnCall fun call =>
      call.fullKey = key → call.now + 1000 * call.windowSec ≤ deadline)
    (hset : KeepsExpiry key actions s) (hs : EndsBy key deadline s) :
    EndsBy key deadline (limiter.exec actions s) := by
  refine limiter.exec_of_eachStep (fun action haction s hs hset => ?_) hs hset
  cases action with
  | request call => exact isRateLimited_endsBy hset (htime _ haction) hs
  | cleanup now =>
      refine { counter := hs.counter, entry := fun e he => ?_ }
      exact hs.entry e (Option.filter_eq_some_iff.mp he).1

/-- In a run whose calls set the expiry of each counter they start, the limit of a key ends with
its window. -/
theorem limits_end (hlimit : 1 ≤ config.limit) (horder : InOrder actions)
    (hconfig : ∀ a ∈ actions, a.OnCall fun call => call.fullKey = key → call.config = config)
    (hredis : s.redis key = none) (hmemory : s.memoryStore key = none)
    (hset : KeepsExpiry key actions s) : LimitsEnd key actions s := by
  rintro before first between later after reply rfl rfl hlater hbetween hlate hreply
  have hfirst : first.config = config := hconfig (.request first) (by simp) rfl
  have hearlier := List.pairwise_append.mp horder
  have htime : ∀ a ∈ before ++ .request first :: between, a.OnCall fun call =>
      call.fullKey = first.fullKey →
        call.now + 1000 * call.windowSec ≤ first.now + 1000 * first.windowSec := by
    intro a ha
    cases a with
    | cleanup now => trivial
    | request call =>
        intro hkey
        have hmem : LimiterAction.request call ∈
            before ++ .request first :: (between ++ .request later :: after) := by
          rcases List.mem_append.mp ha with hbefore | hrest
          · exact List.mem_append_left _ hbefore
          · exact List.mem_append_right _
              (List.cons_subset_cons _ (List.subset_append_left _ _) hrest)
        have hwindow : call.windowSec = first.windowSec := by
          unfold RateLimitCall.windowSec
          rw [hfirst, hconfig _ hmem hkey]
        rw [hwindow]
        rcases List.mem_append.mp ha with hbefore | hrest
        · exact Nat.add_le_add_right (hearlier.2.2 _ hbefore _ List.mem_cons_self) _
        · rcases List.mem_cons.mp hrest with heq | hmid
          · cases heq
            exact Nat.le_refl _
          · exact absurd hkey (beq_eq_false_iff_ne.mp (hbetween _ hmid))
  have hset' : KeepsExpiry first.fullKey (before ++ .request first :: between) s := by
    have hwhole : KeepsExpiry first.fullKey
        ((before ++ .request first :: between) ++ .request later :: after) s := by
      rwa [List.append_assoc, List.cons_append]
    exact ((limiter.eachStep_append _ _ s).mp hwhole).1
  have hends := exec_endsBy htime hset' (EndsBy.of_fresh hredis hmemory)
  have hconfigLater : later.config = config := hconfig (.request later) (by simp) hlater
  exact isRateLimited_after (hconfigLater ▸ hlimit) (hlater.symm ▸ hends) hlate hreply

/-! ## A counter without an expiry -/

/-- A counter at the limit that has no expiry. -/
def Locked (key : String) (limit : ℤ) (s : LimiterState) : Prop :=
  ∃ c, s.redis key = some c ∧ c.expiresAt = none ∧ limit ≤ c.value

/-- Redis answers the commands of the call. -/
def RateLimitCall.Answered (call : RateLimitCall) : Prop :=
  call.cacheActive = true ∧ call.incr = .answered ∧ call.ttl = .answered

theorem counter_of_unlimited {now : ℕ} {c : Counter} (hc : s.redis key = some c)
    (hexpiry : c.expiresAt = none) : s.counter now key = some c := by
  unfold LimiterState.counter
  rw [hc]
  simp [Option.filter, hexpiry]

/-- A full counter without an expiry limits every call that Redis answers, whenever it comes, and
stays. -/
theorem limited_without_expiry {call : RateLimitCall} (hlimit : 1 ≤ call.config.limit)
    (hanswered : call.Answered) (hlocked : Locked call.fullKey call.config.limit s) :
    (∃ reply, (isRateLimited call s).1 = .ok reply ∧ reply.limited = true) ∧
      Locked call.fullKey call.config.limit (isRateLimited call s).2 := by
  rcases hlocked with ⟨⟨value, expiresAt⟩, hc, hexpiry, hfull⟩
  rcases hanswered with ⟨hactive, hincr, httl⟩
  change expiresAt = none at hexpiry
  change call.config.limit ≤ value at hfull
  subst hexpiry
  let next : LimiterState :=
    { s with redis := Function.update s.redis call.fullKey (some { value := value + 1 }) }
  have hnext : next.redis call.fullKey = some { value := value + 1 } := Function.update_self _ _ _
  have hcount : s.incr call.now call.fullKey = (value + 1, next) := by
    unfold LimiterState.incr
    rw [counter_of_unlimited hc rfl]
    rfl
  have hstart : startWindow call (value + 1) = pure () := if_neg (by omega)
  have hrest : next.ttl call.now call.fullKey = (-1, next) := by
    unfold LimiterState.ttl
    rw [counter_of_unlimited hnext rfl]
  have hlimited : decide (((value + 1 : ℕ) : ℤ) > call.config.limit) = true :=
    decide_eq_true (by omega)
  have hredis : countInRedis call s =
      (.ok { limited := true, remaining := max 0 (call.config.limit - (value + 1 : ℕ))
             resetTime := call.now + -1 * 1000 }, next) := by
    have hsent : countInRedis call s =
        replyInRedis call (s.incr call.now call.fullKey).1 (s.incr call.now call.fullKey).2 := by
      unfold countInRedis
      rw [hincr]
      rfl
    have hreply : replyInRedis call (value + 1) next =
        (.ok { limited := ((value + 1 : ℕ) : ℤ) > call.config.limit
               remaining := max 0 (call.config.limit - (value + 1 : ℕ))
               resetTime := call.now + (next.ttl call.now call.fullKey).1 * 1000 },
          (next.ttl call.now call.fullKey).2) := by
      unfold replyInRedis
      rw [hstart, httl]
      rfl
    rw [hsent, hcount, hreply, hlimited, hrest]
  have hrun : isRateLimited call s = countInRedis call s := by
    unfold isRateLimited
    rw [hactive, hredis]
    rfl
  rw [hrun, hredis]
  have hmore : call.config.limit ≤ (value + 1 : ℕ) := by omega
  exact ⟨⟨_, rfl, rfl⟩, { value := value + 1 }, hnext, rfl, hmore⟩

end Runs

/-! ## A client whose expiry is lost -/

/-- A call for the first client under a limit of one request in a second. -/
def strictCall (now : ℕ) : RateLimitCall where
  key := "10.0.0.1"
  config := { limit := 1, windowMs := 1000, keyPrefix := "auth" }
  now := now

/-- {lit}`EXPIRE` fails after the first request; the next one comes an hour later. -/
def lostExpiry : List LimiterAction :=
  [.request { strictCall 0 with expire := .failed }, .request (strictCall 3600000)]

/-- The request an hour later is limited. -/
theorem lostExpiry_limited :
    InOrder lostExpiry ∧ ¬ LimitsEnd "ratelimit:auth:10.0.0.1" lostExpiry {} := by
  refine ⟨by decide, fun h => ?_⟩
  have hreply := h [] { strictCall 0 with expire := .failed } [] (strictCall 3600000) []
    ⟨true, 0, 3599000⟩ rfl (by decide) (by decide) (by decide) (by decide) (by decide)
  cases hreply

/-- Two requests, of which the first is counted and loses its {lit}`TTL`. -/
def lostTtl : List LimiterAction :=
  [.request { strictCall 0 with ttl := .failed }, .request (strictCall 1001)]

theorem lostTtl_ends : LimitsEnd "ratelimit:auth:10.0.0.1" lostTtl {} :=
  @limits_end "ratelimit:auth:10.0.0.1" (strictCall 0).config lostTtl {} (by decide) (by decide)
    (by decide) rfl rfl ⟨by decide, by decide, trivial⟩

end RateLimitService
end Eleva
