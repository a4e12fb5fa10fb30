import Eleva.Foundation.Fallible
import Eleva.Foundation.FixedWindows
import Eleva.Foundation.Machine
import Mathlib.Data.Int.Notation
import Mathlib.Logic.Function.Basic

/-!
# Rate limits - The limiter

{lit}`isRateLimited` counts the requests under a key in Redis, and in a map of the process when
the cache is not connected or one of its commands fails.  Each command to Redis comes with what
becomes of it: it is answered, it fails with or without taking effect, or the process stops
before it is sent, which loses the map.

Main results:

- Definition {lit}`isRateLimited`: a request, counted in Redis or in memory.
- Theorem {lit}`run_repliesTo`: along a run without Redis, the replies under one key are those of
  a window counter at the times of its requests.
- Theorem {lit}`memory_windows`: the replies under a key, window by window.
-/

namespace Eleva

open Foundation

namespace RateLimitService

/-! ## State -/

structure RateLimitConfig where
  limit : ℤ
  windowMs : ℕ
  keyPrefix : String
deriving DecidableEq, Repr

/-- An entry of the map: what was counted, and when the window is over. -/
abbrev MemoryEntry := FixedWindow

/-- A counter in Redis; with an expiry it is gone after that moment. -/
structure Counter where
  value : ℕ
  expiresAt : Option ℕ := none
deriving DecidableEq, Repr

/-- Redis, and the map of the process. -/
structure LimiterState where
  redis : String → Option Counter := fun _ => none
  memoryStore : String → Option MemoryEntry := fun _ => none

/-- What becomes of a command to Redis. -/
inductive Fate
  | answered
  /-- The command is not executed, and its error reaches the caller. -/
  | failed
  /-- The command is executed, and its answer is lost on the way. -/
  | lost
  /-- The process stops before the command is sent. -/
  | stopped
deriving DecidableEq, Repr

/-- Why a call ends without a reply. -/
inductive Halt
  | failed
  | stopped
deriving DecidableEq, Repr

structure RateLimitReply where
  limited : Bool
  remaining : ℤ
  resetTime : ℤ
deriving DecidableEq, Repr

/-- A call of {lit}`isRateLimited` at a moment, with the state of the connection and the fates of
its commands. -/
structure RateLimitCall where
  key : String
  config : RateLimitConfig
  now : ℕ
  cacheActive : Bool := true
  incr : Fate := .answered
  expire : Fate := .answered
  ttl : Fate := .answered
deriving DecidableEq, Repr

namespace RateLimitCall

def fullKey (call : RateLimitCall) : String :=
  "ratelimit:" ++ call.config.keyPrefix ++ ":" ++ call.key

/-- {lit}`Math.ceil(windowMs / 1000)`. -/
def windowSec (call : RateLimitCall) : ℕ :=
  (call.config.windowMs + 999) / 1000

/-- Redis cannot be used: the cache is not active, or its counter cannot be incremented. -/
def Unavailable (call : RateLimitCall) : Prop :=
  call.cacheActive = false ∨ call.incr = .failed

instance : DecidablePred Unavailable :=
  fun _ => inferInstanceAs (Decidable (_ ∨ _))

end RateLimitCall

/-! ## Redis -/

namespace LimiterState

/-- The counter under a key, unless its moment has passed. -/
def counter (s : LimiterState) (now : ℕ) (key : String) : Option Counter :=
  (s.redis key).filter fun c => c.expiresAt.all (now ≤ ·)

/-- {lit}`INCR`: a missing key counts from zero and has no expiry. -/
def incr (s : LimiterState) (now : ℕ) (key : String) : ℕ × LimiterState :=
  let c := (s.counter now key).getD { value := 0 }
  (c.value + 1,
    { s with redis := Function.update s.redis key (some { c with value := c.value + 1 }) })

/-- {lit}`EXPIRE`: no time at all removes the key. -/
def expire (s : LimiterState) (now : ℕ) (key : String) (seconds : ℕ) : Unit × LimiterState :=
  let renewed := (s.counter now key).bind fun c =>
    if seconds = 0 then none else some { c with expiresAt := some (now + 1000 * seconds) }
  ((), { s with redis := Function.update s.redis key renewed })

/-- {lit}`TTL`: the rest of the time in seconds, -1 without an expiry, -2 without a key. -/
def ttl (s : LimiterState) (now : ℕ) (key : String) : ℤ × LimiterState :=
  match s.counter now key with
  | none => (-2, s)
  | some { expiresAt := none, .. } => (-1, s)
  | some { expiresAt := some t, .. } => (((t - now + 500) / 1000 : ℕ), s)

end LimiterState

/-- Send a command. -/
def command {α : Type} (fate : Fate) (run : LimiterState → α × LimiterState) :
    Fallible LimiterState Halt α := fun s =>
  match fate with
  | .answered => (.ok (run s).1, (run s).2)
  | .failed => (.error .failed, s)
  | .lost => (.error .failed, (run s).2)
  | .stopped => (.error .stopped, { s with memoryStore := fun _ => none })

/-! ## A request -/

/-- The first request of a window sets the expiry of its counter. -/
def startWindow (call : RateLimitCall) (count : ℕ) : Fallible LimiterState Halt Unit :=
  if count = 1 then command call.expire fun s => s.expire call.now call.fullKey call.windowSec
  else pure ()

/-- The answer to a request that Redis has counted. -/
def replyInRedis (call : RateLimitCall) (count : ℕ) :
    Fallible LimiterState Halt RateLimitReply := do
  startWindow call count
  let ttl ← command call.ttl fun s => s.ttl call.now call.fullKey
  pure
    { limited := count > call.config.limit
      remaining := max 0 (call.config.limit - count)
      resetTime := call.now + ttl * 1000 }

/-- Count in Redis. -/
def countInRedis (call : RateLimitCall) : Fallible LimiterState Halt RateLimitReply := do
  let count ← command call.incr fun s => s.incr call.now call.fullKey
  replyInRedis call count

/-- Open a window in the map. -/
def openWindow (call : RateLimitCall) (s : LimiterState) :
    Except Halt RateLimitReply × LimiterState :=
  (.ok { limited := false, remaining := call.config.limit - 1
         resetTime := call.now + call.config.windowMs },
    { s with
        memoryStore := Function.update s.memoryStore call.fullKey
          (some { count := 1, resetTime := call.now + call.config.windowMs }) })

/-- Count in the map of the process. -/
def countInMemory (call : RateLimitCall) : Fallible LimiterState Halt RateLimitReply := fun s =>
  match s.memoryStore call.fullKey with
  | none => openWindow call s
  | some entry =>
      if call.now > entry.resetTime then openWindow call s
      else
        let count := entry.count + 1
        (.ok { limited := count > call.config.limit
               remaining := max 0 (call.config.limit - count), resetTime := entry.resetTime },
          { s with
              memoryStore :=
                Function.update s.memoryStore call.fullKey (some { entry with count }) })

/-- Count a request; an error of Redis falls back to the map. -/
def isRateLimited (call : RateLimitCall) : Fallible LimiterState Halt RateLimitReply := fun s =>
  if call.cacheActive then
    match countInRedis call s with
    | (.error .failed, s') => countInMemory call s'
    | outcome => outcome
  else countInMemory call s

/-- Remove the entries whose window is over. -/
def cleanup (now : ℕ) (s : LimiterState) : LimiterState :=
  { s with memoryStore := fun key => (s.memoryStore key).filter fun e => !(now > e.resetTime) }

/-! ## Runs -/

inductive LimiterAction
  | request (call : RateLimitCall)
  | cleanup (now : ℕ)
deriving DecidableEq, Repr

namespace LimiterAction

def now : LimiterAction → ℕ
  | request call => call.now
  | cleanup now => now

/-- The action is a request under the key. -/
def requests (key : String) : LimiterAction → Bool
  | request call => call.fullKey == key
  | cleanup _ => false

/-- A property of the call, if the action is one. -/
def OnCall (P : RateLimitCall → Prop) : LimiterAction → Prop
  | request call => P call
  | cleanup _ => True

instance (P : RateLimitCall → Prop) [DecidablePred P] : DecidablePred (OnCall P)
  | request call => inferInstanceAs (Decidable (P call))
  | cleanup _ => inferInstanceAs (Decidable True)

end LimiterAction

/-- The limiter of a process. -/
def limiter : Machine LimiterAction LimiterState (Option (Except Halt RateLimitReply)) where
  step
    | .request call, s => (some (isRateLimited call s).1, (isRateLimited call s).2)
    | .cleanup now, s => (none, cleanup now s)

/-- The replies to the requests under a key. -/
def repliesTo (key : String) :
    List LimiterAction → LimiterState → List (Option (Except Halt RateLimitReply))
  | [], _ => []
  | action :: actions, s =>
      let later := repliesTo key actions (limiter.step action s).2
      if action.requests key then (limiter.step action s).1 :: later else later

/-- The times of the requests under a key. -/
def timesOf (key : String) (actions : List LimiterAction) : List ℕ :=
  (actions.filter (·.requests key)).map (·.now)

/-- The actions come in the order of their times. -/
def InOrder (actions : List LimiterAction) : Prop :=
  actions.Pairwise fun a b => a.now ≤ b.now

instance (actions : List LimiterAction) : Decidable (InOrder actions) :=
  inferInstanceAs (Decidable (List.Pairwise _ _))

section Requests

variable {key : String} {action : LimiterAction}

theorem repliesTo_own (h : action.requests key = true) (actions : List LimiterAction)
    (s : LimiterState) :
    repliesTo key (action :: actions) s =
      (limiter.step action s).1 :: repliesTo key actions (limiter.step action s).2 :=
  if_pos h

theorem repliesTo_other (h : action.requests key = false) (actions : List LimiterAction)
    (s : LimiterState) :
    repliesTo key (action :: actions) s = repliesTo key actions (limiter.step action s).2 :=
  if_neg (Bool.eq_false_iff.mp h)

theorem timesOf_own (h : action.requests key = true) (actions : List LimiterAction) :
    timesOf key (action :: actions) = action.now :: timesOf key actions := by
  unfold timesOf
  rw [List.filter_cons_of_pos h, List.map_cons]

theorem timesOf_other (h : action.requests key = false) (actions : List LimiterAction) :
    timesOf key (action :: actions) = timesOf key actions := by
  unfold timesOf
  rw [List.filter_cons_of_neg (Bool.eq_false_iff.mp h)]

end Requests

/-! ## Counting in memory -/

/-- The reply when a window shows this count. -/
def replyOf (config : RateLimitConfig) (window : FixedWindow) : RateLimitReply where
  limited := window.count > config.limit
  remaining := max 0 (config.limit - window.count)
  resetTime := window.resetTime

section Memory

variable {call : RateLimitCall} {config : RateLimitConfig} {key : String}

/-- In memory, a request is a hit of the window under its key. -/
theorem countInMemory_state (s : LimiterState) :
    (countInMemory call s).2 =
      { s with
        memoryStore := Function.update s.memoryStore call.fullKey
          (some (FixedWindow.hit call.config.windowMs call.now
            (s.memoryStore call.fullKey))) } := by
  unfold countInMemory
  cases s.memoryStore call.fullKey with
  | none => rfl
  | some entry =>
      by_cases hover : call.now > entry.resetTime
      · simp only [if_pos hover, FixedWindow.hit_over hover]
        rfl
      · simp only [if_neg hover, FixedWindow.hit_within (Nat.not_lt.mp hover)]

theorem openWindow_reply (hlimit : 1 ≤ call.config.limit) (s : LimiterState) :
    (openWindow call s).1 =
      .ok (replyOf call.config (FixedWindow.hit call.config.windowMs call.now none)) := by
  have hlimited : decide (((1 : ℕ) : ℤ) > call.config.limit) = false :=
    decide_eq_false (by omega)
  have hremaining : max 0 (call.config.limit - (1 : ℕ)) = call.config.limit - 1 := by omega
  unfold openWindow replyOf
  rw [FixedWindow.hit_none, hlimited, hremaining]
  rfl

/-- The reply shows the window after the request. -/
theorem countInMemory_reply (hlimit : 1 ≤ call.config.limit) (s : LimiterState) :
    (countInMemory call s).1 =
      .ok (replyOf call.config
        (FixedWindow.hit call.config.windowMs call.now (s.memoryStore call.fullKey))) := by
  unfold countInMemory
  cases s.memoryStore call.fullKey with
  | none => exact openWindow_reply hlimit s
  | some entry =>
      by_cases hover : call.now > entry.resetTime
      · simp only [if_pos hover, FixedWindow.hit_over hover]
        exact openWindow_reply hlimit s
      · simp only [if_neg hover, FixedWindow.hit_within (Nat.not_lt.mp hover)]
        rfl

/-- A request under another key leaves the entry of a key alone. -/
theorem countInMemory_other (hne : call.fullKey ≠ key) (s : LimiterState) :
    (countInMemory call s).2.memoryStore key = s.memoryStore key := by
  rw [countInMemory_state]
  exact Function.update_of_ne hne.symm _ _

theorem isRateLimited_of_unavailable (h : call.Unavailable) (s : LimiterState) :
    isRateLimited call s = countInMemory call s := by
  unfold isRateLimited
  rcases h with hinactive | hfailed
  · rw [hinactive]
    rfl
  · have hredis : countInRedis call s = (.error .failed, s) := by
      unfold countInRedis
      rw [hfailed]
      rfl
    rw [hredis]
    exact ite_self _

/-- The clean-up leaves a key as it was, up to a window that is over. -/
theorem cleanup_equivalent (now : ℕ) (s : LimiterState) (key : String) :
    FixedWindow.Equivalent now ((cleanup now s).memoryStore key) (s.memoryStore key) := by
  change FixedWindow.Equivalent now
    ((s.memoryStore key).filter fun e => !(decide (now > e.resetTime))) (s.memoryStore key)
  cases s.memoryStore key with
  | none => exact Or.inl rfl
  | some entry =>
      by_cases hover : now > entry.resetTime
      · exact Or.inr ⟨by simp [Option.filter, hover, FixedWindow.Over], hover⟩
      · exact Or.inl (by simp [Option.filter, Nat.not_lt.mp hover])

/-- Along a run without Redis, the replies under a key are those of a window counter at the times
of its requests. -/
theorem run_repliesTo {actions : List LimiterAction} {s : LimiterState}
    {window : Option FixedWindow} {since : ℕ} (hlimit : 1 ≤ config.limit)
    (hunavailable : ∀ a ∈ actions, a.OnCall RateLimitCall.Unavailable)
    (hconfig : ∀ a ∈ actions, a.OnCall fun call => call.fullKey = key → call.config = config)
    (hsince : ∀ a ∈ actions, since ≤ a.now) (horder : InOrder actions)
    (hwindow : FixedWindow.Equivalent since (s.memoryStore key) window) :
    repliesTo key actions s =
      (FixedWindow.hits config.windowMs window (timesOf key actions)).map fun w =>
        some (.ok (replyOf config w)) := by
  induction actions generalizing s window since with
  | nil => rfl
  | cons action actions ih =>
      have hnow := hwindow.mono (hsince action List.mem_cons_self)
      have hrest := fun {s window} => @ih s window action.now
        (fun a ha => hunavailable a (List.mem_cons_of_mem _ ha))
        (fun a ha => hconfig a (List.mem_cons_of_mem _ ha))
        (List.pairwise_cons.mp horder).1 (List.pairwise_cons.mp horder).2
      cases action with
      | cleanup now =>
          have hcleaned : FixedWindow.Equivalent now ((cleanup now s).memoryStore key) window :=
            (cleanup_equivalent now s key).trans hnow
          exact hrest hcleaned
      | request call =>
          have hmemory := isRateLimited_of_unavailable (hunavailable _ List.mem_cons_self) s
          by_cases hkey : call.fullKey = key
          · have hown : LimiterAction.requests key (.request call) = true := beq_iff_eq.mpr hkey
            have hcall : call.config = config := hconfig _ List.mem_cons_self hkey
            have hreply := countInMemory_reply (hcall ▸ hlimit) s
            have hstate : (countInMemory call s).2 = _ := countInMemory_state s
            have hequivalent : FixedWindow.Equivalent call.now (s.memoryStore key) window := hnow
            rw [hkey, hcall, FixedWindow.hit_of_equivalent hequivalent] at hreply hstate
            have hstep : limiter.step (.request call) s =
                (some (countInMemory call s).1, (countInMemory call s).2) := by
              rw [← hmemory]
              rfl
            rw [repliesTo_own hown, timesOf_own hown, FixedWindow.hits, List.map_cons, hstep,
              hreply, hstate]
            refine congrArg (_ :: ·) (hrest (Or.inl ?_))
            exact Function.update_self _ _ _
          · have hskip : LimiterAction.requests key (.request call) = false :=
              beq_eq_false_iff_ne.mpr hkey
            have hother : (limiter.step (.request call) s).2.memoryStore key =
                s.memoryStore key := by
              change (isRateLimited call s).2.memoryStore key = _
              rw [hmemory, countInMemory_other hkey]
            rw [repliesTo_other hskip, timesOf_other hskip, hrest (hother.symm ▸ hnow)]

/-- The replies of one window: its first {lit}`limit` requests are let through. -/
def windowReplies (config : RateLimitConfig) : List ℕ → List RateLimitReply
  | [] => []
  | opening :: times =>
      (List.range (opening :: times).length).map fun i : ℕ =>
        { limited := config.limit ≤ i
          remaining := max 0 (config.limit - (i + 1))
          resetTime := opening + config.windowMs }

theorem map_replyOf_shown (config : RateLimitConfig) (window : List ℕ) :
    (FixedWindow.shown config.windowMs window).map (replyOf config) =
      windowReplies config window := by
  cases window with
  | nil => rfl
  | cons opening times =>
      unfold FixedWindow.shown FixedWindow.counted windowReplies
      rw [List.map_map]
      refine List.map_congr_left fun i _ => ?_
      have hcount : ((0 + i + 1 : ℕ) : ℤ) = i + 1 := by omega
      have hlimited : (i : ℤ) + 1 > config.limit ↔ config.limit ≤ i := by omega
      simp only [Function.comp_apply, replyOf, hcount, hlimited, Int.natCast_add]

/-- Of numbered requests, at most {lit}`limit` have a number below it. -/
theorem countP_range_le {limit : ℤ} (hlimit : 1 ≤ limit) (n : ℕ) :
    (((List.range n).countP fun i : ℕ => !decide (limit ≤ i) : ℕ) : ℤ) ≤ limit := by
  induction n with
  | zero =>
      change (0 : ℤ) ≤ limit
      omega
  | succ n ih =>
      have hlength := List.countP_le_length (l := List.range n)
        (p := fun i : ℕ => !decide (limit ≤ i))
      rw [List.length_range] at hlength
      rw [List.range_succ, List.countP_append, List.countP_singleton]
      by_cases hn : limit ≤ n
      · rw [if_neg (by simpa using hn)]
        exact ih
      · rw [if_pos (by simpa using hn)]
        omega

/-- A window lets at most {lit}`limit` requests through. -/
theorem windowReplies_allowed (hlimit : 1 ≤ config.limit) (window : List ℕ) :
    ((windowReplies config window).countP (!·.limited) : ℤ) ≤ config.limit := by
  cases window with
  | nil =>
      change (0 : ℤ) ≤ config.limit
      omega
  | cons opening times =>
      unfold windowReplies
      rw [List.countP_map]
      exact countP_range_le hlimit _

/-- From a state without an entry of the key, the replies are those of the windows. -/
theorem repliesTo_eq_windows {actions : List LimiterAction} {s : LimiterState}
    (hlimit : 1 ≤ config.limit) (horder : InOrder actions)
    (hunavailable : ∀ a ∈ actions, a.OnCall RateLimitCall.Unavailable)
    (hconfig : ∀ a ∈ actions, a.OnCall fun call => call.fullKey = key → call.config = config)
    (hfresh : s.memoryStore key = none) :
    repliesTo key actions s =
      ((FixedWindow.windows config.windowMs (timesOf key actions)).flatMap
        (windowReplies config)).map fun reply => some (.ok reply) := by
  rw [run_repliesTo hlimit hunavailable hconfig (fun _ _ => Nat.zero_le _) horder
    (Or.inl hfresh), FixedWindow.hits_eq_windows, List.map_flatMap, List.map_flatMap]
  refine List.flatMap_congr fun window _ => ?_
  rw [← map_replyOf_shown, List.map_map]
  rfl

/-- An action that is no request under the key leaves the times of its requests. -/
theorem timesOf_insert {before after : List LimiterAction} {action : LimiterAction}
    (h : action.requests key = false) :
    timesOf key (before ++ action :: after) = timesOf key (before ++ after) := by
  induction before with
  | nil => exact timesOf_other h after
  | cons a before ih =>
      cases ha : a.requests key with
      | true => rw [List.cons_append, List.cons_append, timesOf_own ha, timesOf_own ha, ih]
      | false => rw [List.cons_append, List.cons_append, timesOf_other ha, timesOf_other ha, ih]

/-- A property of the calls of a run, with an action put in. -/
theorem onCall_insert {P : RateLimitCall → Prop} {before after : List LimiterAction}
    {action : LimiterAction} (h : ∀ a ∈ before ++ after, a.OnCall P) (haction : action.OnCall P) :
    ∀ a ∈ before ++ action :: after, a.OnCall P := by
  intro a ha
  rcases List.mem_append.mp ha with hbefore | hlater
  · exact h a (List.mem_append_left _ hbefore)
  · rcases List.mem_cons.mp hlater with rfl | hafter
    · exact haction
    · exact h a (List.mem_append_right _ hafter)

/-- Without Redis, the replies under a key are those of the windows into which its requests fall:
a window opens at the first request and at each first request strictly after a reset time, its
first {lit}`limit` requests are let through, and each reply tells what is left.  Requests under
other keys and clean-ups, put in anywhere, change no reply. -/
theorem memory_windows {actions : List LimiterAction} {s : LimiterState}
    (hlimit : 1 ≤ config.limit) (horder : InOrder actions)
    (hunavailable : ∀ a ∈ actions, a.OnCall RateLimitCall.Unavailable)
    (hconfig : ∀ a ∈ actions, a.OnCall fun call => call.fullKey = key → call.config = config)
    (hfresh : s.memoryStore key = none) :
    repliesTo key actions s =
        ((FixedWindow.windows config.windowMs (timesOf key actions)).flatMap
          (windowReplies config)).map (fun reply => some (.ok reply)) ∧
      (∀ window ∈ FixedWindow.windows config.windowMs (timesOf key actions),
        ((windowReplies config window).countP (!·.limited) : ℤ) ≤ config.limit) ∧
      ∀ before after action, actions = before ++ after → action.requests key = false →
        action.OnCall RateLimitCall.Unavailable → InOrder (before ++ action :: after) →
        repliesTo key (before ++ action :: after) s = repliesTo key actions s := by
  refine ⟨repliesTo_eq_windows hlimit horder hunavailable hconfig hfresh,
    fun window _ => windowReplies_allowed hlimit window, ?_⟩
  rintro before after action rfl hother hdown hinserted
  have hforeign : action.OnCall fun call => call.fullKey = key → call.config = config := by
    cases action with
    | cleanup now => trivial
    | request call => exact fun hkey => absurd hkey (beq_eq_false_iff_ne.mp hother)
  rw [repliesTo_eq_windows hlimit horder hunavailable hconfig hfresh,
    repliesTo_eq_windows hlimit hinserted (onCall_insert hunavailable hdown)
      (onCall_insert hconfig hforeign) hfresh, timesOf_insert hother]

/-! ## Two windows of one client -/

def authTier : RateLimitConfig where
  limit := 2
  windowMs := 1000
  keyPrefix := "auth"

/-- A request while the cache is not connected. -/
def offlineCall (key : String) (now : ℕ) : RateLimitCall where
  key := key
  config := authTier
  now := now
  cacheActive := false

/-- Three requests of a client in one window, the last at its end, and one after it; between
them a request of somebody else and a clean-up. -/
def clientActions : List LimiterAction :=
  [.request (offlineCall "10.0.0.1" 0), .request (offlineCall "10.0.0.1" 400),
    .request (offlineCall "10.0.0.2" 500), .request (offlineCall "10.0.0.1" 1000),
    .cleanup 1001, .request (offlineCall "10.0.0.1" 1001)]

theorem client_windows :
    repliesTo "ratelimit:auth:10.0.0.1" clientActions {} =
      [some (.ok ⟨false, 1, 1000⟩), some (.ok ⟨false, 0, 1000⟩), some (.ok ⟨true, 0, 1000⟩),
        some (.ok ⟨false, 1, 2001⟩)] := by
  have hreplies := (@memory_windows authTier "ratelimit:auth:10.0.0.1" clientActions {}
    (by decide) (by decide) (by decide) (by decide) rfl).1
  have htimes : timesOf "ratelimit:auth:10.0.0.1" clientActions = [0, 400, 1000, 1001] := by
    decide
  rw [hreplies, htimes]
  have hwindows : FixedWindow.windows 1000 [0, 400, 1000, 1001] = [[0, 400, 1000], [1001]] := by
    simp [FixedWindow.windows]
  change List.map _ (List.flatMap _ (FixedWindow.windows 1000 _)) = _
  rw [hwindows]
  decide

end Memory

end RateLimitService
end Eleva
