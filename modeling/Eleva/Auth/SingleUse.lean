import Mathlib.Data.Fintype.Option
import Eleva.Foundation.OnceGuard
import Eleva.Auth.AuthController

/-!
# Auth - Concurrent refreshes and logouts

Any number of refresh and logout requests on one session store.  The verification of a
token, the reads of the cache, its writes and the signing are different steps, and a
fallback value that a read sent back lands whenever the connection delivers it.

Main results:

- Theorem {lit}`refresh_single_use`: where the checks of one token do not overlap with its
  rotation and no fallback undoes a marker, a refresh token is exchanged at most once, and
  not after a logout of its session.
- Theorem {lit}`refresh_replayed`: two requests with one token both exchange it, and a third
  one exchanges the token of a session that has logged out.
- Theorem {lit}`refresh_alone`: a refresh whose steps are not interleaved is
  {lit}`rotateRefreshToken`.
-/

namespace Eleva
namespace Auth

open Foundation Database Cache

/-- A request on the session store. -/
inductive SessionCall where
  | refresh (cookie : Option RefreshToken)
  | logout (req : JwtRequest) (bearer : AccessToken) (cookie : Option RefreshToken)
deriving DecidableEq, Repr

/-- How far a request has come. -/
inductive SessionPhase where
  | start
  | verified
  | unmarked
  | marked
  | exchanged (accessToken : AccessToken) (refreshToken : RefreshToken)
  | answered (accessToken : AccessToken) (refreshToken : RefreshToken)
  | bearerVerified
  | notBlacklisted
  | guarded
  | blacklisted
  | loggedOut
  | failed (e : AppError)
deriving DecidableEq, Repr

/-- What the surroundings add to a step: the time since the last one, which sent value
lands, and the text that the CSRF generator draws. -/
structure Tick where
  elapsed : ℕ := 0
  slot : ℕ := 0
  csrfToken : String := ""
deriving DecidableEq, Repr

/-- The next step of a refresh with a token. -/
def refreshStep (t : RefreshToken) (tick : Tick) (s : Sessions) :
    SessionPhase → Sessions × SessionPhase
  | .start => (s, if s.verifiesRefresh t then .verified else .failed refreshFailed)
  | .verified =>
      ((markerRead t s).2, if (markerRead t s).1 then .failed refreshFailed else .unmarked)
  | .unmarked => (markRotated t s, .marked)
  | .marked =>
      (s.signed t.rotatedPayload,
        .exchanged (s.accessTokenFor t.rotatedPayload) (s.refreshTokenFor t.rotatedPayload))
  | .exchanged a r => ((answerRefresh tick.csrfToken (a, r, t.sub) s).2, .answered a r)
  | phase => (s, phase)

/-- The next step of a logout. -/
def logoutStep (req : JwtRequest) (bearer : AccessToken) (s : Sessions) :
    SessionPhase → Sessions × SessionPhase
  | .start =>
      if s.verifiesAccess bearer then (s, .bearerVerified)
      else (s, .failed (.unauthorized "Unauthorized"))
  | .bearerVerified =>
      match rejectBlacklisted req s with
      | (.ok _, s) => (s, .notBlacklisted)
      | (.error e, s) => (s, .failed e)
  | .notBlacklisted =>
      match rejectRevoked bearer s with
      | (.ok _, s) =>
          match reconcileTenant req bearer.payload none with
          | .ok _ => (s, .guarded)
          | .error e => (s, .failed e)
      | (.error e, s) => (s, .failed e)
  | .guarded => (blacklistToken req.headerText 900 s, .blacklisted)
  | .blacklisted =>
      (if bearer.payload.sub = "" then s else csrfDeleteToken bearer.payload.sub s, .loggedOut)
  | phase => (s, phase)

/-- The next step of a request. -/
def sessionStep (call : SessionCall) (tick : Tick) (s : Sessions) (phase : SessionPhase) :
    Sessions × SessionPhase :=
  match call with
  | .refresh none => (s, if phase = .start then .failed refreshCookieMissing else phase)
  | .refresh (some t) => refreshStep t tick s phase
  | .logout req bearer _ => logoutStep req bearer s phase

variable {ι : Type} [DecidableEq ι]

/-- Any number of requests on one session store; {lit}`none` is the connection of the cache,
which delivers what was sent back. -/
def sessionCalls (calls : ι → SessionCall) :
    CallSystem (Option ι) Tick Sessions SessionPhase where
  next i tick s phase :=
    match i with
    | none => ((s.advance tick.elapsed).land tick.slot, phase)
    | some i => sessionStep (calls i) tick (s.advance tick.elapsed) phase

/-- A configuration of a run. -/
abbrev SessionConfig (ι : Type) := Config (Option ι) Sessions SessionPhase

/-! ## What the steps do to the markers -/

/-- The clock, the signed refresh tokens and the markers of rotated tokens are the same. -/
structure SameMarkers (s s' : Sessions) : Prop where
  now : s'.cache.redis.now = s.cache.redis.now
  signed : s'.refreshTokens = s.refreshTokens
  markers : ∀ t, s'.cache.redis.entry (.blacklistToken t) =
    s.cache.redis.entry (.blacklistToken t)

theorem SameMarkers.refl (s : Sessions) : SameMarkers s s :=
  ⟨rfl, rfl, fun _ => rfl⟩

theorem SameMarkers.trans {s s₁ s₂ : Sessions} (h₁ : SameMarkers s s₁)
    (h₂ : SameMarkers s₁ s₂) : SameMarkers s s₂ where
  now := h₂.now.trans h₁.now
  signed := h₂.signed.trans h₁.signed
  markers t := (h₂.markers t).trans (h₁.markers t)

/-- A read leaves the markers. -/
theorem sameMarkers_get (s : Sessions) (key : SessionKey) (fallback : SessionValue)
    (ttlSeconds : ℕ) : SameMarkers s (s.get key fallback ttlSeconds).2 := by
  constructor
  · rw [get_redis]
  · rfl
  · intro t
    rw [get_redis]

/-- A write to another key leaves the markers. -/
theorem sameMarkers_set (s : Sessions) {key : SessionKey} (value : SessionValue)
    (ttlSeconds : ℕ) (hkey : ∀ t, SessionKey.blacklistToken t ≠ key) :
    SameMarkers s (s.set key value ttlSeconds) where
  now := CacheState.setEx_now ..
  signed := rfl
  markers t := CacheState.setEx_entry_of_ne _ (hkey t) _ _

theorem sameMarkers_rejectBlacklisted (req : JwtRequest) (s : Sessions) :
    SameMarkers s (rejectBlacklisted req s).2 := by
  have hread : SameMarkers s (isTokenBlacklisted req.headerText s).2 := sameMarkers_get ..
  unfold rejectBlacklisted
  rcases hlisted : isTokenBlacklisted req.headerText s with ⟨listed, s₁⟩
  rw [hlisted] at hread
  cases listed <;> exact hread

theorem sameMarkers_cutoff (userId : Id) (s : Sessions) :
    SameMarkers s (getUserRevocationCutoff userId s).2 := by
  unfold getUserRevocationCutoff
  by_cases hempty : userId = ""
  · rw [if_pos hempty]
    exact .refl s
  · rw [if_neg hempty]
    have hread := sameMarkers_get s (.revokedUser userId) (.number 0)
      USER_REVOCATION_TTL_SECONDS
    rcases hvalue : s.get (.revokedUser userId) (.number 0) USER_REVOCATION_TTL_SECONDS with
      ⟨value, s₁⟩
    rw [hvalue] at hread
    cases value <;> exact hread

theorem sameMarkers_rejectRevoked (token : AccessToken) (s : Sessions) :
    SameMarkers s (rejectRevoked token s).2 := by
  have hread := sameMarkers_cutoff token.payload.sub s
  unfold rejectRevoked
  rcases hcutoff : getUserRevocationCutoff token.payload.sub s with ⟨revokedAt, s₁⟩
  rw [hcutoff] at hread
  simp only
  split <;> exact hread

/-- A logout leaves the markers: it never names the refresh token. -/
theorem logoutStep_sameMarkers (req : JwtRequest) (bearer : AccessToken) (s : Sessions)
    (phase : SessionPhase) : SameMarkers s (logoutStep req bearer s phase).1 := by
  cases phase with
  | start =>
      simp only [logoutStep]
      split <;> exact .refl s
  | bearerVerified =>
      have hread := sameMarkers_rejectBlacklisted req s
      simp only [logoutStep]
      rcases hrun : rejectBlacklisted req s with ⟨result, s₁⟩
      rw [hrun] at hread
      cases result <;> exact hread
  | notBlacklisted =>
      have hread := sameMarkers_rejectRevoked bearer s
      simp only [logoutStep]
      rcases hrun : rejectRevoked bearer s with ⟨result, s₁⟩
      rw [hrun] at hread
      cases result with
      | error e => exact hread
      | ok u =>
          simp only
          split <;> exact hread
  | guarded => exact sameMarkers_set s _ _ fun t h => by cases h
  | blacklisted =>
      simp only [logoutStep]
      split
      · exact .refl s
      · refine ⟨rfl, rfl, fun t => CacheState.del_entry_of_ne _ ?_⟩
        intro h
        cases h
  | verified => exact .refl s
  | unmarked => exact .refl s
  | marked => exact .refl s
  | exchanged a r => exact .refl s
  | answered a r => exact .refl s
  | loggedOut => exact .refl s
  | failed e => exact .refl s

/-- A step of a refresh leaves the markers, sets that of its token, or signs a pair. -/
theorem refreshStep_effect (t : RefreshToken) (tick : Tick) (s : Sessions)
    (phase : SessionPhase) :
    SameMarkers s (refreshStep t tick s phase).1 ∨
      phase = .unmarked ∧ (refreshStep t tick s phase).1 = markRotated t s ∨
      phase = .marked ∧ (refreshStep t tick s phase).1 = s.signed t.rotatedPayload := by
  cases phase with
  | verified => exact Or.inl (sameMarkers_get ..)
  | unmarked => exact Or.inr (Or.inl ⟨rfl, rfl⟩)
  | marked => exact Or.inr (Or.inr ⟨rfl, rfl⟩)
  | exchanged a r =>
      left
      simp only [refreshStep, answerRefresh]
      split
      · exact .refl s
      · exact sameMarkers_set s _ _ fun t h => by cases h
  | start => exact Or.inl (.refl s)
  | answered a r => exact Or.inl (.refl s)
  | bearerVerified => exact Or.inl (.refl s)
  | notBlacklisted => exact Or.inl (.refl s)
  | guarded => exact Or.inl (.refl s)
  | blacklisted => exact Or.inl (.refl s)
  | loggedOut => exact Or.inl (.refl s)
  | failed e => exact Or.inl (.refl s)

section Requests

variable (calls : ι → SessionCall)

/-- The token that a request asks to exchange. -/
def refreshedBy (i : Option ι) : Option RefreshToken :=
  i.bind fun i =>
    match calls i with
    | .refresh cookie => cookie
    | .logout _ _ _ => none

/-- The refresh token of the session that a request ends. -/
def endedBy (i : Option ι) : Option RefreshToken :=
  i.bind fun i =>
    match calls i with
    | .refresh _ => none
    | .logout _ _ cookie => cookie

omit [DecidableEq ι] in
/-- The step of a request that asks to exchange a token. -/
theorem next_of_refreshedBy {i : Option ι} {t : RefreshToken} (hi : refreshedBy calls i = some t)
    (tick : Tick) (s : Sessions) (phase : SessionPhase) :
    (sessionCalls calls).next i tick s phase =
      refreshStep t tick (s.advance tick.elapsed) phase := by
  cases i with
  | none => cases hi
  | some i =>
      simp only [refreshedBy, Option.bind_some] at hi
      simp only [sessionCalls]
      cases hcall : calls i with
      | refresh cookie =>
          rw [hcall] at hi
          simp only at hi
          subst hi
          rfl
      | logout req bearer cookie =>
          rw [hcall] at hi
          cases hi

/-- What one step does to the markers: time passes, and a value lands, a refresh marks its
token, a refresh signs a pair, or nothing else happens to them. -/
theorem session_step_effect (c : SessionConfig ι) (l : Option ι × Tick) :
    l.1 = none ∧ ((sessionCalls calls).step c l).shared =
        (c.shared.advance l.2.elapsed).land l.2.slot ∨
      SameMarkers (c.shared.advance l.2.elapsed) ((sessionCalls calls).step c l).shared ∨
      (∃ t, refreshedBy calls l.1 = some t ∧ c.phase l.1 = .unmarked ∧
        ((sessionCalls calls).step c l).shared =
          markRotated t (c.shared.advance l.2.elapsed)) ∨
      ∃ t, refreshedBy calls l.1 = some t ∧ c.phase l.1 = .marked ∧
        ((sessionCalls calls).step c l).shared =
          (c.shared.advance l.2.elapsed).signed t.rotatedPayload := by
  rcases l with ⟨_ | i, tick⟩
  · exact Or.inl ⟨rfl, rfl⟩
  · right
    rw [CallSystem.step_shared]
    cases hcall : calls i with
    | logout req bearer cookie =>
        left
        simp only [sessionCalls, sessionStep, hcall]
        exact logoutStep_sameMarkers ..
    | refresh cookie =>
        cases cookie with
        | none =>
            left
            simp only [sessionCalls, sessionStep, hcall]
            exact .refl _
        | some t =>
            have hi : refreshedBy calls (some i) = some t := by
              simp [refreshedBy, hcall]
            rw [next_of_refreshedBy calls hi]
            rcases refreshStep_effect t tick (c.shared.advance tick.elapsed)
                (c.phase (some i)) with hsame | ⟨hphase, hmark⟩ | ⟨hphase, hsign⟩
            · exact Or.inl hsame
            · exact Or.inr (Or.inl ⟨t, hi, hphase, hmark⟩)
            · exact Or.inr (Or.inr ⟨t, hi, hphase, hsign⟩)

/-- The clock moves by the time that has passed. -/
theorem session_step_now (c : SessionConfig ι) (l : Option ι × Tick) :
    ((sessionCalls calls).step c l).shared.cache.redis.now =
      c.shared.cache.redis.now + l.2.elapsed := by
  rcases session_step_effect calls c l with ⟨_, hland⟩ | hsame | ⟨t, _, _, hmark⟩ |
    ⟨t, _, _, hsign⟩
  · rw [hland]
    exact CacheState.land_now _ _
  · exact hsame.now
  · rw [hmark]
    exact CacheState.setEx_now ..
  · rw [hsign]
    rfl

/-- Signed refresh tokens stay signed. -/
theorem signed_stays {c : SessionConfig ι} {l : Option ι × Tick} {t : RefreshToken}
    (ht : t ∈ c.shared.refreshTokens) :
    t ∈ ((sessionCalls calls).step c l).shared.refreshTokens := by
  rcases session_step_effect calls c l with ⟨_, hland⟩ | hsame | ⟨t', _, _, hmark⟩ |
    ⟨t', _, _, hsign⟩
  · rw [hland]
    exact ht
  · rw [hsame.signed]
    exact ht
  · rw [hmark]
    exact ht
  · rw [hsign]
    exact List.mem_cons_of_mem _ ht

/-! ## The conditions of a step -/

/-- The step reads the marker of the token for a refresh and does not find it set. -/
def FindsUnmarked (c : SessionConfig ι) (l : Option ι × Tick) (t : RefreshToken) : Prop :=
  refreshedBy calls l.1 = some t ∧ c.phase l.1 = .verified ∧
    (markerRead t (c.shared.advance l.2.elapsed)).1 = false

/-- The marker of the token has been written. -/
def HasMarker (s : Sessions) (t : RefreshToken) : Prop :=
  ∃ deadline, s.cache.redis.entry (.blacklistToken t) = some (.flag true, deadline)

/-- A step that keeps a refresh token to one exchange: when a refresh does not find the
marker, no other refresh of the token is between its own look and its marking, the token has
not expired, and no logout of its session has completed; a fallback lands on no marker of a
token that has not expired; and a logout completes only when no refresh of its session's
token is past its look and before its exchange. -/
structure KeepsSingleUse (c : SessionConfig ι) (l : Option ι × Tick) : Prop where
  alone : ∀ t, FindsUnmarked calls c l t →
    ∀ j, refreshedBy calls j = some t → c.phase j ≠ .unmarked
  timely : ∀ t, FindsUnmarked calls c l t →
    c.shared.cache.redis.now + l.2.elapsed < 1000 * t.exp
  kept : ∀ t, l.1 = none → HasMarker c.shared t →
    ((c.shared.advance l.2.elapsed).cache.landing l.2.slot (.blacklistToken t)).isSome = true →
      1000 * t.exp ≤ c.shared.cache.redis.now + l.2.elapsed
  live : ∀ t, FindsUnmarked calls c l t →
    ∀ j, endedBy calls j = some t → c.phase j ≠ .loggedOut
  settled : ∀ t, endedBy calls l.1 = some t → c.phase l.1 = .blacklisted →
    ∀ j, refreshedBy calls j = some t → c.phase j ≠ .unmarked ∧ c.phase j ≠ .marked

/-- The request has exchanged its token. -/
def SessionPhase.hasExchanged : SessionPhase → Bool
  | .exchanged _ _ => true
  | .answered _ _ => true
  | _ => false

/-- Every token is exchanged by at most one request. -/
def ExchangedOnce (c : SessionConfig ι) : Prop :=
  ∀ t i j, refreshedBy calls i = some t → refreshedBy calls j = some t →
    (c.phase i).hasExchanged = true → (c.phase j).hasExchanged = true → i = j

/-- The step does not exchange the token of a session that has logged out. -/
def NotAfterLogout (c : SessionConfig ι) (l : Option ι × Tick) : Prop :=
  ∀ t, refreshedBy calls l.1 = some t → (c.phase l.1).hasExchanged = false →
    (((sessionCalls calls).step c l).phase l.1).hasExchanged = true →
      ∀ j, endedBy calls j = some t → c.phase j ≠ .loggedOut

/-- The tokens were signed before now. -/
def SignedBefore (s : Sessions) : Prop :=
  ∀ t ∈ s.refreshTokens, 1000 * t.iat ≤ s.cache.redis.now

/-! ## Rotation as work that a marker admits once -/

/-- Refreshes with the markers of their tokens. -/
def rotationGuard : OnceGuard (sessionCalls calls) RefreshToken where
  key := refreshedBy calls
  stage
    | .start => .before
    | .verified => .before
    | .unmarked => .inside
    | .marked => .marked
    | .exchanged _ _ => .marked
    | .answered _ _ => .marked
    | _ => .left
  stored s t := 1000 * t.exp ≤ s.cache.redis.now ∨ ∃ deadline, 1000 * t.exp ≤ deadline ∧
    s.cache.redis.entry (.blacklistToken t) = some (.flag true, deadline)
  seen c l t := (markerRead t (c.shared.advance l.2.elapsed)).1 = true

/-- The tokens were signed before now, and a refresh that is under way holds a signed
token. -/
def Issued (c : SessionConfig ι) : Prop :=
  SignedBefore c.shared ∧ ∀ i t, refreshedBy calls i = some t →
    (c.phase i = .verified ∨ c.phase i = .unmarked) → t ∈ c.shared.refreshTokens

/-! ## The steps of a refresh -/

section Phases

variable {t : RefreshToken} {tick : Tick} {s : Sessions} {phase : SessionPhase}

theorem refreshStep_eq_verified (h : (refreshStep t tick s phase).2 = .verified) :
    phase = .start ∧ s.verifiesRefresh t = true := by
  cases phase <;> simp only [refreshStep] at h
  case start =>
    by_cases hverifies : s.verifiesRefresh t = true
    · exact ⟨rfl, hverifies⟩
    · rw [if_neg hverifies] at h
      cases h
  case verified => split at h <;> cases h
  all_goals cases h

theorem refreshStep_eq_unmarked (h : (refreshStep t tick s phase).2 = .unmarked) :
    phase = .verified ∧ (markerRead t s).1 = false := by
  cases phase <;> simp only [refreshStep] at h
  case start => split at h <;> cases h
  case verified =>
    split at h <;> rename_i hmarker
    · cases h
    · exact ⟨rfl, by simpa using hmarker⟩
  all_goals cases h

theorem refreshStep_eq_marked (h : (refreshStep t tick s phase).2 = .marked) :
    phase = .unmarked := by
  cases phase <;> simp only [refreshStep] at h
  case start => split at h <;> cases h
  case verified => split at h <;> cases h
  case unmarked => rfl
  all_goals cases h

theorem refreshStep_hasExchanged (h : (refreshStep t tick s phase).2.hasExchanged = true) :
    phase = .marked ∨ phase.hasExchanged = true := by
  cases phase <;> simp only [refreshStep] at h
  case start => split at h <;> cases h
  case verified => split at h <;> cases h
  case marked => exact Or.inl rfl
  case exchanged a r => exact Or.inr rfl
  case answered a r => exact Or.inr rfl
  all_goals cases h

end Phases

/-- The phase that a step of a refresh reaches. -/
theorem step_phase_of_refreshedBy {c : SessionConfig ι} {l : Option ι × Tick} {t : RefreshToken}
    (hl : refreshedBy calls l.1 = some t) :
    ((sessionCalls calls).step c l).phase l.1 =
      (refreshStep t l.2 (c.shared.advance l.2.elapsed) (c.phase l.1)).2 := by
  rw [CallSystem.step_phase_self, next_of_refreshedBy calls hl]

/-- Signed tokens lie in the past, and a refresh holds a signed token, after every step. -/
theorem issued_step (c : SessionConfig ι) (l : Option ι × Tick) (hissued : Issued calls c) :
    Issued calls ((sessionCalls calls).step c l) := by
  rcases hissued with ⟨hpast, hheld⟩
  constructor
  · intro t ht
    have hnow := session_step_now calls c l
    rw [hnow]
    have hold : t ∈ c.shared.refreshTokens →
        1000 * t.iat ≤ c.shared.cache.redis.now + l.2.elapsed := by
      intro h
      have := hpast t h
      omega
    rcases session_step_effect calls c l with ⟨_, hland⟩ | hsame | ⟨t', _, _, hmark⟩ |
      ⟨t', _, _, hsign⟩
    · rw [hland] at ht
      exact hold ht
    · rw [hsame.signed] at ht
      exact hold ht
    · rw [hmark] at ht
      exact hold ht
    · rw [hsign] at ht
      rcases List.mem_cons.mp ht with rfl | ht
      · simp only [Sessions.refreshTokenFor, Sessions.seconds, advance_now]
        omega
      · exact hold ht
  · intro i t hi hphase
    by_cases hmoves : i = l.1
    · subst hmoves
      rw [step_phase_of_refreshedBy calls hi] at hphase
      refine signed_stays calls ?_
      rcases hphase with hverified | hunmarked
      · rcases refreshStep_eq_verified hverified with ⟨_, hverifies⟩
        unfold Sessions.verifiesRefresh at hverifies
        simp only [Bool.and_eq_true, List.contains_iff_mem] at hverifies
        exact hverifies.1
      · exact hheld l.1 t hi (Or.inl (refreshStep_eq_unmarked hunmarked).1)
    · rw [CallSystem.step_phase_of_ne _ _ _ hmoves] at hphase
      exact signed_stays calls (hheld i t hi hphase)

omit [DecidableEq ι] in
/-- A marker that is set now outlives its token. -/
theorem stored_of_mark {t : RefreshToken} {s : Sessions} (ht : 1000 * t.iat ≤ s.cache.redis.now) :
    (rotationGuard calls).stored (markRotated t s) t := by
  right
  refine ⟨s.cache.redis.now + 1000 * refreshTokenExpiry, ?_, ?_⟩
  · unfold RefreshToken.exp
    omega
  · exact CacheState.setEx_entry_self _ _ _ (by decide)

omit [DecidableEq ι] in
theorem stage_eq_inside {phase : SessionPhase}
    (h : (rotationGuard calls).stage phase = .inside) : phase = .unmarked := by
  cases phase <;> first | rfl | cases h

omit [DecidableEq ι] in
theorem stage_eq_marked {phase : SessionPhase} :
    (rotationGuard calls).stage phase = .marked ↔
      phase = .marked ∨ phase.hasExchanged = true := by
  cases phase <;> simp [rotationGuard, SessionPhase.hasExchanged]

/-- A refresh looks at the marker before it rotates and sets it before it signs. -/
theorem rotation_lawful : (rotationGuard calls).Lawful (Issued calls) where
  keeps c l hissued := issued_step calls c l hissued
  unseen c l t _ henters hl hseen := by
    have hinside := stage_eq_inside calls henters.2
    rw [step_phase_of_refreshedBy calls hl] at hinside
    have hmarker := (refreshStep_eq_unmarked hinside).2
    exact absurd (hseen.symm.trans hmarker) (by decide)
  inside c l t _ hl hinside := by
    have hunmarked := stage_eq_inside calls hinside
    rw [step_phase_of_refreshedBy calls hl] at hunmarked
    left
    rw [(refreshStep_eq_unmarked hunmarked).1]
    rfl
  marked c l t hissued hl hmarked := by
    rcases (stage_eq_marked calls).mp hmarked with hphase | hexchanged
    · right
      rw [step_phase_of_refreshedBy calls hl] at hphase
      have hunmarked := refreshStep_eq_marked hphase
      have hpast := hissued.1 t (hissued.2 l.1 t hl (Or.inr hunmarked))
      refine ⟨by rw [hunmarked]; rfl, ?_⟩
      have hshared : ((sessionCalls calls).step c l).shared =
          markRotated t (c.shared.advance l.2.elapsed) := by
        rw [CallSystem.step_shared, next_of_refreshedBy calls hl, hunmarked]
        rfl
      rw [hshared]
      exact stored_of_mark calls (by rw [advance_now]; omega)
    · left
      rw [step_phase_of_refreshedBy calls hl] at hexchanged
      exact (stage_eq_marked calls).mpr (refreshStep_hasExchanged hexchanged)

/-- A step that meets the conditions keeps the refreshes of a token apart. -/
theorem safe_of_keeps {c : SessionConfig ι} {l : Option ι × Tick} (hissued : Issued calls c)
    (hkeeps : KeepsSingleUse calls c l) : (rotationGuard calls).Safe c l where
  alone henters j t hl hj _ hinside := by
    have hunmarked := stage_eq_inside calls henters.2
    rw [step_phase_of_refreshedBy calls hl] at hunmarked
    have hfinds : FindsUnmarked calls c l t := ⟨hl, refreshStep_eq_unmarked hunmarked⟩
    exact hkeeps.alone t hfinds j hj (stage_eq_inside calls hinside)
  kept j t _ _ hstored := by
    have hnow := session_step_now calls c l
    rcases hstored with hexpired | ⟨deadline, hdeadline, hentry⟩
    · left
      omega
    · rcases session_step_effect calls c l with
        ⟨hconnection, hland⟩ | hsame | ⟨t', ht', hphase, hmark⟩ |
        ⟨t', _, _, hsign⟩
      · have hafter : ((sessionCalls calls).step c l).shared.cache.redis.entry
            (.blacklistToken t) = ((c.shared.advance l.2.elapsed).cache.landing l.2.slot
              (.blacklistToken t)).or (c.shared.cache.redis.entry (.blacklistToken t)) := by
          rw [hland]
          exact CacheState.land_entry _ _ _
        cases hlanding : (c.shared.advance l.2.elapsed).cache.landing l.2.slot
            (.blacklistToken t) with
        | none =>
            right
            rw [hlanding, Option.none_or] at hafter
            exact ⟨deadline, hdeadline, hafter.trans hentry⟩
        | some e =>
            left
            rw [hnow]
            exact hkeeps.kept t hconnection ⟨deadline, hentry⟩ (by rw [hlanding]; rfl)
      · right
        exact ⟨deadline, hdeadline, (hsame.markers t).trans hentry⟩
      · rw [hmark]
        by_cases hown : t' = t
        · subst hown
          have hpast := hissued.1 t' (hissued.2 l.1 t' ht' (Or.inr hphase))
          exact stored_of_mark calls (by rw [advance_now]; omega)
        · right
          refine ⟨deadline, hdeadline, ?_⟩
          refine (CacheState.setEx_entry_of_ne _ ?_ _ _).trans hentry
          intro hkey
          cases hkey
          exact hown rfl
      · right
        refine ⟨deadline, hdeadline, ?_⟩
        rw [hsign]
        exact hentry
  fresh henters j t hl _ _ hstored := by
    have hunmarked := stage_eq_inside calls henters.2
    rw [step_phase_of_refreshedBy calls hl] at hunmarked
    have htimely := hkeeps.timely t ⟨hl, refreshStep_eq_unmarked hunmarked⟩
    rcases hstored with hexpired | ⟨deadline, hdeadline, hentry⟩
    · omega
    · have hread := ExpiringStore.read_of_entry
        (s := (c.shared.advance l.2.elapsed).cache.redis) hentry
      rw [advance_now, if_pos (by omega)] at hread
      show SessionValue.truthy _ = true
      simp only [Sessions.get, CacheState.get_value, hread]
      rfl

/-! ## Logouts -/

/-- Once a logout of a session has completed, no refresh of its token is between its look
and its exchange. -/
def Settled (c : SessionConfig ι) : Prop :=
  ∀ t i j, refreshedBy calls i = some t → endedBy calls j = some t → c.phase j = .loggedOut →
    c.phase i ≠ .unmarked ∧ c.phase i ≠ .marked

omit [DecidableEq ι] in
/-- A request ends a session or asks for an exchange, not both. -/
theorem ne_of_endedBy {i j : Option ι} {t t' : RefreshToken} (hi : refreshedBy calls i = some t)
    (hj : endedBy calls j = some t') : i ≠ j := by
  rintro rfl
  cases i with
  | none => cases hi
  | some i =>
      simp only [refreshedBy, endedBy, Option.bind_some] at hi hj
      cases hcall : calls i with
      | refresh cookie =>
          rw [hcall] at hj
          cases hj
      | logout req bearer cookie =>
          rw [hcall] at hi
          cases hi

/-- A logout completes in one last step. -/
theorem logoutStep_eq_loggedOut {req : JwtRequest} {bearer : AccessToken} {s : Sessions}
    {phase : SessionPhase} (h : (logoutStep req bearer s phase).2 = .loggedOut) :
    phase = .blacklisted ∨ phase = .loggedOut := by
  cases phase <;> simp only [logoutStep] at h
  case blacklisted => exact Or.inl rfl
  case loggedOut => exact Or.inr rfl
  case start => split at h <;> cases h
  case bearerVerified => split at h <;> cases h
  case notBlacklisted =>
    split at h
    · split at h <;> cases h
    · cases h
  all_goals cases h

theorem step_eq_loggedOut {c : SessionConfig ι} {l : Option ι × Tick} {t : RefreshToken}
    (hl : endedBy calls l.1 = some t)
    (h : ((sessionCalls calls).step c l).phase l.1 = .loggedOut) :
    c.phase l.1 = .blacklisted ∨ c.phase l.1 = .loggedOut := by
  rw [CallSystem.step_phase_self] at h
  rcases l with ⟨_ | i, tick⟩
  · cases hl
  · simp only [endedBy, Option.bind_some] at hl
    cases hcall : calls i with
    | refresh cookie =>
        rw [hcall] at hl
        cases hl
    | logout req bearer cookie =>
        simp only [sessionCalls, sessionStep, hcall] at h
        exact logoutStep_eq_loggedOut h

/-- A step that meets the conditions keeps logouts and refreshes apart. -/
theorem settled_step {c : SessionConfig ι} {l : Option ι × Tick} (hsettled : Settled calls c)
    (hkeeps : KeepsSingleUse calls c l) : Settled calls ((sessionCalls calls).step c l) := by
  intro t i j hi hj hout
  have hne := ne_of_endedBy calls hi hj
  by_cases hjl : j = l.1
  · -- The logout moves: it completes now or has completed before.
    subst hjl
    rw [CallSystem.step_phase_of_ne _ _ _ hne]
    rcases step_eq_loggedOut calls hj hout with hlast | hdone
    · exact hkeeps.settled t hj hlast i hi
    · exact hsettled t i l.1 hi hj hdone
  · rw [CallSystem.step_phase_of_ne _ _ _ hjl] at hout
    by_cases hil : i = l.1
    · -- The refresh moves: it cannot pass its look now.
      subst hil
      rw [step_phase_of_refreshedBy calls hi]
      constructor
      · intro hunmarked
        exact hkeeps.live t ⟨hi, refreshStep_eq_unmarked hunmarked⟩ j hj hout
      · intro hmarked
        exact (hsettled t l.1 j hi hj hout).1 (refreshStep_eq_marked hmarked)
    · rw [CallSystem.step_phase_of_ne _ _ _ hil]
      exact hsettled t i j hi hj hout

/-- Where logouts and refreshes are apart, no step exchanges the token of an ended
session. -/
theorem notAfterLogout_of_settled {c : SessionConfig ι} (l : Option ι × Tick)
    (hsettled : Settled calls c) : NotAfterLogout calls c l := by
  intro t hl hnot hexchanged j hj hout
  rw [step_phase_of_refreshedBy calls hl] at hexchanged
  rcases refreshStep_hasExchanged hexchanged with hmarked | hbefore
  · exact (hsettled t l.1 j hl hj hout).2 hmarked
  · exact absurd (hnot.symm.trans hbefore) (by decide)

/-- In a run whose steps all meet the conditions, each refresh token is exchanged by at most
one request, and not after a logout of its session has completed. -/
theorem refresh_single_use {c : SessionConfig ι} {ls : List (Option ι × Tick)}
    (hstart : ∀ i, c.phase i = .start) (hpast : SignedBefore c.shared)
    (hall : (sessionCalls calls).EachStep (KeepsSingleUse calls) c ls) :
    ExchangedOnce calls ((sessionCalls calls).run c ls) ∧
      (sessionCalls calls).EachStep (NotAfterLogout calls) c ls := by
  have hissued : Issued calls c := by
    refine ⟨hpast, ?_⟩
    intro i t _ hphase
    rcases hphase with hphase | hphase <;> rw [hstart i] at hphase <;> cases hphase
  have hsettled : Settled calls c := by
    intro t i j _ _ hout
    rw [hstart j] at hout
    cases hout
  constructor
  · have hinv : Issued calls ((sessionCalls calls).run c ls) ∧
        (rotationGuard calls).Inv ((sessionCalls calls).run c ls) :=
      CallSystem.run_induction (I := fun c => Issued calls c ∧ (rotationGuard calls).Inv c)
        (sessionCalls calls)
        (fun c l h hkeeps => ⟨issued_step calls c l h.1,
          OnceGuard.inv_step (rotation_lawful calls) h.1 h.2 (safe_of_keeps calls h.1 hkeeps)⟩)
        ⟨hissued, OnceGuard.inv_start fun i => by rw [hstart i]; rfl⟩ hall
    intro t i j hi hj hexi hexj
    have hmarked := fun (k : Option ι)
        (h : (((sessionCalls calls).run c ls).phase k).hasExchanged = true) =>
      (stage_eq_marked calls).mpr (Or.inr h)
    exact hinv.2.unique i j t hi hj (Or.inr (hmarked i hexi)) (Or.inr (hmarked j hexj))
  · exact hall.of_invariant (I := Settled calls)
      (fun c l h hkeeps => settled_step calls h hkeeps)
      (fun c l h _ => notAfterLogout_of_settled calls l h) hsettled

/-! ## A refresh that is not interleaved -/

/-- The steps of a refresh, one after the other. -/
theorem refreshStep_iterate (t : RefreshToken) (csrfToken : String) (s : Sessions) :
    (fun x : Sessions × SessionPhase => refreshStep t { csrfToken } x.1 x.2)^[5] (s, .start) =
      match refresh (some t) csrfToken s with
      | (.ok (a, r, _), s') => (s', .answered a r)
      | (.error e, s') => (s', .failed e) := by
  have hrun := rotateRefreshToken_run t s
  rw [refresh_some]
  by_cases hverifies : s.verifiesRefresh t = false
  · rw [if_pos hverifies] at hrun
    rw [Fallible.bind_of_error hrun]
    simp [refreshStep, hverifies]
  · rw [if_neg hverifies] at hrun
    by_cases hmarker : (markerRead t s).1 = true
    · rw [if_pos hmarker] at hrun
      rw [Fallible.bind_of_error hrun]
      simp [refreshStep, hverifies, hmarker]
    · rw [if_neg hmarker] at hrun
      rcases answerRefresh_run csrfToken (s.accessTokenFor t.rotatedPayload)
        (s.refreshTokenFor t.rotatedPayload) t.sub
        ((markRotated t (markerRead t s).2).signed t.rotatedPayload) with
        ⟨csrf, s', hanswer, _, _⟩
      have hseconds : (markRotated t (markerRead t s).2).seconds = s.seconds := by
        rw [markRotated, set_seconds]
        exact get_seconds ..
      rw [Fallible.bind_of_ok hrun, hanswer]
      simp only [Sessions.accessTokenFor, Sessions.refreshTokenFor] at hanswer
      simp [refreshStep, hverifies, hmarker, Sessions.accessTokenFor, Sessions.refreshTokenFor,
        hseconds, hanswer]

/-- A refresh whose steps are not interleaved and take no time is the route. -/
theorem refresh_alone {i : ι} {t : RefreshToken} (hcall : calls i = .refresh (some t))
    (csrfToken : String) {c : SessionConfig ι} (hstart : c.phase (some i) = .start) :
    (((sessionCalls calls).run c (List.replicate 5 (some i, { csrfToken }))).shared,
        ((sessionCalls calls).run c (List.replicate 5 (some i, { csrfToken }))).phase (some i)) =
      match refresh (some t) csrfToken c.shared with
      | (.ok (a, r, _), s') => (s', .answered a r)
      | (.error e, s') => (s', .failed e) := by
  have hnext : (fun x : Sessions × SessionPhase =>
      (sessionCalls calls).next (some i) { csrfToken } x.1 x.2) =
        fun x => refreshStep t { csrfToken } x.1 x.2 := by
    funext x
    exact next_of_refreshedBy calls (by simp [refreshedBy, hcall]) _ _ _
  rw [CallSystem.run_replicate, hnext, hstart]
  exact refreshStep_iterate t csrfToken c.shared

end Requests

/-! ## Two refreshes and a logout -/

/-- A refresh token signed before the requests. -/
def sampleToken : RefreshToken :=
  { sub := "u1", email := "a@b.c", tenantId := some "t1", iat := 1700000000 }

/-- The access token of the same session. -/
def sampleBearer : AccessToken :=
  { payload := { sub := "u1", email := "a@b.c", tenantId := some "t1" }, iat := 1700000000 }

/-- A store with one session, and no entries in the cache. -/
def sampleSessions : Sessions where
  cache := { redis := { now := 1700000060000, entry := fun _ => none } }
  accessTokens := [sampleBearer]
  refreshTokens := [sampleToken]

/-- Three requests to refresh the session, and one to end it. -/
def sampleCalls : Fin 4 → SessionCall
  | 3 => .logout { headerText := .token sampleBearer } sampleBearer (some sampleToken)
  | _ => .refresh (some sampleToken)

def sampleStart : SessionConfig (Fin 4) where
  shared := sampleSessions
  phase _ := .start

/-- A step of a request that neither looks at a marker nor completes a logout meets the
conditions. -/
theorem keeps_of_no_look {ι : Type} [DecidableEq ι] {c : SessionConfig ι} {calls : ι → SessionCall}
    {i : ι} {tick : Tick}
    (hlook : c.phase (some i) ≠ .verified) (hlast : c.phase (some i) ≠ .blacklisted) :
    KeepsSingleUse calls c (some i, tick) where
  alone _ h := absurd h.2.1 hlook
  timely _ h := absurd h.2.1 hlook
  kept _ h := by cases h
  live _ h := absurd h.2.1 hlook
  settled _ _ h := absurd h hlast

/-- One request exchanges the token, and a second one after it does not. -/
theorem refresh_once :
    ExchangedOnce sampleCalls ((sessionCalls sampleCalls).run sampleStart
        [(some 0, {}), (some 0, {}), (some 0, {}), (some 0, {}), (some 1, {})]) ∧
      (sessionCalls sampleCalls).EachStep (NotAfterLogout sampleCalls) sampleStart
        [(some 0, {}), (some 0, {}), (some 0, {}), (some 0, {}), (some 1, {})] := by
  have hbusy : ∀ j, ((sessionCalls sampleCalls).step sampleStart (some 0, {})).phase j ≠
      .unmarked := by
    decide +kernel
  have hopen : ∀ j, ((sessionCalls sampleCalls).step sampleStart (some 0, {})).phase j ≠
      .loggedOut := by
    decide +kernel
  refine refresh_single_use sampleCalls (fun _ => rfl) ?_ ⟨?_, ?_, ?_, ?_, ?_, trivial⟩
  · intro t ht
    cases List.mem_singleton.mp ht
    decide
  · exact keeps_of_no_look (by decide) (by decide)
  · -- The only look of the run.
    constructor
    · exact fun _ _ j _ => hbusy j
    · rintro t ⟨ht, _, _⟩
      cases ht
      decide
    · intro t h
      cases h
    · exact fun _ _ j _ => hopen j
    · intro t _ h
      exact absurd h (by decide +kernel)
  · exact keeps_of_no_look (by decide +kernel) (by decide +kernel)
  · exact keeps_of_no_look (by decide +kernel) (by decide +kernel)
  · exact keeps_of_no_look (by decide +kernel) (by decide +kernel)

/-- Two requests that both look before either marks exchange one token twice; and the token
of a session that has logged out is exchanged all the same. -/
theorem refresh_replayed :
    (¬∀ ls, ExchangedOnce sampleCalls ((sessionCalls sampleCalls).run sampleStart ls)) ∧
      ¬∀ ls, (sessionCalls sampleCalls).EachStep (NotAfterLogout sampleCalls) sampleStart ls := by
  constructor
  · intro honce
    have hsame := honce [(some 0, {}), (some 1, {}), (some 0, {}), (some 1, {}), (some 0, {}),
      (some 1, {}), (some 0, {}), (some 1, {})] sampleToken (some 0) (some 1) rfl rfl
      (by decide +kernel) (by decide +kernel)
    cases hsame
  · intro hnever
    have hall := hnever [(some 3, {}), (some 3, {}), (some 3, {}), (some 3, {}), (some 3, {}),
      (some 2, {}), (some 2, {}), (some 2, {}), (some 2, {})]
    have hlast := hall.2.2.2.2.2.2.2.2.1 sampleToken rfl (by decide +kernel) (by decide +kernel)
      (some 3) rfl
    exact hlast (by decide +kernel)

end Auth
end Eleva
