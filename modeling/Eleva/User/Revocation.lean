import Eleva.Auth.RefreshChain
import Eleva.Auth.SessionFrames
import Eleva.User.UserService

/-!
# User - Revocation over session histories

Logins, refreshes, logouts and requests of any users, beside updates, deletions and password
resets that end the sessions of one.  Such a step records a cutoff for the user in the cache, and
the guard refuses the access tokens that were issued before it.  The refresh route does not look
at the cutoff.

Main results:

- Definition {lit}`revocationMachine`: the steps, with an account of what has been revoked.
- Theorem {lit}`refuses_of_cutOff`: the guard refuses a token behind the cutoff of its user.
- Theorem {lit}`ends_updateUser` and {lit}`ends_deleteUser`: a call that returns has recorded the
  cutoff.
- Theorem {lit}`revocation_final`: where no revoked refresh token is exchanged behind the cutoff,
  no older value lands on it and each revocation reaches the tokens of its user, revoked tokens
  authenticate nobody.
- Theorem {lit}`deleted_cook_returns`: a deleted user goes on with a refresh.
-/

namespace Eleva
namespace UserService

open Foundation Database Auth Cache

/-! ## The steps -/

/-- The application, and the tokens that a step which has completed revoked: those of the user that
were issued before it, and those that a refresh has made of them. -/
structure RevocationState where
  app : AppState
  revokedAccess : List AccessToken := []
  revokedRefresh : List RefreshToken := []

/-- What happens, one thing at a time. -/
inductive RevocationAction where
  | wait (elapsed : ℕ)
  | land (slot : ℕ)
  | login (env : LoginEnv) (dto : LoginDto) (tenantId : Option Id) (store : Option TenantContext)
      (csrfToken : String)
  | refresh (cookie : Option RefreshToken) (csrfToken : String)
  | request (req : JwtRequest) (bearer : AccessToken) (store : Option TenantContext)
  | logout (req : JwtRequest) (bearer : AccessToken) (store : Option TenantContext)
  | updateUser (env : UserEnv) (id : Id) (dto : UpdateUserRequestDto) (tenantId : Option Id)
      (actor : ActorContext)
  | deleteUser (env : UserEnv) (id : Id) (tenantId : Option Id) (actor : ActorContext)
  | resetPassword (env : Env) (token newPassword salt : String)

namespace RevocationState

def sessions (s : RevocationState) : Sessions :=
  s.app.sessions

def onSessions (s : RevocationState) (sessions : Sessions) : RevocationState :=
  { s with app := { s.app with sessions } }

/-- Account for the end of the sessions of a user. -/
def revoke (s : RevocationState) (userId : Id) : RevocationState :=
  { s with
    revokedAccess :=
      s.sessions.accessTokens.filter (fun a => a.payload.sub == userId) ++ s.revokedAccess
    revokedRefresh :=
      s.sessions.refreshTokens.filter (fun t => t.sub == userId) ++ s.revokedRefresh }

/-- A call that ends the sessions of a user when it returns. -/
def called {α : Type} (s : RevocationState) (revokes : Bool) (userId : Id)
    (run : Except AppError α × AppState) : RevocationState :=
  if run.1.isOk && revokes then { s with app := run.2 : RevocationState }.revoke userId
  else { s with app := run.2 }

/-- A refresh; what is made of a revoked token is revoked. -/
def refreshed (s : RevocationState) (cookie : Option RefreshToken) :
    Except AppError (AccessToken × RefreshToken × String) × Sessions → RevocationState
  | (.ok (a, r, _), sessions) =>
      if cookie.any s.revokedRefresh.contains then
        { app := { s.app with sessions }
          revokedAccess := a :: s.revokedAccess
          revokedRefresh := r :: s.revokedRefresh }
      else s.onSessions sessions
  | (.error _, sessions) => s.onSessions sessions

end RevocationState

/-- The user whose password a reset changes. -/
def resetUserId (token : String) (s : Sessions) : Option Id :=
  recordUserId (s.get (.passwordReset token) .null 900).1

/-- The steps. -/
def revocationMachine (rt : Runtime) : Machine RevocationAction RevocationState Unit where
  step a s := ((),
    match a with
    | .wait elapsed => s.onSessions (s.sessions.advance elapsed)
    | .land slot => s.onSessions (s.sessions.land slot)
    | .login env dto tenantId store csrfToken =>
        { s with app := (login rt env dto tenantId store csrfToken s.app).2 }
    | .refresh cookie csrfToken => s.refreshed cookie (refresh cookie csrfToken s.sessions)
    | .request req bearer store => s.onSessions (authenticate req bearer store s.sessions).2
    | .logout req bearer store => s.onSessions (logout req bearer store s.sessions).2
    | .updateUser env id dto tenantId actor =>
        s.called dto.securityRelevant id (updateUser rt env id dto tenantId actor s.app)
    | .deleteUser env id tenantId actor => s.called true id (deleteUser env id tenantId actor s.app)
    | .resetPassword env token newPassword salt =>
        s.called (resetUserId token s.sessions).isSome ((resetUserId token s.sessions).getD "")
          (resetPassword rt env token newPassword salt s.app))

/-- No request is authenticated by a revoked token. -/
def RevocationFinal (s : RevocationState) : Prop :=
  ∀ a ∈ s.revokedAccess, ∀ req store, (authenticate req a store s.sessions).1.isOk = false

/-! ## The cutoff of a user -/

/-- The cache keeps a cutoff behind which the token was issued, for as long as the token lives. -/
def CutOff (s : Sessions) (a : AccessToken) : Prop :=
  a.payload.sub ≠ "" ∧ ∃ cutoff deadline,
    s.cache.redis.entry (.revokedUser a.payload.sub) = some (.number cutoff, deadline) ∧
      a.iat < cutoff ∧ 1000 * a.exp ≤ deadline

/-- A revocation reaches the access tokens of a user: the request spells the id of the user as the
tokens do, or none of them lives. -/
def ReachesTokens (env : UserEnv) (id : Id) (s : Sessions) : Prop :=
  (id ≠ "" ∧ env.spelling id = id) ∨
    ∀ a ∈ s.accessTokens, a.payload.sub = id → a.exp ≤ s.seconds

/-- What a step must not do to stay final: a refresh does not exchange a revoked token behind the
cutoff of its user, no value lands on the cutoff of a user while an access token that was revoked
lives, and a revocation reaches the tokens of its user. -/
def LeavesRevoked (a : RevocationAction) (s : RevocationState) : Prop :=
  match a with
  | .land slot => ∀ w userId, s.sessions.cache.pending[slot]? = some w →
      w.key = .revokedUser userId →
        ∀ a ∈ s.revokedAccess, a.payload.sub = userId → a.exp ≤ s.sessions.seconds
  | .refresh cookie _ => ∀ t ∈ s.revokedRefresh, cookie = some t →
      s.sessions.verifiesRefresh t = true → (markerRead t s.sessions).1 = false →
        CutOff s.sessions (s.sessions.accessTokenFor t.rotatedPayload)
  | .updateUser env id dto _ _ => dto.securityRelevant = true → ReachesTokens env id s.sessions
  | .deleteUser env id _ _ => ReachesTokens env id s.sessions
  | _ => True

section Cutoff

variable {s : Sessions} {a : AccessToken}

/-- The guard refuses a token that is cut off while it lives, and any token that has expired. -/
theorem refuses_of_cutOff (h : s.seconds < a.exp → CutOff s a) (req : JwtRequest)
    (store : Option TenantContext) : (authenticate req a store s).1.isOk = false := by
  rcases hrun : authenticate req a store s with ⟨e | ⟨user, store'⟩, s'⟩
  · rfl
  · rcases authenticate_eq_ok.mp hrun with ⟨hverifies, hvalid⟩
    have hlive : s.seconds < a.exp := by
      unfold Sessions.verifiesAccess at hverifies
      rw [Bool.and_eq_true] at hverifies
      exact of_decide_eq_true hverifies.2
    rcases h hlive with ⟨hsub, cutoff, deadline, hentry, hbehind, hdeadline⟩
    have hread : s.cache.redis.read (.revokedUser a.payload.sub) = some (.number cutoff) :=
      ExpiringStore.read_eq_some.mpr
        ⟨deadline, hentry, (now_lt_of_seconds hlive).trans_le hdeadline⟩
    have hcutoff := (validate_eq_ok hvalid).2.2.1
    have hvalue : (getUserRevocationCutoff a.payload.sub
        (isTokenBlacklisted req.headerText s).2).1 = cutoff := by
      have hget : ((isTokenBlacklisted req.headerText s).2.get (.revokedUser a.payload.sub)
          (.number 0) USER_REVOCATION_TTL_SECONDS).1 = .number cutoff := by
        unfold Sessions.get
        rw [CacheState.get_value]
        have hsame : (isTokenBlacklisted req.headerText s).2.cache.redis = s.cache.redis :=
          get_redis ..
        rw [hsame, hread]
        rfl
      unfold getUserRevocationCutoff
      rw [if_neg hsub]
      rcases hrun' : (isTokenBlacklisted req.headerText s).2.get (.revokedUser a.payload.sub)
        (.number 0) USER_REVOCATION_TTL_SECONDS with ⟨value, s₁⟩
      rw [hrun'] at hget
      cases hget
      rfl
    omega

/-- What a revocation leaves alone. -/
structure LeavesOthers (id : Id) (s s' : Sessions) : Prop where
  seconds : s'.seconds = s.seconds
  access : s'.accessTokens = s.accessTokens
  cutoff : ∀ id' ≠ id,
    s'.cache.redis.entry (.revokedUser id') = s.cache.redis.entry (.revokedUser id')

theorem leavesOthers_revoke (id : Id) (s : Sessions) :
    LeavesOthers id s (revokeAllUserTokens id s).2 := by
  unfold revokeAllUserTokens
  split
  · exact ⟨rfl, rfl, fun _ _ => rfl⟩
  · exact ⟨set_seconds .., rfl,
      fun id' hne => CacheState.setEx_entry_of_ne _ (by simpa using hne) _ _⟩

/-- A revocation cuts off the tokens of the user that were issued so far. -/
theorem cutOff_revoked (hsub : a.payload.sub ≠ "") (hissued : a.iat ≤ s.seconds) :
    CutOff (revokeAllUserTokens a.payload.sub s).2 a := by
  refine ⟨hsub, s.seconds + 1, s.cache.redis.now + 1000 * USER_REVOCATION_TTL_SECONDS, ?_,
    Nat.lt_succ_of_le hissued, ?_⟩
  · unfold revokeAllUserTokens
    rw [if_neg hsub]
    exact CacheState.setEx_entry_self _ _ _ (by decide)
  · unfold AccessToken.exp accessTokenExpiry USER_REVOCATION_TTL_SECONDS
    unfold Sessions.seconds at hissued
    omega

end Cutoff

/-! ## What the session routes keep -/

/-- The clock and the cutoffs are the same, and the access tokens that are new were issued now. -/
structure KeepsCutoffs (s s' : Sessions) : Prop where
  now : s'.cache.redis.now = s.cache.redis.now
  cutoff : ∀ id, s'.cache.redis.entry (.revokedUser id) = s.cache.redis.entry (.revokedUser id)
  issued : ∀ a ∈ s'.accessTokens, a ∈ s.accessTokens ∨ a.iat = s.seconds

namespace KeepsCutoffs

theorem refl (s : Sessions) : KeepsCutoffs s s :=
  ⟨rfl, fun _ => rfl, fun _ ha => Or.inl ha⟩

theorem seconds {s s' : Sessions} (h : KeepsCutoffs s s') : s'.seconds = s.seconds := by
  unfold Sessions.seconds
  rw [h.now]

theorem trans {s s₁ s₂ : Sessions} (h₁ : KeepsCutoffs s s₁) (h₂ : KeepsCutoffs s₁ s₂) :
    KeepsCutoffs s s₂ where
  now := h₂.now.trans h₁.now
  cutoff id := (h₂.cutoff id).trans (h₁.cutoff id)
  issued a ha := by
    rcases h₂.issued a ha with hold | hnew
    · exact h₁.issued a hold
    · exact Or.inr (hnew.trans h₁.seconds)

end KeepsCutoffs

section Routes

variable (s : Sessions)

theorem keepsCutoffs_get (key : SessionKey) (fallback : SessionValue) (ttlSeconds : ℕ) :
    KeepsCutoffs s (s.get key fallback ttlSeconds).2 where
  now := by rw [get_redis]
  cutoff _ := by rw [get_redis]
  issued _ ha := Or.inl ha

theorem keepsCutoffs_set {key : SessionKey} (hkey : ∀ id, key ≠ .revokedUser id)
    (value : SessionValue) (ttlSeconds : ℕ) : KeepsCutoffs s (s.set key value ttlSeconds) where
  now := set_now ..
  cutoff id := CacheState.setEx_entry_of_ne _ (hkey id).symm _ _
  issued _ ha := Or.inl ha

theorem keepsCutoffs_signed (payload : TokenPayload) : KeepsCutoffs s (s.signed payload) where
  now := rfl
  cutoff _ := rfl
  issued _ ha := by
    rcases List.mem_cons.mp ha with rfl | hold
    · exact Or.inr rfl
    · exact Or.inl hold

theorem keepsCutoffs_generate (userId : Id) (csrfToken : String) :
    KeepsCutoffs s (csrfGenerateToken userId csrfToken s) :=
  keepsCutoffs_set s (by rintro _ ⟨⟩) _ _

/-- The guard only reads. -/
theorem keepsCutoffs_authenticate (req : JwtRequest) (token : AccessToken)
    (store : Option TenantContext) : KeepsCutoffs s (authenticate req token store s).2 := by
  unfold authenticate
  by_cases hverifies : s.verifiesAccess token = true
  · rw [if_pos hverifies]
    have hblack : Fallible.Keeps (KeepsCutoffs s) (rejectBlacklisted req) := by
      intro s₁ h
      have hread : KeepsCutoffs s (isTokenBlacklisted req.headerText s₁).2 :=
        h.trans (keepsCutoffs_get s₁ _ _ _)
      unfold rejectBlacklisted
      rcases hlisted : isTokenBlacklisted req.headerText s₁ with ⟨listed, s₂⟩
      rw [hlisted] at hread
      cases listed <;> exact hread
    have hrevoked : Fallible.Keeps (KeepsCutoffs s) (rejectRevoked token) := by
      intro s₁ h
      have hread : KeepsCutoffs s (getUserRevocationCutoff token.payload.sub s₁).2 := by
        unfold getUserRevocationCutoff
        split
        · exact h
        · have hget := h.trans (keepsCutoffs_get s₁ (.revokedUser token.payload.sub) (.number 0)
            USER_REVOCATION_TTL_SECONDS)
          split <;> rename_i hvalue <;> rw [hvalue] at hget <;> exact hget
      unfold rejectRevoked
      rcases hcutoff : getUserRevocationCutoff token.payload.sub s₁ with ⟨revokedAt, s₂⟩
      rw [hcutoff] at hread
      simp only
      split <;> exact hread
    have hvalidate : Fallible.Keeps (KeepsCutoffs s) (validate req token store) :=
      .bind hblack fun _ => .bind hrevoked fun _ => .bind (.reads _) fun _ => .pure _
    exact hvalidate s (.refl s)
  · rw [if_neg hverifies]
    exact .refl s

theorem keepsCutoffs_logout (req : JwtRequest) (bearer : AccessToken)
    (store : Option TenantContext) : KeepsCutoffs s (logout req bearer store s).2 := by
  have hkeeps := keepsCutoffs_authenticate s req bearer store
  unfold logout
  rcases hauth : authenticate req bearer store s with ⟨e | ⟨user, store'⟩, s₁⟩
  · rw [hauth] at hkeeps
    rw [Fallible.bind_of_error hauth]
    exact hkeeps
  · rw [hauth] at hkeeps
    rw [Fallible.bind_of_ok hauth]
    have hblack : KeepsCutoffs s (blacklistToken req.headerText 900 s₁) :=
      hkeeps.trans (keepsCutoffs_set s₁ (by rintro _ ⟨⟩) _ _)
    show KeepsCutoffs s (endSession req user.id s₁)
    unfold endSession
    split
    · exact hblack
    · exact hblack.trans ⟨rfl, fun _ => CacheState.del_entry_of_ne _ (by rintro ⟨⟩),
        fun _ ha => Or.inl ha⟩

theorem keepsCutoffs_refresh (cookie : Option RefreshToken) (csrfToken : String) :
    KeepsCutoffs s (refresh cookie csrfToken s).2 := by
  cases cookie with
  | none => exact .refl s
  | some t =>
      have hread : KeepsCutoffs s (markerRead t s).2 := keepsCutoffs_get s _ _ _
      have hmarked : KeepsCutoffs s (markRotated t (markerRead t s).2) :=
        hread.trans (keepsCutoffs_set _ (by rintro _ ⟨⟩) _ _)
      have hrotate : KeepsCutoffs s (rotateRefreshToken t s).2 := by
        rw [rotateRefreshToken_run]
        split
        · exact .refl s
        · split
          · exact hread
          · exact hmarked.trans (keepsCutoffs_signed _ _)
      rw [refresh_some]
      rcases hrun : rotateRefreshToken t s with ⟨e | rotated, s₁⟩
      · rw [Fallible.bind_of_error hrun]
        rw [hrun] at hrotate
        exact hrotate
      · rw [Fallible.bind_of_ok hrun]
        rw [hrun] at hrotate
        unfold answerRefresh
        split
        · exact hrotate
        · exact hrotate.trans (keepsCutoffs_generate _ _ _)

theorem keepsCutoffs_login (rt : Runtime) (env : LoginEnv) (dto : LoginDto)
    (tenantId : Option Id) (store : Option TenantContext) (csrfToken : String) (app : AppState) :
    KeepsCutoffs app.sessions (login rt env dto tenantId store csrfToken app).2.sessions := by
  rcases hrun : login rt env dto tenantId store csrfToken app with ⟨e | ⟨profile, a, r⟩, app'⟩
  · rw [login_error hrun]
    exact .refl _
  · rcases login_eq_ok hrun with ⟨_, _, _, rfl⟩
    exact (keepsCutoffs_signed _ _).trans (keepsCutoffs_generate _ _ _)

theorem keepsCutoffs_resetPassword (rt : Runtime) (env : Env) (token newPassword salt : String)
    (app : AppState) :
    KeepsCutoffs app.sessions (resetPassword rt env token newPassword salt app).2.sessions := by
  rcases resetPassword_rejects rt env token newPassword salt app with ⟨e, hrun | hrun⟩
  · rw [hrun]
    exact .refl _
  · rw [hrun]
    exact keepsCutoffs_get _ _ _ _

end Routes

/-! ## What the calls of the user service do to the sessions -/

/-- A call revokes the sessions of a user, or it leaves the session store and does not return with
a revocation due. -/
def EndsSessions {α : Type} (revokes : Bool) (id : Id) (x : AppService α) : Prop :=
  ∀ s, (x s).2.sessions = (revokeAllUserTokens id s.sessions).2 ∨
    (x s).2.sessions = s.sessions ∧ ((x s).1.isOk = true → revokes = false)

section Calls

variable {α β : Type} {revokes : Bool} {id : Id}

theorem ends_pure (a : α) : EndsSessions false id (pure a : AppService α) :=
  fun _ => Or.inr ⟨rfl, fun _ => rfl⟩

theorem ends_throw (e : AppError) : EndsSessions revokes id (Fallible.throw e : AppService α) := by
  refine fun s => Or.inr ⟨rfl, ?_⟩
  rintro ⟨⟩

/-- What comes before leaves the session store. -/
theorem EndsSessions.after {x : AppService α} {f : α → AppService β}
    (hx : ∀ s, (x s).2.sessions = s.sessions) (hf : ∀ a, EndsSessions revokes id (f a)) :
    EndsSessions revokes id (x >>= f) := by
  intro s
  have hleft := hx s
  rcases hrun : x s with ⟨e | a, s₁⟩
  · rw [hrun] at hleft
    rw [Fallible.bind_of_error hrun]
    refine Or.inr ⟨hleft, ?_⟩
    rintro ⟨⟩
  · rw [hrun] at hleft
    rw [Fallible.bind_of_ok hrun, ← hleft]
    exact hf a s₁

/-- What comes behind leaves the session store. -/
theorem EndsSessions.before {x : AppService α} {f : α → AppService β}
    (hx : EndsSessions revokes id x) (hf : ∀ a s, (f a s).2.sessions = s.sessions) :
    EndsSessions revokes id (x >>= f) := by
  intro s
  have hends := hx s
  rcases hrun : x s with ⟨e | a, s₁⟩
  · rw [hrun] at hends
    rw [Fallible.bind_of_error hrun]
    exact hends
  · rw [hrun] at hends
    rw [Fallible.bind_of_ok hrun, hf a s₁]
    exact hends.imp_right fun h => ⟨h.1, fun _ => h.2 rfl⟩

/-- The session store takes no part in a transaction. -/
theorem EndsSessions.inTransaction {x : AppService α} (hx : EndsSessions revokes id x)
    (env : UserEnv) : EndsSessions revokes id (inTransaction env x) := by
  intro s
  have hends := hx s
  unfold UserService.inTransaction
  rcases hrun : x s with ⟨e | a, s₁⟩
  · rw [hrun] at hends
    exact hends
  · rw [hrun] at hends
    simp only
    split
    · exact hends.imp_right fun h => ⟨h.1, fun _ => h.2 rfl⟩
    · exact hends

theorem ends_revokeSessions (env : UserEnv) :
    EndsSessions revokes (env.spelling id) (revokeSessions env id) := by
  unfold revokeSessions
  split
  · exact ends_throw _
  · exact fun s => Or.inl rfl

theorem inDatabase_sessions (x : Service α) (s : AppState) :
    (inDatabase x s).2.sessions = s.sessions :=
  rfl

theorem assertTenant_leaves (tenantId : Option Id) (s : AppState) :
    ((assertTenant tenantId : AppService Id) s).2.sessions = s.sessions := by
  unfold assertTenant
  split <;> rfl

/-- An update that returns has ended the sessions under the text of the request, where it was
to. -/
theorem ends_updateUser (rt : Runtime) (env : UserEnv) (dto : UpdateUserRequestDto)
    (tenantId : Option Id) (actor : ActorContext) :
    EndsSessions dto.securityRelevant (env.spelling id)
      (updateUser rt env id dto tenantId actor) := by
  refine .after (assertTenant_leaves tenantId) fun tenantId => ?_
  refine .after (inDatabase_sessions _) fun _ => .after (inDatabase_sessions _) fun current => ?_
  refine .before ?_ fun _ => inDatabase_sessions _
  refine .inTransaction (.after (inDatabase_sessions _) fun _ =>
    .after (inDatabase_sessions _) fun _ => ?_) env
  cases dto.securityRelevant with
  | true => exact ends_revokeSessions env
  | false => exact ends_pure ()

/-- A deletion that returns has ended the sessions under the text of the request. -/
theorem ends_deleteUser (env : UserEnv) (tenantId : Option Id) (actor : ActorContext) :
    EndsSessions true (env.spelling id) (deleteUser env id tenantId actor) := by
  refine .after (assertTenant_leaves tenantId) fun tenantId => ?_
  refine .after (fun s => ?_) fun _ => .after (inDatabase_sessions _) fun target => ?_
  · unfold Fallible.throwIf
    split <;> rfl
  · refine .before ?_ fun _ _ => rfl
    exact .inTransaction (.after (inDatabase_sessions _) fun _ =>
      .after (inDatabase_sessions _) fun _ => ends_revokeSessions env) env

end Calls

/-! ## What the steps keep -/

section Steps

variable {rt : Runtime} {s : RevocationState}

/-- No access token is from the future, and those that were revoked are cut off while they live. -/
structure Enforced (s : RevocationState) : Prop where
  issued : ∀ a ∈ s.sessions.accessTokens, a.iat ≤ s.sessions.seconds
  revoked : ∀ a ∈ s.revokedAccess, a.iat ≤ s.sessions.seconds
  cutoff : ∀ a ∈ s.revokedAccess, s.sessions.seconds < a.exp → CutOff s.sessions a

/-- A token stays cut off where the cutoff of its user stays. -/
theorem CutOff.congr {ss ss' : Sessions} {a : AccessToken}
    (hentry : ss'.cache.redis.entry (.revokedUser a.payload.sub) =
      ss.cache.redis.entry (.revokedUser a.payload.sub)) (h : CutOff ss a) : CutOff ss' a := by
  rcases h with ⟨hsub, cutoff, deadline, hheld, hbehind, hdeadline⟩
  exact ⟨hsub, cutoff, deadline, hentry.trans hheld, hbehind, hdeadline⟩

theorem Enforced.keeps (h : Enforced s) {app : AppState}
    (hkeeps : KeepsCutoffs s.sessions app.sessions) : Enforced { s with app := app } where
  issued a ha := by
    show a.iat ≤ app.sessions.seconds
    rw [hkeeps.seconds]
    rcases hkeeps.issued a ha with hold | hnew
    · exact h.issued a hold
    · exact hnew.le
  revoked a ha := (h.revoked a ha).trans hkeeps.seconds.ge
  cutoff a ha hlive :=
    (h.cutoff a ha (hkeeps.seconds.symm.trans_lt hlive)).congr (hkeeps.cutoff _)

theorem Enforced.wait (h : Enforced s) (elapsed : ℕ) :
    Enforced (s.onSessions (s.sessions.advance elapsed)) where
  issued a ha := (h.issued a ha).trans (seconds_le_advance _ _)
  revoked a ha := (h.revoked a ha).trans (seconds_le_advance _ _)
  cutoff a ha hlive := (h.cutoff a ha ((seconds_le_advance _ _).trans_lt hlive)).congr rfl

/-- A value that lands leaves the other cutoffs. -/
theorem Enforced.land (h : Enforced s) {slot : ℕ} (ha : LeavesRevoked (.land slot) s) :
    Enforced (s.onSessions (s.sessions.land slot)) := by
  have hseconds : (s.sessions.land slot).seconds = s.sessions.seconds := by
    unfold Sessions.seconds
    exact congrArg (· / 1000) (CacheState.land_now s.sessions.cache slot)
  have haccess : (s.sessions.land slot).accessTokens = s.sessions.accessTokens := rfl
  refine ⟨fun a hmem => ?_, fun a hmem => ?_, fun a hmem hlive => ?_⟩
  · exact (h.issued a (haccess ▸ hmem)).trans hseconds.ge
  · exact (h.revoked a hmem).trans hseconds.ge
  · have hlive' : s.sessions.seconds < a.exp := hseconds.symm.trans_lt hlive
    refine (h.cutoff a hmem hlive').congr ?_
    have hlanding : s.sessions.cache.landing slot (.revokedUser a.payload.sub) = none := by
      unfold CacheState.landing
      rw [Option.bind_eq_none_iff]
      intro w hw
      rw [if_neg]
      rintro ⟨hkey, _⟩
      exact absurd (ha w a.payload.sub hw hkey a hmem rfl) (Nat.not_le.mpr hlive')
    have hland := CacheState.land_entry s.sessions.cache slot (.revokedUser a.payload.sub)
    rw [hlanding] at hland
    exact hland

/-- A revocation moves the cutoff of one user forward. -/
theorem Enforced.ended (h : Enforced s) {app : AppState} {id : Id}
    (hended : app.sessions = (revokeAllUserTokens id s.sessions).2) :
    Enforced { s with app := app } := by
  have hleaves : LeavesOthers id s.sessions app.sessions :=
    hended ▸ leavesOthers_revoke id s.sessions
  refine ⟨fun a hmem => ?_, fun a hmem => (h.revoked a hmem).trans hleaves.seconds.ge,
    fun a hmem hlive => ?_⟩
  · exact (h.issued a (hleaves.access ▸ hmem)).trans hleaves.seconds.ge
  · have hold := h.cutoff a hmem (hleaves.seconds.symm.trans_lt hlive)
    by_cases hsub : a.payload.sub = id
    · show CutOff app.sessions a
      rw [hended, ← hsub]
      exact cutOff_revoked hold.1 (h.revoked a hmem)
    · exact hold.congr (hleaves.cutoff _ hsub)

/-- Behind a revocation the tokens of the user that were issued so far are cut off. -/
theorem Enforced.revoke (h : Enforced s) {app : AppState} {env : UserEnv} {id : Id}
    (hended : app.sessions = (revokeAllUserTokens (env.spelling id) s.sessions).2)
    (hreaches : ReachesTokens env id s.sessions) :
    Enforced ({ s with app := app : RevocationState }.revoke id) := by
  have hafter := h.ended hended
  have hleaves : LeavesOthers (env.spelling id) s.sessions app.sessions :=
    hended ▸ leavesOthers_revoke (env.spelling id) s.sessions
  refine ⟨hafter.issued, fun a hmem => ?_, fun a hmem hlive => ?_⟩
  · rcases List.mem_append.mp hmem with hnew | hold
    · exact hafter.issued a (List.mem_filter.mp hnew).1
    · exact hafter.revoked a hold
  · rcases List.mem_append.mp hmem with hnew | hold
    · rcases List.mem_filter.mp hnew with ⟨hsigned, hsub⟩
      have hsigned' : a ∈ s.sessions.accessTokens := hleaves.access ▸ hsigned
      have hsub' : a.payload.sub = id := eq_of_beq hsub
      rcases hreaches with ⟨hid, hspelled⟩ | hexpired
      · show CutOff app.sessions a
        rw [hended, hspelled, ← hsub']
        exact cutOff_revoked (hsub' ▸ hid) (h.issued a hsigned')
      · exact absurd (hexpired a hsigned' hsub')
          (Nat.not_le.mpr (hleaves.seconds.symm.trans_lt hlive))
    · exact hafter.cutoff a hold hlive

/-- A call that returns with the sessions of a user ended has revoked its tokens. -/
theorem Enforced.called {α : Type} (h : Enforced s) {revokes : Bool} {env : UserEnv} {id : Id}
    {x : AppService α} (hends : EndsSessions revokes (env.spelling id) x)
    (hreaches : revokes = true → ReachesTokens env id s.sessions) :
    Enforced (s.called revokes id (x s.app)) := by
  unfold RevocationState.called
  rcases hends s.app with hended | ⟨hsame, hdue⟩
  · split
    · next hdone =>
        rw [Bool.and_eq_true] at hdone
        exact h.revoke hended (hreaches hdone.2)
    · exact h.ended hended
  · have hnot : ((x s.app).1.isOk && revokes) = false := by
      cases hok : (x s.app).1.isOk with
      | false => rfl
      | true =>
          rw [hdue hok]
          rfl
    rw [hnot]
    exact h.keeps (hsame ▸ .refl _)

/-- What is made of a revoked token is cut off where the cutoff lies in the future. -/
theorem Enforced.refreshed (h : Enforced s) {cookie : Option RefreshToken} {csrfToken : String}
    (ha : LeavesRevoked (.refresh cookie csrfToken) s) :
    Enforced (s.refreshed cookie (refresh cookie csrfToken s.sessions)) := by
  have hkeeps := keepsCutoffs_refresh s.sessions cookie csrfToken
  rcases refresh_cases (P := fun _ => False) (fun _ hfalse => hfalse) cookie csrfToken
    s.sessions with ⟨e, sessions, hrun, _⟩ | ⟨t, a, r, csrf, sessions, hcookie, hrun, hdone⟩
  · rw [hrun] at hkeeps ⊢
    exact h.keeps hkeeps
  · rw [hrun] at hkeeps ⊢
    have hafter : Enforced (s.onSessions sessions) := h.keeps hkeeps
    unfold RevocationState.refreshed
    simp only
    split
    · next hrevoked =>
        rw [hcookie, Option.any_some, List.contains_iff_mem] at hrevoked
        have hcut := ha t hrevoked hcookie hdone.verified hdone.unmarked
        rw [← hdone.access] at hcut
        have hissued : a.iat = s.sessions.seconds := by
          rw [hdone.access]
          rfl
        refine ⟨hafter.issued, fun b hb => ?_, fun b hb hlive => ?_⟩
        · rcases List.mem_cons.mp hb with rfl | hold
          · exact hissued.le.trans hkeeps.seconds.ge
          · exact hafter.revoked b hold
        · rcases List.mem_cons.mp hb with rfl | hold
          · exact hcut.congr (hkeeps.cutoff _)
          · exact hafter.cutoff b hold hlive
    · exact hafter

/-- A step that leaves what has been revoked keeps the cutoffs. -/
theorem enforced_step (h : Enforced s) {a : RevocationAction} (ha : LeavesRevoked a s) :
    Enforced ((revocationMachine rt).step a s).2 := by
  cases a with
  | wait elapsed => exact h.wait elapsed
  | land slot => exact h.land ha
  | login env dto tenantId store csrfToken => exact h.keeps (keepsCutoffs_login ..)
  | refresh cookie csrfToken => exact h.refreshed ha
  | request req bearer store => exact h.keeps (keepsCutoffs_authenticate ..)
  | logout req bearer store => exact h.keeps (keepsCutoffs_logout ..)
  | updateUser env id dto tenantId actor =>
      exact h.called (ends_updateUser rt env dto tenantId actor) ha
  | deleteUser env id tenantId actor =>
      exact h.called (ends_deleteUser env tenantId actor) fun _ => ha
  | resetPassword env token newPassword salt =>
      have hnobody : (resetUserId token s.sessions).isSome = false := by
        unfold resetUserId
        cases (s.sessions.get (.passwordReset token) .null 900).1 <;> rfl
      show Enforced (s.called (resetUserId token s.sessions).isSome _ _)
      rw [hnobody]
      unfold RevocationState.called
      rw [Bool.and_false]
      exact h.keeps (keepsCutoffs_resetPassword ..)

/-- From a state in which nothing has been revoked: where no step exchanges a revoked refresh
token behind the cutoff of its user, no value lands on that cutoff, and each revocation reaches the
tokens of its user, no request is authenticated by a revoked token, after each of the steps. -/
theorem revocation_final (rt : Runtime) (as : List RevocationAction) (s : RevocationState)
    (hnone : s.revokedAccess = [])
    (hissued : ∀ a ∈ s.sessions.accessTokens, a.iat ≤ s.sessions.seconds)
    (hall : (revocationMachine rt).EachStep LeavesRevoked as s) :
    ∀ done, done <+: as → RevocationFinal ((revocationMachine rt).exec done s) := by
  rintro done ⟨rest, rfl⟩
  have hstart : Enforced s := by
    refine ⟨hissued, fun a ha => ?_, fun a ha => ?_⟩
    · rw [hnone] at ha
      cases ha
    · rw [hnone] at ha
      cases ha
  have henforced : Enforced ((revocationMachine rt).exec done s) :=
    (revocationMachine rt).exec_of_eachStep (I := Enforced)
      (fun _ _ _ h ha => enforced_step h ha) hstart
      ((revocationMachine rt).eachStep_append done rest s |>.mp hall).1
  intro a ha req store
  exact refuses_of_cutOff (henforced.cutoff a ha) req store

end Steps

/-! ## A cook that is deleted -/

/-- The cook logs in. -/
def cookStarts : RevocationAction :=
  .login cookEnv { email := "carlo@example.com", password := "basilico" } none none "c1"

/-- The owner deletes the cook. -/
def cookLeaves : RevocationAction :=
  .deleteUser
    { context := { tenantId := some "t1" }, uuid := cookEnv.uuid, now := cookEnv.now } "u1"
    (some "t1") { id := "u9", roles := ["RESTAURANT_OWNER"], permissions := [] }

/-- The cook makes a request, whose values land before the deletion, and refreshes the session in
the second of the deletion. -/
def cookHurries : List RevocationAction :=
  [cookStarts, .request { headerText := .token cookAccessToken } cookAccessToken none, .land 1,
    cookLeaves, .refresh (some cookRefreshToken) "c2", .wait 1000]

/-- Neither the token of the login nor that of the refresh authenticates the cook. -/
theorem hurry_refused :
    RevocationFinal ((revocationMachine plainRuntime).exec cookHurries { app := cookState }) ∧
      ((revocationMachine plainRuntime).exec cookHurries { app := cookState }).revokedAccess.map
        (·.payload.roles) = [[], ["CHEF"]] := by
  refine ⟨?_, by decide +kernel⟩
  refine revocation_final plainRuntime cookHurries { app := cookState } rfl
    (fun a ha => absurd ha List.not_mem_nil) ?_ _ (List.prefix_refl _)
  refine ⟨trivial, trivial, fun _ _ _ _ a ha => ?_, Or.inl ⟨by decide, rfl⟩, ?_, trivial,
    trivial⟩
  · have hnone : (((revocationMachine plainRuntime).exec (cookHurries.take 2)
        { app := cookState }).revokedAccess) = [] := by
      decide +kernel
    exact absurd (hnone ▸ ha) List.not_mem_nil
  · rintro t _ ⟨⟩ _ _
    exact ⟨by decide, 1700000001, 1700003600000, by decide +kernel, by decide +kernel,
      by decide +kernel⟩

/-- The cook refreshes the session two seconds after the deletion. -/
def cookStays : List RevocationAction :=
  [cookStarts, cookLeaves, .wait 2000, .refresh (some cookRefreshToken) "c2"]

/-- The token of the refresh authenticates the deleted cook. -/
theorem deleted_cook_returns :
    ¬RevocationFinal ((revocationMachine plainRuntime).exec cookStays { app := cookState }) := by
  intro hfinal
  have haccepted : ((revocationMachine plainRuntime).exec cookStays
      { app := cookState }).revokedAccess.any (fun a =>
        (authenticate { headerText := .token a } a none ((revocationMachine plainRuntime).exec
          cookStays { app := cookState }).sessions).1.isOk) = true := by
    decide +kernel
  rcases List.any_eq_true.mp haccepted with ⟨a, ha, hok⟩
  rw [hfinal a ha] at hok
  cases hok

/-- A deletion that writes the id in capitals leaves the cook the token of the login. -/
example :
    (authenticate { headerText := .token cookAccessToken } cookAccessToken none
      ((revocationMachine plainRuntime).exec [cookStarts, .deleteUser
        { context := { tenantId := some "t1" }, uuid := cookEnv.uuid, now := cookEnv.now
          spelling := asciiUpperCase } "u1" (some "t1")
        { id := "u9", roles := ["RESTAURANT_OWNER"], permissions := [] }]
        { app := cookState }).sessions).1.isOk = true := by
  decide +kernel

end UserService
end Eleva
