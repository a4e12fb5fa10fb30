import Eleva.Foundation.Machine
import Eleva.Auth.Login

/-!
# Auth - Chains of refreshes

A session goes on by refreshes, each of which presents the refresh token that the one before
returned.  A refresh token carries the subject, the email and the tenant of its session, and
nothing that tells it from another token of the same claims and the same second.

Main results:

- Theorem {lit}`refresh_drops_roles`: the access token of a refresh has no roles and no
  permissions, those of a login are never empty.
- Definition {lit}`sessionMachine`: logins and refreshes of any number of sessions, in turn.
- Theorem {lit}`refreshes_succeed`: a refresh succeeds where no token is presented again.
- Theorem {lit}`chain_breaks`: a session that is refreshed twice in the second of its login
  ends.
-/

namespace Eleva
namespace Auth

open Foundation Database Cache

/-! ## What a refresh hands on -/

/-- The claims that both kinds of token carry. -/
structure Identity where
  sub : Id
  email : String
  tenantId : Option Id
deriving DecidableEq, Repr

def RefreshToken.identity (t : RefreshToken) : Identity :=
  { sub := t.sub, email := t.email, tenantId := t.tenantId }

def TokenPayload.identity (payload : TokenPayload) : Identity :=
  { sub := payload.sub, email := payload.email, tenantId := payload.tenantId }

/-- The identity behind a rotation: an empty tenant becomes none. -/
def Identity.rotated (id : Identity) : Identity :=
  { id with tenantId := if truthy id.tenantId then id.tenantId else none }

@[simp]
theorem Identity.rotated_rotated (id : Identity) : id.rotated.rotated = id.rotated := by
  cases htenant : truthy id.tenantId <;> simp [Identity.rotated, htenant]

/-- What a refresh that returns has signed. -/
theorem refresh_signs {t : RefreshToken} {csrfToken csrf : String} {a : AccessToken}
    {r : RefreshToken} {s s' : Sessions}
    (h : refresh (some t) csrfToken s = (.ok (a, r, csrf), s')) :
    a = s.accessTokenFor t.rotatedPayload ∧ r = s.refreshTokenFor t.rotatedPayload := by
  rcases refresh_eq_ok h with ⟨t', sub, s₁, hcookie, hrotate, _⟩
  cases hcookie
  rw [rotateRefreshToken_run] at hrotate
  split at hrotate
  · cases hrotate
  · split at hrotate
    · cases hrotate
    · cases hrotate
      exact ⟨rfl, rfl⟩

/-- Refreshes of one session, each with the refresh token that the one before returned; the
state in between may be any. -/
inductive RefreshChain (start : RefreshToken) : ℕ → AccessToken → RefreshToken → Prop
  | first {csrfToken csrf : String} {a : AccessToken} {r : RefreshToken} {s s' : Sessions}
      (returned : refresh (some start) csrfToken s = (.ok (a, r, csrf), s')) :
      RefreshChain start 1 a r
  | next {n : ℕ} {csrfToken csrf : String} {a a' : AccessToken} {r r' : RefreshToken}
      {s s' : Sessions} (before : RefreshChain start n a r)
      (returned : refresh (some r) csrfToken s = (.ok (a', r', csrf), s')) :
      RefreshChain start (n + 1) a' r'

/-- The claims at the end of a chain. -/
theorem RefreshChain.claims {start : RefreshToken} {n : ℕ} {a : AccessToken} {r : RefreshToken}
    (h : RefreshChain start n a r) :
    r.identity = start.identity.rotated ∧ a.payload.identity = start.identity.rotated ∧
      a.payload.roles = [] ∧ a.payload.permissions = [] := by
  induction h with
  | first returned =>
      rcases refresh_signs returned with ⟨rfl, rfl⟩
      exact ⟨rfl, rfl, rfl, rfl⟩
  | @next n csrfToken csrf a a' r r' s s' before returned ih =>
      rcases refresh_signs returned with ⟨rfl, rfl⟩
      have hid : r.identity.rotated = start.identity.rotated := by
        rw [ih.1, Identity.rotated_rotated]
      exact ⟨hid, hid, rfl, rfl⟩

/-- A session has at least one role. -/
theorem roleNames_ne_nil (account : LoginAccount) : account.roleNames ≠ [] := by
  unfold LoginAccount.roleNames
  intro hnone
  simp only at hnone
  split at hnone
  · cases hnone
  · rename_i hsome
    exact hsome hnone

/-- The roles that a login signs. -/
theorem login_roles {rt : Runtime} {env : LoginEnv} {dto : LoginDto} {tenantId : Option Id}
    {store : Option TenantContext} {csrfToken : String} {profile : LoginProfile}
    {a : AccessToken} {r : RefreshToken} {s s' : AppState}
    (h : login rt env dto tenantId store csrfToken s = (.ok (profile, a, r), s')) :
    a.payload.roles ≠ [] ∧ r.identity = a.payload.identity := by
  rcases login_eq_ok h with ⟨hvalid, rfl, rfl, _⟩
  rcases validateLogin_eq_ok hvalid with ⟨account, rfl, _⟩
  exact ⟨roleNames_ne_nil account, rfl⟩

/-- A restaurant with one cook. -/
def cookDb : Db where
  tenants := [{ id := "t1", name := "Trattoria" }]
  permissions := [{ id := "p1", action := "read", resource := "Order" }]
  roles := [{ id := "r1", tenantId := some "t1", name := "CHEF", displayName := "Chef"
              permissionIds := ["p1"] }]
  users := [{ id := "u1", tenantId := some "t1", firstName := "Carlo", lastName := "C"
              email := "carlo@example.com", passwordHash := "salt$basilico", roleIds := ["r1"] }]

/-- The database of the cook, and a session store without entries. -/
def cookState : AppState where
  world := { db := cookDb }
  sessions := { cache := { redis := { now := 1700000000000, entry := fun _ => none } } }

def cookEnv : LoginEnv where
  context := {}
  uuid _ := "new"
  now := 1700000000000

/-- The login of the cook. -/
def cookLogin : AppService (LoginProfile × AccessToken × RefreshToken) :=
  login plainRuntime cookEnv { email := "carlo@example.com", password := "basilico" } none none "c1"

/-- The access token of that login. -/
def cookAccessToken : AccessToken where
  payload :=
    { sub := "u1"
      email := "carlo@example.com"
      tenantId := some "t1"
      roles := ["CHEF"]
      permissions := ["order:read"] }
  iat := 1700000000

/-- The refresh token of that login. -/
def cookRefreshToken : RefreshToken :=
  { sub := "u1", email := "carlo@example.com", tenantId := some "t1", iat := 1700000000 }

theorem cook_logs_in : ∃ profile s', cookLogin cookState =
    (.ok (profile, cookAccessToken, cookRefreshToken), s') := by
  have hrun : (cookLogin cookState).1.toOption.any
      (fun x => decide (x.2 = (cookAccessToken, cookRefreshToken))) = true := by
    decide +kernel
  rcases Fallible.returned_of_any hrun with ⟨⟨profile, a, r⟩, s', hlogin, htokens⟩
  have hpair := of_decide_eq_true htokens
  cases hpair
  exact ⟨profile, s', hlogin⟩

/-- The cook refreshes the session a second later. -/
theorem cook_refreshes : ∃ a r, RefreshChain cookRefreshToken 1 a r := by
  have hrun : (refresh (some cookRefreshToken) "c2"
      ((cookLogin cookState).2.sessions.advance 1000)).1.toOption.any (fun _ => true) = true := by
    decide +kernel
  rcases Fallible.returned_of_any hrun with ⟨⟨a, r, csrf⟩, s', hrefresh, _⟩
  exact ⟨a, r, .first hrefresh⟩

/-- The access token behind any number of refreshes is not that of the login: it keeps the
subject and the email, and has neither roles nor permissions. -/
theorem refresh_drops_roles {rt : Runtime} {env : LoginEnv} {dto : LoginDto}
    {tenantId : Option Id} {store : Option TenantContext} {csrfToken : String}
    {profile : LoginProfile} {a₀ a : AccessToken} {r₀ r : RefreshToken} {s s' : AppState} {n : ℕ}
    (hlogin : login rt env dto tenantId store csrfToken s = (.ok (profile, a₀, r₀), s'))
    (hchain : RefreshChain r₀ n a r) :
    a.payload ≠ a₀.payload ∧ a.payload.identity = a₀.payload.identity.rotated ∧
      a.payload.roles = [] ∧ a.payload.permissions = [] ∧ a₀.payload.roles ≠ [] := by
  rcases login_roles hlogin with ⟨hroles, hidentity⟩
  rcases hchain.claims with ⟨_, hid, hnone, hempty⟩
  rw [hidentity] at hid
  refine ⟨?_, hid, hnone, hempty, hroles⟩
  intro hsame
  rw [hsame] at hnone
  exact hroles hnone

/-- The cook is a cook no more behind a refresh. -/
theorem cook_refreshed :
    ∃ a r, RefreshChain cookRefreshToken 1 a r ∧ a.payload ≠ cookAccessToken.payload := by
  rcases cook_logs_in with ⟨profile, s', hlogin⟩
  rcases cook_refreshes with ⟨a, r, hchain⟩
  exact ⟨a, r, hchain, (refresh_drops_roles hlogin hchain).1⟩

/-- A refresh does not preserve the claims of a login. -/
theorem refresh_changes_claims :
    ¬∀ (rt : Runtime) (env : LoginEnv) (dto : LoginDto) (tenantId : Option Id)
      (store : Option TenantContext) (csrfToken : String) (profile : LoginProfile)
      (a₀ a : AccessToken) (r₀ r : RefreshToken) (s s' : AppState) (n : ℕ),
      login rt env dto tenantId store csrfToken s = (.ok (profile, a₀, r₀), s') →
        RefreshChain r₀ n a r → a.payload = a₀.payload := by
  intro hall
  rcases cook_logs_in with ⟨profile, s', hlogin⟩
  rcases cook_refreshes with ⟨a, r, hchain⟩
  have hsame := hall _ _ _ _ _ _ _ _ _ _ _ _ _ _ hlogin hchain
  have hroles := hchain.claims.2.2.1
  rw [hsame] at hroles
  cases hroles

/-! ## Sessions that log in and refresh in turn -/

section Machine

variable {ι : Type} [DecidableEq ι]

/-- What happens to the sessions, one thing at a time: time passes, a value that was sent back
to the cache lands, a session logs in, or a session presents its cookie. -/
inductive SessionAction (ι : Type) where
  | wait (elapsed : ℕ)
  | land (slot : ℕ)
  | login (i : ι) (env : LoginEnv) (dto : LoginDto) (tenantId : Option Id)
      (store : Option TenantContext) (csrfToken : String)
  | refresh (i : ι) (csrfToken : String)

/-- The system, the refresh token that each session holds, and the tokens that have been
exchanged. -/
structure SessionState (ι : Type) where
  app : AppState
  cookie : ι → Option RefreshToken := fun _ => none
  exchanged : List RefreshToken := []

namespace SessionState

def onSessions (s : SessionState ι) (f : Sessions → Sessions) : SessionState ι :=
  { s with app := { s.app with sessions := f s.app.sessions } }

/-- A login; a session that fails to log in keeps its cookie. -/
def loggedIn (s : SessionState ι) (i : ι) :
    Except AppError (LoginProfile × AccessToken × RefreshToken) × AppState →
      Except AppError Unit × SessionState ι
  | (.ok (_, _, r), app) => (.ok (), { s with app, cookie := Function.update s.cookie i (some r) })
  | (.error e, app) => (.error e, { s with app })

/-- A refresh; a session that fails to refresh keeps its cookie. -/
def refreshed (s : SessionState ι) (i : ι) :
    Except AppError (AccessToken × RefreshToken × String) × Sessions →
      Except AppError Unit × SessionState ι
  | (.ok (_, r, _), sessions) =>
      (.ok (),
        { app := { s.app with sessions }
          cookie := Function.update s.cookie i (some r)
          exchanged := (s.cookie i).toList ++ s.exchanged })
  | (.error e, sessions) => (.error e, { s with app := { s.app with sessions } })

end SessionState

/-- Logins and refreshes of any number of sessions, one at a time. -/
def sessionMachine (rt : Runtime) :
    Machine (SessionAction ι) (SessionState ι) (Except AppError Unit) where
  step a s :=
    match a with
    | .wait elapsed => (.ok (), s.onSessions (·.advance elapsed))
    | .land slot => (.ok (), s.onSessions (·.land slot))
    | .login i env dto tenantId store csrfToken =>
        s.loggedIn i (login rt env dto tenantId store csrfToken s.app)
    | .refresh i csrfToken => s.refreshed i (refresh (s.cookie i) csrfToken s.app.sessions)

/-- A refresh with a token that has not expired succeeds. -/
def Succeeds (rt : Runtime) (a : SessionAction ι) (s : SessionState ι) : Prop :=
  match a with
  | .refresh i _ => ∀ t, s.cookie i = some t → s.app.sessions.seconds < t.exp →
      ((sessionMachine rt).step a s).1 = .ok ()
  | _ => True

/-- A refresh with a token that has not expired presents one that has not been exchanged. -/
def PresentsUnused (a : SessionAction ι) (s : SessionState ι) : Prop :=
  match a with
  | .refresh i _ => ∀ t, s.cookie i = some t → s.app.sessions.seconds < t.exp → t ∉ s.exchanged
  | _ => True

end Machine

/-- The marked tokens are among the exchanged ones, and no other value than the fallback is on
its way to a marker. -/
structure MarksOnly (s : Sessions) (exchanged : List RefreshToken) : Prop where
  marked : ∀ t value expiry, s.cache.redis.entry (.blacklistToken t) = some (value, expiry) →
    value.truthy = true → t ∈ exchanged
  pending : ∀ w ∈ s.cache.pending, ∀ t, w.key = .blacklistToken t → w.value.truthy = false

section Marks

variable {s : Sessions} {exchanged : List RefreshToken}

theorem MarksOnly.land (h : MarksOnly s exchanged) (slot : ℕ) :
    MarksOnly (s.land slot) exchanged where
  marked t value expiry hentry htruthy := by
    have hland := CacheState.land_entry s.cache slot (.blacklistToken t)
    rw [show (s.land slot).cache = s.cache.land slot from rfl, hland] at hentry
    rcases Option.or_eq_some_iff.mp hentry with hlanding | ⟨_, hold⟩
    · unfold CacheState.landing at hlanding
      rcases Option.bind_eq_some_iff.mp hlanding with ⟨w, hslot, hvalue⟩
      split at hvalue
      · rename_i hkey
        cases hvalue
        have hfalse := h.pending w (List.mem_of_getElem? hslot) t hkey.1
        rw [hfalse] at htruthy
        cases htruthy
      · cases hvalue
    · exact h.marked t value expiry hold htruthy
  pending w hw t hkey := h.pending w (CacheState.land_pending_subset s.cache slot hw) t hkey

/-- Writing another key leaves the markers. -/
theorem MarksOnly.set (h : MarksOnly s exchanged) {key : SessionKey}
    (hkey : ∀ t, key ≠ .blacklistToken t) (value : SessionValue) (ttlSeconds : ℕ) :
    MarksOnly (s.set key value ttlSeconds) exchanged where
  marked t v expiry hentry htruthy := by
    refine h.marked t v expiry ?_ htruthy
    have hsame := CacheState.setEx_entry_of_ne s.cache (Ne.symm (hkey t)) value ttlSeconds
    rw [← hsame]
    exact hentry
  pending w hw t hwkey := by
    refine h.pending w ?_ t hwkey
    have hsame := CacheState.setEx_pending s.cache key value ttlSeconds
    rw [← hsame]
    exact hw

/-- A look at a marker leaves the markers. -/
theorem MarksOnly.markerRead (h : MarksOnly s exchanged) (t : RefreshToken) :
    MarksOnly (markerRead t s).2 exchanged where
  marked t' value expiry hentry htruthy := by
    refine h.marked t' value expiry ?_ htruthy
    have hsame := get_redis s (.blacklistToken t) (.flag false) defaultTtl
    rw [← hsame]
    exact hentry
  pending w hw t' hkey := by
    rcases CacheState.get_pending hw with hold | ⟨_, rfl⟩
    · exact h.pending w hold t' hkey
    · rfl

/-- A rotation marks the token that is exchanged. -/
theorem MarksOnly.markRotated (h : MarksOnly s exchanged) (t : RefreshToken) :
    MarksOnly (markRotated t s) (t :: exchanged) where
  marked t' value expiry hentry htruthy := by
    by_cases hsame : t' = t
    · rw [hsame]
      exact List.mem_cons_self
    · have hne : SessionKey.blacklistToken t' ≠ .blacklistToken t := by
        simpa using hsame
      have hother := CacheState.setEx_entry_of_ne s.cache hne (.flag true) refreshTokenExpiry
      refine List.mem_cons_of_mem _ (h.marked t' value expiry ?_ htruthy)
      rw [← hother]
      exact hentry
  pending w hw t' hkey := by
    refine h.pending w ?_ t' hkey
    have hsame := CacheState.setEx_pending s.cache (.blacklistToken t) (.flag true)
      refreshTokenExpiry
    rw [← hsame]
    exact hw

/-- A token that has not been exchanged is not marked. -/
theorem MarksOnly.unmarked (h : MarksOnly s exchanged) {t : RefreshToken}
    (hnew : t ∉ exchanged) : (Auth.markerRead t s).1 = false := by
  cases htruthy : (Auth.markerRead t s).1 with
  | false => rfl
  | true =>
      simp only [Auth.markerRead, Sessions.get, CacheState.get_value] at htruthy
      unfold ExpiringStore.read at htruthy
      cases hentry : s.cache.redis.entry (.blacklistToken t) with
      | none =>
          rw [hentry] at htruthy
          cases htruthy
      | some entry =>
          rcases entry with ⟨value, expiry⟩
          rw [hentry] at htruthy
          simp only [Option.bind_some] at htruthy
          split at htruthy
          · exact absurd (h.marked t value expiry hentry htruthy) hnew
          · cases htruthy

end Marks

section Runs

variable {ι : Type} [DecidableEq ι] {rt : Runtime}

/-- The marked tokens have been exchanged, and the sessions hold signed tokens. -/
structure SessionInv (s : SessionState ι) : Prop where
  marks : MarksOnly s.app.sessions s.exchanged
  signed : ∀ i t, s.cookie i = some t → t ∈ s.app.sessions.refreshTokens

/-- Storing a CSRF token leaves the markers. -/
theorem MarksOnly.csrf {s : Sessions} {exchanged : List RefreshToken}
    (h : MarksOnly s exchanged) (userId : Id) (csrfToken : String) :
    MarksOnly (csrfGenerateToken userId csrfToken s) exchanged :=
  h.set (fun t => by simp) _ _

/-- Signing a pair leaves the markers. -/
theorem MarksOnly.signed {s : Sessions} {exchanged : List RefreshToken}
    (h : MarksOnly s exchanged) (payload : TokenPayload) : MarksOnly (s.signed payload) exchanged :=
  ⟨h.marked, h.pending⟩

/-- What a refresh does to the markers and to the signed tokens. -/
theorem refresh_marks {s s' : Sessions} {exchanged : List RefreshToken}
    {cookie : Option RefreshToken} {csrfToken : String}
    {result : Except AppError (AccessToken × RefreshToken × String)}
    (h : MarksOnly s exchanged) (hrun : refresh cookie csrfToken s = (result, s')) :
    (∃ e, result = .error e ∧ MarksOnly s' exchanged ∧ s'.refreshTokens = s.refreshTokens) ∨
      ∃ a r csrf, result = .ok (a, r, csrf) ∧ MarksOnly s' (cookie.toList ++ exchanged) ∧
        s'.refreshTokens = r :: s.refreshTokens := by
  cases cookie with
  | none =>
      cases hrun
      exact Or.inl ⟨_, rfl, h, rfl⟩
  | some t =>
      rw [refresh_some, Fallible.bind_apply, rotateRefreshToken_run] at hrun
      by_cases hverifies : s.verifiesRefresh t = false
      · rw [if_pos hverifies] at hrun
        cases hrun
        exact Or.inl ⟨_, rfl, h, rfl⟩
      · rw [if_neg hverifies] at hrun
        by_cases hmarked : (Auth.markerRead t s).1 = true
        · rw [if_pos hmarked] at hrun
          cases hrun
          exact Or.inl ⟨_, rfl, h.markerRead t, rfl⟩
        · rw [if_neg hmarked] at hrun
          right
          have hmarks := ((h.markerRead t).markRotated t).signed t.rotatedPayload
          have htokens : ((Auth.markRotated t (Auth.markerRead t s).2).signed
              t.rotatedPayload).refreshTokens =
                s.refreshTokenFor t.rotatedPayload :: s.refreshTokens := by
            simp [Sessions.signed, Auth.markRotated, Auth.markerRead, Sessions.refreshTokenFor]
          simp only [answerRefresh] at hrun
          split at hrun
          · cases hrun
            exact ⟨_, _, _, rfl, hmarks, htokens⟩
          · cases hrun
            exact ⟨_, _, _, rfl, hmarks.csrf _ _, htokens⟩

/-- A refresh with a token that verifies and is not marked succeeds. -/
theorem refresh_of_unmarked {s : Sessions} {t : RefreshToken} (csrfToken : String)
    (hverifies : s.verifiesRefresh t = true) (hunmarked : (Auth.markerRead t s).1 = false) :
    ∃ a r csrf s', refresh (some t) csrfToken s = (.ok (a, r, csrf), s') := by
  rw [refresh_some, Fallible.bind_apply, rotateRefreshToken_run, hverifies, hunmarked]
  rcases answerRefresh_run csrfToken (s.accessTokenFor t.rotatedPayload)
    (s.refreshTokenFor t.rotatedPayload) t.sub
    ((Auth.markRotated t (Auth.markerRead t s).2).signed t.rotatedPayload) with
    ⟨csrf, s', hanswer, _, _⟩
  exact ⟨_, _, csrf, s', hanswer⟩

/-- A refresh with a token whose marker stands fails. -/
theorem refresh_of_marked {s : Sessions} {t : RefreshToken} (csrfToken : String)
    (hmarked : (Auth.markerRead t s).1 = true) :
    (refresh (some t) csrfToken s).1 = .error refreshFailed := by
  rw [refresh_some, Fallible.bind_apply, rotateRefreshToken_run, hmarked]
  cases s.verifiesRefresh t <;> rfl

/-- An action keeps the invariant, and a refresh with a token that was not exchanged and has
not expired succeeds. -/
theorem session_step {a : SessionAction ι} {s : SessionState ι} (hinv : SessionInv s)
    (hunused : PresentsUnused a s) :
    SessionInv ((sessionMachine rt).step a s).2 ∧ Succeeds rt a s := by
  cases a with
  | wait elapsed => exact ⟨⟨⟨hinv.marks.marked, hinv.marks.pending⟩, hinv.signed⟩, trivial⟩
  | land slot => exact ⟨⟨hinv.marks.land slot, hinv.signed⟩, trivial⟩
  | login i env dto tenantId store csrfToken =>
      refine ⟨?_, trivial⟩
      simp only [sessionMachine]
      rcases hlogin : login rt env dto tenantId store csrfToken s.app with
        ⟨e | ⟨profile, a, r⟩, app⟩
      · have hsame := login_error hlogin
        refine ⟨?_, ?_⟩
        · simp only [SessionState.loggedIn, hsame]
          exact hinv.marks
        · simp only [SessionState.loggedIn, hsame]
          exact hinv.signed
      · rcases login_eq_ok hlogin with ⟨_, _, rfl, rfl⟩
        refine ⟨(hinv.marks.signed _).csrf _ _, fun j t hcookie => ?_⟩
        simp only [SessionState.loggedIn] at hcookie ⊢
        by_cases hj : j = i
        · subst hj
          rw [Function.update_self] at hcookie
          cases hcookie
          exact List.mem_cons_self
        · rw [Function.update_of_ne hj] at hcookie
          exact List.mem_cons_of_mem _ (hinv.signed j t hcookie)
  | refresh i csrfToken =>
      constructor
      · simp only [sessionMachine]
        rcases hrun : refresh (s.cookie i) csrfToken s.app.sessions with ⟨result, sessions⟩
        rcases refresh_marks hinv.marks hrun with
          ⟨e, rfl, hmarks, htokens⟩ | ⟨a, r, csrf, rfl, hmarks, htokens⟩
        · refine ⟨hmarks, fun j t hcookie => ?_⟩
          simp only [SessionState.refreshed, htokens]
          exact hinv.signed j t hcookie
        · refine ⟨hmarks, fun j t hcookie => ?_⟩
          simp only [SessionState.refreshed, htokens] at hcookie ⊢
          by_cases hj : j = i
          · subst hj
            rw [Function.update_self] at hcookie
            cases hcookie
            exact List.mem_cons_self
          · rw [Function.update_of_ne hj] at hcookie
            exact List.mem_cons_of_mem _ (hinv.signed j t hcookie)
      · intro t hcookie hlive
        have hverifies : s.app.sessions.verifiesRefresh t = true := by
          simp [Sessions.verifiesRefresh, hinv.signed i t hcookie, hlive]
        rcases refresh_of_unmarked csrfToken hverifies
          (hinv.marks.unmarked (hunused t hcookie hlive)) with ⟨a, r, csrf, s', hrun⟩
        simp only [sessionMachine, hcookie, hrun]
        rfl

/-- In a run in which no refresh presents a token that has been exchanged, each refresh with a
token that has not expired succeeds. -/
theorem refreshes_succeed {as : List (SessionAction ι)} {s : SessionState ι} (hstart : SessionInv s)
    (hunused : (sessionMachine rt).EachStep PresentsUnused as s) :
    (sessionMachine rt).EachStep (Succeeds rt) as s :=
  Machine.eachStep_of_invariant (sessionMachine rt)
    (fun _ _ _ hinv hstep => session_step hinv hstep) hstart hunused

end Runs

/-- No token has been exchanged, and no session has begun. -/
def cookStart : SessionState Unit where
  app := cookState

theorem cookStart_inv : SessionInv cookStart where
  marks :=
    { marked := fun _ _ _ hentry => by cases hentry
      pending := fun _ hw => by cases hw }
  signed _ _ hcookie := by cases hcookie

/-- The login of the cook, and a refresh. -/
def cookLogsIn : SessionAction Unit :=
  .login () cookEnv { email := "carlo@example.com", password := "basilico" } none none "c1"

def cookRefreshes : SessionAction Unit :=
  .refresh () "c2"

instance decidablePresentsUnused {ι : Type} (a : SessionAction ι) (s : SessionState ι) :
    Decidable (PresentsUnused a s) :=
  match a with
  | .refresh i _ =>
      match hcookie : s.cookie i with
      | none => isTrue (by simp [PresentsUnused, hcookie])
      | some t => decidable_of_iff (s.app.sessions.seconds < t.exp → t ∉ s.exchanged)
          (by simp [PresentsUnused, hcookie])
  | .wait _ => isTrue trivial
  | .land _ => isTrue trivial
  | .login .. => isTrue trivial

/-- Refreshes in different seconds. -/
theorem cook_stays : (sessionMachine plainRuntime).EachStep (Succeeds plainRuntime)
    [cookLogsIn, .wait 1000, cookRefreshes, .land 0, .wait 1000, cookRefreshes] cookStart := by
  refine refreshes_succeed cookStart_inv ⟨?_, ?_, ?_, ?_, ?_, ?_, trivial⟩
  all_goals decide +kernel

/-- A second refresh in the second of the login presents a token that equals the one that was
exchanged. -/
theorem chain_breaks :
    ¬∀ (as : List (SessionAction Unit)) (s : SessionState Unit), SessionInv s →
      (sessionMachine plainRuntime).EachStep (Succeeds plainRuntime) as s := by
  intro hall
  have hsteps := hall [cookLogsIn, cookRefreshes, cookRefreshes] cookStart cookStart_inv
  have hsecond := hsteps.2.2.1 cookRefreshToken (by decide +kernel) (by decide +kernel)
  revert hsecond
  decide +kernel

end Auth
end Eleva
