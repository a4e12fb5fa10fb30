import Eleva.Auth.CsrfService
import Eleva.Auth.RefreshChain
import Eleva.Auth.SessionFrames

/-!
# Auth - CSRF tokens of many devices

A user may have sessions on several devices, each with the CSRF token that its last login or
refresh returned.  The service keeps one token for the user, so that a login or a refresh on one
device replaces the token of the others, and a logout removes it.

Main results:

- Definitions {lit}`csrfGuard` and {lit}`deviceMachine`.
- Theorem {lit}`csrfGuard_of_held`: a session whose token is kept passes the guard.
- Theorem {lit}`sessions_pass`: where no login, refresh or logout of a user goes through while
  another device has a session of the user, every session passes the guard.
- Theorem {lit}`second_device_locks_out`: a login on a second device takes the first one's token.
-/

namespace Eleva
namespace Auth

open Foundation Database Cache

/-! ## The guard -/

def MUTATING_METHODS : List String :=
  ["POST", "PUT", "DELETE", "PATCH"]

/-- What the guard reads of a request; nobody has authenticated it yet. -/
structure GuardedRequest where
  method : String
  isPublic : Bool := false
  bearer : Option AccessToken
  csrfHeader : Option String
deriving DecidableEq, Repr

/-- The subject of the bearer token, when it verifies. -/
def resolveUserId (s : Sessions) (bearer : Option AccessToken) : Option Id :=
  bearer.bind fun token => if s.verifiesAccess token then some token.payload.sub else none

def csrfGuard (req : GuardedRequest) : SessionService Unit := fun s =>
  if !MUTATING_METHODS.contains req.method then (.ok (), s)
  else if req.isPublic then (.ok (), s)
  else
    let userId := (resolveUserId s req.bearer).getD ""
    if userId = "" then (.ok (), s)
    else
      let csrfToken := req.csrfHeader.getD ""
      if csrfToken = "" then
        (.error (.forbidden "CSRF token is required for mutating requests"), s)
      else
        match csrfValidateToken userId csrfToken s with
        | (true, s) => (.ok (), s)
        | (false, s) => (.error (.forbidden "CSRF token validation failed"), s)

/-! ## Devices -/

/-- What a device holds of its session: the tokens that were returned last. -/
structure DeviceSession where
  accessToken : AccessToken
  refreshToken : RefreshToken
  csrfToken : String
deriving DecidableEq, Repr

/-- The user of a session. -/
def DeviceSession.userId (d : DeviceSession) : Id :=
  d.accessToken.payload.sub

/-- The application, and the sessions of the devices that have not logged out. -/
structure Devices (ι : Type) where
  app : AppState
  session : ι → Option DeviceSession := fun _ => none

/-- What happens, one thing at a time: time passes, a value that was sent back to the cache
lands, and a device logs in, refreshes its session, makes a request or logs out. -/
inductive DeviceAction (ι : Type) where
  | wait (elapsed : ℕ)
  | land (slot : ℕ)
  | login (i : ι) (env : LoginEnv) (dto : LoginDto) (tenantId : Option Id)
      (store : Option TenantContext) (randomBytes : Vector UInt8 32)
  | refresh (i : ι) (randomBytes : Vector UInt8 32)
  | request (i : ι) (method : String) (isPublic : Bool)
  | logout (i : ι) (xTenantId tenantId : Option Id) (store : Option TenantContext)

/-- A request of a session, with its tokens. -/
def DeviceSession.request (d : DeviceSession) (method : String) (isPublic : Bool) :
    GuardedRequest where
  method := method
  isPublic := isPublic
  bearer := some d.accessToken
  csrfHeader := some d.csrfToken

/-- What the strategy reads of a request of a session. -/
def DeviceSession.jwtRequest (d : DeviceSession) (xTenantId tenantId : Option Id) :
    JwtRequest where
  headerText := .token d.accessToken
  xTenantId := xTenantId
  tenantId := tenantId

/-- The logout of a session: the CSRF guard comes first. -/
def DeviceSession.logout (d : DeviceSession) (xTenantId tenantId : Option Id)
    (store : Option TenantContext) : SessionService Unit := do
  csrfGuard (d.request "POST" false)
  Auth.logout (d.jwtRequest xTenantId tenantId) d.accessToken store

section Machine

variable {ι : Type} [DecidableEq ι]

namespace Devices

def onSessions (s : Devices ι) (f : Sessions → Sessions) : Devices ι :=
  { s with app := { s.app with sessions := f s.app.sessions } }

/-- A login; a device that fails to log in keeps what it holds. -/
def loggedIn (s : Devices ι) (i : ι) (csrfToken : String) :
    Except AppError (LoginProfile × AccessToken × RefreshToken) × AppState →
      Except AppError Unit × Devices ι
  | (.ok (_, a, r), app) =>
      (.ok (), { app, session := Function.update s.session i (some ⟨a, r, csrfToken⟩) })
  | (.error e, app) => (.error e, { s with app })

/-- A refresh; a device that fails to refresh keeps what it holds. -/
def refreshed (s : Devices ι) (i : ι) :
    Except AppError (AccessToken × RefreshToken × String) × Sessions →
      Except AppError Unit × Devices ι
  | (.ok (a, r, csrfToken), sessions) =>
      (.ok (),
        { app := { s.app with sessions }
          session := Function.update s.session i (some ⟨a, r, csrfToken⟩) })
  | (.error e, sessions) => (.error e, s.onSessions fun _ => sessions)

/-- A logout; a device that fails to log out keeps what it holds. -/
def loggedOut (s : Devices ι) (i : ι) :
    Except AppError Unit × Sessions → Except AppError Unit × Devices ι
  | (.ok _, sessions) =>
      (.ok (), { app := { s.app with sessions }, session := Function.update s.session i none })
  | (.error e, sessions) => (.error e, s.onSessions fun _ => sessions)

end Devices

/-- The devices, one action at a time. -/
def deviceMachine (rt : Runtime) :
    Machine (DeviceAction ι) (Devices ι) (Except AppError Unit) where
  step a s :=
    match a with
    | .wait elapsed => (.ok (), s.onSessions (·.advance elapsed))
    | .land slot => (.ok (), s.onSessions (·.land slot))
    | .login i env dto tenantId store randomBytes =>
        s.loggedIn i (csrfTokenText randomBytes)
          (login rt env dto tenantId store (csrfTokenText randomBytes) s.app)
    | .refresh i randomBytes =>
        s.refreshed i (refresh ((s.session i).map (·.refreshToken)) (csrfTokenText randomBytes)
          s.app.sessions)
    | .request i method isPublic =>
        match s.session i with
        | none => (.ok (), s)
        | some d =>
            let answer := csrfGuard (d.request method isPublic) s.app.sessions
            (answer.1, s.onSessions fun _ => answer.2)
    | .logout i xTenantId tenantId store =>
        match s.session i with
        | none => (.error (.unauthorized "Unauthorized"), s)
        | some d => s.loggedOut i (d.logout xTenantId tenantId store s.app.sessions)

/-- Every session passes the guard with every request. -/
def SessionsPass (s : Devices ι) : Prop :=
  ∀ i d, s.session i = some d → ∀ method isPublic,
    (csrfGuard (d.request method isPublic) s.app.sessions).1 = .ok ()

/-! ## Runs that leave the other devices alone -/

/-- The account that a login looks up. -/
def loginAccount (rt : Runtime) (env : LoginEnv) (dto : LoginDto) (tenantId : Option Id)
    (store : Option TenantContext) : Service LoginAccount := do
  let found ← findAccount { env with context := loginContext tenantId store }
    (rt.normalizedEmail dto.email) tenantId
  accountOrMock { env with context := loginContext tenantId store }
    (rt.normalizedEmail dto.email) tenantId found

/-- The checks of a login let the account in. -/
structure Accepts (rt : Runtime) (env : LoginEnv) (dto : LoginDto) (account : LoginAccount)
    (w : World) : Prop where
  active : account.user.isActive = true
  password : rt.comparePassword dto.password account.user.passwordHash = true
  secondFactor : (checkMfa rt env account.user dto.mfaToken w).1 = .ok ()

/-- The sessions of a user on other devices have expired. -/
def Alone (s : Devices ι) (i : ι) (userId : Id) : Prop :=
  ∀ j ≠ i, ∀ d, s.session j = some d → d.userId = userId →
    d.accessToken.exp ≤ s.app.sessions.seconds

/-- When a login, a refresh or a logout of a user on one device goes through, the sessions of the
user on other devices have expired. -/
def Undisturbed (rt : Runtime) (a : DeviceAction ι) (s : Devices ι) : Prop :=
  match a with
  | .wait _ => True
  | .land _ => True
  | .login i env dto tenantId store _ =>
      ∀ account, (loginAccount rt env dto tenantId store s.app.world).1 = .ok account →
        Accepts rt { env with context := loginContext tenantId store } dto account s.app.world →
          Alone s i account.user.id
  | .refresh i _ =>
      ∀ d, s.session i = some d → s.app.sessions.verifiesRefresh d.refreshToken = true →
        (markerRead d.refreshToken s.app.sessions).1 = false → Alone s i d.refreshToken.sub
  | .request _ _ _ => True
  | .logout i xTenantId tenantId store =>
      ∀ d, s.session i = some d →
        (authenticate (d.jwtRequest xTenantId tenantId) d.accessToken store
          s.app.sessions).1.isOk = true → Alone s i d.userId

end Machine

/-! ## A session whose token is kept -/

/-- The keys of CSRF tokens. -/
def IsCsrfKey (key : SessionKey) : Prop :=
  ∃ userId, key = .csrfToken userId

/-- The cache keeps the CSRF token of a session for longer than its access token lives. -/
def Held (s : Sessions) (d : DeviceSession) : Prop :=
  ∃ randomBytes deadline, d.csrfToken = csrfTokenText randomBytes ∧
    s.cache.redis.entry (.csrfToken d.userId) = some (.text d.csrfToken, deadline) ∧
      1000 * d.accessToken.exp ≤ deadline

section Guard

variable {s : Sessions} {d : DeviceSession}

/-- The token that is kept is accepted, and the store is left. -/
theorem csrfValidateToken_of_held (hheld : Held s d) (hlive : s.seconds < d.accessToken.exp) :
    csrfValidateToken d.userId d.csrfToken s = (true, s) := by
  rcases hheld with ⟨randomBytes, deadline, htext, hentry, hdeadline⟩
  have hread : s.cache.redis.read (.csrfToken d.userId) = some (.text d.csrfToken) :=
    ExpiringStore.read_eq_some.mpr
      ⟨deadline, hentry, (now_lt_of_seconds hlive).trans_le hdeadline⟩
  have hget : s.get (.csrfToken d.userId) .null defaultTtl = (.text d.csrfToken, s) := by
    unfold Sessions.get CacheState.get
    rw [hread]
  have hgiven : d.csrfToken ≠ "" := by
    rw [htext]
    exact csrfTokenText_ne_empty randomBytes
  have hsame : sameToken d.csrfToken d.csrfToken = true := (sameToken_eq _ _).mpr rfl
  unfold csrfValidateToken
  rw [if_neg hgiven, hget]
  simp [hsame, hgiven]

/-- A session whose token is kept as long as it lives passes the guard, and leaves the store. -/
theorem csrfGuard_of_held
    (hheld : s.seconds < d.accessToken.exp → d.userId ≠ "" → Held s d) (method : String)
    (isPublic : Bool) : csrfGuard (d.request method isPublic) s = (.ok (), s) := by
  unfold csrfGuard
  split
  · rfl
  · split
    · rfl
    · by_cases hverifies : s.verifiesAccess d.accessToken = true
      · have hlive : s.seconds < d.accessToken.exp := by
          unfold Sessions.verifiesAccess at hverifies
          rw [Bool.and_eq_true] at hverifies
          exact of_decide_eq_true hverifies.2
        have hresolve : (resolveUserId s (d.request method isPublic).bearer).getD "" =
            d.userId := by
          simp [resolveUserId, DeviceSession.request, hverifies, DeviceSession.userId]
        simp only [hresolve]
        split
        · rfl
        · next huser =>
            have hgiven : d.csrfToken ≠ "" := by
              rcases hheld hlive huser with ⟨randomBytes, _, htext, _, _⟩
              rw [htext]
              exact csrfTokenText_ne_empty randomBytes
            have hheader : (d.request method isPublic).csrfHeader.getD "" = d.csrfToken := rfl
            rw [hheader, if_neg hgiven, csrfValidateToken_of_held (hheld hlive huser) hlive]
      · have hresolve : (resolveUserId s (d.request method isPublic).bearer).getD "" = "" := by
          simp [resolveUserId, DeviceSession.request, hverifies]
        simp only [hresolve, if_true]

end Guard

/-! ## What the actions keep -/

section Runs

variable {ι : Type} [DecidableEq ι] {rt : Runtime} {s : Devices ι}

/-- The cache keeps the CSRF token of every session that has not expired, and nothing is on its
way to such a token. -/
structure Served (s : Devices ι) : Prop where
  pending : ∀ w ∈ s.app.sessions.cache.pending, ¬IsCsrfKey w.key
  subject : ∀ i d, s.session i = some d → d.refreshToken.sub = d.userId
  held : ∀ i d, s.session i = some d → s.app.sessions.seconds < d.accessToken.exp →
    d.userId ≠ "" → Held s.app.sessions d

theorem not_csrfKey_marker (t : RefreshToken) : ¬IsCsrfKey (.blacklistToken t) := by
  rintro ⟨userId, hkey⟩
  cases hkey

theorem not_csrfKey_access (text : HeaderText) : ¬IsCsrfKey (.blacklistAccess text) := by
  rintro ⟨userId, hkey⟩
  cases hkey

theorem not_csrfKey_revoked (userId : Id) : ¬IsCsrfKey (.revokedUser userId) := by
  rintro ⟨userId', hkey⟩
  cases hkey

/-- A token stays kept where its entry does. -/
theorem Held.congr {s s' : Sessions} {d : DeviceSession}
    (hentry : s'.cache.redis.entry (.csrfToken d.userId) =
      s.cache.redis.entry (.csrfToken d.userId)) (h : Held s d) : Held s' d := by
  rcases h with ⟨randomBytes, deadline, htext, hheld, hdeadline⟩
  exact ⟨randomBytes, deadline, htext, hentry.trans hheld, hdeadline⟩

omit [DecidableEq ι] in
/-- The sessions stay served where the entries of the CSRF tokens stay. -/
theorem Served.frame (h : Served s) {sessions : Sessions}
    (hseconds : s.app.sessions.seconds ≤ sessions.seconds)
    (hentry : ∀ userId, sessions.cache.redis.entry (.csrfToken userId) =
      s.app.sessions.cache.redis.entry (.csrfToken userId))
    (hpending : ∀ w ∈ sessions.cache.pending, IsCsrfKey w.key →
      w ∈ s.app.sessions.cache.pending) :
    Served (s.onSessions fun _ => sessions) where
  pending w hw hkey := h.pending w (hpending w hw hkey) hkey
  subject := h.subject
  held i d hd hlive huser :=
    (h.held i d hd (hseconds.trans_lt hlive) huser).congr (hentry d.userId)

omit [DecidableEq ι] in
theorem Served.of_sessions (h : Served s) {app : AppState}
    (hsame : app.sessions = s.app.sessions) : Served { s with app := app } := by
  refine ⟨?_, h.subject, ?_⟩
  · simp only [hsame]
    exact h.pending
  · simp only [hsame]
    exact h.held

omit [DecidableEq ι] in
theorem Served.leaves (h : Served s) {sessions : Sessions}
    (hleaves : LeavesKeys IsCsrfKey s.app.sessions sessions) :
    Served (s.onSessions fun _ => sessions) :=
  h.frame hleaves.seconds.ge (fun userId => hleaves.entry _ ⟨userId, rfl⟩) hleaves.pending

/-- One device gets a session, whose token is kept, or gives one up; the tokens of the live
sessions of other devices stay. -/
theorem Served.update (h : Served s) {i : ι} {new : Option DeviceSession} {app : AppState}
    (hpending : ∀ w ∈ app.sessions.cache.pending, IsCsrfKey w.key →
      w ∈ s.app.sessions.cache.pending)
    (hseconds : app.sessions.seconds = s.app.sessions.seconds)
    (hsubject : ∀ d ∈ new, d.refreshToken.sub = d.userId)
    (hnew : ∀ d ∈ new, d.userId ≠ "" → Held app.sessions d)
    (hothers : ∀ j ≠ i, ∀ d, s.session j = some d →
      s.app.sessions.seconds < d.accessToken.exp →
        app.sessions.cache.redis.entry (.csrfToken d.userId) =
          s.app.sessions.cache.redis.entry (.csrfToken d.userId)) :
    Served { app, session := Function.update s.session i new : Devices ι } where
  pending w hw hkey := h.pending w (hpending w hw hkey) hkey
  subject j d hd := by
    by_cases hj : j = i
    · subst hj
      have hmem : new = some d := (Function.update_self j new s.session).symm.trans hd
      exact hsubject d hmem
    · exact h.subject j d ((Function.update_of_ne hj ..).symm.trans hd)
  held j d hd hlive huser := by
    by_cases hj : j = i
    · subst hj
      have hmem : new = some d := (Function.update_self j new s.session).symm.trans hd
      exact hnew d hmem huser
    · have hold : s.session j = some d := (Function.update_of_ne hj ..).symm.trans hd
      have hlive' : s.app.sessions.seconds < d.accessToken.exp := hseconds ▸ hlive
      exact (h.held j d hold hlive' huser).congr (hothers j hj d hold hlive')

omit [DecidableEq ι] in
/-- A live session on another device is a session of another user. -/
theorem Alone.ne {i j : ι} {userId : Id} (h : Alone s i userId) (hj : j ≠ i) {d : DeviceSession}
    (hd : s.session j = some d) (hlive : s.app.sessions.seconds < d.accessToken.exp) :
    d.userId ≠ userId :=
  fun hsame => absurd (h j hj d hd hsame) (Nat.not_le.mpr hlive)

/-- A device gets a session of a user that has no live session elsewhere. -/
theorem Served.issued (h : Served s) {i : ι} {d : DeviceSession} (halone : Alone s i d.userId)
    {sessions : Sessions} (hleaves : LeavesKeys IsCsrfKey s.app.sessions sessions)
    (hsubject : d.refreshToken.sub = d.userId)
    (hissued : d.accessToken.iat = s.app.sessions.seconds) {randomBytes : Vector UInt8 32}
    (htext : d.csrfToken = csrfTokenText randomBytes) (world : World) :
    Served { app := { world, sessions := csrfGenerateToken d.userId d.csrfToken sessions }
             session := Function.update s.session i (some d) : Devices ι } := by
  have hpending : (csrfGenerateToken d.userId d.csrfToken sessions).cache.pending =
      sessions.cache.pending := CacheState.setEx_pending ..
  refine h.update (fun w hw => hleaves.pending w (hpending ▸ hw))
    ((set_seconds ..).trans hleaves.seconds) ?_ ?_ ?_
  · rintro _ ⟨⟩
    exact hsubject
  · rintro _ ⟨⟩ _
    refine ⟨randomBytes, sessions.cache.redis.now + 1000 * CSRF_TOKEN_TTL, htext,
      CacheState.setEx_entry_self _ _ _ (by decide), ?_⟩
    unfold AccessToken.exp accessTokenExpiry CSRF_TOKEN_TTL
    rw [hissued, hleaves.now]
    unfold Sessions.seconds
    omega
  · intro j hj e he hlive
    have hkey : SessionKey.csrfToken e.userId ≠ .csrfToken d.userId :=
      csrfToken_ne (halone.ne hj he hlive)
    exact (CacheState.setEx_entry_of_ne _ hkey _ _).trans (hleaves.entry _ ⟨e.userId, rfl⟩)

/-- A session of a user without an id has no token. -/
theorem Served.issued_empty (h : Served s) {i : ι} {d : DeviceSession} (huser : d.userId = "")
    {sessions : Sessions} (hleaves : LeavesKeys IsCsrfKey s.app.sessions sessions)
    (hsubject : d.refreshToken.sub = d.userId) :
    Served { app := { s.app with sessions }
             session := Function.update s.session i (some d) : Devices ι } := by
  refine h.update hleaves.pending hleaves.seconds ?_ ?_ ?_
  · rintro _ ⟨⟩
    exact hsubject
  · rintro _ ⟨⟩ hgiven
    exact absurd huser hgiven
  · intro j _ e _ _
    exact hleaves.entry _ ⟨e.userId, rfl⟩

/-- A device gives up the session of a user that has no live session elsewhere. -/
theorem Served.ended (h : Served s) {i : ι} {userId : Id} (halone : Alone s i userId)
    {sessions : Sessions} (hleaves : LeavesKeys IsCsrfKey s.app.sessions sessions)
    (req : JwtRequest) :
    Served { app := { s.app with sessions := endSession req userId sessions }
             session := Function.update s.session i none : Devices ι } := by
  have hblack : LeavesKeys IsCsrfKey s.app.sessions (blacklistToken req.headerText 900 sessions) :=
    hleaves.trans (leavesKeys_set (not_csrfKey_access _) _ _ _)
  have hpending : ∀ w ∈ (endSession req userId sessions).cache.pending, IsCsrfKey w.key →
      w ∈ s.app.sessions.cache.pending := by
    unfold endSession
    split <;> exact hblack.pending
  have hnow : (endSession req userId sessions).cache.redis.now =
      s.app.sessions.cache.redis.now := by
    unfold endSession
    split <;> exact hblack.now
  refine h.update hpending (by unfold Sessions.seconds; rw [hnow]) ?_ ?_ ?_
  · rintro _ ⟨⟩
  · rintro _ ⟨⟩
  · intro j hj e he hlive
    unfold endSession
    split
    · exact hblack.entry _ ⟨e.userId, rfl⟩
    · exact (CacheState.del_entry_of_ne _ (csrfToken_ne (halone.ne hj he hlive))).trans
        (hblack.entry _ ⟨e.userId, rfl⟩)

omit [DecidableEq ι] in
/-- In a served state every session passes the guard. -/
theorem Served.pass (h : Served s) : SessionsPass s := by
  intro i d hd method isPublic
  rw [csrfGuard_of_held (h.held i d hd)]

/-- The account of a login that goes through. -/
theorem login_account {env : LoginEnv} {dto : LoginDto} {tenantId : Option Id}
    {store : Option TenantContext} {csrfToken : String} {profile : LoginProfile}
    {a : AccessToken} {r : RefreshToken} {app app' : AppState}
    (h : login rt env dto tenantId store csrfToken app = (.ok (profile, a, r), app')) :
    ∃ account, (loginAccount rt env dto tenantId store app.world).1 = .ok account ∧
      Accepts rt { env with context := loginContext tenantId store } dto account app.world ∧
        profile.id = account.user.id := by
  have hvalid := (login_eq_ok h).1
  unfold validateLogin at hvalid
  rcases Fallible.bind_eq_ok.mp hvalid with ⟨found, w₁, hfind, hrest⟩
  rcases Fallible.bind_eq_ok.mp hrest with ⟨account, w₂, haccount, hrest⟩
  have hlooked : loginAccount rt env dto tenantId store app.world = (.ok account, w₂) :=
    Fallible.bind_eq_ok.mpr ⟨found, w₁, hfind, haccount⟩
  have hw₁ : w₁ = app.world := by
    rcases findAccount_state { env with context := loginContext tenantId store }
      (rt.normalizedEmail dto.email) tenantId app.world with ⟨found', hfound⟩
    exact congrArg Prod.snd (hfind.symm.trans hfound)
  have hw₂ : w₂ = w₁ := by
    unfold accountOrMock at haccount
    split at haccount
    · cases haccount
      rfl
    · split at haccount
      · cases haccount
      · cases haccount
        rfl
  rw [hw₂, hw₁] at hrest
  rcases Fallible.throwIf_bind_eq_ok.mp hrest with ⟨hactive, hrest⟩
  rcases Fallible.throwIf_bind_eq_ok.mp hrest with ⟨hpassword, hrest⟩
  rcases Fallible.bind_eq_ok.mp hrest with ⟨_, w₃, hmfa, hend⟩
  cases hend
  exact ⟨account, congrArg Prod.fst hlooked,
    ⟨by simpa using hactive, by simpa using hpassword, congrArg Prod.fst hmfa⟩, rfl⟩

omit [DecidableEq ι] in
/-- The guard lets a served session log out, and leaves the store to the logout. -/
theorem Served.logout_eq (h : Served s) {i : ι} {d : DeviceSession} (hd : s.session i = some d)
    (xTenantId tenantId : Option Id) (store : Option TenantContext) :
    d.logout xTenantId tenantId store s.app.sessions =
      Auth.logout (d.jwtRequest xTenantId tenantId) d.accessToken store s.app.sessions := by
  unfold DeviceSession.logout
  exact Fallible.bind_of_ok (csrfGuard_of_held (h.held i d hd) "POST" false)

/-- An action that leaves the other devices alone keeps the sessions served. -/
theorem served_step (h : Served s) {a : DeviceAction ι} (ha : Undisturbed rt a s) :
    Served ((deviceMachine rt).step a s).2 := by
  cases a with
  | wait elapsed =>
      show Served (s.onSessions fun _ => s.app.sessions.advance elapsed)
      exact h.frame (seconds_le_advance _ _) (fun _ => rfl) fun _ hw _ => hw
  | land slot =>
      have hnow : (s.app.sessions.land slot).seconds = s.app.sessions.seconds := by
        unfold Sessions.seconds
        exact congrArg (· / 1000) (CacheState.land_now s.app.sessions.cache slot)
      show Served (s.onSessions fun _ => s.app.sessions.land slot)
      refine h.frame hnow.ge (fun userId => ?_)
        fun w hw _ => CacheState.land_pending_subset s.app.sessions.cache slot hw
      have hlanding : s.app.sessions.cache.landing slot (.csrfToken userId) = none := by
        unfold CacheState.landing
        rw [Option.bind_eq_none_iff]
        intro w hw
        rw [if_neg]
        rintro ⟨hkey, _⟩
        exact h.pending w (List.mem_of_getElem? hw) ⟨userId, hkey⟩
      have hland := CacheState.land_entry s.app.sessions.cache slot (.csrfToken userId)
      rw [hlanding] at hland
      exact hland
  | login i env dto tenantId store randomBytes =>
      show Served (s.loggedIn i (csrfTokenText randomBytes) (login rt env dto tenantId store
        (csrfTokenText randomBytes) s.app)).2
      rcases hrun : login rt env dto tenantId store (csrfTokenText randomBytes) s.app with
        ⟨e | ⟨profile, a, r⟩, app⟩
      · have hsame := login_error hrun
        exact h.of_sessions hsame
      · rcases login_account hrun with ⟨account, hlooked, haccepts, hid⟩
        rcases login_eq_ok hrun with ⟨_, rfl, rfl, rfl⟩
        have halone := ha account hlooked haccepts
        rw [← hid] at halone
        exact h.issued (d := ⟨s.app.sessions.accessTokenFor profile.payload,
          s.app.sessions.refreshTokenFor profile.payload, csrfTokenText randomBytes⟩) halone
          (leavesKeys_signed _ _) rfl rfl rfl s.app.world
  | refresh i randomBytes =>
      show Served (s.refreshed i (refresh ((s.session i).map (·.refreshToken))
        (csrfTokenText randomBytes) s.app.sessions)).2
      rcases refresh_cases (P := IsCsrfKey) not_csrfKey_marker
        ((s.session i).map (·.refreshToken)) (csrfTokenText randomBytes) s.app.sessions with
        ⟨e, sessions, hrun, hleaves⟩ | ⟨t, a, r, csrf, sessions, hcookie, hrun, hdone⟩
      · rw [hrun]
        exact h.leaves hleaves
      · rw [hrun]
        rcases Option.map_eq_some_iff.mp hcookie with ⟨d, hd, rfl⟩
        have halone := ha d hd hdone.verified hdone.unmarked
        rcases hdone with ⟨rfl, rfl, _, _, s₁, hleaves, ⟨hsub, rfl, rfl⟩ | ⟨hsub, rfl, rfl⟩⟩
        · exact h.issued_empty (d := ⟨s.app.sessions.accessTokenFor d.refreshToken.rotatedPayload,
            s.app.sessions.refreshTokenFor d.refreshToken.rotatedPayload, ""⟩) hsub hleaves rfl
        · exact h.issued (d := ⟨s.app.sessions.accessTokenFor d.refreshToken.rotatedPayload,
            s.app.sessions.refreshTokenFor d.refreshToken.rotatedPayload,
            csrfTokenText randomBytes⟩) halone hleaves rfl rfl rfl _
  | request i method isPublic =>
      simp only [deviceMachine]
      cases hd : s.session i with
      | none => exact h
      | some d =>
          simp only
          rw [csrfGuard_of_held (h.held i d hd)]
          exact h
  | logout i xTenantId tenantId store =>
      simp only [deviceMachine]
      cases hd : s.session i with
      | none => exact h
      | some d =>
          simp only
          rw [h.logout_eq hd]
          rcases logout_cases (P := IsCsrfKey) not_csrfKey_access not_csrfKey_revoked
            (d.jwtRequest xTenantId tenantId) d.accessToken store s.app.sessions with
            ⟨e, sessions, hrun, hleaves⟩ | ⟨s₁, hrun, hauth, hleaves⟩
          · rw [hrun]
            exact h.leaves hleaves
          · rw [hrun]
            exact h.ended (ha d hd hauth) hleaves _

/-- Where no login, refresh or logout of a user goes through while another device has a session
of the user that has not expired, every session passes the guard, after each of the actions. -/
theorem sessions_pass (rt : Runtime) (as : List (DeviceAction ι)) (s : Devices ι)
    (hnone : ∀ i, s.session i = none) (hpending : s.app.sessions.cache.pending = [])
    (hall : (deviceMachine rt).EachStep (Undisturbed rt) as s) :
    ∀ done, done <+: as → SessionsPass ((deviceMachine rt).exec done s) := by
  rintro done ⟨rest, rfl⟩
  have hstart : Served s := by
    refine ⟨fun w hw => ?_, fun i d hd => ?_, fun i d hd => ?_⟩
    · rw [hpending] at hw
      cases hw
    · rw [hnone] at hd
      cases hd
    · rw [hnone] at hd
      cases hd
  have hbefore : (deviceMachine rt).EachStep (Undisturbed rt) done s :=
    ((deviceMachine rt).eachStep_append done rest s |>.mp hall).1
  have hserved : Served ((deviceMachine rt).exec done s) :=
    (deviceMachine rt).exec_of_eachStep (I := Served) (fun _ _ _ h ha => served_step h ha) hstart
      hbefore
  exact hserved.pass

end Runs

/-! ## The devices of a cook -/

/-- Nobody has a session. -/
def loggedOutDevices : Devices Bool where
  app := cookState

def phoneBytes : Vector UInt8 32 :=
  Vector.replicate 32 0x01

def tabletBytes : Vector UInt8 32 :=
  Vector.replicate 32 0x02

/-- The cook logs in on one of two devices. -/
def cookLogsInOn (device : Bool) (randomBytes : Vector UInt8 32) : DeviceAction Bool :=
  .login device cookEnv { email := "carlo@example.com", password := "basilico" } none none
    randomBytes

/-- The cook changes the device after the session on the first one has expired. -/
def oneAfterTheOther : List (DeviceAction Bool) :=
  [cookLogsInOn false phoneBytes, .request false "PUT" false, .refresh false tabletBytes,
    .wait 900000, cookLogsInOn true phoneBytes, .request true "POST" false]

theorem alone_of_expired {s : Devices Bool} {i : Bool}
    (h : ∀ j, j ≠ i → (s.session j).all
      (fun d => decide (d.accessToken.exp ≤ s.app.sessions.seconds)) = true) (userId : Id) :
    Alone s i userId := by
  intro j hj d hd _
  have hexpired := h j hj
  rw [hd] at hexpired
  simpa using hexpired

/-- The sessions of the cook on one device after the other pass the guard. -/
theorem oneAfterTheOther_pass :
    SessionsPass ((deviceMachine plainRuntime).exec oneAfterTheOther loggedOutDevices) ∧
      ((((deviceMachine plainRuntime).exec oneAfterTheOther loggedOutDevices).session true).map
        (·.csrfToken)) = some (csrfTokenText phoneBytes) := by
  refine ⟨?_, by decide +kernel⟩
  refine sessions_pass plainRuntime oneAfterTheOther loggedOutDevices (fun _ => rfl) rfl ?_ _
    (List.prefix_refl _)
  exact ⟨fun _ _ _ => alone_of_expired (by decide +kernel) _, trivial,
    fun _ _ _ _ => alone_of_expired (by decide +kernel) _, trivial,
    fun _ _ _ => alone_of_expired (by decide +kernel) _, trivial, trivial⟩

/-- The cook logs in on both devices. -/
def onBothDevices : List (DeviceAction Bool) :=
  [cookLogsInOn false phoneBytes, cookLogsInOn true tabletBytes]

/-- The first device is refused after the login on the second one. -/
theorem second_device_locks_out :
    ¬SessionsPass ((deviceMachine plainRuntime).exec onBothDevices loggedOutDevices) := by
  intro hpass
  have hrefused : (((deviceMachine plainRuntime).exec onBothDevices loggedOutDevices).session
      false).any (fun d => !(csrfGuard (d.request "POST" false) ((deviceMachine plainRuntime).exec
        onBothDevices loggedOutDevices).app.sessions).1.isOk) = true := by
    decide +kernel
  rcases (Option.any_eq_true ..).mp hrefused with ⟨d, hd, hfails⟩
  rw [hpass false d hd] at hfails
  cases hfails

end Auth
end Eleva
