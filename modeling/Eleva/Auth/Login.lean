import Eleva.Foundation.Text
import Eleva.Auth.AuthController

/-!
# Auth - Accounts and login

The part of the authentication service that reads and writes accounts: the login, which
searches by email within a tenant or, without one, across all tenants, and the reset of a
password through a token in the cache.

Main results:

- Definitions {lit}`validateLogin`, {lit}`login`, {lit}`initiatePasswordReset` and
  {lit}`resetPassword`.
- Theorem {lit}`validateLogin_eq_ok`: the account that a login authenticates.
- Theorem {lit}`validateLogin_of_found`: the account that is found is authenticated with its
  password.
- Theorem {lit}`resetPassword_rejects`: no token is accepted by a reset.
-/

namespace Eleva
namespace Auth

open Foundation Database

/-! ## The surroundings -/

/-- What the runtime and its libraries compute: lower case, salted password hashes and their
check, and the check of one-time codes. -/
structure Runtime where
  toLowerCase : String → String
  hashPassword : String → String → String
  comparePassword : String → String → Bool
  verifyTotp : Option String → String → Timestamp → Bool

/-- {lit}`email.toLowerCase().trim()`. -/
def Runtime.normalizedEmail (rt : Runtime) (email : String) : String :=
  trim (rt.toLowerCase email)

/-- A runtime for examples: the hash of a password shows it behind the salt. -/
def plainRuntime : Runtime where
  toLowerCase := asciiLowerCase
  hashPassword password salt := salt ++ "$" ++ password
  comparePassword password hash := afterFirst '$' hash == password
  verifyTotp _ _ _ := false

/-- The database and the session store. -/
structure AppState where
  world : World
  sessions : Sessions

/-- A method that works on the database and on the session store. -/
abbrev AppService (α : Type) := Fallible AppState AppError α

/-- Run a database method. -/
def inDatabase {α : Type} (x : Service α) : AppService α := fun s =>
  ((x s.world).1, { s with world := (x s.world).2 })

/-- Run a method of the session store. -/
def inSessions {α : Type} (x : SessionService α) : AppService α := fun s =>
  ((x s.sessions).1, { s with sessions := (x s.sessions).2 })

theorem inDatabase_eq_ok {α : Type} {x : Service α} {a : α} {s s' : AppState} :
    inDatabase x s = (.ok a, s') ↔
      x s.world = (.ok a, s'.world) ∧ s'.sessions = s.sessions := by
  unfold inDatabase
  constructor
  · intro h
    simp only [Prod.mk.injEq] at h
    rw [← h.2]
    exact ⟨Prod.ext h.1 rfl, rfl⟩
  · rintro ⟨hx, hsessions⟩
    rw [hx, ← hsessions]

theorem inSessions_eq_ok {α : Type} {x : SessionService α} {a : α} {s s' : AppState} :
    inSessions x s = (.ok a, s') ↔
      x s.sessions = (.ok a, s'.sessions) ∧ s'.world = s.world := by
  unfold inSessions
  constructor
  · intro h
    simp only [Prod.mk.injEq] at h
    rw [← h.2]
    exact ⟨Prod.ext h.1 rfl, rfl⟩
  · rintro ⟨hx, hworld⟩
    rw [hx, ← hworld]

/-! ## Login -/

/-- What a login draws from its surroundings. -/
structure LoginEnv extends Env where
  databaseUrl : Bool := true

/-- The roles of an account, in the order of their assignment. -/
def rolesOf (db : Db) (user : User) : List Role :=
  user.roleIds.filterMap fun id => db.roles.find? fun role => role.id == id

/-- The permissions of a role. -/
def permissionsOf (db : Db) (role : Role) : List Permission :=
  role.permissionIds.filterMap fun id => db.permissions.find? fun p => p.id == id

/-- An account with its roles, each a name with permissions. -/
structure LoginAccount where
  user : User
  roles : List (String × List Permission)

/-- The session of an account. -/
structure LoginProfile where
  id : Id
  email : String
  tenantId : Option Id
  firstName : String
  lastName : String
  roles : List String
  permissions : List String
  mfaEnabled : Bool
deriving DecidableEq, Repr

/-- The accounts that a login searches. -/
def loginWhere (email : String) (tenantId : Option Id) : Where User where
  tenantId := if truthy tenantId then .filter (fun t => t == tenantId) else .absent
  rest u := u.email == email

/-- The first account with an email; an error of the lookup is logged. -/
def findAccount (env : LoginEnv) (email : String) (tenantId : Option Id) :
    Service (Option LoginAccount) := fun w =>
  match users.run (prisma.user.findFirst env.toEnv (loginWhere email tenantId)) w with
  | (.ok (some user), w) =>
      (.ok (some { user, roles := (rolesOf w.db user).map fun role =>
        (role.name, permissionsOf w.db role) }), w)
  | (_, w) => (.ok none, w)

/-- The account of an environment without a database. -/
def mockAccount (email : String) (tenantId : Option Id) : LoginAccount where
  user := { id := "u_mock_123"
            email := email
            tenantId := if truthy tenantId then tenantId
              else some "7a18f-39b0-4050-bf83-097a18fcd34b"
            firstName := "Mock"
            lastName := "User"
            passwordHash := "mock-hash" }
  roles := [("RESTAURANT_OWNER", [{ id := "", action := "create", resource := "Product" },
    { id := "", action := "read", resource := "Order" }])]

/-- The role names of a session. -/
def LoginAccount.roleNames (account : LoginAccount) : List String :=
  let names := (account.roles.map (·.1)).filter (· != "")
  if names = [] then ["RESTAURANT_OWNER"] else names

/-- The permissions of a session. -/
def LoginAccount.permissionNames (rt : Runtime) (account : LoginAccount) : List String :=
  let names := (account.roles.flatMap (·.2)).filterMap fun p =>
    if p.action != "" && p.resource != "" then some (rt.toLowerCase p.resource ++ ":" ++ p.action)
    else none
  if names = [] then ["menu:create", "menu:update", "orders:read"] else names

/-- The session of an account. -/
def LoginAccount.profile (rt : Runtime) (account : LoginAccount) : LoginProfile where
  id := account.user.id
  email := account.user.email
  tenantId := account.user.tenantId
  firstName := account.user.firstName
  lastName := account.user.lastName
  roles := account.roleNames
  permissions := account.permissionNames rt
  mfaEnabled := account.user.mfaEnabled

/-- The second factor of an account. -/
def checkMfa (rt : Runtime) (env : LoginEnv) (user : User) (mfaToken : Option String) :
    Service Unit :=
  if user.mfaEnabled then do
    Fallible.throwIf (!truthy mfaToken) (.unauthorized "MFA token required")
    Fallible.throwIf (!rt.verifyTotp user.mfaSecret (mfaToken.getD "") env.now)
      (.unauthorized "Invalid MFA token")
  else pure ()

/-- The account of a login, or the mock account without a database. -/
def accountOrMock (env : LoginEnv) (email : String) (tenantId : Option Id)
    (found : Option LoginAccount) : Service LoginAccount :=
  match found with
  | some account => pure account
  | none =>
      if env.databaseUrl then Fallible.throw (.unauthorized "Invalid credentials")
      else pure (mockAccount email tenantId)

def validateLogin (rt : Runtime) (env : LoginEnv) (email password : String)
    (mfaToken : Option String) (tenantId : Option Id) : Service LoginProfile := do
  let found ← findAccount env (rt.normalizedEmail email) tenantId
  let account ← accountOrMock env (rt.normalizedEmail email) tenantId found
  Fallible.throwIf (!account.user.isActive) (.unauthorized "Account is deactivated")
  Fallible.throwIf (!rt.comparePassword password account.user.passwordHash)
    (.unauthorized "Invalid credentials")
  checkMfa rt env account.user mfaToken
  pure (account.profile rt)

/-- The body of a login request. -/
structure LoginDto where
  email : String
  password : String
  mfaToken : Option String := none
deriving DecidableEq, Repr

/-- The claims of a session. -/
def LoginProfile.payload (profile : LoginProfile) : TokenPayload where
  sub := profile.id
  email := profile.email
  tenantId := profile.tenantId
  roles := profile.roles
  permissions := profile.permissions

/-- The context of a login: the one that the middleware opened, or a platform owner's. -/
def loginContext (tenantId : Option Id) (store : Option TenantContext) : TenantContext :=
  store.getD { tenantId := tenantId.filter (· != ""), isPlatformOwner := true }

/-- Sign a pair for a session and store its CSRF token. -/
def openSession (profile : LoginProfile) (csrfToken : String) :
    SessionService (AccessToken × RefreshToken) := do
  let pair ← generateTokens profile.payload
  Fallible.modify (csrfGenerateToken profile.id csrfToken)
  pure pair

/-- The login route; {lit}`tenantId` and {lit}`store` are what the middleware left, and
nothing where it does not cover the route. -/
def login (rt : Runtime) (env : LoginEnv) (dto : LoginDto) (tenantId : Option Id)
    (store : Option TenantContext) (csrfToken : String) :
    AppService (LoginProfile × AccessToken × RefreshToken) := do
  Fallible.throwIf (dto.email == "" || dto.password == "")
    (.badRequest "Email and password are required.")
  let profile ← inDatabase (validateLogin rt { env with context := loginContext tenantId store }
    dto.email dto.password dto.mfaToken tenantId)
  let (accessToken, refreshToken) ← inSessions (openSession profile csrfToken)
  pure (profile, accessToken, refreshToken)

/-! ## Password reset -/

/-- A text as the runtime quotes it, up to control characters. -/
def jsonQuote (s : String) : String :=
  String.ofList ('"' :: s.toList.flatMap (fun c =>
    if c = '"' ∨ c = '\\' then ['\\', c] else [c]) ++ ['"'])

/-- The record of a reset, as a text. -/
def resetRecord (user : User) (token : String) : String :=
  "\x7b\"userId\":" ++ jsonQuote user.id ++ ",\"email\":" ++ jsonQuote user.email ++
    ",\"token\":" ++ jsonQuote token ++ "\x7d"

/-- The user that a cached record names.  The service caches its record as a text, and a text
has no fields. -/
def recordUserId : SessionValue → Option Id
  | .flag _ => none
  | .number _ => none
  | .text _ => none
  | .null => none

/-- Keep a record under a reset token. -/
def keepReset (token record : String) (s : Sessions) : Sessions :=
  s.set (.passwordReset token) (.text record) 900

/-- Issue a reset token; an error of the lookup is logged, and the email is sent apart. -/
def initiatePasswordReset (rt : Runtime) (env : Env) (email token : String) :
    AppService Unit := fun s =>
  match (users.run (prisma.user.findFirst env (loginWhere (rt.normalizedEmail email) none))
      s.world).1 with
  | .ok (some user) =>
      (.ok (), { s with sessions := keepReset token (resetRecord user token) s.sessions })
  | _ => (.ok (), { s with sessions := keepReset token "\x7b\"issued\":true\x7d" s.sessions })

/-- The {lit}`data` object of a new password. -/
def passwordPayload (passwordHash : String) : Payload User where
  assign u := { u with passwordHash := passwordHash }

/-- Store a new password. -/
def storePassword (rt : Runtime) (env : Env) (userId : Id) (newPassword salt : String) :
    Service Unit := do
  let _ ← users.run (prisma.user.update { env with context := { isPlatformOwner := true } }
    { id := some userId } (passwordPayload (rt.hashPassword newPassword salt)))
  pure ()

/-- Read the record of a reset token. -/
def resetRecordRead (token : String) : SessionService SessionValue := fun s =>
  (.ok (s.get (.passwordReset token) .null 900).1, (s.get (.passwordReset token) .null 900).2)

def resetPassword (rt : Runtime) (env : Env) (token newPassword salt : String) :
    AppService Unit := do
  Fallible.throwIf (token == "" || newPassword == "")
    (.badRequest "Token and new password are required.")
  let cached ← inSessions (resetRecordRead token)
  match recordUserId cached with
  | none => Fallible.throw (.unauthorized "Invalid or expired password reset token.")
  | some userId =>
      inDatabase (storePassword rt env userId newPassword salt)
      inSessions (revokeAllUserTokens userId)

/-! ## What a login does -/

section Login

variable {rt : Runtime} {env : LoginEnv} {email password : String} {mfaToken : Option String}
  {tenantId : Option Id} {w w' : World}

/-- The search of a login leaves the database. -/
theorem findAccount_state (env : LoginEnv) (email : String) (tenantId : Option Id) (w : World) :
    ∃ found, findAccount env email tenantId w = (.ok found, w) := by
  have hstate : (users.run (prisma.user.findFirst env.toEnv (loginWhere email tenantId)) w).2 =
      w := TableOf.run_findFirst_state _ w
  unfold findAccount
  rcases hrun : users.run (prisma.user.findFirst env.toEnv (loginWhere email tenantId)) w with
    ⟨_ | _ | user, w₁⟩
  all_goals
    rw [hrun] at hstate
    cases hstate
    exact ⟨_, rfl⟩

/-- A check of the second factor that passes leaves the database. -/
theorem checkMfa_eq_ok {user : User} {u : Unit}
    (h : checkMfa rt env user mfaToken w = (.ok u, w')) : w' = w := by
  unfold checkMfa at h
  by_cases hmfa : user.mfaEnabled = true
  · rw [if_pos hmfa] at h
    rcases Fallible.bind_eq_ok.mp h with ⟨_, w₁, htoken, hcode⟩
    rw [(Fallible.throwIf_eq_ok.mp hcode).2, (Fallible.throwIf_eq_ok.mp htoken).2]
  · rw [if_neg hmfa] at h
    cases h
    rfl

/-- A login that succeeds authenticates the account that was found, or the mock account, with
its password, and leaves the database. -/
theorem validateLogin_eq_ok {profile : LoginProfile}
    (h : validateLogin rt env email password mfaToken tenantId w = (.ok profile, w')) :
    ∃ account : LoginAccount, profile = account.profile rt ∧ w' = w ∧
      (findAccount env (rt.normalizedEmail email) tenantId w = (.ok (some account), w) ∨
        env.databaseUrl = false ∧
          account = mockAccount (rt.normalizedEmail email) tenantId) ∧
      account.user.isActive = true ∧
      rt.comparePassword password account.user.passwordHash = true := by
  rcases findAccount_state env (rt.normalizedEmail email) tenantId w with ⟨found, hfound⟩
  unfold validateLogin at h
  rw [Fallible.bind_of_ok hfound] at h
  rcases Fallible.bind_eq_ok.mp h with ⟨account, w₁, haccount, hchecks⟩
  rcases Fallible.throwIf_bind_eq_ok.mp hchecks with ⟨hactive, hchecks⟩
  rcases Fallible.throwIf_bind_eq_ok.mp hchecks with ⟨hpassword, hchecks⟩
  rcases Fallible.bind_eq_ok.mp hchecks with ⟨_, w₂, hmfa, hend⟩
  have hsame := checkMfa_eq_ok hmfa
  cases hend
  have hwhich : w₁ = w ∧ (found = some account ∨ env.databaseUrl = false ∧
      account = mockAccount (rt.normalizedEmail email) tenantId) := by
    unfold accountOrMock at haccount
    cases found with
    | some account' =>
        cases haccount
        exact ⟨rfl, Or.inl rfl⟩
    | none =>
        simp only at haccount
        cases hurl : env.databaseUrl with
        | true =>
            rw [hurl] at haccount
            cases haccount
        | false =>
            rw [hurl] at haccount
            cases haccount
            exact ⟨rfl, Or.inr ⟨rfl, rfl⟩⟩
  refine ⟨account, rfl, hsame.trans hwhich.1, ?_, by simpa using hactive, by simpa using hpassword⟩
  rcases hwhich.2 with rfl | hmock
  · exact Or.inl hfound
  · exact Or.inr hmock

/-- An account without a second factor that is found is authenticated with its password. -/
theorem validateLogin_of_found {account : LoginAccount}
    (hfound : findAccount env (rt.normalizedEmail email) tenantId w = (.ok (some account), w))
    (hactive : account.user.isActive = true)
    (hpassword : rt.comparePassword password account.user.passwordHash = true)
    (hmfa : account.user.mfaEnabled = false) :
    validateLogin rt env email password mfaToken tenantId w = (.ok (account.profile rt), w) := by
  have hchecked : checkMfa rt env account.user mfaToken w = (.ok (), w) := by
    unfold checkMfa
    rw [hmfa]
    rfl
  have haccount : accountOrMock env (rt.normalizedEmail email) tenantId (some account) w =
      (.ok account, w) := rfl
  unfold validateLogin
  rw [Fallible.bind_of_ok hfound, Fallible.bind_of_ok haccount]
  simp only [hactive, hpassword, Bool.not_true]
  rw [Fallible.throwIf_false_bind, Fallible.throwIf_false_bind, Fallible.bind_of_ok hchecked]
  rfl

/-- A login that succeeds authenticates the account that is found. -/
theorem validateLogin_found {profile : LoginProfile} {account : LoginAccount}
    (hfound : findAccount env (rt.normalizedEmail email) tenantId w = (.ok (some account), w))
    (h : validateLogin rt env email password mfaToken tenantId w = (.ok profile, w')) :
    profile = account.profile rt := by
  have haccount : accountOrMock env (rt.normalizedEmail email) tenantId (some account) w =
      (.ok account, w) := rfl
  unfold validateLogin at h
  rw [Fallible.bind_of_ok hfound, Fallible.bind_of_ok haccount] at h
  rcases Fallible.throwIf_bind_eq_ok.mp h with ⟨_, hchecks⟩
  rcases Fallible.throwIf_bind_eq_ok.mp hchecks with ⟨_, hchecks⟩
  rcases Fallible.bind_eq_ok.mp hchecks with ⟨_, w₁, _, hend⟩
  cases hend
  rfl

/-- A login that returns has authenticated a profile and signed a pair for it. -/
theorem login_eq_ok {dto : LoginDto} {store : Option TenantContext} {csrfToken : String}
    {profile : LoginProfile} {a : AccessToken} {r : RefreshToken} {s s' : AppState}
    (h : login rt env dto tenantId store csrfToken s = (.ok (profile, a, r), s')) :
    validateLogin rt { env with context := loginContext tenantId store } dto.email dto.password
        dto.mfaToken tenantId s.world = (.ok profile, s.world) ∧
      a = s.sessions.accessTokenFor profile.payload ∧
      r = s.sessions.refreshTokenFor profile.payload ∧
      s' = { s with sessions :=
        csrfGenerateToken profile.id csrfToken (s.sessions.signed profile.payload) } := by
  unfold login at h
  rcases Fallible.throwIf_bind_eq_ok.mp h with ⟨_, hrest⟩
  rcases Fallible.bind_eq_ok.mp hrest with ⟨profile', s₁, hvalid, hrest⟩
  rcases inDatabase_eq_ok.mp hvalid with ⟨hvalid, hsessions⟩
  rcases Fallible.bind_eq_ok.mp hrest with ⟨⟨a', r'⟩, s₂, hopen, hend⟩
  rcases inSessions_eq_ok.mp hopen with ⟨hopen, hworld⟩
  rcases validateLogin_eq_ok hvalid with ⟨_, _, hsame, _⟩
  rw [hsessions] at hopen
  rcases s₂ with ⟨world, sessions⟩
  cases hend
  cases hopen
  rw [hsame] at hvalid
  refine ⟨hvalid, rfl, rfl, ?_⟩
  have hworld' : world = s.world := hworld.trans hsame
  rw [hworld']
  rfl

/-- A login that fails leaves the session store. -/
theorem login_error {dto : LoginDto} {store : Option TenantContext} {csrfToken : String}
    {e : AppError} {s s' : AppState}
    (h : login rt env dto tenantId store csrfToken s = (.error e, s')) :
    s'.sessions = s.sessions := by
  unfold login at h
  rcases Fallible.bind_eq_error.mp h with hbody | ⟨_, s₁, hbody, hrest⟩
  · rw [Fallible.throwIf_error hbody]
  · rw [(Fallible.throwIf_eq_ok.mp hbody).2] at hrest
    rcases Fallible.bind_eq_error.mp hrest with hvalid | ⟨profile, s₂, hvalid, hrest⟩
    · exact (congrArg (fun r => r.2.sessions) hvalid).symm
    · rcases Fallible.bind_eq_error.mp hrest with hopen | ⟨pair, s₃, hopen, hend⟩
      · cases hopen
      · cases hend

end Login

/-- The cache holds the record of a reset as a text, so that no token is accepted. -/
theorem resetPassword_rejects (rt : Runtime) (env : Env) (token newPassword salt : String)
    (s : AppState) :
    ∃ e, resetPassword rt env token newPassword salt s = (.error e, s) ∨
      resetPassword rt env token newPassword salt s =
        (.error e, { s with sessions := (s.sessions.get (.passwordReset token) .null 900).2 }) := by
  unfold resetPassword
  cases hbody : token == "" || newPassword == "" with
  | true => exact ⟨.badRequest "Token and new password are required.", Or.inl rfl⟩
  | false =>
      refine ⟨.unauthorized "Invalid or expired password reset token.", Or.inr ?_⟩
      have hnone : ∀ value, recordUserId value = none := by
        intro value
        cases value <;> rfl
      rw [Fallible.throwIf_false_bind]
      simp [Fallible.bind_apply, inSessions, resetRecordRead, hnone]

end Auth
end Eleva
