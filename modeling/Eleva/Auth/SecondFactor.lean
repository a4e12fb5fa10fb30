import Eleva.Auth.Login
import Eleva.Database.SoftDelete
import Eleva.Foundation.Machine

/-!
# Auth - The second factor

Setting up the second factor of an account: a secret is generated and stored with the
account, and a code that is valid for the stored secret activates the check at login.
One column holds the secret that is being set up and the secret that is in use.

The state remembers, beside the database and the cache, the secret of each account at
the last set-up that was confirmed.

Main results:

- Definitions {lit}`generateMfaSecret` and {lit}`verifyMfaSetup`.
- Theorem {lit}`update_user_rows`: in any context, an update by id rewrites rows with
  that id or none.
- Theorem {lit}`second_factor_confirmed`: as long as no secret is generated for an account
  whose factor is active, logins accept codes for the confirmed secret only.
- Theorem {lit}`unconfirmed_secret_logs_in`: a secret that is generated again is in force
  at once.
-/

namespace Eleva
namespace Auth

open Foundation Database Cache

/-! ## The methods of the service -/

/-- The cache keys of the set-up. -/
inductive MfaKey where
  /-- {lit}`mfa:secret:` and a user id. -/
  | secret (userId : Id)
  /-- {lit}`mfa:enabled:` and a user id. -/
  | enabled (userId : Id)
  /-- {lit}`mfa:backup:` and a user id. -/
  | backup (userId : Id)
deriving DecidableEq, Repr

/-- The values under these keys. -/
inductive MfaValue where
  | secret (text : String)
  | enabled
  | backup (codes : List String)
  | null
deriving DecidableEq, Repr

/-- The database, the cache, and the secret each account had stored when its last set-up
was confirmed. -/
structure MfaState where
  world : World
  cache : CacheState MfaKey MfaValue
  confirmed : Id → Option String

/-- A method that works on the database and on the cache. -/
abbrev MfaService (α : Type) := Fallible MfaState AppError α

/-- A secret as the libraries draw it, with its code as a picture. -/
structure MfaSecret where
  secret : String
  qrCodeDataUrl : String
deriving DecidableEq, Repr

/-- The {lit}`data` object of a new secret. -/
def mfaSecretPayload (secret : String) : Payload User where
  assign u := { u with mfaSecret := some secret }

/-- The {lit}`data` object of the activation. -/
def mfaEnabledPayload : Payload User where
  assign u := { u with mfaEnabled := true }

/-- The method draws a secret and stores it; a write that fails leaves it in the cache.  Both
branches on {lit}`tenantId` do the same. -/
def generateMfaSecret (env : Env) (userId : Id) (drawn : MfaSecret) : MfaService MfaSecret :=
  fun s =>
    match users.run (prisma.user.update env { id := some userId }
        (mfaSecretPayload drawn.secret)) s.world with
    | (.ok _, w) => (.ok drawn, { s with world := w })
    | (.error _, w) =>
        (.ok drawn, { s with
          world := w
          cache := s.cache.set (.secret userId) (.secret drawn.secret) 600 })

/-- The lookup of the account whose set-up is confirmed. -/
def findMfaUser (env : Env) (userId : Id) (tenantId : Option Id) : Service (Option User) :=
  if truthy tenantId then
    users.run (prisma.user.findFirst env
      { id := some userId, tenantId := .filter fun t => t == tenantId })
  else
    users.run (prisma.user.findUnique env { id := some userId })

/-- The text of a cached secret. -/
def MfaValue.secretText : MfaValue → Option String
  | .secret text => some text
  | _ => none

/-- The secret of the set-up, from the database or, when the lookup fails, from the cache. -/
def setupSecret (env : Env) (userId : Id) (tenantId : Option Id) :
    MfaService (Option String) := fun s =>
  match findMfaUser env userId tenantId s.world with
  | (.ok user, w) => (.ok ((user.bind (·.mfaSecret)).filter (· != "")), { s with world := w })
  | (.error _, w) =>
      let cached := s.cache.get (.secret userId) .null defaultTtl
      (.ok cached.1.secretText, { s with world := w, cache := cached.2 })

/-- What a confirmed set-up answers. -/
structure MfaSetup where
  mfaEnabled : Bool
  backupCodes : List String
deriving DecidableEq, Repr

/-- Activate the check at login; a write that fails leaves a mark in the cache. -/
def activateMfa (env : Env) (userId : Id) : MfaService Unit := fun s =>
  match users.run (prisma.user.update env { id := some userId } mfaEnabledPayload) s.world with
  | (.ok _, w) => (.ok (), { s with world := w })
  | (.error _, w) =>
      (.ok (), { s with world := w, cache := s.cache.set (.enabled userId) .enabled 86400 })

def verifyMfaSetup (rt : Runtime) (env : Env) (userId : Id) (tenantId : Option Id)
    (token : String) (backupCodes : List String) : MfaService MfaSetup := do
  let secret ← setupSecret env userId tenantId
  Fallible.throwIf (!truthy secret)
    (.notFound "MFA secret not found. Please enable MFA first.")
  Fallible.throwIf (!rt.verifyTotp secret token env.now) (.unauthorized "Invalid MFA token")
  activateMfa env userId
  Fallible.modify fun s =>
    { s with cache := s.cache.set (.backup userId) (.backup backupCodes) 86400 }
  pure { mfaEnabled := true, backupCodes }

/-! ## Runs -/

/-- The secret that is stored with an account. -/
def storedSecret (w : World) (userId : Id) : Option String :=
  (w.db.users.find? fun u => u.id == userId).bind (·.mfaSecret)

/-- Whether the check at login is stored as active. -/
def mfaStored (w : World) (userId : Id) : Bool :=
  (w.db.users.find? fun u => u.id == userId).any (·.mfaEnabled)

/-- A call, or time passing, or a value that was sent back to the cache landing there. -/
inductive MfaAction where
  | generate (env : Env) (userId : Id) (drawn : MfaSecret)
  | verify (env : Env) (userId : Id) (tenantId : Option Id) (token : String)
      (backupCodes : List String)
  | login (env : LoginEnv) (email password : String) (mfaToken : Option String)
      (tenantId : Option Id)
  | wait (elapsed : ℕ)
  | land (slot : ℕ)

/-- The effect of an action; a set-up that is confirmed is remembered. -/
def mfaStep (rt : Runtime) : MfaAction → MfaState → MfaState
  | .generate env userId drawn, s => (generateMfaSecret env userId drawn s).2
  | .verify env userId tenantId token backupCodes, s =>
      match verifyMfaSetup rt env userId tenantId token backupCodes s with
      | (.ok _, s') =>
          { s' with confirmed := fun u =>
              if u = userId then storedSecret s.world userId else s'.confirmed u }
      | (.error _, s') => s'
  | .login env email password mfaToken tenantId, s =>
      { s with world := (validateLogin rt env email password mfaToken tenantId s.world).2 }
  | .wait elapsed, s => { s with cache := s.cache.advance elapsed }
  | .land slot, s => { s with cache := s.cache.land slot }

/-- The service as a machine. -/
def mfaMachine (rt : Runtime) : Machine MfaAction MfaState Unit :=
  ⟨fun a s => ((), mfaStep rt a s)⟩

/-- The state a run starts from: what is stored counts as confirmed. -/
def MfaState.start (w : World) (cache : CacheState MfaKey MfaValue) : MfaState where
  world := w
  cache := cache
  confirmed := storedSecret w

/-- No secret is generated for an account whose check at login is active. -/
def SparesActive : MfaAction → MfaState → Prop
  | .generate _ userId _, s => mfaStored s.world userId = false
  | _, _ => True

/-- Logins into an account whose check is active show a code for the confirmed secret. -/
def AcceptsConfirmed (rt : Runtime) (s : MfaState) : Prop :=
  ∀ (env : LoginEnv) email password mfaToken tenantId profile w', env.databaseUrl = true →
    validateLogin rt env email password mfaToken tenantId s.world = (.ok profile, w') →
    mfaStored s.world profile.id = true →
      ∃ code, mfaToken = some code ∧ rt.verifyTotp (s.confirmed profile.id) code env.now = true

/-! ## What the methods do to the accounts -/

/-- Rewrite the accounts that {lit}`p` selects. -/
def rewriteUsers (p : User → Bool) (f : User → User) (w : World) : World :=
  { w with db := users.set (rewriteWhere p f (users.get w.db)) w.db }

@[simp]
theorem users_rewriteUsers (p : User → Bool) (f : User → User) (w : World) :
    (rewriteUsers p f w).db.users = rewriteWhere p f w.db.users :=
  rfl

/-- Whatever the context, an update of the account with an id rewrites accounts with that id
or none. -/
theorem update_user_rows (env : Env) (id : Id) {d : Payload User} (hnested : d.nested = {})
    (w : World) : ∃ p : User → Bool, (∀ u, p u = true → u.id = id) ∧
      (users.run (prisma.user.update env { id := some id } d) w).2 = rewriteUsers p d.apply w := by
  rcases hrun : users.run (prisma.user.update env { id := some id } d) w with ⟨e | a, w'⟩
  · have hsame : w' = w := TableOf.run_error (fun e s hfail => by
      rw [Delegate.update_atomic _ _ _ _ _ hfail]) hrun
    refine ⟨fun _ => false, fun _ hp => absurd hp Bool.false_ne_true, ?_⟩
    rw [rewriteUsers, rewriteWhere_of_none fun _ _ => rfl, users.set_get, hsame]
  · rcases TableOf.sees_of_run_ok (by decide) hrun with ⟨S, hctx⟩
    have hrewrites := TableOf.run_update_rewrites hctx (by decide)
      (by simp [Args.unknownColumn]) hnested hrun
    refine ⟨_, fun u hu => ?_, hrewrites.world⟩
    rw [TableOf.admits_ownRow fun _ => rfl] at hu
    exact TableOf.id_of_ownRow hu

/-- The accounts and the secrets of the last confirmed set-ups: where the check is active,
the stored secret is the confirmed one. -/
structure Confirmed (s : MfaState) : Prop where
  ids : (s.world.db.users.map (·.id)).Nodup
  bound : ∀ u ∈ s.world.db.users, u.mfaEnabled = true → u.mfaSecret = s.confirmed u.id

/-- The account with an id is the only one. -/
theorem find_account {w : World} (hids : (w.db.users.map (·.id)).Nodup) {u : User}
    (hu : u ∈ w.db.users) : (w.db.users.find? fun r => r.id == u.id) = some u := by
  cases hfind : w.db.users.find? fun r => r.id == u.id with
  | none => exact absurd (List.find?_eq_none.mp hfind u hu) (by simp)
  | some r =>
      have hid : r.id = u.id := by simpa using List.find?_some hfind
      rw [List.inj_on_of_nodup_map hids (List.mem_of_find?_eq_some hfind) hu hid]

/-- The lookup of a set-up leaves the database. -/
theorem findMfaUser_state (env : Env) (userId : Id) (tenantId : Option Id) (w : World) :
    (findMfaUser env userId tenantId w).2 = w := by
  unfold findMfaUser
  split
  · exact TableOf.run_findFirst_state _ w
  · exact TableOf.run_read_state (by decide) _ _ w

/-- The secret of a set-up is found without a write to the database. -/
theorem setupSecret_run (env : Env) (userId : Id) (tenantId : Option Id) (s : MfaState) :
    ∃ secret cache, setupSecret env userId tenantId s =
      (.ok secret, { s with cache := cache }) := by
  have hstate := findMfaUser_state env userId tenantId s.world
  unfold setupSecret
  rcases hrun : findMfaUser env userId tenantId s.world with ⟨e | user, w⟩
  · rw [hrun] at hstate
    cases hstate
    exact ⟨_, _, rfl⟩
  · rw [hrun] at hstate
    cases hstate
    exact ⟨_, s.cache, rfl⟩

/-- Activating the check rewrites accounts with the id or none. -/
theorem activateMfa_run (env : Env) (userId : Id) (s : MfaState) :
    ∃ (p : User → Bool) (cache : _), (∀ u, p u = true → u.id = userId) ∧
      activateMfa env userId s =
        (.ok (), { s with
          world := rewriteUsers p mfaEnabledPayload.apply s.world
          cache := cache }) := by
  rcases update_user_rows env userId (d := mfaEnabledPayload) rfl s.world with ⟨p, hp, hw⟩
  unfold activateMfa
  rcases hrun : users.run (prisma.user.update env { id := some userId } mfaEnabledPayload)
    s.world with ⟨e | a, w⟩
  · rw [hrun] at hw
    cases hw
    exact ⟨p, _, hp, rfl⟩
  · rw [hrun] at hw
    cases hw
    exact ⟨p, s.cache, hp, rfl⟩

/-- A set-up that is refused leaves the database, one that is confirmed activates the check
of accounts with the id or none. -/
theorem verifyMfaSetup_run (rt : Runtime) (env : Env) (userId : Id) (tenantId : Option Id)
    (token : String) (backupCodes : List String) (s : MfaState) :
    (∃ e cache, verifyMfaSetup rt env userId tenantId token backupCodes s =
      (.error e, { s with cache := cache })) ∨
    ∃ (p : User → Bool) (a : MfaSetup) (cache : _), (∀ u, p u = true → u.id = userId) ∧
      verifyMfaSetup rt env userId tenantId token backupCodes s =
        (.ok a, { s with
          world := rewriteUsers p mfaEnabledPayload.apply s.world
          cache := cache }) := by
  rcases setupSecret_run env userId tenantId s with ⟨secret, cache, hsecret⟩
  unfold verifyMfaSetup
  rw [Fallible.bind_of_ok hsecret]
  cases hmissing : !truthy secret with
  | true => exact Or.inl ⟨_, cache, rfl⟩
  | false =>
      rw [Fallible.throwIf_false_bind]
      cases hinvalid : !rt.verifyTotp secret token env.now with
      | true => exact Or.inl ⟨_, cache, rfl⟩
      | false =>
          rcases activateMfa_run env userId { s with cache := cache } with ⟨p, cache', hp, hrun⟩
          rw [Fallible.throwIf_false_bind, Fallible.bind_of_ok hrun]
          exact Or.inr ⟨p, _, _, hp, rfl⟩

/-! ## Logins -/

/-- A login leaves the database. -/
theorem validateLogin_readsOnly (rt : Runtime) (env : LoginEnv) (email password : String)
    (mfaToken : Option String) (tenantId : Option Id) :
    Fallible.ReadsOnly (validateLogin rt env email password mfaToken tenantId) := by
  have hfind : Fallible.ReadsOnly (findAccount env (rt.normalizedEmail email) tenantId) := by
    intro w
    rcases findAccount_state env (rt.normalizedEmail email) tenantId w with ⟨found, hfound⟩
    rw [hfound]
  have haccount : ∀ found, Fallible.ReadsOnly
      (accountOrMock env (rt.normalizedEmail email) tenantId found) := by
    intro found
    unfold accountOrMock
    split
    · exact .pure _
    · split
      · exact .throw _
      · exact .pure _
  have hmfa : ∀ user, Fallible.ReadsOnly (checkMfa rt env user mfaToken) := by
    intro user
    unfold checkMfa
    split
    · exact .bind (.throwIf _ _) fun _ => .throwIf _ _
    · exact .pure _
  exact .bind hfind fun found => .bind (haccount found) fun account => .bind (.throwIf _ _)
    fun _ => .bind (.throwIf _ _) fun _ => .bind (hmfa account.user) fun _ => .pure _

/-- The account that a login finds is stored. -/
theorem mem_users_of_findAccount {env : LoginEnv} {email : String} {tenantId : Option Id}
    {account : LoginAccount} {w w' : World}
    (h : findAccount env email tenantId w = (.ok (some account), w')) :
    account.user ∈ w.db.users := by
  unfold findAccount at h
  split at h
  · next user w₁ hrun =>
      rcases TableOf.sees_of_run_ok (by decide) hrun with ⟨S, hctx⟩
      rw [TableOf.run_client_findFirst hctx (by decide) (by
        unfold loginWhere
        split <;> rfl)] at hrun
      cases h
      simp only [Prod.mk.injEq, Except.ok.injEq] at hrun
      exact List.mem_of_find?_eq_some hrun.1
  · cases h

/-- A check of the second factor that passes has seen a valid code. -/
theorem checkMfa_code {rt : Runtime} {env : LoginEnv} {user : User} {mfaToken : Option String}
    {u : Unit} {w w' : World} (hactive : user.mfaEnabled = true)
    (h : checkMfa rt env user mfaToken w = (.ok u, w')) :
    ∃ code, mfaToken = some code ∧ rt.verifyTotp user.mfaSecret code env.now = true := by
  unfold checkMfa at h
  rw [if_pos hactive] at h
  rcases Fallible.throwIf_bind_eq_ok.mp h with ⟨htoken, hcode⟩
  have hvalid := (Fallible.throwIf_eq_ok.mp hcode).1
  cases mfaToken with
  | none => cases htoken
  | some code => exact ⟨code, rfl, by simpa using hvalid⟩

/-- A login that succeeds has shown a valid code where the check is active. -/
theorem validateLogin_factor {rt : Runtime} {env : LoginEnv} {email password : String}
    {mfaToken : Option String} {tenantId : Option Id} {profile : LoginProfile} {w w' : World}
    (hurl : env.databaseUrl = true)
    (h : validateLogin rt env email password mfaToken tenantId w = (.ok profile, w')) :
    ∃ user ∈ w.db.users, user.id = profile.id ∧ (user.mfaEnabled = true →
      ∃ code, mfaToken = some code ∧ rt.verifyTotp user.mfaSecret code env.now = true) := by
  rcases findAccount_state env (rt.normalizedEmail email) tenantId w with ⟨found, hfound⟩
  unfold validateLogin at h
  rw [Fallible.bind_of_ok hfound] at h
  cases found with
  | none =>
      rw [accountOrMock, hurl] at h
      cases h
  | some account =>
      rcases Fallible.throwIf_bind_eq_ok.mp h with ⟨_, h⟩
      rcases Fallible.throwIf_bind_eq_ok.mp h with ⟨_, h⟩
      rcases Fallible.bind_eq_ok.mp h with ⟨_, w₁, hmfa, hend⟩
      cases hend
      exact ⟨account.user, mem_users_of_findAccount hfound, rfl, fun hactive =>
        checkMfa_code hactive hmfa⟩

/-! ## Runs keep to the confirmed secrets -/

/-- A rewriting of accounts that keeps their ids. -/
theorem Confirmed.rewrite {s s' : MfaState} (h : Confirmed s) {p : User → Bool}
    {f : User → User} (hworld : s'.world = rewriteUsers p f s.world) (hid : ∀ u, (f u).id = u.id)
    (hkept : ∀ u ∈ s.world.db.users, p u = false → u.mfaEnabled = true →
      u.mfaSecret = s'.confirmed u.id)
    (hrewritten : ∀ u ∈ s.world.db.users, p u = true → (f u).mfaEnabled = true →
      (f u).mfaSecret = s'.confirmed u.id) : Confirmed s' := by
  constructor
  · rw [hworld, users_rewriteUsers, map_rewriteWhere hid]
    exact h.ids
  · intro u' hu' hactive
    rw [hworld, users_rewriteUsers] at hu'
    rcases mem_rewriteWhere.mp hu' with ⟨u, hu, rfl⟩
    cases hp : p u with
    | true =>
        simp only [hp, if_true, hid] at hactive ⊢
        exact hrewritten u hu hp hactive
    | false =>
        simp only [hp, Bool.false_eq_true, if_false] at hactive ⊢
        exact hkept u hu hp hactive

/-- A secret that is generated for an account without an active check. -/
theorem generate_confirmed {s : MfaState} (h : Confirmed s) {env : Env} {userId : Id}
    {drawn : MfaSecret} (hspares : mfaStored s.world userId = false) :
    Confirmed (generateMfaSecret env userId drawn s).2 := by
  rcases update_user_rows env userId (d := mfaSecretPayload drawn.secret) rfl s.world with
    ⟨p, hp, hw⟩
  have hstate : (generateMfaSecret env userId drawn s).2.world =
        rewriteUsers p (mfaSecretPayload drawn.secret).apply s.world ∧
      (generateMfaSecret env userId drawn s).2.confirmed = s.confirmed := by
    unfold generateMfaSecret
    rw [← hw]
    split <;> next hrun => rw [hrun]; exact ⟨rfl, rfl⟩
  refine h.rewrite hstate.1 (fun _ => rfl) (fun u hu _ hactive => ?_) (fun u hu hpu hactive => ?_)
  · rw [hstate.2]
    exact h.bound u hu hactive
  · have hinactive : u.mfaEnabled = false := by
      rw [mfaStored, ← hp u hpu, find_account h.ids hu] at hspares
      exact hspares
    exact absurd (hinactive.symm.trans hactive) Bool.false_ne_true

/-- A set-up, confirmed or refused. -/
theorem verify_confirmed {rt : Runtime} {s : MfaState} (h : Confirmed s) (env : Env) (userId : Id)
    (tenantId : Option Id) (token : String) (backupCodes : List String) :
    Confirmed (mfaStep rt (.verify env userId tenantId token backupCodes) s) := by
  rcases verifyMfaSetup_run rt env userId tenantId token backupCodes s with
    ⟨e, cache, hrun⟩ | ⟨p, a, cache, hp, hrun⟩
  · rw [mfaStep, hrun]
    exact ⟨h.ids, h.bound⟩
  · rw [mfaStep, hrun]
    have hown : ∀ u ∈ s.world.db.users, u.id = userId →
        u.mfaSecret = storedSecret s.world userId := by
      intro u hu hid
      rw [storedSecret, ← hid, find_account h.ids hu]
      rfl
    refine h.rewrite rfl (fun _ => rfl) (fun u hu _ hactive => ?_) (fun u hu hpu _ => ?_)
    · by_cases hid : u.id = userId
      · simpa [hid] using hown u hu hid
      · simpa [hid] using h.bound u hu hactive
    · have hid := hp u hpu
      simpa [hid, mfaEnabledPayload, Payload.apply] using hown u hu hid

/-- An action that spares the active checks keeps the stored secrets confirmed. -/
theorem step_confirmed {rt : Runtime} (a : MfaAction) {s : MfaState} (h : Confirmed s)
    (hspares : SparesActive a s) : Confirmed (mfaStep rt a s) := by
  cases a with
  | generate env userId drawn => exact generate_confirmed h hspares
  | verify env userId tenantId token backupCodes =>
      exact verify_confirmed h env userId tenantId token backupCodes
  | login env email password mfaToken tenantId =>
      have hsame := validateLogin_readsOnly rt env email password mfaToken tenantId s.world
      rw [mfaStep, hsame]
      exact h
  | wait elapsed => exact ⟨h.ids, h.bound⟩
  | land slot => exact ⟨h.ids, h.bound⟩

/-- Where the stored secrets are confirmed, a login shows a code for the confirmed one. -/
theorem Confirmed.accepts {rt : Runtime} {s : MfaState} (h : Confirmed s) :
    AcceptsConfirmed rt s := by
  intro env email password mfaToken tenantId profile w' hurl hlogin hstored
  rcases validateLogin_factor hurl hlogin with ⟨user, huser, hid, hcode⟩
  rw [mfaStored, ← hid, find_account h.ids huser] at hstored
  rcases hcode hstored with ⟨code, htoken, hvalid⟩
  refine ⟨code, htoken, ?_⟩
  rw [← hid, ← h.bound user huser hstored]
  exact hvalid

/-- In a run in which no secret is generated for an account whose check is active, logins
into an account with an active check show codes for the secret that was stored when its set-up
was last confirmed. -/
theorem second_factor_confirmed {rt : Runtime} {w : World} {cache : CacheState MfaKey MfaValue}
    {actions : List MfaAction} (hids : (w.db.users.map (·.id)).Nodup)
    (hall : (mfaMachine rt).EachStep SparesActive actions (.start w cache)) :
    AcceptsConfirmed rt ((mfaMachine rt).exec actions (.start w cache)) := by
  have hstart : Confirmed (.start w cache) := by
    refine ⟨hids, fun u hu _ => ?_⟩
    simp only [MfaState.start, storedSecret, find_account hids hu, Option.bind_some]
  exact ((mfaMachine rt).exec_of_eachStep (I := Confirmed)
    (fun a _ s h hspares => step_confirmed a h hspares) hstart hall).accepts

/-! ## A second set-up -/

/-- A runtime whose codes are the secrets themselves. -/
def echoRuntime : Runtime :=
  { plainRuntime with verifyTotp := fun secret code _ => secret == some code }

/-- A database with one account, without a second factor. -/
def mfaWorld : World where
  db :=
    { tenants := [{ id := "t1", name := "Bistro", subdomain := "bistro" }]
      users := [{ id := "u1", tenantId := some "t1", firstName := "Ana", lastName := "Ruiz",
                  email := "ana@example.com", passwordHash := "s1$Secret123" }] }

/-- A cache without entries. -/
def noMfaEntries : CacheState MfaKey MfaValue where
  redis := { now := 0, entry := fun _ => none }

/-- The surroundings of the calls for that account. -/
def mfaEnv : Env where
  context := { tenantId := some "t1" }
  uuid _ := "new"
  now := 1700000000000

/-- Set the factor up and confirm it. -/
def setUpActions : List MfaAction :=
  [.generate mfaEnv "u1" { secret := "K5QVG3TF", qrCodeDataUrl := "data:image/png;base64,AA==" },
    .verify mfaEnv "u1" (some "t1") "K5QVG3TF" ["a1b2-c3d4-e5f6"]]

/-- A second secret for the account. -/
def secondSecret : MfaSecret where
  secret := "PB2XA4DL"
  qrCodeDataUrl := "data:image/png;base64,AQ=="

/-- The account's login with a code. -/
def mfaLogin (code : String) (s : MfaState) : Except AppError LoginProfile × World :=
  validateLogin echoRuntime { mfaEnv with databaseUrl := true } "ana@example.com" "Secret123"
    (some code) (some "t1") s.world

/-- After the set-up, the code for the confirmed secret logs in. -/
theorem confirmed_secret_logs_in :
    let s := (mfaMachine echoRuntime).exec setUpActions (.start mfaWorld noMfaEntries)
    AcceptsConfirmed echoRuntime s ∧ mfaStored s.world "u1" = true ∧
      (mfaLogin "K5QVG3TF" s).1.toOption.isSome = true := by
  refine ⟨second_factor_confirmed (by decide) ?_, by decide +kernel, by decide +kernel⟩
  have hinactive : mfaStored mfaWorld "u1" = false := by decide +kernel
  exact ⟨hinactive, trivial, trivial⟩

/-- The account sets its factor up, confirms it, and then generates a second secret that it
never confirms: the code for the second secret logs in, the confirmed one's no longer does. -/
theorem unconfirmed_secret_logs_in :
    let s := (mfaMachine echoRuntime).exec
      (setUpActions ++ [.generate mfaEnv "u1" secondSecret]) (.start mfaWorld noMfaEntries)
    s.confirmed "u1" = some "K5QVG3TF" ∧ mfaStored s.world "u1" = true ∧
      (mfaLogin "PB2XA4DL" s).1.toOption.isSome = true ∧
      (mfaLogin "K5QVG3TF" s).1.toOption.isSome = false ∧
      ¬ AcceptsConfirmed echoRuntime s := by
  intro s
  have hconfirmed : s.confirmed "u1" = some "K5QVG3TF" := by decide +kernel
  have hstored : mfaStored s.world "u1" = true := by decide +kernel
  have hid : (mfaLogin "PB2XA4DL" s).1.toOption.any (fun profile => profile.id == "u1") = true := by
    decide +kernel
  refine ⟨hconfirmed, hstored, by decide +kernel, by decide +kernel, fun hall => ?_⟩
  rcases Fallible.returned_of_any hid with ⟨profile, w', hlogin, hprofile⟩
  rw [beq_iff_eq] at hprofile
  rcases hall _ _ _ _ _ profile w' rfl hlogin (hprofile ▸ hstored) with ⟨code, hcode, hvalid⟩
  cases hcode
  rw [hprofile, hconfirmed] at hvalid
  exact absurd hvalid (by decide)

end Auth
end Eleva
