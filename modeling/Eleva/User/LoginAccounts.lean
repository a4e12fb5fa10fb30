import Eleva.Foundation.Batches
import Eleva.Tenant.TenantService
import Eleva.User.EmailRule

/-!
# User - Whom a login finds

A login comes without a tenant and takes the first account with its email, deleted ones and
those of other tenants among them.  The onboarding of an owner refuses an email that an account
of any tenant holds; the creation and the update of a user refuse only one that an account of
their own tenant holds.

Main results:

- Theorems {lit}`onboard_addresses`, {lit}`createUser_addresses`, {lit}`updateUser_addresses`
  and {lit}`deleteUser_addresses`: what the calls do to the emails of the accounts.
- Theorem {lit}`logins_find_own`: where every email that a call gives out is one that a login
  searches for, and is held in the tenant of the call only, every login finds its own account.
- Theorem {lit}`shared_email_refused`: an email that two tenants hold logs one of them in.
-/

namespace Eleva
namespace UserService

open Foundation Database Auth TableOf TenantService

/-! ## Accounts and their calls -/

/-- A call that changes accounts. -/
inductive AccountRequest where
  | onboard (env : TenantEnv) (dto : CreateTenantRequestDto)
  | createUser (env : UserEnv) (dto : CreateUserRequestDto) (tenantId : Option Id)
      (actor : ActorContext)
  | updateUser (env : UserEnv) (id : Id) (dto : UpdateUserRequestDto) (tenantId : Option Id)
      (actor : ActorContext)
  | deleteUser (env : UserEnv) (id : Id) (tenantId : Option Id) (actor : ActorContext)

/-- The state that a call leaves. -/
def AccountRequest.leaves (rt : Runtime) (s : AppState) : AccountRequest → AppState
  | .onboard env dto => (inDatabase (TenantService.onboard rt env dto) s).2
  | .createUser env dto tenantId actor => (UserService.createUser rt env dto tenantId actor s).2
  | .updateUser env id dto tenantId actor =>
      (UserService.updateUser rt env id dto tenantId actor s).2
  | .deleteUser env id tenantId actor => (UserService.deleteUser env id tenantId actor s).2

/-- The calls, one after the other. -/
def accounts (rt : Runtime) : Machine AccountRequest AppState Unit where
  step request s := ((), request.leaves rt s)

/-- An account with its roles. -/
def accountOf (db : Db) (user : User) : LoginAccount where
  user := user
  roles := (rolesOf db user).map fun role => (role.name, permissionsOf db role)

/-- The route of a login, which the middleware does not cover, with an email and a password. -/
def loginWith (rt : Runtime) (env : LoginEnv) (email password csrfToken : String) :
    AppService (LoginProfile × AccessToken × RefreshToken) :=
  login rt env { email := email, password := password } none none csrfToken

/-- A login with the email and the password of a user opens a session of that user. -/
def FindsOwn (rt : Runtime) (s : AppState) (user : User) : Prop :=
  ∀ (env : LoginEnv) (password csrfToken : String), password ≠ "" →
    rt.comparePassword password user.passwordHash = true →
      ∃ tokens s', loginWith rt env user.email password csrfToken s =
        (.ok ((accountOf s.world.db user).profile rt, tokens), s')

/-- The logins of all active accounts that are not deleted and have no second factor open
their own sessions. -/
def LoginsFindOwn (rt : Runtime) (s : AppState) : Prop :=
  ∀ user ∈ s.world.db.users, user.isActive = true → user.deletedAt = none →
    user.mfaEnabled = false → FindsOwn rt s user

/-! ## The emails that calls give out -/

/-- A login with the email searches for the email. -/
def Findable (rt : Runtime) (email : String) : Prop :=
  email ≠ "" ∧ rt.normalizedEmail email = email

/-- The accounts with the email, if there are any, are accounts of the tenant. -/
def HeldWithin (db : Db) (T : Id) (email : String) : Prop :=
  ∀ user ∈ db.users, user.email = email → user.tenantId = some T

/-- The same for the tenant that a call on users works in. -/
def HeldInScope (db : Db) (env : UserEnv) (tenantId : Option Id) (email : String) : Prop :=
  ∀ S T, env.context.Sees S → tenantId = some T → HeldWithin db (S.getD T) email

/-- The email that a call gives out is one that a login searches for, and no account of another
tenant holds it. -/
def Undisputed (rt : Runtime) : AccountRequest → AppState → Prop
  | .onboard _ dto, _ => Findable rt (rt.toLowerCase dto.ownerEmail)
  | .createUser env dto tenantId _, s =>
      Findable rt (rt.normalizedEmail dto.email) ∧
        HeldInScope s.world.db env tenantId (rt.normalizedEmail dto.email)
  | .updateUser env _ dto tenantId _, s =>
      ∀ email, dto.email = some email → email ≠ "" ∧ Findable rt (rt.normalizedEmail email) ∧
        HeldInScope s.world.db env tenantId (rt.normalizedEmail email)
  | .deleteUser _ _ _ _, _ => True

/-! ## Addresses -/

/-- What a login looks an account up by, and whose account it is. -/
structure Address where
  id : Id
  email : String
  tenantId : Option Id
deriving DecidableEq, Repr

def addressOf (user : User) : Address where
  id := user.id
  email := user.email
  tenantId := user.tenantId

def addresses (db : Db) : List Address :=
  db.users.map addressOf

/-- Every account has a tenant and an email of its own, which a login searches for. -/
structure Apart (rt : Runtime) (as : List Address) : Prop where
  ids : (as.map (·.id)).Nodup
  emails : (as.map (·.email)).Nodup
  findable : ∀ a ∈ as, Findable rt a.email
  tenants : ∀ a ∈ as, a.tenantId ≠ none

/-- Give one account another email. -/
def readdress (id : Id) (email : String) (a : Address) : Address :=
  if a.id = id then { a with email := email } else a

theorem map_id_addresses (db : Db) : (addresses db).map (·.id) = db.users.map (·.id) := by
  unfold addresses
  rw [List.map_map]
  rfl

section Addresses

variable {rt : Runtime} {as : List Address}

/-- A new account with an email that nobody holds. -/
theorem Apart.append (h : Apart rt as) {a : Address} (hids : ((as ++ [a]).map (·.id)).Nodup)
    (hunheld : ∀ b ∈ as, b.email ≠ a.email) (hfind : Findable rt a.email)
    (htenant : a.tenantId ≠ none) : Apart rt (as ++ [a]) where
  ids := hids
  emails := by
    rw [List.map_append, List.map_singleton, List.nodup_append]
    refine ⟨h.emails, List.nodup_singleton _, ?_⟩
    intro email hemail email' hemail' hsame
    rcases List.mem_map.mp hemail with ⟨b, hb, rfl⟩
    rw [List.mem_singleton] at hemail'
    exact hunheld b hb (hsame.trans hemail')
  findable b hb := by
    rcases List.mem_append.mp hb with hb | hb
    · exact h.findable b hb
    · rw [List.mem_singleton.mp hb]
      exact hfind
  tenants b hb := by
    rcases List.mem_append.mp hb with hb | hb
    · exact h.tenants b hb
    · rw [List.mem_singleton.mp hb]
      exact htenant

theorem readdress_id (id : Id) (email : String) (a : Address) :
    (readdress id email a).id = a.id := by
  unfold readdress
  split <;> rfl

theorem readdress_tenantId (id : Id) (email : String) (a : Address) :
    (readdress id email a).tenantId = a.tenantId := by
  unfold readdress
  split <;> rfl

theorem readdress_email (id : Id) (email : String) (a : Address) :
    (readdress id email a).email = if a.id = id then email else a.email := by
  unfold readdress
  split <;> rfl

/-- An account with a new email that nobody else holds. -/
theorem Apart.readdress (h : Apart rt as) {id : Id} {email : String}
    (hunheld : ∀ b ∈ as, b.id ≠ id → b.email ≠ email) (hfind : Findable rt email) :
    Apart rt (as.map (readdress id email)) where
  ids := by
    rw [List.map_map]
    have hsame : (fun a : Address => a.id) ∘ UserService.readdress id email =
        fun a => a.id := funext (readdress_id id email)
    rw [hsame]
    exact h.ids
  emails := by
    rw [List.map_map]
    refine List.Nodup.map_on ?_ h.ids.of_map
    intro a ha b hb hsame
    refine List.inj_on_of_nodup_map h.ids ha hb ?_
    simp only [Function.comp_apply, readdress_email] at hsame
    by_cases hida : a.id = id
    · by_cases hidb : b.id = id
      · exact hida.trans hidb.symm
      · rw [if_pos hida, if_neg hidb] at hsame
        exact absurd hsame.symm (hunheld b hb hidb)
    · by_cases hidb : b.id = id
      · rw [if_neg hida, if_pos hidb] at hsame
        exact absurd hsame (hunheld a ha hida)
      · rw [if_neg hida, if_neg hidb] at hsame
        rw [List.inj_on_of_nodup_map h.emails ha hb hsame]
  findable a ha := by
    rcases List.mem_map.mp ha with ⟨b, hb, rfl⟩
    rw [readdress_email]
    split
    · exact hfind
    · exact h.findable b hb
  tenants a ha := by
    rcases List.mem_map.mp ha with ⟨b, hb, rfl⟩
    rw [readdress_tenantId]
    exact h.tenants b hb

/-- A rewrite that leaves the addresses of the rows leaves the addresses. -/
theorem addressOf_map {us : List User} {f : User → User} (p : User → Bool)
    (hf : ∀ u, addressOf (f u) = addressOf u) :
    (us.map fun u => if p u then f u else u).map addressOf = us.map addressOf := by
  rw [List.map_map]
  refine List.map_congr_left fun u _ => ?_
  simp only [Function.comp_apply]
  split
  · exact hf u
  · rfl

end Addresses

/-! ## An onboarding -/

section Onboard

variable {rt : Runtime} {env : TenantEnv} {dto : CreateTenantRequestDto} {w w' : World}

/-- The onboarding sees the rows of all tenants. -/
theorem platform_sees (env : TenantEnv) (drawn : ℕ) : (env.platform drawn).context.Sees none :=
  ⟨rfl, rfl⟩

/-- The account of a new owner. -/
def ownerAddress (rt : Runtime) (env : TenantEnv) (dto : CreateTenantRequestDto) : Address where
  id := env.uuid 2
  email := rt.toLowerCase dto.ownerEmail
  tenantId := some (env.uuid 0)

/-- The owner is inserted, under an id of its own, and then given its role. -/
theorem createOwner_addresses {owner : User}
    (h : createOwner rt env dto w = (.ok owner, w')) :
    addresses w'.db = addresses w.db ++ [ownerAddress rt env dto] ∧
      ((addresses w'.db).map (·.id)).Nodup := by
  unfold createOwner at h
  rcases Fallible.bind_eq_ok.mp h with ⟨owner', w₁, howner, h₁⟩
  rcases Fallible.bind_eq_ok.mp howner with ⟨created, w₀, hcreate, hsome⟩
  rcases TableOf.run_create_ok (platform_sees env 2) (by decide) rfl hcreate with
    ⟨_, hcreated, _, haccepts, hw₀⟩
  have hw₁ : w₁ = w₀ := by
    rw [hcreated] at hsome
    cases hsome
    rfl
  have hadded : addresses w₁.db = addresses w.db ++ [ownerAddress rt env dto] := by
    rw [hw₁, hw₀]
    exact List.map_append
  have hids : ((addresses w₁.db).map (·.id)).Nodup := by
    simp only [Store.accepts, Bool.and_eq_true, List.all_eq_true] at haccepts
    have hkey := of_decide_eq_true (haccepts.1 (fun r => some r.id) (by simp [users]))
    rw [map_id_addresses, hw₁, hw₀, ← List.filterMap_eq_map]
    exact hkey
  -- The statements behind it leave the addresses.
  have hroles : ∀ as rows (w : World), addresses w.db = as →
      addresses ({ w with db := roles.set rows w.db } : World).db = as :=
    fun _ _ _ h => h
  rcases Fallible.bind_eq_ok.mp h₁ with ⟨ownerRole, w₂, hrole, h₂⟩
  have hw₂ := createRow_keeps (hroles (addresses w₁.db)) prisma.role (env.platform 3)
    (ownerRolePayload env) w₁ rfl
  rw [hrole] at hw₂
  rcases Fallible.bind_eq_ok.mp h₂ with ⟨_, w₃, hlink, h₃⟩
  have hw₃ : addresses w₃.db = addresses w₂.db := by
    rcases TableOf.run_update_ok (platform_sees env 0) (by decide) rfl rfl hlink with
      ⟨_, _, _, hw₃⟩
    rw [hw₃]
    exact addressOf_map _ fun _ => rfl
  rcases Fallible.bind_eq_ok.mp h₃ with ⟨permissionIds, w₄, hread, h₄⟩
  rcases Fallible.reads_eq_ok.mp hread with ⟨_, rfl⟩
  rcases Fallible.bind_eq_ok.mp h₄ with ⟨_, w₅, hgrant, hend⟩
  have hw₅ := TableOf.run_keeps (hroles (addresses w₄.db)) (prisma.role.update (env.platform 0)
    { id := some ownerRole.id } { assign := fun r => { r with permissionIds := permissionIds } })
    w₄ rfl
  rw [hgrant] at hw₅
  cases hend
  have hsame : addresses w'.db = addresses w₁.db := (hw₅.trans hw₃).trans hw₂
  rw [hsame]
  exact ⟨hadded, hids⟩

/-- An onboarding leaves the database, or adds the account of the owner, whose email no account
of any tenant held. -/
theorem onboard_addresses (rt : Runtime) (env : TenantEnv) (dto : CreateTenantRequestDto)
    (w : World) :
    (TenantService.onboard rt env dto w).2 = w ∨
      (addresses (TenantService.onboard rt env dto w).2.db =
          addresses w.db ++ [ownerAddress rt env dto] ∧
        ((addresses (TenantService.onboard rt env dto w).2.db).map (·.id)).Nodup ∧
        ∀ a ∈ addresses w.db, a.tenantId ≠ none → a.email ≠ rt.toLowerCase dto.ownerEmail) := by
  rcases onboard_tenants rt env dto w with ⟨e, hrun⟩ | ⟨response, w', hrun, _, _⟩
  · exact Or.inl (congrArg Prod.snd hrun)
  refine Or.inr ?_
  have hstate : (TenantService.onboard rt env dto w).2 = w' := congrArg Prod.snd hrun
  rw [hstate]
  unfold TenantService.onboard at hrun
  rcases Fallible.bind_eq_ok.mp hrun with ⟨_, w₁, hfind, hrest⟩
  rcases Fallible.reads_eq_ok.mp hfind with ⟨_, rfl⟩
  rcases Fallible.throwIf_bind_eq_ok.mp hrest with ⟨_, hfree⟩
  rcases Fallible.bind_eq_ok.mp hfree with ⟨existing, w₂, hemail, hcreates⟩
  rcases Fallible.throwIf_bind_eq_ok.mp hcreates with ⟨hnone, hcommits⟩
  -- The search for the email has found nobody.
  have hsearch := hemail.symm.trans (TableOf.run_client_findFirst (platform_sees env 0)
    (by decide) rfl w₁)
  simp only [Prod.mk.injEq, Except.ok.injEq] at hsearch
  rcases hsearch with ⟨hfound, rfl⟩
  have hunheld : ∀ a ∈ addresses w₂.db, a.tenantId ≠ none →
      a.email ≠ rt.toLowerCase dto.ownerEmail := by
    intro a ha htenant hsame
    rcases List.mem_map.mp ha with ⟨u, hu, rfl⟩
    have hmissing : existing = none := by simpa using hnone
    have hnot := List.find?_eq_none.mp (hfound.symm.trans hmissing) u hu
    refine hnot ?_
    simp only [addressOf] at htenant hsame
    simp [Where.inScope, Where.admits, ColumnKey.admits, prisma.user, TenantRow.tenantId,
      htenant, hsame]
  -- The transaction.
  have hprovision := Fallible.transaction_eq_ok.mp hcommits
  rcases Fallible.bind_eq_ok.mp hprovision with ⟨_, w₃, htenant, hwork⟩
  have hw₃ : addresses w₃.db = addresses w₂.db := by
    rcases writeTenants_cases (w₂.db.tenants ++ [newTenant env dto]) w₂ with
      ⟨e, hrefused⟩ | ⟨_, hwritten⟩
    · rw [createTenant, hrefused] at htenant
      cases htenant
    · rw [createTenant, hwritten] at htenant
      cases htenant
      rfl
  rcases Fallible.bind_eq_ok.mp hwork with ⟨_, w₄, htrial, hwork⟩
  have hw₄ := createTrial_keeps (I := fun w => addresses w.db = addresses w₃.db)
    (fun _ _ h => h) env dto w₃ rfl
  rw [htrial] at hw₄
  rcases Fallible.bind_eq_ok.mp hwork with ⟨owner, w₅, howner, hwork⟩
  rcases createOwner_addresses howner with ⟨hadded, hids⟩
  rcases Fallible.bind_eq_ok.mp hwork with ⟨restaurant, w₆, hrestaurant, hwork⟩
  have hw₆ := createRestaurant_keeps (I := fun w => addresses w.db = addresses w₅.db)
    (fun _ _ h => h) env dto w₅ rfl
  rw [hrestaurant] at hw₆
  rcases Fallible.bind_eq_ok.mp hwork with ⟨branch, w₇, hbranch, hend⟩
  have hw₇ := createFirstBranch_keeps (I := fun w => addresses w.db = addresses w₆.db)
    (fun _ _ h => h) env dto restaurant.id w₆ rfl
  rw [hbranch] at hw₇
  cases hend
  have hafter : addresses w'.db = addresses w₅.db := hw₇.trans hw₆
  have hbefore : addresses w₄.db = addresses w₂.db := hw₄.trans hw₃
  rw [hafter, hadded, hbefore]
  rw [hadded, hbefore] at hids
  exact ⟨rfl, hids, hunheld⟩

end Onboard

/-! ## The calls on users -/

section Calls

variable (rt : Runtime) (env : UserEnv) (id : Id) (tenantId : Option Id) (actor : ActorContext)
  (s : AppState)

/-- A creation leaves the database, or adds an account of the tenant, with an email that no
account of the tenant held. -/
theorem createUser_addresses (dto : CreateUserRequestDto) :
    (createUser rt env dto tenantId actor s).2.world = s.world ∨
      ∃ T S a, tenantId = some T ∧ env.context.Sees S ∧ a.tenantId = some (S.getD T) ∧
        a.email = rt.normalizedEmail dto.email ∧
        addresses (createUser rt env dto tenantId actor s).2.world.db =
          addresses s.world.db ++ [a] ∧
        ((addresses s.world.db ++ [a]).map (·.id)).Nodup ∧
        taken s.world.db (S.getD T) none (rt.normalizedEmail dto.email) = false := by
  rcases createUser_runs rt env dto tenantId actor s with
    ⟨e, s', hthrew, hworld⟩ | ⟨T, created, s', hinput, _, hinsert, hrun⟩
  · rw [hthrew]
    exact Or.inl hworld
  rw [hrun]
  rcases Fallible.bind_eq_ok.mp (Fallible.transaction_eq_ok.mp hinsert) with ⟨data, w₁, _, hrest⟩
  rcases Fallible.bind_eq_ok.mp hrest with ⟨row, w₂, hwrite, _⟩
  rcases UserWrite.run_ok hwrite with ⟨S, hctx, _⟩
  rcases insertUser_email hctx hinsert with ⟨hfree, hplace, hemail, husers, hids⟩
  have hadded : addresses s'.world.db = addresses s.world.db ++ [addressOf created] := by
    unfold addresses
    rw [husers, List.map_append, List.map_singleton]
  refine Or.inr ⟨T, S, addressOf created, hinput, hctx, hplace, hemail, hadded, ?_, hfree⟩
  rw [← hadded, map_id_addresses]
  exact hids

/-- An update leaves the emails, or gives the user the email that it names, which no other
account of the tenant held. -/
theorem updateUser_addresses (dto : UpdateUserRequestDto)
    (hids : ((addresses s.world.db).map (·.id)).Nodup) :
    addresses (updateUser rt env id dto tenantId actor s).2.world.db = addresses s.world.db ∨
      ∃ email T S, dto.email = some email ∧ tenantId = some T ∧ env.context.Sees S ∧
        addresses (updateUser rt env id dto tenantId actor s).2.world.db =
          (addresses s.world.db).map (readdress id (rt.normalizedEmail email)) ∧
        (email ≠ "" →
          taken s.world.db (S.getD T) (some id) (rt.normalizedEmail email) = false) := by
  rcases updateUser_runs rt env id dto tenantId actor s with ⟨e, s', hthrew, hworld⟩ |
    ⟨r, s', T, S, user, hrun, _, hinput, hctx, huser, hid, hplace, _, _, htx⟩
  · rw [hthrew]
    exact Or.inl (congrArg (fun w => addresses w.db) hworld)
  rw [hrun]
  rcases updateStatements_email hctx (updateTransaction_ok htx) with
    ⟨hfree, f, hkeeps, hwrite, hset⟩
  have husers : s'.world.db.users =
      s.world.db.users.map fun u => if ownRow S id u then f u else u := by
    rw [show s'.world = _ from hwrite]
  cases hemail : dto.email with
  | none =>
      rw [hemail] at hset
      refine Or.inl ?_
      unfold addresses
      rw [husers]
      refine addressOf_map _ fun u => ?_
      unfold addressOf
      rw [hkeeps.id, hkeeps.tenantId, hset]
      rfl
  | some email =>
      rw [hemail] at hset
      refine Or.inr ⟨email, T, S, rfl, hinput, hctx, ?_, hfree email hemail⟩
      unfold addresses
      rw [husers, List.map_map, List.map_map]
      refine List.map_congr_left fun u hu => ?_
      simp only [Function.comp_apply]
      by_cases hown : ownRow S id u = true
      · have huid : (addressOf u).id = id := TableOf.id_of_ownRow hown
        rw [if_pos hown, readdress, if_pos huid]
        unfold addressOf
        rw [hkeeps.id, hkeeps.tenantId, hset]
        rfl
      · have hother : (addressOf u).id ≠ id := by
          -- a row with the id is the user's, which the scope sees
          intro hsame
          rw [map_id_addresses] at hids
          have hu_user : u = user :=
            List.inj_on_of_nodup_map hids hu huser (hsame.trans hid.symm)
          exact hown (hu_user ▸ ownRow_of_place hid hplace)
        rw [if_neg hown, readdress, if_neg hother]

/-- A deletion leaves the emails. -/
theorem deleteUser_addresses :
    addresses (deleteUser env id tenantId actor s).2.world.db = addresses s.world.db := by
  unfold deleteUser
  rcases htenant : assertTenant tenantId s with ⟨e | T, s₁⟩
  · have hs₁ := (assertTenant_error htenant s).symm.trans htenant
    cases hs₁
    rw [Fallible.bind_of_error htenant]
  rw [Fallible.bind_of_ok htenant, (assertTenant_eq_ok.mp htenant).2.2]
  cases hself : env.spelling id == actor.id with
  | true => rfl
  | false =>
      rw [Fallible.throwIf_false_bind]
      have hfind := inDatabase_of_keeps (fun {_} => findOne_keeps env T id) s
      rcases hfound : (findOne env id T s.world).1 with e | target
      · rw [hfound] at hfind
        rw [Fallible.bind_of_error hfind]
      rw [hfound] at hfind
      rw [Fallible.bind_of_ok hfind]
      rcases inTransaction_cases env (deleteTransaction env T id target) s with
        ⟨e, s₂, herror, hworld⟩ | ⟨_, s₂, htx, hok⟩
      · rw [Fallible.bind_of_error herror, hworld]
      rw [Fallible.bind_of_ok hok]
      rcases Fallible.bind_eq_ok.mp htx with ⟨_, s₃, hguards, hrest⟩
      have hs₃ : s₃ = s := congrArg Prod.snd (hguards.symm.trans (inDatabase_of_keeps
        (fun {_} => runGuards_keeps env T id target.roles ["remove"]) s))
      rw [hs₃] at hrest
      rcases Fallible.bind_eq_ok.mp hrest with ⟨_, s₄, hwrite, hrevoke⟩
      have hworld : s₂.world = s₄.world := by
        unfold revokeSessions at hrevoke
        split at hrevoke
        · cases hrevoke
        · exact (inSessions_eq_ok.mp hrevoke).2
      rcases Fallible.bind_eq_ok.mp (inDatabase_eq_ok.mp hwrite).1 with ⟨_, w₁, hupdate, hend⟩
      cases hend
      rcases UserWrite.run_ok hupdate with ⟨S, _, hdone⟩
      show addresses s₂.world.db = _
      rw [hworld, hdone]
      exact addressOf_map _ fun _ => rfl

end Calls

/-! ## The emails over a run -/

section Runs

variable {rt : Runtime} {s : AppState}

/-- An email that is held in the tenant only, and in the tenant by nobody but the excepted
user, is held by nobody else. -/
theorem unheld_of_taken {db : Db} {T : Id} {except : Option Id} {email : String}
    (hwithin : HeldWithin db T email) (hfree : taken db T except email = false) :
    ∀ a ∈ addresses db, except ≠ some a.id → a.email ≠ email := by
  intro a ha hother hsame
  rcases List.mem_map.mp ha with ⟨u, hu, rfl⟩
  have hnot := List.any_eq_false.mp hfree u hu
  have htenant := hwithin u hu hsame
  have hemail : u.email = email := hsame
  cases except with
  | none => simp [htenant, hemail] at hnot
  | some id =>
      have hid : u.id ≠ id := fun h => hother (congrArg some h.symm)
      simp [htenant, hemail, hid] at hnot

/-- A call that gives out an undisputed email keeps the emails apart. -/
theorem leaves_apart (h : Apart rt (addresses s.world.db)) {request : AccountRequest}
    (hrequest : Undisputed rt request s) :
    Apart rt (addresses (request.leaves rt s).world.db) := by
  cases request with
  | onboard env dto =>
      rcases onboard_addresses rt env dto s.world with hsame | ⟨hadded, hids, hunheld⟩
      · show Apart rt (addresses (TenantService.onboard rt env dto s.world).2.db)
        rw [hsame]
        exact h
      · show Apart rt (addresses (TenantService.onboard rt env dto s.world).2.db)
        rw [hadded] at hids ⊢
        exact h.append hids (fun a ha => hunheld a ha (h.tenants a ha)) hrequest
          (Option.some_ne_none _)
  | createUser env dto tenantId actor =>
      rcases createUser_addresses rt env tenantId actor s dto with
        hsame | ⟨T, S, a, hinput, hctx, hplace, hemail, hadded, hids, hfree⟩
      · show Apart rt (addresses (createUser rt env dto tenantId actor s).2.world.db)
        rw [hsame]
        exact h
      · show Apart rt (addresses (createUser rt env dto tenantId actor s).2.world.db)
        rw [hadded]
        have hunheld := unheld_of_taken (hrequest.2 S T hctx hinput) hfree
        refine h.append hids (fun b hb => ?_) (hemail ▸ hrequest.1) ?_
        · rw [hemail]
          exact hunheld b hb (Option.some_ne_none _).symm
        · rw [hplace]
          exact Option.some_ne_none _
  | updateUser env id dto tenantId actor =>
      rcases updateUser_addresses rt env id tenantId actor s dto h.ids with
        hsame | ⟨email, T, S, hemail, hinput, hctx, hchanged, hfree⟩
      · show Apart rt (addresses (updateUser rt env id dto tenantId actor s).2.world.db)
        rw [hsame]
        exact h
      · show Apart rt (addresses (updateUser rt env id dto tenantId actor s).2.world.db)
        rw [hchanged]
        rcases hrequest email hemail with ⟨hgiven, hfind, hscope⟩
        have hunheld := unheld_of_taken (hscope S T hctx hinput) (hfree hgiven)
        refine h.readdress (fun b hb hother => hunheld b hb fun hsame => ?_) hfind
        exact hother (Option.some_inj.mp hsame).symm
  | deleteUser env id tenantId actor =>
      show Apart rt (addresses (deleteUser env id tenantId actor s).2.world.db)
      rw [deleteUser_addresses]
      exact h

/-! ## The login -/

/-- A login without a tenant takes the first account with its email. -/
theorem findAccount_first (env : LoginEnv) (email : String) (w : World) :
    findAccount { env with context := loginContext none none } email none w =
      (.ok ((w.db.users.find? fun u => u.email == email).map (accountOf w.db)), w) := by
  have hctx : (loginContext none none).Sees none := ⟨rfl, rfl⟩
  have hrun : users.run (prisma.user.findFirst { env.toEnv with context := loginContext none none }
      (loginWhere email none)) w = _ := TableOf.run_client_findFirst hctx (by decide) rfl w
  have hadmits : ((loginWhere email none).inScope none).admits prisma.user =
      fun u => u.email == email := by
    funext u
    simp [loginWhere, truthy, Where.inScope, Where.admits, ColumnKey.admits, prisma.user]
  rw [hadmits] at hrun
  unfold findAccount
  rw [hrun]
  show _ = (Except.ok (((users.get w.db).find? fun u => u.email == email).map (accountOf w.db)), w)
  cases (users.get w.db).find? fun u => u.email == email with
  | none => rfl
  | some user => rfl

/-- Where the emails are apart, a login finds its own account. -/
theorem findsOwn_of_apart (h : Apart rt (addresses s.world.db)) {user : User}
    (huser : user ∈ s.world.db.users) (hactive : user.isActive = true)
    (hmfa : user.mfaEnabled = false) : FindsOwn rt s user := by
  intro env password csrfToken hgiven hpassword
  have hmem : addressOf user ∈ addresses s.world.db := List.mem_map.mpr ⟨user, huser, rfl⟩
  have hfindable : Findable rt user.email := h.findable _ hmem
  have hfirst : s.world.db.users.find? (fun u => u.email == user.email) = some user := by
    refine (find?_iff_of_unique ?_).mpr ⟨huser, beq_self_eq_true _⟩
    intro u hu v hv husame hvsame
    have hemails : (addressOf u).email = (addressOf v).email :=
      (beq_iff_eq.mp husame).trans (beq_iff_eq.mp hvsame).symm
    have haddress := List.inj_on_of_nodup_map h.emails (List.mem_map.mpr ⟨u, hu, rfl⟩)
      (List.mem_map.mpr ⟨v, hv, rfl⟩) hemails
    have hids := h.ids
    rw [map_id_addresses] at hids
    exact List.inj_on_of_nodup_map hids hu hv (congrArg Address.id haddress)
  have hfound := findAccount_first env (rt.normalizedEmail user.email) s.world
  rw [hfindable.2, hfirst] at hfound
  rw [← hfindable.2] at hfound
  have hvalid : validateLogin rt { env with context := loginContext none none } user.email password
      none none s.world = _ := validateLogin_of_found hfound hactive hpassword hmfa
  have hdone : inDatabase (validateLogin rt { env with context := loginContext none none }
      user.email password none none) s =
        (.ok ((accountOf s.world.db user).profile rt), s) := by
    unfold inDatabase
    rw [hvalid]
  have hbody : (user.email == "" || password == "") = false := by
    simp [hfindable.1, hgiven]
  unfold loginWith login
  simp only [hbody]
  rw [Fallible.throwIf_false_bind, Fallible.bind_of_ok hdone]
  exact ⟨_, _, rfl⟩

/-- From a database without accounts: where every email that a call gives out is undisputed,
every login of an active account without a second factor opens its own session, after each of
the calls. -/
theorem logins_find_own (rt : Runtime) (requests : List AccountRequest) (s : AppState)
    (hempty : s.world.db.users = [])
    (heach : (accounts rt).EachStep (Undisputed rt) requests s) :
    ∀ done, done <+: requests → LoginsFindOwn rt ((accounts rt).exec done s) := by
  rintro done ⟨rest, rfl⟩
  have hstart : Apart rt (addresses s.world.db) := by
    unfold addresses
    rw [hempty]
    exact ⟨List.nodup_nil, List.nodup_nil, fun a ha => absurd ha List.not_mem_nil,
      fun a ha => absurd ha List.not_mem_nil⟩
  have hapart : Apart rt (addresses ((accounts rt).exec done s).world.db) :=
    (accounts rt).exec_of_eachStep (I := fun s => Apart rt (addresses s.world.db))
      (fun request _ s h hrequest => leaves_apart h hrequest) hstart
      ((accounts rt).eachStep_append done rest s |>.mp heach).1
  intro user huser hactive _ hmfa
  exact findsOwn_of_apart hapart huser hactive hmfa

end Runs

/-! ## Two restaurants -/

/-- A platform before its first restaurant. -/
def newPlatform : AppState where
  world := { db := { subscriptionPlans := [{ id := "plan-1", name := "Starter" }] } }
  sessions := { cache := { redis := { now := 1767300000000, entry := fun _ => none } } }

/-- The onboarding of a restaurant by Ann. -/
def opens (restaurant : String) : AccountRequest :=
  .onboard
    { context := {}, uuid := fun n => restaurant ++ "-" ++ toString n, now := 1767300000000
      salt := "s" }
    { companyName := restaurant, subdomain := restaurant, ownerFirstName := "Ann"
      ownerLastName := "Rossi", ownerEmail := "Ann@" ++ restaurant ++ ".example"
      ownerPassword := "rosmarino", planId := "plan-1" }

/-- The owner of a restaurant hires a cook with an email. -/
def hires (restaurant email : String) : AccountRequest :=
  .createUser
    { context := { tenantId := some (restaurant ++ "-0") }
      uuid := fun n => restaurant ++ "-cook-" ++ toString n, now := 1767300000000, salt := "s" }
    { firstName := "Mia", lastName := "Bianchi", email := email, password := "basilico" }
    (some (restaurant ++ "-0"))
    { id := restaurant ++ "-2", roles := ["RESTAURANT_OWNER"], permissions := [] }

/-- The rows of a tenant's scope. -/
theorem heldInScope_of_tenant {db : Db} {env : UserEnv} {T email : String}
    (hctx : env.context.Sees (some T)) (h : HeldWithin db T email) (tenantId : Option Id) :
    HeldInScope db env tenantId email := by
  intro S T' hctx' _
  cases hctx'.unique hctx
  exact h

/-- The logins of an owner and of a cook with an email of its own. -/
theorem cook_finds_own :
    LoginsFindOwn plainRuntime
      ((accounts plainRuntime).exec [opens "rome", hires "rome" "Mia@rome.example"] newPlatform) ∧
    ((accounts plainRuntime).exec [opens "rome", hires "rome" "Mia@rome.example"]
      newPlatform).world.db.users.map (·.email) = ["ann@rome.example", "mia@rome.example"] := by
  refine ⟨?_, by decide +kernel⟩
  refine logins_find_own plainRuntime [opens "rome", hires "rome" "Mia@rome.example"] newPlatform
    rfl ?_ _ (List.prefix_refl _)
  refine ⟨⟨by decide +kernel, by decide +kernel⟩, ⟨⟨by decide +kernel, by decide +kernel⟩, ?_⟩,
    trivial⟩
  have hheld : HeldWithin ((accounts plainRuntime).step (opens "rome") newPlatform).2.world.db
      "rome-0" (plainRuntime.normalizedEmail "Mia@rome.example") := by
    unfold HeldWithin
    decide +kernel
  exact heldInScope_of_tenant ⟨by decide +kernel, by decide +kernel⟩ hheld _

/-- The cook of another restaurant gets the email of an owner. -/
def sharedEmail : List AccountRequest :=
  [opens "rome", opens "milan", hires "milan" "Ann@rome.example"]

/-- The cook is refused at the login: the account that is found is the owner's. -/
theorem shared_email_refused :
    newPlatform.world.db.users = [] ∧
      ¬LoginsFindOwn plainRuntime ((accounts plainRuntime).exec sharedEmail newPlatform) := by
  refine ⟨rfl, fun hfinds => ?_⟩
  have hcook : (((accounts plainRuntime).exec sharedEmail newPlatform).world.db.users.find?
      fun u => u.id == "milan-cook-0").any (fun u => u.isActive && u.deletedAt.isNone &&
        !u.mfaEnabled && u.email == "ann@rome.example" &&
          plainRuntime.comparePassword "basilico" u.passwordHash) = true := by
    decide +kernel
  have hrefused : (loginWith plainRuntime { context := {}, uuid := fun n => toString n, now := 0 }
      "ann@rome.example" "basilico" "csrf"
        ((accounts plainRuntime).exec sharedEmail newPlatform)).1.isOk = false := by
    decide +kernel
  rcases (Option.any_eq_true ..).mp hcook with ⟨user, hfind, hchecks⟩
  simp only [Bool.and_eq_true, beq_iff_eq, Bool.not_eq_true', Option.isNone_iff_eq_none] at hchecks
  rcases hchecks with ⟨⟨⟨⟨hactive, hlive⟩, hmfa⟩, hemail⟩, hpassword⟩
  rcases hfinds user (List.mem_of_find?_eq_some hfind) hactive hlive hmfa
    { context := {}, uuid := fun n => toString n, now := 0 } "basilico" "csrf" (by decide)
    hpassword with ⟨tokens, s', hrun⟩
  rw [← hemail, hrun] at hrefused
  cases hrefused

end UserService
end Eleva
