import Eleva.User.LoginAccounts
import Eleva.User.SetReplacement

/-!
# User - What an actor can hand on

An actor that is no platform owner creates users, rewrites them and assigns roles and branches to
them.  The grant check compares the roles that it asks for with its own session; a login computes
the session of the account anew, with names and permissions of its own for an account that has
none, and the password of an account is set without a check.

Main results:

- Definition {lit}`delegationMachine`: the calls of one actor, with an account of the users whose
  password or roles it has set.
- Theorem {lit}`assertCanGrantRoles_ok`: what the grant check has compared.
- Theorem {lit}`within_of_named`: the session of an account with roles that were granted.
- Theorem {lit}`no_escalation`: where the roles that the actor sets leave no room for the names
  and permissions of a login, and the passwords that it sets are of accounts within its own
  session, the logins of these accounts are within it.
-/

namespace Eleva
namespace UserService

open Foundation Database Auth TableOf

/-! ## The calls -/

/-- The application, and the users whose password or roles the actor has set. -/
structure DelegationState where
  app : AppState
  touched : List Id := []

/-- The calls that an actor makes. -/
inductive DelegationAction where
  | createUser (env : UserEnv) (dto : CreateUserRequestDto) (tenantId : Option Id)
  | updateUser (env : UserEnv) (id : Id) (dto : UpdateUserRequestDto) (tenantId : Option Id)
  | assignRoles (env : UserEnv) (id : Id) (roleNames : List String) (tenantId : Option Id)
  | assignBranches (env : UserEnv) (id : Id) (branchIds : List Id) (tenantId : Option Id)

/-- The update sets the password or the roles of the user. -/
def UpdateUserRequestDto.sets (dto : UpdateUserRequestDto) : Bool :=
  dto.roles.isSome || truthy dto.password

namespace DelegationState

/-- A creation; the users that are new have their password and roles from the actor. -/
def created (s : DelegationState) (run : Except AppError UserResponse × AppState) :
    DelegationState where
  app := run.2
  touched := (run.2.world.db.users.map (·.id)).filter (fun id =>
    !(s.app.world.db.users.map (·.id)).contains id) ++ s.touched

/-- An update. -/
def updated (s : DelegationState) (id : Id) (dto : UpdateUserRequestDto)
    (run : Except AppError UserResponse × AppState) : DelegationState where
  app := run.2
  touched := if run.1.isOk && dto.sets then id :: s.touched else s.touched

end DelegationState

/-- The calls of an actor, one after the other. -/
def delegationMachine (rt : Runtime) (actor : ActorContext) :
    Machine DelegationAction DelegationState Unit where
  step a s := ((),
    match a with
    | .createUser env dto tenantId => s.created (createUser rt env dto tenantId actor s.app)
    | .updateUser env id dto tenantId =>
        s.updated id dto (updateUser rt env id dto tenantId actor s.app)
    | .assignRoles env id roleNames tenantId =>
        s.updated id { roles := some roleNames }
          (assignRoles rt env id roleNames tenantId actor s.app)
    | .assignBranches env id branchIds tenantId =>
        s.updated id { branchIds := some branchIds }
          (assignBranches rt env id branchIds tenantId actor s.app))

/-- A session within that of an actor. -/
structure Within (actor : ActorContext) (profile : LoginProfile) : Prop where
  permissions : ∀ p ∈ profile.permissions, p ∈ actor.permissions
  owner : "RESTAURANT_OWNER" ∈ profile.roles → "RESTAURANT_OWNER" ∈ actor.roles
  platform : "PLATFORM_OWNER" ∈ profile.roles → "PLATFORM_OWNER" ∈ actor.roles

/-- Every login of a user whose password or roles the actor has set opens a session within that
of the actor. -/
def NoEscalation (rt : Runtime) (actor : ActorContext) (s : DelegationState) : Prop :=
  ∀ (env : LoginEnv) (email password : String) (mfaToken : Option String) (tenantId : Option Id)
    (profile : LoginProfile) (w : World), env.databaseUrl = true →
    validateLogin rt env email password mfaToken tenantId s.app.world = (.ok profile, w) →
      profile.id ∈ s.touched → Within actor profile

/-! ## Roles without room for an escalation -/

/-- The key of a permission in a session. -/
def sessionKey (rt : Runtime) (p : Permission) : String :=
  rt.toLowerCase p.resource ++ ":" ++ p.action

/-- A login signs the permission. -/
def Signed (p : Permission) : Prop :=
  p.action ≠ "" ∧ p.resource ≠ ""

/-- The permissions of the roles of a tenant with one of the names. -/
def CarriedBy (db : Db) (T : Id) (names : List String) (p : Permission) : Prop :=
  ∃ role ∈ db.roles, role.tenantId = some T ∧ role.name ∈ names ∧ p ∈ permissionsOf db role

/-- The names give a session its roles and its permissions, which are the actor's: a name that is
empty and a role without permissions have a login fill in for them, the owner role is granted for
its permissions alone, those of the actor's own roles are not compared, and the others are compared
before their resource is put into lower case. -/
structure Delegable (rt : Runtime) (actor : ActorContext) (db : Db) (T : Id)
    (names : List String) : Prop where
  named : (∃ name ∈ names, name ≠ "") ∨ "RESTAURANT_OWNER" ∈ actor.roles
  owner : "RESTAURANT_OWNER" ∈ names → "RESTAURANT_OWNER" ∈ actor.roles
  permitted : (∃ p, CarriedBy db T names p ∧ Signed p) ∨
    ∀ p ∈ ["menu:create", "menu:update", "orders:read"], p ∈ actor.permissions
  held : ∀ p, CarriedBy db T (names.filter actor.roles.contains) p → Signed p →
    sessionKey rt p ∈ actor.permissions
  folded : ∀ p, CarriedBy db T names p → Signed p →
    p.resource ++ ":" ++ p.action ∈ actor.permissions → sessionKey rt p ∈ actor.permissions

/-- Where the roles are granted they leave no room. -/
def DelegatesRoles (rt : Runtime) (actor : ActorContext) (env : UserEnv)
    (tenantIdInput : Option Id) (names : List String) (w : World) : Prop :=
  ∀ tenantId S, tenantIdInput = some tenantId → env.context.Sees S →
    (assertCanGrantRoles env tenantId names actor w).1 = .ok () →
      Delegable rt actor w.db (S.getD tenantId) names

/-- The session of the user that is found is within that of the actor. -/
def DelegatesPassword (rt : Runtime) (actor : ActorContext) (env : UserEnv) (id : Id)
    (tenantIdInput : Option Id) (w : World) : Prop :=
  ∀ tenantId S, tenantIdInput = some tenantId → env.context.Sees S →
    ∀ user ∈ w.db.users, user.id = id → user.tenantId = some (S.getD tenantId) →
      user.deletedAt = none → Within actor ((accountOf w.db user).profile rt)

/-- The call sets roles that leave no room, or the password of an account that is within the
session of the actor. -/
def Delegates (rt : Runtime) (actor : ActorContext) (a : DelegationAction)
    (s : DelegationState) : Prop :=
  match a with
  | .createUser env dto tenantId =>
      DelegatesRoles rt actor env tenantId (dto.roles.getD []) s.app.world
  | .updateUser env id dto tenantId =>
      match dto.roles with
      | some names => DelegatesRoles rt actor env tenantId names s.app.world
      | none => truthy dto.password = true →
          DelegatesPassword rt actor env id tenantId s.app.world
  | .assignRoles env _ roleNames tenantId =>
      DelegatesRoles rt actor env tenantId roleNames s.app.world
  | .assignBranches _ _ _ _ => True

/-! ## The grant check -/

/-- The names that the actor does not hold carry permissions of the actor. -/
theorem assertCapabilities_ok {env : UserEnv} {S : Option Id} (hctx : env.context.Sees S)
    {tenantId : Id} {unheld : List String} {actor : ActorContext} {w : World}
    (h : (assertCapabilities env tenantId unheld actor w).1 = .ok ()) :
    ∀ role ∈ w.db.roles, role.tenantId = some (S.getD tenantId) → role.name ∈ unheld →
      exceeding w.db actor role = [] := by
  intro role hrole htenant hname
  have hok : assertCapabilities env tenantId unheld actor w =
      (.ok (), (assertCapabilities env tenantId unheld actor w).2) := Prod.ext h rfl
  unfold assertCapabilities at hok
  rw [if_neg (List.ne_nil_of_mem hname)] at hok
  rcases Fallible.bind_eq_ok.mp hok with ⟨targetRoles, w₁, hfind, hrest⟩
  have hrun := hfind.symm.trans (TableOf.run_client_findMany hctx (by decide) rfl w)
  rw [inScope_ofTenant S rfl] at hrun
  simp only [Prod.mk.injEq, Except.ok.injEq] at hrun
  rcases hrun with ⟨htargets, rfl⟩
  rcases Fallible.bind_eq_ok.mp hrest with ⟨refused, w₂, hread, hend⟩
  have hrefused := Except.ok.inj (Fallible.reads_eq_ok.mp hread).1
  cases refused with
  | some other => cases hend
  | none =>
      have hmem : role ∈ targetRoles := by
        rw [htargets]
        refine List.mem_filter.mpr ⟨hrole, ?_⟩
        simp [Where.admits, ofTenant, ColumnKey.admits, TenantRow.tenantId, prisma.role, htenant,
          hname]
      have hnot := List.find?_eq_none.mp hrefused role hmem
      simpa using hnot

/-- What the check of an actor that is no platform owner has compared. -/
theorem assertCanGrantRoles_ok {env : UserEnv} {S : Option Id} (hctx : env.context.Sees S)
    {tenantId : Id} {names : List String} {actor : ActorContext}
    (hactor : "PLATFORM_OWNER" ∉ actor.roles) {w : World}
    (h : (assertCanGrantRoles env tenantId names actor w).1 = .ok ()) :
    "PLATFORM_OWNER" ∉ names ∧
      ∀ role ∈ w.db.roles, role.tenantId = some (S.getD tenantId) → role.name ∈ names →
        role.name ∉ actor.roles → exceeding w.db actor role = [] := by
  unfold assertCanGrantRoles at h
  rw [if_neg (by simpa using hactor)] at h
  rcases hrun : (do
      Fallible.throwIf (names.contains "PLATFORM_OWNER")
        (.forbidden ("Access Denied: the PLATFORM_OWNER role cannot be assigned through tenant " ++
          "user management."))
      assertCapabilities env tenantId
        (names.eraseDups.filter fun r => !actor.roles.contains r) actor : Service Unit) w with
    ⟨answer, w'⟩
  rw [hrun] at h
  cases h
  rcases Fallible.throwIf_bind_eq_ok.mp hrun with ⟨hplatform, hcapabilities⟩
  refine ⟨by simpa using hplatform, fun role hrole htenant hname hunheld => ?_⟩
  refine assertCapabilities_ok hctx (congrArg Prod.fst hcapabilities) role hrole htenant ?_
  simp [List.mem_filter, List.mem_eraseDups, hname, hunheld]

/-! ## The session of an account -/

section Sessions

variable {rt : Runtime} {account : LoginAccount}

/-- A role of a session is one of the account, or the one that a login fills in. -/
theorem mem_roleNames_cases {name : String} (h : name ∈ account.roleNames) :
    (∃ role ∈ account.roles, role.1 = name) ∨
      (∀ role ∈ account.roles, role.1 = "") ∧ name = "RESTAURANT_OWNER" := by
  unfold LoginAccount.roleNames at h
  simp only at h
  split at h
  · next hnone =>
      refine Or.inr ⟨fun role hrole => ?_, List.mem_singleton.mp h⟩
      have hnot := List.filter_eq_nil_iff.mp hnone role.1 (List.mem_map_of_mem hrole)
      simpa using hnot
  · rcases List.mem_map.mp (List.mem_filter.mp h).1 with ⟨role, hrole, hname⟩
    exact Or.inl ⟨role, hrole, hname⟩

/-- A permission of a session is one of a role of the account, or one of those that a login fills
in. -/
theorem mem_permissionNames_cases {key : String} (h : key ∈ account.permissionNames rt) :
    (∃ role ∈ account.roles, ∃ p ∈ role.2, Signed p ∧ key = sessionKey rt p) ∨
      (∀ role ∈ account.roles, ∀ p ∈ role.2, ¬Signed p) ∧
        key ∈ ["menu:create", "menu:update", "orders:read"] := by
  unfold LoginAccount.permissionNames at h
  simp only at h
  split at h
  · next hnone =>
      refine Or.inr ⟨fun role hrole p hp hsigned => ?_, h⟩
      have hnot := List.filterMap_eq_nil_iff.mp hnone p (List.mem_flatMap.mpr ⟨role, hrole, hp⟩)
      simp [hsigned.1, hsigned.2] at hnot
  · rcases List.mem_filterMap.mp h with ⟨p, hp, hkey⟩
    rcases List.mem_flatMap.mp hp with ⟨role, hrole, hcarried⟩
    split at hkey
    · next hcomplete =>
        simp only [Bool.and_eq_true, bne_iff_ne, ne_eq] at hcomplete
        cases hkey
        exact Or.inl ⟨role, hrole, p, hcarried, hcomplete, rfl⟩
    · cases hkey

/-- The sessions of accounts with the same links are within the same bounds. -/
theorem within_congr {actor : ActorContext} {db db' : Db} {user user' : User}
    (hroles : db'.roles = db.roles) (hpermissions : db'.permissions = db.permissions)
    (hlinks : user'.roleIds = user.roleIds)
    (h : Within actor ((accountOf db user).profile rt)) :
    Within actor ((accountOf db' user').profile rt) := by
  have hsame : (accountOf db' user').roles = (accountOf db user).roles := by
    unfold accountOf rolesOf permissionsOf
    rw [hroles, hpermissions, hlinks]
  have hnames : (accountOf db' user').roleNames = (accountOf db user).roleNames := by
    unfold LoginAccount.roleNames
    rw [hsame]
  have hkeys : (accountOf db' user').permissionNames rt =
      (accountOf db user).permissionNames rt := by
    unfold LoginAccount.permissionNames
    rw [hsame]
  refine ⟨fun p hp => h.permissions p ?_, fun hrole => h.owner ?_, fun hrole => h.platform ?_⟩
  · show p ∈ (accountOf db user).permissionNames rt
    rw [← hkeys]
    exact hp
  · show _ ∈ (accountOf db user).roleNames
    rw [← hnames]
    exact hrole
  · show _ ∈ (accountOf db user).roleNames
    rw [← hnames]
    exact hrole

/-- The roles of a user that is linked to the roles of a tenant with one of the names. -/
theorem mem_rolesOf_named {db : Db} {T : Id} {user : User} {names : List String}
    (hids : (db.roles.map (·.id)).Nodup)
    (hlinks : ∀ roleId, roleId ∈ user.roleIds ↔ IsNamed db T names roleId) {role : Role} :
    role ∈ rolesOf db user ↔ role ∈ db.roles ∧ role.tenantId = some T ∧ role.name ∈ names := by
  have hfind : ∀ roleId : Id, ∀ role : Role,
      (db.roles.find? fun r => r.id == roleId) = some role ↔
        role ∈ db.roles ∧ (role.id == roleId) = true := by
    intro roleId role
    refine find?_iff_of_unique fun x hx y hy hxid hyid => ?_
    rw [beq_iff_eq] at hxid hyid
    exact List.inj_on_of_nodup_map hids hx hy (hxid.trans hyid.symm)
  simp only [rolesOf, List.mem_filterMap, hfind, beq_iff_eq]
  constructor
  · rintro ⟨roleId, hlink, hrole, rfl⟩
    rcases (hlinks role.id).mp hlink with ⟨stored, hstored, hid, htenant, hname⟩
    rw [List.inj_on_of_nodup_map hids hstored hrole hid] at htenant hname
    exact ⟨hrole, htenant, hname⟩
  · rintro ⟨hrole, htenant, hname⟩
    exact ⟨role.id, (hlinks role.id).mpr ⟨role, hrole, rfl, htenant, hname⟩, hrole, rfl⟩

/-- A permission that does not exceed the actor is one of its own. -/
theorem mem_of_exceeding {db : Db} {actor : ActorContext} {role : Role}
    (h : exceeding db actor role = []) {p : Permission} (hp : p ∈ permissionsOf db role) :
    p.resource ++ ":" ++ p.action ∈ actor.permissions := by
  have hnot := List.filter_eq_nil_iff.mp h _ (List.mem_map_of_mem hp)
  simpa using hnot

/-- The session of a user with the roles of some names, which were granted and leave no room, is
within that of the actor. -/
theorem within_of_named {actor : ActorContext} {db : Db} {T : Id} {user : User}
    {names : List String} (hids : (db.roles.map (·.id)).Nodup)
    (hlinks : ∀ roleId, roleId ∈ user.roleIds ↔ IsNamed db T names roleId)
    (hfound : ∀ name ∈ names, ∃ role ∈ db.roles, role.tenantId = some T ∧ role.name = name)
    (hplatform : "PLATFORM_OWNER" ∉ names)
    (hgranted : ∀ role ∈ db.roles, role.tenantId = some T → role.name ∈ names →
      role.name ∉ actor.roles → exceeding db actor role = [])
    (hdelegable : Delegable rt actor db T names) :
    Within actor ((accountOf db user).profile rt) := by
  have hnamed : ∀ r ∈ (accountOf db user).roles, ∃ role ∈ db.roles, role.tenantId = some T ∧
      role.name ∈ names ∧ r = (role.name, permissionsOf db role) := by
    intro r hr
    rcases List.mem_map.mp hr with ⟨role, hrole, rfl⟩
    rcases (mem_rolesOf_named hids hlinks).mp hrole with ⟨hstored, htenant, hname⟩
    exact ⟨role, hstored, htenant, hname, rfl⟩
  have hheld : ∀ role ∈ db.roles, role.tenantId = some T → role.name ∈ names →
      (role.name, permissionsOf db role) ∈ (accountOf db user).roles := by
    intro role hrole htenant hname
    have hmem : role ∈ rolesOf db user :=
      (mem_rolesOf_named hids hlinks).mpr ⟨hrole, htenant, hname⟩
    exact List.mem_map_of_mem (f := fun role => (role.name, permissionsOf db role)) hmem
  refine ⟨fun key hkey => ?_, fun howner => ?_, fun hplatformOwner => ?_⟩
  · rcases mem_permissionNames_cases hkey with ⟨r, hr, p, hp, hsigned, rfl⟩ | ⟨hnone, hfilled⟩
    · rcases hnamed r hr with ⟨role, hrole, htenant, hname, rfl⟩
      by_cases hown : role.name ∈ actor.roles
      · refine hdelegable.held p ⟨role, hrole, htenant, ?_, hp⟩ hsigned
        exact List.mem_filter.mpr ⟨hname, List.contains_iff_mem.mpr hown⟩
      · exact hdelegable.folded p ⟨role, hrole, htenant, hname, hp⟩ hsigned
          (mem_of_exceeding (hgranted role hrole htenant hname hown) hp)
    · rcases hdelegable.permitted with ⟨p, ⟨role, hrole, htenant, hname, hp⟩, hsigned⟩ | hall
      · exact absurd hsigned (hnone _ (hheld role hrole htenant hname) p hp)
      · exact hall key hfilled
  · rcases mem_roleNames_cases howner with ⟨r, hr, hsame⟩ | ⟨hempty, _⟩
    · rcases hnamed r hr with ⟨role, _, _, hname, rfl⟩
      exact hdelegable.owner (hsame ▸ hname)
    · rcases hdelegable.named with ⟨name, hname, hne⟩ | hown
      · rcases hfound name hname with ⟨role, hrole, htenant, rfl⟩
        exact absurd (hempty _ (hheld role hrole htenant hname)) hne
      · exact hown
  · rcases mem_roleNames_cases hplatformOwner with ⟨r, hr, hsame⟩ | ⟨_, hfilled⟩
    · rcases hnamed r hr with ⟨role, _, _, hname, rfl⟩
      exact absurd (hsame ▸ hname) hplatform
    · exact absurd hfilled (by decide)

end Sessions

/-! ## What a login finds -/

/-- An account that a login finds is that of a user. -/
theorem findAccount_user {env : LoginEnv} {email : String} {tenantId : Option Id}
    {account : LoginAccount} {w w' : World}
    (h : findAccount env email tenantId w = (.ok (some account), w')) :
    ∃ user ∈ w.db.users, account = accountOf w.db user := by
  unfold findAccount at h
  rcases hrun : users.run (prisma.user.findFirst env.toEnv (loginWhere email tenantId)) w with
    ⟨e | _ | user, w₁⟩
  · rw [hrun] at h
    cases h
  · rw [hrun] at h
    cases h
  · rw [hrun] at h
    have hstate : w₁ = w := by
      have hkeep : (users.run (prisma.user.findFirst env.toEnv (loginWhere email tenantId)) w).2 =
          w := TableOf.run_findFirst_state (loginWhere email tenantId) w
      rw [hrun] at hkeep
      exact hkeep
    rcases TableOf.sees_of_run_ok (by decide) hrun with ⟨S, hctx⟩
    have hfind := hrun.symm.trans (TableOf.run_client_findFirst hctx (by decide) rfl w)
    simp only [Prod.mk.injEq, Except.ok.injEq] at hfind
    cases h
    refine ⟨user, List.mem_of_find?_eq_some hfind.1.symm, ?_⟩
    rw [hstate]
    rfl

/-- A login with a database opens the session of a user. -/
theorem validateLogin_user {rt : Runtime} {env : LoginEnv} {email password : String}
    {mfaToken : Option String} {tenantId : Option Id} {profile : LoginProfile} {w w' : World}
    (hdatabase : env.databaseUrl = true)
    (h : validateLogin rt env email password mfaToken tenantId w = (.ok profile, w')) :
    ∃ user ∈ w.db.users, profile = (accountOf w.db user).profile rt := by
  rcases validateLogin_eq_ok h with ⟨account, rfl, _, hfound | ⟨hnone, _⟩, _, _⟩
  · rcases findAccount_user hfound with ⟨user, huser, rfl⟩
    exact ⟨user, huser, rfl⟩
  · rw [hdatabase] at hnone
    cases hnone

/-! ## What the calls keep -/

section Runs

variable {rt : Runtime} {actor : ActorContext} {s : DelegationState}

/-- The unique keys hold, and the roles of a user are roles of its tenant. -/
structure Homed (db : Db) : Prop where
  keyed : Keyed db
  home : ∀ user ∈ db.users, ∀ T, user.tenantId = some T → RolesOfTenant db T user

/-- The users whose password or roles the actor has set log in within its session. -/
structure Bounded (rt : Runtime) (actor : ActorContext) (s : DelegationState) : Prop where
  homed : Homed s.app.world.db
  within : ∀ user ∈ s.app.world.db.users, user.id ∈ s.touched →
    Within actor ((accountOf s.app.world.db user).profile rt)

/-- A call that leaves the database and sets nothing. -/
theorem Bounded.of_world (h : Bounded rt actor s) {s' : DelegationState}
    (hworld : s'.app.world = s.app.world) (htouched : s'.touched = s.touched) :
    Bounded rt actor s' := by
  refine ⟨?_, ?_⟩
  · rw [hworld]
    exact h.homed
  · rw [hworld, htouched]
    exact h.within

/-- A creation of a user with roles that leave no room. -/
theorem Bounded.created (h : Bounded rt actor s) (hactor : "PLATFORM_OWNER" ∉ actor.roles)
    {env : UserEnv} {dto : CreateUserRequestDto} {tenantId : Option Id}
    (hdelegates : DelegatesRoles rt actor env tenantId (dto.roles.getD []) s.app.world) :
    Bounded rt actor (s.created (createUser rt env dto tenantId actor s.app)) := by
  rcases createUser_runs rt env dto tenantId actor s.app with
    ⟨e, s', hthrew, hworld⟩ | ⟨T, user, s', hinput, hgranted, hinsert, hrun⟩
  · rw [hthrew]
    refine h.of_world hworld ?_
    show (s'.world.db.users.map (·.id)).filter _ ++ s.touched = s.touched
    rw [hworld, List.filter_eq_nil_iff.mpr fun id hid => by simpa using hid, List.nil_append]
  rcases insertUser_eq_ok hinsert with
    ⟨S, roleIds, branchIds, _, hctx, ⟨⟩, hrow, _, hroles, _, hworld, hids⟩
  rw [hrun]
  have hlinks : ∀ roleId, roleId ∈ user.roleIds ↔
      IsNamed s.app.world.db (S.getD T) (dto.roles.getD []) roleId := by
    intro roleId
    rw [show user.roleIds = roleIds by rw [hrow]; rfl, resolveRoleIds_eq_ok hctx hroles]
    exact mem_namedRoles
  have hplace : user.tenantId = some (S.getD T) := by rw [hrow]; rfl
  have hdb : s'.world.db = { s.app.world.db with users := s.app.world.db.users ++ [user] } := by
    rw [hworld]
  have hsameRoles : s'.world.db.roles = s.app.world.db.roles := by rw [hdb]
  have hsamePermissions : s'.world.db.permissions = s.app.world.db.permissions := by rw [hdb]
  refine ⟨?_, ?_⟩
  · show Homed s'.world.db
    rw [hdb]
    refine ⟨⟨hids, h.homed.keyed.roles, h.homed.keyed.roleNames⟩, fun u hu T' htenant => ?_⟩
    rcases List.mem_append.mp hu with hold | hadded
    · exact h.homed.home u hold T' htenant
    · rw [List.mem_singleton.mp hadded] at htenant ⊢
      intro roleId hlink
      rcases (hlinks roleId).mp hlink with ⟨role, hrole, hid, hrow, _⟩
      exact ⟨role, hrole, hid, hrow.trans (hplace.symm.trans htenant)⟩
  · intro u hu htouched
    have hu' : u ∈ s.app.world.db.users ++ [user] := by
      have hmem : u ∈ s'.world.db.users := hu
      rw [hdb] at hmem
      exact hmem
    rcases List.mem_append.mp hu' with hold | hadded
    · rcases List.mem_append.mp htouched with hfresh | hknown
      · have hnot := (List.mem_filter.mp hfresh).2
        have hmem : u.id ∈ s.app.world.db.users.map (·.id) := List.mem_map_of_mem hold
        simp [hmem] at hnot
      · exact within_congr hsameRoles hsamePermissions rfl (h.within u hold hknown)
    · rw [List.mem_singleton.mp hadded]
      rcases assertCanGrantRoles_ok hctx hactor hgranted with ⟨hplatform, hcompared⟩
      exact within_congr hsameRoles hsamePermissions rfl
        (within_of_named h.homed.keyed.roles hlinks (resolveRoleIds_found hctx hroles) hplatform
          hcompared (hdelegates T S hinput hctx hgranted))

section Replacement

variable {env : UserEnv} {dto : UpdateUserRequestDto} {T : Id} {db db' : Db} {user user' : User}

theorem Replaced.id (h : Replaced rt env dto T db db' user user') : user'.id = user.id := by
  rw [h.columns]
  rfl

theorem Replaced.tenantId (h : Replaced rt env dto T db db' user user') :
    user'.tenantId = user.tenantId := by
  rw [h.columns]
  rfl

/-- An update leaves the roles, their permissions, and which users there are. -/
theorem Replaced.leaves (h : Replaced rt env dto T db db' user user') :
    db'.roles = db.roles ∧ db'.permissions = db.permissions ∧
      db'.users.map (·.id) = db.users.map (·.id) := by
  refine ⟨by rw [h.others], by rw [h.others], ?_⟩
  rw [h.others, List.map_map]
  refine List.map_congr_left fun u _ => ?_
  show (if u.id = user.id then user' else u).id = u.id
  split
  · next hsame => exact h.id.trans hsame.symm
  · rfl

/-- A user after an update is the one that it was about, or another as before. -/
theorem Replaced.mem_users (h : Replaced rt env dto T db db' user user') {u : User}
    (hu : u ∈ db'.users) : u = user' ∨ u ∈ db.users ∧ u.id ≠ user.id := by
  rw [h.others] at hu
  rcases List.mem_map.mp hu with ⟨v, hv, rfl⟩
  by_cases hsame : v.id = user.id
  · exact Or.inl (if_pos hsame)
  · rw [if_neg hsame]
    exact Or.inr ⟨hv, hsame⟩

/-- The roles that an update links are roles of the tenant. -/
theorem Replaced.rolesOfTenant (h : Replaced rt env dto T db db' user user')
    (hhome : RolesOfTenant db T user) : RolesOfTenant db T user' := by
  intro roleId hlink
  cases hnames : dto.roles with
  | none =>
      rw [h.rolesKept hnames] at hlink
      exact hhome roleId hlink
  | some names =>
      rcases ((h.roles names hnames).1 roleId).mp hlink with ⟨role, hrole, hsame, hof, _⟩
      exact ⟨role, hrole, hsame, hof⟩

/-- An update keeps the users with the roles of their tenants. -/
theorem Homed.replaced (hhomed : Homed db) (h : Replaced rt env dto T db db' user user')
    (huser : user ∈ db.users) (hplace : user.tenantId = some T) : Homed db' := by
  rcases h.leaves with ⟨hroles, _, hids⟩
  refine ⟨⟨hids ▸ hhomed.keyed.users, hroles ▸ hhomed.keyed.roles,
    hroles ▸ hhomed.keyed.roleNames⟩, fun u hu T' hplaced => ?_⟩
  have hlinked : RolesOfTenant db T' u := by
    rcases h.mem_users hu with rfl | ⟨hold, _⟩
    · have hT : T' = T := Option.some.inj (hplaced.symm.trans (h.tenantId.trans hplace))
      rw [hT]
      exact h.rolesOfTenant (hhomed.home user huser T hplace)
    · exact hhomed.home u hold T' hplaced
  intro roleId hlink
  rcases hlinked roleId hlink with ⟨role, hrole, hrest⟩
  exact ⟨role, hroles ▸ hrole, hrest⟩

end Replacement

/-- An update with roles that leave no room, or with a password for a user that is within the
session of the actor. -/
theorem Bounded.updated (h : Bounded rt actor s) (hactor : "PLATFORM_OWNER" ∉ actor.roles)
    {env : UserEnv} {id : Id} {dto : UpdateUserRequestDto} {tenantId : Option Id}
    (hroles : ∀ names, dto.roles = some names →
      DelegatesRoles rt actor env tenantId names s.app.world)
    (hpassword : dto.roles = none → truthy dto.password = true →
      DelegatesPassword rt actor env id tenantId s.app.world) :
    Bounded rt actor (s.updated id dto (updateUser rt env id dto tenantId actor s.app)) := by
  rcases updateUser_runs rt env id dto tenantId actor s.app with ⟨e, s', hthrew, hworld⟩ |
    ⟨r, s', T, S, user, hrun, _, hinput, hctx, huser, rfl, hplace, hlive, hgranted, htx⟩
  · rw [hthrew]
    exact h.of_world hworld rfl
  rw [hrun]
  rcases updateStatements_replaced hctx h.homed.keyed huser hplace
    (h.homed.home user huser _ hplace) (updateTransaction_ok htx) with ⟨user', hreplaced⟩
  rcases hreplaced.leaves with ⟨hsameRoles, hsamePermissions, _⟩
  refine ⟨h.homed.replaced hreplaced huser hplace, fun u hu htouched => ?_⟩
  have htouched' : u.id ∈ if dto.sets then user.id :: s.touched else s.touched := htouched
  rcases hreplaced.mem_users hu with rfl | ⟨hold, hother⟩
  · cases hnames : dto.roles with
    | some names =>
        rw [hnames] at hgranted
        rcases assertCanGrantRoles_ok hctx hactor hgranted with ⟨hplatform, hcompared⟩
        exact within_congr hsameRoles hsamePermissions rfl
          (within_of_named h.homed.keyed.roles (hreplaced.roles names hnames).1
            (hreplaced.roles names hnames).2 hplatform hcompared
            (hroles names hnames T S hinput hctx hgranted))
    | none =>
        refine within_congr hsameRoles hsamePermissions (hreplaced.rolesKept hnames) ?_
        cases hgiven : truthy dto.password with
        | true => exact hpassword hnames hgiven T S hinput hctx user huser rfl hplace hlive
        | false =>
            have hsets : dto.sets = false := by
              unfold UpdateUserRequestDto.sets
              rw [hnames, hgiven]
              rfl
            rw [hsets, if_neg Bool.false_ne_true, hreplaced.id] at htouched'
            exact h.within user huser htouched'
  · have hknown : u.id ∈ s.touched := by
      split at htouched'
      · exact (List.mem_cons.mp htouched').resolve_left hother
      · exact htouched'
    exact within_congr hsameRoles hsamePermissions rfl (h.within u hold hknown)

/-- A call that meets the condition keeps the sessions of the users that it sets within that of
the actor. -/
theorem bounded_step (h : Bounded rt actor s) (hactor : "PLATFORM_OWNER" ∉ actor.roles)
    {a : DelegationAction} (ha : Delegates rt actor a s) :
    Bounded rt actor ((delegationMachine rt actor).step a s).2 := by
  cases a with
  | createUser env dto tenantId => exact h.created hactor ha
  | updateUser env id dto tenantId =>
      refine h.updated hactor (fun names hnames => ?_) fun hnone hgiven => ?_
      · simp only [Delegates, hnames] at ha
        exact ha
      · simp only [Delegates, hnone] at ha
        exact ha hgiven
  | assignRoles env id roleNames tenantId =>
      have hupdated := @Bounded.updated rt actor s h hactor env id { roles := some roleNames }
        tenantId
      refine hupdated ?_ ?_
      · rintro names ⟨⟩
        exact ha
      · rintro ⟨⟩
  | assignBranches env id branchIds tenantId =>
      have hupdated := @Bounded.updated rt actor s h hactor env id { branchIds := some branchIds }
        tenantId
      refine hupdated ?_ ?_
      · rintro names ⟨⟩
      · rintro _ ⟨⟩

/-- An actor that is no platform owner, and a database whose users have the roles of their own
tenants: where every call of the actor meets the condition, every login of a user whose password or
roles it has set opens a session within its own, after each of the calls. -/
theorem no_escalation (rt : Runtime) (actor : ActorContext)
    (hactor : "PLATFORM_OWNER" ∉ actor.roles) (as : List DelegationAction) (s : DelegationState)
    (hnone : s.touched = []) (hhomed : Homed s.app.world.db)
    (hall : (delegationMachine rt actor).EachStep (Delegates rt actor) as s) :
    ∀ done, done <+: as → NoEscalation rt actor ((delegationMachine rt actor).exec done s) := by
  rintro done ⟨rest, rfl⟩
  have hstart : Bounded rt actor s := by
    refine ⟨hhomed, fun user _ htouched => ?_⟩
    rw [hnone] at htouched
    cases htouched
  have hbounded : Bounded rt actor ((delegationMachine rt actor).exec done s) :=
    (delegationMachine rt actor).exec_of_eachStep (I := Bounded rt actor)
      (fun _ _ _ h ha => bounded_step h hactor ha) hstart
      ((delegationMachine rt actor).eachStep_append done rest s |>.mp hall).1
  intro env email password mfaToken tenantId profile w hdatabase hlogin htouched
  rcases validateLogin_user hdatabase hlogin with ⟨user, huser, rfl⟩
  exact hbounded.within user huser htouched

end Runs

/-! ## A manager -/

/-- A restaurant with a manager, who may read orders and create users. -/
def managedDb : Db where
  tenants := [{ id := "t1", name := "Trattoria" }]
  permissions := [{ id := "p1", action := "read", resource := "order" },
    { id := "p2", action := "create", resource := "user" }]
  roles := [
    { id := "r1", tenantId := some "t1", name := "CHEF", displayName := "Chef"
      permissionIds := ["p1"] },
    { id := "r2", tenantId := some "t1", name := "MANAGER", displayName := "Manager"
      permissionIds := ["p1", "p2"] }]
  users := [{ id := "u1", tenantId := some "t1", firstName := "Gina", lastName := "M"
              email := "gina@example.com", passwordHash := "salt$timo", roleIds := ["r2"] }]

def managedState : DelegationState where
  app := { world := { db := managedDb }, sessions := cookStaff.sessions }

/-- The session of the manager. -/
def gina : ActorContext where
  id := "u1"
  roles := ["MANAGER"]
  permissions := ["order:read", "user:create"]

def ginaEnv : UserEnv where
  context := { tenantId := some "t1" }
  uuid _ := "u2"
  now := 1700000000000
  salt := "salt"

/-- The manager creates a user with some roles. -/
def ginaHires (roleNames : List String) : DelegationAction :=
  .createUser ginaEnv { firstName := "Carlo", lastName := "C", email := "carlo@example.com"
                        password := "basilico", roles := some roleNames } (some "t1")

theorem chef_delegable : Delegable plainRuntime gina managedDb "t1" ["CHEF"] := by
  have hown : ∀ role ∈ managedDb.roles, role.name ∈ ["CHEF"] →
      ∀ p ∈ permissionsOf managedDb role, sessionKey plainRuntime p ∈ gina.permissions := by
    decide +kernel
  refine ⟨Or.inl ⟨"CHEF", by decide, by decide⟩, fun h => absurd h (by decide), Or.inl ?_, ?_, ?_⟩
  · exact ⟨{ id := "p1", action := "read", resource := "order" },
      ⟨_, List.mem_cons_self, rfl, List.mem_singleton_self _, by decide +kernel⟩, by decide,
      by decide⟩
  · rintro p ⟨role, hrole, _, hname, hp⟩ _
    exact hown role hrole (List.mem_filter.mp hname).1 p hp
  · rintro p ⟨role, hrole, _, hname, hp⟩ _ _
    exact hown role hrole hname p hp

/-- The chef that the manager hires logs in within the session of the manager. -/
theorem chef_within :
    NoEscalation plainRuntime gina ((delegationMachine plainRuntime gina).exec
        [ginaHires ["CHEF"], .assignBranches ginaEnv "u2" [] (some "t1")] managedState) ∧
      ((delegationMachine plainRuntime gina).exec
        [ginaHires ["CHEF"], .assignBranches ginaEnv "u2" [] (some "t1")] managedState).touched =
          ["u2"] := by
  refine ⟨?_, by decide +kernel⟩
  refine no_escalation plainRuntime gina (by decide) [ginaHires ["CHEF"],
    .assignBranches ginaEnv "u2" [] (some "t1")] managedState rfl ?_ ⟨?_, trivial, trivial⟩ _
    (List.prefix_refl _)
  · refine ⟨⟨by decide, by decide, by decide⟩, fun user huser T hplace => ?_⟩
    rw [List.mem_singleton.mp huser] at hplace ⊢
    cases hplace
    unfold RolesOfTenant
    decide
  · rintro _ S ⟨⟩ hctx _
    have hscope : S = some "t1" := hctx.unique ⟨rfl, by decide⟩
    rw [hscope]
    exact chef_delegable

/-- A user that the manager hires without a role logs in as an owner. -/
example : ((validateLogin plainRuntime { ginaEnv.toEnv with } "carlo@example.com" "basilico" none
    none ((delegationMachine plainRuntime gina).exec [ginaHires []]
      managedState).app.world).1.toOption.map (·.roles)) = some ["RESTAURANT_OWNER"] := by
  decide +kernel

end UserService
end Eleva
