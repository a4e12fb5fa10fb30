import Eleva.User.BranchScope

/-!
# User - An update replaces sets

An update of a user reads the roles and branches that the user has, and writes the difference to
those that are asked for.  The roles are asked for by name and linked by id; the branches that
are read are those that are not deleted.

Main results:

- Theorem {lit}`updateUser_replaces`: an update that answers has set what it names and nothing
  else, and one that throws, as it does when the sessions cannot be revoked, has left the
  database.
-/

namespace Eleva
namespace UserService

open Foundation Database Auth TableOf

/-! ## What an update asks for -/

/-- The columns of a user after an update: those that it names are as it says, and a password
that is empty is not named. -/
def requestedColumns (rt : Runtime) (env : UserEnv) (dto : UpdateUserRequestDto) (u : User) :
    User :=
  { u with
    firstName := dto.firstName.getD u.firstName
    lastName := dto.lastName.getD u.lastName
    email := (dto.email.map rt.normalizedEmail).getD u.email
    phoneNumber := dto.phoneNumber.or u.phoneNumber
    isActive := dto.isActive.getD u.isActive
    passwordHash := if truthy dto.password then
      rt.hashPassword (dto.password.getD "") env.salt else u.passwordHash }

/-- A role of the tenant with one of the names. -/
def IsNamed (db : Db) (T : Id) (names : List String) (roleId : Id) : Prop :=
  ∃ role ∈ db.roles, role.id = roleId ∧ role.tenantId = some T ∧ role.name ∈ names

/-- All roles of a user are roles of the tenant. -/
def RolesOfTenant (db : Db) (T : Id) (user : User) : Prop :=
  ∀ roleId ∈ user.roleIds, ∃ role ∈ db.roles, role.id = roleId ∧ role.tenantId = some T

/-- The unique keys of the tables that an update reads. -/
structure Keyed (db : Db) : Prop where
  users : (db.users.map (·.id)).Nodup
  roles : (db.roles.map (·.id)).Nodup
  roleNames : ∀ role ∈ db.roles, ∀ other ∈ db.roles, role.tenantId.isSome = true →
    role.tenantId = other.tenantId → role.name = other.name → role = other

/-- The tenant that a call acts in: that of its context, or else the one that it names. -/
def ActsIn (env : UserEnv) (tenantIdInput : Option Id) (T : Id) : Prop :=
  ∃ S tenantId, env.context.Sees S ∧ tenantIdInput = some tenantId ∧ T = S.getD tenantId

/-- What an update has done to a user between two databases: the columns, roles and live branches
that it names are as it says, and everything else is as before. -/
structure Replaced (rt : Runtime) (env : UserEnv) (dto : UpdateUserRequestDto) (T : Id)
    (db db' : Db) (user user' : User) : Prop where
  others : db' = { db with users := db.users.map fun u => if u.id = user.id then user' else u }
  columns : user' = { requestedColumns rt env dto user with
    roleIds := user'.roleIds
    branchIds := user'.branchIds }
  rolesKept : dto.roles = none → user'.roleIds = user.roleIds
  roles : ∀ names, dto.roles = some names →
    (∀ roleId, roleId ∈ user'.roleIds ↔ IsNamed db T names roleId) ∧
      ∀ name ∈ names, ∃ role ∈ db.roles, role.tenantId = some T ∧ role.name = name
  branchesKept : dto.branchIds = none → user'.branchIds = user.branchIds
  branches : ∀ ids, dto.branchIds = some ids →
    ∀ id, id ∈ liveBranchIds db user' ↔ id ∈ ids

/-! ## The columns -/

/-- The columns that an update sets are those that it names. -/
theorem columnsData_requested (rt : Runtime) (env : UserEnv) (dto : UpdateUserRequestDto)
    (u : User) : assignOf (columnsData rt env dto) u = requestedColumns rt env dto u := by
  unfold columnsData
  split
  · rfl
  · next hnone =>
      simp only [Bool.or_eq_true, not_or, Bool.not_eq_true, Option.isSome_eq_false_iff,
        Option.isNone_iff_eq_none] at hnone
      rcases hnone with ⟨⟨⟨⟨⟨hfirst, hlast⟩, hemail⟩, hphone⟩, hactive⟩, hpassword⟩
      simp [assignOf, requestedColumns, hfirst, hlast, hemail, hphone, hactive, hpassword]

/-! ## The roles -/

/-- The ids of the roles of the tenant with one of the names. -/
def namedRoles (roles : List Role) (T : Id) (names : List String) : List Id :=
  (roles.filter fun r => r.tenantId == some T && names.contains r.name).map (·.id)

theorem mem_namedRoles {db : Db} {T : Id} {names : List String} {roleId : Id} :
    roleId ∈ namedRoles db.roles T names ↔ IsNamed db T names roleId := by
  simp only [namedRoles, IsNamed, List.mem_map, List.mem_filter, Bool.and_eq_true, beq_iff_eq,
    List.contains_iff_mem]
  constructor
  · rintro ⟨role, ⟨hrole, htenant, hname⟩, hid⟩
    exact ⟨role, hrole, hid, htenant, hname⟩
  · rintro ⟨role, hrole, hid, htenant, hname⟩
    exact ⟨role, ⟨hrole, htenant, hname⟩, hid⟩

/-- Names that were resolved are names of roles of the tenant. -/
theorem resolveRoleIds_found {env : UserEnv} {S : Option Id} {tenantId : Id}
    {roleNames : List String} {ids : List Id} {w w' : World} (hctx : env.context.Sees S)
    (h : resolveRoleIds env tenantId roleNames w = (.ok ids, w')) :
    ∀ name ∈ roleNames, ∃ role ∈ w.db.roles, role.tenantId = some (S.getD tenantId) ∧
      role.name = name := by
  intro name hname
  unfold resolveRoleIds at h
  split at h
  · next hnone =>
      have hmem := List.mem_eraseDups.mpr hname
      rw [hnone] at hmem
      cases hmem
  · rcases Fallible.bind_eq_ok.mp h with ⟨found, w₁, hfind, hrest⟩
    rcases Fallible.throwIf_bind_eq_ok.mp hrest with ⟨hmissing, _⟩
    have hrun := hfind.symm.trans (TableOf.run_client_findMany hctx (by decide) rfl w)
    rw [inScope_ofTenant S rfl] at hrun
    simp only [Prod.mk.injEq, Except.ok.injEq] at hrun
    have hempty : (roleNames.eraseDups.filter fun n => !found.any fun r => r.name == n) = [] := by
      simpa using hmissing
    have hany := List.filter_eq_nil_iff.mp hempty name (List.mem_eraseDups.mpr hname)
    simp only [Bool.not_eq_true, Bool.not_eq_false', List.any_eq_true, beq_iff_eq] at hany
    rcases hany with ⟨role, hrole, hsame⟩
    rw [hrun.1] at hrole
    rcases List.mem_filter.mp hrole with ⟨hmem, hadmits⟩
    simp only [Where.admits, ofTenant, ColumnKey.admits, Bool.and_eq_true, beq_iff_eq] at hadmits
    exact ⟨role, hmem, hadmits.1.1.2, hsame⟩

/-- The role replacement of an update exchanges the roles of the names that were read for those
of the names that are asked for. -/
theorem updateRoles_exchange {env : UserEnv} {S : Option Id} {tenantId : Id}
    {dto : UpdateUserRequestDto} {current : UserResponse} {data : Option UserData} {w w' : World}
    (hctx : env.context.Sees S) (h : updateRoles env tenantId dto current w = (.ok data, w')) :
    (dto.roles = none → ∀ u, assignOf data u = u) ∧
      ∀ names, dto.roles = some names →
        (∀ u, assignOf data u =
          { u with
            roleIds := exchange (namedRoles w.db.roles (S.getD tenantId) current.roles)
              (namedRoles w.db.roles (S.getD tenantId) names) u.roleIds }) ∧
          ∀ name ∈ names, ∃ role ∈ w.db.roles, role.tenantId = some (S.getD tenantId) ∧
            role.name = name := by
  unfold updateRoles at h
  cases hroles : dto.roles with
  | none =>
      rw [hroles] at h
      cases h
      refine ⟨fun _ _ => rfl, ?_⟩
      rintro names ⟨⟩
  | some names =>
      rw [hroles] at h
      rcases Fallible.bind_eq_ok.mp h with ⟨desired, w₁, hdesired, hrest⟩
      have hw₁ : w₁ = w := by
        have hkeep := Fallible.Keeps.state_eq (s := w)
          (resolveRoleIds_keeps (I := fun s => s = w) env tenantId names)
        rw [hdesired] at hkeep
        exact hkeep
      have hids : desired = namedRoles w.db.roles (S.getD tenantId) names :=
        resolveRoleIds_eq_ok hctx hdesired
      have hfound := resolveRoleIds_found hctx hdesired
      rw [hw₁] at hrest
      rcases Fallible.bind_eq_ok.mp hrest with ⟨rows, w₂, hfind, hpure⟩
      have hrun := hfind.symm.trans (TableOf.run_client_findMany hctx (by decide) rfl w)
      rw [inScope_ofTenant S rfl] at hrun
      simp only [Prod.mk.injEq, Except.ok.injEq] at hrun
      have hcurrent : rows.map (·.id) = namedRoles w.db.roles (S.getD tenantId) current.roles := by
        rw [hrun.1]
        unfold namedRoles
        congr 1
        apply List.filter_congr
        intro r _
        simp [Where.admits, ofTenant, ColumnKey.admits, prisma.role]
        rfl
      cases hpure
      refine ⟨?_, ?_⟩
      · rintro ⟨⟩
      · rintro names' ⟨⟩
        refine ⟨fun u => ?_, hfound⟩
        rw [hcurrent, hids]
        split
        · rfl
        · next hnothing =>
            simp only [Bool.or_eq_true, bne_iff_ne, ne_eq, not_or, not_not] at hnothing
            simp only [assignOf, exchange]
            rw [hnothing.1, hnothing.2]
            simp

/-- The names of the roles that were read of a user whose roles are of the tenant. -/
theorem mem_roleNames {db : Db} {T : Id} {user : User} (hkeys : Keyed db)
    (hroles : RolesOfTenant db T user) {name : String} :
    name ∈ (rolesOf db user).map (·.name) ↔
      ∃ role ∈ db.roles, role.id ∈ user.roleIds ∧ role.tenantId = some T ∧ role.name = name := by
  have hfind : ∀ roleId : Id, ∀ role : Role,
      (db.roles.find? fun r => r.id == roleId) = some role ↔
        role ∈ db.roles ∧ (role.id == roleId) = true := by
    intro roleId role
    refine find?_iff_of_unique fun x hx y hy hxid hyid => ?_
    rw [beq_iff_eq] at hxid hyid
    exact List.inj_on_of_nodup_map hkeys.roles hx hy (hxid.trans hyid.symm)
  simp only [rolesOf, List.mem_map, List.mem_filterMap, hfind, beq_iff_eq]
  constructor
  · rintro ⟨role, ⟨roleId, hlink, hrole, rfl⟩, hname⟩
    rcases hroles role.id hlink with ⟨stored, hstored, hid, htenant⟩
    have hsame : stored = role := List.inj_on_of_nodup_map hkeys.roles hstored hrole hid
    exact ⟨role, hrole, hlink, hsame ▸ htenant, hname⟩
  · rintro ⟨role, hrole, hlink, _, hname⟩
    exact ⟨role, ⟨role.id, hlink, hrole, rfl⟩, hname⟩

/-- An exchange of the roles of a user whose roles are of the tenant leaves those that are asked
for. -/
theorem mem_exchange_roles {db : Db} {T : Id} {user : User} {names : List String}
    (hkeys : Keyed db) (hroles : RolesOfTenant db T user) {roleId : Id} :
    roleId ∈ exchange (namedRoles db.roles T ((rolesOf db user).map (·.name)))
        (namedRoles db.roles T names) user.roleIds ↔ IsNamed db T names roleId := by
  have hvisible : ∀ id ∈ user.roleIds, True →
      id ∈ namedRoles db.roles T ((rolesOf db user).map (·.name)) := by
    intro id hid _
    rcases hroles id hid with ⟨role, hrole, rfl, htenant⟩
    exact mem_namedRoles.mpr ⟨role, hrole, rfl, htenant,
      (mem_roleNames hkeys hroles).mpr ⟨role, hrole, hid, htenant, rfl⟩⟩
  have hknown : ∀ id ∈ namedRoles db.roles T names,
      id ∈ namedRoles db.roles T ((rolesOf db user).map (·.name)) → id ∈ user.roleIds := by
    intro id _ hcurrent
    rcases mem_namedRoles.mp hcurrent with ⟨role, hrole, rfl, htenant, hname⟩
    rcases (mem_roleNames hkeys hroles).mp hname with
      ⟨held, hheld, hlink, hheldTenant, hheldName⟩
    have hsame := hkeys.roleNames held hheld role hrole (by rw [hheldTenant]; rfl)
      (hheldTenant.trans htenant.symm) hheldName
    exact hsame ▸ hlink
  rw [mem_exchange hvisible hknown trivial, mem_namedRoles]

/-! ## The branches -/

/-- Branches that were checked are live. -/
theorem assertBranchesInTenant_live {env : UserEnv} {tenantId : Id} {branchIds ids : List Id}
    {w w' : World} (h : assertBranchesInTenant env tenantId branchIds w = (.ok ids, w')) :
    ∀ id ∈ branchIds, IsLive w.db id := by
  intro id hid
  unfold assertBranchesInTenant at h
  split at h
  · next hnone =>
      have hmem := List.mem_eraseDups.mpr hid
      rw [hnone] at hmem
      cases hmem
  · rcases Fallible.bind_eq_ok.mp h with ⟨found, w₁, hfind, hrest⟩
    rcases Fallible.throwIf_bind_eq_ok.mp hrest with ⟨hmissing, _⟩
    rcases TableOf.sees_of_run_ok (by decide) hfind with ⟨S, hctx⟩
    have hrun := hfind.symm.trans (TableOf.run_client_findMany hctx (by decide) rfl w)
    rw [inScope_ofTenant S rfl] at hrun
    simp only [Prod.mk.injEq, Except.ok.injEq] at hrun
    have hempty : (branchIds.eraseDups.filter fun id => !found.any fun b => b.id == id) = [] := by
      simpa using hmissing
    have hany := List.filter_eq_nil_iff.mp hempty id (List.mem_eraseDups.mpr hid)
    simp only [Bool.not_eq_true, Bool.not_eq_false', List.any_eq_true, beq_iff_eq] at hany
    rcases hany with ⟨branch, hbranch, hsame⟩
    rw [hrun.1] at hbranch
    rcases List.mem_filter.mp hbranch with ⟨hmem, hadmits⟩
    simp only [Where.admits, ofTenant, ColumnKey.admits, Bool.and_eq_true] at hadmits
    exact ⟨branch, hmem, hsame, by simpa [prisma.branch] using hadmits.1.2⟩

/-- The branch replacement of an update rewrites the links of live branches. -/
theorem updateBranches_exact {env : UserEnv} {tenantId : Id} {dto : UpdateUserRequestDto}
    {current : UserResponse} {data : Option UserData} {w w' : World}
    (h : updateBranches env tenantId dto current w = (.ok data, w')) :
    (∀ u, assignOf data u =
      { u with branchIds := replacedLinks current.branchIds dto.branchIds u.branchIds }) ∧
    ∀ ids, dto.branchIds = some ids → ∀ id ∈ ids, IsLive w.db id := by
  have hlinks := (updateBranches_ok h).2.1
  unfold updateBranches at h
  cases hids : dto.branchIds with
  | none =>
      rw [hids] at h
      cases h
      refine ⟨fun _ => rfl, ?_⟩
      rintro ids ⟨⟩
  | some ids =>
      rw [hids] at h hlinks
      rcases Fallible.bind_eq_ok.mp h with ⟨desired, w₁, hcheck, hpure⟩
      cases hpure
      refine ⟨fun u => ?_, ?_⟩
      · rw [← hlinks u]
        split <;> rfl
      · rintro ids' ⟨⟩
        exact assertBranchesInTenant_live hcheck

/-! ## The update -/

/-- The statements of an update replace what it names. -/
theorem updateStatements_replaced {rt : Runtime} {env : UserEnv} {S : Option Id}
    (hctx : env.context.Sees S) {tenantId : Id} {dto : UpdateUserRequestDto} {user : User}
    {w w' : World} (hkeys : Keyed w.db) (huser : user ∈ w.db.users)
    (hplace : user.tenantId = some (S.getD tenantId))
    (hroles : RolesOfTenant w.db (S.getD tenantId) user)
    (h : updateStatements rt env tenantId user.id dto (toResponse w.db user) w = (.ok (), w')) :
    ∃ user', Replaced rt env dto (S.getD tenantId) w.db w'.db user user' := by
  rcases updateStatements_parts hctx h with
    ⟨newRoles, newBranches, w₂, w₄, hnewRoles, hsameRoles, hnewBranches, hsameBranches, hwrite⟩
  rcases updateRoles_exchange hctx hnewRoles with ⟨hrolesKept, hrolesSet⟩
  rcases updateBranches_exact hnewBranches with ⟨hlinks, hlive⟩
  rw [hsameRoles] at hrolesSet
  have hcolumns := columnsData_requested rt env dto user
  have hlast := hlinks (assignOf newRoles (requestedColumns rt env dto user))
  have hother : (assignOf newRoles (requestedColumns rt env dto user)) =
      { requestedColumns rt env dto user with
        roleIds := (assignOf newRoles (requestedColumns rt env dto user)).roleIds } := by
    cases hnames : dto.roles with
    | none => rw [hrolesKept hnames]
    | some names => rw [(hrolesSet names hnames).1]
  have hown : ∀ u ∈ w.db.users, ownRow S user.id u = true ↔ u.id = user.id := by
    intro u hu
    constructor
    · intro hmine
      simp only [ownRow, Bool.and_eq_true, beq_iff_eq, TenantRow.id] at hmine
      exact hmine.1.symm
    · intro hid
      rw [List.inj_on_of_nodup_map hkeys.users hu huser hid]
      exact ownRow_of_place rfl hplace
  refine ⟨assignOf newBranches (assignOf newRoles (requestedColumns rt env dto user)), ?_⟩
  refine
    { others := ?_
      columns := ?_
      rolesKept := fun hnone => ?_
      roles := fun names hnames => ⟨fun roleId => ?_, (hrolesSet names hnames).2⟩
      branchesKept := fun hnone => ?_
      branches := fun ids hids id => ?_ }
  · rw [show w' = _ from hwrite]
    simp only
    congr 1
    apply List.map_congr_left
    intro u hu
    by_cases hid : u.id = user.id
    · rw [if_pos hid, if_pos ((hown u hu).mpr hid),
        List.inj_on_of_nodup_map hkeys.users hu huser hid, hcolumns]
    · rw [if_neg hid, if_neg fun hmine => hid ((hown u hu).mp hmine)]
  · rw [hlast, hother]
  · rw [hlast, hrolesKept hnone]
    rfl
  · rw [hlast, (hrolesSet names hnames).1]
    exact mem_exchange_roles hkeys hroles
  · rw [hlast, hnone, hother]
    rfl
  · have hliveIds : ∀ id ∈ ids, IsLive w.db id := fun id hid => by
      rcases hlive ids hids id hid with ⟨branch, hbranch, hlives⟩
      exact ⟨branch, hsameBranches ▸ hbranch, hlives⟩
    rw [mem_liveBranchIds, hlast, hids, hother]
    constructor
    · rintro ⟨hmem, hlives⟩
      exact (mem_replacedLinks_iff hlives).mp hmem
    · intro hid
      exact ⟨(mem_replacedLinks_iff (hliveIds id hid)).mpr hid, hliveIds id hid⟩

/-- Sessions that cannot be revoked make an update throw, if it is relevant to them. -/
theorem updateTransaction_revokes {rt : Runtime} {env : UserEnv} {tenantId id : Id}
    {dto : UpdateUserRequestDto} {current : UserResponse} {s s' : AppState}
    (hrelevant : dto.securityRelevant = true) (hfails : env.revocationFails = true) :
    updateTransaction rt env tenantId id dto current s ≠ (.ok (), s') := by
  intro h
  rcases Fallible.bind_eq_ok.mp h with ⟨_, s₁, _, hrest⟩
  rcases Fallible.bind_eq_ok.mp hrest with ⟨_, s₂, _, hrevoke⟩
  rw [if_pos hrelevant] at hrevoke
  unfold revokeSessions at hrevoke
  rw [if_pos hfails] at hrevoke
  cases hrevoke

/-- An update of a user whose roles are of the tenant: when it answers, the columns, roles and
live branches that it names are as it says, and the user's other columns and sets and all other
rows are as before.  When it throws the database is as before, and it throws when the sessions
have to be revoked and cannot be. -/
theorem updateUser_replaces (rt : Runtime) (env : UserEnv) (id : Id) (dto : UpdateUserRequestDto)
    (tenantIdInput : Option Id) (actor : ActorContext) (s : AppState)
    (hkeys : Keyed s.world.db)
    (hroles : ∀ T, ActsIn env tenantIdInput T → ∀ user ∈ s.world.db.users, user.id = id →
      RolesOfTenant s.world.db T user) :
    (∀ r s', updateUser rt env id dto tenantIdInput actor s = (.ok r, s') →
      ∃ T, ActsIn env tenantIdInput T ∧ ∃ user ∈ s.world.db.users, user.id = id ∧
        user.tenantId = some T ∧
          ∃ user', Replaced rt env dto T s.world.db s'.world.db user user') ∧
    (∀ e s', updateUser rt env id dto tenantIdInput actor s = (.error e, s') →
      s'.world = s.world) ∧
    (dto.securityRelevant = true → env.revocationFails = true →
      ∃ e s', updateUser rt env id dto tenantIdInput actor s = (.error e, s')) := by
  rcases updateUser_runs rt env id dto tenantIdInput actor s with ⟨e, s', hthrew, hsame⟩ |
    ⟨r, s', tenantId, S, user, hrun, _, hinput, hctx, huser, rfl, hplace, _, _, htx⟩
  · rw [hthrew]
    refine ⟨?_, ?_, fun _ _ => ⟨e, s', rfl⟩⟩
    · rintro r s'' ⟨⟩
    · rintro e' s'' ⟨⟩
      exact hsame
  · rw [hrun]
    refine ⟨?_, ?_, fun hrelevant hfails => absurd htx
      (updateTransaction_revokes hrelevant hfails)⟩
    · rintro r' s'' ⟨⟩
      have hacts : ActsIn env tenantIdInput (S.getD tenantId) :=
        ⟨S, tenantId, hctx, hinput, rfl⟩
      exact ⟨S.getD tenantId, hacts, user, huser, rfl, hplace,
        updateStatements_replaced hctx hkeys huser hplace (hroles _ hacts user huser rfl)
          (updateTransaction_ok htx)⟩
    · rintro e' s'' ⟨⟩

/-! ## A cook becomes a waiter -/

/-- A cook with links to an open branch and to a closed one. -/
def cookAtTwo : User :=
  { id := "cook", tenantId := some "tenant-a", firstName := "Ada", lastName := "Cook"
    email := "cook@soups.example", passwordHash := "h", roleIds := ["role-1"]
    branchIds := ["branch-1", "branch-2"] }

/-- The cook, two roles and three branches, of which the second is closed. -/
def twoRolesDb : Db where
  tenants := [{ id := "tenant-a", name := "Soups" }]
  roles := [
    { id := "role-1", tenantId := some "tenant-a", name := "COOK", displayName := "Cook" },
    { id := "role-2", tenantId := some "tenant-a", name := "WAITER", displayName := "Waiter" }]
  branches := [
    { id := "branch-1", tenantId := "tenant-a", restaurantId := "restaurant-1", name := "Main" },
    { id := "branch-2", tenantId := "tenant-a", restaurantId := "restaurant-1", name := "Old"
      deletedAt := some 1767225600000 },
    { id := "branch-3", tenantId := "tenant-a", restaurantId := "restaurant-1", name := "New" }]
  users := [cookAtTwo]

theorem twoRolesDb_keyed : Keyed twoRolesDb where
  users := by decide
  roles := by decide
  roleNames := by decide

/-- The move of the cook. -/
def moveCook : AppService UserResponse :=
  updateUser plainRuntime { toEnv := managerEnv.toEnv } "cook"
    { roles := some ["WAITER", "WAITER"], branchIds := some ["branch-3"] } (some "tenant-a")
    { id := "owner", roles := ["RESTAURANT_OWNER"], permissions := [] }

/-- The move leaves the cook with the role of a waiter and the new branch. -/
theorem cook_moves_to_new_branch : ∃ r s' user',
    moveCook { cookStaff with world := { db := twoRolesDb } } = (.ok r, s') ∧
      (∀ roleId, roleId ∈ user'.roleIds ↔
        IsNamed twoRolesDb "tenant-a" ["WAITER", "WAITER"] roleId) ∧
      (∀ id, id ∈ liveBranchIds twoRolesDb user' ↔ id ∈ ["branch-3"]) ∧
      s'.world.db.users = [user'] := by
  have hok : (moveCook { cookStaff with world := { db := twoRolesDb } }).1.toOption.any
      (fun _ => true) = true := by decide +kernel
  rcases Fallible.returned_of_any hok with ⟨r, s', hrun, _⟩
  have hroles : ∀ T, ActsIn { toEnv := managerEnv.toEnv } (some "tenant-a") T →
      ∀ user ∈ twoRolesDb.users, user.id = "cook" → RolesOfTenant twoRolesDb T user := by
    rintro T ⟨S, tenantId, hctx, ⟨⟩, rfl⟩ user huser _
    have hscope : S.getD "tenant-a" = "tenant-a" := by
      cases S with
      | none => rfl
      | some T => exact (Option.some.inj hctx.tenantId).symm
    rw [hscope, List.mem_singleton.mp huser]
    unfold RolesOfTenant
    decide
  rcases (updateUser_replaces plainRuntime { toEnv := managerEnv.toEnv } "cook"
    { roles := some ["WAITER", "WAITER"], branchIds := some ["branch-3"] } (some "tenant-a")
    { id := "owner", roles := ["RESTAURANT_OWNER"], permissions := [] }
    { cookStaff with world := { db := twoRolesDb } } twoRolesDb_keyed hroles).1 r s' hrun with
    ⟨T, _, user, huser, _, htenant, user', hreplaced⟩
  have hcook : user = cookAtTwo := List.mem_singleton.mp huser
  have hT : "tenant-a" = T := by
    rw [hcook] at htenant
    exact Option.some.inj htenant
  subst hT
  refine ⟨r, s', user', hrun, (hreplaced.roles _ rfl).1, hreplaced.branches _ rfl, ?_⟩
  rw [hreplaced.others, hcook]
  rfl

end UserService
end Eleva
