import Eleva.Auth.Login

/-!
# User - Staff users

The user service: creation, update, role and branch assignment and deletion of the staff
users of a tenant, with the check of what an actor may grant, the guard of the last owner
and the revocation of sessions inside the transaction.

Main results:

- Definitions {lit}`createUser`, {lit}`updateUser`, {lit}`assignRoles`, {lit}`assignBranches` and
  {lit}`deleteUser`: the methods.
- Theorem {lit}`UserWrite.run_ok`: what a write does to the users.
- Theorem {lit}`countOwners_pos`: whom the guard of the last owner has counted.
-/

namespace Eleva
namespace UserService

open Foundation Database Auth TableOf

/-! ## Requests and answers -/

/-- The caller, as its token names it. -/
structure ActorContext where
  id : Id
  roles : List String
  permissions : List String
deriving DecidableEq, Repr

structure CreateUserRequestDto where
  firstName : String
  lastName : String
  email : String
  password : String
  phoneNumber : Option String := none
  isActive : Option Bool := none
  roles : Option (List String) := none
  branchIds : Option (List Id) := none
deriving DecidableEq, Repr

/-- The body of an update; a missing field is left as it is. -/
structure UpdateUserRequestDto where
  firstName : Option String := none
  lastName : Option String := none
  email : Option String := none
  password : Option String := none
  phoneNumber : Option String := none
  isActive : Option Bool := none
  roles : Option (List String) := none
  branchIds : Option (List Id) := none
deriving DecidableEq, Repr

structure UserResponse where
  id : Id
  tenantId : Option Id
  firstName : String
  lastName : String
  email : String
  phoneNumber : Option String
  isActive : Bool
  mfaEnabled : Bool
  roles : List String
  branchIds : List Id
deriving DecidableEq, Repr

/-- What a call draws from its surroundings: also the salt of a password hash, the text by which
the request names the user of an id, and whether the session store and the commit of the
transaction fail. -/
structure UserEnv extends Env where
  salt : String := ""
  spelling : Id → String := fun id => id
  revocationFails : Bool := false
  commitFails : Bool := false

/-! ## Reads -/

/-- The branches of a user that are not deleted. -/
def liveBranchIds (db : Db) (user : User) : List Id :=
  user.branchIds.filter fun id => db.branches.any fun b => b.id == id && b.deletedAt.isNone

def toResponse (db : Db) (user : User) : UserResponse where
  id := user.id
  tenantId := user.tenantId
  firstName := user.firstName
  lastName := user.lastName
  email := user.email
  phoneNumber := user.phoneNumber
  isActive := user.isActive
  mfaEnabled := user.mfaEnabled
  roles := (rolesOf db user).map (·.name)
  branchIds := liveBranchIds db user

def assertTenant {σ : Type} (tenantId : Option Id) : Fallible σ AppError Id :=
  if truthy tenantId then pure (tenantId.getD "")
  else Fallible.throw (.forbidden "Access denied: Missing valid tenant context.")

/-- {lit}`tenantId` in a {lit}`where` object. -/
def ofTenant (tenantId : Id) : ColumnKey (Option Id) :=
  .filter fun t => t == some tenantId

/-- A live user of a tenant. -/
def findOne (env : UserEnv) (id : Id) (tenantId : Id) : Service UserResponse := do
  let user ← users.run (prisma.user.findFirst env.toEnv
    { id := some id, tenantId := ofTenant tenantId, deletedAt := .filter (fun d => d == none) })
  match user with
  | none =>
      Fallible.throw (.notFound
        ("The requested User with ID [" ++ env.spelling id ++ "] was not found."))
  | some user => Fallible.reads fun w => .ok (toResponse w.db user)

/-! ## What an actor may grant -/

/-- The permissions of a role that an actor does not hold. -/
def exceeding (db : Db) (actor : ActorContext) (role : Role) : List String :=
  ((permissionsOf db role).map fun p => p.resource ++ ":" ++ p.action).filter fun p =>
    !actor.permissions.contains p

/-- The roles that the actor does not hold carry permissions of the actor only. -/
def assertCapabilities (env : UserEnv) (tenantId : Id) (unheld : List String)
    (actor : ActorContext) : Service Unit :=
  if unheld = [] then pure ()
  else do
    let targetRoles ← roles.run (prisma.role.findMany env.toEnv
      { tenantId := ofTenant tenantId, rest := fun r => unheld.contains r.name })
    let refused ← Fallible.reads fun w => .ok
      (targetRoles.find? fun role => exceeding w.db actor role != [])
    match refused with
    | none => pure ()
    | some role => do
        let exceeds ← Fallible.reads fun w => .ok (exceeding w.db actor role)
        Fallible.throw (.forbidden ("Access Denied: you cannot grant the role '" ++ role.name ++
          "' because it carries privileges you do not hold: " ++
          ", ".intercalate (exceeds.take 5) ++ "."))

def assertCanGrantRoles (env : UserEnv) (tenantId : Id) (requestedRoles : List String)
    (actor : ActorContext) : Service Unit :=
  if actor.roles.contains "PLATFORM_OWNER" then pure ()
  else do
    Fallible.throwIf (requestedRoles.contains "PLATFORM_OWNER")
      (.forbidden ("Access Denied: the PLATFORM_OWNER role cannot be assigned through tenant " ++
        "user management."))
    assertCapabilities env tenantId
      (requestedRoles.eraseDups.filter fun r => !actor.roles.contains r) actor

/-- The rows of role names. -/
def resolveRoleIds (env : UserEnv) (tenantId : Id) (roleNames : List String) :
    Service (List Id) :=
  if roleNames.eraseDups = [] then pure []
  else do
    let found ← roles.run (prisma.role.findMany env.toEnv
      { tenantId := ofTenant tenantId, rest := fun r => roleNames.eraseDups.contains r.name })
    let missing := roleNames.eraseDups.filter fun n => !found.any fun r => r.name == n
    Fallible.throwIf (missing != [])
      (.badRequest ("Unknown role(s) for this tenant: " ++ ", ".intercalate missing ++ "."))
    pure (found.map (·.id))

def assertBranchesInTenant (env : UserEnv) (tenantId : Id) (branchIds : List Id) :
    Service (List Id) :=
  if branchIds.eraseDups = [] then pure []
  else do
    let found ← branches.run (prisma.branch.findMany env.toEnv
      { tenantId := ofTenant tenantId
        deletedAt := .filter (fun d => d == none)
        rest := fun b => branchIds.eraseDups.contains b.id })
    let missing := branchIds.eraseDups.filter fun id => !found.any fun b => b.id == id
    Fallible.throwIf (missing != [])
      (.badRequest ("Unknown or inaccessible branch(es) for this tenant: " ++
        ", ".intercalate missing ++ "."))
    pure branchIds.eraseDups

/-! ## The guard of the last owner -/

/-- The user holds the owner role of the tenant. -/
def holdsOwnerRole (db : Db) (tenantId : Id) (user : User) : Bool :=
  user.roleIds.any fun id => db.roles.any fun r =>
    r.id == id && r.name == "RESTAURANT_OWNER" && r.tenantId == some tenantId

/-- The other active owners of the tenant. -/
def otherOwnersWhere (db : Db) (tenantId targetUserId : Id) : Where User where
  tenantId := ofTenant tenantId
  deletedAt := .filter fun d => d == none
  rest u := u.isActive && u.id != targetUserId && holdsOwnerRole db tenantId u

/-- Count the other active owners of the tenant. -/
def countOwners (env : UserEnv) (tenantId targetUserId : Id) : Service ℕ := fun w =>
  users.run (prisma.user.count env.toEnv (otherOwnersWhere w.db tenantId targetUserId)) w

/-- The count of the guard, under the lock. -/
def assertOwnerRemains (env : UserEnv) (tenantId targetUserId : Id) (action : String) :
    Service Unit := do
  let remainingOwners ← countOwners env tenantId targetUserId
  Fallible.throwIf (remainingOwners == 0)
    (.badRequest ("Cannot " ++ action ++ (" the last active RESTAURANT_OWNER of this tenant. " ++
      "Assign the role to another active user first.")))

/-- The roles of the target are those that were read before the transaction. -/
def assertNotLastOwner (env : UserEnv) (tenantId targetUserId : Id) (targetRoles : List String)
    (action : String) : Service Unit :=
  if targetRoles.contains "RESTAURANT_OWNER" then
    assertOwnerRemains env tenantId targetUserId action
  else pure ()

/-! ## Writes -/

/-- What a {lit}`data` object assigns to the columns and relations of a user. -/
structure UserData where
  assign : User → User
  assign_tenantId : ∀ u, (assign u).tenantId = u.tenantId := by intro u; rfl

/-- The {lit}`data` object of an update. -/
def UserData.payload (data : UserData) : Payload User where
  assign := data.assign
  assign_tenantId := data.assign_tenantId

/-- A write on the users: an insertion into a tenant, or an update of one user. -/
inductive UserWrite where
  | create (tenantId : Id) (data : UserData)
  | update (id : Id) (data : UserData)

/-- Run a write. -/
def UserWrite.run (env : UserEnv) : UserWrite → Service (Option User)
  | .create tenantId data =>
      users.run (prisma.user.create env.toEnv
        { data.payload with tenantId := some (some tenantId) })
  | .update id data => users.run (prisma.user.update env.toEnv { id := some id } data.payload)

/-- Run an update unless there is nothing to change. -/
def writeUser (env : UserEnv) (id : Id) : Option UserData → Service Unit
  | none => pure ()
  | some data => do
      let _ ← UserWrite.run env (.update id data)
      pure ()

/-- The columns and relations of a new user. -/
def newUserData (dto : CreateUserRequestDto) (email passwordHash : String)
    (roleIds branchIds : List Id) : UserData where
  assign u :=
    { u with
      firstName := dto.firstName
      lastName := dto.lastName
      email := email
      passwordHash := passwordHash
      phoneNumber := dto.phoneNumber
      isActive := dto.isActive.getD true
      roleIds := roleIds
      branchIds := branchIds }

/-- Refuse an email that another user of the tenant has. -/
def assertEmailFree (env : UserEnv) (tenantId : Id) (email : String) (except : Option Id) :
    Service Unit := do
  let clash ← users.run (prisma.user.findFirst env.toEnv
    { tenantId := ofTenant tenantId
      rest := fun u => u.email == email && except.all fun id => u.id != id })
  Fallible.throwIf clash.isSome
    (.conflict "An account with this email address already exists.")

/-- The user that a creation inserts. -/
def prepareUser (rt : Runtime) (env : UserEnv) (dto : CreateUserRequestDto) (tenantId : Id) :
    Service UserData := do
  assertEmailFree env tenantId (rt.normalizedEmail dto.email) none
  let roleIds ← resolveRoleIds env tenantId (dto.roles.getD [])
  let branchIds ← assertBranchesInTenant env tenantId (dto.branchIds.getD [])
  pure (newUserData dto (rt.normalizedEmail dto.email) (rt.hashPassword dto.password env.salt)
    roleIds branchIds)

/-- The transaction of a creation. -/
def insertUser (rt : Runtime) (env : UserEnv) (dto : CreateUserRequestDto) (tenantId : Id) :
    Service (Option User) :=
  Fallible.transaction do
    let data ← prepareUser rt env dto tenantId
    let created ← UserWrite.run env (.create tenantId data)
    attempt env.commitFails (pure created)

/-- The columns that an update sets, if it sets any. -/
def columnsData (rt : Runtime) (env : UserEnv) (dto : UpdateUserRequestDto) :
    Option UserData :=
  if dto.firstName.isSome || dto.lastName.isSome || dto.email.isSome ||
      dto.phoneNumber.isSome || dto.isActive.isSome || truthy dto.password then
    some { assign := fun u =>
      { u with
        firstName := dto.firstName.getD u.firstName
        lastName := dto.lastName.getD u.lastName
        email := (dto.email.map rt.normalizedEmail).getD u.email
        phoneNumber := dto.phoneNumber.or u.phoneNumber
        isActive := dto.isActive.getD u.isActive
        passwordHash := if truthy dto.password then
          rt.hashPassword (dto.password.getD "") env.salt else u.passwordHash } }
  else none

/-- Remove some roles of a user and add others. -/
def rolesData (toRemove toAdd : List Id) : UserData where
  assign u := { u with roleIds := u.roleIds.filter (fun id => !toRemove.contains id) ++ toAdd }

/-- Remove some branches of a user and add others. -/
def branchesData (toRemove toAdd : List Id) : UserData where
  assign u :=
    { u with branchIds := u.branchIds.filter (fun id => !toRemove.contains id) ++ toAdd }

/-- The replacement of the roles that were read before the transaction. -/
def roleReplacement (env : UserEnv) (tenantId : Id) (currentRoles roleNames : List String) :
    Service (Option UserData) := do
  let desired ← resolveRoleIds env tenantId roleNames
  let currentRows ← roles.run (prisma.role.findMany env.toEnv
    { tenantId := ofTenant tenantId, rest := fun r => currentRoles.contains r.name })
  let current := currentRows.map (·.id)
  let toRemove := current.filter fun id => !desired.contains id
  let toAdd := desired.filter fun id => !current.contains id
  pure (if toRemove != [] || toAdd != [] then some (rolesData toRemove toAdd) else none)

/-- The replacement of the branches that were read before the transaction. -/
def branchReplacement (env : UserEnv) (tenantId : Id) (current branchIds : List Id) :
    Service (Option UserData) := do
  let desired ← assertBranchesInTenant env tenantId branchIds
  let toRemove := current.filter fun id => !desired.contains id
  let toAdd := desired.filter fun id => !current.contains id
  pure (if toRemove != [] || toAdd != [] then some (branchesData toRemove toAdd) else none)

/-- The tombstone of a deletion. -/
def softDeleteData (now : Timestamp) : UserData where
  assign u := { u with deletedAt := some now, isActive := false }

/-! ## Transactions over the database and the session store -/

/-- A transaction of the database.  The session store takes no part in it. -/
def inTransaction {α : Type} (env : UserEnv) (x : AppService α) : AppService α := fun s =>
  match x s with
  | (.ok a, s') =>
      if env.commitFails then (.error .failure, { s' with world := s.world }) else (.ok a, s')
  | (.error e, s') => (.error e, { s' with world := s.world })

/-- Revoke the sessions of a user, under the text of the request. -/
def revokeSessions (env : UserEnv) (id : Id) : AppService Unit :=
  if env.revocationFails then
    Fallible.throw (.serviceUnavailable ("Unable to revoke active sessions right now. " ++
      "The change was not applied — please retry."))
  else inSessions (revokeAllUserTokens (env.spelling id))

/-- The update invalidates the tokens of the user. -/
def UpdateUserRequestDto.securityRelevant (dto : UpdateUserRequestDto) : Bool :=
  dto.isActive == some false || dto.password.isSome || dto.roles.isSome

/-- The guards that an update runs, by their action. -/
def UpdateUserRequestDto.guards (dto : UpdateUserRequestDto) : List String :=
  (if dto.isActive = some false then ["deactivate"] else []) ++
    if dto.roles.any (fun names => !names.contains "RESTAURANT_OWNER") then ["change roles for"]
    else []

/-- Run guards one after the other. -/
def runGuards (env : UserEnv) (tenantId id : Id) (targetRoles : List String) :
    List String → Service Unit
  | [] => pure ()
  | action :: actions => do
      assertNotLastOwner env tenantId id targetRoles action
      runGuards env tenantId id targetRoles actions

/-- Check the new email of an update. -/
def assertNewEmailFree (rt : Runtime) (env : UserEnv) (tenantId id : Id)
    (dto : UpdateUserRequestDto) : Service Unit :=
  if truthy dto.email then
    assertEmailFree env tenantId (rt.normalizedEmail (dto.email.getD "")) (some id)
  else pure ()

/-- The role replacement of an update. -/
def updateRoles (env : UserEnv) (tenantId : Id) (dto : UpdateUserRequestDto)
    (currentState : UserResponse) : Service (Option UserData) :=
  match dto.roles with
  | none => pure none
  | some names => roleReplacement env tenantId currentState.roles names

/-- The branch replacement of an update. -/
def updateBranches (env : UserEnv) (tenantId : Id) (dto : UpdateUserRequestDto)
    (currentState : UserResponse) : Service (Option UserData) :=
  match dto.branchIds with
  | none => pure none
  | some ids => branchReplacement env tenantId currentState.branchIds ids

/-- The statements of an update behind its guards. -/
def updateStatements (rt : Runtime) (env : UserEnv) (tenantId id : Id)
    (dto : UpdateUserRequestDto) (currentState : UserResponse) : Service Unit := do
  assertNewEmailFree rt env tenantId id dto
  writeUser env id (columnsData rt env dto)
  let newRoles ← updateRoles env tenantId dto currentState
  writeUser env id newRoles
  let newBranches ← updateBranches env tenantId dto currentState
  writeUser env id newBranches

/-- The transaction of an update. -/
def updateTransaction (rt : Runtime) (env : UserEnv) (tenantId id : Id)
    (dto : UpdateUserRequestDto) (currentState : UserResponse) : AppService Unit := do
  inDatabase (runGuards env tenantId id currentState.roles dto.guards)
  inDatabase (updateStatements rt env tenantId id dto currentState)
  if dto.securityRelevant then revokeSessions env id else pure ()

/-- The transaction of a deletion. -/
def deleteTransaction (env : UserEnv) (tenantId id : Id) (target : UserResponse) :
    AppService Unit := do
  inDatabase (runGuards env tenantId id target.roles ["remove"])
  inDatabase (writeUser env id (some (softDeleteData env.now)))
  revokeSessions env id

/-! ## The methods -/

/-- The check of the roles that an update grants. -/
def assertCanGrant (env : UserEnv) (tenantId : Id) (roleNames : Option (List String))
    (actor : ActorContext) : Service Unit :=
  match roleNames with
  | none => pure ()
  | some names => assertCanGrantRoles env tenantId names actor

def createUser (rt : Runtime) (env : UserEnv) (dto : CreateUserRequestDto)
    (tenantIdInput : Option Id) (actor : ActorContext) : AppService UserResponse := do
  let tenantId ← assertTenant tenantIdInput
  inDatabase (assertCanGrantRoles env tenantId (dto.roles.getD []) actor)
  let created ← inDatabase (insertUser rt env dto tenantId)
  inDatabase (findOne env ((created.map (·.id)).getD "") tenantId)

def updateUser (rt : Runtime) (env : UserEnv) (id : Id) (dto : UpdateUserRequestDto)
    (tenantIdInput : Option Id) (actor : ActorContext) : AppService UserResponse := do
  let tenantId ← assertTenant tenantIdInput
  inDatabase (assertCanGrant env tenantId dto.roles actor)
  let currentState ← inDatabase (findOne env id tenantId)
  inTransaction env (updateTransaction rt env tenantId id dto currentState)
  inDatabase (findOne env id tenantId)

def deleteUser (env : UserEnv) (id : Id) (tenantIdInput : Option Id) (actor : ActorContext) :
    AppService Id := do
  let tenantId ← assertTenant tenantIdInput
  Fallible.throwIf (env.spelling id == actor.id) (.badRequest "You cannot delete your own account.")
  let target ← inDatabase (findOne env id tenantId)
  inTransaction env (deleteTransaction env tenantId id target)
  pure (env.spelling id)

def assignRoles (rt : Runtime) (env : UserEnv) (id : Id) (roleNames : List String)
    (tenantIdInput : Option Id) (actor : ActorContext) : AppService UserResponse :=
  updateUser rt env id { roles := some roleNames } tenantIdInput actor

def assignBranches (rt : Runtime) (env : UserEnv) (id : Id) (branchIds : List Id)
    (tenantIdInput : Option Id) (actor : ActorContext) : AppService UserResponse :=
  updateUser rt env id { branchIds := some branchIds } tenantIdInput actor

/-! ## What the checks leave alone -/

section Reads

variable {I : World → Prop} (env : UserEnv) (tenantId : Id)

theorem findOne_keeps (id : Id) : Fallible.Keeps I (findOne env id tenantId) := by
  refine .bind (TableOf.run_read_keeps (by decide) _ _) fun user => ?_
  cases user with
  | none => exact .throw _
  | some user => exact .reads _

theorem assertCapabilities_keeps (unheld : List String) (actor : ActorContext) :
    Fallible.Keeps I (assertCapabilities env tenantId unheld actor) := by
  refine .ite (fun _ => .pure ()) fun _ => ?_
  refine .bind (TableOf.run_read_keeps (by decide) _ _) fun targetRoles => ?_
  refine .bind (.reads _) fun refused => ?_
  cases refused with
  | none => exact .pure ()
  | some role => exact .bind (.reads _) fun exceeds => .throw _

theorem assertCanGrantRoles_keeps (requestedRoles : List String) (actor : ActorContext) :
    Fallible.Keeps I (assertCanGrantRoles env tenantId requestedRoles actor) :=
  .ite (fun _ => .pure ()) fun _ =>
    .bind (.throwIf _ _) fun _ => assertCapabilities_keeps env tenantId _ actor

theorem assertCanGrant_keeps (roleNames : Option (List String)) (actor : ActorContext) :
    Fallible.Keeps I (assertCanGrant env tenantId roleNames actor) := by
  cases roleNames with
  | none => exact .pure ()
  | some names => exact assertCanGrantRoles_keeps env tenantId names actor

theorem resolveRoleIds_keeps (roleNames : List String) :
    Fallible.Keeps I (resolveRoleIds env tenantId roleNames) :=
  .ite (fun _ => .pure []) fun _ =>
    .bind (TableOf.run_read_keeps (by decide) _ _) fun _ =>
      .bind (.throwIf _ _) fun _ => .pure _

theorem assertBranchesInTenant_keeps (branchIds : List Id) :
    Fallible.Keeps I (assertBranchesInTenant env tenantId branchIds) :=
  .ite (fun _ => .pure []) fun _ =>
    .bind (TableOf.run_read_keeps (by decide) _ _) fun _ =>
      .bind (.throwIf _ _) fun _ => .pure _

theorem assertEmailFree_keeps (email : String) (except : Option Id) :
    Fallible.Keeps I (assertEmailFree env tenantId email except) :=
  .bind (TableOf.run_read_keeps (by decide) _ _) fun _ => .throwIf _ _

theorem countOwners_keeps (targetUserId : Id) :
    Fallible.Keeps I (countOwners env tenantId targetUserId) :=
  .of_unchanged fun w => TableOf.run_read_state (by decide) _ _ w

theorem assertOwnerRemains_keeps (targetUserId : Id) (action : String) :
    Fallible.Keeps I (assertOwnerRemains env tenantId targetUserId action) :=
  .bind (countOwners_keeps env tenantId targetUserId) fun _ => .throwIf _ _

theorem runGuards_keeps (id : Id) (targetRoles actions : List String) :
    Fallible.Keeps I (runGuards env tenantId id targetRoles actions) := by
  induction actions with
  | nil => exact .pure ()
  | cons action actions ih =>
      exact .bind (.ite (fun _ => assertOwnerRemains_keeps env tenantId id action)
        fun _ => .pure ()) fun _ => ih

theorem prepareUser_keeps (rt : Runtime) (dto : CreateUserRequestDto) :
    Fallible.Keeps I (prepareUser rt env dto tenantId) :=
  .bind (assertEmailFree_keeps env tenantId _ _) fun _ =>
    .bind (resolveRoleIds_keeps env tenantId _) fun _ =>
      .bind (assertBranchesInTenant_keeps env tenantId _) fun _ => .pure _

theorem assertNewEmailFree_keeps (rt : Runtime) (id : Id) (dto : UpdateUserRequestDto) :
    Fallible.Keeps I (assertNewEmailFree rt env tenantId id dto) :=
  .ite (fun _ => assertEmailFree_keeps env tenantId _ _) fun _ => .pure ()

theorem updateRoles_keeps (dto : UpdateUserRequestDto) (currentState : UserResponse) :
    Fallible.Keeps I (updateRoles env tenantId dto currentState) := by
  unfold updateRoles
  cases dto.roles with
  | none => exact .pure none
  | some names =>
      exact .bind (resolveRoleIds_keeps env tenantId names) fun _ =>
        .bind (TableOf.run_read_keeps (by decide) _ _) fun _ => .pure _

theorem updateBranches_keeps (dto : UpdateUserRequestDto) (currentState : UserResponse) :
    Fallible.Keeps I (updateBranches env tenantId dto currentState) := by
  unfold updateBranches
  cases dto.branchIds with
  | none => exact .pure none
  | some ids => exact .bind (assertBranchesInTenant_keeps env tenantId ids) fun _ => .pure _

end Reads

/-! ## What the reads find -/

theorem assertTenant_eq_ok {σ : Type} {tenantIdInput : Option Id} {tenantId : Id} {s s' : σ} :
    assertTenant tenantIdInput s = (.ok tenantId, s') ↔
      tenantIdInput = some tenantId ∧ tenantId ≠ "" ∧ s' = s := by
  unfold assertTenant truthy
  cases tenantIdInput with
  | none => simp
  | some t =>
      by_cases hempty : t = ""
      · subst hempty
        simp only [Option.any_some, bne_self_eq_false, Bool.false_eq_true, if_false,
          Fallible.throw_apply, Prod.mk.injEq, reduceCtorEq, false_and, Option.some.injEq,
          ne_eq, false_iff, not_and]
        rintro rfl hne
        exact absurd rfl hne
      · simp only [Option.any_some, bne_iff_ne, ne_eq, hempty, not_false_eq_true, if_true,
          Option.getD_some, Fallible.pure_apply, Prod.mk.injEq, Except.ok.injEq,
          Option.some.injEq]
        constructor
        · rintro ⟨rfl, rfl⟩
          exact ⟨rfl, hempty, rfl⟩
        · rintro ⟨rfl, _, rfl⟩
          exact ⟨rfl, rfl⟩

/-- In a scope the tenant of a filter gives way to the tenant of the scope. -/
theorem inScope_ofTenant {Row : Type} {f : Where Row} {tenantId : Id} (S : Option Id)
    (hf : f.tenantId = ofTenant tenantId) :
    f.inScope S = { f with tenantId := ofTenant (S.getD tenantId) } := by
  cases S with
  | none =>
      simp only [Where.inScope, Option.elim_none, Option.getD_none, ← hf]
  | some T => rfl

/-- A user that is found is a live user with the id, of the tenant or of the scope. -/
theorem findOne_eq_ok {env : UserEnv} {id tenantId : Id} {r : UserResponse} {w w' : World}
    (h : findOne env id tenantId w = (.ok r, w')) :
    ∃ S user, env.context.Sees S ∧ user ∈ w.db.users ∧ user.id = id ∧
      user.tenantId = some (S.getD tenantId) ∧ user.deletedAt = none ∧
      r = toResponse w.db user ∧ w' = w := by
  rcases Fallible.bind_eq_ok.mp h with ⟨found, w₁, hfind, hend⟩
  rcases TableOf.sees_of_run_ok (by decide) hfind with ⟨S, hctx⟩
  have hrun := hfind.symm.trans (TableOf.run_client_findFirst hctx (by decide) rfl w)
  rw [inScope_ofTenant S rfl] at hrun
  cases found with
  | none => cases hend
  | some user =>
      simp only [Prod.mk.injEq, Except.ok.injEq] at hrun
      rcases hrun with ⟨hfound, rfl⟩
      cases hend
      have hadmits := List.find?_some hfound.symm
      simp only [Where.admits, ofTenant, ColumnKey.admits, Bool.and_eq_true, beq_iff_eq,
        Option.all_some] at hadmits
      exact ⟨S, user, hctx, List.mem_of_find?_eq_some hfound.symm, hadmits.1.1.1.2.symm,
        hadmits.1.1.2, by simpa [prisma.user] using hadmits.1.2, rfl, rfl⟩

/-- Whom the guard of the last owner has counted. -/
theorem countOwners_pos {env : UserEnv} {tenantId targetUserId : Id} {n : ℕ} {w w' : World}
    (h : countOwners env tenantId targetUserId w = (.ok n, w')) (hn : n ≠ 0) :
    ∃ S user, env.context.Sees S ∧ user ∈ w.db.users ∧
      user.tenantId = some (S.getD tenantId) ∧ user.deletedAt = none ∧ user.isActive = true ∧
      user.id ≠ targetUserId ∧ holdsOwnerRole w.db tenantId user = true := by
  unfold countOwners at h
  rcases TableOf.sees_of_run_ok (by decide) h with ⟨S, hctx⟩
  have hrun := h.symm.trans (TableOf.run_client_count hctx (by decide) rfl w)
  rw [inScope_ofTenant S rfl] at hrun
  simp only [Prod.mk.injEq, Except.ok.injEq] at hrun
  have hne : (users.get w.db).filter ((({ otherOwnersWhere w.db tenantId targetUserId with
      tenantId := ofTenant (S.getD tenantId) } : Where User)).admits prisma.user) ≠ [] := by
    intro hempty
    rw [hempty] at hrun
    exact hn hrun.1
  rcases List.exists_mem_of_ne_nil _ hne with ⟨user, huser⟩
  rcases List.mem_filter.mp huser with ⟨hmem, hadmits⟩
  simp only [Where.admits, otherOwnersWhere, ofTenant, ColumnKey.admits, Bool.and_eq_true,
    beq_iff_eq, bne_iff_ne, ne_eq, Option.all_none] at hadmits
  exact ⟨S, user, hctx, hmem, hadmits.1.1.2, by simpa [prisma.user] using hadmits.1.2,
    hadmits.2.1.1, hadmits.2.1.2, hadmits.2.2⟩

theorem assertOwnerRemains_eq_ok {env : UserEnv} {tenantId targetUserId : Id} {action : String}
    {w w' : World} {u : Unit}
    (h : assertOwnerRemains env tenantId targetUserId action w = (.ok u, w')) :
    ∃ n, n ≠ 0 ∧ countOwners env tenantId targetUserId w = (.ok n, w) := by
  rcases Fallible.bind_eq_ok.mp h with ⟨n, w₁, hcount, hguard⟩
  have hstate := (countOwners_keeps (I := fun w' => w' = w) env tenantId targetUserId).state_eq
  rw [hcount] at hstate
  have hsame : w = w₁ := hstate.symm
  subst hsame
  rcases Fallible.throwIf_eq_ok.mp hguard with ⟨hzero, _⟩
  exact ⟨n, by simpa using hzero, hcount⟩

/-- The rows of role names are those of the tenant, or of the scope. -/
theorem resolveRoleIds_eq_ok {env : UserEnv} {S : Option Id} {tenantId : Id}
    {roleNames : List String} {ids : List Id} {w w' : World} (hctx : env.context.Sees S)
    (h : resolveRoleIds env tenantId roleNames w = (.ok ids, w')) :
    ids = ((w.db.roles.filter fun r => r.tenantId == some (S.getD tenantId) &&
      roleNames.contains r.name).map (·.id)) := by
  unfold resolveRoleIds at h
  by_cases hnone : roleNames.eraseDups = []
  · rw [if_pos hnone] at h
    cases h
    have hnil : roleNames = [] := by
      cases roleNames with
      | nil => rfl
      | cons n ns => rw [List.eraseDups_cons] at hnone; cases hnone
    simp [hnil]
  · rw [if_neg hnone] at h
    rcases Fallible.bind_eq_ok.mp h with ⟨found, w₁, hfind, hrest⟩
    rcases Fallible.throwIf_bind_eq_ok.mp hrest with ⟨_, hend⟩
    cases hend
    have hrun := hfind.symm.trans (TableOf.run_client_findMany hctx (by decide) rfl w)
    rw [inScope_ofTenant S rfl] at hrun
    simp only [Prod.mk.injEq, Except.ok.injEq] at hrun
    rw [hrun.1]
    congr 1
    apply List.filter_congr
    intro r _
    simp [Where.admits, ofTenant, ColumnKey.admits, prisma.role, List.mem_eraseDups]
    rfl

/-- A role replacement removes roles that were read before the transaction and are not asked
for. -/
theorem roleReplacement_eq_ok {env : UserEnv} {S : Option Id} {tenantId : Id}
    {currentRoles roleNames : List String} {change : Option UserData} {w w' : World}
    (hctx : env.context.Sees S)
    (h : roleReplacement env tenantId currentRoles roleNames w = (.ok change, w')) :
    change = none ∨ ∃ toRemove toAdd, change = some (rolesData toRemove toAdd) ∧
      (∀ id ∈ toRemove, ∃ r ∈ w.db.roles, r.id = id ∧
        currentRoles.contains r.name = true ∧ roleNames.contains r.name = false) := by
  rcases Fallible.bind_eq_ok.mp h with ⟨desired, w₁, hdesired, hrest⟩
  have hstate := (resolveRoleIds_keeps (I := fun w' => w' = w) env tenantId roleNames).state_eq
  rw [hdesired] at hstate
  have hsame : w = w₁ := hstate.symm
  subst hsame
  have hids := resolveRoleIds_eq_ok hctx hdesired
  rcases Fallible.bind_eq_ok.mp hrest with ⟨currentRows, w₂, hfind, hend⟩
  have hrun := hfind.symm.trans (TableOf.run_client_findMany hctx (by decide) rfl w)
  rw [inScope_ofTenant S rfl] at hrun
  simp only [Prod.mk.injEq, Except.ok.injEq] at hrun
  cases hend
  split
  · right
    refine ⟨_, _, rfl, ?_⟩
    intro id hid
    rcases List.mem_filter.mp hid with ⟨hcurrent, hundesired⟩
    rcases List.mem_map.mp hcurrent with ⟨r, hr, rfl⟩
    rw [hrun.1] at hr
    rcases List.mem_filter.mp hr with ⟨hmem, hadmits⟩
    simp only [Where.admits, ofTenant, ColumnKey.admits, Bool.and_eq_true, beq_iff_eq] at hadmits
    refine ⟨r, hmem, rfl, hadmits.2, ?_⟩
    cases hasked : roleNames.contains r.name with
    | false => rfl
    | true =>
        have hin : desired.contains r.id = true := by
          rw [hids, List.contains_iff_mem, List.mem_map]
          refine ⟨r, List.mem_filter.mpr ⟨hmem, ?_⟩, rfl⟩
          simp only [hasked, Bool.and_true, beq_iff_eq]
          exact hadmits.1.1.2
        rw [hin] at hundesired
        cases hundesired
  · exact Or.inl rfl

/-! ## What the writes do -/

/-- The row that a creation inserts. -/
def createdUser (env : UserEnv) (tenantId : Id) (data : UserData) : User :=
  { data.assign (prisma.user.blank (env.uuid 0)) with tenantId := some tenantId }

/-- The users after a write in a scope. -/
def UserWrite.applied (env : UserEnv) (S : Option Id) (rows : List User) : UserWrite → List User
  | .create tenantId data => rows ++ [createdUser env (S.getD tenantId) data]
  | .update id data =>
      rows.map fun u => if ownRow S id u then data.assign u else u

/-- What a write does to the users. -/
theorem UserWrite.run_ok {env : UserEnv} {write : UserWrite} {a : Option User} {w w' : World}
    (h : write.run env w = (.ok a, w')) :
    ∃ S, env.context.Sees S ∧
      w' = { w with db := { w.db with users := write.applied env S w.db.users } } := by
  cases write with
  | create tenantId data =>
      rcases TableOf.sees_of_run_ok (by decide) h with ⟨S, hctx⟩
      refine ⟨S, hctx, ?_⟩
      rcases TableOf.run_create_ok hctx (by decide) rfl h with ⟨_, _, _, _, hw⟩
      rw [hw]
      cases S <;> rfl
  | update id data =>
      rcases TableOf.sees_of_run_ok (by decide) h with ⟨S, hctx⟩
      refine ⟨S, hctx, ?_⟩
      rcases TableOf.run_update_ok hctx (by decide) rfl rfl h with ⟨_, _, _, hw⟩
      have hrows : ((users.get w.db).map fun r =>
          if (({ id := some id } : Where User).inScope S).admits prisma.user r then
            data.payload.apply r else r) =
          UserWrite.applied env S w.db.users (.update id data) := by
        apply List.map_congr_left
        intro u _
        rw [Where.admits_inScope _ _ rfl]
        simp [Where.admits, ColumnKey.admits, ownRow, prisma.user, Payload.apply,
          UserData.payload]
      rw [hw, hrows]
      rfl

/-- Behind an insertion the ids are distinct. -/
theorem UserWrite.run_create_nodup {env : UserEnv} {tenantId : Id} {data : UserData}
    {a : Option User} {w w' : World}
    (h : (UserWrite.create tenantId data).run env w = (.ok a, w')) :
    (w'.db.users.map (·.id)).Nodup := by
  rcases TableOf.sees_of_run_ok (by decide) h with ⟨S, hctx⟩
  rcases TableOf.run_create_ok hctx (by decide) rfl h with ⟨_, _, _, haccepts, hw⟩
  simp only [Store.accepts, Bool.and_eq_true, List.all_eq_true] at haccepts
  have hids := haccepts.1 (fun r => some r.id) (by simp [users])
  rw [hw, ← List.filterMap_eq_map]
  exact of_decide_eq_true hids

end UserService
end Eleva
