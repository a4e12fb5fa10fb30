import Eleva.Database.CascadeLoops

/-!
# Branch - Branches and tables

The branch service: creation, partial update, deletion and restoration of the branches of a
tenant and of their tables, with the signed token of a table, the count of open orders before a
deletion and the cascade from a branch to its tables.

Main results:

- Definitions {lit}`createBranch`, {lit}`updateBranch`, {lit}`deleteBranch`,
  {lit}`restoreBranch`, {lit}`createTable`, {lit}`updateTable`, {lit}`deleteTable` and
  {lit}`restoreTable`: the methods.
-/

namespace Eleva
namespace BranchService

open Foundation Database TableOf

/-! ## Requests and answers -/

structure CreateBranchRequestDto where
  restaurantId : Id
  name : String
  address : String
  latitude : Field ℚ := .undefined
  longitude : Field ℚ := .undefined
  phoneNumber : String
  operatingHours : String
deriving DecidableEq, Repr

structure CreateTableRequestDto where
  branchId : Id
  number : String
  seatingCapacity : Int
deriving DecidableEq, Repr

structure UpdateBranchRequestDto where
  name : Field String := .undefined
  address : Field String := .undefined
  latitude : Field ℚ := .undefined
  longitude : Field ℚ := .undefined
  phoneNumber : Field String := .undefined
  operatingHours : Field String := .undefined
  isActive : Field Bool := .undefined
deriving DecidableEq, Repr

structure UpdateTableRequestDto where
  seatingCapacity : Field Int := .undefined
  status : Field TableStatus := .undefined
deriving DecidableEq, Repr

structure SoftDeleteResult where
  id : Id
  deleted : Bool
deriving DecidableEq, Repr

structure RestoreResult where
  id : Id
  restored : Bool := true
deriving DecidableEq, Repr

/-! ## The signature of a table -/

/-- The keyed hash, and the variables of the process that the pepper depends on. -/
structure Signing where
  createHmac : String → String → String
  SYSTEM_PEPPER : Option String := none
  NODE_ENV : Option String := none

def DEV_PEPPER_FALLBACK : String := "zayjar-default-pepper-999!"

def resolveSystemPepper (signing : Signing) : Except AppError String :=
  if truthy signing.SYSTEM_PEPPER then .ok (signing.SYSTEM_PEPPER.getD "")
  else if signing.NODE_ENV == some "production" then
    .error (.error ("FATAL: SYSTEM_PEPPER must be set in production. " ++
      "Refusing to sign QR tokens with a default pepper."))
  else .ok DEV_PEPPER_FALLBACK

/-- {lit}`tenantId:branchId:number`. -/
def signaturePayload (tenantId branchId : Id) (number : String) : String :=
  tenantId ++ ":" ++ branchId ++ ":" ++ number

/-! ## Open orders -/

/-- Order states that still need the table and the branch. -/
def ACTIVE_ORDER_STATUSES : List OrderStatus :=
  [.DRAFT, .PENDING, .ACCEPTED, .PREPARING, .READY]

/-- The open orders of a tenant, of a branch or at a table where one is named. -/
def activeOrdersWhere (branchId tableId : Option Id) (tenantId : Id) : Where Order where
  tenantId := .filter fun t => t == some tenantId
  rest o := (!truthy branchId || branchId == some o.branchId) &&
    (!truthy tableId || tableId == o.tableId) && ACTIVE_ORDER_STATUSES.contains o.status

def countActiveOrders (env : LifecycleEnv) (branchId tableId : Option Id) (tenantId : Id) :
    Service ℕ :=
  attempt (env.fails .count)
    (orders.run (prisma.order.count env.toEnv (activeOrdersWhere branchId tableId tenantId)))

/-- A row with open orders is not deleted. -/
def assertNoActiveOrders (resource : String) (activeOrders : ℕ) : Service Unit :=
  Fallible.throwIf (activeOrders > 0)
    (.conflict ("This " ++ resource ++ " cannot be deleted while it has " ++
      toString activeOrders ++
      " order(s) in progress. Complete or cancel them first."))

/-! ## Branches -/

/-- A live branch of the context's tenant. -/
def findBranch (env : LifecycleEnv) (id : Id) : Service Branch :=
  fetch branches branchRepository env .read id (requestedNotFound "Branch" (env.spelling id))

/-- The {lit}`data` object of a new branch. -/
def newBranch (dto : CreateBranchRequestDto) (latitude longitude : Field Coordinate) :
    Payload Branch where
  assign b :=
    { b with
      restaurantId := dto.restaurantId
      name := dto.name
      address := dto.address
      latitude := latitude.write none
      longitude := longitude.write none
      phoneNumber := dto.phoneNumber
      operatingHours := dto.operatingHours
      isActive := true }

def createBranch (env : LifecycleEnv) (dto : CreateBranchRequestDto) :
    Service (Option Branch) := do
  let _ ← fetch restaurants restaurantRepository env .parentRead dto.restaurantId
    (requestedNotFound "Restaurant" (env.spelling dto.restaurantId))
  let latitude ← storeNumber 9 6 dto.latitude
  let longitude ← storeNumber 9 6 dto.longitude
  attempt (env.fails .write)
    (branches.run (branchRepository.create env.toEnv (newBranch dto latitude longitude)))

/-- No key of the body is defined. -/
def UpdateBranchRequestDto.isEmpty (dto : UpdateBranchRequestDto) : Bool :=
  !(dto.name.isDefined || dto.address.isDefined || dto.latitude.isDefined ||
    dto.longitude.isDefined || dto.phoneNumber.isDefined || dto.operatingHours.isDefined ||
    dto.isActive.isDefined)

/-- A required column would be null. -/
def UpdateBranchRequestDto.isRefused (dto : UpdateBranchRequestDto) : Bool :=
  dto.name.isNull || dto.address.isNull || dto.phoneNumber.isNull || dto.operatingHours.isNull ||
    dto.isActive.isNull

/-- The {lit}`data` object of an update. -/
def branchFields (dto : UpdateBranchRequestDto) (latitude longitude : Field Coordinate) :
    Payload Branch where
  assign b :=
    { b with
      name := dto.name.getD b.name
      address := dto.address.getD b.address
      latitude := latitude.write b.latitude
      longitude := longitude.write b.longitude
      phoneNumber := dto.phoneNumber.getD b.phoneNumber
      operatingHours := dto.operatingHours.getD b.operatingHours
      isActive := dto.isActive.getD b.isActive }

def updateBranch (env : LifecycleEnv) (id : Id) (dto : UpdateBranchRequestDto) :
    Service (Option Branch) := do
  let existing ← findBranch env id
  if dto.isEmpty then pure (some existing)
  else do
    Fallible.throwIf dto.isRefused (.client .constraintViolation)
    let latitude ← storeNumber 9 6 dto.latitude
    let longitude ← storeNumber 9 6 dto.longitude
    attempt (env.fails .write)
      (branches.run (branchRepository.update env.toEnv id (branchFields dto latitude longitude)))

/-- The live tables of a branch, as the cascade asks for them. -/
def liveTablesWhere (branchId tenantId : Id) : Where Table where
  tenantId := .filter fun t => t == some tenantId
  deletedAt := .filter fun d => d == none
  rest r := r.branchId == branchId

/-- The tombstone of a table. -/
def tableTombstone (now : Timestamp) : Payload Table where
  assign r := { r with deletedAt := some now }

/-- The tombstone of a branch. -/
def branchTombstone (now : Timestamp) : Payload Branch where
  assign b := { b with deletedAt := some now, isActive := false }

/-- The transaction of a deletion: the tables of the branch, and then the branch. -/
def closeBranch (env : LifecycleEnv) (id tenantId : Id) : Service Unit :=
  Fallible.transaction do
    cascade tables prisma.table env (liveTablesWhere id tenantId) (tableTombstone env.now)
    let _ ← attempt (env.fails .parentWrite)
      (branches.run (prisma.branch.update env.toEnv { id := some id } (branchTombstone env.now)))
    attempt (env.fails .commit) (pure ())

def deleteBranch (env : LifecycleEnv) (id : Id) : Service SoftDeleteResult := do
  let existing ← findBranch env id
  let activeOrders ← countActiveOrders env (some id) none existing.tenantId
  assertNoActiveOrders "branch" activeOrders
  closeBranch env id existing.tenantId
  pure { id := env.spelling id, deleted := true }

/-- The data that a restored branch gets. -/
def reopened : Payload Branch where
  assign b := { b with isActive := true }

def restoreBranch (env : LifecycleEnv) (id : Id) : Service RestoreResult := do
  let _ ← fetchIncludingDeleted branches branchRepository env .read id
    (requestedNotFound "Branch" (env.spelling id))
  let _ ← attempt (env.fails .write)
    (branches.run (branchRepository.restore env.toEnv id reopened))
  pure { id := env.spelling id }

/-! ## Tables -/

/-- A live table of the context's tenant. -/
def findTable (env : LifecycleEnv) (id : Id) : Service Table :=
  fetch tables tableRepository env .read id (requestedNotFound "Table" (env.spelling id))

/-- The {lit}`data` object of a new table. -/
def newTable (dto : CreateTableRequestDto) (qrCodeToken : String) : Payload Table where
  assign r :=
    { r with
      branchId := dto.branchId
      number := dto.number
      seatingCapacity := dto.seatingCapacity
      qrCodeToken := qrCodeToken
      status := .VACANT }

def createTable (signing : Signing) (env : LifecycleEnv) (dto : CreateTableRequestDto) :
    Service (Option Table) := do
  let branch ← findBranch env dto.branchId
  let pepper ← Fallible.reads fun _ => resolveSystemPepper signing
  let qrCodeToken := signing.createHmac pepper
    (signaturePayload branch.tenantId (env.spelling dto.branchId) dto.number)
  attempt (env.fails .write)
    (tables.run (tableRepository.create env.toEnv (newTable dto qrCodeToken)))

/-- The {lit}`data` object of an update. -/
def tableFields (dto : UpdateTableRequestDto) : Payload Table where
  assign r :=
    { r with
      seatingCapacity := dto.seatingCapacity.getD r.seatingCapacity
      status := dto.status.getD r.status }

def updateTable (env : LifecycleEnv) (id : Id) (dto : UpdateTableRequestDto) :
    Service (Option Table) := do
  let existing ← findTable env id
  if !(dto.seatingCapacity.isDefined || dto.status.isDefined) then pure (some existing)
  else do
    Fallible.throwIf (dto.seatingCapacity.isNull || dto.status.isNull)
      (.client .constraintViolation)
    attempt (env.fails .write)
      (tables.run (tableRepository.update env.toEnv id (tableFields dto)))

/-- The tombstone of one table. -/
def removeTable (env : LifecycleEnv) (id : Id) : Service (Option Table) :=
  attempt (env.fails .write) (tables.run (tableRepository.softDelete env.toEnv id {}))

def deleteTable (env : LifecycleEnv) (id : Id) : Service SoftDeleteResult := do
  let existing ← findTable env id
  let activeOrders ← countActiveOrders env none (some id) existing.tenantId
  assertNoActiveOrders "table" activeOrders
  let _ ← removeTable env id
  pure { id := env.spelling id, deleted := true }

def restoreTable (env : LifecycleEnv) (id : Id) : Service RestoreResult := do
  let existing ← fetchIncludingDeleted tables tableRepository env .read id
    (requestedNotFound "Table" (env.spelling id))
  let _ ← fetch branches branchRepository env .parentRead existing.branchId
    (.conflict ("This table cannot be restored because its branch is deleted. " ++
      "Restore the branch first."))
  let conflict ← attempt (env.fails .uniqueRead)
    (tables.run (findByQrCodeToken env.toEnv existing.qrCodeToken))
  Fallible.throwIf (conflict.any fun r => r.id != env.spelling id)
    (.conflict ("Table number [" ++ existing.number ++ "] has already been recreated at this " ++
      "branch. Delete the replacement before restoring this record."))
  let _ ← attempt (env.fails .write) (tables.run (tableRepository.restore env.toEnv id {}))
  pure { id := env.spelling id }

/-! ## What the methods do -/

/-- A live table of a branch of the tenant. -/
def isLiveChild (branchId tenantId : Id) (r : Table) : Bool :=
  r.branchId == branchId && r.tenantId == tenantId && r.deletedAt.isNone

/-- The database with the branch and its live tables marked. -/
def withClosed (S : Option Id) (b : Branch) (now : Timestamp) (db : Db) : Db :=
  branches.set (rewriteWhere (ownRow S b.id) (branchTombstone now).apply db.branches)
    (tables.set (rewriteWhere (isLiveChild b.id b.tenantId) (tableTombstone now).apply db.tables)
      db)

section Methods

variable {signing : Signing} {env : LifecycleEnv} {id : Id} {w w' : World}

/-- Looking for a token leaves the tables. -/
theorem findByQrCodeToken_readsOnly {context : Env} {qrCodeToken : String} :
    Fallible.ReadsOnly (findByQrCodeToken context qrCodeToken) := by
  refine .bind (.reads _) fun tenantId => ?_
  cases tenantId with
  | none => exact .throw _
  | some T => exact fun _ => Delegate.findFirst_state _

/-- Counting the open orders leaves the database. -/
theorem countActiveOrders_readsOnly (branchId tableId : Option Id) (tenantId : Id) :
    Fallible.ReadsOnly (countActiveOrders env branchId tableId tenantId) :=
  attempt_readsOnly (fun w => run_read_state (by decide) _ _ w)

/-- The children of a branch in scope, as the cascade asks for them. -/
theorem liveTables_admits {S : Option Id} {b : Branch} (hscope : visible S b = true) :
    ((liveTablesWhere b.id b.tenantId).inScope S).admits prisma.table =
      isLiveChild b.id b.tenantId := by
  funext r
  cases S with
  | none =>
      cases hdeleted : r.deletedAt <;>
        simp [Where.inScope, Where.admits, liveTablesWhere, isLiveChild, prisma.table,
          ColumnKey.admits, TenantRow.tenantId, hdeleted, Bool.and_comm]
  | some T =>
      have htenant : b.tenantId = T := by
        simpa [visible, owned, TenantRow.tenantId] using hscope
      cases hdeleted : r.deletedAt <;>
        simp [Where.inScope, Where.withTenant, Where.admits, liveTablesWhere, isLiveChild,
          prisma.table, ColumnKey.admits, TenantRow.tenantId, hdeleted, htenant, Bool.and_comm]

theorem tables_marks {S : Option Id} {b : Branch} (hscope : visible S b = true)
    (now : Timestamp) :
    Marks tables prisma.table (isLiveChild b.id b.tenantId) (tableTombstone now) S where
  isScoped := by decide
  isRow _ := rfl
  nested := rfl
  id_apply _ := rfl
  done r := by simp [isLiveChild, tableTombstone, Payload.apply]
  inScope r hr := by
    cases S with
    | none => rfl
    | some T =>
        have htenant : b.tenantId = T := by
          simpa [visible, owned, TenantRow.tenantId] using hscope
        simp only [isLiveChild, Bool.and_eq_true, beq_iff_eq] at hr
        simp [visible, owned, TenantRow.tenantId, hr.1.2, htenant]
  set_set _ _ _ := rfl

/-- The transaction of a deletion that returned has marked the branch and its live tables. -/
theorem closeBranch_ok {S : Option Id} {b : Branch} {u : Unit} (hctx : env.context.Sees S)
    (hids : (w.db.tables.map (·.id)).Nodup) (hscope : visible S b = true)
    (h : closeBranch env b.id b.tenantId w = (.ok u, w')) :
    w' = { w with db := withClosed S b env.now w.db } := by
  rcases Fallible.bind_eq_ok.mp (Fallible.transaction_eq_ok.mp h) with ⟨_, w₁, hcascade, hrest⟩
  have hmarked := cascade_ok (tables_marks hscope env.now) hctx (liveTables_admits hscope) rfl
    hids hcascade
  rcases Fallible.bind_eq_ok.mp hrest with ⟨_, w₂, hupdate, hcommit⟩
  have hclosed := run_update_id branches_softDelete hctx rfl (attempt_eq_ok.mp hupdate).2
  cases (attempt_eq_ok.mp hcommit).2
  rw [hclosed.world, hmarked]
  rfl

/-- A creation that returned has appended a branch of the scope. -/
theorem createBranch_ok {dto : CreateBranchRequestDto} {a : Option Branch}
    (h : createBranch env dto w = (.ok a, w')) :
    ∃ S latitude longitude, env.context.Sees S ∧
      w' = { w with db := branches.set (w.db.branches ++
        [branchRepository.created env.toEnv S (newBranch dto latitude longitude)]) w.db } ∧
      ({ rows := w.db.branches, uniqueKeys := branches.uniqueKeys } : Store Branch).accepts
        (w.db.branches ++
          [branchRepository.created env.toEnv S (newBranch dto latitude longitude)]) = true := by
  rcases Fallible.bind_eq_ok.mp h with ⟨restaurant, w₁, hrestaurant, hrest₁⟩
  rcases fetch_ok restaurants_softDelete hrestaurant with ⟨hw₁, _, S, hctx, _⟩
  rcases Fallible.bind_eq_ok.mp hrest₁ with ⟨latitude, w₂, hlatitude, hrest₂⟩
  rcases Fallible.bind_eq_ok.mp hrest₂ with ⟨longitude, w₃, hlongitude, hcreate⟩
  have hw₂ : w₂ = w₁ := (storeNumber_readsOnly 9 6 _).state_eq hlatitude
  have hw₃ : w₃ = w₂ := (storeNumber_readsOnly 9 6 _).state_eq hlongitude
  rw [hw₃, hw₂, hw₁] at hcreate
  rcases run_create_appends hctx (by decide) rfl rfl (attempt_eq_ok.mp hcreate).2 with
    ⟨hw', haccepted, _⟩
  exact ⟨S, latitude, longitude, hctx, hw', haccepted⟩

/-- An update that returned has left the database, or rewritten the branch in scope. -/
theorem updateBranch_ok {dto : UpdateBranchRequestDto} {a : Option Branch}
    (h : updateBranch env id dto w = (.ok a, w')) :
    w' = w ∨ ∃ S latitude longitude, env.context.Sees S ∧
      branches.Rewrites (ownRow S id) (branchFields dto latitude longitude).apply w w' := by
  rcases Fallible.bind_eq_ok.mp h with ⟨b, w₁, hbranch, hrest⟩
  rcases fetch_ok branches_softDelete hbranch with ⟨hw₁, _, S, hctx, _⟩
  rw [hw₁] at hrest
  split at hrest
  · cases hrest
    exact Or.inl rfl
  · rcases Fallible.throwIf_bind_eq_ok.mp hrest with ⟨_, hrest⟩
    rcases Fallible.bind_eq_ok.mp hrest with ⟨latitude, w₂, hlatitude, hrest₂⟩
    rcases Fallible.bind_eq_ok.mp hrest₂ with ⟨longitude, w₃, hlongitude, hupdate⟩
    have hw₂ : w₂ = w := (storeNumber_readsOnly 9 6 _).state_eq hlatitude
    have hw₃ : w₃ = w₂ := (storeNumber_readsOnly 9 6 _).state_eq hlongitude
    rw [hw₃, hw₂] at hupdate
    exact Or.inr ⟨S, latitude, longitude, hctx,
      (run_update_live branches_softDelete hctx rfl (attempt_eq_ok.mp hupdate).2).2⟩

/-- A deletion that returned has closed a live branch in scope. -/
theorem deleteBranch_ok {a : SoftDeleteResult} (hids : (w.db.tables.map (·.id)).Nodup)
    (h : deleteBranch env id w = (.ok a, w')) :
    ∃ S b, env.context.Sees S ∧ b.id = id ∧
      w.db.branches.find? (liveRow branchDeletedAt S b.id) = some b ∧
      w' = { w with db := withClosed S b env.now w.db } := by
  rcases Fallible.bind_eq_ok.mp h with ⟨b, w₁, hbranch, hrest⟩
  rcases fetch_ok branches_softDelete hbranch with ⟨hw₁, _, S, hctx, hfound⟩
  rcases Fallible.bind_eq_ok.mp hrest with ⟨activeOrders, w₂, hcount, hrest₂⟩
  have hw₂ : w₂ = w₁ := (countActiveOrders_readsOnly _ _ _).state_eq hcount
  rcases Fallible.throwIf_bind_eq_ok.mp hrest₂ with ⟨_, hrest₃⟩
  rcases Fallible.bind_eq_ok.mp hrest₃ with ⟨_, w₃, hclose, hreturn⟩
  cases hreturn
  have hlive := List.find?_some hfound
  simp only [liveRow, ownRow, Bool.and_eq_true, beq_iff_eq] at hlive
  have hid : id = b.id := hlive.1.1
  rw [hw₂, hw₁, hid] at hclose
  rw [hid] at hfound
  exact ⟨S, b, hctx, hid.symm, hfound, closeBranch_ok hctx hids hlive.1.2 hclose⟩

/-- The {lit}`data` object that removes the tombstone of a branch. -/
def branchRestored : Payload Branch :=
  BaseTenantRepository.withDeletedAt branchDeletedAt reopened none

/-- A restoration that returned has left a live branch, or taken the tombstone away. -/
theorem restoreBranch_ok {a : RestoreResult} (h : restoreBranch env id w = (.ok a, w')) :
    ∃ S b, env.context.Sees S ∧ w.db.branches.find? (ownRow S id) = some b ∧
      if b.deletedAt.isNone then w' = w
      else branches.Rewrites (ownRow S id) branchRestored.apply w w' := by
  rcases Fallible.bind_eq_ok.mp h with ⟨_, w₁, hread, hrest⟩
  rcases fetchIncludingDeleted_ok branches_softDelete hread with ⟨hw₁, _, S, hctx, _⟩
  rcases Fallible.bind_eq_ok.mp hrest with ⟨_, w₂, hrestore, hreturn⟩
  cases hreturn
  rw [hw₁] at hrestore
  rcases run_setDeletedAt branches_softDelete hctx rfl (attempt_eq_ok.mp hrestore).2 with
    ⟨b, hb, heffect⟩
  exact ⟨S, b, hctx, hb, heffect⟩

theorem createBranch_atomic (env : LifecycleEnv) (dto : CreateBranchRequestDto) :
    Fallible.Atomic (createBranch env dto) :=
  .bind fetch_readsOnly fun _ => .bind (storeNumber_readsOnly _ _ _) fun _ =>
    .bind (storeNumber_readsOnly _ _ _) fun _ =>
      attempt_atomic (run_atomic (BaseTenantRepository.create_atomic _))

theorem updateBranch_atomic (env : LifecycleEnv) (id : Id) (dto : UpdateBranchRequestDto) :
    Fallible.Atomic (updateBranch env id dto) := by
  refine .bind (fetch_readsOnly) fun existing => ?_
  split
  · exact (Fallible.ReadsOnly.pure _).atomic
  · exact .bind (.throwIf _ _) fun _ => .bind (storeNumber_readsOnly _ _ _) fun _ =>
      .bind (storeNumber_readsOnly _ _ _) fun _ =>
        attempt_atomic (run_atomic (BaseTenantRepository.update_atomic _ _))

theorem deleteBranch_atomic (env : LifecycleEnv) (id : Id) :
    Fallible.Atomic (deleteBranch env id) :=
  .bind (fetch_readsOnly) fun _ => .bind (countActiveOrders_readsOnly _ _ _) fun _ =>
    .bind (.throwIf _ _) fun _ => (Fallible.Atomic.transaction _).bind_pure

theorem restoreBranch_atomic (env : LifecycleEnv) (id : Id) :
    Fallible.Atomic (restoreBranch env id) :=
  .bind fetchIncludingDeleted_readsOnly fun _ =>
    (attempt_atomic (run_atomic (BaseTenantRepository.setDeletedAt_atomic _ _ _ _))).bind_pure

theorem createTable_atomic (env : LifecycleEnv) (dto : CreateTableRequestDto) :
    Fallible.Atomic (createTable signing env dto) :=
  .bind (fetch_readsOnly) fun _ => .bind (.reads _) fun _ =>
    attempt_atomic (run_atomic (BaseTenantRepository.create_atomic _))

theorem updateTable_atomic (env : LifecycleEnv) (id : Id) (dto : UpdateTableRequestDto) :
    Fallible.Atomic (updateTable env id dto) := by
  refine .bind (fetch_readsOnly) fun existing => ?_
  split
  · exact (Fallible.ReadsOnly.pure _).atomic
  · exact .bind (.throwIf _ _) fun _ =>
      attempt_atomic (run_atomic (BaseTenantRepository.update_atomic _ _))

theorem removeTable_atomic (env : LifecycleEnv) (id : Id) :
    Fallible.Atomic (removeTable env id) :=
  attempt_atomic (run_atomic (BaseTenantRepository.setDeletedAt_atomic _ _ _ _))

theorem deleteTable_atomic (env : LifecycleEnv) (id : Id) :
    Fallible.Atomic (deleteTable env id) :=
  .bind (fetch_readsOnly) fun _ => .bind (countActiveOrders_readsOnly _ _ _) fun _ =>
    .bind (.throwIf _ _) fun _ => (removeTable_atomic env id).bind_pure

theorem restoreTable_atomic (env : LifecycleEnv) (id : Id) :
    Fallible.Atomic (restoreTable env id) :=
  .bind fetchIncludingDeleted_readsOnly fun _ => .bind fetch_readsOnly fun _ =>
    .bind (attempt_readsOnly (run_readsOnly findByQrCodeToken_readsOnly)) fun _ =>
      .bind (.throwIf _ _) fun _ => (attempt_atomic
        (run_atomic (BaseTenantRepository.setDeletedAt_atomic _ _ _ _))).bind_pure

end Methods

end BranchService
end Eleva
