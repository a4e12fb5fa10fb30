import Eleva.Auth.Login
import Eleva.Database.SoftDelete

/-!
# Tenant - Onboarding and tenant settings

The tenant service: the onboarding of a restaurant owner, which creates a tenant with its
subscription, owner account, owner role, restaurant and branch in one transaction, and the update
of a tenant's name, custom domain and branding.

Main results:

- Definitions {lit}`onboard` and {lit}`updateTenant`.
- Theorem {lit}`onboard_tenants`: an onboarding adds one tenant, or leaves the database.
- Theorems {lit}`onboard_distinct` and {lit}`updateTenant_distinct`: no two tenants have the same
  id, subdomain or custom domain.
-/

namespace Eleva
namespace TenantService

open Foundation Database Auth TableOf

/-! ## Requests and answers -/

/-- The first branch, with its opening hours as a JSON text. -/
structure BranchDetailsDto where
  name : String
  address : String
  phoneNumber : String
  latitude : Field ℚ := .undefined
  longitude : Field ℚ := .undefined
  operatingHours : Option String := none
deriving DecidableEq, Repr

structure CreateTenantRequestDto where
  companyName : String
  subdomain : String
  ownerFirstName : String
  ownerLastName : String
  ownerEmail : String
  ownerPassword : String
  planId : Id
  restaurantName : Option String := none
  currency : Option String := none
  timezone : Option String := none
  taxPercentage : Option ℚ := none
  branch : Option BranchDetailsDto := none
deriving DecidableEq, Repr

/-- The branding of an update; the values of {lit}`dynamic` are JSON texts. -/
structure BrandingDto where
  logoUrl : Field String := .undefined
  bannerUrl : Field String := .undefined
  primaryColor : Field String := .undefined
  secondaryColor : Field String := .undefined
  dynamic : Option (List (String × String)) := none
deriving DecidableEq, Repr

structure UpdateTenantRequestDto where
  name : Option String := none
  customDomain : Field String := .undefined
  branding : Option BrandingDto := none
deriving DecidableEq, Repr

/-- The caller of an update. -/
structure Requester where
  tenantId : Option Id
  roles : List String
deriving DecidableEq, Repr

structure OnboardedTenant where
  id : Id
  name : String
  subdomain : String
  status : TenantStatus
deriving DecidableEq, Repr

structure OnboardedOwner where
  id : Id
  email : String
deriving DecidableEq, Repr

structure OnboardedRestaurant where
  id : Id
  name : String
  currency : String
  timezone : String
deriving DecidableEq, Repr

structure OnboardedBranch where
  id : Id
  name : String
deriving DecidableEq, Repr

structure OnboardResponse where
  tenant : OnboardedTenant
  owner : OnboardedOwner
  restaurant : OnboardedRestaurant
  branch : OnboardedBranch
deriving DecidableEq, Repr

structure TenantResponse where
  id : Id
  name : String
  subdomain : String
  customDomain : Option String
  status : TenantStatus
  logoUrl : Option String
  bannerUrl : Option String
  primaryColor : String
  secondaryColor : String
  dynamicBranding : List (String × String)
  updatedAt : Timestamp
deriving DecidableEq, Repr

/-- What a call draws from its surroundings: also the salt of a password hash. -/
structure TenantEnv extends Env where
  salt : String := ""

/-! ## Tenants -/

/-- The unique indexes of the tenants. -/
def tenantKeys : List (Tenant → Option String) :=
  [fun t => some t.id, fun t => some t.subdomain, fun t => t.customDomain]

/-- The tenants, with the indexes that writes are checked against.  The extension of the client
leaves them alone. -/
def tenantStore (db : Db) : Store Tenant where
  rows := db.tenants
  uniqueKeys := tenantKeys

/-- Replace the tenants, unless an index refuses them. -/
def writeTenants (rows : List Tenant) : Service Unit := fun w =>
  if (tenantStore w.db).accepts rows then
    (.ok (), { w with db := { w.db with tenants := rows } })
  else (.error (.client .constraintViolation), w)

/-- {lit}`prisma.tenant.findUnique`. -/
def findTenant (isThis : Tenant → Bool) : Service (Option Tenant) :=
  Fallible.reads fun w => .ok (w.db.tenants.find? isThis)

/-- {lit}`tx.tenant.create`. -/
def createTenant (t : Tenant) : Service Unit := fun w =>
  writeTenants (w.db.tenants ++ [t]) w

/-- {lit}`prisma.tenant.update`. -/
def updateTenantRow (id : Id) (change : Tenant → Tenant) : Service Tenant := fun w =>
  match w.db.tenants.find? fun t => t.id == id with
  | none => (.error (.client .recordNotFound), w)
  | some t =>
      (do
        writeTenants (w.db.tenants.map fun r => if r.id == id then change r else r)
        return change t : Service Tenant) w

/-! ## Onboarding -/

/-- The surroundings of the onboarding: no tenant yet, with platform privilege. -/
def TenantEnv.platform (env : TenantEnv) (drawn : ℕ) : Env where
  context := { tenantId := none, isPlatformOwner := true }
  uuid n := env.uuid (drawn + n)
  now := env.now

/-- The row that a creation returns. -/
def createRow {Row : Type} [DecidableEq Row] [TenantRow Row] (t : TableOf Row) (m : Delegate Row)
    (env : Env) (data : Payload Row) : Service Row := do
  let created ← t.run (m.create env data)
  orThrow .failure created

def newTenant (env : TenantEnv) (dto : CreateTenantRequestDto) : Tenant where
  id := env.uuid 0
  name := dto.companyName
  subdomain := dto.subdomain
  status := .TRIALING

/-- The trial of fourteen days. -/
def trialPayload (env : TenantEnv) (dto : CreateTenantRequestDto) : Payload Subscription where
  tenantId := some (some (env.uuid 0))
  assign s :=
    { s with
      planId := dto.planId
      status := .TRIALING
      currentPeriodStart := env.now
      currentPeriodEnd := env.now + 14 * 24 * 60 * 60 * 1000 }

/-- A subscription names a plan. -/
def createTrial (env : TenantEnv) (dto : CreateTenantRequestDto) : Service Unit := do
  let planned ← Fallible.reads fun w => .ok (w.db.subscriptionPlans.any (·.id == dto.planId))
  Fallible.throwIf (!planned) (.client .constraintViolation)
  let _ ← createRow subscriptions prisma.subscription (env.platform 1) (trialPayload env dto)
  return ()

def ownerPayload (rt : Runtime) (env : TenantEnv) (dto : CreateTenantRequestDto) :
    Payload User where
  tenantId := some (some (env.uuid 0))
  assign u :=
    { u with
      firstName := dto.ownerFirstName
      lastName := dto.ownerLastName
      email := rt.toLowerCase dto.ownerEmail
      passwordHash := rt.hashPassword dto.ownerPassword env.salt }

def ownerRolePayload (env : TenantEnv) : Payload Role where
  tenantId := some (some (env.uuid 0))
  assign r := { r with name := "RESTAURANT_OWNER", displayName := "Restaurant Owner" }

/-- The permissions of the owner role: those of the oldest other owner role if it has any, else
all. -/
def ownerPermissionIds (db : Db) (ownerRoleId : Id) : List Id :=
  let canonicalOwnerRole := db.roles.find? fun r =>
    r.name == "RESTAURANT_OWNER" && r.id != ownerRoleId
  match canonicalOwnerRole with
  | some role => if role.permissionIds.isEmpty then db.permissions.map (·.id)
      else role.permissionIds
  | none => db.permissions.map (·.id)

/-- The owner with a role that has the permissions of an owner. -/
def createOwner (rt : Runtime) (env : TenantEnv) (dto : CreateTenantRequestDto) :
    Service User := do
  let owner ← createRow users prisma.user (env.platform 2) (ownerPayload rt env dto)
  let ownerRole ← createRow roles prisma.role (env.platform 3) (ownerRolePayload env)
  let _ ← users.run (prisma.user.update (env.platform 0) { id := some owner.id }
    { assign := fun u => { u with roleIds := u.roleIds ++ [ownerRole.id] } })
  let permissionIds ← Fallible.reads fun w => .ok (ownerPermissionIds w.db ownerRole.id)
  let _ ← roles.run (prisma.role.update (env.platform 0) { id := some ownerRole.id }
    { assign := fun r => { r with permissionIds := permissionIds } })
  return owner

/-- A value of the wizard, unless it is empty. -/
def orDefault (value : Option String) (fallback : String) : String :=
  if truthy value then value.getD fallback else fallback

def restaurantPayload (env : TenantEnv) (dto : CreateTenantRequestDto)
    (taxPercentage : Percentage) : Payload Restaurant where
  tenantId := some (some (env.uuid 0))
  assign r :=
    { r with
      name := orDefault dto.restaurantName dto.companyName
      currency := orDefault dto.currency "USD"
      timezone := orDefault dto.timezone "UTC"
      taxPercentage := taxPercentage }

/-- The hours of a day in JSON. -/
def dayHours (day opens closes : String) : String :=
  "\"" ++ day ++ "\":\x7b\"open\":\"" ++ opens ++ "\",\"close\":\"" ++ closes ++
    "\",\"closed\":false\x7d"

def defaultOperatingHours : String :=
  "\x7b" ++ ",".intercalate
    [dayHours "monday" "09:00" "22:00", dayHours "tuesday" "09:00" "22:00",
      dayHours "wednesday" "09:00" "22:00", dayHours "thursday" "09:00" "22:00",
      dayHours "friday" "09:00" "23:00", dayHours "saturday" "10:00" "23:00",
      dayHours "sunday" "10:00" "21:00"] ++ "\x7d"

def branchPayload (env : TenantEnv) (dto : CreateTenantRequestDto) (restaurantId : Id)
    (latitude longitude : Field Coordinate) : Payload Branch where
  tenantId := some (some (env.uuid 0))
  assign b :=
    { b with
      restaurantId := restaurantId
      name := orDefault (dto.branch.map (·.name)) "Main Branch"
      address := orDefault (dto.branch.map (·.address)) "Default Branch Address"
      phoneNumber := orDefault (dto.branch.map (·.phoneNumber)) "+15550199"
      operatingHours := (dto.branch.bind (·.operatingHours)).getD defaultOperatingHours
      latitude := latitude.write none
      longitude := longitude.write none }

/-- The coordinates of the first branch, if both are given. -/
def coordinatesOf (dto : CreateTenantRequestDto) : Field ℚ × Field ℚ :=
  match dto.branch with
  | none => (.undefined, .undefined)
  | some branch =>
      if branch.latitude.isDefined && branch.longitude.isDefined then
        (branch.latitude, branch.longitude)
      else (.undefined, .undefined)

def createRestaurant (env : TenantEnv) (dto : CreateTenantRequestDto) : Service Restaurant := do
  let taxPercentage ← orThrow (.client .constraintViolation)
    (Decimal.ofNumber 5 2 (dto.taxPercentage.getD 0))
  createRow restaurants prisma.restaurant (env.platform 4) (restaurantPayload env dto taxPercentage)

def createFirstBranch (env : TenantEnv) (dto : CreateTenantRequestDto) (restaurantId : Id) :
    Service Branch := do
  let latitude ← storeNumber 9 6 (coordinatesOf dto).1
  let longitude ← storeNumber 9 6 (coordinatesOf dto).2
  createRow branches prisma.branch (env.platform 5)
    (branchPayload env dto restaurantId latitude longitude)

/-- The subscription, owner, restaurant and branch of a new tenant. -/
def provisionWorkspace (rt : Runtime) (env : TenantEnv) (dto : CreateTenantRequestDto) :
    Service OnboardResponse := do
  createTrial env dto
  let owner ← createOwner rt env dto
  let restaurant ← createRestaurant env dto
  let branch ← createFirstBranch env dto restaurant.id
  return {
    tenant := ⟨env.uuid 0, dto.companyName, dto.subdomain, .TRIALING⟩
    owner := ⟨owner.id, owner.email⟩
    restaurant := ⟨restaurant.id, restaurant.name, restaurant.currency, restaurant.timezone⟩
    branch := ⟨branch.id, branch.name⟩ }

/-- The transaction of the onboarding. -/
def provision (rt : Runtime) (env : TenantEnv) (dto : CreateTenantRequestDto) :
    Service OnboardResponse := do
  createTenant (newTenant env dto)
  provisionWorkspace rt env dto

/-- An account of some tenant with the email. -/
def findOwnerEmail (env : TenantEnv) (email : String) : Service (Option User) :=
  users.run (prisma.user.findFirst (env.platform 0)
    { tenantId := .filter (fun t => t != none), rest := fun u => u.email == email })

/-- Onboard a restaurant owner.  The welcome email is sent without waiting for it. -/
def onboard (rt : Runtime) (env : TenantEnv) (dto : CreateTenantRequestDto) :
    Service OnboardResponse := do
  let existingTenant ← findTenant fun t => t.subdomain == dto.subdomain
  Fallible.throwIf existingTenant.isSome
    (.conflict "The requested subdomain is already registered.")
  let existingUser ← findOwnerEmail env (rt.toLowerCase dto.ownerEmail)
  Fallible.throwIf existingUser.isSome
    (.conflict "An account with this email address already exists.")
  Fallible.transaction (provision rt env dto)

/-! ## Updates -/

/-- A tenant that the caller may update. -/
def assertOwnTenant (id : Id) (requester : Option Requester) : Service Unit :=
  Fallible.throwIf
    (requester.any fun r => truthy r.tenantId && !r.roles.contains "PLATFORM_OWNER" &&
      r.tenantId != some id)
    (.forbidden "Access denied: Cannot modify another tenant")

/-- A custom domain that no other tenant has. -/
def assertDomainFree (id : Id) (customDomain : Field String) : Service Unit :=
  match customDomain with
  | .value domain =>
      if domain = "" then pure ()
      else do
        let domainConflict ← findTenant fun t => t.customDomain == some domain
        Fallible.throwIf (domainConflict.any (·.id != id))
          (.conflict ("Custom domain [" ++ domain ++ "] is already registered."))
  | _ => pure ()

/-- The keys of an object, overwritten and followed by those of another one. -/
def spread (existing overwriting : List (String × String)) : List (String × String) :=
  existing.map (fun e => (e.1, (overwriting.lookup e.1).getD e.2)) ++
    overwriting.filter fun e => (existing.lookup e.1).isNone

/-- The {lit}`data` object of an update. -/
def tenantData (dto : UpdateTenantRequestDto) (t : Tenant) : Tenant :=
  let branding := dto.branding.getD {}
  { t with
    name := orDefault dto.name t.name
    customDomain := dto.customDomain.write t.customDomain
    logoUrl := branding.logoUrl.write t.logoUrl
    bannerUrl := branding.bannerUrl.write t.bannerUrl
    primaryColor := branding.primaryColor.getD t.primaryColor
    secondaryColor := branding.secondaryColor.getD t.secondaryColor
    branding := spread t.branding (branding.dynamic.getD []) }

/-- A required column would be null. -/
def UpdateTenantRequestDto.isRefused (dto : UpdateTenantRequestDto) : Bool :=
  dto.branding.any fun b => b.primaryColor.isNull || b.secondaryColor.isNull

def tenantResponse (now : Timestamp) (t : Tenant) : TenantResponse where
  id := t.id
  name := t.name
  subdomain := t.subdomain
  customDomain := t.customDomain
  status := t.status
  logoUrl := t.logoUrl
  bannerUrl := t.bannerUrl
  primaryColor := t.primaryColor
  secondaryColor := t.secondaryColor
  dynamicBranding := t.branding
  updatedAt := now

def updateTenant (env : TenantEnv) (id : Id) (dto : UpdateTenantRequestDto)
    (requester : Option Requester) : Service TenantResponse := do
  let existing ← findTenant fun t => t.id == id
  Fallible.throwIf existing.isNone (.notFound ("Tenant with ID [" ++ id ++ "] not found."))
  assertOwnTenant id requester
  assertDomainFree id dto.customDomain
  Fallible.throwIf dto.isRefused (.client .constraintViolation)
  let updated ← updateTenantRow id (tenantData dto)
  return tenantResponse env.now updated

/-! ## The tenants after a call -/

section Tenants

variable {ts : List Tenant} {w w' : World}

/-- No two tenants have the same id, subdomain or custom domain. -/
def Distinct (tenants : List Tenant) : Prop :=
  ∀ key ∈ tenantKeys, (tenants.filterMap key).Nodup

theorem accepts_iff_distinct {db : Db} :
    (tenantStore db).accepts ts = true ↔ Distinct ts := by
  simp [Store.accepts, tenantStore, Distinct]

/-- A write on the tenants is done where the indexes hold after it. -/
theorem writeTenants_cases (ts : List Tenant) (w : World) :
    (∃ e, writeTenants ts w = (.error e, w)) ∨
      (Distinct ts ∧
        writeTenants ts w = (.ok (), { w with db := { w.db with tenants := ts } })) := by
  unfold writeTenants
  split
  · next haccepts => exact Or.inr ⟨accepts_iff_distinct.mp haccepts, rfl⟩
  · exact Or.inl ⟨_, rfl⟩

section Frames

variable {I : World → Prop}

theorem createRow_keeps {Row : Type} [DecidableEq Row] [TenantRow Row] {t : TableOf Row}
    (hI : ∀ rows w, I w → I { w with db := t.set rows w.db }) (m : Delegate Row) (env : Env)
    (data : Payload Row) : Fallible.Keeps I (createRow t m env data) := by
  unfold createRow
  refine .bind (run_keeps hI _) fun created => ?_
  cases created with
  | none => exact .throw _
  | some row => exact .pure row

theorem createTrial_keeps (hI : ∀ rows w, I w → I { w with db := subscriptions.set rows w.db })
    (env : TenantEnv) (dto : CreateTenantRequestDto) :
    Fallible.Keeps I (createTrial env dto) := by
  unfold createTrial
  refine .bind (.reads _) fun planned => .bind (.throwIf _ _) fun _ => ?_
  exact .bind (createRow_keeps hI _ _ _) fun _ => .pure _

theorem createOwner_keeps (husers : ∀ rows w, I w → I { w with db := users.set rows w.db })
    (hroles : ∀ rows w, I w → I { w with db := roles.set rows w.db }) (rt : Runtime)
    (env : TenantEnv) (dto : CreateTenantRequestDto) :
    Fallible.Keeps I (createOwner rt env dto) := by
  unfold createOwner
  refine .bind (createRow_keeps husers _ _ _) fun owner => ?_
  refine .bind (createRow_keeps hroles _ _ _) fun ownerRole => ?_
  refine .bind (run_keeps husers _) fun _ => .bind (.reads _) fun ids => ?_
  exact .bind (run_keeps hroles _) fun _ => .pure _

theorem orThrow_keeps {α : Type} (e : AppError) (a : Option α) :
    Fallible.Keeps I (orThrow e a) := by
  cases a with
  | none => exact .throw _
  | some a => exact .pure a

theorem createRestaurant_keeps (hI : ∀ rows w, I w → I { w with db := restaurants.set rows w.db })
    (env : TenantEnv) (dto : CreateTenantRequestDto) :
    Fallible.Keeps I (createRestaurant env dto) := by
  unfold createRestaurant
  exact .bind (orThrow_keeps _ _) fun _ => createRow_keeps hI _ _ _

theorem createFirstBranch_keeps (hI : ∀ rows w, I w → I { w with db := branches.set rows w.db })
    (env : TenantEnv) (dto : CreateTenantRequestDto) (restaurantId : Id) :
    Fallible.Keeps I (createFirstBranch env dto restaurantId) := by
  unfold createFirstBranch
  refine .bind (.of_unchanged (storeNumber_readsOnly 9 6 _)) fun latitude => ?_
  refine .bind (.of_unchanged (storeNumber_readsOnly 9 6 _)) fun longitude => ?_
  exact createRow_keeps hI _ _ _

end Frames

theorem provisionWorkspace_keeps (rt : Runtime) (env : TenantEnv)
    (dto : CreateTenantRequestDto) :
    Fallible.Keeps (fun w => w.db.tenants = ts) (provisionWorkspace rt env dto) := by
  unfold provisionWorkspace
  refine .bind (createTrial_keeps (fun _ _ h => h) env dto) fun _ => ?_
  refine .bind (createOwner_keeps (fun _ _ h => h) (fun _ _ h => h) rt env dto) fun owner => ?_
  refine .bind (createRestaurant_keeps (fun _ _ h => h) env dto) fun restaurant => ?_
  exact .bind (createFirstBranch_keeps (fun _ _ h => h) env dto _) fun _ => .pure _

theorem findOwnerEmail_readsOnly (env : TenantEnv) (email : String) :
    Fallible.ReadsOnly (findOwnerEmail env email) :=
  run_findFirst_state _

/-- A transaction that commits has added the tenant. -/
theorem provision_ok {rt : Runtime} {env : TenantEnv} {dto : CreateTenantRequestDto}
    {response : OnboardResponse} (h : provision rt env dto w = (.ok response, w')) :
    w'.db.tenants = w.db.tenants ++ [newTenant env dto] ∧ Distinct w'.db.tenants := by
  unfold provision at h
  rcases Fallible.bind_eq_ok.mp h with ⟨_, w₁, hcreate, hrest⟩
  unfold createTenant at hcreate
  rcases writeTenants_cases (w.db.tenants ++ [newTenant env dto]) w with
    ⟨e, hrefused⟩ | ⟨hdistinct, hwritten⟩
  · rw [hrefused] at hcreate
    cases hcreate
  · rw [hwritten] at hcreate
    cases hcreate
    have htenants := provisionWorkspace_keeps rt env dto
      { w with db := { w.db with tenants := w.db.tenants ++ [newTenant env dto] } } rfl
    rw [hrest] at htenants
    exact ⟨htenants, by rw [htenants]; exact hdistinct⟩

/-- An onboarding adds one tenant, or leaves the database. -/
theorem onboard_tenants (rt : Runtime) (env : TenantEnv) (dto : CreateTenantRequestDto)
    (w : World) :
    (∃ e, onboard rt env dto w = (.error e, w)) ∨
      ∃ response w', onboard rt env dto w = (.ok response, w') ∧
        w'.db.tenants = w.db.tenants ++ [newTenant env dto] ∧ Distinct w'.db.tenants := by
  have hatomic : Fallible.Atomic (onboard rt env dto) :=
    .bind (.reads _) fun _ => .bind (.throwIf _ _) fun _ =>
      .bind (findOwnerEmail_readsOnly env _) fun _ => .bind (.throwIf _ _) fun _ => .transaction _
  rcases hrun : onboard rt env dto w with ⟨e | response, w'⟩
  · exact Or.inl ⟨e, by rw [hatomic w e w' hrun]⟩
  · refine Or.inr ⟨response, w', rfl, ?_⟩
    unfold onboard at hrun
    rcases Fallible.bind_eq_ok.mp hrun with ⟨_, w₁, hfind, hrest⟩
    rcases Fallible.reads_eq_ok.mp hfind with ⟨_, rfl⟩
    rcases Fallible.throwIf_bind_eq_ok.mp hrest with ⟨_, hfree⟩
    rcases Fallible.bind_eq_ok.mp hfree with ⟨_, w₂, hemail, hcreates⟩
    have hkept := (findOwnerEmail_readsOnly env _).state_eq hemail
    subst hkept
    rcases Fallible.throwIf_bind_eq_ok.mp hcreates with ⟨_, hcommits⟩
    exact provision_ok (Fallible.transaction_eq_ok.mp hcommits)

/-- An onboarding keeps tenants apart. -/
theorem onboard_distinct (rt : Runtime) (env : TenantEnv) (dto : CreateTenantRequestDto) :
    Fallible.Keeps (fun w => Distinct w.db.tenants) (onboard rt env dto) := by
  intro w hw
  rcases onboard_tenants rt env dto w with ⟨e, hrun⟩ | ⟨response, w', hrun, _, hdistinct⟩
  · rw [hrun]
    exact hw
  · rw [hrun]
    exact hdistinct

theorem updateTenantRow_distinct (id : Id) (change : Tenant → Tenant) :
    Fallible.Keeps (fun w => Distinct w.db.tenants) (updateTenantRow id change) := by
  intro w hw
  unfold updateTenantRow
  cases w.db.tenants.find? fun t => t.id == id with
  | none => exact hw
  | some t =>
      simp only [Fallible.bind_apply]
      rcases writeTenants_cases (w.db.tenants.map fun r => if r.id == id then change r else r) w
        with ⟨e, hrefused⟩ | ⟨hdistinct, hwritten⟩
      · rw [hrefused]
        exact hw
      · rw [hwritten]
        exact hdistinct

theorem assertDomainFree_readsOnly (id : Id) (customDomain : Field String) :
    Fallible.ReadsOnly (assertDomainFree id customDomain) := by
  unfold assertDomainFree
  cases customDomain with
  | undefined => exact .pure _
  | null => exact .pure _
  | value domain =>
      simp only
      split
      · exact .pure _
      · exact .bind (.reads _) fun _ => .throwIf _ _

/-- An update keeps tenants apart. -/
theorem updateTenant_distinct (env : TenantEnv) (id : Id) (dto : UpdateTenantRequestDto)
    (requester : Option Requester) :
    Fallible.Keeps (fun w => Distinct w.db.tenants) (updateTenant env id dto requester) :=
  .bind (.reads _) fun _ => .bind (.throwIf _ _) fun _ => .bind (.throwIf _ _) fun _ =>
    .bind (.of_unchanged (assertDomainFree_readsOnly id _)) fun _ => .bind (.throwIf _ _) fun _ =>
      .bind (updateTenantRow_distinct id _) fun _ => .pure _

end Tenants

end TenantService
end Eleva
