import Eleva.Foundation.Text
import Eleva.Database.SoftDelete

/-!
# Menu - The public menu

What a guest who scanned a table sees: the context of the table, and the menu of the restaurant
behind its branch.

Main results:

- Definitions {lit}`getTableContext` and {lit}`getPublicMenu`: the methods.
- Theorem {lit}`getPublicMenu_iff`: when the menu is shown.
- Theorem {lit}`mem_categories_iff`: what it shows, where no cap cuts it.
-/

namespace Eleva
namespace PublicMenuService

open Foundation Database TableOf

/-! ## Answers -/

structure PublicTenantBranding where
  name : String
  logoUrl : Option String
  bannerUrl : Option String
  primaryColor : String
  secondaryColor : String
deriving DecidableEq, Repr

structure PublicTableContext where
  number : String
deriving DecidableEq, Repr

structure PublicBranchContext where
  id : Id
  name : String
deriving DecidableEq, Repr

structure PublicRestaurantContext where
  name : String
  currency : String
deriving DecidableEq, Repr

structure PublicAddonOption where
  id : Id
  name : String
  price : ℚ
  isAvailable : Bool
deriving DecidableEq, Repr

structure PublicAddonGroup where
  id : Id
  name : String
  minSelections : Int
  maxSelections : Int
  options : List PublicAddonOption
deriving DecidableEq, Repr

structure PublicProductSize where
  id : Id
  name : String
  priceAdjustment : ℚ
deriving DecidableEq, Repr

structure PublicProductVariant where
  id : Id
  name : String
  price : ℚ
  stockQuantity : Int
deriving DecidableEq, Repr

structure PublicProduct where
  id : Id
  name : String
  description : Option String
  imageUrl : Option String
  basePrice : ℚ
  calories : Option Int
  preparationTime : Int
  isAvailable : Bool
  sizes : List PublicProductSize
  variants : List PublicProductVariant
  addons : List PublicAddonGroup
deriving DecidableEq, Repr

structure PublicCategory where
  id : Id
  name : String
  products : List PublicProduct
deriving DecidableEq, Repr

structure TableContextResponse where
  table : PublicTableContext
  branch : PublicBranchContext
  restaurant : PublicRestaurantContext
  tenant : PublicTenantBranding
deriving DecidableEq, Repr

structure PublicMenuResponse extends TableContextResponse where
  categories : List PublicCategory
deriving DecidableEq, Repr

/-- The rows behind a token. -/
structure ResolvedTable where
  table : Table
  branch : Branch
  restaurant : Restaurant
deriving DecidableEq, Repr

/-- What the public menu draws from its surroundings: also how the database orders names. -/
structure PublicMenuEnv extends Env where
  nameLe : String → String → Bool := fun a b => decide (a ≤ b)

/-- Upper bound on the categories of the menu. -/
def MAX_CATEGORIES : ℕ := 100

/-- Upper bound on the products of a category. -/
def MAX_PRODUCTS_PER_CATEGORY : ℕ := 200

/-! ## The table behind a token -/

/-- The surroundings of {lit}`dbTenantContext.run` for a tenant. -/
def inTenant (env : Env) (tenantId : Id) : Env :=
  { env with context := { tenantId := some tenantId } }

def tokenUnresolved : AppError :=
  .notFound "The scanned QR code could not be resolved."

def tokenUnavailable : AppError :=
  .notFound "The scanned QR code is currently unavailable."

/-- The token of a request, unless it is blank. -/
def presented (token : Option String) : Option String :=
  token.filter fun s => trim s != ""

def resolveTableByToken (env : Env) (token : Option String) : Service ResolvedTable := do
  let qrCodeToken ← orThrow tokenUnresolved (presented token)
  let found ← tables.run (prisma.table.findFirst env
    { deletedAt := .filter fun d => d == none
      rest := fun r => r.qrCodeToken == qrCodeToken })
  let table ← orThrow tokenUnresolved found
  let found ← branches.run (prisma.branch.findFirst env
    { id := some table.branchId
      deletedAt := .filter fun d => d == none
      rest := fun b => b.isActive })
  let branch ← orThrow tokenUnavailable found
  let found ← restaurants.run (prisma.restaurant.findFirst env { id := some branch.restaurantId })
  let restaurant ← orThrow tokenUnavailable found
  pure { table, branch, restaurant }

def getTenantRecord (tenantId : Id) : Service Tenant := do
  Fallible.throwIf (tenantId == "")
    (.badRequest "Tenant context is required to resolve QR menu data.")
  let tenant ← Fallible.reads fun w => .ok (w.db.tenants.find? fun t => t.id == tenantId)
  orThrow (.notFound "The requested restaurant could not be resolved.") tenant

/-- Unpaid and canceled tenants take no guests. -/
def guestOrderingBlocked (status : TenantStatus) : Bool :=
  status == .UNPAID || status == .CANCELED

def guestOrderingUnavailable : AppError :=
  .forbidden "Online ordering is temporarily unavailable for this restaurant."

def assertGuestOrderingAllowed (status : TenantStatus) : Service Unit :=
  Fallible.throwIf (guestOrderingBlocked status) guestOrderingUnavailable

def toBranding (tenant : Tenant) : PublicTenantBranding where
  name := tenant.name
  logoUrl := tenant.logoUrl
  bannerUrl := tenant.bannerUrl
  primaryColor := tenant.primaryColor
  secondaryColor := tenant.secondaryColor

/-- The part of the answers that both methods share. -/
def tableContext (resolved : ResolvedTable) (tenant : Tenant) : TableContextResponse where
  table := { number := resolved.table.number }
  branch := { id := resolved.branch.id, name := resolved.branch.name }
  restaurant := { name := resolved.restaurant.name, currency := resolved.restaurant.currency }
  tenant := toBranding tenant

def getTableContext (env : Env) (token : Option String) (tenantId : Id) :
    Service TableContextResponse := do
  let resolved ← resolveTableByToken (inTenant env tenantId) token
  let tenant ← getTenantRecord tenantId
  assertGuestOrderingAllowed tenant.status
  pure (tableContext resolved tenant)

/-! ## The menu -/

section Projections

variable (db : Db)

def publicSize (s : ProductSize) : PublicProductSize :=
  { id := s.id, name := s.name, priceAdjustment := s.priceAdjustment.toNumber }

def publicVariant (v : ProductVariant) : PublicProductVariant :=
  { id := v.id, name := v.name, price := v.price.toNumber, stockQuantity := v.stockQuantity }

def publicOption (i : AddonItem) : PublicAddonOption :=
  { id := i.id, name := i.name, price := i.price.toNumber, isAvailable := i.isAvailable }

/-- An addon group with its available options. -/
def publicAddonGroup (g : ProductAddon) : PublicAddonGroup where
  id := g.id
  name := g.name
  minSelections := g.minSelections
  maxSelections := g.maxSelections
  options :=
    (db.addonItems.filter fun i => i.addonGroupId == g.id && i.isAvailable).map publicOption

/-- A product with its sizes, variants and addon groups.  Relation reads are outside the scope of
the tenant extension. -/
def publicProduct (p : Product) : PublicProduct where
  id := p.id
  name := p.name
  description := p.description
  imageUrl := p.imageUrl
  basePrice := p.basePrice.toNumber
  calories := p.calories
  preparationTime := p.preparationTime
  isAvailable := p.isAvailable
  sizes := (db.productSizes.filter fun s => s.productId == p.id).map publicSize
  variants := (db.productVariants.filter fun v => v.productId == p.id).map publicVariant
  addons := (db.productAddons.filter fun g => g.productId == p.id).map (publicAddonGroup db)

/-- The available products of a category. -/
def offeredProducts (categoryId : Id) : List Product :=
  db.products.filter fun p => p.categoryId == categoryId && p.isAvailable && p.deletedAt.isNone

/-- A category with its products, by name and up to the cap. -/
def publicCategory (nameLe : String → String → Bool) (c : Category) : PublicCategory where
  id := c.id
  name := c.name
  products :=
    (({ orderBy := some fun p q : Product => nameLe p.name q.name
        take := some MAX_PRODUCTS_PER_CATEGORY } : Args Product).arrange
      (offeredProducts db c.id)).map (publicProduct db)

end Projections

/-- The categories of a restaurant, by their place on the menu and their name, up to the cap. -/
def menuArgs (nameLe : String → String → Bool) (restaurantId : Id) : Args Category :=
  .page
    { deletedAt := .filter fun d => d == none
      rest := fun c => c.restaurantId == restaurantId && c.isActive }
    MAX_CATEGORIES
    (some fun c d => decide (c.sortOrder < d.sortOrder) ||
      c.sortOrder == d.sortOrder && nameLe c.name d.name)

def getPublicMenu (env : PublicMenuEnv) (token : Option String) (tenantId : Id) :
    Service PublicMenuResponse := do
  let resolved ← resolveTableByToken (inTenant env.toEnv tenantId) token
  let tenant ← getTenantRecord tenantId
  assertGuestOrderingAllowed tenant.status
  let categories ← categories.run (do
    let result ← invoke (inTenant env.toEnv tenantId) prisma.category .findMany
      (menuArgs env.nameLe resolved.branch.restaurantId)
    return result.found)
  let mapped ← Fallible.reads fun w => .ok ((categories.map (publicCategory w.db env.nameLe)).filter
    fun category => category.products.length != 0)
  pure { tableContext resolved tenant with categories := mapped }

/-! ## The rows behind an answer -/

section Lookups

variable (db : Db) (T : Id)

/-- The live table of the tenant that holds the token. -/
def scannedTable (qrCodeToken : String) : Option Table :=
  db.tables.find? fun r => r.tenantId == T && r.deletedAt.isNone && r.qrCodeToken == qrCodeToken

/-- The branch of the tenant with the id, live and active. -/
def openBranch (id : Id) : Option Branch :=
  db.branches.find? fun b => id == b.id && b.tenantId == T && b.deletedAt.isNone && b.isActive

/-- The restaurant of the tenant with the id, deleted or not. -/
def ownRestaurant (id : Id) : Option Restaurant :=
  db.restaurants.find? fun r => id == r.id && r.tenantId == T

/-- The categories that the menu of a restaurant may show. -/
def offeredCategories (restaurantId : Id) : List Category :=
  db.categories.filter fun c =>
    c.restaurantId == restaurantId && c.isActive && c.tenantId == T && c.deletedAt.isNone

end Lookups

theorem inTenant_holds (env : Env) {T : Id} (hT : T ≠ "") : (inTenant env T).context.Holds T :=
  ⟨rfl, hT⟩

section Runs

variable {env : Env} {T : Id} (hT : T ≠ "") (w : World)
include hT

theorem run_scannedTable (qrCodeToken : String) :
    tables.run (prisma.table.findFirst (inTenant env T)
      { deletedAt := .filter fun d => d == none
        rest := fun r => r.qrCodeToken == qrCodeToken }) w =
      (.ok (scannedTable w.db T qrCodeToken), w) := by
  have hsees : (inTenant env T).context.Sees (some T) := inTenant_holds env hT
  rw [run_client_findFirst hsees (by decide) rfl]
  unfold scannedTable
  congr 3
  funext r
  cases hdeleted : r.deletedAt <;>
    simp [Where.inScope, Where.withTenant, Where.admits, prisma.table, ColumnKey.admits,
      TenantRow.tenantId, hdeleted, Bool.and_comm]

theorem run_openBranch (id : Id) :
    branches.run (prisma.branch.findFirst (inTenant env T)
      { id := some id
        deletedAt := .filter fun d => d == none
        rest := fun b => b.isActive }) w = (.ok (openBranch w.db T id), w) := by
  have hsees : (inTenant env T).context.Sees (some T) := inTenant_holds env hT
  rw [run_client_findFirst hsees (by decide) rfl]
  unfold openBranch
  congr 3
  funext b
  cases hdeleted : b.deletedAt <;>
    simp [Where.inScope, Where.withTenant, Where.admits, prisma.branch, ColumnKey.admits,
      TenantRow.tenantId, TenantRow.id, hdeleted]

theorem run_ownRestaurant (id : Id) :
    restaurants.run (prisma.restaurant.findFirst (inTenant env T) { id := some id }) w =
      (.ok (ownRestaurant w.db T id), w) := by
  have hsees : (inTenant env T).context.Sees (some T) := inTenant_holds env hT
  rw [run_client_findFirst hsees (by decide) rfl]
  unfold ownRestaurant
  congr 3
  funext r
  simp [Where.inScope, Where.withTenant, Where.admits, prisma.restaurant, ColumnKey.admits,
    TenantRow.tenantId, TenantRow.id]

/-- A token is resolved to the rows behind it. -/
theorem resolveTableByToken_iff {token : Option String} {resolved : ResolvedTable} {w' : World} :
    resolveTableByToken (inTenant env T) token w = (.ok resolved, w') ↔
      w' = w ∧ ∃ qrCodeToken, presented token = some qrCodeToken ∧
        scannedTable w.db T qrCodeToken = some resolved.table ∧
        openBranch w.db T resolved.table.branchId = some resolved.branch ∧
        ownRestaurant w.db T resolved.branch.restaurantId = some resolved.restaurant := by
  constructor
  · intro h
    rcases Fallible.bind_eq_ok.mp h with ⟨qrCodeToken, w₁, htoken, hrest₁⟩
    rcases orThrow_eq_ok.mp htoken with ⟨hpresented, rfl⟩
    rw [Fallible.bind_of_ok (run_scannedTable hT _ _)] at hrest₁
    rcases Fallible.bind_eq_ok.mp hrest₁ with ⟨table, w₂, htable, hrest₂⟩
    rcases orThrow_eq_ok.mp htable with ⟨hscanned, rfl⟩
    rw [Fallible.bind_of_ok (run_openBranch hT _ _)] at hrest₂
    rcases Fallible.bind_eq_ok.mp hrest₂ with ⟨branch, w₃, hbranch, hrest₃⟩
    rcases orThrow_eq_ok.mp hbranch with ⟨hopen, rfl⟩
    rw [Fallible.bind_of_ok (run_ownRestaurant hT _ _)] at hrest₃
    rcases Fallible.bind_eq_ok.mp hrest₃ with ⟨restaurant, w₄, hrestaurant, hreturn⟩
    rcases orThrow_eq_ok.mp hrestaurant with ⟨hown, rfl⟩
    cases hreturn
    exact ⟨rfl, qrCodeToken, hpresented, hscanned, hopen, hown⟩
  · rintro ⟨rfl, qrCodeToken, htoken, htable, hbranch, hrestaurant⟩
    unfold resolveTableByToken
    rw [Fallible.bind_of_ok (orThrow_eq_ok.mpr ⟨htoken, rfl⟩),
      Fallible.bind_of_ok (run_scannedTable hT _ _),
      Fallible.bind_of_ok (orThrow_eq_ok.mpr ⟨htable, rfl⟩),
      Fallible.bind_of_ok (run_openBranch hT _ _),
      Fallible.bind_of_ok (orThrow_eq_ok.mpr ⟨hbranch, rfl⟩),
      Fallible.bind_of_ok (run_ownRestaurant hT _ _),
      Fallible.bind_of_ok (orThrow_eq_ok.mpr ⟨hrestaurant, rfl⟩)]
    rfl

theorem getTenantRecord_iff {tenant : Tenant} {w' : World} :
    getTenantRecord T w = (.ok tenant, w') ↔
      w' = w ∧ (w.db.tenants.find? fun t => t.id == T) = some tenant := by
  have hpass : (T == "") = false := by simpa using hT
  unfold getTenantRecord
  rw [hpass, Fallible.throwIf_false_bind, Fallible.bind_eq_ok]
  constructor
  · rintro ⟨found, w₁, hread, hthrow⟩
    cases hread
    rcases orThrow_eq_ok.mp hthrow with ⟨hfound, rfl⟩
    exact ⟨rfl, hfound⟩
  · rintro ⟨rfl, hfound⟩
    exact ⟨_, _, rfl, orThrow_eq_ok.mpr ⟨hfound, rfl⟩⟩

/-- The categories that the menu reads. -/
theorem run_menuCategories (nameLe : String → String → Bool) (restaurantId : Id) :
    categories.run (do
      let result ← invoke (inTenant env T) prisma.category .findMany
        (menuArgs nameLe restaurantId)
      return result.found) w =
      (.ok ((menuArgs nameLe restaurantId).arrange
        (offeredCategories w.db T restaurantId)), w) := by
  have hsees : (inTenant env T).context.Sees (some T) := inTenant_holds env hT
  have hadmits : ((menuArgs nameLe restaurantId).whereArg.inScope (some T)).admits
      prisma.category = fun c =>
        c.restaurantId == restaurantId && c.isActive && c.tenantId == T && c.deletedAt.isNone := by
    funext c
    cases hdeleted : c.deletedAt <;>
      simp [menuArgs, Args.page, Where.inScope, Where.withTenant, Where.admits, prisma.category,
        ColumnKey.admits, TenantRow.tenantId, hdeleted, Bool.and_comm]
  refine run_of_read ?_
  rw [Fallible.bind_of_ok (invoke_read hsees (by decide) (by simp) rfl rfl rfl rfl rfl),
    Fallible.pure_apply, Root.found_outcome rfl,
    Args.inScope_where (by simp [filteredOperations])]
  simp only [hadmits, findRoot]
  rfl

end Runs

/-! ## What the menu shows -/

/-- The categories of the menu of a restaurant: those with products. -/
def shownCategories (db : Db) (T : Id) (nameLe : String → String → Bool) (restaurantId : Id) :
    List PublicCategory :=
  (((menuArgs nameLe restaurantId).arrange (offeredCategories db T restaurantId)).map
    (publicCategory db nameLe)).filter fun category => category.products.length != 0

/-- The rows behind a menu that is shown. -/
structure Shown (db : Db) (T : Id) (token : Option String) (resolved : ResolvedTable)
    (tenant : Tenant) : Prop where
  table : ∃ qrCodeToken, presented token = some qrCodeToken ∧
    scannedTable db T qrCodeToken = some resolved.table
  branch : openBranch db T resolved.table.branchId = some resolved.branch
  restaurant : ownRestaurant db T resolved.branch.restaurantId = some resolved.restaurant
  record : (db.tenants.find? fun t => t.id == T) = some tenant
  allowed : guestOrderingBlocked tenant.status = false

/-- The menu is shown exactly when there are rows behind it, and it is that of their restaurant. -/
theorem getPublicMenu_iff {env : PublicMenuEnv} {T : Id} (hT : T ≠ "") {token : Option String}
    {menu : PublicMenuResponse} {w w' : World} :
    getPublicMenu env token T w = (.ok menu, w') ↔
      w' = w ∧ ∃ resolved tenant, Shown w.db T token resolved tenant ∧
        menu = { tableContext resolved tenant with
          categories := shownCategories w.db T env.nameLe resolved.branch.restaurantId } := by
  constructor
  · intro h
    rcases Fallible.bind_eq_ok.mp h with ⟨resolved, w₁, hresolve, hrest₁⟩
    rcases (resolveTableByToken_iff hT w).mp hresolve with
      ⟨hw₁, qrCodeToken, hpresented, htable, hbranch, hrestaurant⟩
    rcases Fallible.bind_eq_ok.mp hrest₁ with ⟨tenant, w₂, htenant, hrest₂⟩
    rw [hw₁] at htenant
    rcases (getTenantRecord_iff hT w).mp htenant with ⟨hw₂, hfound⟩
    rcases Fallible.throwIf_bind_eq_ok.mp hrest₂ with ⟨hallowed, hrest₃⟩
    rw [hw₂, Fallible.bind_of_ok (run_menuCategories hT w _ _)] at hrest₃
    cases hrest₃
    exact ⟨rfl, resolved, tenant,
      ⟨⟨qrCodeToken, hpresented, htable⟩, hbranch, hrestaurant, hfound, hallowed⟩, rfl⟩
  · rintro ⟨rfl, resolved, tenant, ⟨⟨qrCodeToken, hpresented, htable⟩, hbranch, hrestaurant,
      hfound, hallowed⟩, rfl⟩
    unfold getPublicMenu assertGuestOrderingAllowed
    rw [Fallible.bind_of_ok ((resolveTableByToken_iff hT _).mpr
        ⟨rfl, qrCodeToken, hpresented, htable, hbranch, hrestaurant⟩),
      Fallible.bind_of_ok ((getTenantRecord_iff hT _).mpr ⟨rfl, hfound⟩), hallowed,
      Fallible.throwIf_false_bind, Fallible.bind_of_ok (run_menuCategories hT _ _ _)]
    rfl

/-- Fewer rows than the cap: sorting and cutting them leaves them all. -/
theorem mem_arrange_iff {Row : Type} [TenantRow Row] {args : Args Row} {rows : List Row}
    {n : ℕ} (hskip : args.skip = 0) (htake : args.take = some n) (hcap : rows.length ≤ n)
    {r : Row} :
    r ∈ args.arrange rows ↔ r ∈ rows := by
  unfold Args.arrange
  rw [hskip, htake]
  simp only [List.drop_zero]
  cases args.orderBy with
  | none => rw [List.take_of_length_le hcap]
  | some le =>
      rw [List.take_of_length_le (by rwa [List.length_insertionSort]), List.mem_insertionSort]

/-- The products of a category on the menu. -/
theorem mem_products_iff {db : Db} {nameLe : String → String → Bool} {c : Category}
    (hcap : (offeredProducts db c.id).length ≤ MAX_PRODUCTS_PER_CATEGORY) {q : PublicProduct} :
    q ∈ (publicCategory db nameLe c).products ↔
      ∃ p ∈ offeredProducts db c.id, publicProduct db p = q := by
  unfold publicCategory
  simp only [List.mem_map]
  exact exists_congr fun p => and_congr_left fun _ => mem_arrange_iff rfl rfl hcap

/-- Where no cap cuts the menu, it shows the products that are available in categories of the
restaurant that are active. -/
theorem mem_categories_iff {db : Db} {T restaurantId productId : Id}
    {nameLe : String → String → Bool}
    (hcategories : (offeredCategories db T restaurantId).length ≤ MAX_CATEGORIES)
    (hproducts : ∀ c ∈ db.categories, (offeredProducts db c.id).length ≤
      MAX_PRODUCTS_PER_CATEGORY) :
    (∃ category ∈ shownCategories db T nameLe restaurantId, ∃ p ∈ category.products,
        p.id = productId) ↔
      ∃ c ∈ offeredCategories db T restaurantId, ∃ p ∈ offeredProducts db c.id,
        p.id = productId := by
  constructor
  · rintro ⟨category, hcategory, q, hq, hid⟩
    rcases List.mem_map.mp (List.mem_of_mem_filter hcategory) with ⟨c, hc, rfl⟩
    have hoffered := (mem_arrange_iff rfl rfl hcategories).mp hc
    rcases (mem_products_iff (hproducts c (List.mem_of_mem_filter hoffered))).mp hq with
      ⟨p, hp, rfl⟩
    exact ⟨c, hoffered, p, hp, hid⟩
  · rintro ⟨c, hc, p, hp, hid⟩
    have hcap := hproducts c (List.mem_of_mem_filter hc)
    have hq : publicProduct db p ∈ (publicCategory db nameLe c).products :=
      (mem_products_iff hcap).mpr ⟨p, hp, rfl⟩
    refine ⟨publicCategory db nameLe c, List.mem_filter.mpr ⟨List.mem_map.mpr
      ⟨c, (mem_arrange_iff rfl rfl hcategories).mpr hc, rfl⟩, ?_⟩, _, hq, hid⟩
    simpa using List.ne_nil_of_mem hq

end PublicMenuService
end Eleva
