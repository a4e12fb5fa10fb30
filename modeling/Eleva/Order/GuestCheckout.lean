import Eleva.Order.Totals
import Eleva.Branch.FloorPlan
import Eleva.Menu.PublicMenu

/-!
# Order - Checkout by guests

The order service's {lit}`createGuestOrder`: the token of the scanned table decides the branch and
the table of the order, and the checkout follows.  What it accepts is compared with what the
public menu shows for the same token.

Main results:

- Definition {lit}`createGuestOrder`: the method.
- Theorem {lit}`createGuestOrder_bound_iff`: an accepted guest order is bound to a table whose menu
  is shown exactly when the branch of the table is active.
- Theorem {lit}`createGuestOrder_items_iff`: its products are on the menu exactly when their
  categories are those of the menu.
-/

namespace Eleva
namespace OrderService

open Foundation Database TableOf PublicMenuService

/-! ## The method -/

/-- The statements of a guest checkout before the checkout. -/
inductive GuestStep where
  | scannedTable
  | tenant
deriving DecidableEq, Repr

/-- What a guest checkout draws from its surroundings. -/
structure GuestEnv extends CheckoutEnv where
  guestFails : GuestStep → Bool := fun _ => false

/-- The surroundings of {lit}`dbTenantContext.run` for a tenant. -/
def GuestEnv.inTenant (env : GuestEnv) (tenantId : Id) : CheckoutEnv :=
  { env.toCheckoutEnv with context := { tenantId := some tenantId } }

/-- The order with the branch and the table of the token. -/
def CreateOrderRequestDto.boundTo (dto : CreateOrderRequestDto) (table : Table) :
    CreateOrderRequestDto :=
  { dto with branchId := table.branchId, tableId := some table.id }

def createGuestOrder (env : GuestEnv) (dto : CreateOrderRequestDto) (guestTenantId : Id) :
    Service Order := do
  Fallible.throwIf (guestTenantId == "")
    (.badRequest "Tenant context is required for guest checkout.")
  let qrCodeToken ← orThrow (.badRequest "A valid qrCodeToken is required for guest checkout.")
    (dto.qrCodeToken.filter fun s => trim s != "")
  let found ← attempt (env.guestFails .scannedTable)
    (tables.run (findByQrCodeToken (env.inTenant guestTenantId).toEnv qrCodeToken))
  let table ← orThrow (.notFound "The scanned QR code could not be resolved.") found
  Fallible.throwIf (dto.branchId != table.branchId)
    (.badRequest "The order target branch does not match the scanned table branch.")
  Fallible.throwIf ((orNull dto.tableId).any fun tableId => tableId != table.id)
    (.badRequest "The order target table does not match the scanned QR table.")
  let tenant ← attempt (env.guestFails .tenant)
    (Fallible.reads fun w => .ok (w.db.tenants.find? fun t => t.id == guestTenantId))
  Fallible.throwIf (tenant.any fun t => t.status == .UNPAID || t.status == .CANCELED)
    (.forbidden "Online ordering is temporarily unavailable for this restaurant.")
  createOrder (env.inTenant guestTenantId) (dto.boundTo table) guestTenantId

/-! ## What an accepted guest order was checked for -/

section Accepted

variable {env : GuestEnv} {dto : CreateOrderRequestDto} {T : Id} {w w' : World} {order : Order}

theorem inTenant_sees (env : GuestEnv) (hT : T ≠ "") :
    (env.inTenant T).context.Sees (some T) :=
  (⟨rfl, hT⟩ : (env.inTenant T).context.Holds T)

/-- The table of a token, as the checkout looks it up. -/
theorem run_findByQrCodeToken (hT : T ≠ "") (qrCodeToken : String) (w : World) :
    tables.run (findByQrCodeToken (env.inTenant T).toEnv qrCodeToken) w =
      (.ok (scannedTable w.db T qrCodeToken), w) := by
  have hsees := inTenant_sees env hT
  have hadmits : (({ tenantId := .filter fun t => t == some T
                     deletedAt := .filter fun d => d == none
                     rest := fun r => r.qrCodeToken == qrCodeToken } : Where Table).inScope
      (some T)).admits prisma.table = fun r =>
        r.tenantId == T && r.deletedAt.isNone && r.qrCodeToken == qrCodeToken := by
    funext r
    cases hdeleted : r.deletedAt <;>
      simp [Where.inScope, Where.withTenant, Where.admits, prisma.table, ColumnKey.admits,
        TenantRow.tenantId, hdeleted, Bool.and_comm]
  refine run_of_read ?_
  unfold findByQrCodeToken
  rw [BaseTenantRepository.getTenantId_of_sees hsees, Fallible.reads_ok_bind]
  simp only
  rw [tableRepository, Delegate.findFirst_apply hsees (by decide) rfl, hadmits]
  rfl

/-- What an accepted guest order was checked for, before the checkout. -/
structure GuestAccepted (db : Db) (T : Id) (dto : CreateOrderRequestDto) (table : Table) :
    Prop where
  tenantId : T ≠ ""
  scanned : ∃ qrCodeToken, presented dto.qrCodeToken = some qrCodeToken ∧
    scannedTable db T qrCodeToken = some table
  allowed : ∀ tenant, (db.tenants.find? fun t => t.id == T) = some tenant →
    guestOrderingBlocked tenant.status = false

theorem createGuestOrder_ok (h : createGuestOrder env dto T w = (.ok order, w')) :
    ∃ table, GuestAccepted w.db T dto table ∧
      createOrder (env.inTenant T) (dto.boundTo table) T w = (.ok order, w') := by
  rcases Fallible.throwIf_bind_eq_ok.mp h with ⟨htenantId, hrest₁⟩
  have hT : T ≠ "" := by simpa using htenantId
  rcases Fallible.bind_eq_ok.mp hrest₁ with ⟨qrCodeToken, w₁, htoken, hrest₂⟩
  rcases orThrow_eq_ok.mp htoken with ⟨hpresented, hw₁⟩
  rcases Fallible.bind_eq_ok.mp hrest₂ with ⟨found, w₂, hfind, hrest₃⟩
  have hlookup := (attempt_eq_ok.mp hfind).2
  rw [run_findByQrCodeToken hT, hw₁] at hlookup
  cases hlookup
  rcases Fallible.bind_eq_ok.mp hrest₃ with ⟨table, w₃, htable, hrest₄⟩
  rcases orThrow_eq_ok.mp htable with ⟨hscanned, hw₃⟩
  rcases Fallible.throwIf_bind_eq_ok.mp hrest₄ with ⟨_, hrest₅⟩
  rcases Fallible.throwIf_bind_eq_ok.mp hrest₅ with ⟨_, hrest₆⟩
  rcases Fallible.bind_eq_ok.mp hrest₆ with ⟨tenant, w₄, htenant, hrest₇⟩
  rcases Fallible.reads_eq_ok.mp (attempt_eq_ok.mp htenant).2 with ⟨hread, hw₄⟩
  rcases Fallible.throwIf_bind_eq_ok.mp hrest₇ with ⟨hallowed, hcheckout⟩
  rw [hw₃] at hread hw₄
  rw [hw₄] at hcheckout
  refine ⟨table, ⟨hT, ⟨qrCodeToken, hpresented, hscanned⟩, fun t ht => ?_⟩, hcheckout⟩
  rw [ht] at hread
  cases hread
  exact hallowed

end Accepted

/-! ## The rows behind an accepted guest order -/

/-- What the database enforces of the rows behind a token: unique keys, tables of tenants that
exist, and ids that are identifiers. -/
structure Enforced (db : Db) : Prop where
  keys : BranchService.UniqueKeys db
  tenantIds : (db.tenants.map (·.id)).Nodup
  tenants : ∀ r ∈ db.tables, ∃ t ∈ db.tenants, t.id = r.tenantId
  tableIds : ∀ r ∈ db.tables, r.id ≠ ""

/-- A live table of the tenant that holds the token. -/
structure Scans (T : Id) (token : Option String) (r : Table) : Prop where
  tenantId : r.tenantId = T
  live : r.deletedAt = none
  token : some r.qrCodeToken = token

/-- The order is that of the one live table of the tenant with the token. -/
def BoundToTable (db : Db) (T : Id) (token : Option String) (order : Order) : Prop :=
  ∃ r ∈ db.tables, Scans T token r ∧ (∀ s ∈ db.tables, Scans T token s → s = r) ∧
    order.tenantId = T ∧ order.branchId = r.branchId ∧ order.tableId = some r.id

/-- The tenant takes guests. -/
def TakesGuests (db : Db) (T : Id) : Prop :=
  ∀ tenant ∈ db.tenants, tenant.id = T → tenant.status ≠ .UNPAID ∧ tenant.status ≠ .CANCELED

section Rows

variable {db : Db} {T : Id} {token : Option String}

/-- A token of a tenant is held by one live table at most. -/
theorem Scans.unique (hkeys : BranchService.UniqueKeys db) {r s : Table} (hr : r ∈ db.tables)
    (hs : s ∈ db.tables) (hscans : Scans T token r) (hscans' : Scans T token s) : r = s := by
  refine hkeys.token_eq hr hs hscans.live hscans'.live ?_
  exact Option.some.inj (hscans.token.trans hscans'.token.symm)

/-- The lookup by a token finds the table that holds it. -/
theorem scannedTable_iff (hkeys : BranchService.UniqueKeys db) {qrCodeToken : String} {r : Table} :
    scannedTable db T qrCodeToken = some r ↔ r ∈ db.tables ∧ Scans T (some qrCodeToken) r := by
  have hiff : ∀ s : Table, (s.tenantId == T && s.deletedAt.isNone &&
      s.qrCodeToken == qrCodeToken) = true ↔ Scans T (some qrCodeToken) s := by
    intro s
    simp only [Bool.and_eq_true, beq_iff_eq, Option.isNone_iff_eq_none]
    exact ⟨fun h => ⟨h.1.1, h.1.2, congrArg some h.2⟩,
      fun h => ⟨⟨h.tenantId, h.live⟩, Option.some.inj h.token⟩⟩
  unfold scannedTable
  rw [find?_iff_of_unique fun s hs t ht hps hpt =>
    Scans.unique hkeys hs ht ((hiff s).mp hps) ((hiff t).mp hpt), hiff]

/-- The lookup of an open branch finds the branch. -/
theorem openBranch_iff (hkeys : BranchService.UniqueKeys db) {id : Id} {b : Branch} :
    openBranch db T id = some b ↔
      b ∈ db.branches ∧ b.id = id ∧ b.tenantId = T ∧ b.deletedAt = none ∧ b.isActive = true := by
  unfold openBranch
  rw [find?_iff_of_unique fun b hb c hc hpb hpc => hkeys.branch_eq hb hc (by
    simp only [Bool.and_eq_true, beq_iff_eq] at hpb hpc
    exact hpb.1.1.1.symm.trans hpc.1.1.1)]
  simp only [Bool.and_eq_true, beq_iff_eq, Option.isNone_iff_eq_none, and_assoc]
  exact and_congr_right fun _ => and_congr_left fun _ => eq_comm

end Rows

/-- The rows behind an accepted guest order. -/
structure GuestRows (db : Db) (T : Id) (dto : CreateOrderRequestDto) (r : Table) (b : Branch)
    (order : Order) : Prop where
  accepted : GuestAccepted db T dto r
  table : r ∈ db.tables
  scans : Scans T dto.qrCodeToken r
  branch : b ∈ db.branches
  branchId : b.id = r.branchId
  branchTenant : b.tenantId = T
  branchLive : b.deletedAt = none
  restaurant : ∃ restaurant, ownRestaurant db T b.restaurantId = some restaurant
  products : ∀ item ∈ dto.items, ∃ p ∈ db.products, p.id = item.productId ∧
    p.isAvailable = true ∧ p.deletedAt = none
  place : order.tenantId = T ∧ order.branchId = r.branchId ∧ order.tableId = orNull (some r.id)

section GuestRows

variable {env : GuestEnv} {menuEnv : PublicMenuEnv} {dto : CreateOrderRequestDto} {T : Id}
  {w w' : World} {order : Order} {r : Table} {b : Branch}

/-- A blank token is no token. -/
theorem eq_of_presented {token : Option String} {qrCodeToken : String}
    (h : presented token = some qrCodeToken) : token = some qrCodeToken :=
  (Option.filter_eq_some_iff.mp h).1

theorem createGuestOrder_rows (hkeys : BranchService.UniqueKeys w.db)
    (h : createGuestOrder env dto T w = (.ok order, w')) :
    ∃ r b, GuestRows w.db T dto r b order := by
  rcases createGuestOrder_ok h with ⟨r, hguest, hcheckout⟩
  rcases hguest.scanned with ⟨qrCodeToken, hpresented, hscanned⟩
  rcases (scannedTable_iff hkeys).mp hscanned with ⟨hr, hscans⟩
  rcases createOrder_ok (inTenant_sees env hguest.tenantId) hcheckout with ⟨acc, queue, _, _⟩
  have hb := List.find?_some acc.branch_eq
  simp only [Bool.and_eq_true, beq_iff_eq, Option.isNone_iff_eq_none, visible_some] at hb
  have hrestaurant := List.find?_some acc.restaurant_eq
  simp only [Bool.and_eq_true, beq_iff_eq, visible_some] at hrestaurant
  have hown : (ownRestaurant w.db T acc.branch.restaurantId).isSome := by
    unfold ownRestaurant
    rw [List.find?_isSome]
    refine ⟨acc.restaurant, List.mem_of_find?_eq_some acc.restaurant_eq, ?_⟩
    simpa [hrestaurant.1.1] using Option.some.inj hrestaurant.1.2
  have hplace := orderRow_place acc.row_eq
  refine ⟨r, acc.branch, hguest, hr, ?_, List.mem_of_find?_eq_some acc.branch_eq, hb.1.1.symm,
    Option.some.inj hb.1.2, hb.2, Option.isSome_iff_exists.mp hown, fun item hitem => ?_, ?_⟩
  · rw [eq_of_presented hpresented]
    exact hscans
  · rcases exists_of_mem_left (lineDrafts_forall₂ acc.drafts_eq) hitem with ⟨draft, _, hdraft⟩
    rcases lineDraft_eq_some hdraft with ⟨p, _, _, hproduct, havailable, _⟩
    have hp := List.find?_some hproduct
    simp only [Bool.and_eq_true, beq_iff_eq, Option.isNone_iff_eq_none] at hp
    exact ⟨p, List.mem_of_find?_eq_some hproduct, hp.1.1.symm, havailable, hp.2⟩
  · rw [acc.order_eq]
    exact ⟨rfl, hplace.1, hplace.2⟩

/-- A menu shown for the token is that of the restaurant of the branch, which is active. -/
theorem GuestRows.of_menu (h : GuestRows w.db T dto r b order)
    (hkeys : BranchService.UniqueKeys w.db) {menu : PublicMenuResponse} {w'' : World}
    (hmenu : getPublicMenu menuEnv dto.qrCodeToken T w = (.ok menu, w'')) :
    w'' = w ∧ b.isActive = true ∧
      menu.categories = shownCategories w.db T menuEnv.nameLe b.restaurantId := by
  rcases (getPublicMenu_iff h.accepted.tenantId).mp hmenu with
    ⟨hw, resolved, tenant, hshown, rfl⟩
  rcases hshown.table with ⟨qrCodeToken, hpresented, hscanned⟩
  rcases (scannedTable_iff hkeys).mp hscanned with ⟨htable, hscans⟩
  rw [← eq_of_presented hpresented] at hscans
  have hsame : resolved.table = r := Scans.unique hkeys htable h.table hscans h.scans
  rcases (openBranch_iff hkeys).mp hshown.branch with ⟨hbranch, hid, _, _, hactive⟩
  have hopen : resolved.branch = b := by
    refine hkeys.branch_eq hbranch h.branch ?_
    rw [hid, hsame, h.branchId]
  rw [hopen] at hactive
  refine ⟨hw, hactive, ?_⟩
  rw [← hopen]

variable (menuEnv) in
/-- For an active branch the menu is shown. -/
theorem GuestRows.shows (h : GuestRows w.db T dto r b order) (hdb : Enforced w.db)
    (hactive : b.isActive = true) :
    ∃ menu, getPublicMenu menuEnv dto.qrCodeToken T w = (.ok menu, w) ∧
      menu.categories = shownCategories w.db T menuEnv.nameLe b.restaurantId := by
  rcases h.restaurant with ⟨restaurant, hrestaurant⟩
  have hrecord : (w.db.tenants.find? fun t => t.id == T).isSome := by
    rw [List.find?_isSome]
    rcases hdb.tenants r h.table with ⟨t, ht, hid⟩
    exact ⟨t, ht, by simp [hid, h.scans.tenantId]⟩
  rcases Option.isSome_iff_exists.mp hrecord with ⟨tenant, htenant⟩
  have hopen : openBranch w.db T r.branchId = some b :=
    (openBranch_iff hdb.keys).mpr ⟨h.branch, h.branchId, h.branchTenant, h.branchLive, hactive⟩
  exact ⟨_, (getPublicMenu_iff h.accepted.tenantId).mpr ⟨rfl, ⟨r, b, restaurant⟩, tenant,
    ⟨h.accepted.scanned, hopen, hrestaurant, htenant, h.accepted.allowed tenant htenant⟩, rfl⟩,
      rfl⟩

/-- The branch of the scanned table is active. -/
def BranchActive (db : Db) (T : Id) (token : Option String) : Prop :=
  ∀ r ∈ db.tables, Scans T token r → ∀ b ∈ db.branches, b.id = r.branchId → b.isActive = true

/-- An accepted guest order is that of the one live table of the tenant with the token, and of a
tenant that takes guests; the menu is shown for the token in the same state exactly when the
branch of the table is active. -/
theorem createGuestOrder_bound_iff (hdb : Enforced w.db)
    (h : createGuestOrder env dto T w = (.ok order, w')) :
    (BoundToTable w.db T dto.qrCodeToken order ∧ TakesGuests w.db T ∧
      ∃ menu, getPublicMenu menuEnv dto.qrCodeToken T w = (.ok menu, w)) ↔
        BranchActive w.db T dto.qrCodeToken := by
  rcases createGuestOrder_rows hdb.keys h with ⟨r, b, hrows⟩
  constructor
  · rintro ⟨_, _, menu, hmenu⟩ s hs hscans c hc hid
    have hsr := Scans.unique hdb.keys hs hrows.table hscans hrows.scans
    have hcb : c = b := hdb.keys.branch_eq hc hrows.branch (by rw [hid, hsr, hrows.branchId])
    rw [hcb]
    exact (hrows.of_menu hdb.keys hmenu).2.1
  · intro hactive
    rcases hrows.place with ⟨htenant, hbranch, htable⟩
    have hid : orNull (some r.id) = some r.id := by
      simp [orNull, hdb.tableIds r hrows.table]
    refine ⟨⟨r, hrows.table, hrows.scans, fun s hs hscans =>
      Scans.unique hdb.keys hs hrows.table hscans hrows.scans, htenant, hbranch,
        htable.trans hid⟩, fun tenant hmem htid => ?_, ?_⟩
    · have hfound : (w.db.tenants.find? fun t => t.id == T) = some tenant := by
        rw [find?_iff_of_unique fun x hx y hy hpx hpy =>
          List.inj_on_of_nodup_map hdb.tenantIds hx hy
            ((beq_iff_eq.mp hpx).trans (beq_iff_eq.mp hpy).symm)]
        exact ⟨hmem, beq_iff_eq.mpr htid⟩
      have hallowed := hrows.accepted.allowed tenant hfound
      simpa [guestOrderingBlocked] using hallowed
    · rcases hrows.shows menuEnv hdb
        (hactive r hrows.table hrows.scans b hrows.branch hrows.branchId) with ⟨menu, hmenu, _⟩
      exact ⟨menu, hmenu⟩

/-- The product is in an active category of the restaurant of the scanned table's branch, which
is active. -/
def OnMenu (db : Db) (T : Id) (token : Option String) (productId : Id) : Prop :=
  ∀ p ∈ db.products, p.id = productId → ∃ r ∈ db.tables, Scans T token r ∧
    ∃ b ∈ db.branches, b.id = r.branchId ∧ b.isActive = true ∧
      ∃ c ∈ db.categories, c.id = p.categoryId ∧ c.tenantId = T ∧
        c.restaurantId = b.restaurantId ∧ c.isActive = true ∧ c.deletedAt = none

/-- The category is one that the menu of the restaurant may show. -/
theorem mem_offeredCategories {db : Db} {restaurantId : Id} {c : Category} :
    c ∈ offeredCategories db T restaurantId ↔ c ∈ db.categories ∧
      c.restaurantId = restaurantId ∧ c.isActive = true ∧ c.tenantId = T ∧ c.deletedAt = none := by
  simp [offeredCategories, List.mem_filter, and_assoc]

/-- What an accepted guest order orders is on the menu that is shown for the token in the same
state, where no cap cuts it, exactly when it is in categories of the menu. -/
theorem createGuestOrder_items_iff (hdb : Enforced w.db)
    (hproductIds : (w.db.products.map (·.id)).Nodup)
    (hcategories : ∀ restaurantId,
      (offeredCategories w.db T restaurantId).length ≤ MAX_CATEGORIES)
    (hproducts : ∀ c ∈ w.db.categories,
      (offeredProducts w.db c.id).length ≤ MAX_PRODUCTS_PER_CATEGORY)
    (h : createGuestOrder env dto T w = (.ok order, w')) :
    (∀ item ∈ dto.items, ∃ menu, getPublicMenu menuEnv dto.qrCodeToken T w = (.ok menu, w) ∧
      ∃ category ∈ menu.categories, ∃ q ∈ category.products, q.id = item.productId) ↔
        ∀ item ∈ dto.items, OnMenu w.db T dto.qrCodeToken item.productId := by
  rcases createGuestOrder_rows hdb.keys h with ⟨r, b, hrows⟩
  refine forall₂_congr fun item hitem => ?_
  constructor
  · rintro ⟨menu, hmenu, hshown⟩ p hp hid
    rcases hrows.of_menu hdb.keys hmenu with ⟨_, hactive, hcats⟩
    rw [hcats] at hshown
    rcases (mem_categories_iff (hcategories _) hproducts).mp hshown with ⟨c, hc, q, hq, hqid⟩
    rcases mem_offeredCategories.mp hc with ⟨hmem, hrestaurant, hcactive, hctenant, hclive⟩
    simp only [offeredProducts, List.mem_filter, Bool.and_eq_true, beq_iff_eq] at hq
    have hqp : q = p := List.inj_on_of_nodup_map hproductIds hq.1 hp (hqid.trans hid.symm)
    rw [hqp] at hq
    exact ⟨r, hrows.table, hrows.scans, b, hrows.branch, hrows.branchId, hactive, c, hmem,
      hq.2.1.1.symm, hctenant, hrestaurant, hcactive, hclive⟩
  · intro honMenu
    rcases hrows.products item hitem with ⟨p, hp, hid, havailable, hlive⟩
    rcases honMenu p hp hid with ⟨s, hs, hscans, d, hd, hdid, hactive, c, hc, hcid, hctenant,
      hrestaurant, hcactive, hclive⟩
    have hsr := Scans.unique hdb.keys hs hrows.table hscans hrows.scans
    have hdb' : d = b := hdb.keys.branch_eq hd hrows.branch (by rw [hdid, hsr, hrows.branchId])
    rw [hdb'] at hactive hrestaurant
    rcases hrows.shows menuEnv hdb hactive with ⟨menu, hmenu, hcats⟩
    refine ⟨menu, hmenu, ?_⟩
    rw [hcats]
    refine (mem_categories_iff (hcategories _) hproducts).mpr ⟨c, mem_offeredCategories.mpr
      ⟨hc, hrestaurant, hcactive, hctenant, hclive⟩, p, ?_, hid⟩
    simp [offeredProducts, hp, hcid, havailable, hlive]

end GuestRows

/-! ## A soup restaurant with a table -/

/-- The soup menu with a table, a branch that is active or not, and a category that is. -/
def soupTables (branchActive categoryActive : Bool) : World where
  db :=
    { soupMenu with
      tenants := [{ id := "tenant-a", name := "Soups", status := .ACTIVE }]
      branches := [{
        id := "branch-1", tenantId := "tenant-a", restaurantId := "restaurant-1", name := "Main"
        isActive := branchActive }]
      tables := [{
        id := "table-1", tenantId := "tenant-a", branchId := "branch-1", number := "1"
        qrCodeToken := "qr-1" }]
      categories := [{
        id := "category-1", tenantId := "tenant-a", restaurantId := "restaurant-1"
        name := "Soups", sortOrder := 1, isActive := categoryActive }] }

/-- A guest at the table, who orders the soups. -/
def tableRequest : CreateOrderRequestDto :=
  { soupRequest with qrCodeToken := some "qr-1" }

def tableEnv : GuestEnv := { guestEnv with }

def tableMenuEnv : PublicMenuEnv where
  context := {}
  uuid _ := ""
  now := 0
  nameLe _ _ := true

theorem soupTables_enforced (branchActive categoryActive : Bool) :
    Enforced (soupTables branchActive categoryActive).db where
  keys :=
    ⟨by simp [soupTables], by simp [soupTables], by simp [soupTables, BranchService.liveToken]⟩
  tenantIds := by simp [soupTables]
  tenants := by simp [soupTables]
  tableIds := by simp [soupTables]

/-- The guest's order is accepted. -/
theorem tableRequest_accepted (branchActive categoryActive : Bool) :
    ∃ order w', createGuestOrder tableEnv tableRequest "tenant-a"
      (soupTables branchActive categoryActive) = (.ok order, w') := by
  have hok : (createGuestOrder tableEnv tableRequest "tenant-a"
      (soupTables branchActive categoryActive)).1.toOption.any (fun _ => true) = true := by
    cases branchActive <;> cases categoryActive <;> decide +kernel
  rcases Fallible.returned_of_any hok with ⟨order, w', hrun, _⟩
  exact ⟨order, w', hrun⟩

/-- At an active branch the order is bound to the table, and the menu is shown. -/
theorem tableRequest_bound :
    ∃ order w', createGuestOrder tableEnv tableRequest "tenant-a" (soupTables true true) =
        (.ok order, w') ∧
      BoundToTable (soupTables true true).db "tenant-a" (some "qr-1") order ∧
      TakesGuests (soupTables true true).db "tenant-a" ∧
      ∃ menu, getPublicMenu tableMenuEnv (some "qr-1") "tenant-a" (soupTables true true) =
        (.ok menu, soupTables true true) := by
  rcases tableRequest_accepted true true with ⟨order, w', hrun⟩
  refine ⟨order, w', hrun, (createGuestOrder_bound_iff (soupTables_enforced true true) hrun).mpr ?_⟩
  intro r _ _ b hb _
  rw [List.mem_singleton.mp hb]

/-- At a branch that is not active the order is accepted, and the menu is not shown. -/
theorem menu_refuses_accepted_token :
    ¬ ∀ (env : GuestEnv) (menuEnv : PublicMenuEnv) (dto : CreateOrderRequestDto) (T : Id)
      (w w' : World) (order : Order), Enforced w.db →
        createGuestOrder env dto T w = (.ok order, w') →
          BoundToTable w.db T dto.qrCodeToken order ∧ TakesGuests w.db T ∧
            ∃ menu, getPublicMenu menuEnv dto.qrCodeToken T w = (.ok menu, w) := by
  have hrefused : (getPublicMenu tableMenuEnv (some "qr-1") "tenant-a"
      (soupTables false true)).1.toOption.isSome = false := by decide +kernel
  intro hall
  rcases tableRequest_accepted false true with ⟨order, w', hrun⟩
  rcases (hall _ tableMenuEnv _ _ _ _ _ (soupTables_enforced false true) hrun).2.2 with
    ⟨menu, hmenu⟩
  have htoken : tableRequest.qrCodeToken = some "qr-1" := rfl
  rw [htoken] at hmenu
  rw [hmenu] at hrefused
  cases hrefused

theorem soupTables_uncut (branchActive categoryActive : Bool) :
    (∀ restaurantId, (offeredCategories (soupTables branchActive categoryActive).db "tenant-a"
        restaurantId).length ≤ MAX_CATEGORIES) ∧
      ∀ c ∈ (soupTables branchActive categoryActive).db.categories,
        (offeredProducts (soupTables branchActive categoryActive).db c.id).length ≤
          MAX_PRODUCTS_PER_CATEGORY :=
  ⟨fun _ => (List.length_filter_le _ _).trans (by simp [soupTables, MAX_CATEGORIES]),
    fun _ _ => (List.length_filter_le _ _).trans
      (by simp [soupTables, soupMenu, MAX_PRODUCTS_PER_CATEGORY])⟩

/-- The soups are on the menu of the table. -/
theorem tableRequest_onMenu :
    ∃ order w', createGuestOrder tableEnv tableRequest "tenant-a" (soupTables true true) =
        (.ok order, w') ∧
      ∀ item ∈ tableRequest.items, ∃ menu,
        getPublicMenu tableMenuEnv (some "qr-1") "tenant-a" (soupTables true true) =
            (.ok menu, soupTables true true) ∧
          ∃ category ∈ menu.categories, ∃ q ∈ category.products, q.id = item.productId := by
  rcases tableRequest_accepted true true with ⟨order, w', hrun⟩
  rcases soupTables_uncut true true with ⟨hcategories, hproducts⟩
  refine ⟨order, w', hrun, (createGuestOrder_items_iff (soupTables_enforced true true) (by decide)
    hcategories hproducts hrun).mpr ?_⟩
  intro item _ p hp _
  rw [List.mem_singleton.mp hp]
  exact ⟨_, List.mem_singleton_self _, ⟨rfl, rfl, rfl⟩, _, List.mem_singleton_self _, rfl, rfl, _,
    List.mem_singleton_self _, rfl, rfl, rfl, rfl, rfl⟩

/-- Soups of a category that is not active are ordered, and are on no menu. -/
theorem hidden_soup_ordered :
    ¬ ∀ (env : GuestEnv) (menuEnv : PublicMenuEnv) (dto : CreateOrderRequestDto) (T : Id)
      (w w' : World) (order : Order), Enforced w.db → (w.db.products.map (·.id)).Nodup →
        (∀ restaurantId, (offeredCategories w.db T restaurantId).length ≤ MAX_CATEGORIES) →
        (∀ c ∈ w.db.categories,
          (offeredProducts w.db c.id).length ≤ MAX_PRODUCTS_PER_CATEGORY) →
        createGuestOrder env dto T w = (.ok order, w') →
          ∀ item ∈ dto.items, ∃ menu, getPublicMenu menuEnv dto.qrCodeToken T w = (.ok menu, w) ∧
            ∃ category ∈ menu.categories, ∃ q ∈ category.products, q.id = item.productId := by
  have hempty : (getPublicMenu tableMenuEnv (some "qr-1") "tenant-a"
      (soupTables true false)).1.toOption.all (fun menu => menu.categories.isEmpty) = true := by
    decide +kernel
  intro hall
  rcases tableRequest_accepted true false with ⟨order, w', hrun⟩
  rcases soupTables_uncut true false with ⟨hcategories, hproducts⟩
  rcases hall _ tableMenuEnv _ _ _ _ _ (soupTables_enforced true false) (by decide) hcategories
    hproducts hrun _ List.mem_cons_self with ⟨menu, hmenu, category, hcategory, _⟩
  have htoken : tableRequest.qrCodeToken = some "qr-1" := rfl
  rw [htoken] at hmenu
  rw [hmenu] at hempty
  have hnone : menu.categories = [] := List.isEmpty_iff.mp hempty
  rw [hnone] at hcategory
  cases hcategory

end OrderService
end Eleva
