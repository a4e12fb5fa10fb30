import Eleva.Database.TenantScope
import Eleva.Order.Acceptance
import Eleva.Order.GuestCheckout
import Eleva.QrMenu.MenuBrowser

/-!
# QR menu - The page and the server agree

The page prices a cart from the menu it was given; the server prices the order from its rows.
While the rows of the menu are unchanged, the server accepts the payload of every cart that the
page can show whenever the columns of the order hold its amounts and the restaurant is live, and
it charges what the page shows, line by line.

Main results:

- Definition {lit}`received`: the request that the server makes of a payload.
- Theorem {lit}`lineDraft_agrees`: the server's price of a line of the cart.
- Theorem {lit}`orderRow_iff`: when the columns of an order hold its amounts.
- Theorem {lit}`checkout_agrees`: what the server makes of the carts of a run.
-/

namespace Eleva
namespace QrMenu

open Foundation Database TableOf PublicMenuService OrderService DiscountService

/-! ## The request behind a payload -/

section Requests

variable (isUUID : String → Bool)

/-- A selection that passes the checks of the request. -/
def receivedItem (item : GuestOrderItemSelection) : Option OrderItemSelectionDto := do
  guard (isUUID item.productId = true)
  guard (item.sizeId.all isUUID = true)
  guard (item.variantId.all isUUID = true)
  guard ((item.addons.getD []).all (fun addon => isUUID addon.addonItemId) = true)
  if h : 0 < item.quantity then
    return {
      productId := item.productId
      sizeId := item.sizeId
      variantId := item.variantId
      quantity := ⟨item.quantity.toNat, by omega⟩
      addons := item.addons.map fun addons => addons.map fun addon => ⟨addon.addonItemId⟩ }
  else none

def receivedItems : List GuestOrderItemSelection → Option (List OrderItemSelectionDto)
  | [] => some []
  | item :: rest => do
      let first ← receivedItem isUUID item
      let others ← receivedItems rest
      return first :: others

/-- The request of a payload that passes the checks of the request. -/
def received (payload : CreateGuestOrderPayload) : Option CreateOrderRequestDto := do
  guard (isUUID payload.branchId = true)
  guard (payload.tableId.all isUUID = true)
  guard (0 < payload.items.length)
  let items ← receivedItems isUUID payload.items
  return {
    branchId := payload.branchId
    tableId := payload.tableId
    qrCodeToken := some payload.qrCodeToken
    type := payload.type
    specialNotes := payload.specialNotes
    items := items
    paymentMethod := payload.paymentMethod }

end Requests

/-! ## What the columns hold -/

/-- The amount is in the range of a money column. -/
def InColumn (x : ℚ) : Prop :=
  |x| < 10 ^ 8

/-- A money column holds an amount of whole cents exactly when it is in its range. -/
theorem ofNumber_iff {x : ℚ} (hx : IsFixed 2 x) :
    (∃ d, Decimal.ofNumber 10 2 x = some d) ↔ InColumn x := by
  rcases hx with ⟨n, rfl⟩
  have hround : roundHalfAway ((n : ℚ) / 10 ^ 2 * 10 ^ 2) = n := by
    rw [div_mul_cancel₀ _ (by norm_num), roundHalfAway_intCast]
  have hrange : n.natAbs < 10 ^ 10 ↔ InColumn ((n : ℚ) / 10 ^ 2) := by
    unfold InColumn
    rw [abs_div, abs_of_pos (by norm_num : (0 : ℚ) < 10 ^ 2), div_lt_iff₀ (by norm_num),
      ← Int.cast_abs, show ((10 : ℚ) ^ 8 * 10 ^ 2) = ((10 ^ 10 : ℤ) : ℚ) by norm_num, Int.cast_lt,
      Int.abs_eq_natAbs]
    omega
  unfold Decimal.ofNumber
  rw [hround, ← hrange]
  simp

/-- The columns of a line hold its amounts and its quantity. -/
structure LineFits (draft : OrderItemDraft) : Prop where
  unitPrice : InColumn draft.unitPrice
  totalPrice : InColumn draft.totalPrice
  quantity : (draft.quantity : ℕ) < int4Bound

theorem toRow_iff {draft : OrderItemDraft} {id tenantId : Id}
    (hunit : IsFixed 2 draft.unitPrice) (htotal : IsFixed 2 draft.totalPrice) :
    (∃ row, draft.toRow id tenantId = some row) ↔ LineFits draft := by
  constructor
  · rintro ⟨row, hrow⟩
    simp only [OrderItemDraft.toRow, Option.bind_eq_bind, Option.bind_eq_some_iff] at hrow
    rcases hrow with ⟨unitPrice, hunitPrice, totalPrice, htotalPrice, _, hquantity, _⟩
    exact ⟨(ofNumber_iff hunit).mp ⟨_, hunitPrice⟩, (ofNumber_iff htotal).mp ⟨_, htotalPrice⟩,
      (Option.guard_eq_some' _).mp hquantity⟩
  · rintro ⟨hunitPrice, htotalPrice, hquantity⟩
    rcases (ofNumber_iff hunit).mpr hunitPrice with ⟨unitPrice, hunitPrice⟩
    rcases (ofNumber_iff htotal).mpr htotalPrice with ⟨totalPrice, htotalPrice⟩
    simp [OrderItemDraft.toRow, hunitPrice, htotalPrice, hquantity]

theorem itemRows_iff {tenantId : Id} {uuid : ℕ → Id} {i : ℕ} {drafts : List OrderItemDraft}
    (hfixed : ∀ draft ∈ drafts, IsFixed 2 draft.unitPrice ∧ IsFixed 2 draft.totalPrice) :
    (∃ rows, itemRows tenantId uuid i drafts = some rows) ↔ ∀ draft ∈ drafts, LineFits draft := by
  induction drafts generalizing i with
  | nil => simp [itemRows]
  | cons draft rest ih =>
      rcases hfixed draft List.mem_cons_self with ⟨hunit, htotal⟩
      have hrest := ih (i := i + 1) fun d hd => hfixed d (List.mem_cons_of_mem _ hd)
      rw [List.forall_mem_cons, ← hrest,
        ← @toRow_iff draft (uuid (i + 1)) tenantId hunit htotal]
      simp only [itemRows, Option.bind_eq_bind, Option.bind_eq_some_iff, Option.pure_def,
        Option.some.injEq]
      constructor
      · rintro ⟨_, row, hrow, rows, hrows, _⟩
        exact ⟨⟨row, hrow⟩, rows, hrows⟩
      · rintro ⟨⟨row, hrow⟩, rows, hrows⟩
        exact ⟨_, row, hrow, rows, hrows, rfl⟩

/-- The columns of an order hold its amounts. -/
structure AmountsFit (amounts : Amounts) : Prop where
  subtotal : InColumn amounts.subtotal
  taxAmount : InColumn amounts.taxAmount
  total : InColumn amounts.total

/-- The row of an order without a discount exists exactly when the columns hold what goes there. -/
theorem orderRow_iff {env : CheckoutEnv} {userTenantId : Id} {dto : CreateOrderRequestDto}
    {amounts : Amounts} {drafts : List OrderItemDraft} (hdiscount : amounts.discountAmount = 0)
    (hsubtotal : IsFixed 2 amounts.subtotal) (htax : IsFixed 2 amounts.taxAmount)
    (htotal : IsFixed 2 amounts.total)
    (hfixed : ∀ draft ∈ drafts, IsFixed 2 draft.unitPrice ∧ IsFixed 2 draft.totalPrice) :
    (∃ row, orderRow env userTenantId dto amounts none drafts = some row) ↔
      AmountsFit amounts ∧ ∀ draft ∈ drafts, LineFits draft := by
  constructor
  · rintro ⟨row, hrow⟩
    rcases orderRow_eq_some hrow with ⟨h₁, h₂, _, h₃, hitems, _⟩
    exact ⟨⟨(ofNumber_iff hsubtotal).mp ⟨_, h₁⟩, (ofNumber_iff htax).mp ⟨_, h₂⟩,
      (ofNumber_iff htotal).mp ⟨_, h₃⟩⟩, (itemRows_iff hfixed).mp ⟨_, hitems⟩⟩
  · rintro ⟨⟨h₁, h₂, h₃⟩, hlines⟩
    rcases (ofNumber_iff hsubtotal).mpr h₁ with ⟨_, h₁⟩
    rcases (ofNumber_iff htax).mpr h₂ with ⟨_, h₂⟩
    rcases (ofNumber_iff htotal).mpr h₃ with ⟨_, h₃⟩
    have hzero : InColumn 0 := by simp [InColumn]
    rcases (ofNumber_iff (isFixed_zero 2)).mpr hzero with ⟨_, hzero⟩
    rcases (@itemRows_iff userTenantId env.uuid 0 _ hfixed).mpr hlines with ⟨rows, hrows⟩
    simp [orderRow, h₁, h₂, h₃, hdiscount, hzero, hrows]

/-! ## The rows of a menu -/

/-- One row under an id, as the database keeps the tables that a checkout looks in. -/
structure MenuKeys (db : Db) : Prop where
  places : BranchService.UniqueKeys db
  tenantIds : (db.tenants.map (·.id)).Nodup
  restaurantIds : (db.restaurants.map (·.id)).Nodup
  productIds : (db.products.map (·.id)).Nodup
  sizeIds : (db.productSizes.map (·.id)).Nodup
  variantIds : (db.productVariants.map (·.id)).Nodup
  groupIds : (db.productAddons.map (·.id)).Nodup
  addonItemIds : (db.addonItems.map (·.id)).Nodup

/-- The rows of a catalogue: their ids are UUIDs, and they are of one tenant with what they belong
to. -/
structure MenuRows (isUUID : String → Bool) (db : Db) : Prop extends MenuKeys db where
  branches : ∀ b ∈ db.branches, isUUID b.id = true
  products : ∀ c ∈ db.categories, ∀ p ∈ db.products, p.categoryId = c.id →
    isUUID p.id = true ∧ p.tenantId = c.tenantId
  sizes : ∀ p ∈ db.products, ∀ s ∈ db.productSizes, s.productId = p.id →
    isUUID s.id = true ∧ s.tenantId = p.tenantId
  variants : ∀ p ∈ db.products, ∀ v ∈ db.productVariants, v.productId = p.id →
    isUUID v.id = true ∧ v.tenantId = p.tenantId
  addonItems : ∀ p ∈ db.products, ∀ g ∈ db.productAddons, g.productId = p.id →
    ∀ i ∈ db.addonItems, i.addonGroupId = g.id → isUUID i.id = true ∧ i.tenantId = p.tenantId

/-- The rows behind a menu are as they were; there may be more of them. -/
structure Unchanged (db db' : Db) : Prop where
  tenants : db.tenants ⊆ db'.tenants
  restaurants : db.restaurants ⊆ db'.restaurants
  branches : db.branches ⊆ db'.branches
  tables : db.tables ⊆ db'.tables
  products : db.products ⊆ db'.products
  productSizes : db.productSizes ⊆ db'.productSizes
  productVariants : db.productVariants ⊆ db'.productVariants
  addonItems : db.addonItems ⊆ db'.addonItems

/-- The row of a product on the menu of a tenant. -/
structure OfferedRow (db : Db) (T : Id) (p : Product) : Prop where
  mem : p ∈ db.products
  category : ∃ c ∈ db.categories, p.categoryId = c.id
  tenantId : p.tenantId = T
  available : p.isAvailable = true
  live : p.deletedAt = none

/-- The row with an id is found. -/
theorem find?_of_id {α : Type} {id : α → Id} {rows : List α} (hids : (rows.map id).Nodup)
    {p : α → Bool} {r : α} (hr : r ∈ rows) (hp : p r = true)
    (hid : ∀ s, p s = true → id s = id r) : rows.find? p = some r := by
  rw [find?_iff_of_unique fun x hx y hy hpx hpy =>
    List.inj_on_of_nodup_map hids hx hy ((hid x hpx).trans (hid y hpy).symm)]
  exact ⟨hr, hp⟩

section Menus

variable {isUUID : String → Bool} {db db' : Db} {T restaurantId : Id}
  {nameLe : String → String → Bool} {menu : PublicMenuResponse}
  (hmenu : menu.categories = shownCategories db T nameLe restaurantId)
include hmenu

/-- What the page shows is a row of the tenant. -/
theorem shown_row {isUUID : String → Bool} (hrows : MenuRows isUUID db) {q : PublicProduct}
    (hq : Shown menu q) : ∃ p, OfferedRow db T p ∧ publicProduct db p = q := by
  rcases hq with ⟨category, hcategory, hproduct, _⟩
  rw [hmenu] at hcategory
  rcases List.mem_map.mp (List.mem_of_mem_filter hcategory) with ⟨c, hc, rfl⟩
  have hoffered := mem_offeredCategories.mp (Args.mem_arrange hc)
  rcases List.mem_map.mp hproduct with ⟨p, hp, rfl⟩
  have hmem := Args.mem_arrange hp
  simp only [offeredProducts, List.mem_filter, Bool.and_eq_true, beq_iff_eq,
    Option.isNone_iff_eq_none] at hmem
  rcases hmem with ⟨hin, ⟨hof, havailable⟩, hlive⟩
  exact ⟨p, ⟨hin, ⟨c, hoffered.1, hof⟩,
    (hrows.products c hoffered.1 p hin hof).2.trans hoffered.2.2.2.1, havailable, hlive⟩, rfl⟩

/-- The ids of a menu that was shown. -/
theorem wellNamed_of_menu (hplain : ∀ id, isUUID id = true → Plain id)
    (hrows : MenuRows isUUID db) : WellNamed menu where
  plain q hq := by
    rcases shown_row hmenu hrows hq with ⟨p, hp, rfl⟩
    rcases hp.category with ⟨c, hc, hof⟩
    refine ⟨hplain _ (hrows.products c hc p hp.mem hof).1, fun s hs => ?_, fun v hv => ?_,
      fun group hgroup o ho => ?_⟩
    · rcases List.mem_map.mp hs with ⟨s, hin, rfl⟩
      rcases List.mem_filter.mp hin with ⟨hs, hof⟩
      exact hplain _ (hrows.sizes p hp.mem s hs (beq_iff_eq.mp hof)).1
    · rcases List.mem_map.mp hv with ⟨v, hin, rfl⟩
      rcases List.mem_filter.mp hin with ⟨hv, hof⟩
      exact hplain _ (hrows.variants p hp.mem v hv (beq_iff_eq.mp hof)).1
    · rcases List.mem_map.mp hgroup with ⟨g, hg, rfl⟩
      rcases List.mem_filter.mp hg with ⟨hg, hof⟩
      rcases List.mem_map.mp ho with ⟨i, hi, rfl⟩
      rcases List.mem_filter.mp hi with ⟨hi, hin⟩
      exact hplain _ (hrows.addonItems p hp.mem g hg (beq_iff_eq.mp hof) i hi
        (beq_iff_eq.mp (Bool.and_eq_true_iff.mp hin).1)).1
  products q q' hq hq' hid := by
    rcases shown_row hmenu hrows hq with ⟨p, hp, rfl⟩
    rcases shown_row hmenu hrows hq' with ⟨p', hp', rfl⟩
    rw [List.inj_on_of_nodup_map hrows.productIds hp.mem hp'.mem hid]
  sizes q hq := by
    rcases shown_row hmenu hrows hq with ⟨p, hp, rfl⟩
    have hids : ((publicProduct db p).sizes.map (·.id)) =
        (db.productSizes.filter fun s => s.productId == p.id).map (·.id) := List.map_map
    rw [hids]
    exact hrows.sizeIds.sublist (List.filter_sublist.map _)
  variants q hq := by
    rcases shown_row hmenu hrows hq with ⟨p, hp, rfl⟩
    have hids : ((publicProduct db p).variants.map (·.id)) =
        (db.productVariants.filter fun v => v.productId == p.id).map (·.id) := List.map_map
    rw [hids]
    exact hrows.variantIds.sublist (List.filter_sublist.map _)
  options q hq := by
    rcases shown_row hmenu hrows hq with ⟨p, hp, rfl⟩
    have hids : ((publicProduct db p).addons.flatMap (·.options)).map (·.id) =
        (db.productAddons.filter fun g => g.productId == p.id).flatMap fun g =>
          (db.addonItems.filter fun i => i.addonGroupId == g.id && i.isAvailable).map (·.id) := by
      simp only [publicProduct, List.map_flatMap, List.flatMap_map, publicAddonGroup, List.map_map]
      rfl
    rw [hids, List.nodup_flatMap]
    have hgroups := hrows.groupIds.sublist
      ((List.filter_sublist (p := fun g => g.productId == p.id)).map fun g : ProductAddon => g.id)
    refine ⟨fun g _ => hrows.addonItemIds.sublist (List.filter_sublist.map _), ?_⟩
    refine (List.pairwise_map.mp hgroups).imp fun {g g'} hne id hid hid' => hne ?_
    rcases List.mem_map.mp hid with ⟨i, hi, rfl⟩
    rcases List.mem_map.mp hid' with ⟨i', hi', hsame⟩
    rcases List.mem_filter.mp hi with ⟨hi, hin⟩
    rcases List.mem_filter.mp hi' with ⟨hi', hin'⟩
    have heq := List.inj_on_of_nodup_map hrows.addonItemIds hi' hi hsame
    rw [heq] at hin'
    rw [← beq_iff_eq.mp (Bool.and_eq_true_iff.mp hin).1,
      ← beq_iff_eq.mp (Bool.and_eq_true_iff.mp hin').1]

end Menus

/-! ## The price of a line -/

/-- The server charges a line what the page shows for it. -/
structure Charges (item : CartItem) (draft : OrderItemDraft) : Prop where
  productId : draft.productId = item.productId
  sizeId : draft.sizeId = item.sizeId
  variantId : draft.variantId = item.variantId
  quantity : ((draft.quantity : ℕ) : ℤ) = item.quantity
  addons : draft.orderItemAddons.map (·.addonItemId) = item.addons.map (·.id)
  unitPrice : draft.unitPrice + (item.addons.map (·.price)).sum = item.unitPrice
  totalPrice : draft.totalPrice = item.unitPrice * item.quantity

/-- What the row of a line names is in the database. -/
def Refers (db : Db) (draft : OrderItemDraft) : Prop :=
  ∀ row, StoredAs draft row → row.references db = true

theorem orNull_of_ne {id : Id} (h : id ≠ "") : orNull (some id) = some id := by
  simp [orNull, h]

@[simp]
theorem orNull_orNull (x : Option Id) : orNull (orNull x) = orNull x := by
  simp [orNull, Option.filter_filter]

/-- Ids that are plain are not dropped. -/
theorem orNull_of_plain {x : Option Id} (h : ∀ id ∈ x, Plain id) : orNull x = x := by
  cases x with
  | none => rfl
  | some id => exact orNull_of_ne (h id rfl).ne_empty

section Lines

variable {isUUID : String → Bool} {db db' : Db} {T : Id} {p : Product}
  (hrows : MenuRows isUUID db) (hkeys : MenuKeys db') (hkept : Unchanged db db')
  (hp : OfferedRow db T p)
include hkeys hkept hp

theorem liveProduct_offered : liveProduct db' (some T) p.id = some p := by
  refine find?_of_id hkeys.productIds (hkept.products hp.mem) ?_ fun s hs => ?_
  · simp only [Bool.and_eq_true, beq_self_eq_true, true_and, Option.isNone_iff_eq_none]
    exact ⟨visible_some.mpr (congrArg some hp.tenantId), hp.live⟩
  · simp only [Bool.and_eq_true, beq_iff_eq] at hs
    exact hs.1.1.symm

include hrows

theorem ownVariant_offered {v : ProductVariant} (hv : v ∈ db.productVariants)
    (hof : v.productId = p.id) : ownVariant db' (some T) v.id p.id = some v := by
  refine find?_of_id hkeys.variantIds (hkept.productVariants hv) ?_ fun s hs => ?_
  · have htenant := (hrows.variants p hp.mem v hv hof).2.trans hp.tenantId
    simp only [beq_self_eq_true, hof, Bool.true_and]
    exact visible_some.mpr (congrArg some htenant)
  · simp only [Bool.and_eq_true, beq_iff_eq] at hs
    exact hs.1.1.symm

theorem ownSize_offered {s : ProductSize} (hs : s ∈ db.productSizes)
    (hof : s.productId = p.id) : ownSize db' (some T) s.id p.id = some s := by
  refine find?_of_id hkeys.sizeIds (hkept.productSizes hs) ?_ fun r hr => ?_
  · have htenant := (hrows.sizes p hp.mem s hs hof).2.trans hp.tenantId
    simp only [beq_self_eq_true, hof, Bool.true_and]
    exact visible_some.mpr (congrArg some htenant)
  · simp only [Bool.and_eq_true, beq_iff_eq] at hr
    exact hr.1.1.symm

/-- An addon of a group of the product is found, and available. -/
theorem addonRow_offered {g : PublicAddonGroup} (hg : g ∈ (publicProduct db p).addons)
    {a : PublicAddonOption} (ha : a ∈ g.options) :
    ∃ row, addonRow db' (some T) T ⟨a.id⟩ = some row ∧ row.addonItemId = a.id ∧
      row.price.toNumber = a.price := by
  rcases List.mem_map.mp hg with ⟨group, hgroup, rfl⟩
  rcases List.mem_filter.mp hgroup with ⟨hgroup, hof⟩
  rcases List.mem_map.mp ha with ⟨i, hi, rfl⟩
  rcases List.mem_filter.mp hi with ⟨hi, hin⟩
  rcases Bool.and_eq_true_iff.mp hin with ⟨hin, havailable⟩
  have htenant := (hrows.addonItems p hp.mem group hgroup (beq_iff_eq.mp hof) i hi
    (beq_iff_eq.mp hin)).2.trans hp.tenantId
  have hfound : ownAddonItem db' (some T) i.id = some i := by
    refine find?_of_id hkeys.addonItemIds (hkept.addonItems hi) ?_ fun s hs => ?_
    · simp only [beq_self_eq_true, Bool.true_and]
      exact visible_some.mpr (congrArg some htenant)
    · simp only [Bool.and_eq_true, beq_iff_eq] at hs
      exact hs.1.symm
  refine ⟨{ tenantId := T, addonItemId := i.id, price := i.price }, ?_, rfl, rfl⟩
  simp [addonRow, publicOption, hfound, havailable]

/-- The addons of a configuration are found, at the prices of the page. -/
theorem addonRows_offered {addons : List PublicAddonOption}
    (haddons : ∀ a ∈ addons, ∃ g ∈ (publicProduct db p).addons, a ∈ g.options) :
    ∃ rows, addonRows db' (some T) T (addons.map fun a => ⟨a.id⟩) = some rows ∧
      rows.map (·.addonItemId) = addons.map (·.id) ∧
        addonsTotal rows = (addons.map (·.price)).sum := by
  induction addons with
  | nil => exact ⟨[], rfl, rfl, rfl⟩
  | cons a addons ih =>
      rcases haddons a List.mem_cons_self with ⟨g, hg, ha⟩
      rcases addonRow_offered hrows hkeys hkept hp hg ha with ⟨row, hrow, hid, hprice⟩
      rcases ih fun b hb => haddons b (List.mem_cons_of_mem _ hb) with ⟨rows, hrest, hids, htotal⟩
      refine ⟨row :: rows, ?_, ?_, ?_⟩
      · simp [addonRows, hrow, hrest]
      · rw [List.map_cons, List.map_cons, hid, hids]
      · unfold addonsTotal at htotal ⊢
        rw [List.map_cons, List.sum_cons, List.map_cons, List.sum_cons, hprice, htotal]

/-- The server's unit price, without the addons. -/
theorem unitPriceOf_offered {size : Option PublicProductSize}
    {variant : Option PublicProductVariant} {addons : List PublicAddonOption}
    (hconfigured : Configured (publicProduct db p) size variant addons)
    {item : OrderItemSelectionDto} (hvariant : orNull item.variantId = variant.map (·.id))
    (hsize : orNull item.sizeId = size.map (·.id)) :
    ∃ u, unitPriceOf db' (some T) item p = some u ∧
      u + (addons.map (·.price)).sum =
        computeUnitPrice (publicProduct db p) size variant addons := by
  unfold unitPriceOf computeUnitPrice
  rw [hvariant, hsize, foldl_add_eq_sum, zero_add]
  cases variant with
  | some variant =>
      rcases hconfigured.variant_mem variant rfl with ⟨hmem, hstock⟩
      rcases List.mem_map.mp hmem with ⟨v, hv, rfl⟩
      rcases List.mem_filter.mp hv with ⟨hv, hof⟩
      have hfound := ownVariant_offered hrows hkeys hkept hp hv (beq_iff_eq.mp hof)
      have hpos : 0 < v.stockQuantity := hstock
      refine ⟨v.price.toNumber, ?_, rfl⟩
      simp [publicVariant, hfound, hpos]
  | none =>
      cases size with
      | some size =>
          rcases List.mem_map.mp (hconfigured.size_mem size rfl) with ⟨s, hs, rfl⟩
          rcases List.mem_filter.mp hs with ⟨hs, hof⟩
          have hfound := ownSize_offered hrows hkeys hkept hp hs (beq_iff_eq.mp hof)
          refine ⟨p.basePrice.toNumber + s.priceAdjustment.toNumber, ?_, rfl⟩
          simp [publicSize, hfound]
      | none => exact ⟨p.basePrice.toNumber, rfl, rfl⟩

end Lines

section Carts

variable {isUUID : String → Bool} {db db' : Db} {T restaurantId : Id}
  {nameLe : String → String → Bool} {menu : PublicMenuResponse}
  (hmenu : menu.categories = shownCategories db T nameLe restaurantId)
  (hplain : ∀ id, isUUID id = true → Plain id) (hrows : MenuRows isUUID db)
include hmenu hrows

/-- The ids of a configuration are UUIDs. -/
theorem Configuration.uuids (c : Configuration menu) : isUUID c.product.id = true ∧
    (∀ id ∈ c.size.map (·.id), isUUID id = true) ∧
      (∀ id ∈ c.variant.map (·.id), isUUID id = true) ∧ ∀ a ∈ c.addons, isUUID a.id = true := by
  rcases c with ⟨product, size, variant, addons, hshown, hconfigured⟩
  rcases shown_row hmenu hrows hshown with ⟨p, hp, rfl⟩
  rcases hp.category with ⟨category, hcategory, hof⟩
  refine ⟨(hrows.products category hcategory p hp.mem hof).1, fun id hid => ?_, fun id hid => ?_,
    fun a ha => ?_⟩
  · rcases Option.map_eq_some_iff.mp hid with ⟨s, hs, rfl⟩
    rcases List.mem_map.mp (hconfigured.size_mem s hs) with ⟨s, hin, rfl⟩
    rcases List.mem_filter.mp hin with ⟨hs, hof⟩
    exact (hrows.sizes p hp.mem s hs (beq_iff_eq.mp hof)).1
  · rcases Option.map_eq_some_iff.mp hid with ⟨v, hv, rfl⟩
    rcases List.mem_map.mp (hconfigured.variant_mem v hv).1 with ⟨v, hin, rfl⟩
    rcases List.mem_filter.mp hin with ⟨hv, hof⟩
    exact (hrows.variants p hp.mem v hv (beq_iff_eq.mp hof)).1
  · rcases hconfigured.addons_mem a ha with ⟨group, hgroup, ha⟩
    rcases List.mem_map.mp hgroup with ⟨g, hg, rfl⟩
    rcases List.mem_filter.mp hg with ⟨hg, hof⟩
    rcases List.mem_map.mp ha with ⟨i, hi, rfl⟩
    rcases List.mem_filter.mp hi with ⟨hi, hin⟩
    exact (hrows.addonItems p hp.mem g hg (beq_iff_eq.mp hof) i hi
      (beq_iff_eq.mp (Bool.and_eq_true_iff.mp hin).1)).1

include hplain

/-- The selection of a line passes the checks of the request. -/
theorem receivedItem_line (c : Configuration menu) {n : ℤ} (hn : 1 ≤ n) :
    ∃ item, receivedItem isUUID (toSelection (c.line n)) = some item ∧
      item.productId = c.product.id ∧ orNull item.sizeId = c.size.map (·.id) ∧
      orNull item.variantId = c.variant.map (·.id) ∧ ((item.quantity : ℕ) : ℤ) = n ∧
      item.addons.getD [] = c.addons.map fun a => ⟨a.id⟩ := by
  rcases c.uuids hmenu hrows with ⟨hproduct, hsize, hvariant, haddons⟩
  have hs : orNull (c.size.map (·.id)) = c.size.map (·.id) :=
    orNull_of_plain fun id hid => hplain id (hsize id hid)
  have hv : orNull (c.variant.map (·.id)) = c.variant.map (·.id) :=
    orNull_of_plain fun id hid => hplain id (hvariant id hid)
  have hpos : 0 < n := by omega
  have hall : ∀ x : Option Id, (∀ id ∈ x, isUUID id = true) → x.all isUUID = true := by
    intro x hx
    cases x with
    | none => rfl
    | some id => exact hx id rfl
  have hselection : toSelection (c.line n) =
      { productId := c.product.id
        sizeId := c.size.map (·.id)
        variantId := c.variant.map (·.id)
        quantity := n
        addons := if 0 < c.addons.length then some (c.addons.map fun a => ⟨a.id⟩) else none } := by
    simp only [toSelection, Configuration.line, cartLine, hs, hv, List.length_map, List.map_map]
    rfl
  let item : OrderItemSelectionDto :=
    { productId := c.product.id
      sizeId := c.size.map (·.id)
      variantId := c.variant.map (·.id)
      quantity := ⟨n.toNat, by omega⟩
      addons := if 0 < c.addons.length then some (c.addons.map fun a => ⟨a.id⟩) else none }
  refine ⟨item, ?_, rfl, hs, hv, Int.toNat_of_nonneg (le_of_lt hpos), ?_⟩
  · rw [hselection]
    by_cases hnone : c.addons = []
    · simp [receivedItem, item, hproduct, hall _ hsize, hall _ hvariant, hnone, hpos]
    · have hlength : 0 < c.addons.length := List.length_pos_iff.mpr hnone
      have huuids : (∀ a ∈ c.addons, isUUID a.id = true) = True := eq_true haddons
      simp [receivedItem, item, hproduct, hall _ hsize, hall _ hvariant, hlength, hpos, huuids,
        Function.comp_def]
  · by_cases hnone : c.addons = []
    · simp [item, hnone]
    · have hlength : 0 < c.addons.length := List.length_pos_iff.mpr hnone
      simp [item, hlength]

variable (hkeys : MenuKeys db') (hkept : Unchanged db db')
include hkeys hkept

omit hplain hkeys in
/-- What a line of the cart names is in the database. -/
theorem refers_of_charges (c : Configuration menu) {n : ℤ} {draft : OrderItemDraft}
    (h : Charges (c.line n) draft) : Refers db' draft := by
  intro row hstored
  rcases c with ⟨product, size, variant, addons, hshown, hconfigured⟩
  rcases shown_row hmenu hrows hshown with ⟨p, hp, rfl⟩
  have hproduct : row.productId = p.id := hstored.productId.trans h.productId
  have hvariant : row.variantId = variant.map (·.id) := hstored.variantId.trans h.variantId
  have hsize : row.sizeId = size.map (·.id) := hstored.sizeId.trans h.sizeId
  have haddons : row.orderItemAddons.map (·.addonItemId) = addons.map (·.id) := by
    rw [hstored.orderItemAddons, h.addons]
    simp [Configuration.line, cartLine, toCartItemAddon]
  simp only [OrderItem.references, Bool.and_eq_true, List.any_eq_true, List.all_eq_true, beq_iff_eq]
  refine ⟨⟨⟨⟨p, hkept.products hp.mem, hproduct.symm⟩, ?_⟩, ?_⟩, fun a ha => ?_⟩
  · rw [hvariant]
    cases hv : variant with
    | none => rfl
    | some v =>
        rcases List.mem_map.mp (hconfigured.variant_mem v hv).1 with ⟨r, hr, rfl⟩
        exact List.any_eq_true.mpr ⟨r, hkept.productVariants (List.mem_of_mem_filter hr),
          beq_self_eq_true _⟩
  · rw [hsize]
    cases hs : size with
    | none => rfl
    | some s =>
        rcases List.mem_map.mp (hconfigured.size_mem s hs) with ⟨r, hr, rfl⟩
        exact List.any_eq_true.mpr ⟨r, hkept.productSizes (List.mem_of_mem_filter hr),
          beq_self_eq_true _⟩
  · have hid : a.addonItemId ∈ addons.map (·.id) := haddons ▸ List.mem_map_of_mem ha
    rcases List.mem_map.mp hid with ⟨o, ho, hsame⟩
    rcases hconfigured.addons_mem o ho with ⟨group, hgroup, hoption⟩
    rcases List.mem_map.mp hgroup with ⟨g, _, rfl⟩
    rcases List.mem_map.mp hoption with ⟨i, hi, rfl⟩
    exact ⟨i, hkept.addonItems (List.mem_of_mem_filter hi), hsame⟩

/-- The server charges a line of the cart what the page shows for it. -/
theorem lineDraft_agrees (c : Configuration menu) {n : ℤ} (hn : 1 ≤ n) :
    ∃ item draft, receivedItem isUUID (toSelection (c.line n)) = some item ∧
      lineDraft db' (some T) T item = some draft ∧ Charges (c.line n) draft := by
  rcases receivedItem_line hmenu hplain hrows c hn with
    ⟨item, hitem, hproduct, hsize, hvariant, hquantity, haddons⟩
  rcases c with ⟨product, size, variant, addons, hshown, hconfigured⟩
  rcases shown_row hmenu hrows hshown with ⟨p, hp, rfl⟩
  rcases unitPriceOf_offered hrows hkeys hkept hp hconfigured hvariant hsize with
    ⟨u, hunit, hprice⟩
  rcases addonRows_offered hrows hkeys hkept hp hconfigured.addons_mem with
    ⟨rows, haddonRows, hids, htotal⟩
  have hlive : liveProduct db' (some T) item.productId = some p := by
    rw [hproduct]
    exact liveProduct_offered hkeys hkept hp
  have hsum : ((addons.map toCartItemAddon).map (·.price)).sum = (addons.map (·.price)).sum := by
    rw [List.map_map]
    rfl
  let draft : OrderItemDraft :=
    { productId := p.id
      sizeId := orNull item.sizeId
      variantId := orNull item.variantId
      quantity := item.quantity
      unitPrice := u
      totalPrice := (u + addonsTotal rows) * item.quantity
      orderItemAddons := rows }
  refine ⟨item, draft, hitem, ?_, ?_⟩
  · simp [lineDraft, draft, hlive, hp.available, hunit, haddons, haddonRows]
  · refine ⟨rfl, hsize, hvariant, hquantity, ?_, ?_, ?_⟩
    · rw [hids]
      simp [Configuration.line, cartLine, toCartItemAddon]
    · exact (congrArg (u + ·) hsum).trans hprice
    · have hcast : ((item.quantity : ℕ) : ℚ) = (n : ℚ) := by exact_mod_cast hquantity
      simp only [draft, htotal, hprice, hcast]
      rfl

/-- The server charges the lines of the cart what the page shows for them. -/
theorem lineDrafts_agree {cart : List CartItem} (hcart : ∀ item ∈ cart, 1 ≤ item.quantity ∧
    ∃ c : Configuration menu, item = c.line item.quantity) :
    ∃ items drafts, receivedItems isUUID (cart.map toSelection) = some items ∧
      lineDrafts db' (some T) T items = some drafts ∧ List.Forall₂ Charges cart drafts ∧
        ∀ draft ∈ drafts, Refers db' draft := by
  induction cart with
  | nil => exact ⟨[], [], rfl, rfl, .nil, by simp⟩
  | cons line cart ih =>
      rcases hcart line List.mem_cons_self with ⟨hpos, c, hline⟩
      rcases lineDraft_agrees hmenu hplain hrows hkeys hkept c hpos with
        ⟨item, draft, hitem, hdraft, hcharges⟩
      rcases ih fun other hother => hcart other (List.mem_cons_of_mem _ hother) with
        ⟨items, drafts, hitems, hdrafts, hrest, hrefers⟩
      have hrefer := refers_of_charges hmenu hrows hkept c hcharges
      rw [← hline] at hitem hcharges
      refine ⟨item :: items, draft :: drafts, ?_, ?_, .cons hcharges hrest,
        List.forall_mem_cons.mpr ⟨hrefer, hrefers⟩⟩
      · simp [receivedItems, hitem, hitems]
      · simp [lineDrafts, hdraft, hdrafts]

end Carts

/-! ## The checkout -/

/-- The amounts of an order without a discount. -/
def amountsOf (subtotal taxPercentage : ℚ) : Amounts where
  subtotal := subtotal
  taxAmount := round2 (subtotal * (taxPercentage / 100))
  discountAmount := 0
  total := round2 (subtotal + round2 (subtotal * (taxPercentage / 100)) - 0)

/-- A checkout whose statements do not fail and whose ids are new. -/
structure Ready (env : CheckoutEnv) (db : Db) : Prop where
  steps : ∀ step, env.fails step = false
  orderId : (db.orders.map (·.id) ++ [env.uuid 0]).Nodup
  queueId : (db.kitchenQueues.map (·.id) ++ [env.queueUuid]).Nodup

theorem orderRow_customerId {env : CheckoutEnv} {userTenantId : Id} {dto : CreateOrderRequestDto}
    {amounts : Amounts} {discountId : Option Id} {drafts : List OrderItemDraft} {row : Order}
    (h : orderRow env userTenantId dto amounts discountId drafts = some row) :
    row.customerId = none := by
  unfold orderRow at h
  simp only [Option.bind_eq_bind, Option.bind_eq_some_iff, Option.pure_def,
    Option.some.injEq] at h
  rcases h with ⟨_, _, _, _, _, _, _, _, _, _, rfl⟩
  rfl

section Checkout

variable {env : CheckoutEnv} {T : Id} {dto : CreateOrderRequestDto} {w : World} {b : Branch}
  {drafts : List OrderItemDraft}

/-- What an order names is in the database. -/
theorem references_of_lines (hbranch : liveBranch w.db (some T) dto.branchId = some b)
    (htable : ∀ tableId, orNull dto.tableId = some tableId →
      ∃ table, liveTable w.db (some T) tableId = some table ∧ table.branchId = b.id)
    (hfixed : ∀ draft ∈ drafts, IsFixed 2 draft.unitPrice ∧ IsFixed 2 draft.totalPrice)
    (hrefers : ∀ draft ∈ drafts, Refers w.db draft) {amounts : Amounts} {row : Order}
    (hrow : orderRow env T dto amounts none drafts = some row) : row.references w.db = true := by
  rcases orderRow_place hrow with ⟨hbranchId, htableId⟩
  rcases orderRow_eq_some hrow with ⟨_, _, _, _, hitems, _, hdiscountId⟩
  have hcustomerId := orderRow_customerId hrow
  have hb : dto.branchId = b.id := by
    have hadmits := List.find?_some hbranch
    simp only [Bool.and_eq_true, beq_iff_eq] at hadmits
    exact hadmits.1.1
  simp only [Order.references, hcustomerId, hdiscountId, hbranchId, htableId, Option.all_none,
    Bool.and_true, Bool.and_eq_true, List.any_eq_true, List.all_eq_true, beq_iff_eq]
  refine ⟨⟨⟨b, List.mem_of_find?_eq_some hbranch, hb.symm⟩, ?_⟩, fun item hitem => ?_⟩
  · cases hid : orNull dto.tableId with
    | none => rfl
    | some tableId =>
        rcases htable tableId hid with ⟨table, hfound, _⟩
        have hadmits := List.find?_some hfound
        simp only [Bool.and_eq_true, beq_iff_eq] at hadmits
        exact List.any_eq_true.mpr ⟨table, List.mem_of_find?_eq_some hfound,
          beq_iff_eq.mpr hadmits.1.1.symm⟩
  · rcases exists_of_mem_right (itemRows_storedAs hfixed hitems) hitem with ⟨draft, hdraft, hstored⟩
    exact hrefers draft hdraft item hstored

/-- A checkout of lines that are priced is accepted exactly when the restaurant is live and the
columns hold the amounts. -/
theorem createOrder_iff (hctx : env.context.Sees (some T)) (hready : Ready env w.db)
    (hcode : dto.discountCode = none) (hbranch : liveBranch w.db (some T) dto.branchId = some b)
    (htable : ∀ tableId, orNull dto.tableId = some tableId →
      ∃ table, liveTable w.db (some T) tableId = some table ∧ table.branchId = b.id)
    (hdrafts : lineDrafts w.db (some T) T dto.items = some drafts)
    (hrefers : ∀ draft ∈ drafts, Refers w.db draft) :
    (∃ order w', createOrder env dto T w = (.ok order, w')) ↔
      ∃ restaurant, liveRestaurant w.db (some T) b.restaurantId = some restaurant ∧
        AmountsFit (amountsOf (draftsTotal drafts) restaurant.taxPercentage.toNumber) ∧
          ∀ draft ∈ drafts, LineFits draft := by
  have hfixed : ∀ draft ∈ drafts, IsFixed 2 draft.unitPrice ∧ IsFixed 2 draft.totalPrice := by
    intro draft hdraft
    rcases exists_of_mem_right (lineDrafts_forall₂ hdrafts) hdraft with ⟨item, _, hitem⟩
    exact isFixed_lineDraft hitem
  have hnone : orNull (discountCodeOf env dto) = none := by simp [discountCodeOf, hcode, orNull]
  have hrow : ∀ restaurant : Restaurant, (∃ row, orderRow env T dto
      (amountsOf (draftsTotal drafts) restaurant.taxPercentage.toNumber) none drafts = some row) ↔
        AmountsFit (amountsOf (draftsTotal drafts) restaurant.taxPercentage.toNumber) ∧
          ∀ draft ∈ drafts, LineFits draft := fun restaurant =>
    orderRow_iff rfl (isFixed_draftsTotal hdrafts) (isFixed_roundTo 2 _) (isFixed_roundTo 2 _)
      hfixed
  constructor
  · rintro ⟨order, w', h⟩
    rcases createOrder_ok hctx h with ⟨acc, _, _, _⟩
    have hb : acc.branch = b := Option.some.inj (acc.branch_eq.symm.trans hbranch)
    have hd : acc.drafts = drafts := Option.some.inj (acc.drafts_eq.symm.trans hdrafts)
    have hdiscount : acc.discount = (0, none) := by
      rcases acc.discount_eq with ⟨_, hdiscount⟩ | ⟨code, _, hsome, _⟩
      · exact hdiscount
      · rw [hnone] at hsome
        cases hsome
    have hstored := acc.row_eq
    rw [hd, hdiscount] at hstored
    exact ⟨acc.restaurant, hb ▸ acc.restaurant_eq, (hrow acc.restaurant).mp ⟨acc.row, hstored⟩⟩
  · rintro ⟨restaurant, hrestaurant, hfits⟩
    rcases (hrow restaurant).mpr hfits with ⟨row, hrow⟩
    let acc : Accepted env (some T) T dto w.db { row with tenantId := T } :=
      { branch := b
        restaurant := restaurant
        drafts := drafts
        discount := (0, none)
        row := row
        branch_eq := hbranch
        restaurant_eq := hrestaurant
        table_eq := htable
        drafts_eq := hdrafts
        discount_eq := Or.inl ⟨hnone, rfl⟩
        row_eq := hrow
        tenant := fun S hS => Or.inr (Option.some.inj hS)
        order_eq := rfl }
    have hids : ((w.db.orders ++ [({ row with tenantId := T } : Order)]).map (·.id)).Nodup := by
      rw [List.map_append, List.map_singleton, ← orderRow_id hrow]
      exact hready.orderId
    have hrefs := references_of_lines hbranch htable hfixed hrefers hrow
    rcases createOrder_returns hctx hready.steps acc hnone hids hrefs hready.queueId with ⟨w', hrun⟩
    exact ⟨_, w', hrun⟩

end Checkout

/-! ## What the page shows and what the server stores -/

/-- The columns of an order hold the amounts of the cart at a tax percentage. -/
structure FitsColumns (cart : List CartItem) (taxPercentage : ℚ) : Prop where
  unitPrices : ∀ item ∈ cart, InColumn (item.unitPrice - (item.addons.map (·.price)).sum)
  totalPrices : ∀ item ∈ cart, InColumn (item.unitPrice * item.quantity)
  quantities : ∀ item ∈ cart, item.quantity < int4Bound
  subtotal : InColumn (computeCartSubtotal cart)
  taxAmount : InColumn (round2 (computeCartSubtotal cart * (taxPercentage / 100)))
  total : InColumn (round2 (computeCartSubtotal cart +
    round2 (computeCartSubtotal cart * (taxPercentage / 100))))

theorem draftsTotal_eq {cart : List CartItem} {drafts : List OrderItemDraft}
    (h : List.Forall₂ Charges cart drafts) : draftsTotal drafts = computeCartSubtotal cart := by
  rw [computeCartSubtotal_eq_sum]
  unfold draftsTotal
  exact congrArg List.sum
    (map_eq_map_of_forall₂ h fun _ _ hcharges => hcharges.totalPrice.symm).symm

/-- The server's columns hold the amounts exactly when the page's do. -/
theorem fitsColumns_iff {cart : List CartItem} {drafts : List OrderItemDraft} {taxPercentage : ℚ}
    (h : List.Forall₂ Charges cart drafts) :
    (AmountsFit (amountsOf (draftsTotal drafts) taxPercentage) ∧
      ∀ draft ∈ drafts, LineFits draft) ↔ FitsColumns cart taxPercentage := by
  have hline : ∀ item draft, Charges item draft → (LineFits draft ↔
      InColumn (item.unitPrice - (item.addons.map (·.price)).sum) ∧
        InColumn (item.unitPrice * item.quantity) ∧ item.quantity < int4Bound) := by
    intro item draft hcharges
    rw [← hcharges.totalPrice, ← hcharges.unitPrice, add_sub_cancel_right, ← hcharges.quantity,
      Int.ofNat_lt]
    exact ⟨fun h => ⟨h.unitPrice, h.totalPrice, h.quantity⟩, fun h => ⟨h.1, h.2.1, h.2.2⟩⟩
  rw [draftsTotal_eq h]
  constructor
  · rintro ⟨⟨hsubtotal, htax, htotal⟩, hlines⟩
    have hitems : ∀ item ∈ cart, InColumn (item.unitPrice - (item.addons.map (·.price)).sum) ∧
        InColumn (item.unitPrice * item.quantity) ∧ item.quantity < int4Bound := by
      intro item hitem
      rcases exists_of_mem_left h hitem with ⟨draft, hdraft, hcharges⟩
      exact (hline item draft hcharges).mp (hlines draft hdraft)
    refine ⟨fun item hitem => (hitems item hitem).1, fun item hitem => (hitems item hitem).2.1,
      fun item hitem => (hitems item hitem).2.2, hsubtotal, htax, ?_⟩
    simpa [amountsOf] using htotal
  · intro hfits
    refine ⟨⟨hfits.subtotal, hfits.taxAmount, ?_⟩, fun draft hdraft => ?_⟩
    · simpa [amountsOf] using hfits.total
    · rcases exists_of_mem_right h hdraft with ⟨item, hitem, hcharges⟩
      exact (hline item draft hcharges).mpr ⟨hfits.unitPrices item hitem,
        hfits.totalPrices item hitem, hfits.quantities item hitem⟩

/-- A stored line is that of a line of the cart. -/
structure StoresLine (item : CartItem) (row : OrderItem) : Prop where
  productId : row.productId = item.productId
  sizeId : row.sizeId = item.sizeId
  variantId : row.variantId = item.variantId
  quantity : ((row.quantity : ℕ) : ℤ) = item.quantity
  addons : row.orderItemAddons.map (·.addonItemId) = item.addons.map (·.id)
  totalPrice : row.totalPrice.toNumber = item.unitPrice * item.quantity

/-- The order is that of the cart, line by line and in sum. -/
structure StoresCart (cart : List CartItem) (order : Order) : Prop where
  lines : List.Forall₂ StoresLine cart order.orderItems
  subtotal : order.subtotal.toNumber = computeCartSubtotal cart

section Guests

variable {env : GuestEnv} {dto : CreateOrderRequestDto} {T : Id} {w : World} {table : Table}

/-- A guest checkout whose token is that of a table is the checkout for the table. -/
theorem createGuestOrder_eq (hT : T ≠ "") (hguest : ∀ step, env.guestFails step = false)
    {qrCodeToken : String} (htoken : presented dto.qrCodeToken = some qrCodeToken)
    (hscanned : scannedTable w.db T qrCodeToken = some table)
    (hbranch : dto.branchId = table.branchId) (htable : dto.tableId = none)
    (hallowed : ∀ tenant, (w.db.tenants.find? fun t => t.id == T) = some tenant →
      guestOrderingBlocked tenant.status = false) :
    createGuestOrder env dto T w = createOrder (env.inTenant T) (dto.boundTo table) T w := by
  have hpass : (T == "") = false := by simpa using hT
  have hgiven : (dto.qrCodeToken.filter fun s => trim s != "") = some qrCodeToken := htoken
  have hread : Fallible.reads (fun w : World =>
      (.ok (w.db.tenants.find? fun t => t.id == T) : Except AppError (Option Tenant))) w =
        (.ok (w.db.tenants.find? fun t => t.id == T), w) := rfl
  have hblocked : ((w.db.tenants.find? fun t => t.id == T).any fun t =>
      t.status == .UNPAID || t.status == .CANCELED) = false := by
    cases hfound : w.db.tenants.find? fun t => t.id == T with
    | none => rfl
    | some tenant => exact hallowed tenant hfound
  unfold createGuestOrder
  rw [hpass, Fallible.throwIf_false_bind, Fallible.bind_of_ok (orThrow_eq_ok.mpr ⟨hgiven, rfl⟩),
    hguest, attempt_false, Fallible.bind_of_ok (run_findByQrCodeToken hT qrCodeToken w),
    Fallible.bind_of_ok (orThrow_eq_ok.mpr ⟨hscanned, rfl⟩), hbranch, bne_self_eq_false,
    Fallible.throwIf_false_bind, htable]
  simp only [orNull, Option.filter_none, Option.any_none]
  rw [Fallible.throwIf_false_bind, hguest, attempt_false,
    Fallible.bind_of_ok hread, hblocked,
    Fallible.throwIf_false_bind]

end Guests

/-- What the server makes of the request of a cart: it accepts it exactly when the restaurant is
live and the columns hold the amounts, and then the order is that of the cart. -/
structure Agrees (env : GuestEnv) (T : Id) (w : World) (restaurant : Restaurant)
    (cart : List CartItem) (dto : CreateOrderRequestDto) : Prop where
  accepted_iff : (∃ order w', createGuestOrder env dto T w = (.ok order, w')) ↔
    restaurant.deletedAt = none ∧ FitsColumns cart restaurant.taxPercentage.toNumber
  stores : ∀ order w', createGuestOrder env dto T w = (.ok order, w') → StoresCart cart order

section Agreement

variable {isUUID : String → Bool} {menuEnv : PublicMenuEnv} {env : GuestEnv} {token : String}
  {T : Id} {w w' : World} {menu : PublicMenuResponse}

theorem tenantId_of_menu (h : getPublicMenu menuEnv (some token) T w = (.ok menu, w')) :
    T ≠ "" := by
  rcases Fallible.bind_eq_ok.mp h with ⟨_, _, _, hrest⟩
  rcases Fallible.bind_eq_ok.mp hrest with ⟨_, _, htenant, _⟩
  rcases Fallible.throwIf_bind_eq_ok.mp htenant with ⟨hpass, _⟩
  simpa using hpass

/-- The order of a cart is stored as the page shows it. -/
theorem storesCart_of_accepted {cart : List CartItem} {drafts : List OrderItemDraft}
    {cenv : CheckoutEnv} {dto : CreateOrderRequestDto} {order : Order}
    (hctx : cenv.context.Sees (some T))
    (hdrafts : lineDrafts w.db (some T) T dto.items = some drafts)
    (hcharges : List.Forall₂ Charges cart drafts)
    (h : createOrder cenv dto T w = (.ok order, w')) : StoresCart cart order := by
  rcases createOrder_ok hctx h with ⟨acc, _, _, _⟩
  have hd : acc.drafts = drafts := Option.some.inj (acc.drafts_eq.symm.trans hdrafts)
  constructor
  · refine forall₂_trans (hd ▸ hcharges) acc.storedAs fun item draft row hc hs => ?_
    exact ⟨hs.productId.trans hc.productId, hs.sizeId.trans hc.sizeId,
      hs.variantId.trans hc.variantId, (by rw [hs.quantity]; exact hc.quantity),
      (by rw [hs.orderItemAddons]; exact hc.addons), hs.totalPrice.trans hc.totalPrice⟩
  · have hamounts := congrArg Amounts.subtotal acc.amounts
    rw [hd] at hamounts
    exact hamounts.trans (draftsTotal_eq hcharges)

/-- The rows that a checkout finds behind the token of a menu. -/
structure Seat (db db' : Db) (T : Id) (token : String) (menu : PublicMenuResponse) (table : Table)
    (b : Branch) (restaurant : Restaurant) : Prop where
  openBranch : openBranch db T menu.branch.id = some b
  ownRestaurant : ownRestaurant db T b.restaurantId = some restaurant
  branchId : menu.branch.id = table.branchId
  scanned : ∃ qrCodeToken, presented (some token) = some qrCodeToken ∧
    scannedTable db' T qrCodeToken = some table
  branch : liveBranch db' (some T) table.branchId = some b
  table : liveTable db' (some T) table.id = some table ∧ table.branchId = b.id
  restaurant : ∀ r, liveRestaurant db' (some T) b.restaurantId = some r ↔
    r = restaurant ∧ restaurant.deletedAt = none
  allowed : ∀ tenant, (db'.tenants.find? fun t => t.id == T) = some tenant →
    guestOrderingBlocked tenant.status = false

/-- The rows behind a menu are found by a checkout. -/
theorem seat_of_menu {db db' : Db} {resolved : ResolvedTable} {tenant : Tenant}
    (hkeys : MenuKeys db) (hkeys' : MenuKeys db') (hkept : Unchanged db db')
    (hshown : PublicMenuService.Shown db T (some token) resolved tenant)
    (hmenu : menu.branch.id = resolved.branch.id) :
    Seat db db' T token menu resolved.table resolved.branch resolved.restaurant := by
  rcases hshown.table with ⟨qrCodeToken, htoken, hscanned⟩
  rcases (scannedTable_iff hkeys.places).mp hscanned with ⟨htable, hscans⟩
  rcases (openBranch_iff hkeys.places).mp hshown.branch with ⟨hb, hbid, hbT, hblive, _⟩
  have hrestaurant := List.find?_some hshown.restaurant
  simp only [Bool.and_eq_true, beq_iff_eq] at hrestaurant
  have hrestaurantMem := hkept.restaurants (List.mem_of_find?_eq_some hshown.restaurant)
  have htenant := hkept.tenants (List.mem_of_find?_eq_some hshown.record)
  have htenantId := List.find?_some hshown.record
  refine ⟨?_, hshown.restaurant, hmenu.trans hbid, ⟨qrCodeToken, htoken,
    (scannedTable_iff hkeys'.places).mpr ⟨hkept.tables htable, hscans⟩⟩, ?_, ⟨?_, hbid.symm⟩,
    fun r => ?_, fun t ht => ?_⟩
  · rw [hmenu, hbid]
    exact hshown.branch
  · rw [← hbid]
    refine find?_of_id hkeys'.places.branchIds (hkept.branches hb) ?_ fun s hs => ?_
    · simp only [beq_self_eq_true, Bool.true_and, Bool.and_eq_true, Option.isNone_iff_eq_none]
      exact ⟨visible_some.mpr (congrArg some hbT), hblive⟩
    · simp only [Bool.and_eq_true, beq_iff_eq] at hs
      exact hs.1.1.symm
  · refine find?_of_id hkeys'.places.tableIds (hkept.tables htable) ?_ fun s hs => ?_
    · simp only [beq_self_eq_true, Bool.true_and, Bool.and_eq_true, Option.isNone_iff_eq_none]
      exact ⟨visible_some.mpr (congrArg some hscans.tenantId), hscans.live⟩
    · simp only [Bool.and_eq_true, beq_iff_eq] at hs
      exact hs.1.1.symm
  · unfold liveRestaurant
    rw [find?_iff_of_unique fun x hx y hy hpx hpy => List.inj_on_of_nodup_map hkeys'.restaurantIds
      hx hy (by
        simp only [Bool.and_eq_true, beq_iff_eq] at hpx hpy
        exact hpx.1.1.symm.trans hpy.1.1)]
    simp only [Bool.and_eq_true, beq_iff_eq, Option.isNone_iff_eq_none]
    constructor
    · rintro ⟨hr, ⟨hid, _⟩, hlive⟩
      have hsame : r = resolved.restaurant := List.inj_on_of_nodup_map hkeys'.restaurantIds hr
        hrestaurantMem (hid.symm.trans hrestaurant.1)
      exact ⟨hsame, hsame ▸ hlive⟩
    · rintro ⟨rfl, hlive⟩
      exact ⟨hrestaurantMem, ⟨hrestaurant.1, visible_some.mpr (congrArg some hrestaurant.2)⟩, hlive⟩
  · have hid : t.id = T := by simpa using List.find?_some ht
    have hid' : tenant.id = T := by simpa using htenantId
    have hsame : t = tenant := List.inj_on_of_nodup_map hkeys'.tenantIds
      (List.mem_of_find?_eq_some ht) htenant (hid.trans hid'.symm)
    rw [hsame]
    exact hshown.allowed

/-- While the rows of the menu are unchanged, the server accepts the payload of every cart that a
run of the page comes to exactly when the restaurant is live and the columns hold the amounts, and
it charges what the page shows, line by line. -/
theorem checkout_agrees (hplain : ∀ id, isUUID id = true → Plain id)
    (hmenu : getPublicMenu menuEnv (some token) T w = (.ok menu, w))
    (hrows : MenuRows isUUID w.db) (hkeys : MenuKeys w'.db) (hkept : Unchanged w.db w'.db)
    (hguest : ∀ step, env.guestFails step = false) (hready : Ready env.toCheckoutEnv w'.db)
    {as : List Action} (hrun : (browser menu token).EachStep (Offered menu) as {})
    (hplace : Offered menu .placeOrder ((browser menu token).exec as {})) :
    ∃ payload dto b restaurant,
      ((browser menu token).step .placeOrder ((browser menu token).exec as {})).1 = some payload ∧
      received isUUID payload = some dto ∧
      openBranch w.db T menu.branch.id = some b ∧
      ownRestaurant w.db T b.restaurantId = some restaurant ∧
      Agrees env T w' restaurant ((browser menu token).exec as {}).cart dto := by
  have hT := tenantId_of_menu hmenu
  rcases (getPublicMenu_iff hT).mp hmenu with ⟨_, resolved, tenant, hshown, hmenuEq⟩
  have hcategories : menu.categories =
      shownCategories w.db T menuEnv.nameLe resolved.branch.restaurantId := by rw [hmenuEq]
  have hbranchId : menu.branch.id = resolved.branch.id := by
    rw [hmenuEq]
    rfl
  have hseat : Seat w.db w'.db T token menu resolved.table resolved.branch resolved.restaurant :=
    seat_of_menu hrows.toMenuKeys hkeys hkept hshown hbranchId
  have hpage := page_ok (wellNamed_of_menu hcategories hplain hrows) hrun
  generalize (browser menu token).exec as {} = page at hplace hpage ⊢
  rcases lineDrafts_agree hcategories hplain hrows hkeys hkept hpage.lines with
    ⟨items, drafts, hitems, hdrafts, hcharges, hrefers⟩
  rcases hseat.scanned with ⟨qrCodeToken, htoken, hscanned⟩
  have huuid : isUUID menu.branch.id = true := by
    rcases (openBranch_iff hrows.places).mp hseat.openBranch with ⟨hb, hid, _⟩
    rw [← hid]
    exact hrows.branches _ hb
  let dto : CreateOrderRequestDto :=
    { branchId := menu.branch.id
      qrCodeToken := some token
      type := .DINE_IN
      specialNotes := orNull (some (trim page.specialNotes))
      items := items
      paymentMethod := .CASH }
  have hreceived : received isUUID (checkoutPayload menu token page) = some dto := by
    have hlength : 0 < page.cart.length := hplace.2.2.1
    simp [received, checkoutPayload, buildCheckoutPayload, huuid, hlength, hitems, dto]
  have hsame : createGuestOrder env dto T w' =
      createOrder (env.inTenant T) (dto.boundTo resolved.table) T w' :=
    createGuestOrder_eq hT hguest htoken hscanned hseat.branchId rfl hseat.allowed
  have hctx := inTenant_sees env hT
  have hdrafts' : lineDrafts w'.db (some T) T (dto.boundTo resolved.table).items = some drafts :=
    hdrafts
  have htable : ∀ tableId, orNull (dto.boundTo resolved.table).tableId = some tableId →
      ∃ table, liveTable w'.db (some T) tableId = some table ∧
        table.branchId = resolved.branch.id := by
    intro tableId hid
    have hid' : resolved.table.id = tableId := Option.some.inj (Option.filter_eq_some_iff.mp hid).1
    rw [← hid']
    exact ⟨resolved.table, hseat.table⟩
  have haccepts := createOrder_iff hctx ⟨hready.steps, hready.orderId, hready.queueId⟩ rfl
    hseat.branch htable hdrafts' hrefers
  refine ⟨checkoutPayload menu token page, dto, resolved.branch, resolved.restaurant, ?_, hreceived,
    hseat.openBranch, hseat.ownRestaurant, ?_, fun order w'' h => ?_⟩
  · have hopen : ¬ (page.cart.length = 0 ∨ page.submitting = true) := by
      rintro (hempty | hsubmitting)
      · have hlength := hplace.2.2.1
        omega
      · rw [hplace.2.2.2] at hsubmitting
        cases hsubmitting
    simp only [browser, QrMenu.placeOrder, if_neg hopen]
  · rw [hsame, haccepts]
    constructor
    · rintro ⟨restaurant, hlive, hfits⟩
      rcases (hseat.restaurant restaurant).mp hlive with ⟨rfl, hdeleted⟩
      exact ⟨hdeleted, (fitsColumns_iff hcharges).mp hfits⟩
    · rintro ⟨hdeleted, hfits⟩
      exact ⟨resolved.restaurant, (hseat.restaurant _).mpr ⟨rfl, hdeleted⟩,
        (fitsColumns_iff hcharges).mpr hfits⟩
  · rw [hsame] at h
    exact storesCart_of_accepted hctx hdrafts' hcharges h

end Agreement

/-! ## The guest orders the soup -/

/-- A UUID of version 4. -/
def isUUID4 (s : String) : Bool :=
  let cs := s.toList
  cs.length == 36 && cs.all (fun c => c == '-' || "0123456789abcdefABCDEF".toList.contains c) &&
    cs.zipIdx.all (fun c => (c.1 == '-') == [8, 13, 18, 23].contains c.2) &&
    cs[14]? == some '4' && cs[19]?.any (fun c => "89abAB".toList.contains c)

theorem plain_of_isUUID4 (id : Id) (h : isUUID4 id = true) : Plain id := by
  unfold isUUID4 at h
  simp only [Bool.and_eq_true, beq_iff_eq] at h
  rcases h with ⟨⟨⟨⟨hlength, hchars⟩, _⟩, _⟩, _⟩
  have hnone : ∀ c : Char, (c == '-' || "0123456789abcdefABCDEF".toList.contains c) = false →
      c ∉ id.toList := by
    intro c hc hmem
    rw [List.all_eq_true.mp hchars c hmem] at hc
    cases hc
  refine ⟨fun hid => ?_, fun hid => ?_, hnone '|' (by decide +kernel),
    hnone '+' (by decide +kernel)⟩
  · rw [hid] at hlength
    revert hlength
    decide
  · rw [hid] at hlength
    revert hlength
    decide

/-- The rows of the soup menu. -/
def lentilDb : Db where
  tenants := [{
    id := "tenant-4", name := "Soups", status := .ACTIVE, primaryColor := "#4f46e5"
    secondaryColor := "#f59e0b" }]
  restaurants := [{
    id := "restaurant-4", tenantId := "tenant-4", name := "Soups", currency := "SAR"
    taxPercentage := ⟨1400, by decide⟩ }]
  branches := [{
    id := lentilMenu.branch.id, tenantId := "tenant-4", restaurantId := "restaurant-4"
    name := "Harbour" }]
  tables := [{
    id := "table-4", tenantId := "tenant-4", branchId := lentilMenu.branch.id, number := "4"
    qrCodeToken := "qr-4" }]
  categories := [{
    id := "00000000-0000-4000-8000-0000000000f1", tenantId := "tenant-4"
    restaurantId := "restaurant-4", name := "Soups", sortOrder := 1, isActive := true }]
  products := [{
    id := lentilSoup.id, tenantId := "tenant-4"
    categoryId := "00000000-0000-4000-8000-0000000000f1", name := "Lentil soup"
    basePrice := ⟨690, by decide⟩, isAvailable := true }]
  productSizes := [{
    id := largeBowl.id, tenantId := "tenant-4", productId := lentilSoup.id, name := "Large"
    priceAdjustment := ⟨310, by decide⟩ }]
  productAddons := [{
    id := bread.id, tenantId := "tenant-4", productId := lentilSoup.id, name := "Bread"
    minSelections := 0, maxSelections := 1 }]
  addonItems := [
    { id := pita.id, tenantId := "tenant-4", addonGroupId := bread.id, name := "Pita"
      price := ⟨110, by decide⟩, isAvailable := true },
    { id := rye.id, tenantId := "tenant-4", addonGroupId := bread.id, name := "Rye"
      price := ⟨220, by decide⟩, isAvailable := true }]

/-- The rows behind the token of the table. -/
def lentilTable : ResolvedTable where
  table := lentilDb.tables.headD default
  branch := lentilDb.branches.headD default
  restaurant := lentilDb.restaurants.headD default

theorem lentilMenu_shown :
    getPublicMenu tableMenuEnv (some "qr-4") "tenant-4" { db := lentilDb } =
      (.ok lentilMenu, { db := lentilDb }) := by
  refine (getPublicMenu_iff (by decide)).mpr ⟨rfl, lentilTable, lentilDb.tenants.headD default,
    ⟨⟨"qr-4", ?_, ?_⟩, ?_, ?_, ?_, ?_⟩, ?_⟩ <;> decide +kernel

theorem lentilDb_keys : MenuKeys lentilDb where
  places := ⟨List.nodup_singleton _, List.nodup_singleton _, List.nodup_singleton _⟩
  tenantIds := List.nodup_singleton _
  restaurantIds := List.nodup_singleton _
  productIds := List.nodup_singleton _
  sizeIds := List.nodup_singleton _
  variantIds := List.nodup_nil
  groupIds := List.nodup_singleton _
  addonItemIds := by decide +kernel

theorem lentilDb_rows : MenuRows isUUID4 lentilDb where
  toMenuKeys := lentilDb_keys
  branches := by decide +kernel
  products := by decide +kernel
  sizes := by decide +kernel
  variants := by decide +kernel
  addonItems := by decide +kernel

/-- A guest of the tenant, with new ids. -/
def soupGuest : GuestEnv where
  context := {}
  uuid i := if i = 0 then "order-4" else "item-" ++ toString i
  now := 0
  year := 2026
  digits := 40004
  queueUuid := "ticket-4"

/-- The server agrees with the page on the soups. -/
theorem soup_agrees :
    ∃ payload dto b restaurant,
      ((browser lentilMenu "qr-4").step .placeOrder
        ((browser lentilMenu "qr-4").exec checkoutRun {})).1 = some payload ∧
      received isUUID4 payload = some dto ∧
      openBranch lentilDb "tenant-4" lentilMenu.branch.id = some b ∧
      ownRestaurant lentilDb "tenant-4" b.restaurantId = some restaurant ∧
      Agrees soupGuest "tenant-4" { db := lentilDb } restaurant
        ((browser lentilMenu "qr-4").exec checkoutRun {}).cart dto :=
  checkout_agrees plain_of_isUUID4 lentilMenu_shown lentilDb_rows lentilDb_keys
    ⟨List.Subset.refl _, List.Subset.refl _, List.Subset.refl _, List.Subset.refl _,
      List.Subset.refl _, List.Subset.refl _, List.Subset.refl _, List.Subset.refl _⟩
    (fun _ => rfl) ⟨fun _ => rfl, List.nodup_singleton _, List.nodup_singleton _⟩
    (checkoutRun_offered "qr-4") ⟨rfl, rfl, by decide +kernel, rfl⟩

/-- Two large soups with rye at 12.2 each. -/
example : computeCartSubtotal ((browser lentilMenu "qr-4").exec checkoutRun {}).cart = 122 / 5 := by
  decide +kernel

end QrMenu
end Eleva
