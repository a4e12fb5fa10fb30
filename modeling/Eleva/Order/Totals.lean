import Eleva.Foundation.ListRelations
import Eleva.Order.CheckoutSpec

/-!
# Order - Totals

The amounts that an accepted checkout stores.  Every price is a column with two
decimals, so storing the amounts of the lines and their sum loses nothing, and the
stored amounts are exactly the ones computed.

Main results:

- Theorem {lit}`Accepted.amounts`: the stored amounts, from the priced lines.
- Theorem {lit}`createOrder_conserves_money`: the equations and bounds of the stored
  amounts, and their independence of the other fields of the request.
-/

namespace Eleva
namespace OrderService

open Foundation Database DiscountService

/-! ## Whole cents -/

theorem isFixed_unitPriceOf {db : Db} {S : Option Id} {item : OrderItemSelectionDto}
    {product : Product} {p : ℚ} (h : unitPriceOf db S item product = some p) :
    IsFixed 2 p := by
  unfold unitPriceOf at h
  cases hv : orNull item.variantId with
  | some variantId =>
      simp only [hv, Option.bind_eq_bind, Option.bind_eq_some_iff, Option.pure_def,
        Option.some.injEq] at h
      rcases h with ⟨variant, _, _, _, rfl⟩
      exact variant.price.isFixed_toNumber
  | none =>
      cases hs : orNull item.sizeId with
      | some sizeId =>
          simp only [hv, hs, Option.bind_eq_bind, Option.bind_eq_some_iff, Option.pure_def,
            Option.some.injEq] at h
          rcases h with ⟨size, _, rfl⟩
          exact product.basePrice.isFixed_toNumber.add size.priceAdjustment.isFixed_toNumber
      | none =>
          simp only [hv, hs, Option.pure_def, Option.some.injEq] at h
          subst h
          exact product.basePrice.isFixed_toNumber

theorem isFixed_addonsTotal (rows : List OrderItemAddon) : IsFixed 2 (addonsTotal rows) := by
  apply isFixed_sum
  intro x hx
  rcases List.mem_map.mp hx with ⟨a, _, rfl⟩
  exact a.price.isFixed_toNumber

/-- What a priced line is made of. -/
theorem lineDraft_eq_some {db : Db} {S : Option Id} {userTenantId : Id}
    {item : OrderItemSelectionDto}
    {draft : OrderItemDraft} (h : lineDraft db S userTenantId item = some draft) :
    ∃ product unitPrice rows, liveProduct db S item.productId = some product ∧
      product.isAvailable = true ∧ unitPriceOf db S item product = some unitPrice ∧
      addonRows db S userTenantId (item.addons.getD []) = some rows ∧
      draft =
        { productId := product.id
          sizeId := orNull item.sizeId
          variantId := orNull item.variantId
          quantity := item.quantity
          unitPrice := unitPrice
          totalPrice := (unitPrice + addonsTotal rows) * item.quantity
          orderItemAddons := rows } := by
  unfold lineDraft at h
  simp only [Option.bind_eq_bind, Option.bind_eq_some_iff, Option.pure_def,
    Option.some.injEq] at h
  rcases h with ⟨product, hproduct, _, havailable, unitPrice, hunit, rows, hrows, rfl⟩
  refine ⟨product, unitPrice, rows, hproduct, ?_, hunit, hrows, rfl⟩
  by_contra hno
  simp [guard, hno, failure] at havailable

/-- The amounts of a priced line have two decimals. -/
theorem isFixed_lineDraft {db : Db} {S : Option Id} {userTenantId : Id}
    {item : OrderItemSelectionDto}
    {draft : OrderItemDraft} (h : lineDraft db S userTenantId item = some draft) :
    IsFixed 2 draft.unitPrice ∧ IsFixed 2 draft.totalPrice := by
  rcases lineDraft_eq_some h with ⟨product, unitPrice, rows, _, _, hunit, _, rfl⟩
  have hfixed := isFixed_unitPriceOf hunit
  exact ⟨hfixed, (hfixed.add (isFixed_addonsTotal rows)).mul_nat _⟩

/-- The priced lines, one for each requested line. -/
theorem lineDrafts_forall₂ {db : Db} {S : Option Id} {userTenantId : Id}
    {items : List OrderItemSelectionDto} {drafts : List OrderItemDraft}
    (h : lineDrafts db S userTenantId items = some drafts) :
    List.Forall₂ (fun item draft => lineDraft db S userTenantId item = some draft)
      items drafts := by
  induction items generalizing drafts with
  | nil =>
      cases h
      exact .nil
  | cons item rest ih =>
      simp only [lineDrafts, Option.bind_eq_bind, Option.bind_eq_some_iff, Option.pure_def,
        Option.some.injEq] at h
      rcases h with ⟨draft, hdraft, others, hothers, rfl⟩
      exact .cons hdraft (ih hothers)

theorem isFixed_draftsTotal {db : Db} {S : Option Id} {userTenantId : Id}
    {items : List OrderItemSelectionDto} {drafts : List OrderItemDraft}
    (h : lineDrafts db S userTenantId items = some drafts) :
    IsFixed 2 (draftsTotal drafts) := by
  apply isFixed_sum
  intro x hx
  rcases List.mem_map.mp hx with ⟨draft, hdraft, rfl⟩
  rcases exists_of_mem_right (lineDrafts_forall₂ h) hdraft with ⟨item, _, hitem⟩
  exact (isFixed_lineDraft hitem).2

/-- The amount of an applied discount has two decimals. -/
theorem DiscountApplied.isFixed {env : CheckoutEnv} {userTenantId : Id}
    {dto : CreateOrderRequestDto} {db : Db} {subtotal : ℚ} {discount : ℚ × Option Id}
    (h : DiscountApplied env userTenantId dto db subtotal discount) :
    IsFixed 2 discount.1 := by
  rcases h with ⟨_, rfl⟩ | ⟨_, d, _, _, _, _, _, rfl⟩
  · exact isFixed_zero 2
  · exact isFixed_computeDiscountAmount subtotal d.type d.value.toNumber

/-- An applied discount is between zero and the rounded subtotal. -/
theorem DiscountApplied.bounds {env : CheckoutEnv} {userTenantId : Id}
    {dto : CreateOrderRequestDto} {db : Db} {subtotal : ℚ} {discount : ℚ × Option Id}
    (h : DiscountApplied env userTenantId dto db subtotal discount) (hsubtotal : 0 ≤ subtotal) :
    0 ≤ discount.1 ∧ discount.1 ≤ round2 subtotal := by
  rcases h with ⟨_, rfl⟩ | ⟨_, d, _, _, _, _, _, rfl⟩
  · exact ⟨le_refl 0, roundTo_nonneg 2 hsubtotal⟩
  · exact computeDiscountAmount_bounds hsubtotal d.type d.value.toNumber

/-! ## Stored lines -/

/-- The row of a priced line keeps its choices and amounts. -/
structure StoredAs (draft : OrderItemDraft) (row : OrderItem) : Prop where
  productId : row.productId = draft.productId
  sizeId : row.sizeId = draft.sizeId
  variantId : row.variantId = draft.variantId
  quantity : row.quantity = draft.quantity
  orderItemAddons : row.orderItemAddons = draft.orderItemAddons
  unitPrice : row.unitPrice.toNumber = draft.unitPrice
  totalPrice : row.totalPrice.toNumber = draft.totalPrice

theorem toRow_storedAs {draft : OrderItemDraft} {id tenantId : Id} {row : OrderItem}
    (hunit : IsFixed 2 draft.unitPrice) (htotal : IsFixed 2 draft.totalPrice)
    (h : draft.toRow id tenantId = some row) : StoredAs draft row := by
  unfold OrderItemDraft.toRow at h
  simp only [Option.bind_eq_bind, Option.bind_eq_some_iff, Option.pure_def,
    Option.some.injEq] at h
  rcases h with ⟨unitPrice, hstoredUnit, totalPrice, hstoredTotal, _, _, rfl⟩
  exact {
    productId := rfl
    sizeId := rfl
    variantId := rfl
    quantity := rfl
    orderItemAddons := rfl
    unitPrice := Decimal.ofNumber_toNumber hunit hstoredUnit
    totalPrice := Decimal.ofNumber_toNumber htotal hstoredTotal }

theorem itemRows_storedAs {tenantId : Id} {uuid : ℕ → Id} {i : ℕ}
    {drafts : List OrderItemDraft} {rows : List OrderItem}
    (hfixed : ∀ draft ∈ drafts, IsFixed 2 draft.unitPrice ∧ IsFixed 2 draft.totalPrice)
    (h : itemRows tenantId uuid i drafts = some rows) : List.Forall₂ StoredAs drafts rows := by
  induction drafts generalizing i rows with
  | nil =>
      cases h
      exact .nil
  | cons draft rest ih =>
      simp only [itemRows, Option.bind_eq_bind, Option.bind_eq_some_iff, Option.pure_def,
        Option.some.injEq] at h
      rcases h with ⟨row, hrow, others, hothers, rfl⟩
      rcases hfixed draft List.mem_cons_self with ⟨hunit, htotal⟩
      exact .cons (toRow_storedAs hunit htotal hrow)
        (ih (fun d hd => hfixed d (List.mem_cons_of_mem _ hd)) hothers)

/-- The stored amounts of an order. -/
def storedAmounts (order : Order) : Amounts where
  subtotal := order.subtotal.toNumber
  taxAmount := order.taxAmount.toNumber
  discountAmount := order.discountAmount.toNumber
  total := order.total.toNumber

/-- The stored unit price and total of every line. -/
def storedLines (order : Order) : List (ℚ × ℚ) :=
  order.orderItems.map fun item => (item.unitPrice.toNumber, item.totalPrice.toNumber)

/-- What the columns of an order hold. -/
theorem orderRow_eq_some {env : CheckoutEnv} {userTenantId : Id} {dto : CreateOrderRequestDto}
    {amounts : Amounts} {discountId : Option Id} {drafts : List OrderItemDraft} {row : Order}
    (h : orderRow env userTenantId dto amounts discountId drafts = some row) :
    Decimal.ofNumber 10 2 amounts.subtotal = some row.subtotal ∧
      Decimal.ofNumber 10 2 amounts.taxAmount = some row.taxAmount ∧
      Decimal.ofNumber 10 2 amounts.discountAmount = some row.discountAmount ∧
      Decimal.ofNumber 10 2 amounts.total = some row.total ∧
      itemRows userTenantId env.uuid 0 drafts = some row.orderItems ∧
      row.status = .PENDING ∧ row.discountId = discountId := by
  unfold orderRow at h
  simp only [Option.bind_eq_bind, Option.bind_eq_some_iff, Option.pure_def,
    Option.some.injEq] at h
  rcases h with ⟨_, hsubtotal, _, htax, _, hdiscount, _, htotal, _, hitems, rfl⟩
  exact ⟨hsubtotal, htax, hdiscount, htotal, hitems, rfl, rfl⟩

section Accepted

variable {env : CheckoutEnv} {S : Option Id} {userTenantId : Id} {dto : CreateOrderRequestDto}
  {db : Db}
  {order : Order}

/-- An accepted checkout stores a pending order. -/
theorem Accepted.pending (acc : Accepted env S userTenantId dto db order) :
    order.status = .PENDING :=
  (congrArg Order.status acc.order_eq).trans (orderRow_eq_some acc.row_eq).2.2.2.2.2.1

/-- The lines of an accepted checkout have whole cents. -/
theorem Accepted.isFixed_drafts (acc : Accepted env S userTenantId dto db order) :
    ∀ draft ∈ acc.drafts, IsFixed 2 draft.unitPrice ∧ IsFixed 2 draft.totalPrice := by
  intro draft hdraft
  rcases exists_of_mem_right (lineDrafts_forall₂ acc.drafts_eq) hdraft with ⟨_, _, hitem⟩
  exact isFixed_lineDraft hitem

/-- The stored lines are the priced lines. -/
theorem Accepted.storedAs (acc : Accepted env S userTenantId dto db order) :
    List.Forall₂ StoredAs acc.drafts order.orderItems := by
  have hitems := (orderRow_eq_some acc.row_eq).2.2.2.2.1
  have hsame : order.orderItems = acc.row.orderItems := 
    (congrArg Order.orderItems acc.order_eq).trans rfl
  rw [hsame]
  exact itemRows_storedAs acc.isFixed_drafts hitems

/-- The stored amounts are the amounts computed from the priced lines. -/
theorem Accepted.amounts (acc : Accepted env S userTenantId dto db order) :
    storedAmounts order =
      { subtotal := draftsTotal acc.drafts
        taxAmount := round2 (draftsTotal acc.drafts * (acc.restaurant.taxPercentage.toNumber / 100))
        discountAmount := acc.discount.1
        total := round2 (draftsTotal acc.drafts +
          round2 (draftsTotal acc.drafts * (acc.restaurant.taxPercentage.toNumber / 100)) -
          acc.discount.1) } := by
  rcases orderRow_eq_some acc.row_eq with ⟨hsubtotal, htax, hdiscount, htotal, _, _, _⟩
  have hsame : storedAmounts order = storedAmounts acc.row := 
    (congrArg storedAmounts acc.order_eq).trans rfl
  rw [hsame]
  simp only [storedAmounts, Amounts.mk.injEq]
  exact ⟨Decimal.ofNumber_toNumber (isFixed_draftsTotal acc.drafts_eq) hsubtotal,
    Decimal.ofNumber_toNumber (isFixed_roundTo 2 _) htax,
    Decimal.ofNumber_toNumber acc.discount_eq.isFixed hdiscount,
    Decimal.ofNumber_toNumber (isFixed_roundTo 2 _) htotal⟩

/-- The stored line amounts are those of the priced lines. -/
theorem Accepted.lines (acc : Accepted env S userTenantId dto db order) :
    storedLines order = acc.drafts.map fun draft => (draft.unitPrice, draft.totalPrice) := by
  symm
  apply map_eq_map_of_forall₂ acc.storedAs
  intro draft row hstored
  rw [hstored.unitPrice, hstored.totalPrice]

end Accepted

/-! ## The equations of the amounts -/

/-- The unit price rule: a variant's own price, else the base price adjusted by the
size, else the base price, read from the rows of the line's product. -/
def UnitPriceRule (db : Db) (S : Option Id) (item : OrderItem) : Prop :=
  ∃ product ∈ db.products, product.id = item.productId ∧ visible S product = true ∧
    match item.variantId, item.sizeId with
    | some variantId, _ =>
        ∃ variant ∈ db.productVariants, variant.id = variantId ∧ visible S variant = true ∧
          variant.productId = product.id ∧ item.unitPrice.toNumber = variant.price.toNumber
    | none, some sizeId =>
        ∃ size ∈ db.productSizes, size.id = sizeId ∧ visible S size = true ∧
          size.productId = product.id ∧
          item.unitPrice.toNumber = product.basePrice.toNumber + size.priceAdjustment.toNumber
    | none, none => item.unitPrice.toNumber = product.basePrice.toNumber

/-- A stored line keeps what the request chose. -/
structure LineOf (selection : OrderItemSelectionDto) (item : OrderItem) : Prop where
  productId : item.productId = selection.productId
  sizeId : item.sizeId = orNull selection.sizeId
  variantId : item.variantId = orNull selection.variantId
  quantity : item.quantity = selection.quantity
  addons : item.orderItemAddons.map (·.addonItemId) =
    (selection.addons.getD []).map (·.addonItemId)

/-- The amounts of an order add up, at the restaurant's tax percentage. -/
structure MoneyConserved (db : Db) (S : Option Id) (taxPercentage : ℚ)
    (selections : List OrderItemSelectionDto) (order : Order) : Prop where
  lines : List.Forall₂ LineOf selections order.orderItems
  unitPrice : ∀ item ∈ order.orderItems, UnitPriceRule db S item
  totalPrice : ∀ item ∈ order.orderItems, item.totalPrice.toNumber =
    (item.unitPrice.toNumber + addonsTotal item.orderItemAddons) * item.quantity
  subtotal : order.subtotal.toNumber =
    (order.orderItems.map fun item => item.totalPrice.toNumber).sum
  taxAmount : order.taxAmount.toNumber =
    round2 (order.subtotal.toNumber * (taxPercentage / 100))
  total : order.total.toNumber =
    round2 (order.subtotal.toNumber + order.taxAmount.toNumber - order.discountAmount.toNumber)
  nonneg : (∀ item ∈ order.orderItems, 0 ≤ item.totalPrice.toNumber) →
    0 ≤ order.discountAmount.toNumber ∧
      order.discountAmount.toNumber ≤ round2 order.subtotal.toNumber ∧
      0 ≤ order.total.toNumber

/-- The choices of a line that its price depends on. -/
def choices (item : OrderItemSelectionDto) : Id × Option Id × Option Id × ℕ+ × List Id :=
  (item.productId, item.sizeId, item.variantId, item.quantity,
    (item.addons.getD []).map (·.addonItemId))

section Rules

variable {db : Db} {S : Option Id} {userTenantId : Id}

theorem liveProduct_spec {id : Id} {product : Product}
    (h : liveProduct db S id = some product) :
    product ∈ db.products ∧ product.id = id ∧ visible S product = true := by
  have hmem := List.mem_of_find?_eq_some h
  have hadmits := List.find?_some h
  simp only [Bool.and_eq_true, beq_iff_eq] at hadmits
  exact ⟨hmem, hadmits.1.1.symm, hadmits.1.2⟩

theorem ownVariant_spec {id productId : Id} {variant : ProductVariant}
    (h : ownVariant db S id productId = some variant) :
    variant ∈ db.productVariants ∧ variant.id = id ∧ visible S variant = true ∧
      variant.productId = productId := by
  have hmem := List.mem_of_find?_eq_some h
  have hadmits := List.find?_some h
  simp only [Bool.and_eq_true, beq_iff_eq] at hadmits
  exact ⟨hmem, hadmits.1.1.symm, hadmits.2, hadmits.1.2⟩

theorem ownSize_spec {id productId : Id} {size : ProductSize}
    (h : ownSize db S id productId = some size) :
    size ∈ db.productSizes ∧ size.id = id ∧ visible S size = true ∧ size.productId = productId := by
  have hmem := List.mem_of_find?_eq_some h
  have hadmits := List.find?_some h
  simp only [Bool.and_eq_true, beq_iff_eq] at hadmits
  exact ⟨hmem, hadmits.1.1.symm, hadmits.2, hadmits.1.2⟩

theorem ownAddonItem_spec {id : Id} {item : AddonItem} (h : ownAddonItem db S id = some item) :
    item ∈ db.addonItems ∧ item.id = id ∧ visible S item = true := by
  have hmem := List.mem_of_find?_eq_some h
  have hadmits := List.find?_some h
  simp only [Bool.and_eq_true, beq_iff_eq] at hadmits
  exact ⟨hmem, hadmits.1.symm, hadmits.2⟩

/-- Where the row of an addon selection comes from. -/
theorem addonRow_eq_some {selection : OrderAddonSelectionDto} {row : OrderItemAddon}
    (h : addonRow db S userTenantId selection = some row) :
    ∃ item, ownAddonItem db S selection.addonItemId = some item ∧ item.isAvailable = true ∧
      row = { tenantId := userTenantId, addonItemId := item.id, price := item.price } := by
  unfold addonRow at h
  simp only [Option.bind_eq_bind, Option.bind_eq_some_iff, Option.pure_def,
    Option.some.injEq] at h
  rcases h with ⟨item, hitem, _, havailable, rfl⟩
  refine ⟨item, hitem, ?_, rfl⟩
  by_contra hno
  simp [guard, hno, failure] at havailable

/-- The addon rows of a line, one for each selection. -/
theorem addonRows_forall₂ {selections : List OrderAddonSelectionDto}
    {rows : List OrderItemAddon} (h : addonRows db S userTenantId selections = some rows) :
    List.Forall₂ (fun selection row => addonRow db S userTenantId selection = some row)
      selections rows := by
  induction selections generalizing rows with
  | nil =>
      cases h
      exact .nil
  | cons selection rest ih =>
      simp only [addonRows, Option.bind_eq_bind, Option.bind_eq_some_iff, Option.pure_def,
        Option.some.injEq] at h
      rcases h with ⟨row, hrow, others, hothers, rfl⟩
      exact .cons hrow (ih hothers)

/-- A stored line keeps the choices of the request. -/
theorem lineOf_of_lineDraft {item : OrderItemSelectionDto} {draft : OrderItemDraft}
    {row : OrderItem} (h : lineDraft db S userTenantId item = some draft)
    (hstored : StoredAs draft row) : LineOf item row := by
  rcases lineDraft_eq_some h with ⟨product, unitPrice, rows, hproduct, _, _, hrows, rfl⟩
  rcases liveProduct_spec hproduct with ⟨_, hid, _⟩
  refine ⟨hstored.productId.trans hid, hstored.sizeId, hstored.variantId, hstored.quantity, ?_⟩
  rw [hstored.orderItemAddons]
  symm
  apply map_eq_map_of_forall₂ (addonRows_forall₂ hrows)
  intro selection addon haddon
  rcases addonRow_eq_some haddon with ⟨addonItem, hfound, _, rfl⟩
  exact (ownAddonItem_spec hfound).2.1.symm

/-- The stored unit price follows the rule. -/
theorem unitPriceRule_of_lineDraft {item : OrderItemSelectionDto} {draft : OrderItemDraft}
    {row : OrderItem} (h : lineDraft db S userTenantId item = some draft)
    (hstored : StoredAs draft row) : UnitPriceRule db S row := by
  rcases lineDraft_eq_some h with ⟨product, unitPrice, rows, hproduct, _, hunit, _, rfl⟩
  rcases liveProduct_spec hproduct with ⟨hmem, _, htenant⟩
  have hprice : row.unitPrice.toNumber = unitPrice := hstored.unitPrice
  refine ⟨product, hmem, hstored.productId.symm, htenant, ?_⟩
  rw [hstored.variantId, hstored.sizeId, hprice]
  unfold unitPriceOf at hunit
  cases hv : orNull item.variantId with
  | some variantId =>
      simp only [hv, Option.bind_eq_bind, Option.bind_eq_some_iff, Option.pure_def,
        Option.some.injEq] at hunit
      rcases hunit with ⟨variant, hvariant, _, _, rfl⟩
      rcases ownVariant_spec hvariant with ⟨hin, hid, hown, hof⟩
      exact ⟨variant, hin, hid, hown, hof, rfl⟩
  | none =>
      cases hs : orNull item.sizeId with
      | some sizeId =>
          simp only [hv, hs, Option.bind_eq_bind, Option.bind_eq_some_iff, Option.pure_def,
            Option.some.injEq] at hunit
          rcases hunit with ⟨size, hsize, rfl⟩
          rcases ownSize_spec hsize with ⟨hin, hid, hown, hof⟩
          exact ⟨size, hin, hid, hown, hof, rfl⟩
      | none =>
          simp only [hv, hs, Option.pure_def, Option.some.injEq] at hunit
          exact hunit.symm

/-- The stored total of a line, from its stored unit price and addon prices. -/
theorem totalPrice_of_lineDraft {item : OrderItemSelectionDto} {draft : OrderItemDraft}
    {row : OrderItem} (h : lineDraft db S userTenantId item = some draft)
    (hstored : StoredAs draft row) :
    row.totalPrice.toNumber =
      (row.unitPrice.toNumber + addonsTotal row.orderItemAddons) * row.quantity := by
  rcases lineDraft_eq_some h with ⟨product, unitPrice, rows, _, _, _, _, rfl⟩
  rw [hstored.totalPrice, hstored.unitPrice, hstored.orderItemAddons, hstored.quantity]

/-- Lines with the same choices are priced the same. -/
theorem lineDraft_congr {item other : OrderItemSelectionDto} (h : choices item = choices other) :
    lineDraft db S userTenantId item = lineDraft db S userTenantId other := by
  have haddons : ∀ xs ys : List OrderAddonSelectionDto,
      xs.map (·.addonItemId) = ys.map (·.addonItemId) → xs = ys := by
    intro xs ys hids
    have hinj : Function.Injective OrderAddonSelectionDto.addonItemId := by
      rintro ⟨a⟩ ⟨b⟩ rfl
      rfl
    exact (List.map_injective_iff.mpr hinj) hids
  simp only [choices, Prod.mk.injEq] at h
  rcases h with ⟨hproduct, hsize, hvariant, hquantity, hids⟩
  unfold lineDraft unitPriceOf
  rw [hproduct, hsize, hvariant, hquantity, haddons _ _ hids]

theorem lineDrafts_congr {items others : List OrderItemSelectionDto}
    (h : items.map choices = others.map choices) :
    lineDrafts db S userTenantId items = lineDrafts db S userTenantId others := by
  induction items generalizing others with
  | nil =>
      have hnil : others = [] := by simpa using h.symm
      rw [hnil]
  | cons item rest ih =>
      rcases List.map_eq_cons_iff.mp h.symm with ⟨other, others', rfl, hhead, htail⟩
      unfold lineDrafts
      rw [lineDraft_congr hhead.symm, ih htail.symm]

end Rules

/-! ## The checkout -/

section Checkout

variable {env : CheckoutEnv} {S : Option Id} {userTenantId : Id} {dto : CreateOrderRequestDto}
  {db : Db}
  {order : Order}

/-- The amounts that an accepted checkout stores add up. -/
theorem Accepted.moneyConserved (acc : Accepted env S userTenantId dto db order)
    (htax : 0 ≤ acc.restaurant.taxPercentage.toNumber) :
    MoneyConserved db S acc.restaurant.taxPercentage.toNumber dto.items order := by
  have hlines := lineDrafts_forall₂ acc.drafts_eq
  have hstored := acc.storedAs
  have hamounts := acc.amounts
  simp only [storedAmounts, Amounts.mk.injEq] at hamounts
  rcases hamounts with ⟨hsubtotal, htaxAmount, hdiscount, htotal⟩
  have hrow : ∀ item ∈ order.orderItems, ∃ selection draft,
      lineDraft db S userTenantId selection = some draft ∧ StoredAs draft item := by
    intro item hitem
    rcases exists_of_mem_right hstored hitem with ⟨draft, hdraft, hkept⟩
    rcases exists_of_mem_right hlines hdraft with ⟨selection, _, hpriced⟩
    exact ⟨selection, draft, hpriced, hkept⟩
  have hsum : draftsTotal acc.drafts =
      (order.orderItems.map fun item => item.totalPrice.toNumber).sum := by
    unfold draftsTotal
    rw [map_eq_map_of_forall₂ hstored fun draft item hkept => hkept.totalPrice.symm]
  have hround : round2 (draftsTotal acc.drafts) = draftsTotal acc.drafts :=
    roundTo_of_isFixed (isFixed_draftsTotal acc.drafts_eq)
  refine ⟨?_, ?_, ?_, ?_, ?_, ?_, ?_⟩
  · exact forall₂_trans hlines hstored fun _ _ _ hpriced hkept =>
      lineOf_of_lineDraft hpriced hkept
  · intro item hitem
    rcases hrow item hitem with ⟨_, _, hpriced, hkept⟩
    exact unitPriceRule_of_lineDraft hpriced hkept
  · intro item hitem
    rcases hrow item hitem with ⟨_, _, hpriced, hkept⟩
    exact totalPrice_of_lineDraft hpriced hkept
  · rw [hsubtotal, hsum]
  · rw [htaxAmount, hsubtotal]
  · rw [htotal, hsubtotal, htaxAmount, hdiscount]
  · intro hnonneg
    have hsubtotalNonneg : 0 ≤ draftsTotal acc.drafts := by
      rw [hsum]
      apply List.sum_nonneg
      intro x hx
      rcases List.mem_map.mp hx with ⟨item, hitem, rfl⟩
      exact hnonneg item hitem
    rcases acc.discount_eq.bounds hsubtotalNonneg with ⟨hlow, hhigh⟩
    have htaxNonneg : 0 ≤ round2 (draftsTotal acc.drafts *
        (acc.restaurant.taxPercentage.toNumber / 100)) :=
      roundTo_nonneg 2 (mul_nonneg hsubtotalNonneg (div_nonneg htax (by norm_num)))
    rw [hdiscount, hsubtotal, htotal]
    refine ⟨hlow, hhigh, roundTo_nonneg 2 ?_⟩
    rw [hround] at hhigh
    linarith

/-- Requests with the same choices, branch and discount code have the same amounts. -/
theorem Accepted.same_amounts {env' : CheckoutEnv} {dto' : CreateOrderRequestDto} {order' : Order}
    (acc : Accepted env S userTenantId dto db order)
    (acc' : Accepted env' S userTenantId dto' db order')
    (hupper : env'.toUpperCase = env.toUpperCase) (hbranch : dto'.branchId = dto.branchId)
    (hcode : dto'.discountCode = dto.discountCode)
    (hitems : dto'.items.map choices = dto.items.map choices) :
    storedAmounts order' = storedAmounts order ∧ storedLines order' = storedLines order := by
  have hdrafts : acc'.drafts = acc.drafts := by
    have h := acc'.drafts_eq
    rw [lineDrafts_congr hitems, acc.drafts_eq] at h
    exact (Option.some.inj h).symm
  have hrestaurant : acc'.restaurant = acc.restaurant := by
    have hfound := acc'.branch_eq
    rw [hbranch, acc.branch_eq] at hfound
    have h := acc'.restaurant_eq
    rw [← Option.some.inj hfound, acc.restaurant_eq] at h
    exact (Option.some.inj h).symm
  have hdiscount : acc'.discount = acc.discount := by
    have hsame : discountCodeOf env' dto' = discountCodeOf env dto := by
      unfold discountCodeOf
      rw [hcode, hupper]
    have h := acc'.discount_eq
    have h₀ := acc.discount_eq
    unfold DiscountApplied at h h₀
    rw [hsame, hdrafts] at h
    rcases h with ⟨hnone, heq⟩ | ⟨code, d, hsome, hrow, _, _, _, heq⟩
    · rcases h₀ with ⟨_, heq₀⟩ | ⟨code₀, _, hsome₀, _⟩
      · rw [heq, heq₀]
      · rw [hnone] at hsome₀
        cases hsome₀
    · rcases h₀ with ⟨hnone₀, _⟩ | ⟨code₀, d₀, hsome₀, hrow₀, _, _, _, heq₀⟩
      · rw [hnone₀] at hsome
        cases hsome
      · rw [hsome] at hsome₀
        cases hsome₀
        rw [hrow] at hrow₀
        cases hrow₀
        rw [heq, heq₀]
  rw [acc'.amounts, acc.amounts, acc'.lines, acc.lines, hdrafts, hrestaurant, hdiscount]
  exact ⟨rfl, rfl⟩

end Checkout

/-- Checkout totals conserve money: the order that an accepted checkout stores follows
the price rule line by line and adds up, nothing in it is negative unless a line is, and
its amounts depend on the choices, the branch and the discount code of the request
only. -/
theorem createOrder_conserves_money (env : CheckoutEnv) (S : Option Id) (userTenantId : Id)
    (dto : CreateOrderRequestDto) (w w' : World) (order : Order)
    (hctx : env.context.Sees S)
    (htax : ∀ restaurant ∈ w.db.restaurants, 0 ≤ restaurant.taxPercentage.toNumber)
    (h : createOrder env dto userTenantId w = (.ok order, w')) :
    order ∈ w'.db.orders ∧
      (∃ branch restaurant, liveBranch w.db S dto.branchId = some branch ∧
        liveRestaurant w.db S branch.restaurantId = some restaurant ∧
        MoneyConserved w.db S restaurant.taxPercentage.toNumber dto.items order) ∧
      ∀ (env' : CheckoutEnv) (dto' : CreateOrderRequestDto) (order' : Order) (w'' : World),
        env'.context.Sees S → env'.toUpperCase = env.toUpperCase →
        dto'.branchId = dto.branchId → dto'.discountCode = dto.discountCode →
        dto'.items.map choices = dto.items.map choices →
        createOrder env' dto' userTenantId w = (.ok order', w'') →
        storedAmounts order' = storedAmounts order ∧ storedLines order' = storedLines order := by
  rcases createOrder_ok hctx h with ⟨acc, queue, _, hdb⟩
  refine ⟨?_, ⟨acc.branch, acc.restaurant, acc.branch_eq, acc.restaurant_eq, ?_⟩, ?_⟩
  · rw [hdb]
    simp
  · exact acc.moneyConserved (htax _ (List.mem_of_find?_eq_some acc.restaurant_eq))
  · intro env' dto' order' w'' hctx' hupper hbranch hcode hitems h'
    rcases createOrder_ok hctx' h' with ⟨acc', _, _⟩
    exact acc.same_amounts acc' hupper hbranch hcode hitems

/-! ## A checkout of two lines -/

/-- A menu of one product with a size, a variant and an addon, and a discount code. -/
def soupMenu : Db where
  restaurants := [{
    id := "restaurant-1", tenantId := "tenant-a", name := "Soups", currency := "EGP"
    taxPercentage := ⟨1000, by decide⟩ }]
  branches := [{
    id := "branch-1", tenantId := "tenant-a", restaurantId := "restaurant-1", name := "Main" }]
  products := [{
    id := "soup", tenantId := "tenant-a", categoryId := "category-1", name := "Soup"
    basePrice := ⟨500, by decide⟩, isAvailable := true }]
  productSizes := [{
    id := "large", tenantId := "tenant-a", productId := "soup", name := "Large"
    priceAdjustment := ⟨150, by decide⟩ }]
  productVariants := [{
    id := "spicy", tenantId := "tenant-a", productId := "soup", name := "Spicy"
    price := ⟨700, by decide⟩, stockQuantity := 1 }]
  productAddons := [{
    id := "extras", tenantId := "tenant-a", productId := "soup", name := "Extras"
    minSelections := 1, maxSelections := 1 }]
  addonItems := [{
    id := "bread", tenantId := "tenant-a", addonGroupId := "extras", name := "Bread"
    price := ⟨50, by decide⟩, isAvailable := true }]
  discounts := [{
    id := "discount-1", tenantId := "tenant-a", code := "TEN", type := .PERCENTAGE
    value := ⟨1000, by decide⟩, active := true, validFrom := none, validTo := none
    usageLimit := some 1, usageCount := 0 }]

/-- A guest of tenant {lit}`tenant-a`. -/
def guestEnv : CheckoutEnv where
  context := { tenantId := some "tenant-a", isPlatformOwner := false }
  uuid i := if i = 0 then "order-1" else "item-" ++ toString i
  now := 0
  year := 2026
  digits := 1000
  queueUuid := "ticket-1"

theorem guestEnv_holds : guestEnv.context.Sees (some "tenant-a") :=
  ⟨rfl, by decide⟩

/-- Two spicy soups with bread and one large soup, with the discount code. -/
def soupRequest : CreateOrderRequestDto where
  branchId := "branch-1"
  type := .DINE_IN
  items := [
    { productId := "soup", variantId := some "spicy", quantity := 2, addons := some [⟨"bread"⟩] },
    { productId := "soup", sizeId := some "large", quantity := 1 }]
  paymentMethod := .CASH
  discountCode := some "TEN"

theorem soupRequest_conserves_money :
    ∃ order w', createOrder guestEnv soupRequest "tenant-a" { db := soupMenu } = (.ok order, w') ∧
      order ∈ w'.db.orders ∧ order.total.units = 2150 ∧
      (∃ restaurant ∈ soupMenu.restaurants, MoneyConserved soupMenu (some "tenant-a")
        restaurant.taxPercentage.toNumber soupRequest.items order) := by
  have hok : (createOrder guestEnv soupRequest "tenant-a" { db := soupMenu }).1.toOption.any
      (fun order => order.total.units == 2150) = true := by decide +kernel
  rcases Fallible.returned_of_any hok with ⟨order, w', hrun, htotal⟩
  have htax : ∀ restaurant ∈ soupMenu.restaurants,
      0 ≤ restaurant.taxPercentage.toNumber := by decide +kernel
  rcases createOrder_conserves_money guestEnv (some "tenant-a") "tenant-a" soupRequest
    { db := soupMenu } w' order guestEnv_holds htax hrun with
    ⟨hstored, ⟨branch, restaurant, _, hfound, hmoney⟩, _⟩
  exact ⟨order, w', hrun, hstored, by simpa using htotal, restaurant,
    List.mem_of_find?_eq_some hfound, hmoney⟩

end OrderService
end Eleva
