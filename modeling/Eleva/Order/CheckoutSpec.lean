import Eleva.Order.Checkout

/-!
# Order - What a checkout does

The lookups of a checkout as functions of the database, the lines it prices as one
partial function, and the state an accepted checkout leaves.

Main results:

- Theorem {lit}`priceItems_ok`: pricing the lines changes nothing and computes
  {lit}`lineDrafts`.
- Theorem {lit}`createOrder_parts`: the statements of an accepted checkout.
- Theorem {lit}`createOrder_ok`: what an accepted checkout has stored.
-/

namespace Eleva
namespace OrderService

open Foundation Database DiscountService

/-! ## The rows that the lookups find -/

section Lookups

variable (db : Db) (S : Option Id)

/-- The live branch in scope with the id. -/
def liveBranch (id : Id) : Option Branch :=
  db.branches.find? fun r => id == r.id && visible S r && r.deletedAt.isNone

/-- The live restaurant in scope with the id. -/
def liveRestaurant (id : Id) : Option Restaurant :=
  db.restaurants.find? fun r => id == r.id && visible S r && r.deletedAt.isNone

/-- The live table in scope with the id. -/
def liveTable (id : Id) : Option Table :=
  db.tables.find? fun r => id == r.id && visible S r && r.deletedAt.isNone

/-- The live product in scope with the id. -/
def liveProduct (id : Id) : Option Product :=
  db.products.find? fun r => id == r.id && visible S r && r.deletedAt.isNone

/-- The variant of the product in scope with the id. -/
def ownVariant (id productId : Id) : Option ProductVariant :=
  db.productVariants.find? fun r => id == r.id && r.productId == productId && visible S r

/-- The size of the product in scope with the id. -/
def ownSize (id productId : Id) : Option ProductSize :=
  db.productSizes.find? fun r => id == r.id && r.productId == productId && visible S r

/-- The addon item in scope with the id. -/
def ownAddonItem (id : Id) : Option AddonItem :=
  db.addonItems.find? fun r => id == r.id && visible S r

end Lookups

section Runs

variable {env : CheckoutEnv} {S : Option Id} (hctx : env.context.Sees S) (w : World)
include hctx

theorem run_findBranch (id : Id) :
    branches.run (branchRepository.findById env.toEnv id) w = (.ok (liveBranch w.db S id), w) := by
  have hm : branchRepository.delegate.model ∉ unscopedModels := by decide
  exact TableOf.run_findById hctx hm rfl rfl id w

theorem run_findRestaurant (id : Id) :
    restaurants.run (restaurantRepository.findById env.toEnv id) w =
      (.ok (liveRestaurant w.db S id), w) := by
  have hm : restaurantRepository.delegate.model ∉ unscopedModels := by decide
  exact TableOf.run_findById hctx hm rfl rfl id w

theorem run_findTable (id : Id) :
    tables.run (tableRepository.findById env.toEnv id) w = (.ok (liveTable w.db S id), w) := by
  have hm : tableRepository.delegate.model ∉ unscopedModels := by decide
  exact TableOf.run_findById hctx hm rfl rfl id w

theorem run_findProduct (id : Id) :
    products.run (productRepository.findById env.toEnv id) w =
      (.ok (liveProduct w.db S id), w) := by
  have hm : productRepository.delegate.model ∉ unscopedModels := by decide
  exact TableOf.run_findById hctx hm rfl rfl id w

theorem run_findAddonItem (id : Id) :
    ∃ found, addonItems.run (addonItemRepository.findMany env.toEnv { id := some id } {}) w =
        (.ok found, w) ∧ found.head? = ownAddonItem w.db S id := by
  have hm : addonItemRepository.delegate.model ∉ unscopedModels := by decide
  have hadmits : (({ id := some id } : Where AddonItem).inScope S).admits
      addonItemRepository.delegate = fun r => id == r.id && visible S r := by
    funext r
    rw [Where.admits_inScope _ _ rfl]
    simp [addonItemRepository, prisma.addonItem, Where.admits, ColumnKey.admits, TenantRow.id]
  unfold ownAddonItem
  rw [← hadmits]
  exact TableOf.run_findMany_head hctx hm rfl rfl w

theorem run_findSizes (id productId : Id) :
    ∃ found, findSizes env id productId w = (.ok found, w) ∧
      found.head? = ownSize w.db S id productId := by
  have hm : sizeRepository.delegate.model ∉ unscopedModels := by decide
  have hadmits : (({ id := some id, rest := fun s => s.productId == productId } :
      Where ProductSize).inScope S).admits sizeRepository.delegate =
        fun r => id == r.id && r.productId == productId && visible S r := by
    funext r
    rw [Where.admits_inScope _ _ rfl]
    simp [sizeRepository, prisma.productSize, Where.admits, ColumnKey.admits, TenantRow.id]
  unfold ownSize findSizes
  rw [← hadmits]
  exact TableOf.run_findMany_head hctx hm rfl rfl w

theorem run_findVariant (id productId : Id) :
    findVariant env id productId w = (.ok (ownVariant w.db S id productId), w) := by
  have hm : prisma.productVariant.model ∉ unscopedModels := by decide
  have hadmits : (({ id := some id, rest := fun v => v.productId == productId } :
      Where ProductVariant).inScope S).admits prisma.productVariant =
        fun r => id == r.id && r.productId == productId && visible S r := by
    funext r
    rw [Where.admits_inScope _ _ rfl]
    simp [prisma.productVariant, Where.admits, ColumnKey.admits, TenantRow.id]
  unfold ownVariant findVariant
  rw [← hadmits]
  exact TableOf.run_client_findFirst hctx hm rfl w

end Runs

/-! ## Pricing the lines -/

section Pricing

variable (db : Db) (S : Option Id) (userTenantId : Id)

/-- The unit price of a line for a product. -/
def unitPriceOf (item : OrderItemSelectionDto) (product : Product) : Option ℚ :=
  match orNull item.variantId with
  | some variantId => do
      let variant ← ownVariant db S variantId product.id
      guard (0 < variant.stockQuantity)
      return variant.price.toNumber
  | none =>
      match orNull item.sizeId with
      | some sizeId => do
          let size ← ownSize db S sizeId product.id
          return product.basePrice.toNumber + size.priceAdjustment.toNumber
      | none => return product.basePrice.toNumber

/-- The addon row of a selection. -/
def addonRow (addonSelection : OrderAddonSelectionDto) : Option OrderItemAddon := do
  let addonItem ← ownAddonItem db S addonSelection.addonItemId
  guard (addonItem.isAvailable = true)
  return { tenantId := userTenantId, addonItemId := addonItem.id, price := addonItem.price }

/-- The addon rows of a line. -/
def addonRows : List OrderAddonSelectionDto → Option (List OrderItemAddon)
  | [] => some []
  | addonSelection :: rest => do
      let row ← addonRow db S userTenantId addonSelection
      let rows ← addonRows rest
      return row :: rows

/-- The sum of the prices of addon rows. -/
def addonsTotal (rows : List OrderItemAddon) : ℚ :=
  (rows.map fun a => a.price.toNumber).sum

/-- A priced line. -/
def lineDraft (item : OrderItemSelectionDto) : Option OrderItemDraft := do
  let product ← liveProduct db S item.productId
  guard (product.isAvailable = true)
  let unitPrice ← unitPriceOf db S item product
  let rows ← addonRows db S userTenantId (item.addons.getD [])
  return {
    productId := product.id
    sizeId := orNull item.sizeId
    variantId := orNull item.variantId
    quantity := item.quantity
    unitPrice := unitPrice
    totalPrice := (unitPrice + addonsTotal rows) * item.quantity
    orderItemAddons := rows }

/-- The priced lines. -/
def lineDrafts : List OrderItemSelectionDto → Option (List OrderItemDraft)
  | [] => some []
  | item :: rest => do
      let draft ← lineDraft db S userTenantId item
      let drafts ← lineDrafts rest
      return draft :: drafts

/-- The sum of the totals of priced lines. -/
def draftsTotal (drafts : List OrderItemDraft) : ℚ :=
  (drafts.map fun d => d.totalPrice).sum

end Pricing

section PricingRuns

variable {env : CheckoutEnv} {S : Option Id} {userTenantId : Id} (hctx : env.context.Sees S)
  {w w' : World}
include hctx

theorem resolveUnitPrice_ok {i : ℕ} {item : OrderItemSelectionDto} {product : Product} {p : ℚ}
    (h : resolveUnitPrice env i item product w = (.ok p, w')) :
    w' = w ∧ unitPriceOf w.db S item product = some p := by
  unfold resolveUnitPrice at h
  unfold unitPriceOf
  cases hv : orNull item.variantId with
  | some variantId =>
      simp only [hv] at h ⊢
      rcases Fallible.bind_eq_ok.mp h with ⟨variant, s, hfind, hrest⟩
      have hrun := (attempt_eq_ok.mp hfind).2
      rw [run_findVariant hctx] at hrun
      cases hrun
      cases hrow : ownVariant w.db S variantId product.id with
      | none =>
          rw [hrow] at hrest
          cases hrest
      | some variant =>
          rw [hrow] at hrest
          rcases Fallible.bind_eq_ok.mp hrest with ⟨_, s', hstock, hpure⟩
          rcases Fallible.throwIf_eq_ok.mp hstock with ⟨hin, rfl⟩
          cases hpure
          have hpos : 0 < variant.stockQuantity := by simpa using hin
          simp [hpos]
  | none =>
      simp only [hv] at h ⊢
      cases hs : orNull item.sizeId with
      | some sizeId =>
          simp only [hs] at h ⊢
          rcases Fallible.bind_eq_ok.mp h with ⟨size, s, hfind, hrest⟩
          have hrun := (attempt_eq_ok.mp hfind).2
          rcases run_findSizes hctx w sizeId product.id with ⟨found, hfound, hhead⟩
          rw [hfound] at hrun
          cases hrun
          rw [← hhead]
          cases hrow : size.head? with
          | none =>
              rw [hrow] at hrest
              cases hrest
          | some row =>
              rw [hrow] at hrest
              cases hrest
              simp
      | none =>
          simp only [hs] at h ⊢
          cases h
          simp

/-- The loop over addon selections only reads, and adds the rows of the selections to
those it was given. -/
theorem resolveAddons_ok {i j : ℕ} {selections : List OrderAddonSelectionDto} {total : ℚ}
    {created : List OrderItemAddon} {result : ℚ × List OrderItemAddon}
    (h : resolveAddons env userTenantId i j selections total created w = (.ok result, w')) :
    w' = w ∧ ∃ rows, addonRows w.db S userTenantId selections = some rows ∧
      result = (total + addonsTotal rows, created ++ rows) := by
  induction selections generalizing j total created with
  | nil =>
      cases h
      exact ⟨rfl, [], rfl, by simp [addonsTotal]⟩
  | cons addonSelection rest ih =>
      rcases Fallible.bind_eq_ok.mp h with ⟨addonItem, s, hfind, hrest⟩
      have hrun := (attempt_eq_ok.mp hfind).2
      rcases run_findAddonItem hctx w addonSelection.addonItemId with ⟨found, hfound, hhead⟩
      rw [hfound] at hrun
      cases hrun
      cases hrow : addonItem.head? with
      | none =>
          rw [hrow] at hrest
          cases hrest
      | some row =>
          rw [hrow] at hrest
          rcases Fallible.bind_eq_ok.mp hrest with ⟨_, s', havailable, hloop⟩
          rcases Fallible.throwIf_eq_ok.mp havailable with ⟨havail, rfl⟩
          rcases ih hloop with ⟨rfl, rows, hrows, rfl⟩
          have havail' : row.isAvailable = true := by simpa using havail
          refine ⟨rfl, { tenantId := userTenantId, addonItemId := row.id, price := row.price } ::
            rows, ?_, ?_⟩
          · simp [addonRows, addonRow, ← hhead, hrow, havail', hrows]
          · simp [addonsTotal, add_assoc]

theorem priceItem_ok {i : ℕ} {item : OrderItemSelectionDto} {draft : OrderItemDraft}
    (h : priceItem env userTenantId i item w = (.ok draft, w')) :
    w' = w ∧ lineDraft w.db S userTenantId item = some draft := by
  rcases Fallible.bind_eq_ok.mp h with ⟨product, s, hfind, hrest⟩
  have hrun := (attempt_eq_ok.mp hfind).2
  rw [run_findProduct hctx] at hrun
  cases hrun
  cases hrow : liveProduct w.db S item.productId with
  | none =>
      rw [hrow] at hrest
      cases hrest
  | some product =>
      rw [hrow] at hrest
      rcases Fallible.bind_eq_ok.mp hrest with ⟨_, s₁, havailable, hprice⟩
      rcases Fallible.throwIf_eq_ok.mp havailable with ⟨havail, rfl⟩
      rcases Fallible.bind_eq_ok.mp hprice with ⟨unitPrice, s₂, hunit, haddons⟩
      rcases resolveUnitPrice_ok hctx hunit with ⟨rfl, hunitPrice⟩
      rcases Fallible.bind_eq_ok.mp haddons with ⟨addons, s₃, hloop, hpure⟩
      rcases resolveAddons_ok hctx hloop with ⟨rfl, rows, hrows, rfl⟩
      cases hpure
      have havail' : product.isAvailable = true := by simpa using havail
      refine ⟨rfl, ?_⟩
      simp [lineDraft, hrow, havail', hunitPrice, hrows]

/-- Pricing the lines only reads, and computes the drafts and their total. -/
theorem priceItems_ok {i : ℕ} {items : List OrderItemSelectionDto} {subtotal : ℚ}
    {created : List OrderItemDraft} {result : ℚ × List OrderItemDraft}
    (h : priceItems env userTenantId i items subtotal created w = (.ok result, w')) :
    w' = w ∧ ∃ drafts, lineDrafts w.db S userTenantId items = some drafts ∧
      result = (subtotal + draftsTotal drafts, created ++ drafts) := by
  induction items generalizing i subtotal created with
  | nil =>
      cases h
      exact ⟨rfl, [], rfl, by simp [draftsTotal]⟩
  | cons item rest ih =>
      rcases Fallible.bind_eq_ok.mp h with ⟨draft, s, hprice, hloop⟩
      rcases priceItem_ok hctx hprice with ⟨rfl, hdraft⟩
      rcases ih hloop with ⟨rfl, drafts, hdrafts, rfl⟩
      refine ⟨rfl, draft :: drafts, ?_, ?_⟩
      · simp [lineDrafts, hdraft, hdrafts]
      · simp [draftsTotal, add_assoc]

omit w w'

/-- Pricing changes nothing, also when it throws. -/
theorem resolveUnitPrice_keeps (I : World → Prop) (i : ℕ) (item : OrderItemSelectionDto)
    (product : Product) : Fallible.Keeps I (resolveUnitPrice env i item product) := by
  unfold resolveUnitPrice
  cases orNull item.variantId with
  | some variantId =>
      refine Fallible.Keeps.bind (attempt_keeps _ (Fallible.Keeps.of_unchanged fun s => ?_))
        fun variant => ?_
      · rw [run_findVariant hctx]
      · cases variant with
        | none => exact Fallible.Keeps.throw _
        | some variant =>
            exact Fallible.Keeps.bind (Fallible.Keeps.throwIf _ _) fun _ => Fallible.Keeps.pure _
  | none =>
      cases orNull item.sizeId with
      | none => exact Fallible.Keeps.pure _
      | some sizeId =>
          refine Fallible.Keeps.bind (attempt_keeps _ (Fallible.Keeps.of_unchanged fun s => ?_))
            fun size => ?_
          · rcases run_findSizes hctx s sizeId product.id with ⟨found, hfound, _⟩
            rw [hfound]
          · cases hhead : size.head? with
            | none =>
                simp only
                exact Fallible.Keeps.throw _
            | some row =>
                simp only
                exact Fallible.Keeps.pure _

theorem resolveAddons_keeps (I : World → Prop) (i j : ℕ)
    (selections : List OrderAddonSelectionDto) (total : ℚ) (created : List OrderItemAddon) :
    Fallible.Keeps I (resolveAddons env userTenantId i j selections total created) := by
  induction selections generalizing j total created with
  | nil => exact Fallible.Keeps.pure _
  | cons addonSelection rest ih =>
      refine Fallible.Keeps.bind (attempt_keeps _ (Fallible.Keeps.of_unchanged fun s => ?_))
        fun addonItem => ?_
      · rcases run_findAddonItem hctx s addonSelection.addonItemId with ⟨found, hfound, _⟩
        rw [hfound]
      · cases hhead : addonItem.head? with
        | none =>
            simp only
            exact Fallible.Keeps.throw _
        | some row =>
            simp only
            exact Fallible.Keeps.bind (Fallible.Keeps.throwIf _ _) fun _ => ih _ _ _

theorem priceItem_keeps (I : World → Prop) (i : ℕ) (item : OrderItemSelectionDto) :
    Fallible.Keeps I (priceItem env userTenantId i item) := by
  refine Fallible.Keeps.bind (attempt_keeps _ (Fallible.Keeps.of_unchanged fun s => ?_))
    fun product => ?_
  · rw [run_findProduct hctx]
  · cases product with
    | none => exact Fallible.Keeps.throw _
    | some product =>
        refine Fallible.Keeps.bind (Fallible.Keeps.throwIf _ _) fun _ => ?_
        refine Fallible.Keeps.bind (resolveUnitPrice_keeps hctx I i item product) fun _ => ?_
        exact Fallible.Keeps.bind (resolveAddons_keeps hctx I i 0 _ _ _) fun _ =>
          Fallible.Keeps.pure _

theorem priceItems_keeps (I : World → Prop) (i : ℕ) (items : List OrderItemSelectionDto)
    (subtotal : ℚ) (created : List OrderItemDraft) :
    Fallible.Keeps I (priceItems env userTenantId i items subtotal created) := by
  induction items generalizing i subtotal created with
  | nil => exact Fallible.Keeps.pure _
  | cons item rest ih =>
      exact Fallible.Keeps.bind (priceItem_keeps hctx I i item) fun _ => ih _ _ _

end PricingRuns

/-! ## The transaction -/

/-- The discount row of a tenant's code. -/
def discountOf (db : Db) (tenantId : Id) (code : String) : Option Discount :=
  db.discounts.find? fun d => d.tenantId == tenantId && d.code == code

/-- The discounts after one more use of {lit}`id` by the tenants in scope. -/
def countUse (S : Option Id) (id : Id) (discounts : List Discount) : List Discount :=
  discounts.map fun d =>
    if id == d.id && visible S d then { d with usageCount := d.usageCount + 1 } else d

/-- The discounts after an order that uses {lit}`discountId`, if any. -/
def discountsAfter (S : Option Id) (discountId : Option Id) (discounts : List Discount) :
    List Discount :=
  match discountId with
  | none => discounts
  | some id => countUse S id discounts

/-- The amount and id that the discount of a request resolves to. -/
def DiscountApplied (env : CheckoutEnv) (userTenantId : Id) (dto : CreateOrderRequestDto)
    (db : Db) (subtotal : ℚ) (discount : ℚ × Option Id) : Prop :=
  (orNull (discountCodeOf env dto) = none ∧ discount = (0, none)) ∨
  ∃ code d, orNull (discountCodeOf env dto) = some code ∧
    discountOf db userTenantId code = some d ∧
    inForce d env.now = true ∧ usageLeft d = true ∧
    0 < computeDiscountAmount subtotal d.type d.value.toNumber ∧
    discount = (computeDiscountAmount subtotal d.type d.value.toNumber, some d.id)

/-- The rows that the usage update leaves. -/
theorem map_update_eq_countUse (S : Option Id) (id : Id) (rows : List Discount) :
    (rows.map fun r =>
      if (({ id := some id } : Where Discount).inScope S).admits prisma.discount r then
        ({ assign := fun d => { d with usageCount := d.usageCount + 1 } } :
          Payload Discount).apply r
      else r) = countUse S id rows := by
  unfold countUse
  apply List.map_congr_left
  intro r _
  rw [Where.admits_inScope _ _ rfl]
  simp [prisma.discount, Where.admits, ColumnKey.admits, TenantRow.id, Payload.apply]

section Transaction

variable {env : CheckoutEnv} {S : Option Id} {userTenantId : Id} {dto : CreateOrderRequestDto}
  (hctx : env.context.Sees S) {w w' : World}

include hctx

/-- What the discount of a request resolves to, read and validated. -/
theorem resolveDiscount_ok {subtotal : ℚ} {resolved : Option ResolvedDiscount}
    (h : resolveDiscount env userTenantId dto subtotal w = (.ok resolved, w')) :
    w' = w ∧ ((orNull (discountCodeOf env dto) = none ∧ resolved = none) ∨
      ∃ code d, orNull (discountCodeOf env dto) = some code ∧
        discountOf w.db userTenantId code = some d ∧
        inForce d env.now = true ∧ usageLeft d = true ∧
        0 < computeDiscountAmount subtotal d.type d.value.toNumber ∧
        resolved = some ⟨d.id, code,
          computeDiscountAmount subtotal d.type d.value.toNumber⟩) := by
  unfold resolveDiscount at h
  cases hcode : orNull (discountCodeOf env dto) with
  | none =>
      rw [hcode] at h
      cases h
      exact ⟨rfl, Or.inl ⟨rfl, rfl⟩⟩
  | some code =>
      rw [hcode] at h
      rcases Fallible.bind_eq_ok.mp h with ⟨discount, s, hfind, hrest⟩
      have hm : prisma.discount.model ∉ unscopedModels := by decide
      have hrun := (attempt_eq_ok.mp hfind).2
      have hadmits :
          ({ tenantId := .filter (fun t => t == some userTenantId)
             rest := fun d => d.code == code } : Where Discount).admits prisma.discount =
            fun d => d.tenantId == userTenantId && d.code == code := by
        funext d
        simp [prisma.discount, Where.admits, ColumnKey.admits, TenantRow.tenantId]
      rw [TableOf.run_delegate_findUnique hctx hm rfl, hadmits] at hrun
      cases hrun
      rcases Fallible.bind_eq_ok.mp hrest with ⟨resolved, s₁, hvalidate, hpure⟩
      rcases Fallible.reads_eq_ok.mp hvalidate with ⟨hok, rfl⟩
      rcases validateDiscount_eq_ok.mp hok with ⟨d, hd, hforce, hleft, hpos, rfl⟩
      cases hpure
      exact ⟨rfl, Or.inr ⟨code, d, rfl, hd, hforce, hleft, hpos, rfl⟩⟩

/-- What counting a use has done. -/
theorem incrementUsage_ok {id : Id} {row : Option Discount}
    (h : incrementUsage env id w = (.ok row, w')) :
    ∃ d ∈ w.db.discounts, d.id = id ∧ visible S d = true ∧
      row = some { d with usageCount := d.usageCount + 1 } ∧
      w' = { w with db := { w.db with discounts := countUse S id w.db.discounts } } := by
  have hm : prisma.discount.model ∉ unscopedModels := by decide
  rcases TableOf.run_update_ok hctx hm rfl rfl (attempt_eq_ok.mp h).2 with
    ⟨d, hfound, rfl, rfl⟩
  have hadmits := List.find?_some hfound
  rw [Where.admits_inScope _ _ rfl] at hadmits
  simp only [prisma.discount, Where.admits, ColumnKey.admits, TenantRow.id, Option.all_some,
    Bool.true_and, Bool.and_true, Bool.and_eq_true, beq_iff_eq] at hadmits
  refine ⟨d, List.mem_of_find?_eq_some hfound, hadmits.1.symm, hadmits.2, rfl, ?_⟩
  rw [← map_update_eq_countUse]
  rfl

/-- What the discount step of an accepted checkout has done. -/
theorem applyDiscount_ok {subtotal : ℚ} {result : ℚ × Option Id}
    (h : applyDiscount env userTenantId dto subtotal w = (.ok result, w')) :
    DiscountApplied env userTenantId dto w.db subtotal result ∧
      w' = { w with db := { w.db with
        discounts := discountsAfter S result.2 w.db.discounts } } := by
  rcases Fallible.bind_eq_ok.mp h with ⟨resolved, s, hresolve, hrest⟩
  rcases resolveDiscount_ok hctx hresolve with
    ⟨rfl, ⟨hcode, rfl⟩ | ⟨code, d, hcode, hd, hforce, hleft, hpos, rfl⟩⟩
  · cases hrest
    exact ⟨Or.inl ⟨hcode, rfl⟩, rfl⟩
  · rcases Fallible.bind_eq_ok.mp hrest with ⟨row, s₁, hcount, hpure⟩
    rcases incrementUsage_ok hctx hcount with ⟨_, _, _, _, _, rfl⟩
    cases hpure
    exact ⟨Or.inr ⟨code, d, hcode, hd, hforce, hleft, hpos, rfl⟩, rfl⟩

omit hctx in
/-- The order table accepts rows with different ids. -/
theorem orders_accepts {rows rows' : List Order} :
    ({ rows := rows, uniqueKeys := orders.uniqueKeys } : Store Order).accepts rows' = true ↔
      (rows'.map (·.id)).Nodup := by
  have hids : rows'.filterMap (fun r => some r.id) = rows'.map (·.id) := by
    rw [← List.filterMap_eq_map]
    rfl
  simp [Store.accepts, orders, hids]

omit hctx in
/-- A payload for the caller's tenant names no tenant outside the scope exactly when
that tenant is in it, or missing. -/
theorem outside_eq_false {Row : Type} [TenantRow Row] {d : Payload Row}
    (hd : d.tenantId = some (some userTenantId)) :
    d.outside S = false ↔ ∀ T ∈ S, userTenantId = "" ∨ userTenantId = T := by
  cases S with
  | none => simp [Payload.outside]
  | some T =>
      by_cases hempty : userTenantId = ""
      · simp [Payload.outside, Payload.crossTenant, truthy, hd, hempty]
      · simp [Payload.outside, Payload.crossTenant, truthy, hd, hempty]

omit hctx in
/-- The order that a creation makes of its row. -/
theorem orderPayload_apply (row : Order) :
    ((orderPayload userTenantId row).inScope S).apply (prisma.order.blank row.id) =
      { row with tenantId := S.getD userTenantId } := by
  cases S <;> rfl

omit hctx in
theorem orderRow_id {amounts : Amounts} {discountId : Option Id} {drafts : List OrderItemDraft}
    {row : Order} (h : orderRow env userTenantId dto amounts discountId drafts = some row) :
    env.uuid 0 = row.id := by
  unfold orderRow at h
  simp only [Option.bind_eq_bind, Option.bind_eq_some_iff, Option.pure_def,
    Option.some.injEq] at h
  rcases h with ⟨_, _, _, _, _, _, _, _, _, _, rfl⟩
  rfl

omit hctx in
/-- The columns of an order that say where it is. -/
theorem orderRow_place {amounts : Amounts} {discountId : Option Id}
    {drafts : List OrderItemDraft} {row : Order}
    (h : orderRow env userTenantId dto amounts discountId drafts = some row) :
    row.branchId = dto.branchId ∧ row.tableId = orNull dto.tableId := by
  unfold orderRow at h
  simp only [Option.bind_eq_bind, Option.bind_eq_some_iff, Option.pure_def,
    Option.some.injEq] at h
  rcases h with ⟨_, _, _, _, _, _, _, _, _, _, rfl⟩
  exact ⟨rfl, rfl⟩

/-- What inserting an order has done. -/
theorem insertOrder_ok {amounts : Amounts} {discountId : Option Id}
    {drafts : List OrderItemDraft} {order : Order}
    (h : insertOrder env userTenantId dto amounts discountId drafts w = (.ok order, w')) :
    ∃ row, orderRow env userTenantId dto amounts discountId drafts = some row ∧
      (∀ T ∈ S, userTenantId = "" ∨ userTenantId = T) ∧
        order = { row with tenantId := S.getD userTenantId } ∧
      (order ∈ w.db.orders ∨ order.references w.db = true) ∧
      ((w.db.orders ++ [order]).map (·.id)).Nodup ∧
      w' = { w with db := { w.db with orders := w.db.orders ++ [order] } } := by
  unfold insertOrder at h
  cases hrow : orderRow env userTenantId dto amounts discountId drafts with
  | none =>
      rw [hrow] at h
      cases h
  | some row =>
      rw [hrow] at h
      rcases Fallible.bind_eq_ok.mp h with ⟨created, s, hcreate, hpure⟩
      have hm : prisma.order.model ∉ unscopedModels := by decide
      rcases TableOf.run_create_ok hctx hm rfl hcreate with ⟨hcross, rfl, hrefs, haccepts, rfl⟩
      cases hpure
      rw [orderRow_id hrow, orderPayload_apply] at hrefs haccepts ⊢
      exact ⟨row, rfl, (outside_eq_false rfl).mp hcross, rfl, hrefs, orders_accepts.mp haccepts,
        rfl⟩

/-- The queue entry of an order. -/
def queueEntry (env : CheckoutEnv) (S : Option Id) (userTenantId : Id)
    (dto : CreateOrderRequestDto) (order : Order) : KitchenQueue where
  id := env.queueUuid
  tenantId := S.getD userTenantId
  branchId := dto.branchId
  orderId := order.id
  ticketNumber := ticketNumberOf (orderNumberOf env)
  priority := "NORMAL"

omit hctx in
/-- The queue entry that a creation makes. -/
theorem queuePayload_apply (order : Order) :
    ((queuePayload env userTenantId dto order).inScope S).apply
      (prisma.kitchenQueue.blank env.queueUuid) = queueEntry env S userTenantId dto order := by
  cases S <;> rfl

/-- What adding the queue entry has done. -/
theorem enqueue_done {order : Order} {queue : Option KitchenQueue}
    (h : enqueue env userTenantId dto order w = (.ok queue, w')) :
    queue = some (queueEntry env S userTenantId dto order) ∧
      w' = { w with db := { w.db with
        kitchenQueues := w.db.kitchenQueues ++ [queueEntry env S userTenantId dto order] } } := by
  have hm : prisma.kitchenQueue.model ∉ unscopedModels := by decide
  have hctx' : env.forQueue.context.Sees S := hctx
  rcases TableOf.run_create_ok hctx' hm rfl (attempt_eq_ok.mp h).2 with ⟨_, hqueue, _, _, hdone⟩
  have hentry : ((queuePayload env userTenantId dto order).inScope S).apply
      (prisma.kitchenQueue.blank (env.forQueue.uuid 0)) =
        queueEntry env S userTenantId dto order := queuePayload_apply order
  rw [hentry] at hqueue hdone
  exact ⟨hqueue, hdone⟩

/-- What the transaction of an accepted checkout has done. -/
theorem checkoutTransaction_ok {subtotal taxAmount : ℚ} {drafts : List OrderItemDraft}
    {order : Order}
    (h : checkoutTransaction env userTenantId dto subtotal taxAmount drafts w =
      (.ok order, w')) :
    ∃ discount row,
      DiscountApplied env userTenantId dto w.db subtotal discount ∧
      orderRow env userTenantId dto
        ⟨subtotal, taxAmount, discount.1, round2 (subtotal + taxAmount - discount.1)⟩
        discount.2 drafts = some row ∧
      (∀ T ∈ S, userTenantId = "" ∨ userTenantId = T) ∧
        order = { row with tenantId := S.getD userTenantId } ∧
      ((w.db.orders ++ [order]).map (·.id)).Nodup ∧
      w' = { w with db := { w.db with
        discounts := discountsAfter S discount.2 w.db.discounts
        orders := w.db.orders ++ [order]
        kitchenQueues := w.db.kitchenQueues ++ [queueEntry env S userTenantId dto order] } } := by
  rcases Fallible.bind_eq_ok.mp h with ⟨discount, s₁, hdiscount, hrest⟩
  rcases applyDiscount_ok hctx hdiscount with ⟨happlied, rfl⟩
  rcases Fallible.bind_eq_ok.mp hrest with ⟨created, s₂, hinsert, hrest₂⟩
  rcases insertOrder_ok hctx (attempt_eq_ok.mp hinsert).2 with
    ⟨row, hrow, htenant, hcreated, _, hids, rfl⟩
  rcases Fallible.bind_eq_ok.mp hrest₂ with ⟨queue, s₃, hqueue, hpure⟩
  rcases enqueue_done hctx hqueue with ⟨_, rfl⟩
  cases hpure
  exact ⟨discount, row, happlied, hrow, htenant, hcreated, hids, rfl⟩

omit hctx in
/-- The inserts of a transaction that committed did not fail. -/
theorem checkoutTransaction_passed {subtotal taxAmount : ℚ} {drafts : List OrderItemDraft}
    {order : Order}
    (h : checkoutTransaction env userTenantId dto subtotal taxAmount drafts w =
      (.ok order, w')) : env.fails .order = false ∧ env.fails .queue = false := by
  rcases Fallible.bind_eq_ok.mp h with ⟨discount, s₁, _, hrest⟩
  rcases Fallible.bind_eq_ok.mp hrest with ⟨created, s₂, hinsert, hrest₂⟩
  rcases Fallible.bind_eq_ok.mp hrest₂ with ⟨queue, s₃, hqueue, _⟩
  exact ⟨(attempt_eq_ok.mp hinsert).1, (attempt_eq_ok.mp hqueue).1⟩

omit hctx in
/-- Broadcasting leaves the database alone, whatever fails. -/
theorem broadcastCheckout_db (order : Order) :
    ((broadcastCheckout env userTenantId dto order) w).2.db = w.db := by
  have hkeep : ∀ (fails : Bool) (x : Service Unit),
      Fallible.Keeps (fun s => s.db = w.db) x →
      Fallible.Keeps (fun s => s.db = w.db) (attempt fails x) :=
    fun fails x hx => Fallible.Keeps.bind (Fallible.Keeps.throwIf _ _) fun _ => hx
  have hemit : ∀ b, Fallible.Keeps (fun s : World => s.db = w.db) (emit b) :=
    fun b => Fallible.Keeps.modify fun s hs => hs
  have hevent : Fallible.Keeps (fun s : World => s.db = w.db)
      (emitKdsEvent env.kdsGateway userTenantId dto.branchId "order.created" order) := by
    unfold emitKdsEvent
    exact Fallible.Keeps.ite (fun _ => hemit _) fun _ => Fallible.Keeps.pure _
  have hrest : Fallible.Keeps (fun s : World => s.db = w.db)
      (Fallible.orElse (attempt (env.fails .orderBroadcast)
        (emitKdsEvent env.kdsGateway userTenantId dto.branchId "order.created" order))
        (pure ())) :=
    Fallible.Keeps.orElse (hkeep _ _ hevent) (Fallible.Keeps.pure _)
  have hall : Fallible.Keeps (fun s : World => s.db = w.db)
      (broadcastCheckout env userTenantId dto order) := by
    unfold broadcastCheckout
    refine Fallible.Keeps.ite (fun _ => ?_) fun _ => hrest
    refine Fallible.Keeps.bind (Fallible.Keeps.orElse ?_ (Fallible.Keeps.pure _)) fun _ => hrest
    refine Fallible.Keeps.bind ?_ fun items => hkeep _ _ (hemit _)
    exact Fallible.Keeps.bind (Fallible.Keeps.throwIf _ _) fun _ => Fallible.Keeps.reads _
  exact hall w rfl

/-- The table of an accepted checkout is a live table of the branch. -/
theorem validateTable_ok {branch : Branch}
    (h : validateTable env dto branch w = (.ok (), w')) :
    w' = w ∧ ∀ tableId, orNull dto.tableId = some tableId →
      ∃ table, liveTable w.db S tableId = some table ∧ table.branchId = branch.id := by
  unfold validateTable at h
  cases htable : orNull dto.tableId with
  | none =>
      rw [htable] at h
      cases h
      exact ⟨rfl, by simp⟩
  | some tableId =>
      rw [htable] at h
      rcases Fallible.bind_eq_ok.mp h with ⟨found, s, hfind, hrest⟩
      have hrun := (attempt_eq_ok.mp hfind).2
      rw [run_findTable hctx] at hrun
      cases hrun
      cases hrow : liveTable w.db S tableId with
      | none =>
          rw [hrow] at hrest
          cases hrest
      | some table =>
          rw [hrow] at hrest
          rcases Fallible.throwIf_eq_ok.mp hrest with ⟨hsame, rfl⟩
          refine ⟨rfl, ?_⟩
          rintro tableId' ⟨⟩
          exact ⟨table, hrow, by simpa using hsame⟩

end Transaction

section Refused

variable {env : CheckoutEnv} {S : Option Id} {userTenantId : Id} {dto : CreateOrderRequestDto}

/-- The lookup of the table changes nothing. -/
theorem validateTable_keeps (hctx : env.context.Sees S) (I : World → Prop) (branch : Branch) :
    Fallible.Keeps I (validateTable env dto branch) := by
  unfold validateTable
  cases orNull dto.tableId with
  | none => exact Fallible.Keeps.pure _
  | some tableId =>
      refine Fallible.Keeps.bind (attempt_keeps _ (Fallible.Keeps.of_unchanged fun s => ?_))
        fun table => ?_
      · rw [run_findTable hctx]
      · cases table with
        | none => exact Fallible.Keeps.throw _
        | some table => exact Fallible.Keeps.throwIf _ _

/-- The broadcasts swallow every failure. -/
theorem broadcastCheckout_ne_error {order : Order} {e : AppError} {w w' : World} :
    broadcastCheckout env userTenantId dto order w ≠ (.error e, w') := by
  intro h
  unfold broadcastCheckout at h
  split at h
  · rcases Fallible.bind_eq_error.mp h with hticket | ⟨_, s, _, horder⟩
    · exact Fallible.orElse_pure_ne_error hticket
    · exact Fallible.orElse_pure_ne_error horder
  · exact Fallible.orElse_pure_ne_error h

/-- A checkout that throws has changed nothing. -/
theorem createOrder_error (hctx : env.context.Sees S) {w w' : World} {e : AppError}
    (h : createOrder env dto userTenantId w = (.error e, w')) : w' = w := by
  rcases Fallible.bind_eq_error.mp h with hbranch | ⟨branch, s, hbranch, hrest⟩
  · refine (congrArg Prod.snd hbranch).symm.trans (Fallible.Keeps.state_eq (attempt_keeps _
      (Fallible.Keeps.of_unchanged fun s => ?_)))
    rw [run_findBranch hctx]
  · have hread := (attempt_eq_ok.mp hbranch).2
    rw [run_findBranch hctx] at hread
    cases hread
    cases hfound : liveBranch w.db S dto.branchId with
    | none =>
        rw [hfound] at hrest
        cases hrest
        rfl
    | some branch =>
        rw [hfound] at hrest
        rcases Fallible.bind_eq_error.mp hrest with
          hrestaurant | ⟨restaurant, s₁, hrestaurant, hrest₁⟩
        · refine (congrArg Prod.snd hrestaurant).symm.trans (Fallible.Keeps.state_eq
            (attempt_keeps _ (Fallible.Keeps.of_unchanged fun s => ?_)))
          rw [run_findRestaurant hctx]
        · have hread₁ := (attempt_eq_ok.mp hrestaurant).2
          rw [run_findRestaurant hctx] at hread₁
          cases hread₁
          cases hfound₁ : liveRestaurant w.db S branch.restaurantId with
          | none =>
              rw [hfound₁] at hrest₁
              cases hrest₁
              rfl
          | some restaurant =>
              rw [hfound₁] at hrest₁
              rcases Fallible.bind_eq_error.mp hrest₁ with htable | ⟨_, s₂, htable, hrest₂⟩
              · exact (congrArg Prod.snd htable).symm.trans
                  (Fallible.Keeps.state_eq (validateTable_keeps hctx _ branch))
              · rcases validateTable_ok hctx htable with ⟨rfl, _⟩
                rcases Fallible.bind_eq_error.mp hrest₂ with hprice | ⟨priced, s₃, hprice, hrest₃⟩
                · exact (congrArg Prod.snd hprice).symm.trans
                    (Fallible.Keeps.state_eq (priceItems_keeps hctx _ _ _ _ _))
                · rcases priceItems_ok hctx hprice with ⟨rfl, _⟩
                  rcases Fallible.bind_eq_error.mp hrest₃ with htx | ⟨created, s₄, htx, hrest₄⟩
                  · exact Fallible.transaction_error htx
                  · rcases Fallible.bind_eq_error.mp hrest₄ with hbroadcast | ⟨_, s₅, _, hpure⟩
                    · exact absurd hbroadcast broadcastCheckout_ne_error
                    · cases hpure

end Refused

/-! ## An accepted checkout -/

/-- What an accepted checkout of {lit}`dto` read from the database, and the order it
stored. -/
structure Accepted (env : CheckoutEnv) (S : Option Id) (userTenantId : Id)
    (dto : CreateOrderRequestDto) (db : Db) (order : Order) where
  branch : Branch
  restaurant : Restaurant
  drafts : List OrderItemDraft
  discount : ℚ × Option Id
  row : Order
  branch_eq : liveBranch db S dto.branchId = some branch
  restaurant_eq : liveRestaurant db S branch.restaurantId = some restaurant
  table_eq : ∀ tableId, orNull dto.tableId = some tableId →
    ∃ table, liveTable db S tableId = some table ∧ table.branchId = branch.id
  drafts_eq : lineDrafts db S userTenantId dto.items = some drafts
  discount_eq : DiscountApplied env userTenantId dto db (draftsTotal drafts) discount
  row_eq : orderRow env userTenantId dto
    { subtotal := draftsTotal drafts
      taxAmount := round2 (draftsTotal drafts * (restaurant.taxPercentage.toNumber / 100))
      discountAmount := discount.1
      total := round2 (draftsTotal drafts +
        round2 (draftsTotal drafts * (restaurant.taxPercentage.toNumber / 100)) - discount.1) }
    discount.2 drafts = some row
  tenant : ∀ T ∈ S, userTenantId = "" ∨ userTenantId = T
  order_eq : order = { row with tenantId := S.getD userTenantId }

/-- The statements of an accepted checkout: what it has read, the transaction that stored the
order, and the broadcasts after it. -/
theorem createOrder_parts {env : CheckoutEnv} {S : Option Id} {userTenantId : Id}
    {dto : CreateOrderRequestDto} (hctx : env.context.Sees S) {w w' : World} {order : Order}
    (h : createOrder env dto userTenantId w = (.ok order, w')) :
    ∃ branch restaurant drafts w₁,
      liveBranch w.db S dto.branchId = some branch ∧
      liveRestaurant w.db S branch.restaurantId = some restaurant ∧
      (∀ tableId, orNull dto.tableId = some tableId →
        ∃ table, liveTable w.db S tableId = some table ∧ table.branchId = branch.id) ∧
      lineDrafts w.db S userTenantId dto.items = some drafts ∧
      checkoutTransaction env userTenantId dto (draftsTotal drafts)
        (round2 (draftsTotal drafts * (restaurant.taxPercentage.toNumber / 100))) drafts w =
          (.ok order, w₁) ∧
      broadcastCheckout env userTenantId dto order w₁ = (.ok (), w') := by
  rcases Fallible.bind_eq_ok.mp h with ⟨branch, s, hfind, hrest⟩
  have hrun := (attempt_eq_ok.mp hfind).2
  rw [run_findBranch hctx] at hrun
  cases hrun
  cases hbranch : liveBranch w.db S dto.branchId with
  | none =>
      rw [hbranch] at hrest
      cases hrest
  | some branch =>
      rw [hbranch] at hrest
      rcases Fallible.bind_eq_ok.mp hrest with ⟨restaurant, s₁, hfind₁, hrest₁⟩
      have hrun₁ := (attempt_eq_ok.mp hfind₁).2
      rw [run_findRestaurant hctx] at hrun₁
      cases hrun₁
      cases hrestaurant : liveRestaurant w.db S branch.restaurantId with
      | none =>
          rw [hrestaurant] at hrest₁
          cases hrest₁
      | some restaurant =>
          rw [hrestaurant] at hrest₁
          rcases Fallible.bind_eq_ok.mp hrest₁ with ⟨_, s₂, htable, hrest₂⟩
          rcases validateTable_ok hctx htable with ⟨rfl, htableOk⟩
          rcases Fallible.bind_eq_ok.mp hrest₂ with ⟨priced, s₃, hprice, hrest₃⟩
          rcases priceItems_ok hctx hprice with ⟨rfl, drafts, hdrafts, rfl⟩
          rcases Fallible.bind_eq_ok.mp hrest₃ with ⟨created, s₄, htx, hrest₄⟩
          simp only [zero_add, List.nil_append] at htx
          rcases Fallible.bind_eq_ok.mp hrest₄ with ⟨_, s₅, hbroadcast, hpure⟩
          cases hpure
          exact ⟨branch, restaurant, drafts, s₄, rfl, hrestaurant, htableOk, hdrafts,
            Fallible.transaction_eq_ok.mp htx, hbroadcast⟩

/-- What an accepted checkout has done: it stores one order and its queue entry, counts
the discount, and leaves every other table alone. -/
theorem createOrder_ok {env : CheckoutEnv} {S : Option Id} {userTenantId : Id}
    {dto : CreateOrderRequestDto} (hctx : env.context.Sees S) {w w' : World} {order : Order}
    (h : createOrder env dto userTenantId w = (.ok order, w')) :
    ∃ (acc : Accepted env S userTenantId dto w.db order) (queue : KitchenQueue),
      ((w.db.orders ++ [order]).map (·.id)).Nodup ∧
      w'.db = { w.db with
        discounts := discountsAfter S acc.discount.2 w.db.discounts
        orders := w.db.orders ++ [order]
        kitchenQueues := w.db.kitchenQueues ++ [queue] } := by
  rcases createOrder_parts hctx h with
    ⟨branch, restaurant, drafts, w₁, hbranch, hrestaurant, htable, hdrafts, htx, hbroadcast⟩
  rcases checkoutTransaction_ok hctx htx with
    ⟨discount, row, hdiscount, hrow, htenant, hcreated, hids, hdone⟩
  have hkept : w'.db = w₁.db := by
    have hsame : ((broadcastCheckout env userTenantId dto order) w₁).2.db = w₁.db :=
      broadcastCheckout_db order
    rw [hbroadcast] at hsame
    exact hsame
  refine ⟨⟨branch, restaurant, drafts, discount, row, hbranch, hrestaurant, htable, hdrafts,
    hdiscount, hrow, htenant, hcreated⟩, queueEntry env S userTenantId dto order, hids, ?_⟩
  rw [hkept, hdone]

end OrderService
end Eleva
