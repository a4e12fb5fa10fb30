import Eleva.Order.CheckoutSpec

/-!
# Order - When a checkout is accepted

The converse of the facts about an accepted checkout: when the lookups find what they
look for, the columns hold the amounts, no statement fails and the new rows meet the
constraints, the checkout returns.

Main results:

- Theorem {lit}`priceItems_returns`: lines that can be priced are priced.
- Theorem {lit}`createOrder_returns`: a checkout without a discount code is accepted
  exactly as {lit}`Accepted` describes it.
-/

namespace Eleva
namespace OrderService

open Foundation Database DiscountService

/-! ## Pricing -/

section Pricing

variable {env : CheckoutEnv} {S : Option Id} {userTenantId : Id} (hctx : env.context.Sees S)
  (hfails : ∀ step, env.fails step = false) {w : World}
include hctx hfails

theorem resolveUnitPrice_returns {i : ℕ} {item : OrderItemSelectionDto} {product : Product}
    {p : ℚ} (h : unitPriceOf w.db S item product = some p) :
    resolveUnitPrice env i item product w = (.ok p, w) := by
  unfold unitPriceOf at h
  unfold resolveUnitPrice
  cases hv : orNull item.variantId with
  | some variantId =>
      simp only [hv, Option.bind_eq_bind, Option.bind_eq_some_iff] at h
      rcases h with ⟨variant, hfound, _, hstock, hprice⟩
      have hin : 0 < variant.stockQuantity := (Option.guard_eq_some' _).mp hstock
      have hout : decide (variant.stockQuantity ≤ 0) = false := by simpa using hin
      simp only [hfails, attempt_false]
      rw [Fallible.bind_of_ok (run_findVariant hctx w variantId product.id), hfound]
      simp only [hout]
      rw [Fallible.throwIf_false_bind]
      cases hprice
      rfl
  | none =>
      simp only [hv] at h
      cases hs : orNull item.sizeId with
      | some sizeId =>
          simp only [hs, Option.bind_eq_bind, Option.bind_eq_some_iff] at h
          rcases h with ⟨size, hfound, hprice⟩
          rcases run_findSizes hctx w sizeId product.id with ⟨found, hrun, hhead⟩
          simp only [hfails, attempt_false]
          rw [Fallible.bind_of_ok hrun, hhead, hfound]
          cases hprice
          rfl
      | none =>
          simp only [hs] at h
          cases h
          rfl

theorem resolveAddons_returns {i j : ℕ} {selections : List OrderAddonSelectionDto} {total : ℚ}
    {created rows : List OrderItemAddon}
    (h : addonRows w.db S userTenantId selections = some rows) :
    resolveAddons env userTenantId i j selections total created w =
      (.ok (total + addonsTotal rows, created ++ rows), w) := by
  induction selections generalizing j total created rows with
  | nil =>
      cases h
      simp [resolveAddons, addonsTotal]
  | cons addonSelection rest ih =>
      simp only [addonRows, addonRow, Option.bind_eq_bind, Option.bind_eq_some_iff] at h
      rcases h with ⟨row, ⟨addonItem, hfound, _, havailable, hrow⟩, rows', hrows', hcons⟩
      cases hrow
      cases hcons
      have havail : addonItem.isAvailable = true := (Option.guard_eq_some' _).mp havailable
      rcases run_findAddonItem hctx w addonSelection.addonItemId with ⟨found, hrun, hhead⟩
      unfold resolveAddons
      simp only [hfails, attempt_false]
      rw [Fallible.bind_of_ok hrun, hhead, hfound]
      simp only [havail, Bool.not_true]
      rw [Fallible.throwIf_false_bind, ih hrows']
      simp [addonsTotal, add_assoc]

theorem priceItem_returns {i : ℕ} {item : OrderItemSelectionDto} {draft : OrderItemDraft}
    (h : lineDraft w.db S userTenantId item = some draft) :
    priceItem env userTenantId i item w = (.ok draft, w) := by
  simp only [lineDraft, Option.bind_eq_bind, Option.bind_eq_some_iff] at h
  rcases h with ⟨product, hproduct, _, havailable, unitPrice, hunit, rows, hrows, hdraft⟩
  cases hdraft
  have havail : product.isAvailable = true := (Option.guard_eq_some' _).mp havailable
  unfold priceItem
  simp only [hfails, attempt_false]
  rw [Fallible.bind_of_ok (run_findProduct hctx w item.productId), hproduct]
  simp only [havail, Bool.not_true]
  rw [Fallible.throwIf_false_bind,
    Fallible.bind_of_ok (resolveUnitPrice_returns hctx hfails hunit),
    Fallible.bind_of_ok (resolveAddons_returns hctx hfails hrows)]
  simp

/-- Lines that can be priced are priced, and nothing changes. -/
theorem priceItems_returns {i : ℕ} {items : List OrderItemSelectionDto} {subtotal : ℚ}
    {created drafts : List OrderItemDraft}
    (h : lineDrafts w.db S userTenantId items = some drafts) :
    priceItems env userTenantId i items subtotal created w =
      (.ok (subtotal + draftsTotal drafts, created ++ drafts), w) := by
  induction items generalizing i subtotal created drafts with
  | nil =>
      cases h
      simp [priceItems, draftsTotal]
  | cons item rest ih =>
      simp only [lineDrafts, Option.bind_eq_bind, Option.bind_eq_some_iff] at h
      rcases h with ⟨draft, hdraft, drafts', hdrafts', hcons⟩
      cases hcons
      unfold priceItems
      rw [Fallible.bind_of_ok (priceItem_returns hctx hfails hdraft), ih hdrafts']
      simp [draftsTotal, add_assoc]

theorem validateTable_returns {dto : CreateOrderRequestDto} {branch : Branch}
    (h : ∀ tableId, orNull dto.tableId = some tableId →
      ∃ table, liveTable w.db S tableId = some table ∧ table.branchId = branch.id) :
    validateTable env dto branch w = (.ok (), w) := by
  unfold validateTable
  cases htable : orNull dto.tableId with
  | none => rfl
  | some tableId =>
      rcases h tableId htable with ⟨table, hfound, hbranch⟩
      simp only [hfails, attempt_false]
      rw [Fallible.bind_of_ok (run_findTable hctx w tableId), hfound]
      exact Fallible.throwIf_eq_ok.mpr ⟨by simp [hbranch], rfl⟩

end Pricing

/-! ## Storing the order -/

/-- A creation that names no tenant outside the scope and meets the constraints. -/
theorem run_create_returns {Row : Type} [DecidableEq Row] [TenantRow Row]
    {t : TableOf Row} {m : Delegate Row} {d : Payload Row} {row : Row} {env : Env}
    {S : Option Id} {w : World} (hctx : env.context.Sees S)
    (hm : m.model ∉ unscopedModels) (hnested : d.nested = {}) (hinside : d.outside S = false)
    (hrow : (d.inScope S).apply (m.blank (env.uuid 0)) = row)
    (haccepts : ({ rows := t.get w.db, uniqueKeys := t.uniqueKeys } : Store Row).accepts
      (t.get w.db ++ [row]) = true)
    (hrefs : t.references w.db row = true) :
    t.run (m.create env d) w =
      (.ok (some row), { w with db := t.set (t.get w.db ++ [row]) w.db }) := by
  have hcreate := Delegate.create_apply (d := d) hctx hm hnested
    { rows := t.get w.db, uniqueKeys := t.uniqueKeys }
  rw [hrow, hinside, if_neg Bool.false_ne_true, if_pos haccepts] at hcreate
  refine TableOf.run_of_ok hcreate fun r hr => ?_
  rcases List.mem_append.mp hr with hold | hnew
  · exact Or.inl hold
  · rw [List.mem_singleton.mp hnew]
    exact Or.inr hrefs

section Transaction

variable {env : CheckoutEnv} {S : Option Id} {userTenantId : Id} {dto : CreateOrderRequestDto}
  (hctx : env.context.Sees S) (hfails : ∀ step, env.fails step = false)
  (htenant : ∀ T ∈ S, userTenantId = "" ∨ userTenantId = T) {w : World}

include hctx

include htenant

/-- An order whose columns hold its amounts is stored when its id is new and its foreign
keys name rows. -/
theorem insertOrder_returns {amounts : Amounts} {discountId : Option Id}
    {drafts : List OrderItemDraft} {row : Order}
    (hrow : orderRow env userTenantId dto amounts discountId drafts = some row)
    (hids : ((w.db.orders ++ [row]).map (·.id)).Nodup) (hrefs : row.references w.db = true) :
    insertOrder env userTenantId dto amounts discountId drafts w =
      (.ok { row with tenantId := S.getD userTenantId },
        { w with db := { w.db with
          orders := w.db.orders ++ [{ row with tenantId := S.getD userTenantId }] } }) := by
  have hm : prisma.order.model ∉ unscopedModels := by decide
  have happly : ((orderPayload userTenantId row).inScope S).apply
      (prisma.order.blank (env.uuid 0)) = { row with tenantId := S.getD userTenantId } := by
    rw [orderRow_id hrow, orderPayload_apply]
  have haccepts : ({ rows := orders.get w.db, uniqueKeys := orders.uniqueKeys } :
      Store Order).accepts (orders.get w.db ++ [{ row with tenantId := S.getD userTenantId }]) =
        true := by
    refine orders_accepts.mpr ?_
    simpa [orders] using hids
  have hcreate := run_create_returns (t := orders) hctx hm rfl
    ((outside_eq_false rfl).mpr htenant) happly haccepts hrefs
  unfold insertOrder
  rw [hrow]
  simp only
  rw [Fallible.bind_of_ok hcreate]
  rfl

omit hctx htenant in
/-- The kitchen queue accepts rows with different ids. -/
theorem kitchenQueues_accepts {rows rows' : List KitchenQueue} :
    ({ rows := rows, uniqueKeys := kitchenQueues.uniqueKeys } :
      Store KitchenQueue).accepts rows' = true ↔ (rows'.map (·.id)).Nodup := by
  have hids : rows'.filterMap (fun r => some r.id) = rows'.map (·.id) := by
    rw [← List.filterMap_eq_map]
    rfl
  simp [Store.accepts, kitchenQueues, hids]

include hfails

/-- The queue entry of a stored order is created when its id is new. -/
theorem enqueue_returns {order : Order} (horder : order ∈ w.db.orders)
    (hids : (w.db.kitchenQueues.map (·.id) ++ [env.queueUuid]).Nodup) :
    ∃ queue w', enqueue env userTenantId dto order w = (.ok queue, w') := by
  have hm : prisma.kitchenQueue.model ∉ unscopedModels := by decide
  have hctx' : env.forQueue.context.Sees S := hctx
  have happly : ((queuePayload env userTenantId dto order).inScope S).apply
      (prisma.kitchenQueue.blank (env.forQueue.uuid 0)) =
        queueEntry env S userTenantId dto order := queuePayload_apply order
  have haccepts : ({ rows := kitchenQueues.get w.db, uniqueKeys := kitchenQueues.uniqueKeys } :
      Store KitchenQueue).accepts
        (kitchenQueues.get w.db ++ [queueEntry env S userTenantId dto order]) = true := by
    refine kitchenQueues_accepts.mpr ?_
    rw [List.map_append, List.map_singleton]
    exact hids
  have hrefs : kitchenQueues.references w.db (queueEntry env S userTenantId dto order) = true := by
    simp only [kitchenQueues, List.any_eq_true, beq_iff_eq]
    exact ⟨order, horder, rfl⟩
  have houtside : (queuePayload env userTenantId dto order).outside S = false :=
    (outside_eq_false rfl).mpr htenant
  have hcreate := run_create_returns (t := kitchenQueues) hctx' hm rfl houtside happly haccepts
    hrefs
  unfold enqueue
  rw [hfails, attempt_false]
  exact ⟨_, _, hcreate⟩

/-- A transaction without a discount code returns the order it stores. -/
theorem checkoutTransaction_returns {subtotal taxAmount : ℚ} {drafts : List OrderItemDraft}
    {row : Order} (hcode : orNull (discountCodeOf env dto) = none)
    (hrow : orderRow env userTenantId dto
      ⟨subtotal, taxAmount, 0, round2 (subtotal + taxAmount - 0)⟩ none drafts = some row)
    (hids : ((w.db.orders ++ [row]).map (·.id)).Nodup) (hrefs : row.references w.db = true)
    (hqueue : (w.db.kitchenQueues.map (·.id) ++ [env.queueUuid]).Nodup) :
    ∃ w', checkoutTransaction env userTenantId dto subtotal taxAmount drafts w =
      (.ok { row with tenantId := S.getD userTenantId }, w') := by
  have happlied : applyDiscount env userTenantId dto subtotal w = (.ok (0, none), w) := by
    unfold applyDiscount resolveDiscount
    rw [hcode]
    rfl
  have hstore := insertOrder_returns hctx htenant hrow hids hrefs
  have hstored : ({ row with tenantId := S.getD userTenantId } : Order) ∈
      w.db.orders ++ [{ row with tenantId := S.getD userTenantId }] :=
    List.mem_append_right _ (List.mem_singleton_self _)
  have henqueue : ∃ queue w', enqueue env userTenantId dto
      { row with tenantId := S.getD userTenantId }
      { w with db := { w.db with
        orders := w.db.orders ++ [{ row with tenantId := S.getD userTenantId }] } } =
      (.ok queue, w') :=
    enqueue_returns hctx hfails htenant hstored hqueue
  rcases henqueue with ⟨queue, w', hqueued⟩
  refine ⟨w', ?_⟩
  unfold checkoutTransaction storeOrder
  rw [Fallible.bind_of_ok happlied]
  simp only [hfails, attempt_false]
  rw [Fallible.bind_of_ok hstore, Fallible.bind_of_ok hqueued]
  rfl

end Transaction

/-! ## The checkout -/

theorem broadcastCheckout_returns {env : CheckoutEnv} {userTenantId : Id}
    {dto : CreateOrderRequestDto} {order : Order} (w : World) :
    ∃ w', broadcastCheckout env userTenantId dto order w = (.ok (), w') := by
  cases hrun : broadcastCheckout env userTenantId dto order w with
  | mk result w' =>
      cases result with
      | ok u => exact ⟨w', rfl⟩
      | error e => exact absurd hrun broadcastCheckout_ne_error

/-- What {lit}`Accepted` describes without a discount code is accepted, when no statement
fails, the generated ids are new and the foreign keys of the order name rows. -/
theorem createOrder_returns {env : CheckoutEnv} {S : Option Id} {userTenantId : Id}
    {dto : CreateOrderRequestDto} {w : World} {order : Order} (hctx : env.context.Sees S)
    (hfails : ∀ step, env.fails step = false)
    (acc : Accepted env S userTenantId dto w.db order)
    (hcode : orNull (discountCodeOf env dto) = none)
    (hids : ((w.db.orders ++ [order]).map (·.id)).Nodup) (hrefs : order.references w.db = true)
    (hqueue : (w.db.kitchenQueues.map (·.id) ++ [env.queueUuid]).Nodup) :
    ∃ w', createOrder env dto userTenantId w = (.ok order, w') := by
  have hnone : acc.discount = (0, none) := by
    rcases acc.discount_eq with ⟨_, hdiscount⟩ | ⟨code, _, hsome, _⟩
    · exact hdiscount
    · rw [hcode] at hsome
      cases hsome
  have hrow := acc.row_eq
  rw [hnone] at hrow
  have hids' : ((w.db.orders ++ [acc.row]).map (·.id)).Nodup := by
    rw [acc.order_eq] at hids
    simpa using hids
  have hrefs' : acc.row.references w.db = true := by
    rw [acc.order_eq] at hrefs
    exact hrefs
  rcases checkoutTransaction_returns hctx hfails acc.tenant hcode hrow hids' hrefs' hqueue with
    ⟨w₁, htx⟩
  rw [← acc.order_eq] at htx
  have hbroadcasts : ∃ w', broadcastCheckout env userTenantId dto order w₁ = (.ok (), w') :=
    broadcastCheckout_returns w₁
  rcases hbroadcasts with ⟨w', hbroadcast⟩
  have hprice : priceItems env userTenantId 0 dto.items 0 [] w =
      (.ok (0 + draftsTotal acc.drafts, [] ++ acc.drafts), w) :=
    priceItems_returns hctx hfails acc.drafts_eq
  rw [zero_add, List.nil_append] at hprice
  refine ⟨w', ?_⟩
  unfold createOrder
  simp only [hfails, attempt_false]
  rw [Fallible.bind_of_ok (run_findBranch hctx w dto.branchId), acc.branch_eq]
  simp only
  rw [Fallible.bind_of_ok (run_findRestaurant hctx w acc.branch.restaurantId),
    acc.restaurant_eq]
  simp only
  rw [Fallible.bind_of_ok (validateTable_returns hctx hfails acc.table_eq),
    Fallible.bind_of_ok hprice, Fallible.bind_of_ok (Fallible.transaction_eq_ok.mpr htx),
    Fallible.bind_of_ok hbroadcast]
  rfl

end OrderService
end Eleva
