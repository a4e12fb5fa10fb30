import Eleva.Order.Runs
import Eleva.Order.Modifiers

/-!
# Order - Variant stock

The stock of a variant gates a checkout and is not a counter: no call changes it, and a
line is accepted whenever the variant's stock is positive, whatever its quantity.

Main results:

- Theorem {lit}`orderService_keeps_stock`: over every run of calls, the stock stays and
  only variants in stock are ordered.
- Theorem {lit}`createOrder_oversells`: one accepted order takes more than the stock.
-/

namespace Eleva
namespace OrderService

open Foundation Database

/-- The quantity of a variant on a line. -/
def quantityOf (variantId : Id) (item : OrderItem) : ℕ :=
  if item.variantId = some variantId then item.quantity else 0

/-- The quantity of a variant over all orders that are not cancelled. -/
def orderedQuantity (db : Db) (variantId : Id) : ℕ :=
  ((db.orders.filter fun order => order.status != .CANCELLED).map fun order =>
    (order.orderItems.map (quantityOf variantId)).sum).sum

/-- Every variant on the lines of an order is a variant in stock of the line's
product. -/
def VariantsInStock (variants : List ProductVariant) (order : Order) : Prop :=
  ∀ item ∈ order.orderItems, ∀ variantId ∈ item.variantId,
    ∃ variant ∈ variants, variant.id = variantId ∧ variant.productId = item.productId ∧
      0 < variant.stockQuantity

/-! ## One checkout -/

theorem variantInStock_of_lineDraft {db : Db} {S : Option Id} {userTenantId : Id}
    {selection : OrderItemSelectionDto} {draft : OrderItemDraft} {item : OrderItem}
    (h : lineDraft db S userTenantId selection = some draft) (hstored : StoredAs draft item)
    {variantId : Id} (hvariant : item.variantId = some variantId) :
    ∃ variant ∈ db.productVariants, variant.id = variantId ∧
      variant.productId = item.productId ∧ 0 < variant.stockQuantity := by
  rcases lineDraft_eq_some h with ⟨product, unitPrice, rows, _, _, hunit, _, rfl⟩
  have hchosen : orNull selection.variantId = some variantId :=
    hstored.variantId.symm.trans hvariant
  unfold unitPriceOf at hunit
  simp only [hchosen, Option.bind_eq_bind, Option.bind_eq_some_iff] at hunit
  rcases hunit with ⟨variant, hfound, _, hstock, _⟩
  rcases ownVariant_spec hfound with ⟨hmem, hid, _, hof⟩
  refine ⟨variant, hmem, hid, hof.trans hstored.productId.symm, ?_⟩
  by_contra hno
  simp [guard, hno, failure] at hstock

theorem Accepted.variantsInStock {env : CheckoutEnv} {S : Option Id} {userTenantId : Id}
    {dto : CreateOrderRequestDto} {db : Db} {order : Order}
    (acc : Accepted env S userTenantId dto db order) :
    VariantsInStock db.productVariants order := by
  intro item hitem variantId hvariant
  rcases exists_of_mem_right acc.storedAs hitem with ⟨draft, hdraft, hstored⟩
  rcases exists_of_mem_right (lineDrafts_forall₂ acc.drafts_eq) hdraft with
    ⟨selection, _, hpriced⟩
  exact variantInStock_of_lineDraft hpriced hstored hvariant

/-! ## Runs -/

/-- What holds along a run from {lit}`start`: the stock is as it was, and every order
placed since has only variants in stock. -/
structure StockKept (start db : Db) : Prop where
  stock : db.productVariants = start.productVariants
  orders : ∀ order ∈ db.orders, order.id ∈ start.orders.map (·.id) ∨
    VariantsInStock start.productVariants order

theorem StockKept.refl (db : Db) : StockKept db db :=
  ⟨rfl, fun _ horder => Or.inl (List.mem_map_of_mem horder)⟩

theorem StockKept.setStatus {start db : Db} (h : StockKept start db) (S : Option Id) (id : Id)
    (status : OrderStatus) :
    ∀ order ∈ setStatus S id status db.orders, order.id ∈ start.orders.map (·.id) ∨
      VariantsInStock start.productVariants order := by
  intro order horder
  rcases List.mem_map.mp horder with ⟨before, hbefore, rfl⟩
  have hkept := h.orders before hbefore
  split <;> exact hkept

/-- One call keeps the stock, and places orders of variants in stock only. -/
theorem StockKept.step {start db db' : Db} {S : Option Id} {call : OrderCall}
    {result : Except AppError Order} (h : StockKept start db)
    (heffect : Effect S db call result db') : StockKept start db' := by
  cases heffect with
  | refused => exact h
  | created acc queue ids =>
      refine ⟨h.stock, fun order horder => ?_⟩
      rcases List.mem_append.mp horder with hold | hnew
      · exact h.orders order hold
      · rcases List.mem_singleton.mp hnew with rfl
        exact Or.inr (h.stock ▸ acc.variantsInStock)
  | moved found edge unfinished => exact ⟨h.stock, h.setStatus S _ _⟩
  | cancelled found unfinished => exact ⟨h.stock, h.setStatus S _ _⟩
  | completed found ready inserts => exact ⟨h.stock, h.setStatus S _ _⟩
  | uninvoiced found ready passed inserts => exact ⟨h.stock, h.setStatus S _ _⟩

theorem orderService_stockKept {calls : List OrderCall} {w : World}
    (hctx : ∀ call ∈ calls, ∃ S, call.context.Sees S) :
    StockKept w.db (orderService.exec calls w).db := by
  refine orderService.run_invariant (I := fun s => StockKept w.db s.db) ?_ (StockKept.refl w.db)
  intro call hcall s hs
  rcases hctx call hcall with ⟨S, hsees⟩
  exact hs.step (orderService_effect hsees s)

/-- Over every run of checkouts, status updates and cancellations, no call changes the
stock of a variant, every line placed in the run names a variant of its product in
stock, and a variant out of stock is not ordered at all. -/
theorem orderService_keeps_stock (calls : List OrderCall) (w : World)
    (hctx : ∀ call ∈ calls, ∃ S, call.context.Sees S) :
    (orderService.exec calls w).db.productVariants = w.db.productVariants ∧
      (∀ order ∈ (orderService.exec calls w).db.orders, order.id ∉ w.db.orders.map (·.id) →
        VariantsInStock w.db.productVariants order) ∧
      (w.db.orders = [] → ∀ variantId,
        (∀ variant ∈ w.db.productVariants, variant.id = variantId →
          variant.stockQuantity ≤ 0) →
        orderedQuantity (orderService.exec calls w).db variantId = 0) := by
  have hkept := orderService_stockKept (w := w) hctx
  refine ⟨hkept.stock, fun order horder hnew => (hkept.orders order horder).resolve_left hnew, ?_⟩
  intro hempty variantId hout
  unfold orderedQuantity
  rw [List.sum_eq_zero_iff]
  intro n hn
  rcases List.mem_map.mp hn with ⟨order, horder, rfl⟩
  have hstock : VariantsInStock w.db.productVariants order := by
    refine (hkept.orders order (List.mem_filter.mp horder).1).resolve_left ?_
    simp [hempty]
  rw [List.sum_eq_zero_iff]
  intro k hk
  rcases List.mem_map.mp hk with ⟨item, hitem, rfl⟩
  unfold quantityOf
  split <;> rename_i hvariant
  · rcases hstock item hitem variantId hvariant with ⟨variant, hmem, hid, _, hpos⟩
    exact absurd hpos (not_lt.mpr (hout variant hmem hid))
  · rfl

theorem soupRequest_keeps_stock :
    (orderService.exec [.createOrder guestEnv soupRequest "tenant-a"]
      { db := soupMenu }).db.productVariants = soupMenu.productVariants :=
  (orderService_keeps_stock [.createOrder guestEnv soupRequest "tenant-a"] { db := soupMenu }
    (by
      intro call hcall
      rcases List.mem_singleton.mp hcall with rfl
      exact ⟨some "tenant-a", guestEnv_holds⟩)).1

/-- One order of two pieces is accepted where one is in stock. -/
theorem createOrder_oversells :
    ∃ variant ∈ soupMenu.productVariants, variant.stockQuantity = 1 ∧
      variant.stockQuantity <
        orderedQuantity (orderService.exec [.createOrder guestEnv soupRequest "tenant-a"]
          { db := soupMenu }).db variant.id := by
  decide +kernel

end OrderService
end Eleva
