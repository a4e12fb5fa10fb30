import Eleva.Database.SoftDelete
import Eleva.Order.DiscountUsage

/-!
# Order - A checkout is all or nothing

Whichever statements and broadcasts of a checkout fail, it throws and has changed nothing, or it
returns and has stored one order with its queue entry and counted its discount once.

Main results:

- Definitions {lit}`Stored` and {lit}`NothingStored`: what a checkout has stored.
- Theorem {lit}`createOrder_all_or_nothing`: a checkout throws exactly when nothing of it is
  stored, and stores everything when it returns.
-/

namespace Eleva
namespace OrderService

open Foundation Database DiscountService

/-- What a checkout stores between two databases: one order with the lines of the request, its
queue entry, one use of the discount that its code names, and nothing else. -/
structure Stored (env : CheckoutEnv) (userTenantId : Id) (dto : CreateOrderRequestDto)
    (db db' : Db) (order : Order) : Prop where
  orders : db'.orders = db.orders ++ [order]
  fresh : order.id ∉ db.orders.map (·.id)
  lines : List.Forall₂ LineOf dto.items order.orderItems
  queue : ∃ queue : KitchenQueue, db'.kitchenQueues = db.kitchenQueues ++ [queue] ∧
    queue.orderId = order.id
  noDiscount : orNull (discountCodeOf env dto) = none → db'.discounts = db.discounts
  discount : ∀ code, orNull (discountCodeOf env dto) = some code →
    ∃ before d after, db.discounts = before ++ d :: after ∧ d.tenantId = userTenantId ∧
      d.code = code ∧ order.discountId = some d.id ∧
      db'.discounts = before ++ oneMoreUse d :: after
  others : db' = { db with
    discounts := db'.discounts
    orders := db'.orders
    kitchenQueues := db'.kitchenQueues }

/-- Nothing of a checkout is stored: no order with its lines, no queue entry and no use of a
discount. -/
structure NothingStored (db db' : Db) : Prop where
  orders : db'.orders = db.orders
  queue : db'.kitchenQueues = db.kitchenQueues
  discounts : db'.discounts = db.discounts

/-- Counting a use on unique rows in scope counts it on one of them. -/
theorem countUse_split {S : Option Id} {rows : List Discount} {d : Discount}
    (hids : (rows.map (·.id)).Nodup) (hd : d ∈ rows) (hvisible : visible S d = true) :
    ∃ before after, rows = before ++ d :: after ∧
      countUse S d.id rows = before ++ oneMoreUse d :: after := by
  rcases List.append_of_mem hd with ⟨before, after, rfl⟩
  refine ⟨before, after, rfl, ?_⟩
  rw [countUse_eq_putDiscount hids hd hvisible]
  rw [List.map_append, List.map_cons, List.nodup_append] at hids
  rcases hids with ⟨_, hafter, hapart⟩
  have hbefore : ∀ r ∈ before, r.id ≠ d.id := fun r hr =>
    hapart r.id (List.mem_map_of_mem hr) d.id List.mem_cons_self
  have hrest : ∀ r ∈ after, r.id ≠ d.id := fun r hr heq =>
    (List.nodup_cons.mp hafter).1 (heq ▸ List.mem_map_of_mem hr)
  have hkept : ∀ part : List Discount, (∀ r ∈ part, r.id ≠ d.id) →
      putDiscount (some (oneMoreUse d)) part = part := by
    intro part hpart
    unfold putDiscount
    refine (List.map_congr_left fun r hr => ?_).trans (List.map_id part)
    simp [oneMoreUse, hpart r hr]
  have hsplit : putDiscount (some (oneMoreUse d)) (before ++ d :: after) =
      putDiscount (some (oneMoreUse d)) before ++
        oneMoreUse d :: putDiscount (some (oneMoreUse d)) after := by
    simp [putDiscount, oneMoreUse]
  rw [hsplit, hkept before hbefore, hkept after hrest]

section Outcome

variable {env : CheckoutEnv} {userTenantId : Id} {dto : CreateOrderRequestDto} {w w' : World}

/-- What the discount step of an accepted checkout has done to unique rows. -/
theorem applyDiscount_counted {S : Option Id} (hctx : env.context.Sees S) {subtotal : ℚ}
    {result : ℚ × Option Id} (hids : (w.db.discounts.map (·.id)).Nodup)
    (h : applyDiscount env userTenantId dto subtotal w = (.ok result, w')) :
    (orNull (discountCodeOf env dto) = none → w'.db.discounts = w.db.discounts) ∧
      ∀ code, orNull (discountCodeOf env dto) = some code →
        ∃ before d after, w.db.discounts = before ++ d :: after ∧ d.tenantId = userTenantId ∧
          d.code = code ∧ result.2 = some d.id ∧
          w'.db.discounts = before ++ oneMoreUse d :: after := by
  rcases Fallible.bind_eq_ok.mp h with ⟨resolved, s, hresolve, hrest⟩
  rcases resolveDiscount_ok hctx hresolve with
    ⟨rfl, ⟨hcode, rfl⟩ | ⟨code, d, hcode, hd, _, _, _, rfl⟩⟩
  · cases hrest
    refine ⟨fun _ => rfl, ?_⟩
    rw [hcode]
    rintro code ⟨⟩
  · rcases Fallible.bind_eq_ok.mp hrest with ⟨row, s₁, hcount, hpure⟩
    rcases incrementUsage_ok hctx hcount with ⟨d', hd', hid, hvisible, _, rfl⟩
    cases hpure
    have hmem := List.mem_of_find?_eq_some hd
    have hnamed := List.find?_some hd
    simp only [Bool.and_eq_true, beq_iff_eq] at hnamed
    have hsame : d' = d := List.inj_on_of_nodup_map hids hd' hmem hid
    rw [hsame] at hvisible
    rcases countUse_split hids hmem hvisible with ⟨before, after, hrows, hcounted⟩
    rw [hcode]
    refine ⟨?_, ?_⟩
    · rintro ⟨⟩
    · rintro code' ⟨⟩
      exact ⟨before, d, after, hrows, hnamed.1, hnamed.2, rfl, hcounted⟩

/-- A checkout outside every scope throws and changes nothing. -/
theorem createOrder_unscoped (hctx : ¬∃ S, env.context.Sees S) :
    ∃ e, createOrder env dto userTenantId w = (.error e, w) := by
  have hreads : Fallible.ReadsOnly (attempt (env.fails .branch)
      (branches.run (branchRepository.findById env.toEnv dto.branchId))) :=
    attempt_readsOnly (TableOf.run_readsOnly (BaseTenantRepository.findFirst_readsOnly _))
  rcases hbranch : attempt (env.fails .branch)
    (branches.run (branchRepository.findById env.toEnv dto.branchId)) w with ⟨e | found, s⟩
  · have hsame : s = w := hreads.state_eq hbranch
    rw [hsame] at hbranch
    exact ⟨e, Fallible.bind_of_error hbranch⟩
  · exact absurd (TableOf.sees_of_findFirst (attempt_eq_ok.mp hbranch).2) hctx

/-- In any context, a checkout that throws has changed nothing. -/
theorem createOrder_throws {e : AppError}
    (h : createOrder env dto userTenantId w = (.error e, w')) : w' = w := by
  by_cases hctx : ∃ S, env.context.Sees S
  · rcases hctx with ⟨S, hctx⟩
    exact createOrder_error hctx h
  · rcases createOrder_unscoped hctx with ⟨e', hthrows⟩
    exact congrArg Prod.snd (h.symm.trans hthrows)

/-- A checkout that returns has stored its order, the queue entry and the discount use. -/
theorem createOrder_stores {order : Order} (hids : (w.db.discounts.map (·.id)).Nodup)
    (h : createOrder env dto userTenantId w = (.ok order, w')) :
    Stored env userTenantId dto w.db w'.db order := by
  have hscoped : ∃ S, env.context.Sees S := by
    by_contra hctx
    rcases createOrder_unscoped hctx with ⟨e, hthrows⟩
    rw [h] at hthrows
    cases hthrows
  rcases hscoped with ⟨S, hctx⟩
  rcases createOrder_parts hctx h with
    ⟨branch, restaurant, drafts, w₁, _, _, _, _, htx, hbroadcast⟩
  have hkept : w'.db = w₁.db := by
    have hsame : ((broadcastCheckout env userTenantId dto order) w₁).2.db = w₁.db :=
      broadcastCheckout_db order
    rw [hbroadcast] at hsame
    exact hsame
  -- The transaction: the discount, the order and its queue entry.
  rcases Fallible.bind_eq_ok.mp htx with ⟨discount, s₁, hdiscount, hrest⟩
  rcases applyDiscount_counted hctx hids hdiscount with ⟨hplain, hcounted⟩
  rcases applyDiscount_ok hctx hdiscount with ⟨_, hs₁⟩
  rcases Fallible.bind_eq_ok.mp hrest with ⟨created, s₂, hinsert, hrest₂⟩
  have hdiscountId := storeOrder_discountId hctx hinsert
  rcases insertOrder_ok hctx (attempt_eq_ok.mp hinsert).2 with ⟨_, _, _, _, _, _, hs₂⟩
  rcases Fallible.bind_eq_ok.mp hrest₂ with ⟨queue, s₃, hqueue, hpure⟩
  rcases enqueue_done hctx hqueue with ⟨_, hs₃⟩
  cases hpure
  have hdb : w'.db = { w.db with
      discounts := s₁.db.discounts
      orders := w.db.orders ++ [order]
      kitchenQueues := w.db.kitchenQueues ++ [queueEntry env S userTenantId dto order] } := by
    rw [hkept, hs₃, hs₂, hs₁]
  -- The lines, from what the checkout has accepted.
  rcases createOrder_ok hctx h with ⟨acc, _, hfresh, _⟩
  have hlines : List.Forall₂ LineOf dto.items order.orderItems :=
    forall₂_trans (lineDrafts_forall₂ acc.drafts_eq) acc.storedAs fun _ _ _ hpriced hkept =>
      lineOf_of_lineDraft hpriced hkept
  rw [hdb]
  refine
    { orders := rfl
      fresh := ?_
      lines := hlines
      queue := ⟨_, rfl, rfl⟩
      noDiscount := hplain
      discount := ?_
      others := rfl }
  · rw [List.map_append, List.nodup_append] at hfresh
    intro hmem
    exact hfresh.2.2 order.id hmem order.id (List.mem_singleton_self _) rfl
  · intro code hcode
    rcases hcounted code hcode with ⟨before, d, after, hrows, htenant, hname, hid, hafter⟩
    exact ⟨before, d, after, hrows, htenant, hname, hdiscountId.trans hid, hafter⟩

end Outcome

/-- Whatever fails, a checkout throws exactly when nothing of it is stored.  A checkout that
throws leaves the whole database, and one that returns has stored one order with the requested
lines, one queue entry and, with a code, one use of the discount. -/
theorem createOrder_all_or_nothing (env : CheckoutEnv) (dto : CreateOrderRequestDto)
    (userTenantId : Id) (w : World) (hids : (w.db.discounts.map (·.id)).Nodup) :
    ((∃ e, (createOrder env dto userTenantId w).1 = .error e) ↔
        NothingStored w.db (createOrder env dto userTenantId w).2.db) ∧
      (∀ e, (createOrder env dto userTenantId w).1 = .error e →
        (createOrder env dto userTenantId w).2.db = w.db) ∧
      ∀ order, (createOrder env dto userTenantId w).1 = .ok order →
        Stored env userTenantId dto w.db (createOrder env dto userTenantId w).2.db order := by
  rcases hrun : createOrder env dto userTenantId w with ⟨e | order, w'⟩
  · have hsame := createOrder_throws hrun
    rw [hsame]
    refine ⟨⟨fun _ => ⟨rfl, rfl, rfl⟩, fun _ => ⟨e, rfl⟩⟩, fun _ _ => rfl, ?_⟩
    rintro order ⟨⟩
  · have hstored := createOrder_stores hids hrun
    refine ⟨⟨?_, fun hnothing => ?_⟩, ?_, ?_⟩
    · rintro ⟨e, ⟨⟩⟩
    · have horders := hstored.orders
      rw [hnothing.orders] at horders
      exact absurd horders (by simp)
    · rintro e ⟨⟩
    · rintro order' ⟨⟩
      exact hstored

/-- A guest whose checkouts fail at one step. -/
def guestFailingAt (step : Step) : CheckoutEnv :=
  { guestEnv with fails := fun s => s == step }

/-- A checkout whose ticket is not read for the kitchen returns and has stored its order; one
whose queue entry is not written throws and has stored nothing. -/
theorem soupRequest_all_or_nothing :
    (∃ order w', createOrder (guestFailingAt .ticketRead) soupRequest "tenant-a"
        { db := soupMenu } = (.ok order, w') ∧
      Stored (guestFailingAt .ticketRead) "tenant-a" soupRequest soupMenu w'.db order) ∧
    NothingStored soupMenu (createOrder (guestFailingAt .queue) soupRequest "tenant-a"
      { db := soupMenu }).2.db := by
  have hids : (soupMenu.discounts.map (·.id)).Nodup := by decide
  constructor
  · have hok : (createOrder (guestFailingAt .ticketRead) soupRequest "tenant-a"
        { db := soupMenu }).1.toOption.any (fun _ => true) = true := by decide +kernel
    rcases Fallible.returned_of_any hok with ⟨order, w', hrun, _⟩
    have hstored := (createOrder_all_or_nothing (guestFailingAt .ticketRead) soupRequest
      "tenant-a" { db := soupMenu } hids).2.2 order (by rw [hrun])
    rw [hrun] at hstored
    exact ⟨order, w', hrun, hstored⟩
  · have hfails : (createOrder (guestFailingAt .queue) soupRequest "tenant-a"
        { db := soupMenu }).1.toOption.isNone = true := by decide +kernel
    refine (createOrder_all_or_nothing (guestFailingAt .queue) soupRequest "tenant-a"
      { db := soupMenu } hids).1.mp ?_
    rcases hrun : (createOrder (guestFailingAt .queue) soupRequest "tenant-a"
      { db := soupMenu }).1 with e | order
    · exact ⟨e, rfl⟩
    · rw [hrun] at hfails
      cases hfails

end OrderService
end Eleva
