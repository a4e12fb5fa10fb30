import Eleva.Order.Lifecycle
import Eleva.Order.Runs
import Eleva.Order.Totals

/-!
# Order - Completion and invoicing

The status write of a completed order and the insert of its invoice are two statements
outside any transaction.  A run keeps one invoice for each completed order, and none for
any other, as long as every insert that a completion gets to goes through.

Main results:

- Theorem {lit}`orderService_invoices_completed`: over every run of calls, whatever
  fails, under that condition.
- Theorem {lit}`completed_without_invoice`: a failing insert leaves a completed order
  without an invoice.
-/

namespace Eleva
namespace OrderService

open Foundation Database

/-! ## Invoices of orders -/

/-- How many invoices an order has. -/
def invoicesOf (db : Db) (orderId : Id) : ℕ :=
  db.invoices.countP fun invoice => invoice.orderId == orderId

/-- Every completed order has exactly one invoice, and every other order has none. -/
def Invoiced (db : Db) : Prop :=
  ∀ order ∈ db.orders, invoicesOf db order.id = if order.status = .COMPLETED then 1 else 0

instance (db : Db) : Decidable (Invoiced db) :=
  inferInstanceAs (Decidable (∀ order ∈ db.orders,
    invoicesOf db order.id = if order.status = .COMPLETED then 1 else 0))

/-- The constraints of the schema on orders and invoices. -/
structure InvoicesValid (db : Db) : Prop where
  orderIds : (db.orders.map (·.id)).Nodup
  ids : (db.invoices.map (·.id)).Nodup
  numbers : (db.invoices.map (·.invoiceNumber)).Nodup
  orders : (db.invoices.map (·.orderId)).Nodup
  references : ∀ invoice ∈ db.invoices, invoice.orderId ∈ db.orders.map (·.id)

/-- A call throws only without having changed orders and invoices. -/
def ThrowsClean (call : OrderCall) (w : World) : Prop :=
  ∀ e, (orderService.step call w).1 = .error e →
    (orderService.step call w).2.db.orders = w.db.orders ∧
      (orderService.step call w).2.db.invoices = w.db.invoices

/-- Where the call gets to insert an invoice, the insert goes through: the call runs in a
tenant, the statement does not fail, and the generated id and the drawn number are not
taken. -/
def InvoiceGoesThrough (call : OrderCall) (w : World) : Prop :=
  match call with
  | .updateOrderStatus env id .COMPLETED =>
      ∀ S, env.context.Sees S → ∀ order, ownOrder w.db S id = some order →
        order.status = .READY → env.fails .read = false → env.fails .reread = false →
        env.fails .write = false →
        S.isSome = true ∧ env.fails .invoice = false ∧
          ∀ invoice ∈ w.db.invoices,
            invoice.id ≠ env.uuid 0 ∧ invoice.invoiceNumber ≠ invoiceNumberOf env
  | _ => True

/-! ## One status write -/

section Writes

variable {db : Db} {S : Option Id} {id : Id} {target : Order}

/-- In a table with unique ids, the order with the id is the one found. -/
theorem eq_of_ownOrder (hids : (db.orders.map (·.id)).Nodup)
    (hfound : ownOrder db S id = some target) {order : Order} (horder : order ∈ db.orders)
    (hid : order.id = id) : order = target := by
  rcases ownOrder_spec hfound with ⟨hmem, htarget, _⟩
  exact List.inj_on_of_nodup_map hids horder hmem (hid.trans htarget.symm)

/-- Invoices counted for every order after a status write, when the invoices of the
written order are counted for its new status and the others are as before. -/
theorem invoiced_setStatus {status : OrderStatus} {invoices' : List Invoice}
    (hids : (db.orders.map (·.id)).Nodup) (h : Invoiced db)
    (hfound : ownOrder db S id = some target)
    (hwritten : invoices'.countP (fun invoice => invoice.orderId == id) =
      if status = .COMPLETED then 1 else 0)
    (hothers : ∀ orderId, orderId ≠ id →
      invoices'.countP (fun invoice => invoice.orderId == orderId) = invoicesOf db orderId) :
    Invoiced { db with orders := setStatus S id status db.orders, invoices := invoices' } := by
  intro order horder
  rcases List.mem_map.mp horder with ⟨before, hbefore, rfl⟩
  by_cases hid : before.id = id
  · have hsame : before = target := eq_of_ownOrder hids hfound hbefore hid
    have hvisible : visible S before = true := hsame ▸ (ownOrder_spec hfound).2.2
    simp only [hid, beq_self_eq_true, hvisible, Bool.and_self, if_true]
    exact hwritten
  · have hne : (id == before.id) = false := by simpa using fun heq => hid heq.symm
    simp only [hne, Bool.false_and, Bool.false_eq_true, if_false]
    exact (hothers before.id hid).trans (h before hbefore)

/-- A status write keeps the constraints. -/
theorem InvoicesValid.setStatus (h : InvoicesValid db) (S : Option Id) (id : Id)
    (status : OrderStatus) :
    InvoicesValid { db with orders := setStatus S id status db.orders } where
  orderIds := (setStatus_map_id S id status db.orders).symm ▸ h.orderIds
  ids := h.ids
  numbers := h.numbers
  orders := h.orders
  references := (setStatus_map_id S id status db.orders).symm ▸ h.references

/-- The invoices after an insert that the constraints let through. -/
theorem InvoicesValid.insert {env : StatusEnv} {order : Order} {pdfUrl : String}
    (h : InvoicesValid db) (horder : order.id ∈ db.orders.map (·.id))
    (hinserts : insertsInvoice env S db order pdfUrl = true) :
    InvoicesValid { db with invoices := db.invoices ++ [invoiceRow env S order pdfUrl] } := by
  simp only [insertsInvoice, Bool.and_eq_true] at hinserts
  rcases invoices_accepts.mp hinserts.2.1 with ⟨hid, horderId, hnumber⟩
  refine ⟨h.orderIds, hid, hnumber, horderId, ?_⟩
  intro invoice hinvoice
  rcases List.mem_append.mp hinvoice with hold | hnew
  · exact h.references invoice hold
  · rcases List.mem_singleton.mp hnew with rfl
    rw [invoiceRow_orderId]
    exact horder

end Writes

/-! ## One call -/

section Step

variable {S : Option Id} {call : OrderCall} {w : World}

/-- An order that is not completed has no invoice. -/
theorem Invoiced.zero {db : Db} (h : Invoiced db) {order : Order} (horder : order ∈ db.orders)
    (hstatus : order.status ≠ .COMPLETED) : invoicesOf db order.id = 0 := by
  rw [h order horder, if_neg hstatus]

/-- A status write between statuses other than COMPLETED keeps the invoices counted. -/
theorem Invoiced.setStatus {db : Db} {id : Id} {status : OrderStatus} {target : Order}
    (h : Invoiced db) (hids : (db.orders.map (·.id)).Nodup)
    (hfound : ownOrder db S id = some target) (hbefore : target.status ≠ .COMPLETED)
    (hafter : status ≠ .COMPLETED) :
    Invoiced { db with orders := setStatus S id status db.orders } := by
  rcases ownOrder_spec hfound with ⟨hmem, hid, _⟩
  refine invoiced_setStatus hids h hfound ?_ fun _ _ => rfl
  rw [if_neg hafter, ← hid]
  exact h.zero hmem hbefore

/-- A new pending order has a fresh id, so no invoice. -/
theorem Invoiced.created {db : Db} {order : Order} {discounts : List Discount}
    {queues : List KitchenQueue} (h : Invoiced db) (hvalid : InvoicesValid db)
    (hids : ((db.orders ++ [order]).map (·.id)).Nodup) (hpending : order.status = .PENDING) :
    Invoiced { db with
      discounts := discounts, orders := db.orders ++ [order], kitchenQueues := queues } := by
  intro other hother
  rcases List.mem_append.mp hother with hold | hnew
  · exact h other hold
  · rcases List.mem_singleton.mp hnew with rfl
    rw [hpending, if_neg (by decide)]
    change db.invoices.countP _ = 0
    rw [List.countP_eq_zero]
    intro invoice hinvoice heq
    have hreferenced := hvalid.references invoice hinvoice
    rw [beq_iff_eq.mp heq] at hreferenced
    rw [List.map_append, List.nodup_append] at hids
    exact hids.2.2 _ hreferenced _ (by simp) rfl

theorem InvoicesValid.created {db : Db} {order : Order} {discounts : List Discount}
    {queues : List KitchenQueue} (h : InvoicesValid db)
    (hids : ((db.orders ++ [order]).map (·.id)).Nodup) :
    InvoicesValid { db with
      discounts := discounts, orders := db.orders ++ [order], kitchenQueues := queues } where
  orderIds := hids
  ids := h.ids
  numbers := h.numbers
  orders := h.orders
  references invoice hinvoice := by
    rw [List.map_append]
    exact List.mem_append_left _ (h.references invoice hinvoice)

/-- Where the condition holds, the insert of a completion passes. -/
theorem insertsInvoice_of_goesThrough {env : StatusEnv} {id : Id} {target : Order}
    {pdfUrl : String} (hctx : env.context.Sees S) (hvalid : InvoicesValid w.db)
    (h : Invoiced w.db) (hfound : ownOrder w.db S id = some target)
    (hready : target.status = .READY)
    (hpassed : env.fails .read = false ∧ env.fails .reread = false ∧ env.fails .write = false)
    (hgoes : InvoiceGoesThrough (.updateOrderStatus env id .COMPLETED) w) :
    insertsInvoice env S { w.db with orders := setStatus S id .COMPLETED w.db.orders }
      { target with status := .COMPLETED } pdfUrl = true := by
  rcases hgoes S hctx target hfound hready hpassed.1 hpassed.2.1 hpassed.2.2 with
    ⟨hsome, hfails, hfresh⟩
  rcases Option.isSome_iff_exists.mp hsome with ⟨T, rfl⟩
  rcases ownOrder_spec hfound with ⟨hmem, hid, hvisible⟩
  have htenant : some target.tenantId = some T := by
    simpa [visible, owned, TenantRow.tenantId] using hvisible
  have hnone : ∀ invoice ∈ w.db.invoices, invoice.orderId ≠ target.id := by
    have hcount := h.zero hmem (by rw [hready]; decide)
    unfold invoicesOf at hcount
    rw [List.countP_eq_zero] at hcount
    intro invoice hinvoice heq
    exact hcount invoice hinvoice (by simpa using heq)
  have hnodup : ∀ (key : Invoice → String) (value : String),
      (w.db.invoices.map key).Nodup → (∀ invoice ∈ w.db.invoices, key invoice ≠ value) →
      key (invoiceRow env (some T) { target with status := .COMPLETED } pdfUrl) = value →
      ((w.db.invoices ++
        [invoiceRow env (some T) { target with status := .COMPLETED } pdfUrl]).map key).Nodup := by
    intro key value hkeys hother hvalue
    rw [List.map_append, List.map_singleton, hvalue, List.nodup_append]
    refine ⟨hkeys, List.nodup_singleton _, ?_⟩
    intro a ha b hb
    rcases List.mem_map.mp ha with ⟨invoice, hinvoice, rfl⟩
    rcases List.mem_singleton.mp hb with rfl
    exact hother invoice hinvoice
  have haccepts : ({ rows := w.db.invoices, uniqueKeys := invoices.uniqueKeys } :
      Store Invoice).accepts (w.db.invoices ++
        [invoiceRow env (some T) { target with status := .COMPLETED } pdfUrl]) = true :=
    invoices_accepts.mpr
      ⟨hnodup (·.id) _ hvalid.ids (fun i hi => (hfresh i hi).1) (invoiceRow_id _ _),
      hnodup (·.orderId) _ hvalid.orders hnone (invoiceRow_orderId _ _),
      hnodup (·.invoiceNumber) _ hvalid.numbers (fun i hi => (hfresh i hi).2)
        (invoiceRow_invoiceNumber _ _)⟩
  have hstored : (setStatus (some T) id .COMPLETED w.db.orders).any
      (fun o => o.id == target.id) = true := by
    rw [List.any_eq_true]
    have hids := setStatus_map_id (some T) id .COMPLETED w.db.orders
    have hin : target.id ∈ (setStatus (some T) id .COMPLETED w.db.orders).map (·.id) := by
      rw [hids]
      exact List.mem_map_of_mem hmem
    rcases List.mem_map.mp hin with ⟨order, horder, heq⟩
    exact ⟨order, horder, by simpa using heq⟩
  simp [insertsInvoice, hfails, htenant, haccepts, hstored]

/-- One call that meets the condition keeps one invoice for each completed order, and
throws without having changed anything. -/
theorem call_invoices (hctx : call.context.Sees S) (hvalid : InvoicesValid w.db)
    (h : Invoiced w.db) (hgoes : InvoiceGoesThrough call w) :
    InvoicesValid (orderService.step call w).2.db ∧ Invoiced (orderService.step call w).2.db ∧
      ThrowsClean call w := by
  have heffect := orderService_effect hctx w
  unfold ThrowsClean
  generalize (orderService.step call w).1 = result at heffect ⊢
  generalize (orderService.step call w).2.db = db' at heffect ⊢
  cases heffect with
  | refused => exact ⟨hvalid, h, fun _ _ => ⟨rfl, rfl⟩⟩
  | created acc queue ids =>
      exact ⟨hvalid.created ids, h.created hvalid ids acc.pending, fun _ herror => by cases herror⟩
  | moved found edge unfinished =>
      refine ⟨hvalid.setStatus S _ _, h.setStatus hvalid.orderIds found ?_ unfinished,
        fun _ herror => by cases herror⟩
      intro hcompleted
      rw [hcompleted] at edge
      cases edge
  | cancelled found unfinished =>
      exact ⟨hvalid.setStatus S _ _, h.setStatus hvalid.orderIds found unfinished (by decide),
        fun _ herror => by cases herror⟩
  | @completed env id target pdfUrl found ready inserts =>
      rcases ownOrder_spec found with ⟨hmem, hid, _⟩
      have hin : target.id ∈ (setStatus S id .COMPLETED w.db.orders).map (·.id) := by
        rw [setStatus_map_id]
        exact List.mem_map_of_mem hmem
      refine ⟨(hvalid.setStatus S id .COMPLETED).insert hin inserts, ?_,
        fun _ herror => by cases herror⟩
      refine invoiced_setStatus hvalid.orderIds h found ?_ fun orderId hother => ?_
      · have hzero := h.zero hmem (by rw [ready]; decide)
        rw [hid] at hzero
        unfold invoicesOf at hzero
        simp [List.countP_append, hzero, hid]
      · have hne : (id == orderId) = false := by simpa using fun heq => hother heq.symm
        simp [invoicesOf, List.countP_append, hid, hne]
  | uninvoiced found ready passed inserts =>
      rw [insertsInvoice_of_goesThrough hctx hvalid h found ready passed hgoes] at inserts
      cases inserts

end Step

/-- Over every run of checkouts, status updates and cancellations, whatever fails in it:
if every insert of an invoice that a call gets to goes through, then after every call each
completed order has exactly one invoice and every other order none, and a call that
throws leaves orders and invoices as they were. -/
theorem orderService_invoices_completed (calls : List OrderCall) (w : World)
    (hctx : ∀ call ∈ calls, ∃ S, call.context.Sees S) (hvalid : InvoicesValid w.db)
    (hstart : Invoiced w.db) (hgoes : orderService.EachStep InvoiceGoesThrough calls w) :
    orderService.EachStep (fun call s => Invoiced (orderService.step call s).2.db ∧
      ThrowsClean call s) calls w := by
  refine orderService.eachStep_of_invariant
    (I := fun s => InvoicesValid s.db ∧ Invoiced s.db) ?_ ⟨hvalid, hstart⟩ hgoes
  intro call hcall s hs hcond
  rcases hctx call hcall with ⟨S, hsees⟩
  rcases call_invoices hsees hs.1 hs.2 hcond with ⟨hvalid', hinvoiced, hclean⟩
  exact ⟨⟨hvalid', hinvoiced⟩, hinvoiced, hclean⟩

/-- One ready order. -/
def readyDb : Db :=
  { pendingDb with orders := pendingDb.orders.map fun order => { order with status := .READY } }

/-- Completing the ready order and trying to cancel it. -/
def completeAndCancel : List OrderCall :=
  [.updateOrderStatus staffEnv "order-1" .COMPLETED, .cancelOrder staffEnv "order-1"]

theorem completeAndCancel_invoiced :
    orderService.EachStep (fun call s => Invoiced (orderService.step call s).2.db ∧
      ThrowsClean call s) completeAndCancel { db := readyDb } := by
  have hvalid : InvoicesValid readyDb :=
    ⟨by decide, by decide, by decide, by decide, by decide⟩
  have hstart : Invoiced readyDb := by decide
  have hctx : ∀ call ∈ completeAndCancel, ∃ S, call.context.Sees S := by
    intro call hcall
    refine ⟨some "tenant-a", ?_⟩
    simp only [completeAndCancel, List.mem_cons, List.not_mem_nil, or_false] at hcall
    rcases hcall with rfl | rfl <;> exact staffEnv_holds
  have hgoes : orderService.EachStep InvoiceGoesThrough completeAndCancel { db := readyDb } := by
    refine ⟨?_, trivial, trivial⟩
    intro S hsees order _ _ _ _ _
    have hscope : S.isSome = true := by
      cases S with
      | none =>
          have htruthy : truthy (some "tenant-a") = false := hsees.1
          exact absurd htruthy (by decide)
      | some T => rfl
    exact ⟨hscope, rfl, by decide⟩
  exact orderService_invoices_completed completeAndCancel { db := readyDb } hctx hvalid hstart hgoes

/-- The insert of the invoice fails. -/
def brokenInvoices : StatusEnv :=
  { staffEnv with fails := fun step => step == .invoice }

/-- A completion whose invoice cannot be stored throws, and leaves a completed order
without an invoice. -/
theorem completed_without_invoice :
    ¬Invoiced (orderService.step (.updateOrderStatus brokenInvoices "order-1" .COMPLETED)
        { db := readyDb }).2.db ∧
      ¬ThrowsClean (.updateOrderStatus brokenInvoices "order-1" .COMPLETED)
        { db := readyDb } := by
  refine ⟨by decide +kernel, fun hclean => ?_⟩
  have hthrows : (orderService.step (.updateOrderStatus brokenInvoices "order-1" .COMPLETED)
      { db := readyDb }).1 = .error .failure := by decide +kernel
  exact absurd (hclean .failure hthrows).1 (by decide +kernel)

end OrderService
end Eleva
