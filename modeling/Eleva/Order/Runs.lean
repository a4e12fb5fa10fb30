import Eleva.Foundation.Machine
import Eleva.Order.Status

/-!
# Order - Runs of calls

The order service as a machine whose actions are checkouts, status updates and
cancellations, executed one at a time, each with its own surroundings and failures.

Main results:

- Definition {lit}`orderService`: the machine.
- Theorem {lit}`orderService_effect`: what one call can do to the database.
-/

namespace Eleva
namespace OrderService

open Foundation Database

/-! ## Invoices -/

section Invoices

variable {env : StatusEnv} {S : Option Id}

/-- Resolving the names on an invoice always returns and changes nothing. -/
theorem resolveParties_returns (hctx : env.context.Sees S) (order : Order) (w : World) :
    ∃ parties, resolveParties env order w = (.ok parties, w) := by
  have hcustomer : Fallible.Keeps (fun s => s = w) (resolveCustomer env order) := by
    unfold resolveCustomer
    cases orNull order.customerId with
    | none => exact Fallible.Keeps.pure _
    | some customerId =>
        have hm : prisma.customer.model ∉ unscopedModels := by decide
        refine Fallible.Keeps.bind (attempt_keeps _ (Fallible.Keeps.of_unchanged fun s => ?_))
          fun _ => Fallible.Keeps.pure _
        rw [TableOf.run_delegate_findUnique hctx hm rfl]
  have hbranch : ∀ parties, Fallible.Keeps (fun s => s = w) (resolveBranch env order parties) := by
    intro parties
    have hm : prisma.branch.model ∉ unscopedModels := by decide
    refine Fallible.Keeps.bind (attempt_keeps _ (Fallible.Keeps.of_unchanged fun s => ?_))
      fun branch => ?_
    · rw [TableOf.run_delegate_findUnique hctx hm rfl]
    · cases branch with
      | none => exact Fallible.Keeps.pure _
      | some branch =>
          exact Fallible.Keeps.bind (Fallible.Keeps.reads _) fun _ => Fallible.Keeps.pure _
  have hnames := Fallible.Keeps.bind hcustomer fun customerName =>
    Fallible.Keeps.orElse (hbranch { customerName, branchName := order.branchId })
      (Fallible.Keeps.pure (ε := AppError)
        ({ customerName, branchName := order.branchId } : Parties))
  unfold resolveParties
  rcases Fallible.orElse_pure_returns (do
      let customerName ← resolveCustomer env order
      Fallible.orElse (resolveBranch env order { customerName, branchName := order.branchId })
        (pure { customerName, branchName := order.branchId }))
      ({ branchName := order.branchId } : Parties) w with ⟨parties, hparties⟩
  exact ⟨parties, hparties.trans (congrArg _ hnames.state_eq)⟩

/-- Rendering and storing an invoice always returns and changes nothing. -/
theorem renderAndStoreInvoicePdf_returns (env : StatusEnv) (order : Order) (parties : Parties)
    (w : World) :
    ∃ url, renderAndStoreInvoicePdf env order parties w = (.ok url, w) := by
  unfold renderAndStoreInvoicePdf
  cases env.invoiceServices with
  | false => exact ⟨_, rfl⟩
  | true =>
      have hkeeps : ∀ {data : InvoicePdfData} {number : String},
          Fallible.Keeps (fun s => s = w) (do
            let pdf ← attempt (env.fails .renderPdf) (pure (env.generate data))
            storePdf env order.tenantId number pdf) := by
        intro data number
        refine Fallible.Keeps.bind (attempt_keeps _ (Fallible.Keeps.pure _)) fun pdf => ?_
        exact attempt_keeps _ (Fallible.Keeps.pure _)
      rcases Fallible.orElse_pure_returns _ _ w with ⟨url, hurl⟩
      exact ⟨url, hurl.trans (congrArg _ hkeeps.state_eq)⟩

/-- The row of the invoice of an order. -/
def invoiceRow (env : StatusEnv) (S : Option Id) (order : Order) (pdfUrl : String) : Invoice :=
  invoiceRepository.created env.toEnv S (invoicePayload env order pdfUrl)

@[simp]
theorem invoiceRow_orderId (order : Order) (pdfUrl : String) :
    (invoiceRow env S order pdfUrl).orderId = order.id := by
  cases S <;> rfl

@[simp]
theorem invoiceRow_id (order : Order) (pdfUrl : String) :
    (invoiceRow env S order pdfUrl).id = env.uuid 0 := by
  cases S <;> rfl

@[simp]
theorem invoiceRow_invoiceNumber (order : Order) (pdfUrl : String) :
    (invoiceRow env S order pdfUrl).invoiceNumber = invoiceNumberOf env := by
  cases S <;> rfl

/-- The invoice table accepts rows with different ids, orders and numbers. -/
theorem invoices_accepts {rows rows' : List Invoice} :
    ({ rows := rows, uniqueKeys := invoices.uniqueKeys } : Store Invoice).accepts rows' = true ↔
      (rows'.map (·.id)).Nodup ∧ (rows'.map (·.orderId)).Nodup ∧
        (rows'.map (·.invoiceNumber)).Nodup := by
  have hkey : ∀ key : Invoice → String,
      rows'.filterMap (fun r => some (key r)) = rows'.map key := by
    intro key
    rw [← List.filterMap_eq_map]
    rfl
  simp [Store.accepts, invoices, hkey]

/-- Whether the insert of an invoice passes: its statement does not fail, its tenant is
the one of the scope, and no constraint refuses it. -/
def insertsInvoice (env : StatusEnv) (S : Option Id) (db : Db) (order : Order)
    (pdfUrl : String) : Bool :=
  !env.fails .invoice && !(truthy (some order.tenantId) && some order.tenantId != S) &&
    (({ rows := db.invoices, uniqueKeys := invoices.uniqueKeys } : Store Invoice).accepts
        (db.invoices ++ [invoiceRow env S order pdfUrl]) &&
      (db.invoices.contains (invoiceRow env S order pdfUrl) ||
        db.orders.any fun o => o.id == order.id))

/-- Generating an invoice appends its row, or throws and changes nothing. -/
theorem generateInvoice_eq (hctx : env.context.Sees S) (order : Order) (w : World) :
    ∃ pdfUrl,
      if insertsInvoice env S w.db order pdfUrl then
        generateInvoice env order w = (.ok (invoiceRow env S order pdfUrl),
          { w with db := { w.db with
            invoices := w.db.invoices ++ [invoiceRow env S order pdfUrl] } })
      else ∃ e, generateInvoice env order w = (.error e, w) := by
  rcases resolveParties_returns hctx order w with ⟨parties, hparties⟩
  rcases renderAndStoreInvoicePdf_returns env order parties w with ⟨pdfUrl, hurl⟩
  have hm : invoiceRepository.delegate.model ∉ unscopedModels := by decide
  refine ⟨pdfUrl, ?_⟩
  unfold generateInvoice insertsInvoice
  rw [Fallible.bind_of_ok hparties, Fallible.bind_of_ok hurl]
  cases hfails : env.fails .invoice with
  | true => exact ⟨.failure, rfl⟩
  | false =>
      rw [attempt_false]
      cases hother : (truthy (some order.tenantId) && some order.tenantId != S) with
      | true =>
          have hrun := TableOf.run_refused (t := invoices) (w := w)
            (BaseTenantRepository.create_refused invoiceRepository
              (d := invoicePayload env order pdfUrl) hctx hother _)
          exact ⟨_, Fallible.bind_of_error hrun⟩
      | false =>
          have hrun := TableOf.run_insert (t := invoices) (w := w)
            (BaseTenantRepository.create_apply invoiceRepository
              (d := invoicePayload env order pdfUrl) hctx hm rfl hother _)
          have hreferences : invoices.references w.db (invoiceRow env S order pdfUrl) =
              w.db.orders.any fun o => o.id == order.id := by
            have horderId : (invoiceRow env S order pdfUrl).orderId = order.id :=
              invoiceRow_orderId order pdfUrl
            rw [← horderId]
            rfl
          change _ = if ({ rows := w.db.invoices, uniqueKeys := invoices.uniqueKeys } :
              Store Invoice).accepts (w.db.invoices ++ [invoiceRow env S order pdfUrl]) &&
                (w.db.invoices.contains (invoiceRow env S order pdfUrl) ||
                  invoices.references w.db (invoiceRow env S order pdfUrl)) then _ else _ at hrun
          rw [hreferences] at hrun
          rw [Fallible.bind_apply, hrun]
          simp only [Bool.not_false, Bool.true_and]
          split
          · rfl
          · exact ⟨_, rfl⟩

end Invoices

/-! ## The machine -/

/-- A call of the order service with its surroundings. -/
inductive OrderCall where
  | createOrder (env : CheckoutEnv) (dto : CreateOrderRequestDto) (userTenantId : Id)
  | updateOrderStatus (env : StatusEnv) (id : Id) (status : OrderStatus)
  | cancelOrder (env : StatusEnv) (id : Id)

/-- The tenant context of a call. -/
def OrderCall.context : OrderCall → TenantContext
  | .createOrder env _ _ => env.context
  | .updateOrderStatus env _ _ => env.context
  | .cancelOrder env _ => env.context

/-- The order service, one call at a time. -/
def orderService : Machine OrderCall World (Except AppError Order) where
  step call w :=
    match call with
    | .createOrder env dto userTenantId => createOrder env dto userTenantId w
    | .updateOrderStatus env id status => updateOrderStatus env id status w
    | .cancelOrder env id => cancelOrder env id w

/-- What one call can answer and do to the database. -/
inductive Effect (S : Option Id) (db : Db) : OrderCall → Except AppError Order → Db → Prop where
  | refused (call : OrderCall) (e : AppError) : Effect S db call (.error e) db
  | created {env : CheckoutEnv} {dto : CreateOrderRequestDto} {userTenantId : Id} {order : Order}
      (acc : Accepted env S userTenantId dto db order) (queue : KitchenQueue)
      (ids : ((db.orders ++ [order]).map (·.id)).Nodup) :
      Effect S db (.createOrder env dto userTenantId) (.ok order)
        { db with
          discounts := discountsAfter S acc.discount.2 db.discounts
          orders := db.orders ++ [order]
          kitchenQueues := db.kitchenQueues ++ [queue] }
  | moved {env : StatusEnv} {id : Id} {status : OrderStatus} {target : Order}
      (found : ownOrder db S id = some target)
      (edge : status ∈ allowedTransitions target.status) (unfinished : status ≠ .COMPLETED) :
      Effect S db (.updateOrderStatus env id status) (.ok { target with status := status })
        { db with orders := setStatus S id status db.orders }
  | cancelled {env : StatusEnv} {id : Id} {target : Order}
      (found : ownOrder db S id = some target) (unfinished : target.status ≠ .COMPLETED) :
      Effect S db (.cancelOrder env id) (.ok { target with status := .CANCELLED })
        { db with orders := setStatus S id .CANCELLED db.orders }
  | completed {env : StatusEnv} {id : Id} {target : Order} {pdfUrl : String}
      (found : ownOrder db S id = some target) (ready : target.status = .READY)
      (inserts : insertsInvoice env S { db with orders := setStatus S id .COMPLETED db.orders }
        { target with status := .COMPLETED } pdfUrl = true) :
      Effect S db (.updateOrderStatus env id .COMPLETED)
        (.ok { target with status := .COMPLETED })
        { db with
          orders := setStatus S id .COMPLETED db.orders
          invoices := db.invoices ++
            [invoiceRow env S { target with status := .COMPLETED } pdfUrl] }
  | uninvoiced {env : StatusEnv} {id : Id} {target : Order} {pdfUrl : String} {e : AppError}
      (found : ownOrder db S id = some target) (ready : target.status = .READY)
      (passed : env.fails .read = false ∧ env.fails .reread = false ∧ env.fails .write = false)
      (inserts : insertsInvoice env S { db with orders := setStatus S id .COMPLETED db.orders }
        { target with status := .COMPLETED } pdfUrl = false) :
      Effect S db (.updateOrderStatus env id .COMPLETED) (.error e)
        { db with orders := setStatus S id .COMPLETED db.orders }

section Effects

variable {S : Option Id}

/-- Only a ready order can be completed. -/
theorem ready_of_completed_mem {status : OrderStatus}
    (h : OrderStatus.COMPLETED ∈ allowedTransitions status) : status = .READY := by
  cases status <;> simp [allowedTransitions] at h
  rfl

/-- Broadcasting a status always returns and leaves the database. -/
theorem emitStatus_returns (env : StatusEnv) (event : String) (order : Order) (w : World) :
    ∃ w', emitStatus env event order w = (.ok (), w') ∧ w'.db = w.db := by
  have hemit : Fallible.Keeps (fun s : World => s.db = w.db) (attempt (env.fails .broadcast)
      (emitKdsEvent env.kdsGateway order.tenantId order.branchId event order)) := by
    refine attempt_keeps _ ?_
    unfold emitKdsEvent
    exact Fallible.Keeps.ite (fun _ => Fallible.Keeps.modify fun s hs => hs)
      fun _ => Fallible.Keeps.pure _
  rcases Fallible.orElse_pure_returns (attempt (env.fails .broadcast)
    (emitKdsEvent env.kdsGateway order.tenantId order.branchId event order)) () w with
    ⟨_, hreturn⟩
  exact ⟨_, hreturn, hemit w rfl⟩

theorem updateOrderStatus_effect {env : StatusEnv} (hctx : env.context.Sees S) (id : Id)
    (status : OrderStatus) (w : World) :
    Effect S w.db (.updateOrderStatus env id status) (updateOrderStatus env id status w).1
      (updateOrderStatus env id status w).2.db := by
  unfold updateOrderStatus
  cases hread : readAndCheck env id (fun current => validateStateTransition current status) w with
  | mk result w₁ =>
      have hsame : w₁ = w := by
        have hkeeps := (readAndCheck_keeps (w := w) hctx id
          fun current => validateStateTransition current status).state_eq
        rw [hread] at hkeeps
        exact hkeeps
      subst hsame
      cases result with
      | error e =>
          rw [Fallible.bind_of_error hread]
          exact .refused _ _
      | ok current =>
          have hpassed := readAndCheck_passed hread
          rcases (readAndCheck_ok hctx hread).2 with ⟨order, horder, hcheck, rfl⟩
          have hedge : status ∈ allowedTransitions order.status := by
            by_contra hno
            simp [validateStateTransition, hno] at hcheck
          rw [Fallible.bind_of_ok hread]
          cases hchange : changeStatus env id status w₁ with
          | mk result w₂ =>
              cases result with
              | error e =>
                  rw [Fallible.bind_of_error hchange, changeStatus_error hctx hchange]
                  exact .refused _ _
              | ok updated =>
                  have hpassed' := changeStatus_passed hctx hchange
                  rw [Fallible.bind_of_ok hchange]
                  rcases changeStatus_ok hctx hchange with ⟨target, htarget, rfl, rfl⟩
                  rw [horder] at htarget
                  cases htarget
                  by_cases hcompleted : status = .COMPLETED
                  · subst hcompleted
                    have hready := ready_of_completed_mem hedge
                    rw [if_pos rfl]
                    rcases generateInvoice_eq hctx { order with status := .COMPLETED }
                      { w₁ with db := { w₁.db with
                        orders := setStatus S id .COMPLETED w₁.db.orders } } with
                      ⟨pdfUrl, hinvoice⟩
                    split at hinvoice <;> rename_i hinserts
                    · rw [Fallible.bind_of_ok hinvoice]
                      beta_reduce
                      rcases emitStatus_returns env (mapStatusToEvent .COMPLETED)
                        { order with status := .COMPLETED } _ with ⟨w₃, hemit, hdb⟩
                      rw [Fallible.bind_of_ok hemit, Fallible.pure_apply, hdb]
                      exact .completed horder hready hinserts
                    · rcases hinvoice with ⟨e, hinvoice⟩
                      rw [Fallible.bind_of_error hinvoice]
                      exact .uninvoiced horder hready ⟨hpassed, hpassed'⟩
                        (by simpa using hinserts)
                  · rw [if_neg hcompleted]
                    beta_reduce
                    rcases emitStatus_returns env (mapStatusToEvent status)
                      { order with status := status } _ with ⟨w₃, hemit, hdb⟩
                    rw [Fallible.bind_of_ok hemit, Fallible.pure_apply, hdb]
                    exact .moved horder hedge hcompleted

theorem cancelOrder_effect {env : StatusEnv} (hctx : env.context.Sees S) (id : Id)
    (w : World) :
    Effect S w.db (.cancelOrder env id) (cancelOrder env id w).1 (cancelOrder env id w).2.db := by
  unfold cancelOrder
  cases hread : readAndCheck env id validateCancellation w with
  | mk result w₁ =>
      have hsame : w₁ = w := by
        have hkeeps := (readAndCheck_keeps (w := w) hctx id validateCancellation).state_eq
        rw [hread] at hkeeps
        exact hkeeps
      subst hsame
      cases result with
      | error e =>
          rw [Fallible.bind_of_error hread]
          exact .refused _ _
      | ok current =>
          rcases (readAndCheck_ok hctx hread).2 with ⟨order, horder, hcheck, rfl⟩
          have hopen : order.status ≠ .COMPLETED := by
            intro hcompleted
            simp [validateCancellation, hcompleted] at hcheck
          rw [Fallible.bind_of_ok hread]
          cases hchange : changeStatus env id .CANCELLED w₁ with
          | mk result w₂ =>
              cases result with
              | error e =>
                  rw [Fallible.bind_of_error hchange, changeStatus_error hctx hchange]
                  exact .refused _ _
              | ok updated =>
                  rw [Fallible.bind_of_ok hchange]
                  rcases changeStatus_ok hctx hchange with ⟨target, htarget, rfl, rfl⟩
                  rw [horder] at htarget
                  cases htarget
                  rcases emitStatus_returns env "order.cancelled"
                    { order with status := .CANCELLED } _ with ⟨w₃, hemit, hdb⟩
                  rw [Fallible.bind_of_ok hemit, Fallible.pure_apply, hdb]
                  exact .cancelled horder hopen

/-- What one call of the service does. -/
theorem orderService_effect {call : OrderCall} (hctx : call.context.Sees S) (w : World) :
    Effect S w.db call (orderService.step call w).1 (orderService.step call w).2.db := by
  cases call with
  | updateOrderStatus env id status => exact updateOrderStatus_effect hctx id status w
  | cancelOrder env id => exact cancelOrder_effect hctx id w
  | createOrder env dto userTenantId =>
      change Effect S w.db _ (createOrder env dto userTenantId w).1
        (createOrder env dto userTenantId w).2.db
      cases hrun : createOrder env dto userTenantId w with
      | mk result w' =>
          cases result with
          | error e =>
              rw [createOrder_error hctx hrun]
              exact .refused _ _
          | ok order =>
              rcases createOrder_ok hctx hrun with ⟨acc, queue, hids, hdb⟩
              simp only [hdb]
              exact .created acc queue hids

end Effects

end OrderService
end Eleva
