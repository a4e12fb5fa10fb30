import Eleva.Order.CheckoutSpec

/-!
# Order - Status changes

The order service's {lit}`updateOrderStatus` with the invoice it generates on
completion, and {lit}`cancelOrder`.  The status write and the steps of the invoice are
separate statements, outside any transaction.

Main results:

- Definitions {lit}`updateOrderStatus`, {lit}`cancelOrder` and {lit}`generateInvoice`.
- Theorem {lit}`writeStatus_ok`: what writing a status has done.
- Theorem {lit}`generateInvoice_returns`: when generating an invoice returns.
-/

namespace Eleva
namespace OrderService

open Foundation Database

/-! ## The state machine of an order -/

/-- The allowed transitions. -/
def allowedTransitions : OrderStatus → List OrderStatus
  | .DRAFT => [.PENDING, .CANCELLED]
  | .PENDING => [.ACCEPTED, .CANCELLED]
  | .ACCEPTED => [.PREPARING, .CANCELLED]
  | .PREPARING => [.READY, .CANCELLED]
  | .READY => [.COMPLETED, .CANCELLED]
  | .COMPLETED => []
  | .CANCELLED => []

/-- The name of a status in messages. -/
def statusName : OrderStatus → String
  | .DRAFT => "DRAFT"
  | .PENDING => "PENDING"
  | .ACCEPTED => "ACCEPTED"
  | .PREPARING => "PREPARING"
  | .READY => "READY"
  | .COMPLETED => "COMPLETED"
  | .CANCELLED => "CANCELLED"

def forbiddenTransition (current next : OrderStatus) : AppError :=
  .badRequest ("Forbidden transition: Cannot move order from [" ++ statusName current ++
    "] directly to [" ++ statusName next ++ "].")

/-- The transition check of a status update. -/
def validateStateTransition (current next : OrderStatus) : Except AppError Unit :=
  if next ∈ allowedTransitions current then .ok ()
  else .error (forbiddenTransition current next)

def completedOrder : AppError :=
  .conflict "Completed orders cannot be cancelled."

/-- The check of a cancellation. -/
def validateCancellation (current : OrderStatus) : Except AppError Unit :=
  if current = .COMPLETED then .error completedOrder else .ok ()

def orderNotFound (id : Id) : AppError :=
  .notFound ("Order with ID [" ++ id ++ "] was not found.")

/-- The event that a status is broadcast as. -/
def mapStatusToEvent : OrderStatus → String
  | .DRAFT => "order.created"
  | .PENDING => "order.created"
  | .ACCEPTED => "order.accepted"
  | .PREPARING => "order.preparing"
  | .READY => "order.ready"
  | .COMPLETED => "order.completed"
  | .CANCELLED => "order.cancelled"

/-! ## Surroundings -/

/-- What is printed on an invoice. -/
structure InvoicePdfData where
  invoiceNumber : String
  orderNumber : String
  companyName : String
  branchName : String
  customerName : String
  subtotal : ℚ
  taxAmount : ℚ
  discountAmount : ℚ
  total : ℚ
  issuedAt : Timestamp

/-- The statements and side effects of a status change, each of which can fail. -/
inductive StatusStep where
  | read
  | reread
  | write
  | customer
  | branch
  | renderPdf
  | storePdf
  | invoice
  | broadcast
deriving DecidableEq, Repr

/-- What a status change draws from its surroundings: besides the tenant, the generated
ids and the clock, the year and digits of the invoice number, whether the kitchen
gateway and the PDF services are wired, the renderer and the storage, and which steps
fail. -/
structure StatusEnv extends Env where
  year : ℕ
  digits : ℕ
  kdsGateway : Bool := true
  invoiceServices : Bool := true
  generate : InvoicePdfData → List UInt8 := fun _ => []
  upload : String → List UInt8 → String := fun key _ => "/uploads/" ++ key
  fails : StatusStep → Bool := fun _ => false

/-! ## The invoice of a completed order -/

section Invoice

variable (env : StatusEnv)

def invoiceNumberOf : String :=
  "INV-" ++ toString env.year ++ "-" ++ toString env.digits

/-- The display name of a customer. -/
def customerNameOf (customer : Option Customer) : String :=
  match customer with
  | none => "Valued Customer"
  | some customer =>
      let names := [customer.firstName, customer.lastName].filter fun s => s != ""
      let joined := " ".intercalate names
      if joined = "" then "Valued Customer" else joined

/-- The names an invoice is issued to and by. -/
structure Parties where
  customerName : String := "Valued Customer"
  branchName : String
  companyName : String := "Zayjar Restaurant"
deriving DecidableEq, Repr

/-- The customer's name; an order without a customer has the default. -/
def resolveCustomer (order : Order) : Service String :=
  match orNull order.customerId with
  | none => return "Valued Customer"
  | some customerId => do
      let customer ← attempt (env.fails .customer)
        (customers.run (prisma.customer.findUnique env.toEnv { id := some customerId }))
      return customerNameOf customer

/-- The names of the branch and of its restaurant. -/
def resolveBranch (order : Order) (parties : Parties) : Service Parties := do
  let branch ← attempt (env.fails .branch)
    (branches.run (prisma.branch.findUnique env.toEnv { id := some order.branchId }))
  match branch with
  | none => return parties
  | some branch => do
      let name ← Fallible.reads fun w =>
        .ok ((w.db.restaurants.find? fun r => r.id == branch.restaurantId).map (·.name))
      return { parties with
        branchName := branch.name
        companyName := (orNull name).getD parties.companyName }

/-- The names on an invoice: a failed lookup leaves the defaults of what it did not
resolve. -/
def resolveParties (order : Order) : Service Parties :=
  Fallible.orElse
    (do
      let customerName ← resolveCustomer env order
      Fallible.orElse (resolveBranch env order { customerName, branchName := order.branchId })
        (pure { customerName, branchName := order.branchId }))
    (pure { branchName := order.branchId })

/-- The characters that a storage key keeps. -/
def keepsInKey (c : Char) : Bool :=
  c.isAlphanum || c == '.' || c == '_' || c == '-'

/-- Store a rendered invoice under its deterministic key. -/
def storePdf (tenantId invoiceNumber : String) (pdf : List UInt8) : Service String :=
  let sanitizedNumber := String.ofList
    (invoiceNumber.toList.map fun c => if keepsInKey c then c else '_')
  attempt (env.fails .storePdf)
    (pure (env.upload ("invoices/" ++ tenantId ++ "/" ++ sanitizedNumber ++ ".pdf") pdf))

/-- Render and store the invoice; a placeholder URL when either fails. -/
def renderAndStoreInvoicePdf (order : Order) (parties : Parties) : Service String :=
  let placeholder := "https://cdn.zayjar.com/invoices/" ++ invoiceNumberOf env ++ ".pdf"
  if env.invoiceServices then
    Fallible.orElse
      (do
        let pdf ← attempt (env.fails .renderPdf) (pure (env.generate {
          invoiceNumber := invoiceNumberOf env
          orderNumber := order.orderNumber
          companyName := parties.companyName
          branchName := parties.branchName
          customerName := parties.customerName
          subtotal := order.subtotal.toNumber
          taxAmount := order.taxAmount.toNumber
          discountAmount := order.discountAmount.toNumber
          total := order.total.toNumber
          issuedAt := env.now }))
        storePdf env order.tenantId (invoiceNumberOf env) pdf)
      (pure placeholder)
  else pure placeholder

/-- The row of an invoice. -/
def invoicePayload (order : Order) (pdfUrl : String) : Payload Invoice where
  tenantId := some (some order.tenantId)
  assign blank :=
    { blank with orderId := order.id, invoiceNumber := invoiceNumberOf env, pdfUrl := pdfUrl }

/-- Generate the invoice of a completed order. -/
def generateInvoice (order : Order) : Service Invoice := do
  let parties ← resolveParties env order
  let pdfUrl ← renderAndStoreInvoicePdf env order parties
  let created ← attempt (env.fails .invoice)
    (invoices.run (invoiceRepository.create env.toEnv (invoicePayload env order pdfUrl)))
  match created with
  | some invoice => return invoice
  | none => Fallible.throw .failure

end Invoice

/-! ## The calls -/

section Calls

variable (env : StatusEnv)

/-- Read the order and check the change of its status. -/
def readAndCheck (id : Id) (check : OrderStatus → Except AppError Unit) :
    Service OrderStatus := do
  let order ← attempt (env.fails .read) (orders.run (orderRepository.findById env.toEnv id))
  match order with
  | none => Fallible.throw (orderNotFound id)
  | some order => do
      Fallible.reads fun _ => check order.status
      return order.status

/-- Write the status. -/
def statusPayload (status : OrderStatus) : Payload Order where
  assign order := { order with status := status }

/-- The repository's re-read of the order by its id. -/
def rereadOrder (id : Id) : Service Id := do
  let entity ← attempt (env.fails .reread)
    (orders.run (orderRepository.findFirst env.toEnv { id := some id }))
  match entity with
  | none => Fallible.throw (.client (notFoundError id))
  | some entity => return entity.id

/-- The repository's write of the row. -/
def writeStatus (id : Id) (status : OrderStatus) : Service Order := do
  let updated ← attempt (env.fails .write)
    (orders.run (prisma.order.update env.toEnv { id := some id } (statusPayload status)))
  match updated with
  | none => Fallible.throw .failure
  | some order => return order

/-- The repository's update of the status: the re-read and the write. -/
def changeStatus (id : Id) (status : OrderStatus) : Service Order := do
  let entityId ← rereadOrder env id
  writeStatus env entityId status

/-- Broadcast a status; failures are swallowed. -/
def emitStatus (event : String) (order : Order) : Service Unit :=
  Fallible.orElse
    (attempt (env.fails .broadcast)
      (emitKdsEvent env.kdsGateway order.tenantId order.branchId event order))
    (pure ())

/-- Change the status of an order along the state machine; completion generates its
invoice. -/
def updateOrderStatus (id : Id) (status : OrderStatus) : Service Order := do
  let _ ← readAndCheck env id fun current => validateStateTransition current status
  let updatedOrder ← changeStatus env id status
  if status = .COMPLETED then
    let _ ← generateInvoice env updatedOrder
  emitStatus env (mapStatusToEvent status) updatedOrder
  return updatedOrder

/-- Cancel an order that is not completed. -/
def cancelOrder (id : Id) : Service Order := do
  let _ ← readAndCheck env id validateCancellation
  let cancelledOrder ← changeStatus env id .CANCELLED
  emitStatus env "order.cancelled" cancelledOrder
  return cancelledOrder

end Calls

/-! ## What the steps of a status change do -/

/-- The tenant's order with the id. -/
def ownOrder (db : Db) (S : Option Id) (id : Id) : Option Order :=
  db.orders.find? fun r => id == r.id && visible S r

/-- The orders after a status was written. -/
def setStatus (S : Option Id) (id : Id) (status : OrderStatus) (orders : List Order) : List Order :=
  orders.map fun r => if id == r.id && visible S r then { r with status := status } else r

theorem ownOrder_spec {db : Db} {S : Option Id} {id : Id} {order : Order}
    (h : ownOrder db S id = some order) :
    order ∈ db.orders ∧ order.id = id ∧ visible S order = true := by
  have hmem := List.mem_of_find?_eq_some h
  have hadmits := List.find?_some h
  simp only [Bool.and_eq_true, beq_iff_eq] at hadmits
  exact ⟨hmem, hadmits.1.symm, hadmits.2⟩

section Steps

variable {env : StatusEnv} {S : Option Id} (hctx : env.context.Sees S) {w w' : World}
include hctx

theorem run_findOrder (id : Id) (w : World) :
    orders.run (orderRepository.findFirst env.toEnv { id := some id }) w =
      (.ok (ownOrder w.db S id), w) := by
  have hm : orderRepository.delegate.model ∉ unscopedModels := by decide
  exact TableOf.run_findById_plain hctx hm rfl id w

/-- What a read that passed its check has read. -/
theorem readAndCheck_ok {id : Id} {check : OrderStatus → Except AppError Unit}
    {status : OrderStatus} (h : readAndCheck env id check w = (.ok status, w')) :
    w' = w ∧ ∃ order, ownOrder w.db S id = some order ∧ check order.status = .ok () ∧
      status = order.status := by
  rcases Fallible.bind_eq_ok.mp h with ⟨found, s, hfind, hrest⟩
  have hrun := (attempt_eq_ok.mp hfind).2
  have hread : orders.run (orderRepository.findById env.toEnv id) w =
      (.ok (ownOrder w.db S id), w) := run_findOrder hctx id w
  rw [hread] at hrun
  cases hrun
  cases hrow : ownOrder w.db S id with
  | none =>
      rw [hrow] at hrest
      cases hrest
  | some order =>
      rw [hrow] at hrest
      rcases Fallible.bind_eq_ok.mp hrest with ⟨_, s', hcheck, hpure⟩
      rcases Fallible.reads_eq_ok.mp hcheck with ⟨hok, rfl⟩
      cases hpure
      exact ⟨rfl, order, rfl, hok, rfl⟩

omit hctx in
theorem readAndCheck_passed {id : Id} {check : OrderStatus → Except AppError Unit}
    {status : OrderStatus} (h : readAndCheck env id check w = (.ok status, w')) :
    env.fails .read = false := by
  rcases Fallible.bind_eq_ok.mp h with ⟨found, s, hfind, _⟩
  exact (attempt_eq_ok.mp hfind).1

/-- Reading changes nothing. -/
theorem readAndCheck_keeps (id : Id) (check : OrderStatus → Except AppError Unit) :
    Fallible.Keeps (fun s => s = w) (readAndCheck env id check) := by
  refine Fallible.Keeps.bind (Fallible.Keeps.bind (Fallible.Keeps.throwIf _ _) fun _ => ?_)
    fun found => ?_
  · rintro s rfl
    exact congrArg Prod.snd (run_findOrder hctx id s)
  · cases found with
    | none => exact Fallible.Keeps.throw _
    | some order =>
        exact Fallible.Keeps.bind (Fallible.Keeps.reads _) fun _ => Fallible.Keeps.pure _

/-- What a re-read that found the order has found. -/
theorem rereadOrder_ok {id entityId : Id} (h : rereadOrder env id w = (.ok entityId, w')) :
    w' = w ∧ entityId = id ∧ ∃ order, ownOrder w.db S id = some order := by
  rcases Fallible.bind_eq_ok.mp h with ⟨found, s, hfind, hrest⟩
  have hrun := (attempt_eq_ok.mp hfind).2
  rw [run_findOrder hctx] at hrun
  cases hrun
  cases hrow : ownOrder w.db S id with
  | none =>
      rw [hrow] at hrest
      cases hrest
  | some order =>
      rw [hrow] at hrest
      cases hrest
      exact ⟨rfl, (ownOrder_spec hrow).2.1, order, rfl⟩

/-- Re-reading changes nothing. -/
theorem rereadOrder_keeps (id : Id) :
    Fallible.Keeps (fun s => s = w) (rereadOrder env id) := by
  refine Fallible.Keeps.bind (Fallible.Keeps.bind (Fallible.Keeps.throwIf _ _) fun _ => ?_)
    fun found => ?_
  · rintro s rfl
    exact congrArg Prod.snd (run_findOrder hctx id s)
  · cases found with
    | none => exact Fallible.Keeps.throw _
    | some order => exact Fallible.Keeps.pure _

omit hctx in
/-- The rows that the status update leaves. -/
theorem map_update_eq_setStatus (S : Option Id) (id : Id) (status : OrderStatus)
    (rows : List Order) :
    (rows.map fun r =>
      if (({ id := some id } : Where Order).inScope S).admits prisma.order r then
        (statusPayload status).apply r
      else r) = setStatus S id status rows := by
  unfold setStatus
  apply List.map_congr_left
  intro r _
  rw [Where.admits_inScope _ _ rfl]
  simp [prisma.order, Where.admits, ColumnKey.admits, TenantRow.id, Payload.apply, statusPayload]

omit hctx in
/-- The row that the status update finds. -/
theorem find_update_eq_ownOrder (S : Option Id) (id : Id) (db : Db) :
    db.orders.find? ((({ id := some id } : Where Order).inScope S).admits prisma.order) =
      ownOrder db S id := by
  have hadmits : (({ id := some id } : Where Order).inScope S).admits prisma.order =
      fun r => id == r.id && visible S r := by
    funext r
    rw [Where.admits_inScope _ _ rfl]
    simp [prisma.order, Where.admits, ColumnKey.admits, TenantRow.id]
  unfold ownOrder
  rw [hadmits]

/-- What writing a status has done. -/
theorem writeStatus_ok {id : Id} {status : OrderStatus} {order : Order}
    (h : writeStatus env id status w = (.ok order, w')) :
    env.fails .write = false ∧ ∃ target, ownOrder w.db S id = some target ∧
      order = { target with status := status } ∧
      w' = { w with db := { w.db with orders := setStatus S id status w.db.orders } } := by
  rcases Fallible.bind_eq_ok.mp h with ⟨updated, s, hupdate, hrest⟩
  rcases attempt_eq_ok.mp hupdate with ⟨hfails, hrun⟩
  have hm : prisma.order.model ∉ unscopedModels := by decide
  rcases TableOf.run_update_ok hctx hm rfl rfl hrun with ⟨target, hfound, rfl, rfl⟩
  cases hrest
  refine ⟨hfails, target, ?_, rfl, ?_⟩
  · rw [← find_update_eq_ownOrder]
    exact hfound
  · rw [← map_update_eq_setStatus]
    rfl

/-- A write that throws has changed nothing. -/
theorem writeStatus_error {id : Id} {status : OrderStatus} {e : AppError}
    (h : writeStatus env id status w = (.error e, w')) : w' = w := by
  have hm : prisma.order.model ∉ unscopedModels := by decide
  rcases Fallible.bind_eq_error.mp h with hupdate | ⟨updated, s, hupdate, hrest⟩
  · rcases attempt_error hupdate with hsame | hrun
    · exact hsame
    · refine TableOf.run_error ?_ hrun
      intro e' s hx
      rw [Delegate.update_apply hctx hm rfl rfl] at hx
      split at hx
      · cases hx
        rfl
      · split at hx <;> cases hx
        rfl
  · have hrun := (attempt_eq_ok.mp hupdate).2
    rcases TableOf.run_update_ok hctx hm rfl rfl hrun with ⟨target, _, rfl, _⟩
    cases hrest

/-- What a repository update of the status has done. -/
theorem changeStatus_ok {id : Id} {status : OrderStatus} {order : Order}
    (h : changeStatus env id status w = (.ok order, w')) :
    ∃ target, ownOrder w.db S id = some target ∧ order = { target with status := status } ∧
      w' = { w with db := { w.db with orders := setStatus S id status w.db.orders } } := by
  rcases Fallible.bind_eq_ok.mp h with ⟨entityId, s, hreread, hwrite⟩
  rcases rereadOrder_ok hctx hreread with ⟨rfl, rfl, _⟩
  exact (writeStatus_ok hctx hwrite).2

theorem changeStatus_passed {id : Id} {status : OrderStatus} {order : Order}
    (h : changeStatus env id status w = (.ok order, w')) :
    env.fails .reread = false ∧ env.fails .write = false := by
  rcases Fallible.bind_eq_ok.mp h with ⟨entityId, s, hreread, hwrite⟩
  rcases Fallible.bind_eq_ok.mp hreread with ⟨found, s', hfind, _⟩
  exact ⟨(attempt_eq_ok.mp hfind).1, (writeStatus_ok hctx hwrite).1⟩

theorem changeStatus_error {id : Id} {status : OrderStatus} {e : AppError}
    (h : changeStatus env id status w = (.error e, w')) : w' = w := by
  rcases Fallible.bind_eq_error.mp h with hreread | ⟨entityId, s, hreread, hwrite⟩
  · have hkeep := rereadOrder_keeps (w := w) hctx id w rfl
    rw [hreread] at hkeep
    exact hkeep
  · rcases rereadOrder_ok hctx hreread with ⟨rfl, rfl, _⟩
    exact writeStatus_error hctx hwrite

/-- Without failures, the re-read and the write are the repository's update. -/
theorem changeStatus_eq_update {id : Id} (status : OrderStatus)
    (hreread : env.fails .reread = false) (hwrite : env.fails .write = false) (w : World) :
    changeStatus env id status w =
      (orders.run (orderRepository.update env.toEnv id (statusPayload status)) >>= fun updated =>
        match updated with
        | none => Fallible.throw .failure
        | some order => return order) w := by
  have hm : orderRepository.delegate.model ∉ unscopedModels := by decide
  have hknown : orderRepository.Known { id := some id } S :=
    BaseTenantRepository.known_of_absent S (fun h => by cases h) rfl
  have hfind := run_findOrder hctx id w
  have hlookup := BaseTenantRepository.findFirst_apply hctx hm hknown
    { rows := w.db.orders, uniqueKeys := orders.uniqueKeys }
  have hfirst : w.db.orders.find? ((orderRepository.scopedWhere { id := some id }
      S).admits orderRepository.delegate) = ownOrder w.db S id := by
    have hrun := TableOf.run_findFirst (t := orders) hctx hm hknown w
    rw [hfind] at hrun
    simp only [Prod.mk.injEq, Except.ok.injEq, and_true] at hrun
    exact hrun.symm
  simp only [hfirst] at hlookup
  cases hrow : ownOrder w.db S id with
  | none =>
      rw [hrow] at hlookup hfind
      have hreadNone : rereadOrder env id w = (.error (.client (notFoundError id)), w) := by
        unfold rereadOrder
        rw [hreread, attempt_false, Fallible.bind_of_ok hfind]
        rfl
      have hupdate : orders.run (orderRepository.update env.toEnv id (statusPayload status)) w =
          (.error (.client (notFoundError id)), w) := by
        have hstore : orderRepository.update env.toEnv id (statusPayload status)
            { rows := w.db.orders, uniqueKeys := orders.uniqueKeys } =
              (.error (notFoundError id),
                { rows := w.db.orders, uniqueKeys := orders.uniqueKeys }) := by
          unfold BaseTenantRepository.update BaseTenantRepository.onOwned
          rw [Fallible.bind_of_ok hlookup]
          rfl
        unfold TableOf.run
        simp only [show orders.get w.db = w.db.orders from rfl, hstore]
        rfl
      unfold changeStatus
      rw [Fallible.bind_of_error hreadNone, Fallible.bind_of_error hupdate]
  | some entity =>
      rw [hrow] at hlookup hfind
      have hreadSome : rereadOrder env id w = (.ok entity.id, w) := by
        unfold rereadOrder
        rw [hreread, attempt_false, Fallible.bind_of_ok hfind]
        rfl
      have hupdate : orders.run (orderRepository.update env.toEnv id (statusPayload status)) w =
          orders.run (prisma.order.update env.toEnv { id := some entity.id }
            (statusPayload status)) w := by
        apply TableOf.run_congr
        unfold BaseTenantRepository.update BaseTenantRepository.onOwned
        exact Fallible.bind_of_ok hlookup
      unfold changeStatus
      rw [Fallible.bind_of_ok hreadSome, Fallible.bind_apply, hupdate]
      unfold writeStatus
      rw [hwrite, attempt_false]
      rfl

end Steps

end OrderService
end Eleva
