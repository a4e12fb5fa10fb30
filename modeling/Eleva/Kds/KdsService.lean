import Eleva.Order.Checkout

/-!
# Kds - The kitchen display service

The tickets of a branch and the cooking status of an order item.  {lit}`getTickets` reads the
queue of a branch, raises the priority of the entries that have waited for too long and
broadcasts each change.  {lit}`updateCookingStatus` reads an item, checks the transition,
writes the status, and then stamps the queue entry of the order and broadcasts the item.

An order keeps its items, so the table of the items is a view of the orders: statements
read the items of all orders and put the rewritten ones back.  The creation time of an
order comes from the surroundings.

Main results:

- Definitions {lit}`getTickets` and {lit}`updateCookingStatus`.
- Theorem {lit}`withItems_map`: putting back rewritten items rewrites them in their orders.
- Theorem {lit}`writeItem_cases`: the status write rewrites the item of the tenant that was
  asked for, or throws and changes nothing.
-/

namespace Eleva
namespace KdsService

open Foundation Database OrderService

/-! ## Surroundings -/

/-- The statements and side effects of the service, each of which can fail. -/
inductive KdsStep where
  | branch
  | queues
  | escalate (ticketId : Id)
  | escalated (ticketId : Id)
  | item
  | write
  | order
  | queue
  | stamp
  | broadcast
deriving DecidableEq, Repr

/-- What a call draws from its surroundings: the clock, whether the gateway is wired, the time
at which an order was created, and which steps fail. -/
structure KdsEnv extends Env where
  kdsGateway : Bool := true
  createdAt : Id → Timestamp := fun _ => 0
  fails : KdsStep → Bool := fun _ => false

/-- {lit}`dbTenantContext.run({ tenantId }, …)`. -/
def KdsEnv.inTenant (env : KdsEnv) (tenantId : Id) : Env :=
  { env.toEnv with context := { tenantId := some tenantId } }

/-- Send an event to the displays of a branch, unless an id is missing. -/
def broadcastOrderEvent (tenantId branchId : Id) (event : String) (payload : BroadcastPayload) :
    Service Unit :=
  if tenantId = "" ∨ branchId = "" then pure ()
  else emit ⟨tenantId, branchId, event, payload⟩

/-! ## The items of the orders -/

/-- The rows of the items. -/
def orderItems (db : Db) : List OrderItem :=
  db.orders.flatMap (·.orderItems)

/-- Orders whose items are replaced, in their order, by the rows. -/
def refill : List OrderItem → List Order → List Order
  | _, [] => []
  | rows, order :: orders =>
      { order with orderItems := rows.take order.orderItems.length } ::
        refill (rows.drop order.orderItems.length) orders

def withItems (rows : List OrderItem) (db : Db) : Db :=
  { db with orders := refill rows db.orders }

/-- Run statements on the items. -/
def runItems {α : Type} (x : Fallible (Store OrderItem) ClientError α) : Service α := fun w =>
  match x { rows := orderItems w.db, uniqueKeys := [fun i => some i.id] } with
  | (.error e, s) => (.error (.client e), { w with db := withItems s.rows w.db })
  | (.ok a, s) => (.ok a, { w with db := withItems s.rows w.db })

def orderItemRepository : BaseTenantRepository OrderItem :=
  { delegate := prisma.orderItem }

def kitchenQueueRepository : BaseTenantRepository KitchenQueue :=
  { delegate := prisma.kitchenQueue }

/-! ## The tickets of a branch -/

def activeStatuses : List OrderStatus :=
  [.PENDING, .ACCEPTED, .PREPARING, .READY]

/-- A ticket as the display polls it. -/
structure KitchenTicket where
  ticketId : Id
  orderId : Id
  ticketNumber : String
  priority : String
  elapsedMinutes : Int
  createdAt : Timestamp
  orderStatus : OrderStatus
  items : List TicketItem
deriving DecidableEq, Repr

def branchInaccessible (branchId : Id) : AppError :=
  .notFound ("Branch with ID [" ++ branchId ++
    "] not found or inaccessible under tenant context.")

/-- A line of a ticket with its display names. -/
def ticketLine (db : Db) (item : OrderItem) : TicketItem where
  orderItemId := item.id
  name := (((db.products.find? fun p => p.id == item.productId).map (·.name)).filter
    (fun s => s != "")).getD "Unknown Product"
  quantity := item.quantity
  size := orNull (item.sizeId.bind fun id =>
    (db.productSizes.find? fun s => s.id == id).map (·.name))
  addons := item.orderItemAddons.filterMap fun a =>
    orNull ((db.addonItems.find? fun i => i.id == a.addonItemId).map (·.name))
  cookingStatus := item.cookingStatus

/-- The preparation time of an item's product, or fifteen minutes. -/
def preparationTime (db : Db) (item : OrderItem) : Int :=
  (((db.products.find? fun p => p.id == item.productId).map (·.preparationTime)).filter
    (fun t => t != 0)).getD 15

section Tickets

variable (env : KdsEnv) (branchId tenantId : Id)

/-- The queue entries of a branch whose orders are under way, oldest order first. -/
def activeEntries (db : Db) : List (KitchenQueue × Order) :=
  ((db.kitchenQueues.filter fun q => q.tenantId == tenantId && q.branchId == branchId).filterMap
    fun q => (db.orders.find? fun o => o.id == q.orderId && activeStatuses.contains o.status).map
      fun o => (q, o)).mergeSort fun a b => decide (env.createdAt a.2.id ≤ env.createdAt b.2.id)

def elapsedMinutes (order : Order) : Int :=
  (env.now - env.createdAt order.id) / 60000

/-- An order that waits for longer than its slowest item takes is in a rush. -/
def computedPriority (db : Db) (order : Order) : String :=
  let maxPrepTime := (order.orderItems.map (preparationTime db)).foldl max 15
  if maxPrepTime < elapsedMinutes env order then "RUSH" else "NORMAL"

/-- The data of an escalation. -/
def rushPayload : Payload KitchenQueue where
  assign q := { q with priority := "RUSH" }

/-- Raise the priority of an entry and broadcast the change; failures are swallowed. -/
def escalate (computed : String) (kq : KitchenQueue) : Service Unit :=
  if computed = "RUSH" ∧ kq.priority ≠ "RUSH" then
    Fallible.orElse
      (do
        let _ ← attempt (env.fails (.escalate kq.id))
          (kitchenQueues.run (kitchenQueueRepository.update (env.inTenant tenantId) kq.id
            rushPayload))
        if env.kdsGateway then
          attempt (env.fails (.escalated kq.id))
            (broadcastOrderEvent tenantId branchId "ticket.priority_changed"
              (.priorityChanged kq.id kq.priority "RUSH"))
        else pure ())
      (pure ())
  else pure ()

def ticketOf (db : Db) (kq : KitchenQueue) (order : Order) : KitchenTicket where
  ticketId := kq.id
  orderId := order.id
  ticketNumber := kq.ticketNumber
  priority := computedPriority env db order
  elapsedMinutes := elapsedMinutes env order
  createdAt := env.createdAt order.id
  orderStatus := order.status
  items := order.orderItems.map (ticketLine db)

/-- Escalate the entries one after the other. -/
def escalateAll (db : Db) : List (KitchenQueue × Order) → Service Unit
  | [] => pure ()
  | (kq, order) :: entries => do
      escalate env branchId tenantId (computedPriority env db order) kq
      escalateAll db entries

/-- The active tickets of a branch. -/
def getTickets : Service (List KitchenTicket) := do
  let branch ← attempt (env.fails .branch)
    (branches.run (branchRepository.findById (env.inTenant tenantId) branchId))
  match branch with
  | none => Fallible.throw (branchInaccessible branchId)
  | some _ => do
      let db ← attempt (env.fails .queues) (Fallible.reads fun w => .ok w.db)
      let entries := activeEntries env branchId tenantId db
      escalateAll env branchId tenantId db entries
      return entries.map fun entry => ticketOf env db entry.1 entry.2

end Tickets

/-! ## The cooking status of an item -/

def cookingStatusName : CookingStatus → String
  | .PENDING => "PENDING"
  | .PREPARING => "PREPARING"
  | .COOKED => "COOKED"
  | .SERVED => "SERVED"

/-- The status that a text names. -/
def cookingStatusOf (text : String) : Option CookingStatus :=
  [CookingStatus.PENDING, .PREPARING, .COOKED, .SERVED].find? fun s => cookingStatusName s == text

/-- The allowed transitions. -/
def allowedCooking : CookingStatus → List CookingStatus
  | .PENDING => [.PREPARING, .COOKED, .SERVED]
  | .PREPARING => [.COOKED, .SERVED]
  | .COOKED => [.SERVED]
  | .SERVED => []

def invalidCookingStatus (status : String) : AppError :=
  .badRequest ("Invalid cooking status [" ++ status ++ "].")

def orderItemNotFound (orderItemId : Id) : AppError :=
  .notFound ("Order item with ID [" ++ orderItemId ++ "] not found.")

def forbiddenCooking (current next : CookingStatus) : AppError :=
  .badRequest ("Forbidden cooking transition: Cannot move from [" ++ cookingStatusName current ++
    "] to [" ++ cookingStatusName next ++ "]. Allowed: [" ++
    ", ".intercalate ((allowedCooking current).map cookingStatusName) ++ "]")

/-- The transition check: a status may be written again. -/
def validateCookingTransition (current next : CookingStatus) : Except AppError Unit :=
  if current = next then .ok ()
  else if next ∈ allowedCooking current then .ok ()
  else .error (forbiddenCooking current next)

/-- How far a status is on the way of an item. -/
def cookingRank : CookingStatus → ℕ
  | .PENDING => 0
  | .PREPARING => 1
  | .COOKED => 2
  | .SERVED => 3

/-- The check passes exactly the statuses that are not behind. -/
theorem validateCookingTransition_ok {current next : CookingStatus} :
    validateCookingTransition current next = .ok () ↔ cookingRank current ≤ cookingRank next := by
  cases current <;> cases next <;> simp [validateCookingTransition, allowedCooking, cookingRank]

/-- What is answered for an updated item. -/
structure CookingAnswer where
  orderItemId : Id
  cookingStatus : CookingStatus
  updatedAt : Timestamp
deriving DecidableEq, Repr

section Cooking

variable (env : KdsEnv) (orderItemId tenantId : Id)

/-- The lookup of the item and the check of the transition. -/
def checkItem (status : String) : Service (OrderItem × CookingStatus) :=
  match cookingStatusOf status with
  | none => Fallible.throw (invalidCookingStatus status)
  | some next => do
      let orderItem ← attempt (env.fails .item)
        (runItems (orderItemRepository.findById (env.inTenant tenantId) orderItemId))
      match orderItem with
      | none => Fallible.throw (orderItemNotFound orderItemId)
      | some item => do
          Fallible.reads fun _ => validateCookingTransition item.cookingStatus next
          return (item, next)

/-- The data of a status write. -/
def cookingPayload (next : CookingStatus) : Payload OrderItem where
  assign item := { item with cookingStatus := next }

/-- The status write. -/
def writeItem (next : CookingStatus) : Service OrderItem := do
  let updated ← attempt (env.fails .write)
    (runItems (orderItemRepository.update (env.inTenant tenantId) orderItemId
      (cookingPayload next)))
  match updated with
  | some item => return item
  | none => Fallible.throw .failure

/-- The stamps of a queue entry for a status. -/
def stampPayload (status : CookingStatus) (kq : KitchenQueue) : Payload KitchenQueue where
  assign q :=
    { q with
      startedCookingAt :=
        if status = .PREPARING ∧ kq.startedCookingAt = none then some env.now
        else q.startedCookingAt
      completedCookingAt :=
        if status = .COOKED ∨ status = .SERVED then some env.now else q.completedCookingAt }

/-- Stamp the queue entry of an order; failures are swallowed. -/
def updateKitchenQueueTimestamps (orderId : Id) (status : CookingStatus) : Service Unit :=
  Fallible.orElse
    (do
      let kitchenQueue ← attempt (env.fails .queue)
        (kitchenQueues.run (prisma.kitchenQueue.findFirst (env.inTenant tenantId)
          { rest := fun q => q.orderId == orderId && q.tenantId == tenantId }))
      match kitchenQueue with
      | none => pure ()
      | some kq =>
          if (status = .PREPARING ∧ kq.startedCookingAt = none) ∨ status = .COOKED ∨
              status = .SERVED then do
            let _ ← attempt (env.fails .stamp)
              (kitchenQueues.run (kitchenQueueRepository.update (env.inTenant tenantId) kq.id
                (stampPayload env status kq)))
            pure ()
          else pure ())
    (pure ())

/-- Broadcast an item under both event names; failures are swallowed. -/
def broadcastItem (order : Order) (next : CookingStatus) (updated : OrderItem) : Service Unit :=
  Fallible.orElse
    (if env.kdsGateway then
      attempt (env.fails .broadcast) (do
        broadcastOrderEvent order.tenantId order.branchId "ticket.item_updated"
          (.itemUpdated order.id updated.id none updated.cookingStatus)
        broadcastOrderEvent order.tenantId order.branchId "order.item_updated"
          (.itemUpdated order.id updated.id (some next) updated.cookingStatus))
    else pure ())
    (pure ())

/-- What follows the status write: the order of the item, its queue entry, the broadcasts. -/
def announce (item : OrderItem) (next : CookingStatus) (updated : OrderItem) :
    Service CookingAnswer := do
  let parentOrder ← attempt (env.fails .order) (Fallible.reads fun w =>
    .ok (w.db.orders.find? fun o =>
      o.tenantId == tenantId && o.orderItems.any fun i => i.id == item.id))
  match parentOrder with
  | none => pure ()
  | some order => do
      updateKitchenQueueTimestamps env tenantId order.id next
      broadcastItem env order next updated
  return ⟨updated.id, updated.cookingStatus, env.now⟩

def updateCookingStatus (status : String) : Service CookingAnswer := do
  let (item, next) ← checkItem env orderItemId tenantId status
  let updated ← writeItem env orderItemId tenantId next
  announce env tenantId item next updated

end Cooking

/-! ## What the statements on items do -/

/-- Putting back rewritten items rewrites them in their orders. -/
theorem refill_map (f : OrderItem → OrderItem) (orders : List Order) :
    refill ((orders.flatMap (·.orderItems)).map f) orders =
      orders.map fun order => { order with orderItems := order.orderItems.map f } := by
  induction orders with
  | nil => rfl
  | cons order orders ih =>
      rw [List.flatMap_cons, List.map_append, refill,
        List.take_left' (List.length_map _), List.drop_left' (List.length_map _), ih,
        List.map_cons]

theorem withItems_map (f : OrderItem → OrderItem) (db : Db) :
    withItems ((orderItems db).map f) db =
      { db with orders := db.orders.map fun order =>
          { order with orderItems := order.orderItems.map f } } := by
  unfold withItems orderItems
  rw [refill_map]

theorem withItems_self (db : Db) : withItems (orderItems db) db = db := by
  have h := withItems_map id db
  simpa using h

theorem orderItems_map (f : OrderItem → OrderItem) (db : Db) :
    orderItems { db with orders := db.orders.map fun order =>
        { order with orderItems := order.orderItems.map f } } = (orderItems db).map f := by
  unfold orderItems
  simp only [List.flatMap_map, List.map_flatMap]

/-- A statement that returns and leaves the items. -/
theorem runItems_of_read {α : Type} {x : Fallible (Store OrderItem) ClientError α} {a : α}
    {w : World}
    (hx : x { rows := orderItems w.db, uniqueKeys := [fun i => some i.id] } =
      (.ok a, { rows := orderItems w.db, uniqueKeys := [fun i => some i.id] })) :
    runItems x w = (.ok a, w) := by
  unfold runItems
  rw [hx]
  simp only [withItems_self]

section Writes

variable (env : KdsEnv) {orderItemId tenantId : Id}

theorem inTenant_sees (htenant : tenantId ≠ "") :
    (env.inTenant tenantId).context.Sees (some tenantId) :=
  ⟨rfl, htenant⟩

/-- Without a tenant a lookup of an item throws. -/
theorem findFirst_without_tenant (f : Where OrderItem) (s : Store OrderItem) :
    orderItemRepository.findFirst (env.inTenant "") f s = (.error missingTenantError, s) :=
  rfl

/-- The rewritten item in its order. -/
def rewriteItem (tenantId orderItemId : Id) (next : CookingStatus) (item : OrderItem) :
    OrderItem :=
  if TableOf.ownRow (some tenantId) orderItemId item then { item with cookingStatus := next }
  else item

/-- The world with the item rewritten. -/
def withStatus (tenantId orderItemId : Id) (next : CookingStatus) (w : World) : World :=
  { w with db :=
    { w.db with orders := w.db.orders.map fun order =>
      { order with orderItems :=
          order.orderItems.map (rewriteItem tenantId orderItemId next) } } }

/-- The item of the tenant with the id. -/
def itemOf (tenantId orderItemId : Id) (db : Db) : Option OrderItem :=
  (orderItems db).find? (TableOf.ownRow (some tenantId) orderItemId)

/-- The lookup of an item finds the item of the tenant, or throws; it changes nothing. -/
theorem runItems_findById (w : World) :
    (∃ e, runItems (orderItemRepository.findById (env.inTenant tenantId) orderItemId) w =
      (.error e, w)) ∨
    runItems (orderItemRepository.findById (env.inTenant tenantId) orderItemId) w =
      (.ok (itemOf tenantId orderItemId w.db), w) := by
  by_cases htenant : tenantId = ""
  · subst htenant
    refine Or.inl ⟨.client missingTenantError, ?_⟩
    unfold runItems BaseTenantRepository.findById
    rw [findFirst_without_tenant]
    simp only [withItems_self]
  · refine Or.inr (runItems_of_read ?_)
    have hknown : orderItemRepository.Known { id := some orderItemId } (some tenantId) :=
      BaseTenantRepository.known_of_absent _ (fun h => by cases h) rfl
    have hadmits : (orderItemRepository.scopedWhere { id := some orderItemId }
        (some tenantId)).admits orderItemRepository.delegate =
          TableOf.ownRow (some tenantId) orderItemId := by
      funext r
      rw [BaseTenantRepository.scopedWhere_admits_scope
        (BaseTenantRepository.truthy_of_sees (inTenant_sees env htenant)),
        Where.admits_inScope _ _ rfl]
      simp [Where.admits, ColumnKey.admits, orderItemRepository, prisma.orderItem, TableOf.ownRow]
    unfold BaseTenantRepository.findById
    rw [BaseTenantRepository.findFirst_apply (inTenant_sees env htenant) (by decide) hknown,
      hadmits]
    rfl

theorem runItems_findById_readsOnly :
    Fallible.ReadsOnly
      (runItems (orderItemRepository.findById (env.inTenant tenantId) orderItemId)) := by
  intro s
  rcases @runItems_findById env orderItemId tenantId s with
    ⟨e, herror⟩ | hok
  · rw [herror]
  · rw [hok]

/-- The check of an update reads only. -/
theorem checkItem_readsOnly (status : String) :
    Fallible.ReadsOnly (checkItem env orderItemId tenantId status) := by
  unfold checkItem
  cases cookingStatusOf status with
  | none => exact Fallible.ReadsOnly.throw _
  | some next =>
      refine Fallible.ReadsOnly.bind (Fallible.ReadsOnly.bind (Fallible.ReadsOnly.throwIf _ _)
        fun _ => runItems_findById_readsOnly env) fun found => ?_
      cases found with
      | none => exact Fallible.ReadsOnly.throw _
      | some item =>
          exact Fallible.ReadsOnly.bind (Fallible.ReadsOnly.reads _) fun _ =>
            Fallible.ReadsOnly.pure _

theorem runItems_update (next : CookingStatus) (w : World) :
    (∃ e, runItems (orderItemRepository.update (env.inTenant tenantId) orderItemId
      (cookingPayload next)) w = (.error e, w)) ∨
    ∃ item, itemOf tenantId orderItemId w.db = some item ∧
      runItems (orderItemRepository.update (env.inTenant tenantId) orderItemId
        (cookingPayload next)) w =
        (.ok (some { item with cookingStatus := next }),
          withStatus tenantId orderItemId next w) := by
  by_cases htenant : tenantId = ""
  · subst htenant
    refine Or.inl ⟨.client missingTenantError, ?_⟩
    have hrefused : orderItemRepository.update (env.inTenant "") orderItemId (cookingPayload next)
        { rows := orderItems w.db, uniqueKeys := [fun i => some i.id] } =
          (.error missingTenantError,
            { rows := orderItems w.db, uniqueKeys := [fun i => some i.id] }) := rfl
    unfold runItems
    rw [hrefused]
    simp only [withItems_self]
  · rcases @TableOf.repository_update_apply _ _ orderItemRepository _ _ orderItemId
      (cookingPayload next) (inTenant_sees env htenant) (by decide) rfl (fun _ => rfl) rfl
      { rows := orderItems w.db, uniqueKeys := [fun i => some i.id] } with
      ⟨e, herror⟩ | ⟨target, hfind, hok⟩
    · refine Or.inl ⟨.client e, ?_⟩
      unfold runItems
      rw [herror]
      simp only [withItems_self]
    · refine Or.inr ⟨target, hfind, ?_⟩
      unfold runItems
      rw [hok]
      simp only
      rw [show (fun r => if TableOf.ownRow (some tenantId) orderItemId r = true then
        (cookingPayload next).apply r else r) = rewriteItem tenantId orderItemId next from rfl,
        withItems_map]
      rfl

/-- The status write rewrites the item of the tenant, or throws and changes nothing. -/
theorem writeItem_cases (next : CookingStatus) (w : World) :
    (∃ e, writeItem env orderItemId tenantId next w = (.error e, w)) ∨
      ∃ item, itemOf tenantId orderItemId w.db = some item ∧
        writeItem env orderItemId tenantId next w =
          (.ok { item with cookingStatus := next }, withStatus tenantId orderItemId next w) := by
  cases hfails : env.fails .write with
  | true =>
      refine Or.inl ⟨.failure, ?_⟩
      unfold writeItem attempt
      rw [hfails]
      rfl
  | false =>
      unfold writeItem
      rw [hfails, attempt_false]
      rcases runItems_update env next w with ⟨e, herror⟩ | ⟨item, hitem, hok⟩
      · exact Or.inl ⟨e, by rw [Fallible.bind_of_error herror]⟩
      · refine Or.inr ⟨item, hitem, ?_⟩
        rw [Fallible.bind_of_ok hok]
        rfl

end Writes

end KdsService
end Eleva
