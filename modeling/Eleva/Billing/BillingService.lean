import Eleva.Cache.CacheService
import Eleva.Service

/-!
# Billing - Stripe webhooks

The handler of Stripe events: the look at the processed marker, the three ways to a tenant,
the mapping of an event to statuses, the transaction that applies them, the domain event and
the marking.  Each is a function of its own, so that a delivery can be run as one call or
step by step.

Main results:

- Definition {lit}`resolveTenant`: the tenant of an event.
- Definition {lit}`applyStatuses`: the transaction of a status change.
- Definition {lit}`handleStripeWebhook`: one delivery.
-/

namespace Eleva
namespace Billing

open Foundation Database Cache

/-- What the handler reads of the object of an event. -/
structure StripeObject where
  object : Option String := none
  id : Option String := none
  customer : Option String := none
  subscription : Option String := none
  status : Option String := none
  metadataTenantId : Option String := none
  currentPeriodStart : Option ℕ := none
  currentPeriodEnd : Option ℕ := none
  cancelAtPeriodEnd : Option Bool := none
  canceledAt : Option ℕ := none
deriving DecidableEq, Repr

/-- A Stripe event. -/
structure StripeEvent where
  type : String
  id : Option String := none
  data : Option StripeObject := none
deriving DecidableEq, Repr

/-- The domain event of a status change; a missing previous status is sent as
{lit}`UNKNOWN`. -/
structure BillingStatusChangedEvent where
  tenantId : Id
  previousStatus : Option SubscriptionStatus
  newStatus : SubscriptionStatus
  eventType : String
  eventId : String
deriving DecidableEq, Repr

/-- The answer to a delivery. -/
structure WebhookResult where
  eventType : String
  eventId : Option String
  tenantId : Option Id := none
  newSubscriptionStatus : Option SubscriptionStatus := none
  newTenantStatus : Option TenantStatus := none
  action : String
deriving DecidableEq, Repr

/-- The database steps of the handler. -/
inductive BillingStep where
  | tenantLookup
  | subscriptionLookup
  | currentStatus
  | subscriptionUpdate
  | tenantUpdate
  | commit
deriving DecidableEq, Repr

/-- What a delivery draws from its surroundings, and which of its database steps fail. -/
structure BillingEnv extends Env where
  fails : BillingStep → Bool := fun _ => false

/-- The database, the cache with the markers of processed events by event id, and the domain
events emitted so far. -/
structure BillingState where
  world : World
  cache : CacheState String Bool
  emitted : List BillingStatusChangedEvent := []

/-- A method of the billing service. -/
abbrev BillingService (α : Type) := Fallible BillingState AppError α

/-- Lifetime of a processed marker, in seconds. -/
def IDEMPOTENCY_TTL_SECONDS : ℕ := 30 * 24 * 60 * 60

/-- Run a database method. -/
def onWorld {α : Type} (x : Service α) : BillingService α := fun s =>
  ((x s.world).1, { s with world := (x s.world).2 })

/-! ## The processed marker -/

/-- Read the marker of an event id. -/
def alreadyProcessed (eventId : String) (s : BillingState) : Bool × BillingState :=
  ((s.cache.get eventId false IDEMPOTENCY_TTL_SECONDS).1,
    { s with cache := (s.cache.get eventId false IDEMPOTENCY_TTL_SECONDS).2 })

/-- Set the marker of an event id, if the event has one. -/
def markProcessed (eventId : Option String) (s : BillingState) : BillingState :=
  if truthy eventId then
    { s with cache := s.cache.set (eventId.getD "") true IDEMPOTENCY_TTL_SECONDS }
  else s

/-! ## The tenant of an event -/

/-- The Stripe subscription and customer that an object names. -/
def stripeIds (obj : StripeObject) : Option String × Option String :=
  if obj.object = some "subscription" then (obj.id, obj.customer)
  else if obj.object = some "invoice" then (obj.subscription, obj.customer)
  else if truthy obj.customer then
    (if truthy obj.subscription then obj.subscription else obj.id, obj.customer)
  else (none, none)

/-- The first tenant with a Stripe customer. -/
def tenantByCustomer (env : BillingEnv) (stripeCustomerId : Option String) :
    Service (Option Id) :=
  if truthy stripeCustomerId then
    attempt (env.fails .tenantLookup) (Fallible.reads fun w =>
      .ok ((w.db.tenants.find? fun t => t.stripeCustomerId == stripeCustomerId).map (·.id)))
  else pure none

/-- The tenant of the first subscription, in scope, with a Stripe id. -/
def tenantBySubscription (env : BillingEnv) (stripeSubscriptionId : Option String) :
    Service (Option Id) :=
  if truthy stripeSubscriptionId then do
    let found ← attempt (env.fails .subscriptionLookup) (subscriptions.run
      (prisma.subscription.findFirst env.toEnv
        { rest := fun s => s.stripeSubscriptionId == stripeSubscriptionId }))
    return found.map (·.tenantId)
  else pure none

/-- The tenant by customer, else by subscription, else from the metadata. -/
def resolveTenant (env : BillingEnv) (stripeSubscriptionId stripeCustomerId : Option String)
    (metadataTenantId : Option String) : Service (Option Id) := do
  let byCustomer ← tenantByCustomer env stripeCustomerId
  if truthy byCustomer then
    return byCustomer
  let bySubscription ← tenantBySubscription env stripeSubscriptionId
  if truthy bySubscription then
    return bySubscription
  if truthy metadataTenantId then
    return metadataTenantId
  return none

/-! ## The statuses of an event -/

/-- What an event type maps to. -/
inductive StatusMapping where
  | change (subscription : SubscriptionStatus) (tenant : TenantStatus)
  | keep
  | unhandled
deriving DecidableEq, Repr

def mapStatuses (eventType : String) (obj : StripeObject) : StatusMapping :=
  if eventType = "invoice.payment_succeeded" then .change .ACTIVE .ACTIVE
  else if eventType = "invoice.payment_failed" then .change .PAST_DUE .PAST_DUE
  else if eventType = "customer.subscription.deleted" then .change .CANCELED .CANCELED
  else if eventType = "customer.subscription.updated" then
    if obj.status = some "active" then .change .ACTIVE .ACTIVE
    else if obj.status = some "past_due" then .change .PAST_DUE .PAST_DUE
    else if obj.status = some "unpaid" then .change .UNPAID .UNPAID
    else if obj.status = some "canceled" then .change .CANCELED .CANCELED
    else .keep
  else .unhandled

/-- A Stripe time in seconds, as a column value; zero counts as missing. -/
def stripeTime (seconds : Option ℕ) : Option Timestamp :=
  (seconds.filter (· != 0)).map fun n => (n : Timestamp) * 1000

/-- The columns that an update of a subscription changes. -/
def subscriptionData (eventType : String) (obj : StripeObject) (status : SubscriptionStatus)
    (s : Subscription) : Subscription :=
  if eventType = "customer.subscription.updated" then
    { s with
      status := status
      currentPeriodStart := (stripeTime obj.currentPeriodStart).getD s.currentPeriodStart
      currentPeriodEnd := (stripeTime obj.currentPeriodEnd).getD s.currentPeriodEnd
      cancelAtPeriodEnd := obj.cancelAtPeriodEnd.getD s.cancelAtPeriodEnd
      canceledAt := (stripeTime obj.canceledAt).or s.canceledAt }
  else { s with status := status }

theorem subscriptionData_tenantId (eventType : String) (obj : StripeObject)
    (status : SubscriptionStatus) (s : Subscription) :
    (subscriptionData eventType obj status s).tenantId = s.tenantId := by
  unfold subscriptionData
  split <;> rfl

theorem subscriptionData_id (eventType : String) (obj : StripeObject)
    (status : SubscriptionStatus) (s : Subscription) :
    (subscriptionData eventType obj status s).id = s.id := by
  unfold subscriptionData
  split <;> rfl

theorem subscriptionData_status (eventType : String) (obj : StripeObject)
    (status : SubscriptionStatus) (s : Subscription) :
    (subscriptionData eventType obj status s).status = status := by
  unfold subscriptionData
  split <;> rfl

/-- The subscriptions that an event names: by Stripe id, or by tenant when it names none. -/
def subscriptionWhere (stripeSubscriptionId : Option String) (tenantId : Id) :
    Where Subscription :=
  if truthy stripeSubscriptionId then
    { rest := fun s => s.stripeSubscriptionId == stripeSubscriptionId }
  else { tenantId := .filter (fun t => t == some tenantId) }

/-- The {lit}`data` object of the update. -/
def subscriptionPayload (eventType : String) (obj : StripeObject)
    (stripeSubscriptionId : Option String) (status : SubscriptionStatus) :
    Payload Subscription where
  assign s :=
    if truthy stripeSubscriptionId then subscriptionData eventType obj status s
    else { s with status := status }
  assign_tenantId s := by
    split
    · exact congrArg some (subscriptionData_tenantId eventType obj status s)
    · rfl

/-- Set the status of a tenant. -/
def updateTenantStatus (tenantId : Id) (status : TenantStatus) : Service Unit := fun w =>
  if w.db.tenants.any (fun t => t.id == tenantId) then
    (.ok (), { w with db := { w.db with
      tenants := w.db.tenants.map fun t =>
        if t.id = tenantId then { t with status := status } else t } })
  else (.error (.client .recordNotFound), w)

/-- The transaction of a status change; it returns the previous subscription status. -/
def applyStatuses (env : BillingEnv) (eventType : String) (obj : StripeObject)
    (stripeSubscriptionId : Option String) (tenantId : Id) (status : SubscriptionStatus)
    (tenantStatus : TenantStatus) : Service (Option SubscriptionStatus) :=
  Fallible.transaction do
    let current ← attempt (env.fails .currentStatus) (subscriptions.run
      (prisma.subscription.findFirst env.toEnv
        (subscriptionWhere stripeSubscriptionId tenantId)))
    let _ ← attempt (env.fails .subscriptionUpdate) (subscriptions.run
      (prisma.subscription.updateMany env.toEnv (subscriptionWhere stripeSubscriptionId tenantId)
        (subscriptionPayload eventType obj stripeSubscriptionId status)))
    attempt (env.fails .tenantUpdate) (updateTenantStatus tenantId tenantStatus)
    attempt (env.fails .commit) (pure (current.map (·.status)))

/-- Send a domain event. -/
def emit (e : BillingStatusChangedEvent) (s : BillingState) : BillingState :=
  { s with emitted := s.emitted ++ [e] }

/-- The domain event of an applied status change. -/
def statusChanged (event : StripeEvent) (tenantId : Id) (previous : Option SubscriptionStatus)
    (status : SubscriptionStatus) : BillingStatusChangedEvent where
  tenantId := tenantId
  previousStatus := previous
  newStatus := status
  eventType := event.type
  eventId := event.id.getD ""

/-- Apply a mapping and send its domain event; an error of the transaction is logged. -/
def applyAndEmit (env : BillingEnv) (event : StripeEvent) (obj : StripeObject) (tenantId : Id)
    (mapping : StatusMapping) (s : BillingState) : BillingState :=
  match mapping with
  | .change status tenantStatus =>
      match onWorld (applyStatuses env event.type obj (stripeIds obj).1 tenantId status
          tenantStatus) s with
      | (.ok previous, s) => emit (statusChanged event tenantId previous status) s
      | (.error _, s) => s
  | _ => s

/-! ## The handlers -/

/-- The new statuses that an answer reports. -/
def StatusMapping.statuses : StatusMapping → Option (SubscriptionStatus × TenantStatus)
  | .change status tenantStatus => some (status, tenantStatus)
  | _ => none

/-- Events that map to statuses. -/
def handleStatusChange (env : BillingEnv) (event : StripeEvent) (obj : StripeObject) :
    BillingService WebhookResult := do
  let tenantId ← onWorld
    (resolveTenant env (stripeIds obj).1 (stripeIds obj).2 obj.metadataTenantId)
  match tenantId with
  | none =>
      return { eventType := event.type, eventId := event.id, action := "no_tenant_resolved" }
  | some tenantId =>
      if mapStatuses event.type obj = .unhandled then
        return { eventType := event.type, eventId := event.id, tenantId := some tenantId,
                 action := "ignored" }
      Fallible.modify (applyAndEmit env event obj tenantId (mapStatuses event.type obj))
      Fallible.modify (markProcessed event.id)
      return { eventType := event.type, eventId := event.id, tenantId := some tenantId,
               newSubscriptionStatus := (mapStatuses event.type obj).statuses.map (·.1),
               newTenantStatus := (mapStatuses event.type obj).statuses.map (·.2),
               action := "processed" }

/-- Keep the Stripe customer on a tenant that has none. -/
def persistCustomerId (env : BillingEnv) (obj : StripeObject) (tenant : Tenant) : Service Unit :=
  if truthy obj.customer && !truthy tenant.stripeCustomerId then
    attempt (env.fails .tenantUpdate) (Fallible.modify fun w =>
      { w with db := { w.db with
        tenants := w.db.tenants.map fun t =>
          if t.id = tenant.id then { t with stripeCustomerId := obj.customer } else t } })
  else pure ()

/-- Keep the Stripe subscription on the tenant's subscription when it has none. -/
def persistSubscriptionId (env : BillingEnv) (obj : StripeObject) (tenant : Tenant) :
    Service Unit :=
  if truthy obj.subscription then do
    let found ← attempt (env.fails .currentStatus) (subscriptions.run
      (prisma.subscription.findFirst env.toEnv
        { tenantId := .filter (fun t => t == some tenant.id) }))
    match found with
    | none => pure ()
    | some subscription =>
        if truthy subscription.stripeSubscriptionId then pure ()
        else do
          let _ ← attempt (env.fails .subscriptionUpdate) (subscriptions.run
            (prisma.subscription.update env.toEnv { id := some subscription.id }
              { assign := fun s => { s with stripeSubscriptionId := obj.subscription } }))
          pure ()
  else pure ()

/-- The transaction of a completed checkout. -/
def persistStripeIds (env : BillingEnv) (obj : StripeObject) (tenant : Tenant) : Service Unit :=
  Fallible.transaction do
    persistCustomerId env obj tenant
    persistSubscriptionId env obj tenant
    attempt (env.fails .commit) (pure ())

/-- The tenant that the metadata names. -/
def tenantOfMetadata (env : BillingEnv) (obj : StripeObject) : Service (Option Tenant) :=
  attempt (env.fails .tenantLookup) (Fallible.reads fun w =>
    .ok (w.db.tenants.find? fun t => some t.id == obj.metadataTenantId))

/-- {lit}`checkout.session.completed`. -/
def handleCheckoutSessionCompleted (env : BillingEnv) (event : StripeEvent)
    (obj : StripeObject) : BillingService WebhookResult :=
  if truthy obj.metadataTenantId then do
    let tenant ← onWorld (tenantOfMetadata env obj)
    match tenant with
    | none =>
        return { eventType := event.type, eventId := event.id, action := "tenant_not_found" }
    | some tenant =>
        Fallible.orElse (onWorld (persistStripeIds env obj tenant)) (pure ())
        Fallible.modify (markProcessed event.id)
        return { eventType := event.type, eventId := event.id, tenantId := obj.metadataTenantId,
                 action := "stripe_ids_persisted" }
  else
    return { eventType := event.type, eventId := event.id, action := "no_tenant_metadata" }

/-- The domain event of a trial that ends. -/
def trialWillEnd (event : StripeEvent) (tenantId : Id) : BillingStatusChangedEvent :=
  statusChanged event tenantId (some .TRIALING) .TRIALING

/-- {lit}`customer.subscription.trial_will_end`. -/
def handleTrialWillEnd (env : BillingEnv) (event : StripeEvent) (obj : StripeObject) :
    BillingService WebhookResult := do
  let tenantId ← onWorld (resolveTenant env obj.id obj.customer obj.metadataTenantId)
  match tenantId with
  | none =>
      return { eventType := event.type, eventId := event.id, action := "no_tenant_resolved" }
  | some tenantId =>
      Fallible.modify (emit (trialWillEnd event tenantId))
      Fallible.modify (markProcessed event.id)
      return { eventType := event.type, eventId := event.id, tenantId := some tenantId,
               action := "trial_expiry_notification_emitted" }

/-- The handler of an event that is not a duplicate. -/
def dispatch (env : BillingEnv) (event : StripeEvent) (obj : StripeObject) :
    BillingService WebhookResult :=
  if event.type = "checkout.session.completed" then handleCheckoutSessionCompleted env event obj
  else if event.type = "customer.subscription.trial_will_end" then
    handleTrialWillEnd env event obj
  else handleStatusChange env event obj

/-- One delivery. -/
def handleStripeWebhook (env : BillingEnv) (event : StripeEvent) : BillingService WebhookResult :=
  match event.data with
  | none =>
      Fallible.throw (.badRequest "Invalid Stripe webhook payload: missing data.object")
  | some obj => fun s =>
      if truthy event.id then
        match alreadyProcessed (event.id.getD "") s with
        | (true, s) =>
            (.ok { eventType := event.type, eventId := event.id, action := "duplicate" }, s)
        | (false, s) => dispatch env event obj s
      else dispatch env event obj s

end Billing
end Eleva
