import Eleva.Foundation.LikePatterns
import Eleva.Foundation.Text
import Eleva.Service

/-!
# Payment - The wallet service

Creating a wallet payment for an order, verifying a payment against its provider, and
settling it from a provider's webhook.

Main results:

- Definitions {lit}`createWalletPayment`, {lit}`verifyPayment` and {lit}`settleFromWebhook`.
- Theorem {lit}`findPayment_run`: a payment is looked up by a pattern for the tail of its
  transaction reference.
- Theorem {lit}`writeStatus_run`: a status write rewrites one payment of the tenant, or
  throws and changes nothing.
-/

namespace Eleva
namespace WalletService

open Foundation Database

/-! ## Requests and answers -/

/-- The wallet types that the request validation lets through. -/
inductive WalletType where
  | apple_pay
  | google_pay
  | knet
  | benefit
  | mada
  | cash
  | credit_card
deriving DecidableEq, Repr

/-- The wallet type as it stands in the request. -/
def WalletType.text : WalletType → String
  | .apple_pay => "apple_pay"
  | .google_pay => "google_pay"
  | .knet => "knet"
  | .benefit => "benefit"
  | .mada => "mada"
  | .cash => "cash"
  | .credit_card => "credit_card"

structure CreateWalletPaymentRequestDto where
  orderId : Id
  paymentMethod : PaymentMethodType
  walletType : Option WalletType := none
  currency : Option String := none
deriving DecidableEq, Repr

structure WalletPaymentResult where
  paymentId : String
  provider : String
  walletType : WalletType
  amount : ℚ
  currency : String
  status : String
deriving DecidableEq

structure VerifyPaymentResult where
  paymentId : String
  orderId : Id
  status : PaymentStatus
  verified : Bool
  amount : ℚ
  provider : String
  tenantId : Id
deriving DecidableEq

/-- What the provider answers to the creation of a charge. -/
inductive ChargeReply where
  | unconfigured
  | failed (message : String)
  | created (id status : String)
deriving DecidableEq, Repr

/-- What the provider answers to a status lookup. -/
inductive ProviderReply where
  | unconfigured
  | unreachable
  | status (text : String)
deriving DecidableEq, Repr

/-- Normalised result of a provider-side status lookup. -/
structure ProviderStatus where
  status : String
  settled : Bool
  failed : Bool
deriving DecidableEq, Repr

/-- What a call draws from its surroundings: generated ids, the clock, the provider's
answers, the case mappings of the runtime, and whether the statement fails. -/
structure WalletEnv where
  uuid : ℕ → Id
  now : Timestamp
  charge : ChargeReply := .unconfigured
  reply : ProviderReply := .unreachable
  toUpperCase : String → String := asciiUpperCase
  toLowerCase : String → String := asciiLowerCase
  fails : Bool := false

/-- The tenant context that {lit}`dbTenantContext.run` sets. -/
def WalletEnv.inTenant (env : WalletEnv) (tenantId : Id) : Env where
  context := { tenantId := some tenantId }
  uuid := env.uuid
  now := env.now

/-! ## Creating a payment -/

/-- The provider of a wallet type that is routed through a gateway. -/
def REGIONAL_GATEWAYS : WalletType → Option String
  | .knet => some "tap_payments"
  | .benefit => some "tap_payments"
  | .mada => some "tap_payments"
  | .apple_pay => some "stripe"
  | .google_pay => some "stripe"
  | .cash => none
  | .credit_card => none

/-- Wallet types routed through Tap Payments. -/
def TAP_WALLETS : List WalletType :=
  [.knet, .benefit, .mada]

def toPaymentMethod (walletType : WalletType) : PaymentMethodType :=
  if walletType == .apple_pay || walletType == .google_pay then .APPLE_PAY
  else if TAP_WALLETS.contains walletType then .LOCAL_WALLET
  else if walletType == .cash then .CASH
  else .CREDIT_CARD

/-- The wallet type of the request, or the one of its payment method. -/
def walletTypeOf (dto : CreateWalletPaymentRequestDto) : WalletType :=
  dto.walletType.getD
    (if dto.paymentMethod == .APPLE_PAY then .apple_pay
      else if dto.paymentMethod == .LOCAL_WALLET then .knet
      else .credit_card)

/-- {lit}`value || fallback`. -/
def orDefault (value : Option String) (fallback : String) : String :=
  (value.filter fun text => text != "").getD fallback

def providerNotConfigured (rail : String) : AppError :=
  .serviceUnavailable
    (rail ++ " payments are not available: the payment provider is not configured.")

/-- A Stripe payment intent for a wallet. -/
def createStripeWalletPayment (env : WalletEnv) (dto : CreateWalletPaymentRequestDto)
    (walletType : WalletType) (provider : String) (amount : ℚ) :
    Except AppError WalletPaymentResult :=
  match env.charge with
  | .unconfigured => .error (providerNotConfigured walletType.text)
  | .failed message =>
      .error (.badRequest ("Failed to create " ++ walletType.text ++ " payment: " ++ message))
  | .created id status =>
      .ok { paymentId := id
            provider := provider
            walletType := walletType
            amount := amount
            currency := orDefault dto.currency "USD"
            status := status }

/-- A Tap charge; an answer without an id counts as a failure. -/
def createTapPayment (env : WalletEnv) (dto : CreateWalletPaymentRequestDto)
    (walletType : WalletType) (provider : String) (amount : ℚ) :
    Except AppError WalletPaymentResult :=
  let failure (message : String) : AppError :=
    .badRequest ("Failed to create " ++ walletType.text ++ " payment via Tap: " ++ message)
  match env.charge with
  | .unconfigured => .error (providerNotConfigured walletType.text)
  | .failed message => .error (failure message)
  | .created id status =>
      if id = "" then .error (failure "Tap response did not include a charge id")
      else
        .ok { paymentId := id
              provider := provider
              walletType := walletType
              amount := amount
              currency := orDefault dto.currency "KWD"
              status := env.toLowerCase status }

/-- A payment that is settled at the till. -/
def tillPayment (dto : CreateWalletPaymentRequestDto) (walletType : WalletType) (amount : ℚ) :
    WalletPaymentResult where
  paymentId := "pos_" ++ walletType.text ++ "_" ++ dto.orderId
  provider := "pos"
  walletType := walletType
  amount := amount
  currency := orDefault dto.currency "USD"
  status := "pending"

/-- The payment at the rail of the wallet type. -/
def chargeWallet (env : WalletEnv) (dto : CreateWalletPaymentRequestDto) (amount : ℚ) :
    Except AppError WalletPaymentResult :=
  let walletType := walletTypeOf dto
  let provider := (REGIONAL_GATEWAYS walletType).getD "stripe"
  if walletType == .apple_pay || walletType == .google_pay then
    createStripeWalletPayment env dto walletType provider amount
  else if TAP_WALLETS.contains walletType then
    createTapPayment env dto walletType provider amount
  else .ok (tillPayment dto walletType amount)

/-- The text that a payment is found by. -/
def transactionReferenceOf (result : WalletPaymentResult) : String :=
  result.provider ++ ":" ++ result.paymentId

/-- The stored attempt. -/
def paymentPayload (dto : CreateWalletPaymentRequestDto) (order : Order)
    (result : WalletPaymentResult) : Payload Payment where
  assign p := { p with
    orderId := dto.orderId
    paymentMethod := toPaymentMethod (walletTypeOf dto)
    status := .PENDING
    amount := order.total
    transactionReference := some (transactionReferenceOf result) }

/-- Create a wallet payment for an order and store the attempt. -/
def createWalletPayment (env : WalletEnv) (dto : CreateWalletPaymentRequestDto)
    (tenantId : Id) : Service WalletPaymentResult := do
  let order ← orders.run (orderRepository.findById (env.inTenant tenantId) dto.orderId)
  match order with
  | none =>
      Fallible.throw (.notFound
        ("Order with ID [" ++ dto.orderId ++ "] not found under tenant context"))
  | some order =>
      Fallible.throwIf (decide (order.total.toNumber ≤ 0))
        (.badRequest "Order total is not payable.")
      let result ← Fallible.reads fun _ => chargeWallet env dto order.total.toNumber
      let _ ← attempt env.fails
        (payments.run (paymentRepository.create (env.inTenant tenantId)
          (paymentPayload dto order result)))
      return result

/-! ## Looking a payment up and reconciling it -/

/-- {lit}`transactionReference: \x7b endsWith: ":" + paymentId \x7d`.  The client asks the database
for {lit}`LIKE` with a percent sign in front and leaves the id as it is, so its own percent signs,
underscores and backslashes are part of the pattern. -/
def referenceMatches (paymentId : String) (reference : String) : Bool :=
  like ("%" ++ ":" ++ paymentId) reference

/-- The filter that finds a payment by its id at the provider. -/
def referenceFilter (paymentId : String) : Where Payment where
  rest p := p.transactionReference.any (referenceMatches paymentId)

/-- The first payment of the tenant whose reference ends with what the id asks for. -/
def findPayment (env : WalletEnv) (paymentId : String) (tenantId : Id) :
    Service (Option Payment) := do
  let matched ← attempt env.fails
    (payments.run (paymentRepository.findMany (env.inTenant tenantId)
      (referenceFilter paymentId) {}))
  return matched.head?

/-- Statuses that a payment does not leave. -/
def isTerminal (status : PaymentStatus) : Bool :=
  status == .PAID || status == .REFUNDED || status == .FAILED

/-- The provider of a payment, the part of its reference before the first colon. -/
def providerOf (row : Payment) : String :=
  let provider := firstPart ':' (row.transactionReference.getD "")
  if provider = "" then "unknown" else provider

def providerUnavailable : AppError :=
  .serviceUnavailable
    "Unable to verify the payment with the provider right now. Please retry."

/-- Authoritative status lookup at the provider. -/
def fetchProviderStatus (env : WalletEnv) (provider : String) :
    Except AppError ProviderStatus :=
  if provider = "stripe" then
    match env.reply with
    | .unconfigured => .error (providerNotConfigured "stripe")
    | .unreachable => .error providerUnavailable
    | .status status =>
        .ok { status := status
              settled := status == "succeeded"
              failed := status == "canceled" || status == "payment_failed" }
  else if provider = "tap_payments" then
    match env.reply with
    | .unconfigured => .error (providerNotConfigured "tap")
    | .unreachable => .error providerUnavailable
    | .status text =>
        let status := env.toUpperCase text
        .ok { status := status
              settled := status == "CAPTURED"
              failed := status == "FAILED" || status == "DECLINED" || status == "CANCELLED" }
  else if provider = "pos" then .ok { status := "PENDING", settled := false, failed := false }
  else .error (.serviceUnavailable ("No verification path for provider [" ++ provider ++ "]."))

/-- The status that the provider's answer leads to. -/
def nextStatus (current : PaymentStatus) (answer : ProviderStatus) : PaymentStatus :=
  if answer.settled then .PAID else if answer.failed then .FAILED else current

/-- The columns of a status write: a settled payment gets its completion time, any other
loses it. -/
def statusPayload (status : PaymentStatus) (completedAt : Option Timestamp) :
    Payload Payment where
  assign p := { p with status := status, completedAt := completedAt }

/-- Write the status of a payment. -/
def writeStatus (env : WalletEnv) (tenantId id : Id) (status : PaymentStatus)
    (settled : Bool) : Service (Option Payment) :=
  attempt env.fails
    (payments.run (paymentRepository.update (env.inTenant tenantId) id
      (statusPayload status (if settled then some env.now else none))))

/-- What a verification reports. -/
def verifyResult (paymentId : String) (row : Payment) (status : PaymentStatus)
    (tenantId : Id) : VerifyPaymentResult where
  paymentId := paymentId
  orderId := row.orderId
  status := status
  verified := status == .PAID
  amount := row.amount.toNumber
  provider := providerOf row
  tenantId := tenantId

def paymentNotFound (paymentId : String) : AppError :=
  .notFound ("Payment with reference [" ++ paymentId ++ "] was not found.")

/-- Verify a payment against its provider and reconcile the record. -/
def verifyPayment (env : WalletEnv) (paymentId : String) (tenantId : Id) :
    Service VerifyPaymentResult := do
  let record ← findPayment env paymentId tenantId
  match record with
  | none => Fallible.throw (paymentNotFound paymentId)
  | some row =>
      if isTerminal row.status then return verifyResult paymentId row row.status tenantId
      else
        let answer ← Fallible.reads fun _ => fetchProviderStatus env (providerOf row)
        let next := nextStatus row.status answer
        if next = row.status then return verifyResult paymentId row next tenantId
        else
          let _ ← writeStatus env tenantId row.id next answer.settled
          return verifyResult paymentId row next tenantId

/-- Mark a payment settled or failed from a verified provider webhook. -/
def settleFromWebhook (env : WalletEnv) (providerPaymentId : String) (tenantId : Id)
    (settled : Bool) : Service Unit := do
  let record ← findPayment env providerPaymentId tenantId
  match record with
  | none => return ()
  | some row =>
      let _ ← writeStatus env tenantId row.id (if settled then .PAID else .FAILED) settled
      return ()

/-! ## What the statements do -/

/-- A tenant is the scope of its own context, unless its id is empty. -/
theorem WalletEnv.sees_inTenant (env : WalletEnv) {tenantId : Id} (hT : tenantId ≠ "") :
    (env.inTenant tenantId).context.Sees (some tenantId) :=
  ⟨rfl, hT⟩

/-- The payment a lookup finds. -/
def paymentOf (db : Db) (paymentId : String) (tenantId : Id) : Option Payment :=
  db.payments.find? fun p =>
    p.tenantId == tenantId && p.transactionReference.any (referenceMatches paymentId)

/-- A lookup that does not fail finds the first payment of the tenant whose reference fits. -/
theorem findPayment_run {env : WalletEnv} {paymentId : String} {tenantId : Id}
    (hT : tenantId ≠ "") (hfails : env.fails = false) (w : World) :
    findPayment env paymentId tenantId w = (.ok (paymentOf w.db paymentId tenantId), w) := by
  have hctx := env.sees_inTenant hT
  have hm : paymentRepository.delegate.model ∉ unscopedModels := by decide
  rcases TableOf.run_findMany_head (t := payments) (f := referenceFilter paymentId) hctx hm rfl
    rfl w with ⟨found, hrun, hhead⟩
  have hfound : found.head? = paymentOf w.db paymentId tenantId := by
    rw [hhead]
    unfold paymentOf
    congr 1
    funext p
    rw [Where.admits_inScope _ _ rfl]
    simp [paymentRepository, prisma.payment, referenceFilter, Where.admits, ColumnKey.admits,
      visible, owned, TenantRow.tenantId, Bool.and_comm]
  unfold findPayment
  rw [hfails, attempt_false, Fallible.bind_of_ok hrun, hfound]
  rfl

/-- The payments after a status write. -/
def setStatus (tenantId id : Id) (status : PaymentStatus) (completedAt : Option Timestamp)
    (rows : List Payment) : List Payment :=
  rows.map fun p => if id == p.id && p.tenantId == tenantId then
    { p with status := status, completedAt := completedAt } else p

/-- In a context without a tenant every repository update throws and writes nothing. -/
theorem update_without_tenant {env : WalletEnv} {id : Id} {d : Payload Payment} (w : World) :
    payments.run (paymentRepository.update (env.inTenant "") id d) w =
      (.error (.client missingTenantError), w) := by
  apply TableOf.run_refused
  rfl

/-- A status write rewrites one payment of the tenant, or throws and changes nothing. -/
theorem writeStatus_run (env : WalletEnv) (tenantId id : Id) (status : PaymentStatus)
    (settled : Bool) (w : World) :
    (∃ e, writeStatus env tenantId id status settled w = (.error e, w)) ∨
      ∃ target, writeStatus env tenantId id status settled w = (.ok (some target),
        { w with db := { w.db with
          payments := setStatus tenantId id status (if settled then some env.now else none)
            w.db.payments } }) := by
  unfold writeStatus
  cases hfails : env.fails with
  | true => exact Or.inl ⟨.failure, rfl⟩
  | false =>
      rw [attempt_false]
      by_cases hT : tenantId = ""
      · subst hT
        exact Or.inl ⟨_, update_without_tenant w⟩
      · have hm : paymentRepository.delegate.model ∉ unscopedModels := by decide
        rcases TableOf.run_repository_update (t := payments) id
          (statusPayload status (if settled then some env.now else none))
          (env.sees_inTenant hT) hm rfl (fun _ => rfl) rfl w with ⟨e, hrun⟩ | ⟨target, _, hrun⟩
        · exact Or.inl ⟨e, hrun⟩
        · exact Or.inr ⟨_, hrun⟩

end WalletService
end Eleva
