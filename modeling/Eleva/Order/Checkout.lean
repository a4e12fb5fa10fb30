import Mathlib.Data.PNat.Basic
import Eleva.Foundation.Text
import Eleva.Order.Discount

/-!
# Order - Checkout

The order service's {lit}`createOrder`: the lookups that validate a request and price
its lines from the database rows, the transaction that stores the order with its
kitchen queue entry and counts the discount, and the broadcasts after it.

Main results:

- Definition {lit}`createOrder`, with {lit}`priceItem` and {lit}`priceItems` for the loop over
  the lines and {lit}`checkoutTransaction` for the transaction.
-/

namespace Eleva
namespace OrderService

open Foundation Database DiscountService

/-! ## Requests -/

structure OrderAddonSelectionDto where
  addonItemId : Id
deriving DecidableEq, Repr

structure OrderItemSelectionDto where
  productId : Id
  sizeId : Option Id := none
  variantId : Option Id := none
  quantity : ℕ+
  addons : Option (List OrderAddonSelectionDto) := none
deriving DecidableEq, Repr

structure CreateOrderRequestDto where
  branchId : Id
  tableId : Option Id := none
  qrCodeToken : Option String := none
  type : Database.OrderType
  specialNotes : Option String := none
  items : List OrderItemSelectionDto
  paymentMethod : PaymentMethodType
  discountCode : Option String := none
deriving DecidableEq, Repr

/-- {lit}`x || null`. -/
def orNull (x : Option String) : Option String :=
  x.filter (fun s => s != "")

/-- The statements and broadcasts of a checkout, each of which can fail. -/
inductive Step where
  | branch
  | restaurant
  | table
  | product (item : ℕ)
  | variant (item : ℕ)
  | size (item : ℕ)
  | addon (item addon : ℕ)
  | discount
  | usage
  | order
  | queue
  | ticketRead
  | ticketBroadcast
  | orderBroadcast
deriving DecidableEq, Repr

/-- What a checkout draws from its surroundings: besides the tenant, the generated
ids and the clock, the year and digits of the order number, the generated id of the queue
entry, the case mapping of the runtime, whether the kitchen gateway is wired, and which
steps fail. -/
structure CheckoutEnv extends Env where
  year : ℕ
  digits : ℕ
  queueUuid : Id := uuid 0
  toUpperCase : String → String := fun s => String.ofList (s.toList.map Char.toUpper)
  kdsGateway : Bool := true
  fails : Step → Bool := fun _ => false

/-! ## Pricing a line -/

/-- A line to be stored, before its amounts go into numeric columns. -/
structure OrderItemDraft where
  productId : Id
  sizeId : Option Id
  variantId : Option Id
  quantity : ℕ+
  unitPrice : ℚ
  totalPrice : ℚ
  orderItemAddons : List OrderItemAddon
deriving DecidableEq, Repr

def productUnavailable (productId : Id) : AppError :=
  .notFound ("Product with ID [" ++ productId ++ "] is unavailable or missing.")

def variantInvalid (variantId productId : Id) : AppError :=
  .badRequest ("Variant [" ++ variantId ++ "] is invalid for product [" ++ productId ++ "].")

def variantOutOfStock (variantId productId : Id) : AppError :=
  .badRequest ("Variant [" ++ variantId ++ "] for product [" ++ productId ++
    "] is out of stock.")

def sizeInvalid (sizeId : Id) : AppError :=
  .badRequest ("Sizing modifier [" ++ sizeId ++ "] is invalid for this product.")

def addonUnavailable (addonItemId : Id) : AppError :=
  .badRequest ("Selected addon [" ++ addonItemId ++ "] is unavailable.")

section Pricing

variable (env : CheckoutEnv) (userTenantId : Id)

/-- The variant named by a line, looked up among those of the product. -/
def findVariant (variantId productId : Id) : Service (Option ProductVariant) :=
  productVariants.run (prisma.productVariant.findFirst env.toEnv
    { id := some variantId, rest := fun v => v.productId == productId })

/-- The sizes named by a line, looked up among those of the product. -/
def findSizes (sizeId productId : Id) : Service (List ProductSize) :=
  productSizes.run (sizeRepository.findMany env.toEnv
    { id := some sizeId, rest := fun s => s.productId == productId } {})

/-- The unit price: a variant's price replaces the base price and takes precedence
over a size, which adjusts it. -/
def resolveUnitPrice (i : ℕ) (item : OrderItemSelectionDto) (product : Product) :
    Service ℚ :=
  match orNull item.variantId with
  | some variantId => do
      let variant ← attempt (env.fails (.variant i)) (findVariant env variantId product.id)
      match variant with
      | none => Fallible.throw (variantInvalid variantId item.productId)
      | some variant => do
          Fallible.throwIf (decide (variant.stockQuantity ≤ 0))
            (variantOutOfStock variantId item.productId)
          return variant.price.toNumber
  | none =>
      match orNull item.sizeId with
      | some sizeId => do
          let size ← attempt (env.fails (.size i)) (findSizes env sizeId product.id)
          match size.head? with
          | none => Fallible.throw (sizeInvalid sizeId)
          | some size => return product.basePrice.toNumber + size.priceAdjustment.toNumber
      | none => return product.basePrice.toNumber

/-- The loop over the addon selections of a line, with its running total and the
addon rows collected so far. -/
def resolveAddons (i : ℕ) :
    ℕ → List OrderAddonSelectionDto → ℚ → List OrderItemAddon →
      Service (ℚ × List OrderItemAddon)
  | _, [], lineAddonsTotal, addonsToCreate => return (lineAddonsTotal, addonsToCreate)
  | j, addonSelection :: rest, lineAddonsTotal, addonsToCreate => do
      let addonItem ← attempt (env.fails (.addon i j)) (addonItems.run
        (addonItemRepository.findMany env.toEnv { id := some addonSelection.addonItemId } {}))
      match addonItem.head? with
      | none => Fallible.throw (addonUnavailable addonSelection.addonItemId)
      | some addonItem => do
          Fallible.throwIf (!addonItem.isAvailable)
            (addonUnavailable addonSelection.addonItemId)
          resolveAddons i (j + 1) rest (lineAddonsTotal + addonItem.price.toNumber)
            (addonsToCreate ++
              [{ tenantId := userTenantId, addonItemId := addonItem.id, price := addonItem.price }])

/-- Validate and price one line. -/
def priceItem (i : ℕ) (item : OrderItemSelectionDto) : Service OrderItemDraft := do
  let product ← attempt (env.fails (.product i))
    (products.run (productRepository.findById env.toEnv item.productId))
  match product with
  | none => Fallible.throw (productUnavailable item.productId)
  | some product => do
      Fallible.throwIf (!product.isAvailable) (productUnavailable item.productId)
      let unitPrice ← resolveUnitPrice env i item product
      let addons ← resolveAddons env userTenantId i 0 (item.addons.getD []) 0 []
      let totalLinePrice := (unitPrice + addons.1) * item.quantity
      return {
        productId := product.id
        sizeId := orNull item.sizeId
        variantId := orNull item.variantId
        quantity := item.quantity
        unitPrice := unitPrice
        totalPrice := totalLinePrice
        orderItemAddons := addons.2 }

/-- The loop over the lines, with the running subtotal and the lines priced so far. -/
def priceItems : ℕ → List OrderItemSelectionDto → ℚ → List OrderItemDraft →
    Service (ℚ × List OrderItemDraft)
  | _, [], subtotal, orderItemsToCreate => return (subtotal, orderItemsToCreate)
  | i, item :: rest, subtotal, orderItemsToCreate => do
      let draft ← priceItem env userTenantId i item
      priceItems (i + 1) rest (subtotal + draft.totalPrice) (orderItemsToCreate ++ [draft])

end Pricing

/-! ## Storing the order -/

/-- The largest value of an integer column, plus one. -/
def int4Bound : ℕ := 2 ^ 31

/-- The row of a line; {lit}`none` when an amount or the quantity overflows its column. -/
def OrderItemDraft.toRow (draft : OrderItemDraft) (id tenantId : Id) : Option OrderItem := do
  let unitPrice ← Decimal.ofNumber 10 2 draft.unitPrice
  let totalPrice ← Decimal.ofNumber 10 2 draft.totalPrice
  guard ((draft.quantity : ℕ) < int4Bound)
  return {
    id := id
    tenantId := tenantId
    productId := draft.productId
    variantId := draft.variantId
    sizeId := draft.sizeId
    quantity := draft.quantity
    unitPrice := unitPrice
    totalPrice := totalPrice
    cookingStatus := .PENDING
    orderItemAddons := draft.orderItemAddons }

/-- The rows of the lines, with their generated ids. -/
def itemRows (tenantId : Id) (uuid : ℕ → Id) : ℕ → List OrderItemDraft →
    Option (List OrderItem)
  | _, [] => some []
  | i, draft :: rest => do
      let row ← draft.toRow (uuid (i + 1)) tenantId
      let rows ← itemRows tenantId uuid (i + 1) rest
      return row :: rows

/-- The amounts of an order before they go into numeric columns. -/
structure Amounts where
  subtotal : ℚ
  taxAmount : ℚ
  discountAmount : ℚ
  total : ℚ
deriving DecidableEq, Repr

section Transaction

variable (env : CheckoutEnv) (userTenantId : Id) (dto : CreateOrderRequestDto)

/-- The order number. -/
def orderNumberOf : String :=
  "ORD-" ++ toString env.year ++ "-" ++ toString env.digits

/-- {lit}`orderNumber.slice(-3)`. -/
def ticketNumberOf (orderNumber : String) : String :=
  String.ofList (orderNumber.toList.drop (orderNumber.toList.length - 3))

/-- The discount code of the request, trimmed and in upper case. -/
def discountCodeOf : Option String :=
  (orNull dto.discountCode).map fun code => env.toUpperCase (trim code)

/-- Read and validate the discount of the request, if it names one. -/
def resolveDiscount (subtotal : ℚ) : Service (Option ResolvedDiscount) :=
  match orNull (discountCodeOf env dto) with
  | none => return none
  | some code => do
      let discount ← attempt (env.fails .discount)
        (discounts.run (prisma.discount.findUnique env.toEnv
          { tenantId := .filter (fun t => t == some userTenantId)
            rest := fun d => d.code == code }))
      let resolved ← Fallible.reads fun _ => validateDiscount discount code subtotal env.now
      return some resolved

/-- Count one use of a discount. -/
def incrementUsage (discountId : Id) : Service (Option Discount) :=
  attempt (env.fails .usage)
    (discounts.run (prisma.discount.update env.toEnv { id := some discountId }
      { assign := fun d => { d with usageCount := d.usageCount + 1 } }))

/-- Resolve the optional discount code and count its use. -/
def applyDiscount (subtotal : ℚ) : Service (ℚ × Option Id) := do
  let discount ← resolveDiscount env userTenantId dto subtotal
  match discount with
  | none => return (0, none)
  | some resolved => do
      let _ ← incrementUsage env resolved.discountId
      return (resolved.amount, some resolved.discountId)

/-- The columns of the order; {lit}`none` when one of them overflows. -/
def orderRow (amounts : Amounts) (discountId : Option Id) (drafts : List OrderItemDraft) :
    Option Order := do
  let subtotal ← Decimal.ofNumber 10 2 amounts.subtotal
  let taxAmount ← Decimal.ofNumber 10 2 amounts.taxAmount
  let discountAmount ← Decimal.ofNumber 10 2 amounts.discountAmount
  let total ← Decimal.ofNumber 10 2 amounts.total
  let orderItems ← itemRows userTenantId env.uuid 0 drafts
  return {
    id := env.uuid 0
    tenantId := userTenantId
    branchId := dto.branchId
    customerId := none
    tableId := orNull dto.tableId
    orderNumber := orderNumberOf env
    type := dto.type
    paymentMethod := some dto.paymentMethod
    status := .PENDING
    subtotal := subtotal
    taxAmount := taxAmount
    discountAmount := discountAmount
    discountId := discountId
    discountCode := discountCodeOf env dto
    total := total
    specialNotes := orNull dto.specialNotes
    orderItems := orderItems }

/-- The data of an order row. -/
def orderPayload (row : Order) : Payload Order where
  tenantId := some (some userTenantId)
  assign blank := { row with id := blank.id, tenantId := blank.tenantId }

/-- Insert the order with its lines and addon rows. -/
def insertOrder (amounts : Amounts) (discountId : Option Id) (drafts : List OrderItemDraft) :
    Service Order :=
  match orderRow env userTenantId dto amounts discountId drafts with
  | none => Fallible.throw (.client .constraintViolation)
  | some row => do
      let created ← orders.run (prisma.order.create env.toEnv (orderPayload userTenantId row))
      match created with
      | some order => return order
      | none => Fallible.throw .failure

/-- Store the amounts and lines of an order under its discount. -/
def storeOrder (subtotal taxAmount : ℚ) (drafts : List OrderItemDraft)
    (discount : ℚ × Option Id) : Service Order :=
  let total := round2 (subtotal + taxAmount - discount.1)
  attempt (env.fails .order)
    (insertOrder env userTenantId dto ⟨subtotal, taxAmount, discount.1, total⟩ discount.2 drafts)

/-- The data of the kitchen queue entry of an order. -/
def queuePayload (createdOrder : Order) : Payload KitchenQueue where
  tenantId := some (some userTenantId)
  assign blank :=
    { blank with
      branchId := dto.branchId
      orderId := createdOrder.id
      ticketNumber := ticketNumberOf (orderNumberOf env)
      priority := "NORMAL" }

/-- The surroundings of the statement that adds the queue entry. -/
def CheckoutEnv.forQueue : Env :=
  { env.toEnv with uuid := fun _ => env.queueUuid }

/-- Add the order to the kitchen queue. -/
def enqueue (createdOrder : Order) : Service (Option KitchenQueue) :=
  attempt (env.fails .queue) (kitchenQueues.run
    (prisma.kitchenQueue.create env.forQueue (queuePayload env userTenantId dto createdOrder)))

/-- The transaction: the discount, the order with its lines, and its queue entry. -/
def checkoutTransaction (subtotal taxAmount : ℚ) (drafts : List OrderItemDraft) :
    Service Order := do
  let discount ← applyDiscount env userTenantId dto subtotal
  let createdOrder ← storeOrder env userTenantId dto subtotal taxAmount drafts discount
  let _ ← enqueue env userTenantId dto createdOrder
  return createdOrder

end Transaction

/-! ## Broadcasts -/

/-- Send an event to the kitchen displays. -/
def emit (broadcast : Broadcast) : Service Unit :=
  Fallible.modify fun w => { w with broadcasts := w.broadcasts ++ [broadcast] }

/-- Broadcast an order event, unless the gateway is not wired or the room is unknown. -/
def emitKdsEvent (kdsGateway : Bool) (tenantId branchId : Id) (event : String)
    (order : Order) : Service Unit :=
  if kdsGateway && tenantId != "" && branchId != "" then
    emit ⟨tenantId, branchId, event, .order order⟩
  else pure ()

/-- The lines of an order with their display names, as the context reads them. -/
def ticketItems (context : TenantContext) (db : Db) (orderId : Id) : List TicketItem :=
  ((db.orders.filter fun o => o.id == orderId).flatMap (·.orderItems)).filterMap fun item =>
    if !truthy context.tenantId || context.tenantId == some item.tenantId then
      some {
        orderItemId := item.id
        name := (((db.products.find? fun p => p.id == item.productId).map (·.name)).filter
          (fun s => s != "")).getD "Unknown Product"
        quantity := item.quantity
        size := orNull (item.sizeId.bind fun id =>
          (db.productSizes.find? fun s => s.id == id).map (·.name))
        addons := item.orderItemAddons.filterMap fun a =>
          orNull ((db.addonItems.find? fun i => i.id == a.addonItemId).map (·.name))
        cookingStatus := item.cookingStatus }
    else none

/-- The broadcasts after the transaction are best effort: their failures are
swallowed. -/
def broadcastCheckout (env : CheckoutEnv) (userTenantId : Id) (dto : CreateOrderRequestDto)
    (order : Order) : Service Unit := do
  if env.kdsGateway then
    Fallible.orElse
      (do
        let items ← attempt (env.fails .ticketRead)
          (Fallible.reads fun w => .ok (ticketItems env.context w.db order.id))
        attempt (env.fails .ticketBroadcast)
          (emit ⟨userTenantId, dto.branchId, "ticket.created",
            .ticket order.id (ticketNumberOf (orderNumberOf env)) "NORMAL" items⟩))
      (pure ())
  Fallible.orElse
    (attempt (env.fails .orderBroadcast)
      (emitKdsEvent env.kdsGateway userTenantId dto.branchId "order.created" order))
    (pure ())

/-! ## The checkout -/

def branchNotFound (branchId : Id) : AppError :=
  .notFound ("The selected branch with ID [" ++ branchId ++ "] was not found.")

def restaurantNotFound : AppError :=
  .notFound "The parent restaurant brand was not found under this tenant context."

def tableNotFound (tableId : Id) : AppError :=
  .notFound ("The selected table with ID [" ++ tableId ++ "] was not found.")

def tableOfOtherBranch : AppError :=
  .badRequest "The selected table does not belong to the selected branch."

/-- A table named by the request must be a live table of the branch. -/
def validateTable (env : CheckoutEnv) (dto : CreateOrderRequestDto) (branch : Branch) :
    Service Unit :=
  match orNull dto.tableId with
  | none => pure ()
  | some tableId => do
      let table ← attempt (env.fails .table)
        (tables.run (tableRepository.findById env.toEnv tableId))
      match table with
      | none => Fallible.throw (tableNotFound tableId)
      | some table => Fallible.throwIf (table.branchId != branch.id) tableOfOtherBranch

/-- The checkout. -/
def createOrder (env : CheckoutEnv) (dto : CreateOrderRequestDto) (userTenantId : Id) :
    Service Order := do
  let branch ← attempt (env.fails .branch)
    (branches.run (branchRepository.findById env.toEnv dto.branchId))
  match branch with
  | none => Fallible.throw (branchNotFound dto.branchId)
  | some branch => do
      let restaurant ← attempt (env.fails .restaurant)
        (restaurants.run (restaurantRepository.findById env.toEnv branch.restaurantId))
      match restaurant with
      | none => Fallible.throw restaurantNotFound
      | some restaurant => do
          validateTable env dto branch
          let priced ← priceItems env userTenantId 0 dto.items 0 []
          let taxRate := restaurant.taxPercentage.toNumber / 100
          let taxAmount := round2 (priced.1 * taxRate)
          let order ← Fallible.transaction
            (checkoutTransaction env userTenantId dto priced.1 taxAmount priced.2)
          broadcastCheckout env userTenantId dto order
          return order

end OrderService
end Eleva
