import Eleva.Foundation.Resumption
import Eleva.Order.Runs
import Eleva.Order.GuestCheckout

/-!
# Order - Calls of the order service, step by step

The order service's methods as programs of atomic steps on the shared database: each read before
a transaction, the transaction, and each write after it is a step of its own, so that the steps
of other calls may come in between.

Main results:

- Definitions {lit}`createOrderSteps`, {lit}`createGuestOrderSteps`,
  {lit}`updateOrderStatusSteps` and {lit}`cancelOrderSteps`: the methods.
- Theorems {lit}`createOrderSteps_alone`, {lit}`createGuestOrderSteps_alone`,
  {lit}`updateOrderStatusSteps_alone` and {lit}`cancelOrderSteps_alone`: a call that nothing
  interrupts is the method.
-/

namespace Eleva

open Foundation Database

/-- What a step is about to write of orders, branches and tables. -/
inductive Write where
  | nothing
  | order (branchId : Id) (tableId : Option Id)
  | status (id : Id) (status : OrderStatus)
  | branch (id : Id)
  | table (id : Id)
deriving DecidableEq, Repr

/-- A statement that fails writes nothing. -/
def Write.unless (write : Write) (fails : Bool) : Write :=
  if fails then .nothing else write

/-- A service method as a program of steps. -/
abbrev Steps (α : Type) : Type :=
  Prog Write World AppError α

/-- A step that writes nothing of orders, branches and tables. -/
def statement {α : Type} (x : Service α) : Steps α :=
  Prog.atomic .nothing x

@[simp]
theorem statement_alone {α : Type} (x : Service α) : (statement x).alone = x :=
  rfl

@[simp]
theorem orThrow_alone {α : Type} (e : AppError) (found : Option α) :
    (Prog.orThrow e found : Steps α).alone = orThrow e found := by
  cases found <;> rfl

namespace OrderService

open DiscountService

/-! ## The checkout -/

section Pricing

variable (env : CheckoutEnv) (userTenantId : Id)

def resolveUnitPriceSteps (i : ℕ) (item : OrderItemSelectionDto) (product : Product) :
    Steps ℚ :=
  match orNull item.variantId with
  | some variantId => do
      let variant ← statement
        (attempt (env.fails (.variant i)) (findVariant env variantId product.id))
      match variant with
      | none => Prog.throw (variantInvalid variantId item.productId)
      | some variant => do
          Prog.throwIf (decide (variant.stockQuantity ≤ 0))
            (variantOutOfStock variantId item.productId)
          return variant.price.toNumber
  | none =>
      match orNull item.sizeId with
      | some sizeId => do
          let size ← statement (attempt (env.fails (.size i)) (findSizes env sizeId product.id))
          match size.head? with
          | none => Prog.throw (sizeInvalid sizeId)
          | some size => return product.basePrice.toNumber + size.priceAdjustment.toNumber
      | none => return product.basePrice.toNumber

def resolveAddonsSteps (i : ℕ) :
    ℕ → List OrderAddonSelectionDto → ℚ → List OrderItemAddon →
      Steps (ℚ × List OrderItemAddon)
  | _, [], lineAddonsTotal, addonsToCreate => return (lineAddonsTotal, addonsToCreate)
  | j, addonSelection :: rest, lineAddonsTotal, addonsToCreate => do
      let addonItem ← statement (attempt (env.fails (.addon i j)) (addonItems.run
        (addonItemRepository.findMany env.toEnv { id := some addonSelection.addonItemId } {})))
      match addonItem.head? with
      | none => Prog.throw (addonUnavailable addonSelection.addonItemId)
      | some addonItem => do
          Prog.throwIf (!addonItem.isAvailable)
            (addonUnavailable addonSelection.addonItemId)
          resolveAddonsSteps i (j + 1) rest (lineAddonsTotal + addonItem.price.toNumber)
            (addonsToCreate ++
              [{ tenantId := userTenantId, addonItemId := addonItem.id, price := addonItem.price }])

def priceItemSteps (i : ℕ) (item : OrderItemSelectionDto) : Steps OrderItemDraft := do
  let product ← statement (attempt (env.fails (.product i))
    (products.run (productRepository.findById env.toEnv item.productId)))
  match product with
  | none => Prog.throw (productUnavailable item.productId)
  | some product => do
      Prog.throwIf (!product.isAvailable) (productUnavailable item.productId)
      let unitPrice ← resolveUnitPriceSteps env i item product
      let addons ← resolveAddonsSteps env userTenantId i 0 (item.addons.getD []) 0 []
      let totalLinePrice := (unitPrice + addons.1) * item.quantity
      return {
        productId := product.id
        sizeId := orNull item.sizeId
        variantId := orNull item.variantId
        quantity := item.quantity
        unitPrice := unitPrice
        totalPrice := totalLinePrice
        orderItemAddons := addons.2 }

def priceItemsSteps : ℕ → List OrderItemSelectionDto → ℚ → List OrderItemDraft →
    Steps (ℚ × List OrderItemDraft)
  | _, [], subtotal, orderItemsToCreate => return (subtotal, orderItemsToCreate)
  | i, item :: rest, subtotal, orderItemsToCreate => do
      let draft ← priceItemSteps env userTenantId i item
      priceItemsSteps (i + 1) rest (subtotal + draft.totalPrice) (orderItemsToCreate ++ [draft])

theorem resolveUnitPriceSteps_alone (i : ℕ) (item : OrderItemSelectionDto) (product : Product) :
    (resolveUnitPriceSteps env i item product).alone = resolveUnitPrice env i item product := by
  unfold resolveUnitPriceSteps resolveUnitPrice
  cases orNull item.variantId with
  | some variantId =>
      simp only [Prog.alone_bind, statement_alone]
      congr 1
      funext variant
      cases variant with
      | none => rfl
      | some variant => simp
  | none =>
      cases orNull item.sizeId with
      | none => rfl
      | some sizeId =>
          simp only [Prog.alone_bind, statement_alone]
          congr 1
          funext size
          cases size.head? <;> rfl

theorem resolveAddonsSteps_alone (i j : ℕ) (selections : List OrderAddonSelectionDto) (total : ℚ)
    (created : List OrderItemAddon) :
    (resolveAddonsSteps env userTenantId i j selections total created).alone =
      resolveAddons env userTenantId i j selections total created := by
  induction selections generalizing j total created with
  | nil => rfl
  | cons addonSelection rest ih =>
      simp only [resolveAddonsSteps, resolveAddons, Prog.alone_bind, statement_alone]
      congr 1
      funext addonItem
      cases addonItem.head? with
      | none => rfl
      | some addonItem => simp [ih]

theorem priceItemSteps_alone (i : ℕ) (item : OrderItemSelectionDto) :
    (priceItemSteps env userTenantId i item).alone = priceItem env userTenantId i item := by
  simp only [priceItemSteps, priceItem, Prog.alone_bind, statement_alone]
  congr 1
  funext product
  cases product with
  | none => rfl
  | some product => simp [resolveUnitPriceSteps_alone, resolveAddonsSteps_alone]

theorem priceItemsSteps_alone (i : ℕ) (items : List OrderItemSelectionDto) (subtotal : ℚ)
    (created : List OrderItemDraft) :
    (priceItemsSteps env userTenantId i items subtotal created).alone =
      priceItems env userTenantId i items subtotal created := by
  induction items generalizing i subtotal created with
  | nil => rfl
  | cons item rest ih =>
      simp [priceItemsSteps, priceItems, priceItemSteps_alone, ih]

end Pricing

/-- The check of the table, a read where the request names one. -/
def validateTableSteps (env : CheckoutEnv) (dto : CreateOrderRequestDto) (branch : Branch) :
    Steps Unit :=
  match orNull dto.tableId with
  | none => pure ()
  | some tableId => do
      let table ← statement (attempt (env.fails .table)
        (tables.run (tableRepository.findById env.toEnv tableId)))
      match table with
      | none => Prog.throw (tableNotFound tableId)
      | some table => Prog.throwIf (table.branchId != branch.id) tableOfOtherBranch

/-- The order that the transaction of a checkout writes. -/
def orderWrite (env : CheckoutEnv) (dto : CreateOrderRequestDto) : Write :=
  (Write.order dto.branchId (orNull dto.tableId)).unless
    (env.fails .order || env.fails .queue)

def createOrderSteps (env : CheckoutEnv) (dto : CreateOrderRequestDto) (userTenantId : Id) :
    Steps Order := do
  let branch ← statement (attempt (env.fails .branch)
    (branches.run (branchRepository.findById env.toEnv dto.branchId)))
  match branch with
  | none => Prog.throw (branchNotFound dto.branchId)
  | some branch => do
      let restaurant ← statement (attempt (env.fails .restaurant)
        (restaurants.run (restaurantRepository.findById env.toEnv branch.restaurantId)))
      match restaurant with
      | none => Prog.throw restaurantNotFound
      | some restaurant => do
          validateTableSteps env dto branch
          let priced ← priceItemsSteps env userTenantId 0 dto.items 0 []
          let taxRate := restaurant.taxPercentage.toNumber / 100
          let taxAmount := round2 (priced.1 * taxRate)
          let order ← Prog.atomic (orderWrite env dto) (Fallible.transaction
            (checkoutTransaction env userTenantId dto priced.1 taxAmount priced.2))
          statement (broadcastCheckout env userTenantId dto order)
          return order

def createGuestOrderSteps (env : GuestEnv) (dto : CreateOrderRequestDto) (guestTenantId : Id) :
    Steps Order := do
  Prog.throwIf (guestTenantId == "")
    (.badRequest "Tenant context is required for guest checkout.")
  let qrCodeToken ← Prog.orThrow (.badRequest "A valid qrCodeToken is required for guest checkout.")
    (dto.qrCodeToken.filter fun s => trim s != "")
  let found ← statement (attempt (env.guestFails .scannedTable)
    (tables.run (findByQrCodeToken (env.inTenant guestTenantId).toEnv qrCodeToken)))
  let table ← Prog.orThrow (.notFound "The scanned QR code could not be resolved.") found
  Prog.throwIf (dto.branchId != table.branchId)
    (.badRequest "The order target branch does not match the scanned table branch.")
  Prog.throwIf ((orNull dto.tableId).any fun tableId => tableId != table.id)
    (.badRequest "The order target table does not match the scanned QR table.")
  let tenant ← statement (attempt (env.guestFails .tenant)
    (Fallible.reads fun w => .ok (w.db.tenants.find? fun t => t.id == guestTenantId)))
  Prog.throwIf (tenant.any fun t => t.status == .UNPAID || t.status == .CANCELED)
    (.forbidden "Online ordering is temporarily unavailable for this restaurant.")
  createOrderSteps (env.inTenant guestTenantId) (dto.boundTo table) guestTenantId

theorem validateTableSteps_alone (env : CheckoutEnv) (dto : CreateOrderRequestDto)
    (branch : Branch) :
    (validateTableSteps env dto branch).alone = validateTable env dto branch := by
  unfold validateTableSteps validateTable
  cases orNull dto.tableId with
  | none => rfl
  | some tableId =>
      simp only [Prog.alone_bind, statement_alone]
      congr 1
      funext table
      cases table with
      | none => rfl
      | some table => simp

/-- A checkout that nothing interrupts is the method. -/
theorem createOrderSteps_alone (env : CheckoutEnv) (dto : CreateOrderRequestDto)
    (userTenantId : Id) :
    (createOrderSteps env dto userTenantId).alone = createOrder env dto userTenantId := by
  simp only [createOrderSteps, createOrder, Prog.alone_bind, statement_alone]
  congr 1
  funext branch
  cases branch with
  | none => rfl
  | some branch =>
      simp only [Prog.alone_bind, statement_alone]
      congr 1
      funext restaurant
      cases restaurant with
      | none => rfl
      | some restaurant => simp [validateTableSteps_alone, priceItemsSteps_alone]

/-- A guest's checkout that nothing interrupts is the method. -/
theorem createGuestOrderSteps_alone (env : GuestEnv) (dto : CreateOrderRequestDto)
    (guestTenantId : Id) :
    (createGuestOrderSteps env dto guestTenantId).alone =
      createGuestOrder env dto guestTenantId := by
  simp [createGuestOrderSteps, createGuestOrder, createOrderSteps_alone]

/-! ## Status changes -/

section Status

variable (env : StatusEnv)

def generateInvoiceSteps (order : Order) : Steps Invoice := do
  let parties ← statement (resolveParties env order)
  let pdfUrl ← statement (renderAndStoreInvoicePdf env order parties)
  let created ← statement (attempt (env.fails .invoice)
    (invoices.run (invoiceRepository.create env.toEnv (invoicePayload env order pdfUrl))))
  match created with
  | some invoice => return invoice
  | none => Prog.throw .failure

/-- The repository's update of the status: the re-read and the write. -/
def changeStatusSteps (id : Id) (status : OrderStatus) : Steps Order := do
  let entityId ← statement (rereadOrder env id)
  Prog.atomic ((Write.status entityId status).unless (env.fails .write))
    (writeStatus env entityId status)

def updateOrderStatusSteps (id : Id) (status : OrderStatus) : Steps Order := do
  let _ ← statement (readAndCheck env id fun current => validateStateTransition current status)
  let updatedOrder ← changeStatusSteps env id status
  if status = .COMPLETED then
    let _ ← generateInvoiceSteps env updatedOrder
  statement (emitStatus env (mapStatusToEvent status) updatedOrder)
  return updatedOrder

def cancelOrderSteps (id : Id) : Steps Order := do
  let _ ← statement (readAndCheck env id validateCancellation)
  let cancelledOrder ← changeStatusSteps env id .CANCELLED
  statement (emitStatus env "order.cancelled" cancelledOrder)
  return cancelledOrder

theorem generateInvoiceSteps_alone (order : Order) :
    (generateInvoiceSteps env order).alone = generateInvoice env order := by
  simp only [generateInvoiceSteps, generateInvoice, Prog.alone_bind, statement_alone]
  congr 1
  funext parties
  congr 1
  funext pdfUrl
  congr 1
  funext created
  cases created <;> rfl

theorem changeStatusSteps_alone (id : Id) (status : OrderStatus) :
    (changeStatusSteps env id status).alone = changeStatus env id status := by
  simp [changeStatusSteps, changeStatus]

/-- A status update that nothing interrupts is the method. -/
theorem updateOrderStatusSteps_alone (id : Id) (status : OrderStatus) :
    (updateOrderStatusSteps env id status).alone = updateOrderStatus env id status := by
  simp [updateOrderStatusSteps, updateOrderStatus, changeStatusSteps_alone,
    generateInvoiceSteps_alone]

/-- A cancellation that nothing interrupts is the method. -/
theorem cancelOrderSteps_alone (id : Id) :
    (cancelOrderSteps env id).alone = cancelOrder env id := by
  simp [cancelOrderSteps, cancelOrder, changeStatusSteps_alone]

end Status

end OrderService
end Eleva
