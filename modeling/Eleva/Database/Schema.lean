import Eleva.Database.Client
import Eleva.Foundation.FixedDecimal

/-!
# Database - The schema's models

The rows of the tables that the modelled code reads and writes, with the columns that
this code uses.  Amounts are numeric columns of the precision the schema gives them.
Rows that are only ever written together with another row are stored in it: the items of
an order with their addon rows, the permissions of a role, the roles and branches of a
user.  A table lists its rows in the order of their creation.

Main results:

- Structure {lit}`Db`: the tables.
- Definition {lit}`Order.references`: the foreign keys of an order and its items.
-/

namespace Eleva
namespace Database

open Foundation

instance (precision scale : ℕ) : Inhabited (Decimal precision scale) :=
  ⟨⟨0, by positivity⟩⟩

/-- {lit}`@db.Decimal(10, 2)`. -/
abbrev Money := Decimal 10 2

/-- {lit}`@db.Decimal(5, 2)`. -/
abbrev Percentage := Decimal 5 2

/-- {lit}`@db.Decimal(9, 6)`. -/
abbrev Coordinate := Decimal 9 6

inductive OrderType where
  | DINE_IN
  | TAKE_AWAY
  | DELIVERY
deriving DecidableEq, Repr, Inhabited

inductive OrderStatus where
  | DRAFT
  | PENDING
  | ACCEPTED
  | PREPARING
  | READY
  | COMPLETED
  | CANCELLED
deriving DecidableEq, Repr, Inhabited

inductive CookingStatus where
  | PENDING
  | PREPARING
  | COOKED
  | SERVED
deriving DecidableEq, Repr, Inhabited

inductive PaymentMethodType where
  | CASH
  | CREDIT_CARD
  | APPLE_PAY
  | LOCAL_WALLET
deriving DecidableEq, Repr, Inhabited

inductive DiscountType where
  | PERCENTAGE
  | FIXED_AMOUNT
deriving DecidableEq, Repr, Inhabited

inductive TableStatus where
  | VACANT
  | OCCUPIED
  | RESERVED
  | DIRTY
deriving DecidableEq, Repr, Inhabited

inductive TenantStatus where
  | TRIALING
  | ACTIVE
  | PAST_DUE
  | UNPAID
  | CANCELED
deriving DecidableEq, Repr, Inhabited

inductive SubscriptionStatus where
  | TRIALING
  | ACTIVE
  | PAST_DUE
  | UNPAID
  | CANCELED
deriving DecidableEq, Repr, Inhabited

inductive PaymentStatus where
  | PENDING
  | AUTHORIZED
  | PAID
  | FAILED
  | REFUNDED
deriving DecidableEq, Repr, Inhabited

inductive MediaType where
  | IMAGE
  | LOGO
  | BANNER
  | AVATAR
  | DOCUMENT
deriving DecidableEq, Repr, Inhabited

structure Tenant where
  id : Id
  name : String
  subdomain : String := ""
  customDomain : Option String := none
  status : TenantStatus := .TRIALING
  stripeCustomerId : Option String := none
  logoUrl : Option String := none
  bannerUrl : Option String := none
  primaryColor : String := "#000000"
  secondaryColor : String := "#FFFFFF"
  branding : List (String × String) := []
deriving DecidableEq, Repr, Inhabited

structure SubscriptionPlan where
  id : Id
  name : String
  maxBranches : Int := 1
  maxProductsPerBranch : Int := 100
  allowCustomDomains : Bool := false
  allowOnlinePayments : Bool := false
  allowAnalytics : Bool := false
deriving DecidableEq, Repr, Inhabited

structure Subscription where
  id : Id
  tenantId : Id
  planId : Id
  stripeSubscriptionId : Option String := none
  status : SubscriptionStatus := .TRIALING
  currentPeriodStart : Timestamp
  currentPeriodEnd : Timestamp
  cancelAtPeriodEnd : Bool := false
  canceledAt : Option Timestamp := none
deriving DecidableEq, Repr, Inhabited

structure Permission where
  id : Id
  action : String
  resource : String
deriving DecidableEq, Repr, Inhabited

structure Role where
  id : Id
  tenantId : Option Id
  name : String
  displayName : String
  permissionIds : List Id := []
deriving DecidableEq, Repr, Inhabited

structure User where
  id : Id
  tenantId : Option Id
  firstName : String
  lastName : String
  email : String
  passwordHash : String
  phoneNumber : Option String := none
  isActive : Bool := true
  mfaSecret : Option String := none
  mfaEnabled : Bool := false
  deletedAt : Option Timestamp := none
  roleIds : List Id := []
  branchIds : List Id := []
deriving DecidableEq, Repr, Inhabited

structure Restaurant where
  id : Id
  tenantId : Id
  name : String
  currency : String
  timezone : String := "UTC"
  taxPercentage : Percentage
  deletedAt : Option Timestamp := none
deriving DecidableEq, Repr, Inhabited

structure Branch where
  id : Id
  tenantId : Id
  restaurantId : Id
  name : String
  address : String := ""
  latitude : Option Coordinate := none
  longitude : Option Coordinate := none
  phoneNumber : String := ""
  operatingHours : String := ""
  isActive : Bool := true
  deletedAt : Option Timestamp := none
deriving DecidableEq, Repr, Inhabited

structure Table where
  id : Id
  tenantId : Id
  branchId : Id
  number : String
  seatingCapacity : Int := 4
  qrCodeToken : String
  status : TableStatus := .VACANT
  deletedAt : Option Timestamp := none
deriving DecidableEq, Repr, Inhabited

structure Category where
  id : Id
  tenantId : Id
  restaurantId : Id
  name : String
  sortOrder : Int
  isActive : Bool
  deletedAt : Option Timestamp := none
deriving DecidableEq, Repr, Inhabited

structure Product where
  id : Id
  tenantId : Id
  categoryId : Id
  name : String
  description : Option String := none
  imageUrl : Option String := none
  basePrice : Money
  isAvailable : Bool
  calories : Option Int := none
  preparationTime : Int := 15
  deletedAt : Option Timestamp := none
deriving DecidableEq, Repr, Inhabited

structure ProductSize where
  id : Id
  tenantId : Id
  productId : Id
  name : String
  priceAdjustment : Money
deriving DecidableEq, Repr, Inhabited

structure ProductVariant where
  id : Id
  tenantId : Id
  productId : Id
  name : String
  price : Money
  stockQuantity : Int
deriving DecidableEq, Repr, Inhabited

structure ProductAddon where
  id : Id
  tenantId : Id
  productId : Id
  name : String
  minSelections : Int
  maxSelections : Int
deriving DecidableEq, Repr, Inhabited

structure AddonItem where
  id : Id
  tenantId : Id
  addonGroupId : Id
  name : String
  price : Money
  isAvailable : Bool
deriving DecidableEq, Repr, Inhabited

structure Discount where
  id : Id
  tenantId : Id
  code : String
  type : DiscountType
  value : Money
  active : Bool
  validFrom : Option Timestamp
  validTo : Option Timestamp
  usageLimit : Option Int
  usageCount : Int
deriving DecidableEq, Repr, Inhabited

structure OrderItemAddon where
  tenantId : Id
  addonItemId : Id
  price : Money
deriving DecidableEq, Repr, Inhabited

structure OrderItem where
  id : Id
  tenantId : Id
  productId : Id
  variantId : Option Id
  sizeId : Option Id
  quantity : ℕ
  unitPrice : Money
  totalPrice : Money
  cookingStatus : CookingStatus
  orderItemAddons : List OrderItemAddon
deriving DecidableEq, Repr, Inhabited

structure Order where
  id : Id
  tenantId : Id
  branchId : Id
  customerId : Option Id
  tableId : Option Id
  orderNumber : String
  type : OrderType
  paymentMethod : Option PaymentMethodType
  status : OrderStatus
  subtotal : Money
  taxAmount : Money
  discountAmount : Money
  discountId : Option Id
  discountCode : Option String
  total : Money
  specialNotes : Option String
  orderItems : List OrderItem
deriving DecidableEq, Repr, Inhabited

structure KitchenQueue where
  id : Id
  tenantId : Id
  branchId : Id
  orderId : Id
  ticketNumber : String
  priority : String
  startedCookingAt : Option Timestamp := none
  completedCookingAt : Option Timestamp := none
deriving DecidableEq, Repr, Inhabited

structure Payment where
  id : Id
  tenantId : Id
  orderId : Id
  paymentMethod : PaymentMethodType
  status : PaymentStatus
  amount : Money
  transactionReference : Option String := none
  completedAt : Option Timestamp := none
deriving DecidableEq, Repr, Inhabited

structure Invoice where
  id : Id
  tenantId : Id
  orderId : Id
  invoiceNumber : String
  pdfUrl : String
deriving DecidableEq, Repr, Inhabited

structure Customer where
  id : Id
  tenantId : Id
  firstName : String
  lastName : String
  deletedAt : Option Timestamp := none
  email : String := ""
  phoneNumber : Option String := none
  loyaltyPoints : Int := 0
  createdAt : Timestamp := 0
deriving DecidableEq, Repr, Inhabited

structure Media where
  id : Id
  tenantId : Id
  entityType : String
  entityId : String
  mediaType : MediaType
  originalName : String
  mimeType : String
  originalFileSize : ℕ
  fileSize : ℕ
  checksum : String
  width : Option ℕ := none
  height : Option ℕ := none
  storageKey : String
  storageProvider : String := "local"
  originalUrl : String
  thumbnailUrl : Option String := none
  mediumUrl : Option String := none
  largeUrl : Option String := none
  status : String := "ready"
  createdAt : Timestamp := 0
  updatedAt : Timestamp := 0
deriving DecidableEq, Repr, Inhabited

/-! ## Tenant columns -/

/-- A model with a required {lit}`tenantId` column. -/
@[reducible]
def TenantRow.ofColumns {Row : Type} (id tenantId : Row → Id) (setTenantId : Id → Row → Row)
    (tenantId_set : ∀ t r, tenantId (setTenantId t r) = t)
    (id_set : ∀ t r, id (setTenantId t r) = id r) : TenantRow Row where
  id := id
  tenantId r := some (tenantId r)
  setTenantId t r := setTenantId (t.getD (tenantId r)) r
  tenantId_setTenantId t r := congrArg some (tenantId_set t r)
  id_setTenantId t r := id_set (t.getD (tenantId r)) r

instance : TenantRow Restaurant :=
  .ofColumns (·.id) (·.tenantId) (fun t r => { r with tenantId := t })
    (fun _ _ => rfl) (fun _ _ => rfl)

instance : TenantRow Branch :=
  .ofColumns (·.id) (·.tenantId) (fun t r => { r with tenantId := t })
    (fun _ _ => rfl) (fun _ _ => rfl)

instance : TenantRow Table :=
  .ofColumns (·.id) (·.tenantId) (fun t r => { r with tenantId := t })
    (fun _ _ => rfl) (fun _ _ => rfl)

instance : TenantRow Category :=
  .ofColumns (·.id) (·.tenantId) (fun t r => { r with tenantId := t })
    (fun _ _ => rfl) (fun _ _ => rfl)

instance : TenantRow Product :=
  .ofColumns (·.id) (·.tenantId) (fun t r => { r with tenantId := t })
    (fun _ _ => rfl) (fun _ _ => rfl)

instance : TenantRow ProductSize :=
  .ofColumns (·.id) (·.tenantId) (fun t r => { r with tenantId := t })
    (fun _ _ => rfl) (fun _ _ => rfl)

instance : TenantRow ProductVariant :=
  .ofColumns (·.id) (·.tenantId) (fun t r => { r with tenantId := t })
    (fun _ _ => rfl) (fun _ _ => rfl)

instance : TenantRow AddonItem :=
  .ofColumns (·.id) (·.tenantId) (fun t r => { r with tenantId := t })
    (fun _ _ => rfl) (fun _ _ => rfl)

instance : TenantRow Discount :=
  .ofColumns (·.id) (·.tenantId) (fun t r => { r with tenantId := t })
    (fun _ _ => rfl) (fun _ _ => rfl)

instance : TenantRow Order :=
  .ofColumns (·.id) (·.tenantId) (fun t r => { r with tenantId := t })
    (fun _ _ => rfl) (fun _ _ => rfl)

instance : TenantRow OrderItem :=
  .ofColumns (·.id) (·.tenantId) (fun t r => { r with tenantId := t })
    (fun _ _ => rfl) (fun _ _ => rfl)

instance : TenantRow KitchenQueue :=
  .ofColumns (·.id) (·.tenantId) (fun t r => { r with tenantId := t })
    (fun _ _ => rfl) (fun _ _ => rfl)

instance : TenantRow Invoice :=
  .ofColumns (·.id) (·.tenantId) (fun t r => { r with tenantId := t })
    (fun _ _ => rfl) (fun _ _ => rfl)

instance : TenantRow Customer :=
  .ofColumns (·.id) (·.tenantId) (fun t r => { r with tenantId := t })
    (fun _ _ => rfl) (fun _ _ => rfl)

instance : TenantRow Payment :=
  .ofColumns (·.id) (·.tenantId) (fun t r => { r with tenantId := t })
    (fun _ _ => rfl) (fun _ _ => rfl)

instance : TenantRow Subscription :=
  .ofColumns (·.id) (·.tenantId) (fun t r => { r with tenantId := t })
    (fun _ _ => rfl) (fun _ _ => rfl)

instance : TenantRow Media :=
  .ofColumns (·.id) (·.tenantId) (fun t r => { r with tenantId := t })
    (fun _ _ => rfl) (fun _ _ => rfl)

/-- Roles and users of no tenant belong to the platform. -/
instance : TenantRow Role where
  id := Role.id
  tenantId := Role.tenantId
  setTenantId t r := { r with tenantId := t }
  tenantId_setTenantId _ _ := rfl
  id_setTenantId _ _ := rfl

instance : TenantRow User where
  id := User.id
  tenantId := User.tenantId
  setTenantId t r := { r with tenantId := t }
  tenantId_setTenantId _ _ := rfl
  id_setTenantId _ _ := rfl

/-- Rows of two models side by side. -/
instance {A B : Type} [TenantRow A] [TenantRow B] : TenantRow (A ⊕ B) where
  id := Sum.elim TenantRow.id TenantRow.id
  tenantId := Sum.elim TenantRow.tenantId TenantRow.tenantId
  setTenantId t := Sum.map (TenantRow.setTenantId t) (TenantRow.setTenantId t)
  tenantId_setTenantId t r := by
    cases r <;> exact TenantRow.tenantId_setTenantId t _
  id_setTenantId t r := by
    cases r <;> exact TenantRow.id_setTenantId t _

/-! ## The client's delegates -/

namespace prisma

def restaurant : Delegate Restaurant where
  model := "Restaurant"
  isRow _ := true
  blank id := { (default : Restaurant) with id := id }
  deletedAt := some ⟨(·.deletedAt), fun t r => { r with deletedAt := t },
    fun _ _ => rfl, fun _ _ => rfl, fun _ _ => rfl⟩

def branch : Delegate Branch where
  model := "Branch"
  isRow _ := true
  blank id := { (default : Branch) with id := id, isActive := true }
  deletedAt := some ⟨(·.deletedAt), fun t r => { r with deletedAt := t },
    fun _ _ => rfl, fun _ _ => rfl, fun _ _ => rfl⟩

def table : Delegate Table where
  model := "Table"
  isRow _ := true
  blank id := { (default : Table) with id := id, seatingCapacity := 4, status := .VACANT }
  deletedAt := some ⟨(·.deletedAt), fun t r => { r with deletedAt := t },
    fun _ _ => rfl, fun _ _ => rfl, fun _ _ => rfl⟩

def category : Delegate Category where
  model := "Category"
  isRow _ := true
  blank id := { (default : Category) with id := id, isActive := true }
  deletedAt := some ⟨(·.deletedAt), fun t r => { r with deletedAt := t },
    fun _ _ => rfl, fun _ _ => rfl, fun _ _ => rfl⟩

def product : Delegate Product where
  model := "Product"
  isRow _ := true
  blank id := { (default : Product) with id := id, isAvailable := true, preparationTime := 15 }
  deletedAt := some ⟨(·.deletedAt), fun t r => { r with deletedAt := t },
    fun _ _ => rfl, fun _ _ => rfl, fun _ _ => rfl⟩

def productSize : Delegate ProductSize where
  model := "ProductSize"
  isRow _ := true
  blank id := { (default : ProductSize) with id := id }

def productVariant : Delegate ProductVariant where
  model := "ProductVariant"
  isRow _ := true
  blank id := { (default : ProductVariant) with id := id }

def addonItem : Delegate AddonItem where
  model := "AddonItem"
  isRow _ := true
  blank id := { (default : AddonItem) with id := id, isAvailable := true }

def discount : Delegate Discount where
  model := "Discount"
  isRow _ := true
  blank id := { (default : Discount) with id := id, active := true }

def order : Delegate Order where
  model := "Order"
  isRow _ := true
  blank id := { (default : Order) with id := id, status := .DRAFT }

def orderItem : Delegate OrderItem where
  model := "OrderItem"
  isRow _ := true
  blank id := { (default : OrderItem) with id := id }

def kitchenQueue : Delegate KitchenQueue where
  model := "KitchenQueue"
  isRow _ := true
  blank id := { (default : KitchenQueue) with id := id, priority := "NORMAL" }

def invoice : Delegate Invoice where
  model := "Invoice"
  isRow _ := true
  blank id := { (default : Invoice) with id := id }

def customer : Delegate Customer where
  model := "Customer"
  isRow _ := true
  blank id := { (default : Customer) with id := id }
  deletedAt := some ⟨(·.deletedAt), fun t r => { r with deletedAt := t },
    fun _ _ => rfl, fun _ _ => rfl, fun _ _ => rfl⟩

def payment : Delegate Payment where
  model := "Payment"
  isRow _ := true
  blank id := { (default : Payment) with id := id, status := .PENDING }

def subscription : Delegate Subscription where
  model := "Subscription"
  isRow _ := true
  blank id := { (default : Subscription) with id := id, status := .TRIALING }

def media : Delegate Media where
  model := "Media"
  isRow _ := true
  blank id := { (default : Media) with id := id, storageProvider := "local", status := "ready" }

def role : Delegate Role where
  model := "Role"
  isRow _ := true
  blank id := { (default : Role) with id := id }

def user : Delegate User where
  model := "User"
  isRow _ := true
  blank id := { (default : User) with id := id, isActive := true }
  deletedAt := some ⟨(·.deletedAt), fun t r => { r with deletedAt := t },
    fun _ _ => rfl, fun _ _ => rfl, fun _ _ => rfl⟩

end prisma

/-- The tombstone column of restaurants. -/
def restaurantDeletedAt : DeletedAtColumn Restaurant :=
  ⟨(·.deletedAt), fun t r => { r with deletedAt := t }, fun _ _ => rfl, fun _ _ => rfl,
    fun _ _ => rfl⟩

/-- The tombstone column of branches. -/
def branchDeletedAt : DeletedAtColumn Branch :=
  ⟨(·.deletedAt), fun t r => { r with deletedAt := t }, fun _ _ => rfl, fun _ _ => rfl,
    fun _ _ => rfl⟩

/-- The tombstone column of tables. -/
def tableDeletedAt : DeletedAtColumn Table :=
  ⟨(·.deletedAt), fun t r => { r with deletedAt := t }, fun _ _ => rfl, fun _ _ => rfl,
    fun _ _ => rfl⟩

/-- The tombstone column of categories. -/
def categoryDeletedAt : DeletedAtColumn Category :=
  ⟨(·.deletedAt), fun t r => { r with deletedAt := t }, fun _ _ => rfl, fun _ _ => rfl,
    fun _ _ => rfl⟩

/-- The tombstone column of products. -/
def productDeletedAt : DeletedAtColumn Product :=
  ⟨(·.deletedAt), fun t r => { r with deletedAt := t }, fun _ _ => rfl, fun _ _ => rfl,
    fun _ _ => rfl⟩

/-! ## The database -/

/-- The tables. -/
structure Db where
  tenants : List Tenant := []
  subscriptionPlans : List SubscriptionPlan := []
  subscriptions : List Subscription := []
  permissions : List Permission := []
  roles : List Role := []
  users : List User := []
  restaurants : List Restaurant := []
  branches : List Branch := []
  tables : List Table := []
  categories : List Category := []
  products : List Product := []
  productSizes : List ProductSize := []
  productVariants : List ProductVariant := []
  productAddons : List ProductAddon := []
  addonItems : List AddonItem := []
  discounts : List Discount := []
  customers : List Customer := []
  orders : List Order := []
  kitchenQueues : List KitchenQueue := []
  invoices : List Invoice := []
  payments : List Payment := []
  media : List Media := []

/-- The foreign keys of an order item and its addon rows. -/
def OrderItem.references (db : Db) (item : OrderItem) : Bool :=
  db.products.any (fun p => p.id == item.productId) &&
    item.variantId.all (fun id => db.productVariants.any (fun v => v.id == id)) &&
    item.sizeId.all (fun id => db.productSizes.any (fun s => s.id == id)) &&
    item.orderItemAddons.all (fun a => db.addonItems.any (fun i => i.id == a.addonItemId))

/-- The foreign keys of an order and its items. -/
def Order.references (db : Db) (o : Order) : Bool :=
  db.branches.any (fun b => b.id == o.branchId) &&
    o.tableId.all (fun id => db.tables.any (fun t => t.id == id)) &&
    o.customerId.all (fun id => db.customers.any (fun c => c.id == id)) &&
    o.discountId.all (fun id => db.discounts.any (fun d => d.id == id)) &&
    o.orderItems.all (fun item => item.references db)

end Database
end Eleva
