import Eleva.Database.SoftDeleteLaws
import Eleva.Menu.MenuService

/-!
# Customer - Customer profiles

The methods that register, change, delete and restore customers, over a table of customers.
Before it writes an email, each method looks for a live customer that holds it.

Main results:

- Definitions {lit}`createCustomer`, {lit}`updateCustomer`, {lit}`deleteCustomer` and
  {lit}`restoreCustomer`: the methods.
- Theorem {lit}`findByEmail_ok`: what the check of an email finds.
- Theorem {lit}`Keyed.rewritten`: when rewriting a customer leaves the live emails apart.
-/

namespace Eleva
namespace CustomerService

open Foundation Database TableOf

/-! ## Requests and answers -/

structure CreateCustomerRequestDto where
  firstName : String
  lastName : String
  email : String
  phoneNumber : Field String := .undefined
deriving DecidableEq, Repr

structure UpdateCustomerRequestDto where
  firstName : Field String := .undefined
  lastName : Field String := .undefined
  email : Field String := .undefined
  phoneNumber : Field String := .undefined
  loyaltyPoints : Field Int := .undefined
deriving DecidableEq, Repr

/-- What a registration answers. -/
structure CustomerResponse where
  id : Id
  firstName : String
  lastName : String
  email : String
  loyaltyPoints : Int
  createdAt : Timestamp
deriving DecidableEq, Repr

structure SoftDeleteResult where
  id : Id
  deleted : Bool
deriving DecidableEq, Repr

structure RestoreResult where
  id : Id
  restored : Bool := true
deriving DecidableEq, Repr

/-! ## The methods -/

/-- Order states that still need the customer record. -/
def ACTIVE_ORDER_STATUSES : List OrderStatus :=
  [.DRAFT, .PENDING, .ACCEPTED, .PREPARING, .READY]

def takenMessage (email : String) : String :=
  "Customer with email [" ++ email ++ "] already exists under this tenant context."

def clashMessage (email : String) : String :=
  "A live customer already uses [" ++ email ++ "]. " ++
    "Resolve the duplicate before restoring this record."

/-- The customers with an email. -/
def emailWhere (email : String) : Where Customer where
  rest c := c.email == email

/-- The {lit}`data` object of a new customer, with the time that the column defaults to. -/
def newCustomer (dto : CreateCustomerRequestDto) (now : Timestamp) : Payload Customer where
  assign c :=
    { c with
      firstName := dto.firstName
      lastName := dto.lastName
      email := dto.email
      phoneNumber := MenuService.orNull "" dto.phoneNumber
      loyaltyPoints := 0
      createdAt := now }

/-- The answer about a new customer. -/
def registered (c : Customer) : CustomerResponse where
  id := c.id
  firstName := c.firstName
  lastName := c.lastName
  email := c.email
  loyaltyPoints := c.loyaltyPoints
  createdAt := c.createdAt

/-- The {lit}`data` object of an update. -/
def customerFields (dto : UpdateCustomerRequestDto) : Payload Customer where
  assign c :=
    { c with
      firstName := dto.firstName.getD c.firstName
      lastName := dto.lastName.getD c.lastName
      email := dto.email.getD c.email
      phoneNumber := dto.phoneNumber.write c.phoneNumber
      loyaltyPoints := dto.loyaltyPoints.getD c.loyaltyPoints }

/-- No key of the update is defined. -/
def UpdateCustomerRequestDto.isEmpty (dto : UpdateCustomerRequestDto) : Bool :=
  !(dto.firstName.isDefined || dto.lastName.isDefined || dto.email.isDefined ||
    dto.phoneNumber.isDefined || dto.loyaltyPoints.isDefined)

/-- The update names a null for a column that requires a value. -/
def UpdateCustomerRequestDto.isRefused (dto : UpdateCustomerRequestDto) : Bool :=
  dto.firstName.isNull || dto.lastName.isNull || dto.email.isNull || dto.loyaltyPoints.isNull

/-- The open orders of a customer. -/
def activeOrdersWhere (customerId tenantId : Id) : Where Order where
  tenantId := .filter fun t => t == some tenantId
  rest o := o.customerId == some customerId && ACTIVE_ORDER_STATUSES.contains o.status

def countActiveOrders (env : LifecycleEnv) (customerId tenantId : Id) : Service ℕ :=
  attempt (env.fails .count)
    (orders.run (prisma.order.count env.toEnv (activeOrdersWhere customerId tenantId)))

section Methods

variable (t : TableOf Customer)

/-- The live customers in scope that hold an email. -/
def findByEmail (env : LifecycleEnv) (email : String) : Service (List Customer) :=
  attempt (env.fails .uniqueRead)
    (t.run (customerRepository.findMany env.toEnv (emailWhere email) {}))

def createCustomer (env : LifecycleEnv) (dto : CreateCustomerRequestDto) :
    Service (Option CustomerResponse) := do
  let existing ← findByEmail t env dto.email
  Fallible.throwIf (existing.length > 0) (.conflict (takenMessage dto.email))
  -- without a tenant the object names a null tenant, which the client refuses
  Fallible.throwIf (!truthy env.context.tenantId) (.client (.unknownArgument "tenantId"))
  let customer ← attempt (env.fails .write)
    (t.run (customerRepository.create env.toEnv (newCustomer dto env.now)))
  pure (customer.map registered)

/-- The check of a changed email; a null is no value to look for. -/
def checkEmail (env : LifecycleEnv) (id : Id) (existing : Customer) : Field String → Service Unit
  | .undefined => pure ()
  | .null => Fallible.throw (.client (.unknownArgument "email"))
  | .value email =>
      if email = existing.email then pure ()
      else do
        let clash ← findByEmail t env email
        Fallible.throwIf (clash.any fun c => c.id != id) (.conflict (takenMessage email))

def updateCustomer (env : LifecycleEnv) (id : Id) (dto : UpdateCustomerRequestDto) :
    Service (Option Customer) := do
  let existing ← fetch t customerRepository env .read id (requestedNotFound "Customer" id)
  checkEmail t env id existing dto.email
  if dto.isEmpty then pure (some existing)
  else do
    Fallible.throwIf dto.isRefused (.client .constraintViolation)
    attempt (env.fails .write)
      (t.run (customerRepository.update env.toEnv id (customerFields dto)))

def deleteCustomer (env : LifecycleEnv) (id : Id) : Service SoftDeleteResult := do
  let existing ← fetch t customerRepository env .read id (requestedNotFound "Customer" id)
  let activeOrders ← countActiveOrders env id existing.tenantId
  Fallible.throwIf (activeOrders > 0)
    (.conflict ("This customer cannot be deleted while they have " ++ toString activeOrders ++
      " order(s) in progress. Complete or cancel them first."))
  let _ ← attempt (env.fails .write) (t.run (customerRepository.softDelete env.toEnv id {}))
  pure { id, deleted := true }

def restoreCustomer (env : LifecycleEnv) (id : Id) : Service RestoreResult := do
  let existing ← fetchIncludingDeleted t customerRepository env .read id
    (requestedNotFound "Customer" id)
  let clash ← findByEmail t env existing.email
  Fallible.throwIf (clash.any fun c => c.id != id) (.conflict (clashMessage existing.email))
  let _ ← attempt (env.fails .write) (t.run (customerRepository.restore env.toEnv id {}))
  pure { id }

end Methods

/-! ## The check of an email -/

/-- A live customer in scope holds the email. -/
def holdsEmail (S : Option Id) (email : String) (c : Customer) : Bool :=
  visible S c && c.deletedAt.isNone && c.email == email

section Checks

variable {t : TableOf Customer} {env : LifecycleEnv} {S : Option Id} {email : String} {id : Id}
  {w w' : World}

theorem emailWhere_admits (hctx : env.context.Sees S) :
    (customerRepository.scopedWhere (emailWhere email) S).admits customerRepository.delegate =
      holdsEmail S email := by
  funext c
  rw [BaseTenantRepository.scopedWhere_admits_scope (BaseTenantRepository.truthy_of_sees hctx),
    Where.admits_inScope _ _ rfl]
  simp only [Where.admits, emailWhere, customerRepository, prisma.customer, ColumnKey.admits,
    Option.all_none, Bool.true_and, holdsEmail]
  cases c.email == email <;> cases visible S c <;> simp

/-- A check that is answered lists the live holders of the email, up to the cap. -/
theorem findByEmail_apply (hctx : env.context.Sees S) (w : World) :
    t.run (customerRepository.findMany env.toEnv (emailWhere email) {}) w =
      (.ok (((t.get w.db).filter (holdsEmail S email)).take
        BaseTenantRepository.DEFAULT_MAX_ROWS), w) := by
  refine run_of_read ?_
  have hknown : customerRepository.Known (emailWhere email) S :=
    BaseTenantRepository.known_of_absent S (fun _ => rfl) rfl
  rw [BaseTenantRepository.findMany_apply hctx customers_softDelete.isScoped hknown,
    emailWhere_admits hctx]

theorem findByEmail_readsOnly : Fallible.ReadsOnly (findByEmail t env email) :=
  attempt_readsOnly (run_readsOnly (BaseTenantRepository.findMany_readsOnly _ _))

theorem countActiveOrders_readsOnly {customerId tenantId : Id} :
    Fallible.ReadsOnly (countActiveOrders env customerId tenantId) :=
  attempt_readsOnly (fun w => run_read_state (by decide) _ _ w)

/-- A check that returned lists the live holders of the email, up to the cap. -/
theorem findByEmail_ok {found : List Customer} (hctx : env.context.Sees S)
    (h : findByEmail t env email w = (.ok found, w')) :
    w' = w ∧ found = ((t.get w.db).filter (holdsEmail S email)).take
      BaseTenantRepository.DEFAULT_MAX_ROWS := by
  have hrun := (attempt_eq_ok.mp h).2
  rw [findByEmail_apply hctx] at hrun
  cases hrun
  exact ⟨rfl, rfl⟩

/-- The cap hides no holder with another id: of two rows one has another id. -/
theorem any_take_ne {rows : List Customer} (hids : (rows.map (·.id)).Nodup) (id : Id) :
    ((rows.take BaseTenantRepository.DEFAULT_MAX_ROWS).any fun c => c.id != id) =
      rows.any fun c => c.id != id := by
  cases rows with
  | nil => rfl
  | cons a rows =>
      cases rows with
      | nil => rfl
      | cons b rows =>
          simp only [List.map_cons, List.nodup_cons, List.mem_cons, not_or] at hids
          have hone : (a.id != id || b.id != id) = true := by
            by_cases ha : a.id = id
            · have hb : b.id ≠ id := fun hb => hids.1.1 (ha.trans hb.symm)
              simp [hb]
            · simp [ha]
          rw [BaseTenantRepository.DEFAULT_MAX_ROWS, List.take_succ_cons, List.take_succ_cons]
          simp only [List.any_cons, ← Bool.or_assoc, hone, Bool.true_or]

end Checks

/-! ## Live emails -/

/-- The customers have ids of their own, and so have the live ones their email in a tenant. -/
structure Keyed (rows : List Customer) : Prop where
  ids : (rows.map (·.id)).Nodup
  emails : (rows.filterMap liveEmailKey).Nodup

section Keys

variable {rows : List Customer} {S : Option Id} {c : Customer}

theorem liveEmailKey_eq_some {c : Customer} {k : String} :
    liveEmailKey c = some k ↔ c.deletedAt = none ∧ pairKey c.email c.tenantId = k := by
  unfold liveEmailKey
  cases c.deletedAt <;> simp

/-- Two live customers share the key when they share the email and the tenant. -/
theorem liveEmailKey_ne {d : Customer} {k : String} (hk : liveEmailKey c = some k)
    (hother : d.deletedAt = none → d.email = c.email → d.tenantId = c.tenantId → False) :
    liveEmailKey d ≠ some k := by
  intro hd
  rcases liveEmailKey_eq_some.mp hk with ⟨_, rfl⟩
  rcases liveEmailKey_eq_some.mp hd with ⟨hlive, hkey⟩
  rcases pairKey_injective hkey with ⟨hemail, htenant⟩
  exact hother hlive hemail htenant

/-- Customers of one tenant are in the same scopes. -/
theorem visible_congr {d : Customer} (h : d.tenantId = c.tenantId) : visible S d = visible S c := by
  simp only [visible, owned, TenantRow.tenantId, h]

/-- The live customer in scope that holds an email in the tenant of another one holds it in the
scope of that one. -/
theorem holdsEmail_of_live {d : Customer} (hscope : visible S c = true) (hlive : d.deletedAt = none)
    (htenant : d.tenantId = c.tenantId) : holdsEmail S d.email d = true := by
  simp [holdsEmail, (visible_congr htenant).trans hscope, hlive]

/-- A live email of a tenant is that of one customer. -/
theorem Keyed.eq_of_email (h : Keyed rows) {d : Customer} (hc : c ∈ rows) (hd : d ∈ rows)
    (hclive : c.deletedAt = none) (hdlive : d.deletedAt = none) (hemail : d.email = c.email)
    (htenant : d.tenantId = c.tenantId) : d = c := by
  have hkey : liveEmailKey d = some (pairKey c.email c.tenantId) :=
    liveEmailKey_eq_some.mpr ⟨hdlive, by rw [hemail, htenant]⟩
  exact eq_of_filterMap_nodup h.emails hd hc hkey (liveEmailKey_eq_some.mpr ⟨hclive, rfl⟩)

/-- Rewriting the customer with an id leaves the live emails apart, when no other live customer
of the tenant holds the new one. -/
theorem Keyed.rewritten (h : Keyed rows) {f : Customer → Customer} (hc : c ∈ rows)
    (hid : ∀ x, (f x).id = x.id) (htenant : ∀ x, (f x).tenantId = x.tenantId)
    (hfree : (f c).deletedAt = none → ∀ y ∈ rows, y.id ≠ c.id → y.deletedAt = none →
      y.tenantId = c.tenantId → y.email ≠ (f c).email) :
    Keyed (rewriteWhere (ownRow S c.id) f rows) := by
  constructor
  · rw [map_rewriteWhere hid]
    exact h.ids
  · refine nodup_filterMap_rewriteWhere h.emails ?_ ?_
    · refine (List.pairwise_map.mp h.ids).imp fun hne hx => ?_
      have hx' := id_of_ownRow hx
      simp only [ownRow, Bool.and_eq_false_iff, beq_eq_false_iff_ne]
      exact Or.inl fun heq => hne (hx'.trans heq)
    · intro x hx y hy hpx hpy k hk
      cases List.inj_on_of_nodup_map h.ids hx hc (id_of_ownRow hpx)
      refine liveEmailKey_ne hk fun hlive hemail htenants => ?_
      rw [htenant] at htenants
      have hyid : y.id ≠ c.id := by
        intro heq
        cases List.inj_on_of_nodup_map h.ids hy hc heq
        rw [hpx] at hpy
        cases hpy
      exact hfree (liveEmailKey_eq_some.mp hk).1 y hy hyid hlive htenants hemail

/-- A new customer leaves the live emails apart, when no live customer of the tenant holds its
own. -/
theorem Keyed.appended (h : Keyed rows) (hid : c.id ∉ rows.map (·.id))
    (hscope : visible S c = true) (hfree : ∀ y ∈ rows, holdsEmail S c.email y = false) :
    Keyed (rows ++ [c]) := by
  constructor
  · rw [List.map_append, List.nodup_append]
    exact ⟨h.ids, List.nodup_singleton _, fun x hx y hy => by
      rw [List.map_singleton, List.mem_singleton] at hy
      rintro rfl
      exact hid (hy ▸ hx)⟩
  · rw [List.filterMap_append, List.nodup_append]
    refine ⟨h.emails, ?_, ?_⟩
    · cases hk : liveEmailKey c <;> simp [hk]
    · intro k hk k' hk' hkk
      subst hkk
      rcases List.mem_filterMap.mp hk with ⟨y, hy, hyk⟩
      have hck : liveEmailKey c = some k := by simpa using hk'
      refine liveEmailKey_ne hck (fun hlive hemail htenants => ?_) hyk
      have hheld := hfree y hy
      simp [holdsEmail, (visible_congr htenants).trans hscope, hlive, hemail] at hheld

end Keys

end CustomerService
end Eleva
