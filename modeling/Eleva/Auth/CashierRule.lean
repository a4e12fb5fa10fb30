import Eleva.Auth.RbacGuard
import Eleva.Order.Totals
import Eleva.Order.Runs
import Eleva.Payment.WalletService

/-!
# Auth - The cashier's rule on paid orders

The factory forbids cashiers to update orders with the status {lit}`PAID`.  Being paid is
a status of a payment; an order has no such status, so the rule applies to no row that the
guard loads, and a cashier's permissions alone decide.

Main results:

- Theorem {lit}`permissionRule_update_iff`: the permissions that make a rule about updates of
  orders.
- Theorem {lit}`cashier_denied_iff`: a cashier is denied a paid order exactly without such a
  permission, or outside the order's tenant.
- Theorem {lit}`cashier_updates_paid_order`: an order, its payment, and a cashier who is let
  through.
-/

namespace Eleva
namespace Auth

open Foundation Database TableOf

/-! ## Permissions that reach the updates of orders -/

/-- The permissions whose rule is about updates of orders. -/
def orderUpdatePermissions : List String :=
  ["order:update", "Order:update", "order:manage", "Order:manage"]

/-- Where every rule that applies is a grant, an action is granted exactly when one applies. -/
theorem lastRuleDecides_iff {rules : List AbilityRule} {action subject : String}
    {fields : SubjectFields}
    (hgrants : ∀ rule ∈ rules, rule.applies action subject fields = true →
      rule.inverted = false) :
    lastRuleDecides rules action subject fields = true ↔
      ∃ rule ∈ rules, rule.applies action subject fields = true := by
  unfold lastRuleDecides
  cases hfind : rules.reverse.find? (·.applies action subject fields) with
  | none =>
      have hnone := List.find?_eq_none.mp hfind
      constructor
      · intro h
        cases h
      · rintro ⟨rule, hmem, happlies⟩
        exact absurd happlies (hnone rule (List.mem_reverse.mpr hmem))
  | some rule =>
      have hmem := List.mem_reverse.mp (List.mem_of_find?_eq_some hfind)
      have happlies := List.find?_some hfind
      constructor
      · exact fun _ => ⟨rule, hmem, happlies⟩
      · intro _
        simp [hgrants rule hmem happlies]

/-- The code of an upper-case character. -/
theorem toNat_toUpper (c : Char) :
    c.toUpper.toNat = if 97 ≤ c.toNat ∧ c.toNat ≤ 122 then c.toNat - 32 else c.toNat := by
  unfold Char.toUpper
  split
  · rename_i hlower
    have hlow : 97 ≤ c.val.toNat := hlower.1
    have hhigh : c.val.toNat ≤ 122 := hlower.2
    have hshift : ('A'.val - 'a'.val).toNat = 4294967264 := by decide
    have hsum : (c.val + ('A'.val - 'a'.val)).toNat = c.val.toNat - 32 := by
      rw [UInt32.toNat_add, hshift]
      omega
    rw [if_pos ⟨hlow, hhigh⟩]
    exact hsum
  · rename_i hother
    have hnot : ¬(97 ≤ c.toNat ∧ c.toNat ≤ 122) := hother
    rw [if_neg hnot]

/-- The characters whose upper case is an O. -/
theorem toUpper_eq_O {c : Char} : c.toUpper = 'O' ↔ c = 'o' ∨ c = 'O' := by
  constructor
  · intro h
    have hcode := congrArg Char.toNat h
    rw [toNat_toUpper] at hcode
    have hO : 'O'.toNat = 79 := by decide
    have ho : 'o'.toNat = 111 := by decide
    split at hcode
    · exact Or.inl (Char.toNat_inj.mp (by omega))
    · exact Or.inr (Char.toNat_inj.mp (by omega))
  · rintro (rfl | rfl)
    · decide
    · decide

/-- No upper case is a small letter. -/
theorem toUpper_ne_a (c : Char) : c.toUpper ≠ 'a' := by
  intro h
  have hcode := congrArg Char.toNat h
  rw [toNat_toUpper] at hcode
  have ha : 'a'.toNat = 97 := by decide
  split at hcode
  · omega
  · omega

theorem capitalized_eq_order {s : String} :
    capitalized s = "Order" ↔ s = "order" ∨ s = "Order" := by
  constructor
  · intro h
    unfold capitalized at h
    cases hlist : s.toList with
    | nil =>
        rw [hlist] at h
        exact absurd h (by decide)
    | cons c cs =>
        rw [hlist] at h
        have hchars := congrArg String.toList h
        simp only [String.toList_ofList] at hchars
        have hparts : c.toUpper = 'O' ∧ cs = ['r', 'd', 'e', 'r'] := by simpa using hchars
        rw [hparts.2] at hlist
        rcases toUpper_eq_O.mp hparts.1 with rfl | rfl
        · exact Or.inl (String.toList_inj.mp hlist)
        · exact Or.inr (String.toList_inj.mp hlist)
  · rintro (rfl | rfl)
    · decide
    · decide

theorem capitalized_ne_all (s : String) : capitalized s ≠ "all" := by
  intro h
  unfold capitalized at h
  split at h
  · exact absurd h (by decide)
  · next c cs _ =>
      have hchars := congrArg String.toList h
      simp only [String.toList_ofList] at hchars
      have hparts : c.toUpper = 'a' ∧ cs = ['l', 'l'] := by simpa using hchars
      exact toUpper_ne_a c hparts.1

/-- The permissions that make a rule about updates of orders. -/
theorem permissionRule_update_iff {permString : String} :
    (∃ rule, permissionRule permString = some rule ∧ rule.isAbout "update" "Order" = true) ↔
      permString ∈ orderUpdatePermissions := by
  constructor
  · rintro ⟨rule, hrule, habout⟩
    unfold permissionRule at hrule
    split at hrule
    · next hcount =>
        cases hrule
        simp only [AbilityRule.isAbout, Bool.and_eq_true, Bool.or_eq_true, beq_iff_eq,
          capitalized_ne_all, or_false, capitalized_eq_order] at habout
        have hsep : ':' ∈ permString.toList := List.count_pos_iff.mp (by omega)
        rw [eq_firstPart_append hsep]
        rcases habout with ⟨haction | haction, hresource | hresource⟩
        all_goals
          rw [haction, hresource]
          decide
    · cases hrule
  · intro hmem
    simp only [orderUpdatePermissions, List.mem_cons, List.not_mem_nil, or_false] at hmem
    rcases hmem with rfl | rfl | rfl | rfl
    all_goals exact ⟨_, rfl, by decide⟩

/-! ## The guard of an update -/

/-- The update of one order by its id. -/
def updateOrderRoute : RouteMetadata where
  requiredPermission := some ("update", "Order")

/-- A user with the role of a cashier who is no platform owner. -/
structure Cashier (user : AuthenticatedUser) : Prop where
  cashier : user.roles.contains "CASHIER" = true
  noOwner : user.roles.contains "PLATFORM_OWNER" = false

/-- An order that is stored under its primary key, with a payment that is paid. -/
structure PaidOrder (w : World) (order : Order) : Prop where
  stored : order ∈ w.db.orders
  primaryKey : ∀ r ∈ w.db.orders, r.id = order.id → r = order
  paid : ∃ payment ∈ w.db.payments, payment.orderId = order.id ∧ payment.status = .PAID

/-- The id of the order is well formed, and the order is in the tenant of the request. -/
def InTenant (env : Env) (order : Order) : Prop :=
  isUuid order.id = true ∧ ∃ S, env.context.Sees S ∧ visible S order = true

/-- No order has the status that the cashier's rule is about. -/
theorem statusName_ne_paid (status : OrderStatus) : statusName status ≠ "PAID" := by
  cases status <;> decide

/-- The rules of a cashier that apply to an update of a row that is not paid are grants. -/
theorem cashier_rules_grant {user : AuthenticatedUser} (hcashier : Cashier user)
    {fields : SubjectFields} (hstatus : fields.status ≠ some "PAID") {rule : AbilityRule}
    (hmem : rule ∈ createForUser user.payload)
    (happlies : rule.applies "update" "Order" fields = true) :
    rule.inverted = false ∧ ∃ permString ∈ user.permissions,
      permissionRule permString = some rule := by
  unfold createForUser at hmem
  rw [if_neg (by simpa [AuthenticatedUser.payload] using hcashier.noOwner)] at hmem
  simp only [List.mem_append] at hmem
  rcases hmem with ((hpermission | hrule) | hmanager) | htenant
  · rcases List.mem_filterMap.mp hpermission with ⟨permString, hperm, hrule⟩
    refine ⟨?_, permString, hperm, hrule⟩
    unfold permissionRule at hrule
    split at hrule
    · cases hrule
      rfl
    · cases hrule
  · have hrole : user.payload.roles.contains "CASHIER" = true := hcashier.cashier
    unfold cashierRules at hrule
    rw [if_pos hrole, List.mem_singleton] at hrule
    subst hrule
    simp [AbilityRule.applies, RuleCondition.holds, hstatus] at happlies
  · simp [branchManagerRules, AuthenticatedUser.payload] at hmanager
  · rw [List.mem_singleton] at htenant
    subst htenant
    simp [AbilityRule.applies, AbilityRule.isAbout] at happlies

/-- On a row that is not paid, a cashier's permissions alone decide. -/
theorem cashier_ability_iff {can : AbilityLibrary} (hcan : Documented can)
    {user : AuthenticatedUser} (hcashier : Cashier user) {fields : SubjectFields}
    (hstatus : fields.status ≠ some "PAID") :
    can (createForUser user.payload) "update" "Order" fields = true ↔
      ∃ permString ∈ user.permissions, permString ∈ orderUpdatePermissions := by
  rw [hcan, lastRuleDecides_iff fun rule hmem happlies =>
    (cashier_rules_grant hcashier hstatus hmem happlies).1]
  constructor
  · rintro ⟨rule, hmem, happlies⟩
    rcases (cashier_rules_grant hcashier hstatus hmem happlies).2 with
      ⟨permString, hperm, hrule⟩
    rw [AbilityRule.applies, Bool.and_eq_true] at happlies
    exact ⟨permString, hperm, permissionRule_update_iff.mp ⟨rule, hrule, happlies.1⟩⟩
  · rintro ⟨permString, hperm, hlisted⟩
    rcases permissionRule_update_iff.mpr hlisted with ⟨rule, hrule, habout⟩
    refine ⟨rule, ?_, ?_⟩
    · unfold createForUser
      rw [if_neg (by simpa [AuthenticatedUser.payload] using hcashier.noOwner)]
      simp only [List.mem_append, List.mem_filterMap]
      exact Or.inl (Or.inl (Or.inl ⟨permString, hperm, hrule⟩))
    · unfold permissionRule at hrule
      split at hrule
      · cases hrule
        simp [AbilityRule.applies, habout]
      · cases hrule

/-- The lookup of the guard, in a scope. -/
theorem realEntity_order {env : Env} {S : Option Id} (hctx : env.context.Sees S) (id : Id)
    (w : World) :
    realEntity env "Order" id false w =
      (.ok ((w.db.orders.find? fun r => id == r.id && visible S r).map fun o =>
        { status := some (statusName o.status), branchId := some o.branchId }), w) := by
  have hmodel : orderRepository.delegate.model ∉ unscopedModels := by decide
  have hfound := run_findById_plain (t := orders) hctx hmodel rfl id w
  simp only [realEntity, lookUp, Bool.false_eq_true, if_false]
  exact Fallible.bind_of_ok hfound

/-- The row of the order that a request names, in the tenant of the request. -/
theorem resourceInstance_of_inTenant {env : Env} {order : Order} {call : GuardedCall} {w : World}
    (hpaid : PaidOrder w order) (hid : call.recordId = some order.id)
    (htenant : InTenant env order) :
    resourceInstance env updateOrderRoute "update" "Order" call w =
      (.ok { status := some (statusName order.status), branchId := some order.branchId }, w) := by
  rcases htenant with ⟨huuid, S, hctx, hvisible⟩
  have hfind : w.db.orders.find? (fun r => order.id == r.id && visible S r) = some order := by
    cases hfind : w.db.orders.find? (fun r => order.id == r.id && visible S r) with
    | none => exact absurd (List.find?_eq_none.mp hfind order hpaid.stored) (by simp [hvisible])
    | some r =>
        have hadmits := List.find?_some hfind
        rw [Bool.and_eq_true, beq_iff_eq] at hadmits
        rw [hpaid.primaryKey r (List.mem_of_find?_eq_some hfind) hadmits.1.symm]
  have hentity := realEntity_order hctx order.id w
  rw [hfind] at hentity
  unfold resourceInstance
  rw [hid]
  simp only [huuid, Bool.not_true, updateOrderRoute]
  rw [if_pos (by decide), Fallible.throwIf_false_bind, Fallible.bind_of_ok hentity]
  rfl

/-- Elsewhere the request is refused before the ability is asked. -/
theorem resourceInstance_elsewhere {env : Env} {order : Order} {call : GuardedCall} {w : World}
    (hpaid : PaidOrder w order) (hid : call.recordId = some order.id)
    (htenant : ¬ InTenant env order) :
    ∃ e w', resourceInstance env updateOrderRoute "update" "Order" call w = (.error e, w') := by
  unfold resourceInstance
  rw [hid]
  simp only [updateOrderRoute]
  rw [if_pos (by decide)]
  cases huuid : isUuid order.id with
  | false => exact ⟨_, w, rfl⟩
  | true =>
      rw [Bool.not_true, Fallible.throwIf_false_bind]
      rcases hentity : realEntity env "Order" order.id false w with ⟨e | entity, w'⟩
      · rw [Fallible.bind_of_error hentity]
        exact ⟨e, w', rfl⟩
      · have hscope : ∃ S, env.context.Sees S := by
          simp only [realEntity, lookUp, Bool.false_eq_true, if_false] at hentity
          rcases Fallible.bind_eq_ok.mp hentity with ⟨row, w₁, hrow, _⟩
          exact sees_of_findFirst hrow
        rcases hscope with ⟨S, hctx⟩
        have hnone : w.db.orders.find? (fun r => order.id == r.id && visible S r) = none := by
          rw [List.find?_eq_none]
          intro r hr hadmits
          rw [Bool.and_eq_true, beq_iff_eq] at hadmits
          rw [hpaid.primaryKey r hr hadmits.1.symm] at hadmits
          exact htenant ⟨huuid, S, hctx, hadmits.2⟩
        have hlookup := realEntity_order hctx order.id w
        rw [hnone] at hlookup
        rw [Fallible.bind_of_ok hlookup]
        exact ⟨_, w, rfl⟩

/-- A request of a cashier to update a paid order is denied exactly without a permission for
it, or outside the order's tenant. -/
theorem cashier_denied_iff {can : AbilityLibrary} (hcan : Documented can) {env : Env}
    {call : GuardedCall} {user : AuthenticatedUser} {order : Order} {w : World}
    (hcashier : Cashier user) (hpaid : PaidOrder w order) (huser : call.user = some user)
    (hid : call.recordId = some order.id) :
    (canActivate can env updateOrderRoute call w).1 ≠ .ok () ↔
      ¬ (InTenant env order ∧
        ∃ permString ∈ user.permissions, permString ∈ orderUpdatePermissions) := by
  rw [not_iff_not]
  have hguard : canActivate can env updateOrderRoute call w =
      (do
        let fields ← resourceInstance env updateOrderRoute "update" "Order" call
        Fallible.throwIf (!can (createForUser user.payload) "update" "Order" fields)
          (.forbidden ("Access Denied: Your credentials lack the mandatory privilege [" ++
            "update" ++ " on " ++ "Order" ++ "]."))) w := by
    unfold canActivate
    rw [huser]
    rfl
  rw [hguard]
  by_cases htenant : InTenant env order
  · have hstatus : (some (statusName order.status)) ≠ some "PAID" := by
      simpa using statusName_ne_paid order.status
    rw [Fallible.bind_of_ok (resourceInstance_of_inTenant hpaid hid htenant),
      and_iff_right htenant]
    have hability : can (createForUser user.payload) "update" "Order"
        { status := some (statusName order.status), branchId := some order.branchId } = true ↔
          ∃ permString ∈ user.permissions, permString ∈ orderUpdatePermissions :=
      cashier_ability_iff hcan hcashier hstatus
    rw [← hability]
    cases hcans : can (createForUser user.payload) "update" "Order"
        { status := some (statusName order.status), branchId := some order.branchId } with
    | true => simp [Fallible.throwIf]
    | false => simp [Fallible.throwIf]
  · rcases resourceInstance_elsewhere hpaid hid htenant with ⟨e, w', hrefused⟩
    rw [Fallible.bind_of_error hrefused]
    simp [htenant]

/-! ## A paid order and two cashiers -/

/-- An order is placed, a payment is created for it, and the payment is verified. -/
def orderAndPay (checkout : OrderService.CheckoutEnv) (env : WalletService.WalletEnv)
    (dto : OrderService.CreateOrderRequestDto) (tenantId : Id) : Service Order := do
  let order ← OrderService.createOrder checkout dto tenantId
  let payment ← WalletService.createWalletPayment env
    { orderId := order.id, paymentMethod := .LOCAL_WALLET } tenantId
  let _ ← WalletService.verifyPayment env payment.paymentId tenantId
  return order

def soupOrderId : Id := "6b0c3f1e-8a52-4d7b-9c10-2f4e5a6b7c8d"

/-- A checkout in which the order gets a well-formed id. -/
def counterEnv : OrderService.CheckoutEnv :=
  { OrderService.guestEnv with
    uuid := fun i => if i = 0 then soupOrderId else "item-" ++ toString i }

/-- The provider captures the charge. -/
def capturingEnv : WalletService.WalletEnv where
  uuid _ := "payment-1"
  now := 60
  charge := .created "chg_1" "INITIATED"
  reply := .status "CAPTURED"

/-- The database after an order of soup is paid. -/
def paidSoup : World :=
  (orderAndPay counterEnv capturingEnv OrderService.soupRequest "tenant-a"
    { db := OrderService.soupMenu }).2

/-- There is one order and one payment, and the payment settles the order of soup. -/
def onlySoupPaid : List Order → List Payment → Bool
  | [order], [payment] => order.id == soupOrderId && order.tenantId == "tenant-a" &&
      payment.orderId == soupOrderId && payment.status == .PAID
  | _, _ => false

theorem paidSoup_paid : ∃ order, paidSoup.db.orders = [order] ∧ PaidOrder paidSoup order ∧
    order.id = soupOrderId ∧ order.tenantId = "tenant-a" := by
  have hrows : onlySoupPaid paidSoup.db.orders paidSoup.db.payments = true := by
    decide +kernel
  unfold onlySoupPaid at hrows
  split at hrows
  · next order payment horders hpayments =>
      simp only [Bool.and_eq_true, beq_iff_eq] at hrows
      rcases hrows with ⟨⟨⟨hid, htenant⟩, hpayment⟩, hstatus⟩
      refine ⟨order, horders, ⟨?_, ?_, ?_⟩, hid, htenant⟩
      · simp [horders]
      · intro r hr _
        rw [horders] at hr
        exact List.mem_singleton.mp hr
      · exact ⟨payment, by simp [hpayments], by rw [hpayment, hid], hstatus⟩
  · cases hrows

/-- The context of a request of the tenant. -/
def counterContext : Env where
  context := { tenantId := some "tenant-a" }
  uuid _ := ""
  now := 120

/-- A cashier with a set of permissions. -/
def cashierWith (permissions : List String) : AuthenticatedUser where
  id := "user-1"
  email := "cashier@soups.example"
  tenantId := some "tenant-a"
  roles := ["CASHIER"]
  permissions := permissions

theorem cashierWith_cashier (permissions : List String) : Cashier (cashierWith permissions) :=
  ⟨rfl, rfl⟩

/-- A cashier who may only read orders is denied the paid order. -/
theorem reader_denied : ∃ order ∈ paidSoup.db.orders,
    (canActivate lastRuleDecides counterContext updateOrderRoute
      { user := some (cashierWith ["order:read"]), paramsId := some order.id } paidSoup).1 ≠
      .ok () := by
  rcases paidSoup_paid with ⟨order, horders, hpaid, hid, _⟩
  refine ⟨order, by simp [horders], (cashier_denied_iff (fun _ _ _ _ => rfl)
    (cashierWith_cashier ["order:read"]) hpaid rfl ?_).mpr ?_⟩
  · rw [hid]
    rfl
  · rintro ⟨_, permString, hperm, hlisted⟩
    rw [List.mem_singleton.mp hperm] at hlisted
    exact absurd hlisted (by decide)

/-- A cashier with the permission to update orders passes the guard with the paid order. -/
theorem cashier_updates_paid_order : ∃ order w,
    orderAndPay counterEnv capturingEnv OrderService.soupRequest "tenant-a"
      { db := OrderService.soupMenu } = (.ok order, w) ∧
    (∃ payment ∈ w.db.payments, payment.orderId = order.id ∧ payment.status = .PAID) ∧
    Cashier (cashierWith ["order:update"]) ∧
    (canActivate lastRuleDecides counterContext updateOrderRoute
      { user := some (cashierWith ["order:update"]), paramsId := some order.id } w).1 = .ok () := by
  have hplaced : (orderAndPay counterEnv capturingEnv OrderService.soupRequest "tenant-a"
      { db := OrderService.soupMenu }).1.toOption.any (fun order => order.id == soupOrderId) =
      true := by decide +kernel
  rcases Fallible.returned_of_any hplaced with ⟨order, w, hrun, hid⟩
  have hworld : w = paidSoup := by
    unfold paidSoup
    rw [hrun]
  rw [beq_iff_eq] at hid
  rw [hworld] at hrun
  rcases paidSoup_paid with ⟨stored, _, hpaid, hstored, _⟩
  refine ⟨order, paidSoup, hrun, ?_, cashierWith_cashier _, ?_⟩
  · rw [hid, ← hstored]
    exact hpaid.paid
  · rw [hid]
    decide +kernel

end Auth
end Eleva
