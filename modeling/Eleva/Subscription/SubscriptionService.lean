import Eleva.Database.SoftDelete

/-!
# Subscription - Plans and their limits

The checks of a tenant's subscription and of the limits of its plan, and the guard that runs
the check which a route declares.

Main results:

- Definition {lit}`checkBranchLimit`: the limit on the branches of a tenant.
- Definition {lit}`canActivate`: the guard.
- Theorem {lit}`checkBranchLimit_ok`: a check that passed has counted fewer branches than the plan
  allows.
-/

namespace Eleva
namespace SubscriptionService

open Foundation Database TableOf

def statusName : SubscriptionStatus → String
  | .TRIALING => "TRIALING"
  | .ACTIVE => "ACTIVE"
  | .PAST_DUE => "PAST_DUE"
  | .UNPAID => "UNPAID"
  | .CANCELED => "CANCELED"

/-- The plan of a subscription. -/
def planOf (db : Db) (subscription : Subscription) : Option SubscriptionPlan :=
  db.subscriptionPlans.find? fun p => p.id == subscription.planId

/-- The subscription of a tenant with its plan.  A tenant has one at most, so that the order of
the rows does not matter. -/
def getActiveSubscription (env : Env) (tenantId : Id) :
    Service (Subscription × Option SubscriptionPlan) := do
  let found ← subscriptions.run (prisma.subscription.findFirst env
    { tenantId := .filter fun t => t == some tenantId })
  let subscription ← orThrow (.notFound ("No subscription found for tenant [" ++ tenantId ++ "]"))
    found
  Fallible.reads fun w => .ok (subscription, planOf w.db subscription)

/-- An unpaid or canceled subscription, or tenant, is refused. -/
def checkSubscriptionStatus (env : Env) (tenantId : Id) :
    Service (Subscription × Option SubscriptionPlan) := do
  let found ← getActiveSubscription env tenantId
  let tenant ← Fallible.reads fun w => .ok (w.db.tenants.find? fun t => t.id == tenantId)
  Fallible.throwIf (found.1.status == .UNPAID || found.1.status == .CANCELED ||
      tenant.any fun t => t.status == .UNPAID || t.status == .CANCELED)
    (.forbidden ("Subscription " ++ statusName found.1.status ++
      " - Access restricted. Please update billing to restore access. Current status: " ++
      statusName found.1.status))
  pure found

/-- The plan of a tenant whose subscription is not refused. -/
def checkedPlan (env : Env) (tenantId : Id) : Service SubscriptionPlan := do
  let found ← checkSubscriptionStatus env tenantId
  orThrow (.notFound "Subscription plan not found") found.2

/-- The context of a count: the tenant of the check. -/
def countContext (env : Env) (tenantId : Id) : Env :=
  { env with context := { tenantId := some tenantId } }

def checkBranchLimit (env : Env) (tenantId : Id) : Service (ℕ × Int) := do
  let plan ← checkedPlan env tenantId
  let currentCount ← branches.run (branchRepository.count (countContext env tenantId) {})
  Fallible.throwIf (plan.maxBranches ≤ currentCount)
    (.forbidden ("Branch limit reached (" ++ toString currentCount ++ "/" ++
      toString plan.maxBranches ++ "). Please upgrade to a higher tier. Current plan: " ++
      plan.name))
  pure (currentCount, plan.maxBranches)

/-- All products of the tenant are counted, whatever the branch. -/
def checkProductLimit (env : Env) (tenantId : Id) : Service (ℕ × Int) := do
  let plan ← checkedPlan env tenantId
  let currentCount ← products.run (productRepository.count (countContext env tenantId) {})
  Fallible.throwIf (plan.maxProductsPerBranch ≤ currentCount)
    (.forbidden ("Product limit reached (" ++ toString currentCount ++ "/" ++
      toString plan.maxProductsPerBranch ++ ") per branch. Please upgrade. Plan: " ++ plan.name))
  pure (currentCount, plan.maxProductsPerBranch)

/-- A feature that the plan has to allow. -/
def checkFeature (env : Env) (tenantId : Id) (allows : SubscriptionPlan → Bool)
    (refusal : String → String) : Service Bool := do
  let plan ← checkedPlan env tenantId
  Fallible.throwIf (!allows plan) (.forbidden (refusal plan.name))
  pure true

def checkCustomDomainAllowed (env : Env) (tenantId : Id) : Service Bool :=
  checkFeature env tenantId (·.allowCustomDomains) fun name =>
    "Custom domains not allowed on current plan [" ++ name ++ "]. Please upgrade to a higher tier."

def checkOnlinePaymentsAllowed (env : Env) (tenantId : Id) : Service Bool :=
  checkFeature env tenantId (·.allowOnlinePayments) fun name =>
    "Online payments not allowed on current plan [" ++ name ++ "]. Please upgrade."

def checkAnalyticsAllowed (env : Env) (tenantId : Id) : Service Bool :=
  checkFeature env tenantId (·.allowAnalytics) fun name =>
    "Analytics not allowed on current plan [" ++ name ++ "]. Please upgrade."

/-! ## The guard -/

/-- The check that a route declares. -/
inductive SubscriptionCheck where
  | branch
  | product
  | customDomain
  | onlinePayment
  | analytics
  | status
deriving DecidableEq, Repr

/-- Run the check of a limit or feature. -/
def SubscriptionCheck.run (env : Env) (tenantId : Id) : SubscriptionCheck → Service Unit
  | .branch => checkBranchLimit env tenantId >>= fun _ => pure ()
  | .product => checkProductLimit env tenantId >>= fun _ => pure ()
  | .customDomain => checkCustomDomainAllowed env tenantId >>= fun _ => pure ()
  | .onlinePayment => checkOnlinePaymentsAllowed env tenantId >>= fun _ => pure ()
  | .analytics => checkAnalyticsAllowed env tenantId >>= fun _ => pure ()
  | .status => pure ()

/-- {lit}`user?.tenantId || request.tenantId`. -/
def guardTenantId (userTenantId requestTenantId : Option Id) : Option Id :=
  if truthy userTenantId then userTenantId
  else if truthy requestTenantId then requestTenantId
  else none

/-- The guard: nothing is checked where the route declares no check. -/
def canActivate (env : Env) (check : Option SubscriptionCheck) (tenantId : Option Id) :
    Service Unit :=
  match check with
  | none => pure ()
  | some check => do
      let tenantId ← orThrow (.forbidden "Tenant context missing for subscription check") tenantId
      let _ ← checkSubscriptionStatus env tenantId
      check.run env tenantId

/-! ## What a check that passed has found -/

section Checks

variable {env : Env} {tenantId : Id} {w w' : World}

theorem getActiveSubscription_readsOnly :
    Fallible.ReadsOnly (getActiveSubscription env tenantId) :=
  .bind (run_readsOnly fun _ => Delegate.findFirst_state _) fun _ =>
    .bind (orThrow_readsOnly _ _) fun _ => .reads _

theorem checkSubscriptionStatus_readsOnly :
    Fallible.ReadsOnly (checkSubscriptionStatus env tenantId) :=
  .bind getActiveSubscription_readsOnly fun _ => .bind (.reads _) fun _ =>
    .bind (.throwIf _ _) fun _ => .pure _

theorem checkedPlan_readsOnly : Fallible.ReadsOnly (checkedPlan env tenantId) :=
  .bind checkSubscriptionStatus_readsOnly fun _ => orThrow_readsOnly _ _

/-- Counting through a repository leaves the table. -/
theorem count_readsOnly {Row : Type} [TenantRow Row] {repo : BaseTenantRepository Row}
    {env : Env} (f : Where Row) : Fallible.ReadsOnly (repo.count env f) :=
  .bind (.reads _) fun _ => .bind (fun _ => invoke_read_state (by decide) _) fun _ => .pure _

theorem checkFeature_readsOnly (allows : SubscriptionPlan → Bool) (refusal : String → String) :
    Fallible.ReadsOnly (checkFeature env tenantId allows refusal) :=
  .bind checkedPlan_readsOnly fun _ => .bind (.throwIf _ _) fun _ => .pure _

theorem checkBranchLimit_readsOnly : Fallible.ReadsOnly (checkBranchLimit env tenantId) :=
  .bind checkedPlan_readsOnly fun _ => .bind (run_readsOnly (count_readsOnly _)) fun _ =>
    .bind (.throwIf _ _) fun _ => .pure _

theorem checkProductLimit_readsOnly : Fallible.ReadsOnly (checkProductLimit env tenantId) :=
  .bind checkedPlan_readsOnly fun _ => .bind (run_readsOnly (count_readsOnly _)) fun _ =>
    .bind (.throwIf _ _) fun _ => .pure _

theorem SubscriptionCheck.run_readsOnly (check : SubscriptionCheck) :
    Fallible.ReadsOnly (check.run env tenantId) := by
  cases check with
  | branch => exact .bind checkBranchLimit_readsOnly fun _ => .pure _
  | product => exact .bind checkProductLimit_readsOnly fun _ => .pure _
  | customDomain => exact .bind (checkFeature_readsOnly _ _) fun _ => .pure _
  | onlinePayment => exact .bind (checkFeature_readsOnly _ _) fun _ => .pure _
  | analytics => exact .bind (checkFeature_readsOnly _ _) fun _ => .pure _
  | status => exact .pure _

/-- The guard leaves the database. -/
theorem canActivate_readsOnly (check : Option SubscriptionCheck) (tenantId : Option Id) :
    Fallible.ReadsOnly (canActivate env check tenantId) := by
  cases check with
  | none => exact .pure _
  | some check =>
      exact .bind (orThrow_readsOnly _ _) fun _ =>
        .bind checkSubscriptionStatus_readsOnly fun _ => check.run_readsOnly

/-- The number of live branches of a tenant. -/
def liveBranches (T : Id) (db : Db) : ℕ :=
  db.branches.countP fun b => b.tenantId == T && b.deletedAt.isNone

/-- A plan that was found belongs to a subscription of the tenant of the context. -/
theorem checkedPlan_ok {T : Id} {plan : SubscriptionPlan} (hctx : env.context.Holds T)
    (h : checkedPlan env T w = (.ok plan, w')) :
    w' = w ∧ ∃ s ∈ w.db.subscriptions, s.tenantId = T ∧ planOf w.db s = some plan := by
  have hw' : w' = w := checkedPlan_readsOnly.state_eq h
  rcases Fallible.bind_eq_ok.mp h with ⟨found, w₁, hstatus, hplan⟩
  rcases Fallible.bind_eq_ok.mp hstatus with ⟨_, w₂, hactive, hrest⟩
  rcases Fallible.bind_eq_ok.mp hrest with ⟨_, w₃, _, hpass⟩
  rcases Fallible.throwIf_bind_eq_ok.mp hpass with ⟨_, hsame⟩
  cases hsame
  rcases Fallible.bind_eq_ok.mp hactive with ⟨row, w₄, hread, hrest⟩
  rcases Fallible.bind_eq_ok.mp hrest with ⟨s, w₅, hthrow, hjoin⟩
  rcases orThrow_eq_ok.mp hthrow with ⟨hrow, hw₅⟩
  rcases Fallible.reads_eq_ok.mp hjoin with ⟨hjoin, _⟩
  cases hjoin
  rw [run_client_findFirst (S := some T) hctx (by decide) rfl] at hread
  cases hread
  have htenant : s.tenantId = T := by
    have hadmits := List.find?_some hrow
    simpa [Where.inScope, Where.withTenant, Where.admits, prisma.subscription, ColumnKey.admits,
      TenantRow.tenantId] using hadmits
  rw [hw₅] at hplan
  exact ⟨hw', s, List.mem_of_find?_eq_some hrow, htenant, (orThrow_eq_ok.mp hplan).1⟩

/-- A check of the branch limit that passed has counted fewer branches than the plan allows. -/
theorem checkBranchLimit_ok {T : Id} {a : ℕ × Int} (hctx : env.context.Holds T)
    (h : checkBranchLimit env T w = (.ok a, w')) :
    ∃ s ∈ w.db.subscriptions, s.tenantId = T ∧ ∃ plan, planOf w.db s = some plan ∧
      (liveBranches T w.db : Int) < plan.maxBranches := by
  rcases Fallible.bind_eq_ok.mp h with ⟨plan, w₁, hplan, hrest⟩
  rcases checkedPlan_ok hctx hplan with ⟨hw₁, s, hs, htenant, hsplan⟩
  rcases Fallible.bind_eq_ok.mp hrest with ⟨currentCount, w₂, hcount, hlimit⟩
  rcases Fallible.throwIf_bind_eq_ok.mp hlimit with ⟨hbelow, _⟩
  have hcountCtx : (countContext env T).context.Sees (some T) := ⟨rfl, hctx.nonempty⟩
  rw [run_count_live branches_softDelete hcountCtx] at hcount
  cases hcount
  refine ⟨s, hs, htenant, plan, hsplan, ?_⟩
  rw [hw₁] at hbelow
  have hlt := not_le.mp (of_decide_eq_false hbelow)
  exact hlt

end Checks

end SubscriptionService
end Eleva
