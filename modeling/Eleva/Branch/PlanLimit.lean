import Eleva.Auth.RbacGuard
import Eleva.Branch.FloorPlan
import Eleva.Subscription.SubscriptionService

/-!
# Branch - The limit of the plan over whole runs

The branch routes with the guards that they declare, and the number of live branches that a
tenant has after any sequence of requests.

Main results:

- Theorem {lit}`plan_limit_kept`: the limit of the plan, where no restoration brings a branch back
  at the limit.
- Theorem {lit}`restore_adds_branch`: a restoration that brings a branch back adds one, whatever
  the limit.
- Theorem {lit}`plan_limit_passed`: a run that passes the limit.
-/

namespace Eleva
namespace BranchService

open Foundation Database TableOf Auth SubscriptionService

/-! ## The routes -/

/-- A request that is authenticated: its user, the tenant that the middleware resolved, and the
surroundings of the call. -/
structure Session where
  user : AuthenticatedUser
  requestTenantId : Option Id := none
  env : LifecycleEnv

/-- The tenant that the subscription guard checks. -/
def Session.tenantId (session : Session) : Option Id :=
  guardTenantId session.user.tenantId session.requestTenantId

/-- The tenant that the guard checks is the tenant of the database context. -/
def Session.Bound (session : Session) : Prop :=
  ∀ T ∈ session.tenantId, session.env.context.tenantId = some T

/-- The guards of a route, in their order. -/
def passes (can : AbilityLibrary) (session : Session) (route : RouteMetadata)
    (check : Option SubscriptionCheck) (paramsId : Option Id) : Service Unit := do
  Auth.canActivate can session.env.toEnv route { user := some session.user, paramsId }
  SubscriptionService.canActivate session.env.toEnv check session.tenantId

/-- A request to one of the branch routes. -/
inductive BranchRoute where
  | create (session : Session) (dto : CreateBranchRequestDto)
  | update (session : Session) (id : Id) (dto : UpdateBranchRequestDto)
  | delete (session : Session) (id : Id)
  | restore (session : Session) (id : Id)

def BranchRoute.session : BranchRoute → Session
  | .create session _ => session
  | .update session _ _ => session
  | .delete session _ => session
  | .restore session _ => session

/-- The guards that the route declares. -/
def BranchRoute.guards (can : AbilityLibrary) : BranchRoute → Service Unit
  | .create session _ =>
      passes can session { requiredPermission := some ("create", "Branch") } (some .branch) none
  | .update session id _ =>
      passes can session { requiredPermission := some ("update", "Branch") } none (some id)
  | .delete session id =>
      passes can session { requiredPermission := some ("delete", "Branch") } none (some id)
  | .restore session id =>
      passes can session
        { requiredPermission := some ("update", "Branch"), includeSoftDeleted := true } none
        (some id)

/-- The handler of the route, without its answer. -/
def BranchRoute.handle : BranchRoute → Service Unit
  | .create session dto => createBranch session.env dto >>= fun _ => pure ()
  | .update session id dto => updateBranch session.env id dto >>= fun _ => pure ()
  | .delete session id => deleteBranch session.env id >>= fun _ => pure ()
  | .restore session id => restoreBranch session.env id >>= fun _ => pure ()

def BranchRoute.run (can : AbilityLibrary) (route : BranchRoute) : Service Unit :=
  route.guards can >>= fun _ => route.handle

/-- The requests, one at a time. -/
def routeMachine (can : AbilityLibrary) : Machine BranchRoute World (Except AppError Unit) where
  step route w := route.run can w

/-! ## The limit -/

/-- Every subscription of the tenant has the plan. -/
def HasPlan (T : Id) (plan : SubscriptionPlan) (db : Db) : Prop :=
  ∀ s ∈ db.subscriptions, s.tenantId = T → planOf db s = some plan

/-- The request brings a deleted branch of the tenant back: it passes the guards, and none of
its statements fails. -/
def BringsBack (can : AbilityLibrary) (T : Id) (route : BranchRoute) (w : World) : Prop :=
  match route with
  | .restore session id =>
      (route.guards can w).1 = .ok () ∧ session.env.fails .read = false ∧
        session.env.fails .write = false ∧
        ∃ S b, session.env.context.Sees S ∧ w.db.branches.find? (ownRow S id) = some b ∧
          b.tenantId = T ∧ b.deletedAt.isSome
  | _ => False

/-- A request that brings a branch back does so below the limit. -/
def RestoresWithin (can : AbilityLibrary) (T : Id) (plan : SubscriptionPlan) (route : BranchRoute)
    (w : World) : Prop :=
  BringsBack can T route w → (liveBranches T w.db : Int) < plan.maxBranches

section Limit

variable {can : AbilityLibrary} {T : Id} {plan : SubscriptionPlan} {w w' : World}

theorem guards_readsOnly (route : BranchRoute) : Fallible.ReadsOnly (route.guards can) := by
  cases route with
  | create session dto =>
      exact .bind (Auth.canActivate_readsOnly _ _ _ _) fun _ =>
        SubscriptionService.canActivate_readsOnly _ _
  | update session id dto =>
      exact .bind (Auth.canActivate_readsOnly _ _ _ _) fun _ =>
        SubscriptionService.canActivate_readsOnly _ _
  | delete session id =>
      exact .bind (Auth.canActivate_readsOnly _ _ _ _) fun _ =>
        SubscriptionService.canActivate_readsOnly _ _
  | restore session id =>
      exact .bind (Auth.canActivate_readsOnly _ _ _ _) fun _ =>
        SubscriptionService.canActivate_readsOnly _ _

/-- A request that throws leaves the database. -/
theorem route_atomic (route : BranchRoute) : Fallible.Atomic (route.run can) := by
  refine .bind (guards_readsOnly route) fun _ => ?_
  cases route with
  | create session dto => exact (createBranch_atomic _ _).bind_pure
  | update session id dto => exact (updateBranch_atomic _ _ _).bind_pure
  | delete session id => exact (deleteBranch_atomic _ _).bind_pure
  | restore session id => exact (restoreBranch_atomic _ _).bind_pure

/-- A creation that passed its guards is made in a tenant, below the limit of its plan. -/
theorem create_guarded {session : Session} {dto : CreateBranchRequestDto} {u : Unit}
    (hbound : session.Bound)
    (h : (BranchRoute.create session dto).guards can w = (.ok u, w')) :
    ∃ T', session.env.context.Holds T' ∧ ∃ s ∈ w.db.subscriptions, s.tenantId = T' ∧
      ∃ plan, planOf w.db s = some plan ∧ (liveBranches T' w.db : Int) < plan.maxBranches := by
  rcases Fallible.bind_eq_ok.mp h with ⟨_, w₁, hrbac, hcheck⟩
  have hw₁ : w₁ = w := (Auth.canActivate_readsOnly _ _ _ _).state_eq hrbac
  rcases Fallible.bind_eq_ok.mp hcheck with ⟨T', w₂, hthrow, hrest⟩
  rcases orThrow_eq_ok.mp hthrow with ⟨htenant, hw₂⟩
  rcases Fallible.bind_eq_ok.mp hrest with ⟨_, w₃, hstatus, hrun⟩
  have hw₃ : w₃ = w₂ := checkSubscriptionStatus_readsOnly.state_eq hstatus
  rcases Fallible.bind_eq_ok.mp hrun with ⟨a, w₄, hlimit, _⟩
  have hholds : session.env.context.Holds T' := by
    refine ⟨hbound T' htenant, ?_⟩
    rintro rfl
    unfold Session.tenantId guardTenantId at htenant
    split at htenant
    · rename_i htruthy
      rw [htenant] at htruthy
      cases htruthy
    · split at htenant
      · rename_i htruthy
        rw [htenant] at htruthy
        cases htruthy
      · cases htenant
  rw [hw₃, hw₂, hw₁] at hlimit
  exact ⟨T', hholds, checkBranchLimit_ok hholds hlimit⟩

/-- A creation adds one live branch, to the tenant of its scope. -/
theorem liveBranches_create {S : Option Id} {env : Env} {dto : CreateBranchRequestDto}
    {latitude longitude : Field Coordinate} (db : Db) :
    liveBranches T (branches.set (db.branches ++
      [branchRepository.created env S (newBranch dto latitude longitude)]) db) =
        liveBranches T db + if S.getD "" = T then 1 else 0 := by
  unfold liveBranches
  have htenant : (branchRepository.created env S (newBranch dto latitude longitude)).tenantId =
      S.getD "" := by
    cases S <;> rfl
  have hlive : (branchRepository.created env S (newBranch dto latitude longitude)).deletedAt =
      none := by
    cases S <;> rfl
  have hset : (branches.set (db.branches ++
      [branchRepository.created env S (newBranch dto latitude longitude)]) db).branches =
        db.branches ++ [branchRepository.created env S (newBranch dto latitude longitude)] := rfl
  rw [hset, List.countP_append, List.countP_singleton]
  simp [htenant, hlive]

/-- The rows of an id are one at most. -/
theorem countP_ownRow_le_one {S : Option Id} {id : Id} {db : Db} (h : UniqueKeys db) :
    db.branches.countP (ownRow S id) ≤ 1 :=
  countP_le_one_of_nodup h.branchIds fun _ _ hrow => id_of_ownRow hrow

/-- A restoration that brings a branch back adds one live branch. -/
theorem restore_adds_branch {env : LifecycleEnv} {id : Id} {a : RestoreResult} {S : Option Id}
    {b : Branch} (hunique : UniqueKeys w.db) (hctx : env.context.Sees S)
    (hfound : w.db.branches.find? (ownRow S id) = some b) (htenant : b.tenantId = T)
    (hdeleted : b.deletedAt.isSome) (h : restoreBranch env id w = (.ok a, w')) :
    liveBranches T w'.db = liveBranches T w.db + 1 := by
  rcases restoreBranch_ok h with ⟨S', b', hctx', hfound', heffect⟩
  cases hctx.unique hctx'
  rw [hfound] at hfound'
  cases hfound'
  rcases Option.isSome_iff_exists.mp hdeleted with ⟨deletedAt, hdeleted⟩
  rw [hdeleted] at heffect
  have hrewrites : branches.Rewrites (ownRow S id) branchRestored.apply w w' := heffect
  have hb := List.mem_of_find?_eq_some hfound
  have hone : w.db.branches.countP (ownRow S id) = 1 :=
    Nat.le_antisymm (countP_ownRow_le_one hunique)
      (List.countP_pos_iff.mpr ⟨b, hb, List.find?_some hfound⟩)
  rw [hrewrites.world]
  refine (countP_rewriteWhere_add fun x hx hselected => ?_).trans (congrArg _ hone)
  have hxb : x = b := hunique.branch_eq hx hb
    ((id_of_ownRow hselected).trans (id_of_ownRow (List.find?_some hfound)).symm)
  rw [hxb]
  refine ⟨by simp [hdeleted], ?_⟩
  have hrestored : (branchRestored.apply b).tenantId = b.tenantId := rfl
  have hlive : (branchRestored.apply b).deletedAt = none := rfl
  simp [hrestored, hlive, htenant]

/-- The statements of a restoration that returned have not failed. -/
theorem restoreBranch_attempted {env : LifecycleEnv} {id : Id} {a : RestoreResult}
    (h : restoreBranch env id w = (.ok a, w')) :
    env.fails .read = false ∧ env.fails .write = false := by
  rcases Fallible.bind_eq_ok.mp h with ⟨_, w₁, hread, hrest⟩
  rcases fetchIncludingDeleted_ok branches_softDelete hread with ⟨_, hreads, _⟩
  rcases Fallible.bind_eq_ok.mp hrest with ⟨_, w₂, hrestore, _⟩
  exact ⟨hreads, (attempt_eq_ok.mp hrestore).1⟩

/-- The handlers write branches and tables only. -/
theorem HasPlan.of_db {db db' : Db} (h : HasPlan T plan db)
    (hsubscriptions : db'.subscriptions = db.subscriptions)
    (hplans : db'.subscriptionPlans = db.subscriptionPlans) : HasPlan T plan db' := by
  intro s hs htenant
  rw [hsubscriptions] at hs
  unfold planOf
  rw [hplans]
  exact h s hs htenant

/-- One request within the condition keeps the limit. -/
theorem limit_step {route : BranchRoute} {u : Unit} (hunique : UniqueKeys w.db)
    (hplan : HasPlan T plan w.db) (hlimit : (liveBranches T w.db : Int) ≤ plan.maxBranches)
    (hbound : route.session.Bound) (hwithin : RestoresWithin can T plan route w)
    (h : route.run can w = (.ok u, w')) :
    HasPlan T plan w'.db ∧ (liveBranches T w'.db : Int) ≤ plan.maxBranches := by
  rcases Fallible.bind_eq_ok.mp h with ⟨_, w₁, hguards, hhandle⟩
  have hw₁ : w₁ = w := (guards_readsOnly route).state_eq hguards
  rw [hw₁] at hguards hhandle
  have hfewer : ∀ w'' : World, liveBranches T w''.db ≤ liveBranches T w.db →
      (liveBranches T w''.db : Int) ≤ plan.maxBranches :=
    fun w'' hle => (Int.ofNat_le.mpr hle).trans hlimit
  cases route with
  | create session dto =>
      rcases Fallible.bind_eq_ok.mp hhandle with ⟨a, _, hrun, hreturn⟩
      cases hreturn
      rcases create_guarded hbound hguards with ⟨T', hholds, s, hs, hsT', plan', hplan', hbelow⟩
      rcases createBranch_ok hrun with ⟨S, latitude, longitude, hctx, rfl, _⟩
      have hS : S = some T' := hctx.unique hholds
      refine ⟨hplan.of_db rfl rfl, ?_⟩
      rw [liveBranches_create, hS]
      by_cases hsame : T' = T
      · rw [hsame] at hsT' hbelow
        have hthis := hplan s hs hsT'
        rw [hplan'] at hthis
        cases hthis
        simp only [Option.getD_some, hsame, if_true]
        push_cast
        omega
      · simpa [hsame] using hlimit
  | update session id dto =>
      rcases Fallible.bind_eq_ok.mp hhandle with ⟨a, _, hrun, hreturn⟩
      cases hreturn
      rcases updateBranch_ok hrun with rfl | ⟨S, latitude, longitude, _, hrewrites⟩
      · exact ⟨hplan, hlimit⟩
      · rw [hrewrites.world]
        exact ⟨hplan.of_db rfl rfl, hfewer { w with db := _ }
          (countP_rewriteWhere_le fun _ _ _ hlive => hlive)⟩
  | delete session id =>
      rcases Fallible.bind_eq_ok.mp hhandle with ⟨a, _, hrun, hreturn⟩
      cases hreturn
      rcases deleteBranch_ok hunique.tableIds hrun with ⟨S, b, _, _, _, rfl⟩
      refine ⟨hplan.of_db rfl rfl, hfewer { w with db := _ }
        (countP_rewriteWhere_le fun x _ _ hlive => ?_)⟩
      have hdead : ((branchTombstone session.env.now).apply x).deletedAt =
          some session.env.now := rfl
      simp [hdead] at hlive
  | restore session id =>
      rcases Fallible.bind_eq_ok.mp hhandle with ⟨a, _, hrun, hreturn⟩
      cases hreturn
      rcases restoreBranch_ok hrun with ⟨S, b, hctx, hfound, heffect⟩
      split at heffect
      · rw [heffect]
        exact ⟨hplan, hlimit⟩
      · rename_i hdeleted
        have hplan' : HasPlan T plan w'.db := by
          rw [heffect.world]
          exact hplan.of_db rfl rfl
        refine ⟨hplan', ?_⟩
        have hsome : b.deletedAt.isSome := by
          cases hat : b.deletedAt with
          | none => exact absurd (by rw [hat]; rfl) hdeleted
          | some _ => rfl
        by_cases htenant : b.tenantId = T
        · have hattempted := restoreBranch_attempted hrun
          have hbelow := hwithin ⟨by rw [hguards], hattempted.1, hattempted.2, S, b, hctx, hfound,
            htenant, hsome⟩
          rw [restore_adds_branch hunique hctx hfound htenant hsome hrun]
          push_cast
          omega
        · refine hfewer w' ?_
          rw [heffect.world]
          refine countP_rewriteWhere_le fun x hx hselected hlive => ?_
          have hxb : x = b := hunique.branch_eq hx (List.mem_of_find?_eq_some hfound)
            ((id_of_ownRow hselected).trans (id_of_ownRow (List.find?_some hfound)).symm)
          have hkept : (branchRestored.apply b).tenantId = b.tenantId := rfl
          rw [hxb] at hlive
          simp [hkept, htenant] at hlive

/-- A request is a step of the floor plan. -/
theorem route_step {signing : Signing} {route : BranchRoute} {u : Unit}
    (hids : (w.db.tables.map (·.id)).Nodup) (h : route.run can w = (.ok u, w')) :
    FloorStep signing w w' := by
  rcases Fallible.bind_eq_ok.mp h with ⟨_, w₁, hguards, hhandle⟩
  rw [(guards_readsOnly route).state_eq hguards] at hhandle
  cases route with
  | create session dto =>
      rcases Fallible.bind_eq_ok.mp hhandle with ⟨a, _, hrun, hreturn⟩
      cases hreturn
      exact createBranch_step hrun
  | update session id dto =>
      rcases Fallible.bind_eq_ok.mp hhandle with ⟨a, _, hrun, hreturn⟩
      cases hreturn
      exact updateBranch_step hrun
  | delete session id =>
      rcases Fallible.bind_eq_ok.mp hhandle with ⟨a, _, hrun, hreturn⟩
      cases hreturn
      exact deleteBranch_step hids hrun
  | restore session id =>
      rcases Fallible.bind_eq_ok.mp hhandle with ⟨a, _, hrun, hreturn⟩
      cases hreturn
      exact restoreBranch_step hrun

/-- What the limit of a tenant rests on. -/
structure WithinPlan (T : Id) (plan : SubscriptionPlan) (db : Db) : Prop where
  unique : UniqueKeys db
  hasPlan : HasPlan T plan db
  limit : (liveBranches T db : Int) ≤ plan.maxBranches

/-- Through any sequence of requests in which each restoration that brings a branch back does so
below the limit, the tenant has no more live branches than its plan allows. -/
theorem plan_limit_kept {routes : List BranchRoute} (hwithin : WithinPlan T plan w.db)
    (hbound : ∀ route ∈ routes, route.session.Bound)
    (hsteps : (routeMachine can).EachStep (RestoresWithin can T plan) routes w) :
    (liveBranches T ((routeMachine can).exec routes w).db : Int) ≤ plan.maxBranches := by
  refine ((routeMachine can).exec_of_eachStep (I := fun w => WithinPlan T plan w.db)
    (fun route hroute w hwithin hstep => ?_) hwithin hsteps).limit
  have hrun : (routeMachine can).step route w = route.run can w := rfl
  rw [hrun]
  rcases hresult : route.run can w with ⟨_ | u, w'⟩
  · rw [route_atomic route _ _ _ hresult]
    exact hwithin
  · have hfloor : FloorStep plainSigning w w' := route_step hwithin.unique.tableIds hresult
    rcases limit_step hwithin.unique hwithin.hasPlan hwithin.limit (hbound route hroute) hstep
      hresult with ⟨hplan, hlimit⟩
    exact ⟨hwithin.unique.step hfloor, hplan, hlimit⟩

end Limit

/-! ## A tenant with room for one branch -/

/-- A plan with one branch. -/
def starterPlan : SubscriptionPlan where
  id := "p1"
  name := "Starter"

/-- A tenant with a restaurant, an active subscription, and no branches. -/
def starterTenant : World where
  db :=
    { tenants := [{ id := "t1", name := "Trattoria", status := .ACTIVE }]
      subscriptionPlans := [starterPlan]
      subscriptions := [{ id := "s1", tenantId := "t1", planId := "p1", status := .ACTIVE
                          currentPeriodStart := 0, currentPeriodEnd := 2000000000000 }]
      restaurants := [{ (default : Restaurant) with id := "r1", tenantId := "t1" }] }

/-- The owner of the tenant, with an id for a new row. -/
def ownerSession (id : Id) : Session where
  user :=
    { id := "u1"
      email := "ada@example.com"
      tenantId := some "t1"
      roles := ["RESTAURANT_OWNER"]
      permissions := ["branch:create", "branch:update", "branch:delete"] }
  requestTenantId := some "t1"
  env := tenantEnv id

def centro : Id := "0b7b6a2e-94f0-4f0c-9d0e-3f3a5a4b1c11"

def porto : Id := "5d0f5f0a-1c39-4a55-8a53-0d2f8f3f7a22"

/-- The request for a new branch. -/
def opens (id : Id) : BranchRoute :=
  .create (ownerSession id)
    { restaurantId := "r1", name := "Trattoria", address := "Via 1", phoneNumber := "1"
      operatingHours := "\x7b\x7d" }

theorem starterTenant_within : WithinPlan "t1" starterPlan starterTenant.db where
  unique := ⟨by decide, by decide, by decide⟩
  hasPlan s hs _ := by
    rw [List.mem_singleton.mp hs]
    decide
  limit := by decide

theorem ownerSession_bound (id : Id) : (ownerSession id).Bound := by
  intro T hT
  have htenant : (ownerSession id).tenantId = some "t1" := rfl
  rw [htenant] at hT
  cases hT
  rfl

/-- A branch that is closed and brought back leaves the tenant with one. -/
theorem centro_comes_back :
    (liveBranches "t1" ((routeMachine lastRuleDecides).exec
      [opens centro, .delete (ownerSession "") centro, .restore (ownerSession "") centro]
      starterTenant).db : Int) ≤ starterPlan.maxBranches := by
  refine plan_limit_kept starterTenant_within ?_
    ⟨fun h => h.elim, fun h => h.elim, fun _ => by decide +kernel, trivial⟩
  intro route hroute
  simp only [List.mem_cons, List.not_mem_nil, or_false] at hroute
  rcases hroute with rfl | rfl | rfl <;> exact ownerSession_bound _

/-- A branch is closed, another one takes its place, and the first one comes back. -/
theorem plan_limit_passed :
    ¬∀ (routes : List BranchRoute) (w : World), WithinPlan "t1" starterPlan w.db →
      (∃ s ∈ w.db.subscriptions, s.tenantId = "t1" ∧ s.status = .ACTIVE) →
      (∀ route ∈ routes, route.session.Bound) →
        (liveBranches "t1" ((routeMachine lastRuleDecides).exec routes w).db : Int) ≤
          starterPlan.maxBranches := by
  intro hall
  have htwo : ¬(liveBranches "t1" ((routeMachine lastRuleDecides).exec
      [opens centro, .delete (ownerSession "") centro, opens porto,
        .restore (ownerSession "") centro] starterTenant).db : Int) ≤ starterPlan.maxBranches := by
    decide +kernel
  refine htwo (hall _ starterTenant starterTenant_within (by decide) ?_)
  intro route hroute
  simp only [List.mem_cons, List.not_mem_nil, or_false] at hroute
  rcases hroute with rfl | rfl | rfl | rfl <;> exact ownerSession_bound _

end BranchService
end Eleva
