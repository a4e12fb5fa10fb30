import Eleva.Auth.RefreshChain
import Eleva.Database.SoftDelete

/-!
# Auth - Abilities and the permission guard

The rules that the ability factory makes of a user, and the guard that checks a route's
permission against them with the row that the request names.

Main results:

- Definitions {lit}`createForUser` and {lit}`canActivate`: the factory and the guard.
- Theorem {lit}`canActivate_of_granted`: a user whose rules for an action are all grants passes
  with every row that is found.
- Theorem {lit}`branch_scope_iff`: a branch manager's reads of orders are scoped to the assigned
  branches exactly on the orders of those branches.
-/

namespace Eleva
namespace Auth

open Foundation Database TableOf

/-! ## Rules -/

/-- The columns of a row that conditions look at. -/
structure SubjectFields where
  status : Option String := none
  branchId : Option Id := none
deriving DecidableEq, Repr

/-- The conditions of the factory's rules. -/
inductive RuleCondition where
  | statusIs (status : String)
  | branchNotIn (branchIds : List Id)
deriving DecidableEq, Repr

structure AbilityRule where
  action : String
  subject : String
  inverted : Bool := false
  conditions : Option RuleCondition := none
deriving DecidableEq, Repr

/-- Whether a condition holds; a missing column is in no list. -/
def RuleCondition.holds (fields : SubjectFields) : RuleCondition → Bool
  | .statusIs status => fields.status == some status
  | .branchNotIn branchIds => fields.branchId.all fun id => !branchIds.contains id

/-- Whether a rule is about the action on the subject. -/
def AbilityRule.isAbout (action subject : String) (rule : AbilityRule) : Bool :=
  (rule.action == action || rule.action == "manage") &&
    (rule.subject == subject || rule.subject == "all")

/-- Whether a rule applies to a row. -/
def AbilityRule.applies (action subject : String) (fields : SubjectFields)
    (rule : AbilityRule) : Bool :=
  rule.isAbout action subject && rule.conditions.all (·.holds fields)

/-- How a library of abilities answers: from rules, an action, a subject and a row. -/
abbrev AbilityLibrary :=
  List AbilityRule → String → String → SubjectFields → Bool

/-- The last rule that applies decides, and nothing is granted without one. -/
def lastRuleDecides : AbilityLibrary := fun rules action subject fields =>
  (rules.reverse.find? (·.applies action subject fields)).any fun rule => !rule.inverted

/-- The library answers as it is documented. -/
def Documented (can : AbilityLibrary) : Prop :=
  ∀ rules action subject fields,
    can rules action subject fields = lastRuleDecides rules action subject fields

/-- An action is granted on every row where all rules about it are grants, and one of them has
no condition. -/
theorem lastRuleDecides_of_grants {rules : List AbilityRule} {action subject : String}
    (hgrants : ∀ rule ∈ rules, rule.isAbout action subject = true → rule.inverted = false)
    (hsome : ∃ rule ∈ rules, rule.isAbout action subject = true ∧ rule.conditions = none)
    (fields : SubjectFields) : lastRuleDecides rules action subject fields = true := by
  unfold lastRuleDecides
  cases hfind : rules.reverse.find? (·.applies action subject fields) with
  | none =>
      rcases hsome with ⟨rule, hmem, habout, hplain⟩
      have hnot := List.find?_eq_none.mp hfind rule (List.mem_reverse.mpr hmem)
      exact absurd (by simp [AbilityRule.applies, habout, hplain]) hnot
  | some rule =>
      have happlies := List.find?_some hfind
      have hmem := List.mem_reverse.mp (List.mem_of_find?_eq_some hfind)
      simp only [AbilityRule.applies, Bool.and_eq_true] at happlies
      simp [hgrants rule hmem happlies.1]

/-! ## The factory -/

/-- A user as the factory reads it. -/
structure UserPayload extends AuthenticatedUser where
  branches : Option (List Id) := none
deriving DecidableEq, Repr

/-- The user of a request: the strategy hands over no branches. -/
def AuthenticatedUser.payload (user : AuthenticatedUser) : UserPayload :=
  { user with }

/-- {lit}`s.charAt(0).toUpperCase() + s.slice(1)`.  No character outside ASCII has an upper case
that begins the name of a subject. -/
def capitalized (s : String) : String :=
  match s.toList with
  | [] => ""
  | c :: cs => String.ofList (c.toUpper :: cs)

/-- The rule of a permission, a text of two parts. -/
def permissionRule (permString : String) : Option AbilityRule :=
  if permString.toList.count ':' = 1 then
    some { action := afterFirst ':' permString, subject := capitalized (firstPart ':' permString) }
  else none

/-- A cashier does not update paid orders. -/
def cashierRules (user : UserPayload) : List AbilityRule :=
  if user.roles.contains "CASHIER" then
    [{ action := "update", subject := "Order", inverted := true
       conditions := some (.statusIs "PAID") }]
  else []

/-- A branch manager with branches does not read orders or update products of others. -/
def branchManagerRules (user : UserPayload) : List AbilityRule :=
  match user.branches with
  | some (b :: bs) =>
      if user.roles.contains "BRANCH_MANAGER" then
        [{ action := "read", subject := "Order", inverted := true
           conditions := some (.branchNotIn (b :: bs)) },
          { action := "update", subject := "Product", inverted := true
            conditions := some (.branchNotIn (b :: bs)) }]
      else []
  | _ => []

def createForUser (user : UserPayload) : List AbilityRule :=
  if user.roles.contains "PLATFORM_OWNER" then [{ action := "manage", subject := "all" }]
  else
    user.permissions.filterMap permissionRule ++ cashierRules user ++ branchManagerRules user ++
      [{ action := "read", subject := "Tenant" }]

/-! ## The guard -/

/-- What a route declares. -/
structure RouteMetadata where
  isPublic : Bool := false
  requiredPermission : Option (String × String) := none
  includeSoftDeleted : Bool := false
deriving DecidableEq, Repr

/-- What the guard reads of a request: the user, the ids in the path and in the body, and the
columns that path and body name. -/
structure GuardedCall where
  user : Option AuthenticatedUser
  paramsId : Option String := none
  bodyId : Option String := none
  fields : SubjectFields := {}
deriving DecidableEq, Repr

/-- {lit}`request.params?.id || request.body?.id`. -/
def GuardedCall.recordId (call : GuardedCall) : Option String :=
  if truthy call.paramsId then call.paramsId else call.bodyId.filter (· != "")

def isHexDigit (c : Char) : Bool :=
  c.isDigit || ('a' ≤ c && c ≤ 'f') || ('A' ≤ c && c ≤ 'F')

/-- Groups of hexadecimal digits with hyphens between them. -/
def hexGroups : List ℕ → List Char → Bool
  | [], cs => cs.isEmpty
  | [n], cs => cs.length == n && cs.all isHexDigit
  | n :: ns, cs =>
      (cs.take n).length == n && (cs.take n).all isHexDigit && (cs.drop n).head? == some '-' &&
        hexGroups ns (cs.drop (n + 1))

/-- {lit}`UUID_PATTERN.test(id)`. -/
def isUuid (id : String) : Bool :=
  hexGroups [8, 4, 4, 4, 12] id.toList

/-- The characters of hexadecimal groups are digits and hyphens. -/
theorem mem_hexGroups {ns : List ℕ} {cs : List Char} (h : hexGroups ns cs = true) {c : Char}
    (hc : c ∈ cs) : isHexDigit c = true ∨ c = '-' := by
  induction ns, cs using hexGroups.induct with
  | case1 cs =>
      rw [hexGroups, List.isEmpty_iff] at h
      rw [h] at hc
      cases hc
  | case2 n cs =>
      rw [hexGroups, Bool.and_eq_true, List.all_eq_true] at h
      exact Or.inl (h.2 c hc)
  | case3 n ns cs hns ih =>
      rw [hexGroups] at h
      · simp only [Bool.and_eq_true, beq_iff_eq, List.all_eq_true] at h
        rcases h with ⟨⟨⟨_, hdigits⟩, hhyphen⟩, hrest⟩
        rw [← List.take_append_drop n cs, List.mem_append] at hc
        rcases hc with hhead | htail
        · exact Or.inl (hdigits c hhead)
        · rw [List.head?_eq_some_iff] at hhyphen
          rcases hhyphen with ⟨rest, hrest'⟩
          have hdrop : cs.drop (n + 1) = rest := by
            rw [← List.drop_drop, hrest', List.drop_one, List.tail_cons]
          rw [hrest', List.mem_cons] at htail
          rcases htail with rfl | htail
          · exact Or.inr rfl
          · exact ih hrest (hdrop ▸ htail)
      · exact hns

/-- A UUID has no colon. -/
theorem colon_not_mem_of_isUuid {id : String} (h : isUuid id = true) : ':' ∉ id.toList := by
  intro hcolon
  rcases mem_hexGroups h hcolon with hdigit | hhyphen
  · exact absurd hdigit (by decide)
  · exact absurd hhyphen (by decide)

/-- The name of an order status. -/
def statusName (status : OrderStatus) : String :=
  match status with
  | .DRAFT => "DRAFT"
  | .PENDING => "PENDING"
  | .ACCEPTED => "ACCEPTED"
  | .PREPARING => "PREPARING"
  | .READY => "READY"
  | .COMPLETED => "COMPLETED"
  | .CANCELLED => "CANCELLED"

section Lookup

variable {Row : Type} [TenantRow Row] [DecidableEq Row]

/-- The row that a request names, in the tenant. -/
def lookUp (t : TableOf Row) (repo : BaseTenantRepository Row) (fields : Row → SubjectFields)
    (env : Env) (id : Id) (includeDeleted : Bool) : Service (Option SubjectFields) := do
  let row ← t.run (if includeDeleted then repo.findByIdIncludingDeleted env id
    else repo.findById env id)
  pure (row.map fields)

end Lookup

/-- The row of a resource, with the columns that the rules about it look at; a resource without
a repository has none. -/
def realEntity (env : Env) (resource : String) (id : Id) (includeDeleted : Bool) :
    Service (Option SubjectFields) :=
  match resource with
  | "Product" => lookUp products productRepository (fun _ => {}) env id includeDeleted
  | "Category" => lookUp categories categoryRepository (fun _ => {}) env id includeDeleted
  | "Customer" => lookUp customers customerRepository (fun _ => {}) env id includeDeleted
  | "Restaurant" => lookUp restaurants restaurantRepository (fun _ => {}) env id includeDeleted
  | "Order" => lookUp orders orderRepository
      (fun o => { status := some (statusName o.status), branchId := some o.branchId })
      env id includeDeleted
  | "Branch" => lookUp branches branchRepository (fun _ => {}) env id includeDeleted
  | "User" => lookUp users userRepository (fun _ => {}) env id includeDeleted
  | "Table" => lookUp tables tableRepository (fun _ => {}) env id includeDeleted
  | "Tenant" => Fallible.reads fun w => .ok
      ((w.db.tenants.find? fun t => t.id == id).map fun _ => {})
  | _ => pure none

/-- The row that a permission is checked with: that of the named id, or else what the request
says. -/
def resourceInstance (env : Env) (route : RouteMetadata) (action resource : String)
    (call : GuardedCall) : Service SubjectFields :=
  match call.recordId with
  | none => pure call.fields
  | some id =>
      if ["update", "delete", "read"].contains action then do
        let missing := AppError.notFound
          ("The requested " ++ resource ++ " with ID [" ++ id ++ "] was not found.")
        Fallible.throwIf (!isUuid id) missing
        let entity ← realEntity env resource id route.includeSoftDeleted
        match entity with
        | none => Fallible.throw missing
        | some fields => pure fields
      else pure call.fields

/-- The permission guard. -/
def canActivate (can : AbilityLibrary) (env : Env) (route : RouteMetadata) (call : GuardedCall) :
    Service Unit :=
  if route.isPublic then pure ()
  else
    match route.requiredPermission, call.user with
    | none, _ => pure ()
    | some _, none =>
        Fallible.throw (.unauthorized
          "Authentication credentials were not resolved before authorization guards.")
    | some (action, resource), some user => do
        let fields ← resourceInstance env route action resource call
        Fallible.throwIf (!can (createForUser user.payload) action resource fields)
          (.forbidden ("Access Denied: Your credentials lack the mandatory privilege [" ++ action ++
            " on " ++ resource ++ "]."))

/-- The read of one order by its id. -/
def getOrderRoute : RouteMetadata where
  requiredPermission := some ("read", "Order")

/-! ## The guard leaves the database -/

theorem lookUp_readsOnly {Row : Type} [TenantRow Row] [DecidableEq Row] {t : TableOf Row}
    {repo : BaseTenantRepository Row} {fields : Row → SubjectFields} {env : Env} (id : Id)
    (includeDeleted : Bool) : Fallible.ReadsOnly (lookUp t repo fields env id includeDeleted) := by
  refine .bind ?_ fun _ => .pure _
  cases includeDeleted <;> exact run_readsOnly (BaseTenantRepository.findFirst_readsOnly _)

theorem realEntity_readsOnly (env : Env) (resource : String) (id : Id) (includeDeleted : Bool) :
    Fallible.ReadsOnly (realEntity env resource id includeDeleted) := by
  unfold realEntity
  split
  · exact lookUp_readsOnly id includeDeleted
  · exact lookUp_readsOnly id includeDeleted
  · exact lookUp_readsOnly id includeDeleted
  · exact lookUp_readsOnly id includeDeleted
  · exact lookUp_readsOnly id includeDeleted
  · exact lookUp_readsOnly id includeDeleted
  · exact lookUp_readsOnly id includeDeleted
  · exact lookUp_readsOnly id includeDeleted
  · exact .reads _
  · exact .pure _

theorem resourceInstance_readsOnly (env : Env) (route : RouteMetadata)
    (action resource : String) (call : GuardedCall) :
    Fallible.ReadsOnly (resourceInstance env route action resource call) := by
  unfold resourceInstance
  split
  · exact .pure _
  · split
    · refine .bind (.throwIf _ _) fun _ => .bind (realEntity_readsOnly _ _ _ _) fun entity => ?_
      cases entity with
      | none => exact .throw _
      | some fields => exact .pure _
    · exact .pure _

/-- The guard leaves the database. -/
theorem canActivate_readsOnly (can : AbilityLibrary) (env : Env) (route : RouteMetadata)
    (call : GuardedCall) : Fallible.ReadsOnly (canActivate can env route call) := by
  unfold canActivate
  split
  · exact .pure _
  · split
    · exact .pure _
    · exact .throw _
    · exact .bind (resourceInstance_readsOnly _ _ _ _ _) fun _ => .throwIf _ _

/-! ## Who passes -/

/-- A user whose rules for an action are all grants passes with every row that is found. -/
theorem canActivate_of_granted {can : AbilityLibrary} (hcan : Documented can) {env : Env}
    {route : RouteMetadata} {call : GuardedCall} {user : AuthenticatedUser}
    {action resource : String} {fields : SubjectFields} {w : World}
    (hpermission : route.requiredPermission = some (action, resource))
    (huser : call.user = some user)
    (hfound : resourceInstance env route action resource call w = (.ok fields, w))
    (hgrants : ∀ rule ∈ createForUser user.payload, rule.isAbout action resource = true →
      rule.inverted = false)
    (hsome : ∃ rule ∈ createForUser user.payload, rule.isAbout action resource = true ∧
      rule.conditions = none) :
    (canActivate can env route call w).1 = .ok () := by
  unfold canActivate
  split
  · rfl
  · rw [hpermission, huser]
    simp only
    rw [Fallible.bind_of_ok hfound, hcan, lastRuleDecides_of_grants hgrants hsome]
    rfl

/-- Without branches a user has no rule that forbids the read of an order. -/
theorem createForUser_grants_orders (user : AuthenticatedUser) :
    ∀ rule ∈ createForUser user.payload, rule.isAbout "read" "Order" = true →
      rule.inverted = false := by
  intro rule hmem habout
  unfold createForUser at hmem
  split at hmem
  · rw [List.mem_singleton.mp hmem]
  · simp only [List.mem_append] at hmem
    rcases hmem with ((hpermission | hcashier) | hmanager) | htenant
    · rcases List.mem_filterMap.mp hpermission with ⟨permString, _, hrule⟩
      unfold permissionRule at hrule
      split at hrule
      · cases hrule
        rfl
      · cases hrule
    · unfold cashierRules at hcashier
      split at hcashier
      · rw [List.mem_singleton.mp hcashier] at habout
        exact absurd habout (by decide)
      · cases hcashier
    · cases hmanager
    · rw [List.mem_singleton.mp htenant]

/-- A user with the permission to read orders has a rule for it. -/
theorem createForUser_reads_orders {user : AuthenticatedUser}
    (hpermission : "order:read" ∈ user.permissions) :
    ∃ rule ∈ createForUser user.payload, rule.isAbout "read" "Order" = true ∧
      rule.conditions = none := by
  unfold createForUser
  split
  · exact ⟨_, List.mem_singleton_self _, by decide, rfl⟩
  · refine ⟨{ action := "read", subject := "Order" }, ?_, by decide, rfl⟩
    simp only [List.mem_append]
    refine Or.inl (Or.inl (Or.inl (List.mem_filterMap.mpr ⟨"order:read", hpermission, ?_⟩)))
    decide +kernel

/-! ## Branch managers -/

/-- An account with the role of a branch manager, a permission to read orders, and branches. -/
structure ManagesBranches (rt : Runtime) (account : LoginAccount) : Prop where
  role : "BRANCH_MANAGER" ∈ account.roles.map (·.1)
  permission : ∃ role ∈ account.roles, ∃ p ∈ role.2, p.resource ≠ "" ∧
    rt.toLowerCase p.resource = "order" ∧ p.action = "read"
  branches : account.user.branchIds ≠ []

/-- The session of a branch manager may read orders. -/
theorem ManagesBranches.permissionNames {rt : Runtime} {account : LoginAccount}
    (h : ManagesBranches rt account) : "order:read" ∈ account.permissionNames rt := by
  rcases h.permission with ⟨role, hrole, p, hp, hresource, hlower, haction⟩
  have hnamed : "order:read" ∈ (account.roles.flatMap (·.2)).filterMap (fun p =>
      if p.action != "" && p.resource != "" then
        some (rt.toLowerCase p.resource ++ ":" ++ p.action) else none) := by
    refine List.mem_filterMap.mpr ⟨p, List.mem_flatMap.mpr ⟨role, hrole, hp⟩, ?_⟩
    simp only [haction, hlower, bne_iff_ne, ne_eq, hresource, not_false_eq_true, Bool.and_eq_true,
      String.reduceEq, and_self, if_true]
    rfl
  unfold LoginAccount.permissionNames
  simp only
  rw [if_neg (List.ne_nil_of_mem hnamed)]
  exact hnamed

/-- The row of an order that is found. -/
theorem resourceInstance_order {env : Env} {order : Order} {user : AuthenticatedUser} {w : World}
    (hid : isUuid order.id = true)
    (hfound : orders.run (orderRepository.findById env order.id) w = (.ok (some order), w)) :
    ∃ fields, resourceInstance env getOrderRoute "read" "Order"
      { user := some user, paramsId := some order.id } w = (.ok fields, w) := by
  have hne : order.id ≠ "" := by
    intro hempty
    rw [hempty] at hid
    revert hid
    decide +kernel
  have hrecord : GuardedCall.recordId { user := some user, paramsId := some order.id } =
      some order.id := by
    simp [GuardedCall.recordId, truthy, hne]
  refine ⟨{ status := some (statusName order.status), branchId := some order.branchId }, ?_⟩
  unfold resourceInstance
  rw [hrecord]
  simp only [List.contains_cons, hid, Bool.not_true]
  rw [if_pos (by decide), Fallible.throwIf_false_bind]
  simp only [getOrderRoute, realEntity, lookUp, Bool.false_eq_true, if_false,
    Fallible.bind_apply, hfound]
  rfl

section Chain

variable {rt : Runtime} {can : AbilityLibrary} {env : LoginEnv} {dto : LoginDto}
  {tenantId : Option Id} {store store₁ store₂ : Option TenantContext} {csrfToken : String}
  {profile : LoginProfile} {a : AccessToken} {r : RefreshToken} {s s' : AppState}
  {account : LoginAccount} {req : JwtRequest} {user : AuthenticatedUser}
  {sessions sessions' : Sessions} {guardEnv : Env} {order : Order} {w : World}

/-- From the login of a branch manager to the guard, the read of an order is granted. -/
theorem branch_manager_granted (hcan : Documented can)
    (hlogin : login rt env dto tenantId store csrfToken s = (.ok (profile, a, r), s'))
    (haccount : findAccount { env with context := loginContext tenantId store }
      (rt.normalizedEmail dto.email) tenantId s.world = (.ok (some account), s.world))
    (hmanager : ManagesBranches rt account)
    (hauthenticated : authenticate req a store₁ sessions = (.ok (user, store₂), sessions'))
    (hid : isUuid order.id = true)
    (hfound : orders.run (orderRepository.findById guardEnv order.id) w = (.ok (some order), w)) :
    (canActivate can guardEnv getOrderRoute
      { user := some user, paramsId := some order.id } w).1 = .ok () := by
  rcases login_eq_ok hlogin with ⟨hvalid, rfl, _, _⟩
  have hprofile := validateLogin_found haccount hvalid
  have huser : user = (s.sessions.accessTokenFor profile.payload).payload.user :=
    (validate_eq_ok (authenticate_eq_ok.mp hauthenticated).2).1
  have hpermission : "order:read" ∈ user.permissions := by
    rw [huser, hprofile]
    exact hmanager.permissionNames
  rcases resourceInstance_order hid hfound with ⟨fields, hfields⟩
  exact canActivate_of_granted hcan rfl rfl hfields (createForUser_grants_orders user)
    (createForUser_reads_orders hpermission)

/-- The read of an order is granted exactly within the assigned branches where the order is in
one of them. -/
theorem branch_scope_iff (hcan : Documented can)
    (hlogin : login rt env dto tenantId store csrfToken s = (.ok (profile, a, r), s'))
    (haccount : findAccount { env with context := loginContext tenantId store }
      (rt.normalizedEmail dto.email) tenantId s.world = (.ok (some account), s.world))
    (hmanager : ManagesBranches rt account)
    (hauthenticated : authenticate req a store₁ sessions = (.ok (user, store₂), sessions'))
    (hid : isUuid order.id = true)
    (hfound : orders.run (orderRepository.findById guardEnv order.id) w = (.ok (some order), w)) :
    ((canActivate can guardEnv getOrderRoute
      { user := some user, paramsId := some order.id } w).1 = .ok () ↔
        order.branchId ∈ account.user.branchIds) ↔
      order.branchId ∈ account.user.branchIds := by
  rw [branch_manager_granted hcan hlogin haccount hmanager hauthenticated hid hfound]
  simp

end Chain

/-! ## A branch manager of one branch -/

/-- Mira manages branch {lit}`b1` of her tenant. -/
def mira : User where
  id := "u1"
  tenantId := some "t1"
  firstName := "Mira"
  lastName := "M"
  email := "mira@example.com"
  passwordHash := "salt$basilico"
  roleIds := ["r1"]
  branchIds := ["b1"]

/-- An order of a branch. -/
def orderOf (branchId : Id) : Order :=
  { (default : Order) with
    id := "0b7b6a2e-94f0-4f0c-9d0e-3f3a5a4b1c11"
    tenantId := "t1"
    branchId := branchId }

/-- The database with Mira, her role, and one order of a branch. -/
def miraDb (branchId : Id) : Db where
  tenants := [{ id := "t1", name := "Trattoria" }]
  permissions := [{ id := "p1", action := "read", resource := "Order" }]
  roles := [{ id := "r1", tenantId := some "t1", name := "BRANCH_MANAGER", displayName := "Manager"
              permissionIds := ["p1"] }]
  users := [mira]
  orders := [orderOf branchId]

def miraState (branchId : Id) : AppState where
  world := { db := miraDb branchId }
  sessions := { cache := { redis := { now := 1700000000000, entry := fun _ => none } } }

/-- The login of Mira. -/
def miraLogin : AppService (LoginProfile × AccessToken × RefreshToken) :=
  login plainRuntime cookEnv { email := "mira@example.com", password := "basilico" } none none "c1"

/-- Mira's account, as the login reads it. -/
def miraAccount : LoginAccount where
  user := mira
  roles := [("BRANCH_MANAGER", [{ id := "p1", action := "read", resource := "Order" }])]

theorem mira_manages : ManagesBranches plainRuntime miraAccount where
  role := by decide
  permission := ⟨_, List.mem_singleton_self _, _, List.mem_singleton_self _, by decide +kernel⟩
  branches := by decide

/-- A request with Mira's token. -/
def miraRequest : JwtRequest where
  headerText := .other ""

/-- The database context of Mira's requests. -/
def miraEnv : Env where
  context := { tenantId := some "t1" }
  uuid _ := "new"
  now := 1700000000000

section Mira

variable {branchId : Id}

/-- Mira logs in with her account, and her token is accepted. -/
theorem mira_logs_in (hbranch : branchId = "b1" ∨ branchId = "b2") :
    ∃ profile a r s', miraLogin (miraState branchId) = (.ok (profile, a, r), s') ∧
      ∃ user store sessions',
        authenticate miraRequest a none s'.sessions = (.ok (user, store), sessions') := by
  have hrun : (miraLogin (miraState branchId)).1.toOption.any (fun x =>
      (authenticate miraRequest x.2.1 none
        (miraLogin (miraState branchId)).2.sessions).1.toOption.any fun _ => true) = true := by
    rcases hbranch with rfl | rfl <;> decide +kernel
  rcases Fallible.returned_of_any hrun with ⟨⟨profile, a, r⟩, s', hlogin, haccepted⟩
  rw [hlogin] at haccepted
  rcases Fallible.returned_of_any haccepted with ⟨⟨user, store⟩, sessions', hauthenticated, _⟩
  exact ⟨profile, a, r, s', hlogin, user, store, sessions', hauthenticated⟩

/-- The login reads Mira's account. -/
theorem mira_found (hbranch : branchId = "b1" ∨ branchId = "b2") :
    findAccount { cookEnv with context := loginContext none none }
      (plainRuntime.normalizedEmail "mira@example.com") none (miraState branchId).world =
        (.ok (some miraAccount), (miraState branchId).world) := by
  rcases findAccount_state { cookEnv with context := loginContext none none }
    (plainRuntime.normalizedEmail "mira@example.com") none (miraState branchId).world with
    ⟨found, hfound⟩
  have hvalue : (findAccount { cookEnv with context := loginContext none none }
      (plainRuntime.normalizedEmail "mira@example.com") none
        (miraState branchId).world).1.toOption.any (fun found =>
          found.any fun account => decide (account.user = mira ∧ account.roles = miraAccount.roles))
        = true := by
    rcases hbranch with rfl | rfl <;> decide +kernel
  rw [hfound] at hvalue ⊢
  rcases found with _ | ⟨user, roles⟩
  · cases hvalue
  · rcases of_decide_eq_true hvalue with ⟨rfl, rfl⟩
    rfl

/-- The guard finds the order in Mira's tenant. -/
theorem mira_order_found (hbranch : branchId = "b1" ∨ branchId = "b2") :
    orders.run (orderRepository.findById miraEnv (orderOf branchId).id)
      (miraState branchId).world =
        (.ok (some (orderOf branchId)), (miraState branchId).world) := by
  have hknown : orderRepository.Known { id := some (orderOf branchId).id } (some "t1") :=
    BaseTenantRepository.known_of_absent _ (fun h => by cases h) rfl
  unfold BaseTenantRepository.findById
  rw [TableOf.run_findFirst (S := some "t1") ⟨rfl, by decide⟩ (by decide) hknown]
  have hfind : (orders.get (miraState branchId).world.db).find?
      ((orderRepository.scopedWhere { id := some (orderOf branchId).id } (some "t1")).admits
        orderRepository.delegate) = some (orderOf branchId) := by
    rcases hbranch with rfl | rfl <;> decide +kernel
  rw [hfind]

end Mira

/-- The read of the order in Mira's branch. -/
theorem mira_reads_her_branch : ∃ user : AuthenticatedUser,
    ((canActivate lastRuleDecides miraEnv getOrderRoute
      { user := some user, paramsId := some (orderOf "b1").id } (miraState "b1").world).1 = .ok () ↔
        (orderOf "b1").branchId ∈ miraAccount.user.branchIds) ↔
      (orderOf "b1").branchId ∈ miraAccount.user.branchIds := by
  rcases mira_logs_in (Or.inl rfl) with
    ⟨profile, a, r, s', hlogin, user, store, sessions', hauthenticated⟩
  exact ⟨user, branch_scope_iff (fun _ _ _ _ => rfl) hlogin (mira_found (Or.inl rfl)) mira_manages
    hauthenticated (by decide +kernel) (mira_order_found (Or.inl rfl))⟩

/-- The guard does not keep branch managers in their branches: Mira reads an order of another
branch of her tenant. -/
theorem other_branch_read :
    ¬∀ (rt : Runtime) (env : LoginEnv) (dto : LoginDto) (tenantId : Option Id)
      (store store₁ store₂ : Option TenantContext) (csrfToken : String) (profile : LoginProfile)
      (a : AccessToken) (r : RefreshToken) (s s' : AppState) (account : LoginAccount)
      (req : JwtRequest) (user : AuthenticatedUser) (sessions sessions' : Sessions)
      (guardEnv : Env) (order : Order) (w : World),
      login rt env dto tenantId store csrfToken s = (.ok (profile, a, r), s') →
      findAccount { env with context := loginContext tenantId store }
        (rt.normalizedEmail dto.email) tenantId s.world = (.ok (some account), s.world) →
      ManagesBranches rt account →
      authenticate req a store₁ sessions = (.ok (user, store₂), sessions') →
      isUuid order.id = true →
      orders.run (orderRepository.findById guardEnv order.id) w = (.ok (some order), w) →
        ((canActivate lastRuleDecides guardEnv getOrderRoute
          { user := some user, paramsId := some order.id } w).1 = .ok () ↔
            order.branchId ∈ account.user.branchIds) := by
  intro hall
  rcases mira_logs_in (Or.inr rfl) with
    ⟨profile, a, r, s', hlogin, user, store, sessions', hauthenticated⟩
  have hid : isUuid (orderOf "b2").id = true := by decide +kernel
  have hcan : Documented lastRuleDecides := fun _ _ _ _ => rfl
  have hgranted := branch_manager_granted hcan hlogin
    (mira_found (Or.inr rfl)) mira_manages hauthenticated hid (mira_order_found (Or.inr rfl))
  have hscope := (hall _ _ _ _ _ _ _ _ _ _ _ _ _ _ _ _ _ _ _ _ _ hlogin
    (mira_found (Or.inr rfl)) mira_manages hauthenticated hid
    (mira_order_found (Or.inr rfl))).mp hgranted
  revert hscope
  decide

end Auth
end Eleva
