import Eleva.Auth.RbacGuard

/-!
# Agent - Business metrics

The metrics of a tenant are computed by providers, each with its own queries on the tenant-scoped
client.  An error inside a provider is swallowed into a result that is not verified.

Main results:

- Definition {lit}`computeMetrics` and its providers.
- Theorem {lit}`available_iff`: of the metrics flagged available, the order count is the one that
  can be computed for a tenant.
-/

namespace Eleva

open Foundation Database Auth

namespace ElevaBusinessIntelligenceService

/-! ## Results -/

inductive MetricStatus
  | AVAILABLE
  | UNAVAILABLE
  | UNVERIFIED
deriving DecidableEq, Repr

structure Evidence where
  source : String
  detail : Option String
deriving DecidableEq, Repr

/-- A branch with its number of tables. -/
structure BranchSegment where
  branchId : Id
  branchName : String
  restaurantName : Option String
  tableCount : ℕ
deriving DecidableEq, Repr

inductive MetricValue
  | null
  | number (value : ℚ)
  | branch (segment : BranchSegment)
  | branches (segments : List BranchSegment)
deriving DecidableEq

structure SegmentResult where
  segment : String
  value : MetricValue
  status : MetricStatus
  evidenceStatus : MetricStatus
  evidence : List Evidence
  limitations : List String
  computedAt : Timestamp
deriving DecidableEq

structure Comparison where
  value : ℚ
  absolute : ℚ
  relative : Option ℚ
deriving DecidableEq

structure MetricResult where
  metricId : String
  value : MetricValue
  unit : Option String := none
  status : MetricStatus
  message : Option String := none
  evidenceStatus : MetricStatus
  comparedToPrevious : Option Comparison := none
  segments : List SegmentResult := []
  evidence : List Evidence
  limitations : List String
  computedAt : Timestamp
deriving DecidableEq

/-- A value beside the one of the period before. -/
def compared (value previous : ℚ) : Comparison where
  value := previous
  absolute := value - previous
  relative := if previous = 0 then none else some ((value - previous) / previous)

/-! ## Queries -/

/-- The database, with the creation times of its orders. -/
structure MetricsState where
  db : Db
  orderCreatedAt : Id → Timestamp

/-- The read client, its texts and the time at which a provider ends. -/
structure Client where
  env : Env
  finishedAt : Timestamp
  describe : ClientError → String
  invalidEnumText : String → String

/-- The values that a query compares a column of an enumeration with. -/
structure EnumFilter where
  enumName : String
  declared : List String
  values : List String

def EnumFilter.valid (filter : EnumFilter) : Bool :=
  filter.values.all fun value => filter.declared.contains value

def messageOf (client : Client) : ClientError → String
  | .failSafe message => message
  | e => client.describe e

section Query

variable {Row : Type} [TenantRow Row]

/-- The argument object of a read without a window. -/
def readArgs (w : Where Row) : Args Row :=
  { Args.page w 0 with take := none }

/-- A query: the extension comes first, then the client checks the values of enumerations. -/
def query (client : Client) (m : Delegate Row) (op : Operation) (args : Args Row)
    (enums : List EnumFilter) (rows : List Row) : Except String (Result Row) :=
  match scope client.env.context m op args with
  | .error e => .error (messageOf client e)
  | .ok _ =>
      match enums.find? fun filter => !filter.valid with
      | some filter => .error (client.invalidEnumText filter.enumName)
      | none =>
          match (invoke client.env m op args { rows := rows }).1 with
          | .error e => .error (messageOf client e)
          | .ok result => .ok result

end Query

structure DateRange where
  start : Timestamp
  stop : Timestamp
deriving DecidableEq, Repr

def DateRange.contains (range : DateRange) (time : Timestamp) : Bool :=
  range.start ≤ time && time ≤ range.stop

structure M8ComputationContext where
  now : Timestamp
  range : DateRange
  previousRange : DateRange
deriving DecidableEq, Repr

structure MetricDefinition where
  metricId : String
  evidence : List Evidence := []
  limitations : List String

structure M8MetricProvider where
  name : String
  metric : MetricDefinition
  available : Bool
  unavailabilityReason : Option String := none
  compute : Client → MetricsState → M8ComputationContext → Except String MetricResult

/-- The tenant as a key of a filter, when there is one. -/
def tenantKey (tenantId : Option Id) : ColumnKey (Option Id) :=
  if truthy tenantId then .filter fun t => t == tenantId else .absent

/-! ## Sales -/

/-- The declared order states. -/
def orderStatuses : List String :=
  [OrderStatus.DRAFT, .PENDING, .ACCEPTED, .PREPARING, .READY, .COMPLETED, .CANCELLED].map
    statusName

def paymentStatusName : PaymentStatus → String
  | .PENDING => "PENDING"
  | .AUTHORIZED => "AUTHORIZED"
  | .PAID => "PAID"
  | .FAILED => "FAILED"
  | .REFUNDED => "REFUNDED"

/-- The declared payment states. -/
def paymentStatuses : List String :=
  [PaymentStatus.PENDING, .AUTHORIZED, .PAID, .FAILED, .REFUNDED].map paymentStatusName

def paymentMethodName : PaymentMethodType → String
  | .CASH => "CASH"
  | .CREDIT_CARD => "CREDIT_CARD"
  | .APPLE_PAY => "APPLE_PAY"
  | .LOCAL_WALLET => "LOCAL_WALLET"

/-- The payment states that count as revenue. -/
def paidStatuses : List String :=
  ["PAID"]

/-- The order states that count as revenue. -/
def revenueStatuses : List String :=
  ["COMPLETED", "CANCELLED", "REFUNDED"]

def revenueEnums : List EnumFilter :=
  [{ enumName := "PaymentStatus", declared := paymentStatuses, values := paidStatuses },
    { enumName := "OrderStatus", declared := orderStatuses, values := revenueStatuses }]

def revenueWhere (s : MetricsState) (tenantId : Option Id) (range : DateRange) : Where Order where
  tenantId := tenantKey tenantId
  rest order :=
    range.contains (s.orderCreatedAt order.id) &&
      (s.db.payments.any fun payment =>
        payment.orderId == order.id && paidStatuses.contains (paymentStatusName payment.status)) &&
      revenueStatuses.contains (statusName order.status)

/-- Add an amount under a key; new keys come last. -/
def addTo (key : String) (amount : ℚ) : List (String × ℚ) → List (String × ℚ)
  | [] => [(key, 0 + amount)]
  | (other, total) :: rest =>
      if other = key then (other, total + amount) :: rest
      else (other, total) :: addTo key amount rest

/-- The totals by branch, and by payment method and branch. -/
def segmentTotals (orders : List Order) : List (String × ℚ) :=
  orders.foldl (fun totals order =>
    let branchKey := order.branchId
    let methodKey := (order.paymentMethod.map paymentMethodName).getD "unknown"
    addTo (methodKey ++ ":" ++ branchKey) order.total.toNumber
      (addTo branchKey order.total.toNumber totals)) []

def revenueOf (orders : List Order) : ℚ :=
  (orders.map (·.total.toNumber)).sum

def salesRevenueMetric : MetricDefinition where
  metricId := "sales.revenue"
  evidence :=
    [⟨"order.service.ts checkout flow", some "order.total is authoritative at creation time."⟩]
  limitations := ["Partial refunds are not reverse-computed here; see refund workflow."]

def computeSalesRevenue (client : Client) (s : MetricsState) (context : M8ComputationContext) :
    Except String MetricResult := do
  let tenantId := client.env.context.tenantId
  let orders ← query client prisma.order .findMany
    (readArgs (revenueWhere s tenantId context.range)) revenueEnums s.db.orders
  let previousOrders ← query client prisma.order .findMany
    (readArgs (revenueWhere s tenantId context.previousRange)) revenueEnums s.db.orders
  let value := revenueOf orders.found
  pure
    { metricId := salesRevenueMetric.metricId
      value := .number value
      unit := some "money"
      status := .AVAILABLE
      evidenceStatus := .AVAILABLE
      comparedToPrevious := some (compared value (revenueOf previousOrders.found))
      segments := (segmentTotals orders.found).map fun entry =>
        { segment := entry.1
          value := .number entry.2
          status := .AVAILABLE
          evidenceStatus := .AVAILABLE
          evidence :=
            [⟨"order.service.ts checkout flow",
              some ("Segment " ++ entry.1 ++ " derived from filtered order total.")⟩]
          limitations := ["Segmentation is only as complete as current order records."]
          computedAt := client.finishedAt }
      evidence := [⟨"order + payment query", some "Revenue requires paid terminal orders."⟩]
      limitations := ["Missing payment rows are treated as non-revenue."]
      computedAt := client.finishedAt }

def salesRevenueProvider : M8MetricProvider where
  name := "sales.revenue"
  metric := salesRevenueMetric
  available := true
  compute := computeSalesRevenue

/-! ## Orders -/

def orderCountWhere (s : MetricsState) (tenantId : Option Id) (range : DateRange) :
    Where Order where
  tenantId := tenantKey tenantId
  rest order := range.contains (s.orderCreatedAt order.id)

def segmentKey (row : Order) : String :=
  row.branchId ++ ":" ++ statusName row.status

/-- One segment for each branch and state, at its first order. -/
def statusSegments (client : Client) (rows : List Order) : List SegmentResult :=
  (rows.foldl (fun (acc : List String × List SegmentResult) row =>
    if acc.1.contains (segmentKey row) then acc
    else
      (segmentKey row :: acc.1, acc.2 ++
        [{ segment := segmentKey row
           value := .number (rows.filter fun item =>
             item.branchId == row.branchId && item.status == row.status).length
           status := .AVAILABLE
           evidenceStatus := .AVAILABLE
           evidence :=
             [⟨"order.findMany", some ("Status segment " ++ statusName row.status ++ ".")⟩]
           limitations := ["Segmentation is derived from in-memory filtering."]
           computedAt := client.finishedAt }])) ([], [])).2

def orderCountMetric : MetricDefinition where
  metricId := "orders.count"
  evidence := [⟨"order.repository", some "Count is sourced from the order table."⟩]
  limitations := ["Count includes all statuses unless further filtered."]

def computeOrderCount (client : Client) (s : MetricsState) (context : M8ComputationContext) :
    Except String MetricResult := do
  let tenantId := client.env.context.tenantId
  let count ← query client prisma.order .count
    (readArgs (orderCountWhere s tenantId context.range)) [] s.db.orders
  let previousCount ← query client prisma.order .count
    (readArgs (orderCountWhere s tenantId context.previousRange)) [] s.db.orders
  let statusCounts ← query client prisma.order .findMany
    (readArgs (orderCountWhere s tenantId context.range)) [] s.db.orders
  pure
    { metricId := orderCountMetric.metricId
      value := .number count.number
      status := .AVAILABLE
      evidenceStatus := .AVAILABLE
      comparedToPrevious := some (compared count.number previousCount.number)
      segments := statusSegments client statusCounts.found
      evidence := [⟨"order.count", some "Order count is deterministic from order rows."⟩]
      limitations := ["Order count alone does not imply revenue."]
      computedAt := client.finishedAt }

def orderCountProvider : M8MetricProvider where
  name := "orders.count"
  metric := orderCountMetric
  available := true
  compute := computeOrderCount

/-! ## Branches -/

def branchPerformanceMetric : MetricDefinition where
  metricId := "performance.branch"
  evidence :=
    [⟨"branch + restaurant + table tables",
      some "Performance is structural rather than revenue-derived."⟩]
  limitations := ["Does not include kitchen queue throughput or labor metrics."]

/-- The number of tables by branch, of those that have one. -/
def tableCounts (tables : List Table) : List (Id × ℕ) :=
  (tables.map (·.branchId)).eraseDups.map fun branchId =>
    (branchId, (tables.filter fun table => table.branchId == branchId).length)

def computeBranchPerformance (client : Client) (s : MetricsState)
    (_context : M8ComputationContext) : Except String MetricResult :=
  let tenantId := client.env.context.tenantId
  if !truthy tenantId then
    .ok
      { metricId := branchPerformanceMetric.metricId
        value := .null
        status := .UNAVAILABLE
        message := some "Branch performance requires a tenant context."
        evidenceStatus := .UNAVAILABLE
        evidence := []
        limitations := ["Tenant context missing."]
        computedAt := client.finishedAt }
  else do
    let branches ← query client prisma.branch .findMany
      (readArgs { tenantId := tenantKey tenantId, deletedAt := .filter (· == none) }) []
      s.db.branches
    let restaurantIds := (branches.found.map (·.restaurantId)).eraseDups
    let restaurants ← query client prisma.restaurant .findMany
      (readArgs { rest := fun restaurant => restaurantIds.contains restaurant.id }) []
      s.db.restaurants
    let tables ← query client prisma.table .groupBy
      (readArgs { tenantId := tenantKey tenantId, deletedAt := .filter (· == none) }) []
      s.db.tables
    let restaurantName := restaurants.found.map fun restaurant => (restaurant.id, restaurant.name)
    let tableMap := tableCounts tables.found
    let segments := branches.found.map fun branch =>
      { branchId := branch.id
        branchName := branch.name
        restaurantName := restaurantName.lookup branch.restaurantId
        tableCount := (tableMap.lookup branch.id).getD 0 : BranchSegment }
    pure
      { metricId := branchPerformanceMetric.metricId
        value := if segments.length = 0 then .null else .branches segments
        status := .AVAILABLE
        evidenceStatus := .AVAILABLE
        segments := segments.map fun segment =>
          { segment := segment.branchId
            value := .branch segment
            status := .AVAILABLE
            evidenceStatus := .AVAILABLE
            evidence :=
              [⟨"branch/table query", some ("Table count for branch " ++ segment.branchId ++ ".")⟩]
            limitations := ["Operational throughput is not measured."]
            computedAt := client.finishedAt }
        evidence :=
          [⟨"branch/restaurant/table query",
            some "Performance is based on active branch/table data."⟩]
        limitations := ["No revenue or queue throughput is included."]
        computedAt := client.finishedAt }

def branchPerformanceProvider : M8MetricProvider where
  name := "performance.branch"
  metric := branchPerformanceMetric
  available := true
  compute := computeBranchPerformance

/-! ## The system indicator -/

def systemIndicatorReason : String :=
  "No repository system indicator provider is currently wired into the ELEVA module."

def systemIndicatorMetric : MetricDefinition where
  metricId := "system.indicator"
  limitations := ["No system provider is currently wired into the ELEVA module."]

def systemIndicatorProvider : M8MetricProvider where
  name := "system.indicator"
  metric := systemIndicatorMetric
  available := false
  unavailabilityReason := some systemIndicatorReason
  compute client _ _ :=
    .ok
      { metricId := systemIndicatorMetric.metricId
        value := .null
        status := .UNAVAILABLE
        message := some systemIndicatorReason
        evidenceStatus := .UNAVAILABLE
        evidence := [⟨"eleva.operations.ts default provider", some systemIndicatorReason⟩]
        limitations := ["Connect a real provider before using this metric."]
        computedAt := client.finishedAt }

/-! ## The service -/

/-- The built-in providers. -/
def metrics : List M8MetricProvider :=
  [salesRevenueProvider, orderCountProvider, branchPerformanceProvider, systemIndicatorProvider]

structure MetricOptions where
  rangeDays : Option ℚ := none
  previousRangeDays : Option ℚ := none
  metricIds : List String := []

def DEFAULT_RANGE_DAYS : ℚ := 30

def dayMs : ℚ := 24 * 60 * 60 * 1000

/-- {lit}`new Date(time)`, which drops a fraction of a millisecond. -/
def dateOf (time : ℚ) : Timestamp :=
  time.num.tdiv time.den

def computationContext (now : Timestamp) (options : MetricOptions) : M8ComputationContext :=
  let start := dateOf (now - options.rangeDays.getD DEFAULT_RANGE_DAYS * dayMs)
  { now := now
    range := ⟨start, now⟩
    previousRange :=
      ⟨dateOf (start - options.previousRangeDays.getD DEFAULT_RANGE_DAYS * dayMs), start⟩ }

/-- The metrics that are asked for, or all of them. -/
def metricIdsOf (options : MetricOptions) : List String :=
  if options.metricIds.length = 0 then metrics.map (·.metric.metricId) else options.metricIds

/-- One metric; an error of its provider makes it unverified. -/
def computeMetric (client : Client) (s : MetricsState) (context : M8ComputationContext)
    (metricId : String) : MetricResult :=
  match metrics.find? fun provider => provider.metric.metricId == metricId with
  | none =>
      { metricId := metricId
        value := .null
        status := .UNAVAILABLE
        message := some ("Metric [" ++ metricId ++ "] is not defined.")
        evidenceStatus := .UNAVAILABLE
        evidence :=
          [⟨"ElevaBusinessIntelligenceService",
            some ("No provider is registered for " ++ metricId ++ ".")⟩]
        limitations := ["Use listMetricDefinitions for available metrics."]
        computedAt := context.now }
  | some provider =>
      if !provider.available then
        { metricId := provider.metric.metricId
          value := .null
          status := .UNAVAILABLE
          message := some
            (provider.unavailabilityReason.getD "This metric provider is unavailable.")
          evidenceStatus := .UNAVAILABLE
          evidence :=
            if provider.metric.evidence.length = 0 then
              [⟨provider.name, some (provider.unavailabilityReason.getD "Provider unavailable.")⟩]
            else provider.metric.evidence
          limitations := provider.metric.limitations
          computedAt := context.now }
      else
        match provider.compute client s context with
        | .ok result => result
        | .error message =>
            { metricId := provider.metric.metricId
              value := .null
              status := .UNVERIFIED
              message := some ("Metric computation failed: " ++ message)
              evidenceStatus := .UNVERIFIED
              evidence := [⟨provider.name, some "Computation failed at runtime."⟩]
              limitations := provider.metric.limitations
              computedAt := context.now }

def computeMetrics (client : Client) (s : MetricsState) (now : Timestamp)
    (options : MetricOptions) : List MetricResult :=
  (metricIdsOf options).map (computeMetric client s (computationContext now options))

/-! ## What is asked of an available metric -/

/-- The live branches of the tenant, each with its number of live tables. -/
def branchTables (T : Id) (db : Db) : List (Id × ℕ) :=
  ((own T db.branches).filter fun branch => branch.deletedAt == none).map fun branch =>
    (branch.id, ((own T db.tables).filter fun table =>
      table.deletedAt == none && table.branchId == branch.id).length)

/-- A segment's branch and number of tables. -/
def segmentTables (segment : SegmentResult) : Option (Id × ℕ) :=
  match segment.value with
  | .branch s => some (s.branchId, s.tableCount)
  | _ => none

/-- The result is available; that of the branches lists them with their tables. -/
def Computed (T : Id) (s : MetricsState) (result : MetricResult) : Prop :=
  result.status = .AVAILABLE ∧
    (result.metricId = "performance.branch" →
      (result.segments.map segmentTables).Perm ((branchTables T s.db).map some))

section Tenant

variable {client : Client} {T : Id}

/-- A query with a value that its enumeration does not declare fails. -/
theorem query_of_invalid {Row : Type} [TenantRow Row] {m : Delegate Row} {op : Operation}
    {args : Args Row} {enums : List EnumFilter} (rows : List Row)
    (hinvalid : ∃ filter ∈ enums, filter.valid = false) :
    ∃ message, query client m op args enums rows = .error message := by
  unfold query
  cases scope client.env.context m op args with
  | error e => exact ⟨_, rfl⟩
  | ok args' =>
      cases hfind : enums.find? fun filter => !filter.valid with
      | some filter => exact ⟨_, rfl⟩
      | none =>
          rcases hinvalid with ⟨filter, hmem, hfilter⟩
          have hvalid := List.find?_eq_none.mp hfind filter hmem
          rw [hfilter] at hvalid
          exact absurd rfl hvalid

/-- A query with an operation that the extension does not support fails in a tenant's context. -/
theorem query_of_unsupported {Row : Type} [TenantRow Row] {m : Delegate Row} {op : Operation}
    (hctx : client.env.context.Holds T) (hm : m.model ∉ unscopedModels)
    (hop : op ∈ unsupportedOperations) (args : Args Row) (enums : List EnumFilter)
    (rows : List Row) :
    query client m op args enums rows =
      .error (messageOf client (unsupportedError op m.model)) := by
  have htruthy : truthy (some T) = true := by
    simpa [truthy] using hctx.nonempty
  have hscope : scope client.env.context m op args = .error (unsupportedError op m.model) := by
    unfold scope
    rw [hctx.tenantId, htruthy]
    simp only [List.contains_eq_mem, hm, hop, decide_false, decide_true, Bool.false_eq_true,
      if_false, if_true]
  unfold query
  rw [hscope]

/-- A query that the extension lets through and whose enumerations are valid answers as the
client does. -/
theorem query_of_read {op : Operation} {args : Args Order} {enums : List EnumFilter}
    {rows : List Order} {result : Result Order} {db : Store Order}
    (hvalid : ∀ filter ∈ enums, filter.valid = true)
    (hinvoke : invoke client.env prisma.order op args { rows := rows } = (.ok result, db)) :
    query client prisma.order op args enums rows = .ok result := by
  have hnone : enums.find? (fun filter => !filter.valid) = none := by
    rw [List.find?_eq_none]
    intro filter hmem
    rw [hvalid filter hmem]
    decide
  unfold query
  cases hscope : scope client.env.context prisma.order op args with
  | error e =>
      unfold invoke call at hinvoke
      rw [hscope] at hinvoke
      cases hinvoke
  | ok args' =>
      dsimp only
      rw [hnone, hinvoke]

theorem unknownColumn_readArgs {w : Where Order} (hw : w.deletedAt = .absent) :
    (readArgs w).unknownColumn prisma.order = false := by
  unfold Args.unknownColumn readArgs Args.page
  rw [hw]

/-- What a query answers in a scope. -/
theorem query_of_root {S : Option Id} (hctx : client.env.context.Sees S) {op : Operation}
    (hop : op ∈ [.findUnique, .findFirst, .findMany, .count, .update, .delete]) {w : Where Order}
    (hw : w.deletedAt = .absent) {enums : List EnumFilter}
    (hvalid : ∀ filter ∈ enums, filter.valid = true) {rows : List Order} {t : Root Order}
    (ht : root prisma.order client.env.uuid op ((readArgs w).inScope S op) rows = .ok t)
    (hread : t.changes = []) (hrows : t.rows = rows) (hnested : t.nested = {}) :
    query client prisma.order op (readArgs w) enums rows =
      .ok (t.outcome ((readArgs w).inScope S op)).result :=
  query_of_read hvalid
    (invoke_read hctx (by decide) hop (unknownColumn_readArgs hw) ht hread hrows hnested)

/-- A query that reads orders of the tenant succeeds. -/
theorem query_orders (hctx : client.env.context.Holds T) {op : Operation}
    (hop : op = .findMany ∨ op = .count) {w : Where Order} (hw : w.deletedAt = .absent)
    (rows : List Order) :
    ∃ result, query client prisma.order op (readArgs w) [] rows = .ok result := by
  have hsees : client.env.context.Sees (some T) := hctx
  rcases hop with rfl | rfl
  · exact ⟨_, query_of_root hsees (by decide) hw (by simp) rfl rfl rfl rfl⟩
  · exact ⟨_, query_of_root hsees (by decide) hw (by simp) rfl rfl rfl rfl⟩

/-- The revenue asks for an order state that is not declared. -/
theorem computeSalesRevenue_fails (client : Client) (s : MetricsState)
    (context : M8ComputationContext) :
    ∃ message, computeSalesRevenue client s context = .error message := by
  have hinvalid : ∃ filter ∈ revenueEnums, filter.valid = false :=
    ⟨_, List.mem_cons_of_mem _ List.mem_cons_self, by decide⟩
  have hquery : ∃ message, query client prisma.order .findMany
      (readArgs (revenueWhere s client.env.context.tenantId context.range)) revenueEnums
      s.db.orders = .error message :=
    query_of_invalid s.db.orders hinvalid
  rcases hquery with ⟨message, hquery⟩
  refine ⟨message, ?_⟩
  unfold computeSalesRevenue
  dsimp only
  rw [hquery]
  rfl

/-- The order count can be computed for a tenant. -/
theorem computeOrderCount_available (hctx : client.env.context.Holds T) (s : MetricsState)
    (context : M8ComputationContext) :
    ∃ result, computeOrderCount client s context = .ok result ∧
      result.metricId = "orders.count" ∧ result.status = .AVAILABLE := by
  rcases query_orders hctx (Or.inr rfl)
    (w := orderCountWhere s client.env.context.tenantId context.range) rfl s.db.orders with
    ⟨count, hcount⟩
  rcases query_orders hctx (Or.inr rfl)
    (w := orderCountWhere s client.env.context.tenantId context.previousRange) rfl
    s.db.orders with ⟨previous, hprevious⟩
  rcases query_orders hctx (Or.inl rfl)
    (w := orderCountWhere s client.env.context.tenantId context.range) rfl s.db.orders with
    ⟨rows, hrows⟩
  unfold computeOrderCount
  dsimp only
  rw [hcount, hprevious, hrows]
  exact ⟨_, rfl, rfl, rfl⟩

/-- The branches ask for an operation that the extension does not support. -/
theorem computeBranchPerformance_fails (hctx : client.env.context.Holds T) (s : MetricsState)
    (context : M8ComputationContext) :
    ∃ message, computeBranchPerformance client s context = .error message := by
  have htruthy : truthy client.env.context.tenantId = true := by
    rw [hctx.tenantId]
    simpa [truthy] using hctx.nonempty
  unfold computeBranchPerformance
  dsimp only
  rw [htruthy, if_neg (by decide)]
  cases query client prisma.branch .findMany _ [] s.db.branches with
  | error message => exact ⟨message, rfl⟩
  | ok branches =>
      dsimp only [bind, Except.bind]
      cases query client prisma.restaurant .findMany _ [] s.db.restaurants with
      | error message => exact ⟨message, rfl⟩
      | ok restaurants =>
          dsimp only
          rw [query_of_unsupported hctx (by decide) (by decide)]
          exact ⟨_, rfl⟩

end Tenant

/-! ## Metrics of a tenant -/

section Metrics

variable {client : Client} {s : MetricsState} {context : M8ComputationContext}

/-- An error of a provider makes its metric unverified. -/
theorem computeMetric_of_error {provider : M8MetricProvider} {metricId message : String}
    (hfind : metrics.find? (fun provider => provider.metric.metricId == metricId) = some provider)
    (havailable : provider.available = true)
    (hcompute : provider.compute client s context = .error message) :
    (computeMetric client s context metricId).status = .UNVERIFIED := by
  unfold computeMetric
  rw [hfind]
  dsimp only
  rw [havailable, hcompute]
  rfl

theorem computeMetric_of_ok {provider : M8MetricProvider} {metricId : String}
    {result : MetricResult}
    (hfind : metrics.find? (fun provider => provider.metric.metricId == metricId) = some provider)
    (havailable : provider.available = true)
    (hcompute : provider.compute client s context = .ok result) :
    computeMetric client s context metricId = result := by
  unfold computeMetric
  rw [hfind]
  dsimp only
  rw [havailable, hcompute]
  rfl

theorem find_salesRevenue :
    metrics.find? (fun provider => provider.metric.metricId == "sales.revenue") =
      some salesRevenueProvider :=
  rfl

theorem find_orderCount :
    metrics.find? (fun provider => provider.metric.metricId == "orders.count") =
      some orderCountProvider :=
  rfl

theorem find_branchPerformance :
    metrics.find? (fun provider => provider.metric.metricId == "performance.branch") =
      some branchPerformanceProvider :=
  rfl

/-- Of the available metrics the order count can be computed for a tenant, and no other. -/
theorem computeMetric_computed_iff {T : Id} (hctx : client.env.context.Holds T)
    {provider : M8MetricProvider} (hprovider : provider ∈ metrics)
    (havailable : provider.available = true) :
    Computed T s (computeMetric client s context provider.metric.metricId) ↔
      provider.metric.metricId = "orders.count" := by
  simp only [metrics, List.mem_cons, List.not_mem_nil, or_false] at hprovider
  rcases hprovider with rfl | rfl | rfl | rfl
  · rcases computeSalesRevenue_fails client s context with ⟨message, hcompute⟩
    have hstatus : (computeMetric client s context "sales.revenue").status = .UNVERIFIED :=
      computeMetric_of_error find_salesRevenue rfl hcompute
    refine iff_of_false (fun h => ?_) (by decide)
    exact MetricStatus.noConfusion (h.1.symm.trans hstatus)
  · rcases computeOrderCount_available hctx s context with ⟨result, hcompute, hid, hstatus⟩
    have hresult : computeMetric client s context "orders.count" = result :=
      computeMetric_of_ok find_orderCount rfl hcompute
    refine iff_of_true ?_ rfl
    rw [show orderCountProvider.metric.metricId = "orders.count" from rfl, hresult]
    exact ⟨hstatus, fun hbranch => absurd (hid.symm.trans hbranch) (by decide)⟩
  · rcases computeBranchPerformance_fails hctx s context with ⟨message, hcompute⟩
    have hstatus : (computeMetric client s context "performance.branch").status = .UNVERIFIED :=
      computeMetric_of_error find_branchPerformance rfl hcompute
    refine iff_of_false (fun h => ?_) (by decide)
    exact MetricStatus.noConfusion (h.1.symm.trans hstatus)
  · cases havailable

end Metrics

/-- Whatever is asked of the service in a tenant's context, of the metrics flagged available the
order count is the one that it computes. -/
theorem available_iff (client : Client) (s : MetricsState) (now : Timestamp)
    (options : MetricOptions) {T : Id} (hctx : client.env.context.Holds T)
    {provider : M8MetricProvider} (hprovider : provider ∈ metrics)
    (havailable : provider.available = true)
    (hasked : provider.metric.metricId ∈ metricIdsOf options) :
    (∀ p ∈ (metricIdsOf options).zip (computeMetrics client s now options),
        p.1 = provider.metric.metricId → Computed T s p.2) ↔
      provider.metric.metricId = "orders.count" := by
  have hzip : (metricIdsOf options).zip (computeMetrics client s now options) =
      (metricIdsOf options).map fun metricId =>
        (metricId, computeMetric client s (computationContext now options) metricId) := by
    have h : ((metricIdsOf options).map id).zip (computeMetrics client s now options) = _ :=
      List.zip_map'
    rw [List.map_id] at h
    exact h
  rw [hzip, ← computeMetric_computed_iff hctx hprovider havailable]
  constructor
  · intro h
    exact h _ (List.mem_map_of_mem hasked) rfl
  · intro h p hp hid
    rcases List.mem_map.mp hp with ⟨metricId, -, rfl⟩
    dsimp only at hid ⊢
    rw [hid]
    exact h

/-! ## A tenant with a branch -/

/-- The context of a tenant. -/
def tenantClient : Client where
  env :=
    { context := { tenantId := some "t1" }
      uuid := fun _ => ""
      now := 0 }
  finishedAt := 1
  describe _ := "unknown"
  invalidEnumText name := "Invalid value for argument in. Expected " ++ name ++ "."

def oneBranch : MetricsState where
  db :=
    { restaurants :=
        [{ (default : Restaurant) with id := "r1", tenantId := "t1", name := "Grill" }]
      branches :=
        [{ (default : Branch) with id := "b1", tenantId := "t1", restaurantId := "r1" }] }
  orderCreatedAt _ := 0

theorem tenantClient_holds : tenantClient.env.context.Holds "t1" :=
  ⟨rfl, by decide⟩

/-- The order count is available. -/
theorem orderCount_available :
    orderCountProvider.available = true ∧
      ∀ p ∈ (metricIdsOf {}).zip (computeMetrics tenantClient oneBranch 0 {}),
        p.1 = orderCountProvider.metric.metricId → Computed "t1" oneBranch p.2 :=
  ⟨rfl, (available_iff tenantClient oneBranch 0 {} tenantClient_holds
    (List.mem_cons_of_mem _ List.mem_cons_self) rfl (by decide)).mpr rfl⟩

/-- The revenue and the branches are flagged available, and cannot be computed. -/
theorem flagged_unverified :
    salesRevenueProvider.available = true ∧ branchPerformanceProvider.available = true ∧
      (computeMetrics tenantClient oneBranch 0 {}).map (fun result => result.status) =
        [.UNVERIFIED, .AVAILABLE, .UNVERIFIED, .UNAVAILABLE] := by
  decide +kernel

end ElevaBusinessIntelligenceService
end Eleva
