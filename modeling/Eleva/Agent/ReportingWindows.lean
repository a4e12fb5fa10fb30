import Eleva.Agent.RevenueSegments

/-!
# Agent - Reporting windows

The metrics compare the orders of a range with those of the range before.  Both ranges contain
their ends, and the range before ends where the other one starts.

Main results:

- Theorems {lit}`orderCount_counts` and {lit}`revenueQuery_counts`: what the metrics count.
- Theorem {lit}`countedOnce_iff`: a metric counts an order in one of the ranges, and not in both,
  exactly when the order was not created at the start of the range.
- Theorem {lit}`reporting_windows`: both, for the metrics as they are computed.
-/

namespace Eleva

open Foundation Database Auth

namespace ElevaBusinessIntelligenceService

/-! ## What a metric counts -/

/-- The metrics that count orders. -/
inductive OrderMetric
  | revenue
  | orderCount
deriving DecidableEq, Repr

/-- The filter of a metric. -/
def OrderMetric.whereOf (s : MetricsState) (tenantId : Option Id) (range : DateRange) :
    OrderMetric → Where Order
  | revenue => revenueWhere s tenantId range
  | orderCount => orderCountWhere s tenantId range

/-- The conditions of a metric, apart from the tenant and the time. -/
def OrderMetric.concerns (s : MetricsState) (order : Order) : OrderMetric → Bool
  | revenue =>
      (s.db.payments.any fun payment =>
        payment.orderId == order.id && paidStatuses.contains (paymentStatusName payment.status)) &&
      revenueStatuses.contains (statusName order.status)
  | orderCount => true

/-- The query of a metric takes the order: the filter admits it, inside the scope. -/
def OrderMetric.counts (client : Client) (s : MetricsState) (S : Option Id) (range : DateRange)
    (metric : OrderMetric) (order : Order) : Bool :=
  ((metric.whereOf s client.env.context.tenantId range).inScope S).admits prisma.order order

/-- The orders that a metric counts in a range. -/
def OrderMetric.counted (client : Client) (s : MetricsState) (S : Option Id) (range : DateRange)
    (metric : OrderMetric) : List Order :=
  s.db.orders.filter (metric.counts client s S range)

section Counts

variable {client : Client} {s : MetricsState} {S : Option Id}

/-- The tenant key of a filter and the extension ask for the scope. -/
theorem tenantKey_admits (hctx : client.env.context.Sees S) (order : Order) :
    (tenantKey client.env.context.tenantId).admits (some order.tenantId) = visible S order := by
  cases S with
  | none =>
      have hnone : truthy client.env.context.tenantId = false := hctx.1
      simp [tenantKey, hnone, ColumnKey.admits, visible]
  | some T =>
      have hholds : client.env.context.Holds T := hctx
      have htruthy : truthy (some T) = true := by
        simpa [truthy] using hholds.nonempty
      rw [hholds.tenantId]
      simp [tenantKey, htruthy, ColumnKey.admits, visible, owned, TenantRow.tenantId]

/-- A filter on the tenant of the context admits the orders of the scope that pass the rest. -/
theorem inScope_admits (hctx : client.env.context.Sees S) {w : Where Order} (hid : w.id = none)
    (htenant : w.tenantId = tenantKey client.env.context.tenantId) (order : Order) :
    (w.inScope S).admits prisma.order order = (visible S order && w.rest order) := by
  have hkey := tenantKey_admits hctx order
  cases S with
  | none =>
      rw [← hkey, ← htenant]
      simp [Where.inScope, Where.admits, prisma.order, hid, TenantRow.tenantId]
  | some T =>
      simp [Where.inScope, Where.withTenant, Where.admits, prisma.order, hid, ColumnKey.admits,
        visible, owned]

/-- A metric counts the orders of the scope that it concerns, where the range contains the time
of their creation. -/
theorem counts_iff (hctx : client.env.context.Sees S) (range : DateRange) (metric : OrderMetric)
    (order : Order) :
    metric.counts client s S range order = true ↔
      (visible S order = true ∧ metric.concerns s order = true) ∧
        range.start ≤ s.orderCreatedAt order.id ∧ s.orderCreatedAt order.id ≤ range.stop := by
  unfold OrderMetric.counts
  cases metric with
  | orderCount =>
      rw [inScope_admits hctx rfl rfl]
      simp [OrderMetric.whereOf, orderCountWhere, OrderMetric.concerns, DateRange.contains]
  | revenue =>
      rw [inScope_admits hctx rfl rfl]
      simp only [OrderMetric.whereOf, revenueWhere, OrderMetric.concerns, DateRange.contains,
        Bool.and_eq_true, decide_eq_true_eq]
      tauto

/-- Counting the orders of a filter. -/
theorem query_count (hctx : client.env.context.Sees S) {w : Where Order}
    (hw : w.deletedAt = .absent) (rows : List Order) :
    ∃ result, query client prisma.order .count (readArgs w) [] rows = .ok result ∧
      result.number = (rows.filter ((w.inScope S).admits prisma.order)).length := by
  refine ⟨_, query_of_root hctx (by decide) hw (by simp) rfl rfl rfl rfl, ?_⟩
  rw [Args.inScope_where (by decide)]
  simp [Result.number, Root.outcome, Args.arrange, readArgs, Args.page]

/-- Reading the orders of a filter. -/
theorem query_findMany (hctx : client.env.context.Sees S) {w : Where Order}
    (hw : w.deletedAt = .absent) {enums : List EnumFilter}
    (hvalid : ∀ filter ∈ enums, filter.valid = true) (rows : List Order) :
    ∃ result, query client prisma.order .findMany (readArgs w) enums rows = .ok result ∧
      result.found = rows.filter ((w.inScope S).admits prisma.order) := by
  refine ⟨_, query_of_root hctx (by decide) hw hvalid rfl rfl rfl rfl, ?_⟩
  rw [Root.found_outcome rfl, Args.inScope_where (by decide)]
  simp [findRoot, Args.arrange, readArgs, Args.page]

/-- The order count is the number of the orders that it counts in the range, beside the number of
those that it counts in the range before. -/
theorem orderCount_counts (hctx : client.env.context.Sees S) (context : M8ComputationContext) :
    (computeMetric client s context "orders.count").value =
        .number (OrderMetric.orderCount.counted client s S context.range).length ∧
      (computeMetric client s context "orders.count").comparedToPrevious = some
        (compared (OrderMetric.orderCount.counted client s S context.range).length
          (OrderMetric.orderCount.counted client s S context.previousRange).length) := by
  have hnone : ∀ filter ∈ ([] : List EnumFilter), filter.valid = true := by simp
  rcases query_count hctx (w := orderCountWhere s client.env.context.tenantId context.range) rfl
    s.db.orders with ⟨count, hcount, hnumber⟩
  rcases query_count hctx
    (w := orderCountWhere s client.env.context.tenantId context.previousRange) rfl
    s.db.orders with ⟨previous, hprevious, hpreviousNumber⟩
  rcases query_findMany hctx
    (w := orderCountWhere s client.env.context.tenantId context.range) rfl hnone
    s.db.orders with ⟨rows, hrows, -⟩
  have hcompute : ∃ result, computeOrderCount client s context = .ok result ∧
      result.value = .number count.number ∧
      result.comparedToPrevious = some (compared count.number previous.number) := by
    unfold computeOrderCount
    dsimp only
    rw [hcount, hprevious, hrows]
    exact ⟨_, rfl, rfl, rfl⟩
  rcases hcompute with ⟨result, hcompute, hvalue, hcompared⟩
  rw [computeMetric_of_ok find_orderCount rfl hcompute, hvalue, hcompared, hnumber,
    hpreviousNumber]
  exact ⟨rfl, rfl⟩

/-- A revenue query whose enumerations are valid finds the orders that the revenue counts. -/
theorem revenueQuery_counts (hctx : client.env.context.Sees S) {enums : List EnumFilter}
    (hvalid : ∀ filter ∈ enums, filter.valid = true) (range : DateRange) :
    ∃ result, query client prisma.order .findMany
        (readArgs (revenueWhere s client.env.context.tenantId range)) enums s.db.orders =
          .ok result ∧
      result.found = OrderMetric.revenue.counted client s S range :=
  query_findMany hctx rfl hvalid s.db.orders

end Counts

/-! ## Ranges -/

/-- Dropping a fraction does not pass an integer. -/
theorem dateOf_le {x : ℚ} {t : Timestamp} (h : x ≤ t) : dateOf x ≤ t := by
  have hden : (0 : ℤ) < x.den := by exact_mod_cast x.pos
  have hnum : x.num ≤ t * x.den := by
    have hmul : x * x.den ≤ t * x.den := by gcongr
    rw [Rat.mul_den_eq_num] at hmul
    exact_mod_cast hmul
  calc dateOf x ≤ (t * x.den).tdiv x.den := Int.tdiv_le_tdiv hden hnum
    _ = t := Int.mul_tdiv_cancel t (by omega)

/-- The range before ends where the range starts, and both go forward. -/
theorem computationContext_ranges (now : Timestamp) {options : MetricOptions}
    (hrange : 0 < options.rangeDays.getD DEFAULT_RANGE_DAYS)
    (hprevious : 0 < options.previousRangeDays.getD DEFAULT_RANGE_DAYS) :
    (computationContext now options).previousRange.start ≤
        (computationContext now options).range.start ∧
      (computationContext now options).range.start ≤ now := by
  have hday : (0 : ℚ) < dayMs := by norm_num [dayMs]
  constructor
  · refine dateOf_le ?_
    have hlength := mul_pos hprevious hday
    exact sub_le_self _ hlength.le
  · refine dateOf_le ?_
    have hlength := mul_pos hrange hday
    exact sub_le_self _ hlength.le

/-- A metric counts an order at most once, and once if it concerns the order and the order was
created between the start of the range before and now. -/
def CountedOnce (client : Client) (s : MetricsState) (S : Option Id)
    (context : M8ComputationContext) (metric : OrderMetric) (order : Order) : Prop :=
  ¬(metric.counts client s S context.range order = true ∧
      metric.counts client s S context.previousRange order = true) ∧
    (visible S order = true → metric.concerns s order = true →
      context.previousRange.start ≤ s.orderCreatedAt order.id →
      s.orderCreatedAt order.id ≤ context.now →
      metric.counts client s S context.range order = true ∨
        metric.counts client s S context.previousRange order = true)

/-- An order is counted once, unless it was created at the start of the range. -/
theorem countedOnce_iff (client : Client) (s : MetricsState) {S : Option Id}
    (hctx : client.env.context.Sees S) (now : Timestamp) {options : MetricOptions}
    (hrange : 0 < options.rangeDays.getD DEFAULT_RANGE_DAYS)
    (hprevious : 0 < options.previousRangeDays.getD DEFAULT_RANGE_DAYS) (metric : OrderMetric)
    (order : Order) :
    CountedOnce client s S (computationContext now options) metric order ↔
      ¬(visible S order = true ∧ metric.concerns s order = true ∧
        s.orderCreatedAt order.id = (computationContext now options).range.start) := by
  rcases computationContext_ranges now hrange hprevious with ⟨hbefore, hstart⟩
  have hstop : (computationContext now options).range.stop = now := rfl
  have hmeet : (computationContext now options).previousRange.stop =
      (computationContext now options).range.start := rfl
  have hnow : (computationContext now options).now = now := rfl
  unfold CountedOnce
  rw [counts_iff hctx, counts_iff hctx, hstop, hmeet, hnow]
  constructor
  · rintro ⟨honce, -⟩ ⟨hvisible, hconcerns, htime⟩
    rw [htime] at honce
    exact honce ⟨⟨⟨hvisible, hconcerns⟩, le_refl _, hstart⟩, ⟨hvisible, hconcerns⟩, hbefore,
      le_refl _⟩
  · intro hnot
    constructor
    · rintro ⟨⟨⟨hvisible, hconcerns⟩, hlow, -⟩, -, -, hhigh⟩
      exact hnot ⟨hvisible, hconcerns, le_antisymm hhigh hlow⟩
    · intro hvisible hconcerns hlow hhigh
      by_cases hlate : (computationContext now options).range.start ≤ s.orderCreatedAt order.id
      · exact Or.inl ⟨⟨hvisible, hconcerns⟩, hlate, hhigh⟩
      · exact Or.inr ⟨⟨hvisible, hconcerns⟩, hlow, (not_le.mp hlate).le⟩

/-- The order count reports the numbers of the orders that it counts in the two ranges, the revenue
adds up the orders that its queries find, which are those that it counts, and each of the metrics
counts an order once exactly when the order was not created at the start of the range. -/
theorem reporting_windows (client : Client) (s : MetricsState) {S : Option Id}
    (hctx : client.env.context.Sees S) (now : Timestamp) {options : MetricOptions}
    (hrange : 0 < options.rangeDays.getD DEFAULT_RANGE_DAYS)
    (hprevious : 0 < options.previousRangeDays.getD DEFAULT_RANGE_DAYS) (metric : OrderMetric)
    (order : Order) :
    ((computeMetric client s (computationContext now options) "orders.count").value =
        .number (OrderMetric.orderCount.counted client s S
          (computationContext now options).range).length ∧
      (computeMetric client s (computationContext now options) "orders.count").comparedToPrevious =
        some (compared
          (OrderMetric.orderCount.counted client s S
            (computationContext now options).range).length
          (OrderMetric.orderCount.counted client s S
            (computationContext now options).previousRange).length)) ∧
      (∀ enums : List EnumFilter, (∀ filter ∈ enums, filter.valid = true) →
        ∀ range, ∃ result,
          query client prisma.order .findMany
              (readArgs (revenueWhere s client.env.context.tenantId range)) enums s.db.orders =
            .ok result ∧
          result.found = OrderMetric.revenue.counted client s S range) ∧
      (CountedOnce client s S (computationContext now options) metric order ↔
        ¬(visible S order = true ∧ metric.concerns s order = true ∧
          s.orderCreatedAt order.id = (computationContext now options).range.start)) :=
  ⟨orderCount_counts hctx _, fun _ hvalid range => revenueQuery_counts hctx hvalid range,
    countedOnce_iff client s hctx now hrange hprevious metric order⟩

/-! ## An order at the boundary -/

/-- A paid order of a tenant, created at a given time. -/
def paidAt (time : Timestamp) : MetricsState where
  db :=
    { orders := [{ (default : Order) with id := "o1", tenantId := "t1", status := .COMPLETED }]
      payments := [{ (default : Payment) with
        id := "p1", tenantId := "t1", orderId := "o1", status := .PAID }] }
  orderCreatedAt _ := time

def paidOrder : Order :=
  { (default : Order) with id := "o1", tenantId := "t1", status := .COMPLETED }

/-- A day, and the day before. -/
def oneDay : MetricOptions where
  rangeDays := some 1
  previousRangeDays := some 1

/-- An hour after the start of the range. -/
theorem hourLater_countedOnce :
    CountedOnce tenantClient (paidAt 90000000) (some "t1") (computationContext 172800000 oneDay)
        .revenue paidOrder ∧
      CountedOnce tenantClient (paidAt 90000000) (some "t1")
        (computationContext 172800000 oneDay) .orderCount paidOrder := by
  have hsees : tenantClient.env.context.Sees (some "t1") := tenantClient_holds
  have hrange : 0 < oneDay.rangeDays.getD DEFAULT_RANGE_DAYS := by decide +kernel
  have hprevious : 0 < oneDay.previousRangeDays.getD DEFAULT_RANGE_DAYS := by decide +kernel
  constructor
  · exact (reporting_windows tenantClient (paidAt 90000000) hsees 172800000 hrange hprevious
      .revenue paidOrder).2.2.mpr (by decide +kernel)
  · exact (reporting_windows tenantClient (paidAt 90000000) hsees 172800000 hrange hprevious
      .orderCount paidOrder).2.2.mpr (by decide +kernel)

/-- At the start of the range the order is counted in both ranges. -/
theorem boundary_countedTwice :
    (∀ metric : OrderMetric, ¬CountedOnce tenantClient (paidAt 86400000) (some "t1")
        (computationContext 172800000 oneDay) metric paidOrder) ∧
      (computeMetrics tenantClient (paidAt 86400000) 172800000
          { oneDay with metricIds := ["orders.count"] }).map
        (fun result => (result.value, result.comparedToPrevious)) =
          [(.number 1, some (compared 1 1))] := by
  constructor
  · intro metric hcounted
    refine hcounted.1 ?_
    cases metric <;> decide +kernel
  · decide +kernel

end ElevaBusinessIntelligenceService
end Eleva
