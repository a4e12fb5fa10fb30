import Eleva.Agent.BusinessIntelligence
import Eleva.Foundation.Tallies

/-!
# Agent - The segments of the revenue

The revenue metric keeps the totals of the branches and those of the payment methods in one map,
under the id of the branch and under the method, a colon and the id.

Main results:

- Definition {lit}`salesRevenueResult`: the answer to the orders of the two queries.
- Theorem {lit}`SegmentGroup.key_injective`: groups with one key are one group.
- Theorem {lit}`revenue_conserved`: the revenue is the sum of the segments of the branches, and
  that of the payment methods, and no two groups share a segment.
-/

namespace Eleva

open Foundation Database Auth

namespace ElevaBusinessIntelligenceService

/-! ## The answer to given orders -/

/-- The revenue metric, from the orders of the range and those of the range before. -/
def salesRevenueResult (client : Client) (orders previousOrders : List Order) : MetricResult where
  metricId := salesRevenueMetric.metricId
  value := .number (revenueOf orders)
  unit := some "money"
  status := .AVAILABLE
  evidenceStatus := .AVAILABLE
  comparedToPrevious := some (compared (revenueOf orders) (revenueOf previousOrders))
  segments := (segmentTotals orders).map fun entry =>
    { segment := entry.1
      value := .number entry.2
      status := .AVAILABLE
      evidenceStatus := .AVAILABLE
      evidence :=
        [⟨"order.service.ts checkout flow",
          some ("Segment " ++ entry.1 ++ " derived from filtered order total.")⟩]
      limitations := ["Segmentation is only as complete as current order records."]
      computedAt := client.finishedAt }
  evidence := [⟨"order + payment query", some "Revenue requires paid terminal orders."⟩]
  limitations := ["Missing payment rows are treated as non-revenue."]
  computedAt := client.finishedAt

/-- The provider asks for the orders of both ranges and answers to them. -/
theorem computeSalesRevenue_eq (client : Client) (s : MetricsState)
    (context : M8ComputationContext) :
    computeSalesRevenue client s context = (do
      let orders ← query client prisma.order .findMany
        (readArgs (revenueWhere s client.env.context.tenantId context.range)) revenueEnums
        s.db.orders
      let previousOrders ← query client prisma.order .findMany
        (readArgs (revenueWhere s client.env.context.tenantId context.previousRange)) revenueEnums
        s.db.orders
      pure (salesRevenueResult client orders.found previousOrders.found)) :=
  rfl

/-! ## Groups -/

/-- What a segment is the total of: a branch, or a payment method in a branch. -/
inductive SegmentGroup
  | branch (branchId : Id)
  | paymentMethod (method : Option PaymentMethodType) (branchId : Id)
deriving DecidableEq, Repr

def methodText (method : Option PaymentMethodType) : String :=
  (method.map paymentMethodName).getD "unknown"

/-- The key of a segment. -/
def SegmentGroup.key : SegmentGroup → String
  | branch branchId => branchId
  | paymentMethod method branchId => methodText method ++ ":" ++ branchId

def branchGroup (order : Order) : SegmentGroup :=
  .branch order.branchId

def methodGroup (order : Order) : SegmentGroup :=
  .paymentMethod order.paymentMethod order.branchId

/-- The groups of orders. -/
def groupsOf (orders : List Order) : List SegmentGroup :=
  orders.map branchGroup ++ orders.map methodGroup

/-- The value of a segment. -/
def segmentAmount (segment : SegmentResult) : ℚ :=
  match segment.value with
  | .number amount => amount
  | _ => 0

/-- Whether a key is that of one of the groups. -/
def isKeyOf (groups : List SegmentGroup) (key : String) : Bool :=
  groups.any fun group => group.key == key

/-- The sum of the segments of some groups. -/
def segmentsTotal (result : MetricResult) (groups : List SegmentGroup) : ℚ :=
  ((result.segments.filter fun segment => isKeyOf groups segment.segment).map segmentAmount).sum

/-! ## Keys -/

/-- No payment method has a colon in its name. -/
theorem colon_notMem_methodText (method : Option PaymentMethodType) :
    ':' ∉ (methodText method).toList := by
  rcases method with - | method
  · decide
  · cases method <;> decide

theorem methodText_injective {method method' : Option PaymentMethodType}
    (h : methodText method = methodText method') : method = method' := by
  rcases method with - | method <;> rcases method' with - | method'
  · rfl
  · cases method' <;> revert h <;> decide
  · cases method <;> revert h <;> decide
  · cases method <;> cases method' <;> revert h <;> decide

/-- The branch of a group has a UUID. -/
def SegmentGroup.HasUuid : SegmentGroup → Prop
  | branch branchId => isUuid branchId = true
  | paymentMethod _ branchId => isUuid branchId = true

theorem colon_mem_methodKey (method : Option PaymentMethodType) (branchId : Id) :
    ':' ∈ (SegmentGroup.paymentMethod method branchId).key.toList := by
  simp [SegmentGroup.key, String.toList_append]

/-- The key of a branch is none of a payment method. -/
theorem branchKey_ne_methodKey {branchId : Id} (h : isUuid branchId = true)
    (method : Option PaymentMethodType) (other : Id) :
    (SegmentGroup.branch branchId).key ≠ (SegmentGroup.paymentMethod method other).key := by
  intro hsame
  have hcolon := colon_mem_methodKey method other
  rw [← hsame] at hcolon
  exact colon_not_mem_of_isUuid h hcolon

/-- Groups with one key are one group. -/
theorem SegmentGroup.key_injective {g g' : SegmentGroup} (hg : g.HasUuid) (hg' : g'.HasUuid)
    (h : g.key = g'.key) : g = g' := by
  cases g with
  | branch branchId =>
      cases g' with
      | branch branchId' => exact congrArg branch h
      | paymentMethod method' branchId' => exact absurd h (branchKey_ne_methodKey hg _ _)
  | paymentMethod method branchId =>
      cases g' with
      | branch branchId' => exact absurd h.symm (branchKey_ne_methodKey hg' _ _)
      | paymentMethod method' branchId' =>
          have hsplit : methodText method ++ String.singleton ':' ++ branchId =
              methodText method' ++ String.singleton ':' ++ branchId' := h
          have hmethod := congrArg (firstPart ':') hsplit
          have hbranch := congrArg (afterFirst ':') hsplit
          rw [firstPart_separator (colon_notMem_methodText method),
            firstPart_separator (colon_notMem_methodText method')] at hmethod
          rw [afterFirst_separator (colon_notMem_methodText method),
            afterFirst_separator (colon_notMem_methodText method')] at hbranch
          rw [methodText_injective hmethod, hbranch]

theorem isKeyOf_iff {groups : List SegmentGroup} {g : SegmentGroup}
    (hgroups : ∀ h ∈ groups, h.HasUuid) (hg : g.HasUuid) :
    isKeyOf groups g.key = true ↔ g ∈ groups := by
  unfold isKeyOf
  rw [List.any_eq_true]
  constructor
  · rintro ⟨g', hmem, hkey⟩
    rw [← SegmentGroup.key_injective (hgroups g' hmem) hg (beq_iff_eq.mp hkey)]
    exact hmem
  · exact fun hmem => ⟨g, hmem, beq_self_eq_true _⟩

/-! ## Sums -/

/-- What an order adds to the map. -/
def orderEntries (orders : List Order) : List (String × ℚ) :=
  orders.flatMap fun order =>
    [((branchGroup order).key, order.total.toNumber), ((methodGroup order).key,
      order.total.toNumber)]

theorem addTo_eq (key : String) (amount : ℚ) (totals : List (String × ℚ)) :
    addTo key amount totals = Tally.add key amount totals := by
  induction totals with
  | nil => simp [addTo, Tally.add]
  | cons entry rest ih => simp [addTo, Tally.add, ih]

/-- The map is the tally of what the orders add. -/
theorem segmentTotals_eq (orders : List Order) :
    segmentTotals orders = Tally.tally (orderEntries orders) := by
  have hfold : ∀ (orders : List Order) (totals : List (String × ℚ)),
      orders.foldl (fun totals order =>
        addTo ((methodGroup order).key) order.total.toNumber
          (addTo ((branchGroup order).key) order.total.toNumber totals)) totals =
        (orderEntries orders).foldl (fun totals entry => Tally.add entry.1 entry.2 totals)
          totals := by
    intro orders
    induction orders with
    | nil => exact fun _ => rfl
    | cons order orders ih =>
        intro totals
        rw [List.foldl_cons, ih]
        simp [orderEntries, addTo_eq]
  exact hfold orders []

/-- The segments of some groups sum to what the orders add to these groups. -/
theorem segmentsTotal_eq (client : Client) (orders previousOrders : List Order)
    (groups : List SegmentGroup) :
    segmentsTotal (salesRevenueResult client orders previousOrders) groups =
      (orders.map fun order =>
        (if isKeyOf groups (branchGroup order).key then order.total.toNumber else 0) +
          if isKeyOf groups (methodGroup order).key then order.total.toNumber else 0).sum := by
  have hsum : segmentsTotal (salesRevenueResult client orders previousOrders) groups =
      Tally.sumOver (isKeyOf groups) (segmentTotals orders) := by
    simp [segmentsTotal, salesRevenueResult, Tally.sumOver, List.filter_map, Function.comp_def,
      segmentAmount]
  rw [hsum, segmentTotals_eq, Tally.sumOver_tally]
  exact Tally.sumOver_pairs _ _ _ _ orders

section Conserved

variable {orders : List Order} (huuid : ∀ order ∈ orders, isUuid order.branchId = true)

include huuid

theorem groupsOf_hasUuid : ∀ g ∈ groupsOf orders, g.HasUuid := by
  intro g hg
  rcases List.mem_append.mp hg with hg | hg <;> rcases List.mem_map.mp hg with ⟨order, hmem, rfl⟩
  · exact huuid order hmem
  · exact huuid order hmem

/-- The branches of all orders take the whole of each order. -/
theorem branches_total (client : Client) (previousOrders : List Order) :
    segmentsTotal (salesRevenueResult client orders previousOrders) (orders.map branchGroup) =
      revenueOf orders := by
  have hbranches : ∀ g ∈ orders.map branchGroup, g.HasUuid := fun g hg =>
    groupsOf_hasUuid huuid g (List.mem_append_left _ hg)
  rw [segmentsTotal_eq, revenueOf]
  refine congrArg List.sum (List.map_congr_left fun order hmem => ?_)
  have horder : (branchGroup order).HasUuid ∧ (methodGroup order).HasUuid :=
    ⟨huuid order hmem, huuid order hmem⟩
  have hbranch : isKeyOf (orders.map branchGroup) (branchGroup order).key = true :=
    (isKeyOf_iff hbranches horder.1).mpr (List.mem_map_of_mem hmem)
  have hmethod : ¬isKeyOf (orders.map branchGroup) (methodGroup order).key = true := by
    rw [isKeyOf_iff hbranches horder.2]
    intro hin
    rcases List.mem_map.mp hin with ⟨_, _, hsame⟩
    cases hsame
  rw [if_pos hbranch, if_neg hmethod, add_zero]

/-- The payment methods of some orders take the whole of each of these orders. -/
theorem methods_total (client : Client) (previousOrders : List Order) (branchId : Id → Bool) :
    segmentsTotal (salesRevenueResult client orders previousOrders)
        ((orders.filter fun order => branchId order.branchId).map methodGroup) =
      (orders.map fun order =>
        if branchId order.branchId then order.total.toNumber else 0).sum := by
  have hmethods : ∀ g ∈ (orders.filter fun order => branchId order.branchId).map methodGroup,
      g.HasUuid := by
    intro g hg
    rcases List.mem_map.mp hg with ⟨order, hmem, rfl⟩
    exact huuid order (List.mem_of_mem_filter hmem)
  rw [segmentsTotal_eq]
  refine congrArg List.sum (List.map_congr_left fun order hmem => ?_)
  have horder : (branchGroup order).HasUuid ∧ (methodGroup order).HasUuid :=
    ⟨huuid order hmem, huuid order hmem⟩
  have hbranch : ¬isKeyOf ((orders.filter fun order => branchId order.branchId).map methodGroup)
      (branchGroup order).key = true := by
    rw [isKeyOf_iff hmethods horder.1]
    intro hin
    rcases List.mem_map.mp hin with ⟨_, _, hsame⟩
    cases hsame
  have hmethod : isKeyOf ((orders.filter fun order => branchId order.branchId).map methodGroup)
      (methodGroup order).key = true ↔ branchId order.branchId = true := by
    rw [isKeyOf_iff hmethods horder.2]
    constructor
    · intro hin
      rcases List.mem_map.mp hin with ⟨other, hother, hsame⟩
      have hbranchId : other.branchId = order.branchId := (SegmentGroup.paymentMethod.inj hsame).2
      rw [← hbranchId]
      exact (List.mem_filter.mp hother).2
    · exact fun hin => List.mem_map_of_mem (List.mem_filter.mpr ⟨hmem, hin⟩)
  rw [if_neg hbranch, zero_add]
  by_cases hin : branchId order.branchId = true
  · rw [if_pos (hmethod.mpr hin), if_pos hin]
  · rw [if_neg (hmethod.not.mpr hin), if_neg hin]

/-- The segment of a branch is the total of its orders. -/
theorem branch_total (client : Client) (previousOrders : List Order) {branchId : Id}
    (hbranchId : isUuid branchId = true) :
    segmentsTotal (salesRevenueResult client orders previousOrders) [.branch branchId] =
      (orders.map fun order =>
        if order.branchId == branchId then order.total.toNumber else 0).sum := by
  have hgroup : ∀ g ∈ [SegmentGroup.branch branchId], g.HasUuid := by
    intro g hg
    rw [List.mem_singleton.mp hg]
    exact hbranchId
  rw [segmentsTotal_eq]
  refine congrArg List.sum (List.map_congr_left fun order hmem => ?_)
  have horder : (branchGroup order).HasUuid ∧ (methodGroup order).HasUuid :=
    ⟨huuid order hmem, huuid order hmem⟩
  have hmethod : ¬isKeyOf [.branch branchId] (methodGroup order).key = true := by
    rw [isKeyOf_iff hgroup horder.2]
    intro hin
    cases List.mem_singleton.mp hin
  have hbranch : isKeyOf [.branch branchId] (branchGroup order).key = true ↔
      (order.branchId == branchId) = true := by
    rw [isKeyOf_iff hgroup horder.1, List.mem_singleton, beq_iff_eq]
    exact SegmentGroup.branch.injEq _ _ ▸ Iff.rfl
  rw [if_neg hmethod, add_zero]
  by_cases hin : (order.branchId == branchId) = true
  · rw [if_pos (hbranch.mpr hin), if_pos hin]
  · rw [if_neg (hbranch.not.mpr hin), if_neg hin]

end Conserved

/-- For any orders in branches with UUIDs: the revenue is the sum of the segments of the branches
and the sum of those of the payment methods, the segment of a branch is the sum of those of its
payment methods, each segment is that of one group of the orders, and no two groups share one. -/
theorem revenue_conserved (client : Client) (orders previousOrders : List Order)
    (huuid : ∀ order ∈ orders, isUuid order.branchId = true) :
    (salesRevenueResult client orders previousOrders).value =
        .number (segmentsTotal (salesRevenueResult client orders previousOrders)
          (orders.map branchGroup)) ∧
      (salesRevenueResult client orders previousOrders).value =
        .number (segmentsTotal (salesRevenueResult client orders previousOrders)
          (orders.map methodGroup)) ∧
      (∀ order ∈ orders,
        segmentsTotal (salesRevenueResult client orders previousOrders) [branchGroup order] =
          segmentsTotal (salesRevenueResult client orders previousOrders)
            ((orders.filter fun other => other.branchId == order.branchId).map methodGroup)) ∧
      ((salesRevenueResult client orders previousOrders).segments.map (·.segment)).Nodup ∧
      (∀ key, key ∈ (salesRevenueResult client orders previousOrders).segments.map (·.segment) ↔
        ∃ g ∈ groupsOf orders, g.key = key) ∧
      ∀ g ∈ groupsOf orders, ∀ g' ∈ groupsOf orders, g.key = g'.key → g = g' := by
  have hkeys : (salesRevenueResult client orders previousOrders).segments.map (·.segment) =
      (segmentTotals orders).map Prod.fst := by
    simp [salesRevenueResult, Function.comp_def]
  refine ⟨?_, ?_, fun order hmem => ?_, ?_, fun key => ?_, fun g hg g' hg' hsame => ?_⟩
  · rw [branches_total huuid]
    rfl
  · have hall := methods_total huuid client previousOrders fun _ => true
    rw [List.filter_true] at hall
    rw [hall]
    simp [salesRevenueResult, revenueOf]
  · have hmethods := methods_total huuid client previousOrders fun id => id == order.branchId
    rw [hmethods]
    exact branch_total huuid client previousOrders (huuid order hmem)
  · rw [hkeys, segmentTotals_eq]
    exact Tally.nodup_tally _
  · rw [hkeys, segmentTotals_eq, Tally.mem_keys_tally]
    simp only [orderEntries, groupsOf, List.map_flatMap, List.mem_flatMap, List.mem_append,
      List.mem_map, List.map_cons, List.map_nil, List.mem_cons, List.not_mem_nil, or_false]
    constructor
    · rintro ⟨order, hmem, rfl | rfl⟩
      · exact ⟨branchGroup order, Or.inl ⟨order, hmem, rfl⟩, rfl⟩
      · exact ⟨methodGroup order, Or.inr ⟨order, hmem, rfl⟩, rfl⟩
    · rintro ⟨g, ⟨order, hmem, rfl⟩ | ⟨order, hmem, rfl⟩, rfl⟩
      · exact ⟨order, hmem, Or.inl rfl⟩
      · exact ⟨order, hmem, Or.inr rfl⟩
  · exact SegmentGroup.key_injective (groupsOf_hasUuid huuid g hg) (groupsOf_hasUuid huuid g' hg')
      hsame

/-! ## Three orders in two branches -/

def soldOrder (branchId : Id) (paymentMethod : Option PaymentMethodType) (total : Money) : Order :=
  { (default : Order) with branchId, paymentMethod, total }

def soldOrders : List Order :=
  [soldOrder "11111111-1111-4111-8111-111111111111" (some .CASH) ⟨1200, by decide⟩,
    soldOrder "22222222-2222-4222-8222-222222222222" none ⟨250, by decide⟩,
    soldOrder "11111111-1111-4111-8111-111111111111" (some .CREDIT_CARD) ⟨725, by decide⟩]

theorem soldOrders_conserved :
    (salesRevenueResult tenantClient soldOrders []).value =
        .number (segmentsTotal (salesRevenueResult tenantClient soldOrders [])
          (soldOrders.map methodGroup)) ∧
      (salesRevenueResult tenantClient soldOrders []).segments.length = 5 :=
  ⟨(revenue_conserved tenantClient soldOrders [] (by decide +kernel)).2.1, by decide +kernel⟩

end ElevaBusinessIntelligenceService
end Eleva
