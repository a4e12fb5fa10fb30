import Mathlib.Data.List.Induction
import Mathlib.Data.List.Sort
import Mathlib.Data.List.TakeWhile
import Eleva.Foundation.Machine

/-!
# Cashier - Orders taken offline

The terminal keeps the orders it could not place in an object store of IndexedDB, whose
key is the {lit}`id` of the order.  When the connection is back the service worker reads
the orders with status {lit}`PENDING_SYNC`, posts each one to the checkout and rewrites
its record: an order that was accepted is stored as {lit}`SYNCED` under the id that the
server gave it, one that was refused or not reached is stored as {lit}`FAILED`.

The records hold what the worker reads of an order.  IndexedDB is taken to work, and the
messages to the open windows are left out.

Main results:

- Lemma {lit}`tracks_exec`: an order without a tenant stays pending and is never posted,
  any other stays pending as long as every run so far has had it accepted.
- Theorem {lit}`submitted_once_iff`: the runs submit every queued order once exactly when
  no order is accepted in both of the first two runs, and the first run accepts every
  order if there is a run without a failure.
- Theorem {lit}`accepted_twice`: an order that the server accepts is posted again by the
  next run, and one that was not reached is never posted again.
-/

namespace Eleva
namespace Cashier

open Foundation

/-! ## The object store -/

inductive SyncStatus where
  | PENDING_SYNC
  | SYNCED
  | FAILED
deriving DecidableEq, Repr

/-- What is posted of a line of the cart. -/
structure CartItem where
  productId : String
  quantity : ℕ
deriving DecidableEq, Repr

/-- A record of the object store. -/
structure OfflineOrder where
  id : String
  tenantId : String
  branchId : String
  orderNumber : String
  items : List CartItem
  status : SyncStatus
  syncedAt : Option ℕ := none
  apiUrl : String := ""
  authToken : String := ""
deriving DecidableEq, Repr

/-- {lit}`store.put(order)`: the record takes the place of the one with its key, and the store
is enumerated by key. -/
def putOrder (order : OfflineOrder) (store : List OfflineOrder) : List OfflineOrder :=
  (store.filter fun o => o.id ≠ order.id).orderedInsert (fun a b => a.id ≤ b.id) order

def getAllPendingOrders (store : List OfflineOrder) : List OfflineOrder :=
  store.filter fun o => o.status = .PENDING_SYNC

theorem mem_putOrder {order o : OfflineOrder} {store : List OfflineOrder} :
    o ∈ putOrder order store ↔ o = order ∨ o ∈ store ∧ o.id ≠ order.id := by
  simp [putOrder, List.mem_orderedInsert]

theorem mem_getAllPendingOrders {o : OfflineOrder} {store : List OfflineOrder} :
    o ∈ getAllPendingOrders store ↔ o ∈ store ∧ o.status = .PENDING_SYNC := by
  simp [getAllPendingOrders]

/-- The keys of the store stay distinct. -/
theorem ids_putOrder {order : OfflineOrder} {store : List OfflineOrder}
    (h : (store.map (·.id)).Nodup) : ((putOrder order store).map (·.id)).Nodup := by
  have hperm := List.perm_orderedInsert (fun a b : OfflineOrder => a.id ≤ b.id) order
    (store.filter fun o => o.id ≠ order.id)
  rw [putOrder, (hperm.map _).nodup_iff, List.map_cons, List.nodup_cons]
  refine ⟨?_, h.sublist (List.filter_sublist.map _)⟩
  simp only [List.mem_map, List.mem_filter, decide_eq_true_eq, not_exists, not_and]
  exact fun o ho hsame => ho.2 hsame

/-- Orders of a store with distinct keys are told apart by them. -/
theorem eq_of_id_eq {store : List OfflineOrder} (h : (store.map (·.id)).Nodup)
    {a b : OfflineOrder} (ha : a ∈ store) (hb : b ∈ store) (hid : a.id = b.id) : a = b :=
  List.inj_on_of_nodup_map h ha hb hid

/-! ## A run of the service worker -/

/-- The request that is posted for an order. -/
structure CheckoutRequest where
  url : String
  authorization : String
  xTenantId : String
  xBranchId : String
  branchId : String
  type : String
  items : List CartItem
  paymentMethod : String
deriving DecidableEq, Repr

def checkoutRequest (order : OfflineOrder) : CheckoutRequest where
  url := (if order.apiUrl = "" then "http://localhost:8000" else order.apiUrl) ++
    "/api/v1/orders/checkout"
  authorization := "Bearer " ++ order.authToken
  xTenantId := order.tenantId
  xBranchId := order.branchId
  branchId := order.branchId
  type := "DINE_IN"
  items := order.items
  paymentMethod := "CASH"

/-- What comes of a request: it does not reach the server, is answered with an error status,
or is accepted and answered with the id of the new order. -/
inductive Reply where
  | unreachable
  | refused (status : ℕ)
  | accepted (id : String)
deriving DecidableEq, Repr

def Reply.isAccepted : Reply → Bool
  | .accepted _ => true
  | _ => false

/-- The id in the answer of the server. -/
def Reply.newId : Reply → Option String
  | .accepted id => some id
  | _ => none

/-- A run of {lit}`syncPendingOrders`: the time, and what comes of the request for the order
with a given id. -/
structure Run where
  now : ℕ
  reply : String → Reply

/-- The request for the order would be accepted in the run. -/
def Run.Accepts (run : Run) (id : String) : Prop :=
  (run.reply id).isAccepted = true

instance (run : Run) (id : String) : Decidable (run.Accepts id) :=
  inferInstanceAs (Decidable (_ = true))

/-- A request that was posted, with the id of the record it was posted for. -/
structure Sent where
  orderId : String
  request : CheckoutRequest
  reply : Reply
deriving DecidableEq, Repr

/-- The object store, and the requests that have been posted. -/
structure SyncState where
  store : List OfflineOrder
  sent : List Sent := []
deriving DecidableEq, Repr

/-- The record after the request. -/
def rewritten (run : Run) (order : OfflineOrder) : OfflineOrder :=
  match run.reply order.id with
  | .accepted id =>
      { order with
        id := if id = "" then order.id else id
        status := .SYNCED
        syncedAt := some run.now }
  | .refused _ => { order with status := .FAILED }
  | .unreachable => { order with status := .FAILED }

/-- The body of the loop over the pending orders. -/
def syncOrder (run : Run) (s : SyncState) (order : OfflineOrder) : SyncState :=
  if order.tenantId = "" then s
  else
    { store := putOrder (rewritten run order) s.store
      sent := s.sent ++ [⟨order.id, checkoutRequest order, run.reply order.id⟩] }

def syncPendingOrders (run : Run) (s : SyncState) : SyncState :=
  (getAllPendingOrders s.store).foldl (syncOrder run) s

/-- The service worker as a machine over its runs, which shows the requests of each run. -/
def serviceWorker : Machine Run SyncState (List Sent) where
  step run s := ((syncPendingOrders run s).sent.drop s.sent.length, syncPendingOrders run s)

/-- How often the server has accepted the order of a record. -/
def timesAccepted (id : String) (s : SyncState) : ℕ :=
  s.sent.countP fun e => e.orderId = id ∧ e.reply.isAccepted = true

/-! ## What a run does -/

/-- The request that a run posts for an order. -/
def sentFor (run : Run) (order : OfflineOrder) : Sent :=
  ⟨order.id, checkoutRequest order, run.reply order.id⟩

theorem sent_foldl (run : Run) (orders : List OfflineOrder) (s : SyncState) :
    (orders.foldl (syncOrder run) s).sent =
      s.sent ++ (orders.filter fun o => o.tenantId ≠ "").map (sentFor run) := by
  induction orders generalizing s with
  | nil => simp
  | cons order orders ih =>
      rw [List.foldl_cons, ih]
      by_cases htenant : order.tenantId = ""
      · simp [syncOrder, htenant]
      · simp [syncOrder, htenant, sentFor]

/-- A run posts the pending orders that have a tenant. -/
theorem sent_syncPendingOrders (run : Run) (s : SyncState) :
    (syncPendingOrders run s).sent = s.sent ++
      ((getAllPendingOrders s.store).filter fun o => o.tenantId ≠ "").map (sentFor run) :=
  sent_foldl run _ s

theorem ids_foldl (run : Run) (orders : List OfflineOrder) {s : SyncState}
    (h : (s.store.map (·.id)).Nodup) :
    ((orders.foldl (syncOrder run) s).store.map (·.id)).Nodup := by
  induction orders generalizing s with
  | nil => exact h
  | cons order orders ih =>
      refine ih ?_
      unfold syncOrder
      split
      · exact h
      · exact ids_putOrder h

/-- A record that a run has rewritten is not pending. -/
theorem rewritten_status (run : Run) (order : OfflineOrder) :
    (rewritten run order).status ≠ .PENDING_SYNC := by
  unfold rewritten
  split <;> simp

/-- No record comes to be pending, and one leaves the store only when a record with its key is
put. -/
theorem mem_foldl {run : Run} {orders : List OfflineOrder} {s : SyncState} {o : OfflineOrder}
    (ho : o.status = .PENDING_SYNC) :
    o ∈ (orders.foldl (syncOrder run) s).store ↔
      o ∈ s.store ∧ ∀ order ∈ orders, order.tenantId ≠ "" → (rewritten run order).id ≠ o.id := by
  induction orders generalizing s with
  | nil => simp
  | cons order orders ih =>
      rw [List.foldl_cons, ih, List.forall_mem_cons]
      by_cases htenant : order.tenantId = ""
      · simp [syncOrder, htenant]
      · have hnew : o ≠ rewritten run order := fun heq =>
          rewritten_status run order (heq ▸ ho)
        simp only [syncOrder, if_neg htenant, mem_putOrder, hnew, false_or]
        constructor
        · rintro ⟨⟨hmem, hid⟩, hlater⟩
          exact ⟨hmem, fun _ hsame => hid hsame.symm, hlater⟩
        · rintro ⟨hmem, hid, hlater⟩
          exact ⟨⟨hmem, fun hsame => hid htenant hsame.symm⟩, hlater⟩

/-! ## What a sequence of runs does -/

section Runs

/-- The requests that the server accepts are answered with the id of a new order, which no
queued order has. -/
def NewIds (queue : List OfflineOrder) (run : Run) : Prop :=
  ∀ o ∈ queue, ∀ id ∈ (run.reply o.id).newId, id ≠ "" ∧ ∀ p ∈ queue, id ≠ p.id

instance (queue : List OfflineOrder) (run : Run) : Decidable (NewIds queue run) :=
  inferInstanceAs (Decidable (∀ o ∈ queue, _))

/-- An order is still pending after runs that have all had it accepted, or if it cannot be
posted. -/
def StillPending (runs : List Run) (o : OfflineOrder) : Prop :=
  o.tenantId = "" ∨ ∀ run ∈ runs, run.Accepts o.id

instance (runs : List Run) (o : OfflineOrder) : Decidable (StillPending runs o) :=
  inferInstanceAs (Decidable (_ ∨ _))

/-- The runs that have an order accepted: those before the first one that has not. -/
def acceptingRuns (runs : List Run) (o : OfflineOrder) : ℕ :=
  if o.tenantId = "" then 0 else (runs.takeWhile fun run => run.Accepts o.id).length

/-- What is known of the state after the runs, for the orders that were queued at first. -/
structure Tracks (queue : List OfflineOrder) (runs : List Run) (s : SyncState) : Prop where
  ids : (s.store.map (·.id)).Nodup
  pending : ∀ o, o ∈ getAllPendingOrders s.store ↔ o ∈ queue ∧ StillPending runs o
  accepted : ∀ o ∈ queue, timesAccepted o.id s = acceptingRuns runs o

variable {queue : List OfflineOrder} {runs : List Run} {run : Run} {s : SyncState}

theorem stillPending_append {o : OfflineOrder} :
    StillPending (runs ++ [run]) o ↔
      StillPending runs o ∧ (o.tenantId ≠ "" → run.Accepts o.id) := by
  unfold StillPending
  by_cases htenant : o.tenantId = "" <;> simp [htenant, or_imp, forall_and]

theorem acceptingRuns_append {o : OfflineOrder} :
    acceptingRuns (runs ++ [run]) o = acceptingRuns runs o +
      if StillPending runs o ∧ o.tenantId ≠ "" ∧ run.Accepts o.id then 1 else 0 := by
  unfold acceptingRuns StillPending
  by_cases htenant : o.tenantId = ""
  · simp [htenant]
  · rw [if_neg htenant, if_neg htenant, List.takeWhile_append]
    by_cases hall : ∀ r ∈ runs, r.Accepts o.id
    · have hlength : (runs.takeWhile fun r => r.Accepts o.id).length = runs.length := by
        rw [List.takeWhile_eq_self_iff.mpr (by simpa using hall)]
      rw [if_pos hlength, List.length_append, hlength]
      have hpending : o.tenantId = "" ∨ ∀ r ∈ runs, r.Accepts o.id := Or.inr hall
      by_cases hrun : run.Accepts o.id
      · rw [if_pos ⟨hpending, htenant, hrun⟩]
        simp [hrun]
      · rw [if_neg fun h => hrun h.2.2]
        simp [hrun]
    · have hlength : (runs.takeWhile fun r => r.Accepts o.id).length ≠ runs.length := by
        intro hsame
        have hself := (List.takeWhile_prefix fun r : Run => r.Accepts o.id).eq_of_length hsame
        exact hall (by simpa using List.takeWhile_eq_self_iff.mp hself)
      rw [if_neg hlength]
      simp [hall, htenant]

/-- What the rewritten record of a queued order replaces: its own record if the request fails,
none of the queued ones otherwise. -/
theorem rewritten_id_eq_iff (hids : (queue.map (·.id)).Nodup) (hnew : NewIds queue run)
    {order o : OfflineOrder} (horder : order ∈ queue) (ho : o ∈ queue) :
    (rewritten run order).id = o.id ↔ order = o ∧ ¬ run.Accepts o.id := by
  have hfails : order.id = o.id ↔ order = o :=
    ⟨fun h => List.inj_on_of_nodup_map hids horder ho h, fun h => by rw [h]⟩
  unfold rewritten Run.Accepts
  cases hreply : run.reply order.id with
  | accepted id =>
      rcases hnew order horder id (by rw [hreply]; rfl) with ⟨hne, hfresh⟩
      simp only [if_neg hne]
      refine ⟨fun h => absurd h (hfresh o ho), ?_⟩
      rintro ⟨rfl, hno⟩
      exact absurd (by rw [hreply]; rfl) hno
  | refused status =>
      simp only [hfails]
      refine ⟨fun h => ⟨h, ?_⟩, And.left⟩
      rw [← h, hreply]
      simp [Reply.isAccepted]
  | unreachable =>
      simp only [hfails]
      refine ⟨fun h => ⟨h, ?_⟩, And.left⟩
      rw [← h, hreply]
      simp [Reply.isAccepted]

/-- The accepted requests of a run for one queued order. -/
theorem countP_sentFor (run : Run) {orders : List OfflineOrder} (hids : (orders.map (·.id)).Nodup)
    (hsub : orders ⊆ queue) (hqueue : (queue.map (·.id)).Nodup) {o : OfflineOrder}
    (ho : o ∈ queue) :
    (((orders.filter fun p => p.tenantId ≠ "").map (sentFor run)).countP fun e =>
        e.orderId = o.id ∧ e.reply.isAccepted = true) =
      if o ∈ orders ∧ o.tenantId ≠ "" ∧ run.Accepts o.id then 1 else 0 := by
  rw [List.countP_map, List.countP_filter]
  have hself : ∀ p ∈ orders, (p.id = o.id ↔ p = o) := fun p hp =>
    ⟨fun h => List.inj_on_of_nodup_map hqueue (hsub hp) ho h, fun h => by rw [h]⟩
  have hcongr : orders.countP (fun p =>
      ((fun e : Sent => decide (e.orderId = o.id ∧ e.reply.isAccepted = true)) ∘ sentFor run) p &&
        decide (p.tenantId ≠ "")) =
      orders.countP (fun p => p == o && decide (o.tenantId ≠ "" ∧ run.Accepts o.id)) := by
    refine List.countP_congr fun p hp => ?_
    by_cases hpo : p = o
    · subst hpo
      simp only [Function.comp_apply, sentFor, Bool.and_eq_true, decide_eq_true_eq,
        beq_self_eq_true,
        true_and]
      exact and_comm
    · simp [sentFor, hself p hp, hpo]
  rw [hcongr]
  by_cases hposted : o.tenantId ≠ "" ∧ run.Accepts o.id
  · have hcount : orders.countP (fun p => p == o && decide (o.tenantId ≠ "" ∧ run.Accepts o.id)) =
        orders.count o := by
      simp [hposted, List.count]
    rw [hcount, List.Nodup.count hids.of_map]
    simp [hposted]
  · simp [hposted]

/-- The state after one more run. -/
theorem Tracks.step (hqueue : (queue.map (·.id)).Nodup) (h : Tracks queue runs s)
    (hnew : NewIds queue run) :
    Tracks queue (runs ++ [run]) (serviceWorker.step run s).2 := by
  have hsub : getAllPendingOrders s.store ⊆ queue := fun o ho => ((h.pending o).mp ho).1
  constructor
  · exact ids_foldl run _ h.ids
  · intro o
    rw [stillPending_append, mem_getAllPendingOrders]
    constructor
    · rintro ⟨hmem, hstatus⟩
      rcases (mem_foldl hstatus).mp hmem with ⟨hbefore, hkept⟩
      have hpending := (h.pending o).mp (mem_getAllPendingOrders.mpr ⟨hbefore, hstatus⟩)
      refine ⟨hpending.1, hpending.2, fun htenant => ?_⟩
      by_contra hfails
      exact hkept o (mem_getAllPendingOrders.mpr ⟨hbefore, hstatus⟩) htenant
        ((rewritten_id_eq_iff hqueue hnew hpending.1 hpending.1).mpr ⟨rfl, hfails⟩)
    · rintro ⟨ho, hpending, haccepts⟩
      rcases mem_getAllPendingOrders.mp ((h.pending o).mpr ⟨ho, hpending⟩) with ⟨hmem, hstatus⟩
      refine ⟨(mem_foldl hstatus).mpr ⟨hmem, fun order horder htenant hsame => ?_⟩, hstatus⟩
      rcases (rewritten_id_eq_iff hqueue hnew (hsub horder) ho).mp hsame with ⟨rfl, hfails⟩
      exact hfails (haccepts htenant)
  · intro o ho
    have hcount := countP_sentFor run (h.ids.sublist (List.filter_sublist.map _)) hsub
      hqueue ho
    rw [timesAccepted, show (serviceWorker.step run s).2.sent = _ from
      sent_syncPendingOrders run s, List.countP_append, acceptingRuns_append,
      ← h.accepted o ho, timesAccepted]
    congr 1
    refine hcount.trans (if_congr ?_ rfl rfl)
    exact and_congr ((h.pending o).trans (and_iff_right ho)) Iff.rfl

/-- The state after a sequence of runs, from a store with distinct keys. -/
theorem tracks_exec {store : List OfflineOrder} (hids : (store.map (·.id)).Nodup)
    (runs : List Run) (hnew : ∀ run ∈ runs, NewIds (getAllPendingOrders store) run) :
    Tracks (getAllPendingOrders store) runs (serviceWorker.exec runs { store }) := by
  have hqueue : ((getAllPendingOrders store).map (·.id)).Nodup :=
    hids.sublist (List.filter_sublist.map _)
  induction runs using List.reverseRecOn with
  | nil =>
      refine ⟨hids, fun o => ?_, fun o _ => ?_⟩
      · simp [StillPending]
      · simp [timesAccepted, acceptingRuns]
  | append_singleton runs run ih =>
      rw [serviceWorker.exec_append]
      exact (ih fun r hr => hnew r (List.mem_append_left _ hr)).step hqueue
        (hnew run (by simp))

/-! ## When the orders are submitted once -/

theorem acceptingRuns_le_one_iff {o : OfflineOrder} :
    acceptingRuns runs o ≤ 1 ↔
      (o.tenantId ≠ "" → 2 ≤ runs.length → ∃ run ∈ runs.take 2, ¬ run.Accepts o.id) := by
  unfold acceptingRuns
  by_cases htenant : o.tenantId = ""
  · simp [htenant]
  · rw [if_neg htenant]
    match runs with
    | [] => simp
    | [first] =>
        by_cases hfirst : first.Accepts o.id <;> simp [hfirst]
    | first :: second :: rest =>
        by_cases hfirst : first.Accepts o.id
        · by_cases hsecond : second.Accepts o.id <;> simp [hfirst, hsecond, htenant]
        · simp [hfirst]

theorem acceptingRuns_pos_iff {o : OfflineOrder} :
    0 < acceptingRuns runs o ↔
      o.tenantId ≠ "" ∧ ∃ first ∈ runs.head?, first.Accepts o.id := by
  unfold acceptingRuns
  by_cases htenant : o.tenantId = ""
  · simp [htenant]
  · rw [if_neg htenant]
    cases runs with
    | nil => simp
    | cons first rest =>
        by_cases hfirst : first.Accepts o.id <;> simp [hfirst, htenant]

/-- The requests of one more run are all accepted. -/
theorem Tracks.allAccepted_iff (h : Tracks queue runs s) :
    (∀ e ∈ (serviceWorker.step run s).1, e.reply.isAccepted = true) ↔
      ∀ o ∈ queue, o.tenantId ≠ "" → (∀ r ∈ runs, r.Accepts o.id) → run.Accepts o.id := by
  have hsent : (serviceWorker.step run s).1 =
      ((getAllPendingOrders s.store).filter fun o => o.tenantId ≠ "").map (sentFor run) := by
    have hdrop : (serviceWorker.step run s).1 =
        (syncPendingOrders run s).sent.drop s.sent.length := rfl
    rw [hdrop, sent_syncPendingOrders, List.drop_left]
  rw [hsent]
  simp only [List.forall_mem_map, List.mem_filter, decide_eq_true_eq]
  constructor
  · intro hall o ho htenant haccepts
    exact hall o ⟨(h.pending o).mpr ⟨ho, Or.inr haccepts⟩, htenant⟩
  · rintro hall o ⟨hmem, htenant⟩
    rcases (h.pending o).mp hmem with ⟨ho, hnone | haccepts⟩
    · exact absurd hnone htenant
    · exact hall o ho htenant haccepts

/-- Every queued order is accepted at most once, and after a run whose requests are all
accepted every queued order has been accepted. -/
structure SubmittedOnce (store : List OfflineOrder) (runs : List Run) : Prop where
  once : ∀ o ∈ getAllPendingOrders store,
    timesAccepted o.id (serviceWorker.exec runs { store }) ≤ 1
  all : ∀ before run, before ++ [run] <+: runs →
    (∀ e ∈ (serviceWorker.step run (serviceWorker.exec before { store })).1,
      e.reply.isAccepted = true) →
    ∀ o ∈ getAllPendingOrders store,
      0 < timesAccepted o.id (serviceWorker.exec (before ++ [run]) { store })

/-- No order with a tenant is accepted by both of the first two runs; and if some run accepts
every order that the runs before it have accepted, then every order has a tenant and is
accepted by the first run. -/
structure FirstRunDecides (queue : List OfflineOrder) (runs : List Run) : Prop where
  once : ∀ o ∈ queue, o.tenantId ≠ "" → 2 ≤ runs.length →
    ∃ run ∈ runs.take 2, ¬ run.Accepts o.id
  all : ∀ before run, before ++ [run] <+: runs →
    (∀ o ∈ queue, o.tenantId ≠ "" → (∀ r ∈ before, r.Accepts o.id) → run.Accepts o.id) →
    ∀ o ∈ queue, o.tenantId ≠ "" ∧ ∃ first ∈ runs.head?, first.Accepts o.id

/-- A run that is not the first begins where the first one began. -/
theorem head?_of_prefix {α : Type} {before rest : List α} {a : α}
    (h : before ++ [a] <+: rest) : (before ++ [a]).head? = rest.head? := by
  rcases h with ⟨suffix, rfl⟩
  cases before <;> rfl

/-- The runs submit every queued order once exactly when the first run decides about every
order. -/
theorem submitted_once_iff {store : List OfflineOrder} (hids : (store.map (·.id)).Nodup)
    (hnew : ∀ run ∈ runs, NewIds (getAllPendingOrders store) run) :
    SubmittedOnce store runs ↔ FirstRunDecides (getAllPendingOrders store) runs := by
  have htracks : ∀ before, before <+: runs →
      Tracks (getAllPendingOrders store) before (serviceWorker.exec before { store }) :=
    fun before hbefore => tracks_exec hids before fun run hrun => hnew run (hbefore.subset hrun)
  have honce : ∀ o ∈ getAllPendingOrders store,
      (timesAccepted o.id (serviceWorker.exec runs { store }) ≤ 1 ↔
        (o.tenantId ≠ "" → 2 ≤ runs.length → ∃ run ∈ runs.take 2, ¬ run.Accepts o.id)) := by
    intro o ho
    rw [(htracks runs (List.prefix_refl _)).accepted o ho, acceptingRuns_le_one_iff]
  have hall : ∀ before run, before ++ [run] <+: runs → ∀ o ∈ getAllPendingOrders store,
      (0 < timesAccepted o.id (serviceWorker.exec (before ++ [run]) { store }) ↔
        o.tenantId ≠ "" ∧ ∃ first ∈ runs.head?, first.Accepts o.id) := by
    intro before run hprefix o ho
    rw [(htracks _ hprefix).accepted o ho, acceptingRuns_pos_iff, head?_of_prefix hprefix]
  constructor
  · intro h
    refine ⟨fun o ho => (honce o ho).mp (h.once o ho), ?_⟩
    intro before run hprefix haccepts o ho
    have hbefore := htracks before ((List.prefix_append before [run]).trans hprefix)
    exact (hall before run hprefix o ho).mp
      (h.all before run hprefix (hbefore.allAccepted_iff.mpr haccepts) o ho)
  · intro h
    refine ⟨fun o ho => (honce o ho).mpr (h.once o ho), ?_⟩
    intro before run hprefix hsent o ho
    have hbefore := htracks before ((List.prefix_append before [run]).trans hprefix)
    exact (hall before run hprefix o ho).mpr
      (h.all before run hprefix (hbefore.allAccepted_iff.mp hsent) o ho)

end Runs

/-- An order of two soups that waits for the connection. -/
def queuedSoup : OfflineOrder where
  id := "offline-1767225600000"
  tenantId := "tenant-a"
  branchId := "branch-1"
  orderNumber := "ORD-2026-10001"
  items := [{ productId := "soup", quantity := 2 }]
  status := .PENDING_SYNC

/-- A run in which every request is accepted, and one without a connection. -/
def goodRun (id : String) : Run where
  now := 1767229200000
  reply _ := .accepted id

def deadRun : Run where
  now := 1767225660000
  reply _ := .unreachable

/-- An order of bread, taken a minute later. -/
def queuedBread : OfflineOrder :=
  { queuedSoup with
    id := "offline-1767225660000"
    orderNumber := "ORD-2026-10002"
    items := [{ productId := "bread", quantity := 1 }] }

/-- A run with a connection submits both orders once, also when a run without one follows. -/
theorem soup_submitted_once :
    SubmittedOnce [queuedSoup, queuedBread]
      [goodRun "8c0ff9a4-53f2-4a55-b5f9-0f6c4a3d2e10", deadRun] := by
  refine (submitted_once_iff (by decide) ?_).mpr ⟨?_, ?_⟩
  · rintro run hrun
    rcases List.mem_pair.mp hrun with rfl | rfl
    · decide +kernel
    · decide +kernel
  · rintro o _ _ _
    exact ⟨deadRun, by simp, fun haccepts => by cases haccepts⟩
  · rintro before run _ _ o ho
    rw [show getAllPendingOrders [queuedSoup, queuedBread] = [queuedSoup, queuedBread] from
      by decide] at ho
    rcases List.mem_pair.mp ho with rfl | rfl
    · exact ⟨by decide, _, rfl, rfl⟩
    · exact ⟨by decide, _, rfl, rfl⟩

/-- Two runs with a connection have the order accepted twice; after a run without one, the order
is not posted by a run with one. -/
theorem accepted_twice :
    (¬ SubmittedOnce [queuedSoup] [goodRun "8c0ff9a4-53f2-4a55-b5f9-0f6c4a3d2e10",
      goodRun "1d8be8cf-02a3-4e26-a5a4-6a1b3b0c9f77"]) ∧
    ¬ SubmittedOnce [queuedSoup] [deadRun, goodRun "1d8be8cf-02a3-4e26-a5a4-6a1b3b0c9f77"] := by
  constructor
  · intro h
    exact absurd (h.once queuedSoup (by decide)) (by decide +kernel)
  · intro h
    exact absurd (h.all [deadRun] _ (List.prefix_refl _) (by decide +kernel) queuedSoup (by decide))
      (by decide +kernel)

end Cashier
end Eleva
