import Mathlib.Data.List.Count
import Eleva.Kds.CookingTimes

/-!
# Kds - The escalation of a ticket

A poll reads the queue of the branch, takes the time, and raises the entries whose orders
wait for too long: for each of them it writes the priority and then broadcasts the change.
Between two of these steps other polls run, the preparation times of products are edited,
orders move on and time passes.

The state keeps the answers of the polls, and the escalations that are stored and not yet
broadcast.

Main results:

- Theorem {lit}`poll_alone`: a poll that runs alone does what {lit}`getTickets` does.
- Lemma {lit}`pollStep_ok`: what one safe step of a poll keeps.
- Theorem {lit}`escalates_once`: over a run of safe steps a ticket that was reported in a rush
  stays in a rush, and its change of priority is broadcast once.
- Theorem {lit}`soup_escalates_twice`: two polls that read the same entry broadcast it twice, and
  an edit of a preparation time takes a ticket out of its rush.
-/

namespace Eleva
namespace KdsService

open Foundation Database OrderService

/-! ## The steps of a poll -/

/-- The answer of a poll, with the rows that it goes back to.  {lit}`since` counts the answers
that had been given when the rows were read. -/
structure PollReport where
  since : ℕ
  read : Db
  tickets : List KitchenTicket

/-- An entry that a poll raises; {lit}`stored` tells that it is written and not yet broadcast. -/
structure Escalation where
  kq : KitchenQueue
  stored : Bool := false

/-- A branch: the world, the time, the answers of the polls, and the tickets whose new priority
a poll has stored and not yet broadcast. -/
structure BranchState (ι : Type) where
  world : World
  clock : Timestamp
  reports : List PollReport := []
  sending : List (ι × Id) := []

/-- Where a poll is. -/
inductive PollPhase where
  | start
  | allowed
  | fetched (since : ℕ) (read : Db)
  | escalating (report : PollReport) (left : List Escalation)
  | finished (answer : Except AppError (List KitchenTicket))

/-- What happens in a branch: a poll moves, and goes on with the ticket if it is escalating, a
preparation time is edited, an order moves on, or time passes. -/
inductive BranchEvent where
  | move (env : KdsEnv) (ticketId : Id)
  | edit (productId : Id) (preparationTime : Int)
  | setStatus (orderId : Id) (status : OrderStatus)
  | wait (milliseconds : ℕ)

section Polls

variable (env : KdsEnv) (branchId tenantId : Id)

/-- The check of the branch. -/
def findBranch : Service (Option Branch) :=
  attempt (env.fails .branch)
    (branches.run (branchRepository.findById (env.inTenant tenantId) branchId))

/-- The read of the queue and of the rows that it includes. -/
def readRows : Service Db :=
  attempt (env.fails .queues) (Fallible.reads fun w => .ok w.db)

def pollTickets (db : Db) : List KitchenTicket :=
  (activeEntries env branchId tenantId db).map fun entry => ticketOf env db entry.1 entry.2

/-- The entries that a poll raises. -/
def toEscalate (db : Db) (entries : List (KitchenQueue × Order)) : List Escalation :=
  (entries.filter fun entry =>
    computedPriority env db entry.2 == "RUSH" && entry.1.priority != "RUSH").map fun entry =>
      { kq := entry.1 }

/-- The write of an escalation. -/
def writePriority (kq : KitchenQueue) : Service Unit := do
  let _ ← attempt (env.fails (.escalate kq.id))
    (kitchenQueues.run (kitchenQueueRepository.update (env.inTenant tenantId) kq.id rushPayload))
  pure ()

omit branchId in
theorem writePriority_then (kq : KitchenQueue) (x : Service Unit) :
    (attempt (env.fails (.escalate kq.id)) (kitchenQueues.run
      (kitchenQueueRepository.update (env.inTenant tenantId) kq.id rushPayload)) >>= fun _ => x) =
        writePriority env tenantId kq >>= fun _ => x := by
  funext w
  unfold writePriority
  simp only [Fallible.bind_apply]
  rcases attempt (env.fails (.escalate kq.id)) (kitchenQueues.run
    (kitchenQueueRepository.update (env.inTenant tenantId) kq.id rushPayload)) w with
    ⟨_ | _, _⟩ <;> rfl

/-- The broadcast of an escalation. -/
def sendPriority (kq : KitchenQueue) : Service Unit :=
  if env.kdsGateway then
    attempt (env.fails (.escalated kq.id))
      (broadcastOrderEvent tenantId branchId "ticket.priority_changed"
        (.priorityChanged kq.id kq.priority "RUSH"))
  else pure ()

/-- An escalation is its write and its broadcast. -/
theorem escalate_eq (computed : String) (kq : KitchenQueue) :
    escalate env branchId tenantId computed kq =
      if computed = "RUSH" ∧ kq.priority ≠ "RUSH" then
        Fallible.orElse
          (do
            writePriority env tenantId kq
            sendPriority env branchId tenantId kq)
          (pure ())
      else pure () := by
  unfold escalate
  rw [← writePriority_then]
  rfl

/-- A poll checks the branch, reads the rows, escalates and answers. -/
theorem getTickets_eq :
    getTickets env branchId tenantId = do
      match ← findBranch env branchId tenantId with
      | none => Fallible.throw (branchInaccessible branchId)
      | some _ => do
          let db ← readRows env
          escalateAll env branchId tenantId db (activeEntries env branchId tenantId db)
          return pollTickets env branchId tenantId db :=
  rfl

variable {ι : Type} [DecidableEq ι]

/-- One step of a poll. -/
def pollStep (i : ι) (ticketId : Id) (s : BranchState ι) : PollPhase → BranchState ι × PollPhase
  | .start =>
      match findBranch env branchId tenantId s.world with
      | (.error e, w) => ({ s with world := w }, .finished (.error e))
      | (.ok none, w) => ({ s with world := w }, .finished (.error (branchInaccessible branchId)))
      | (.ok (some _), w) => ({ s with world := w }, .allowed)
  | .allowed =>
      match readRows env s.world with
      | (.error e, w) => ({ s with world := w }, .finished (.error e))
      | (.ok db, w) => ({ s with world := w }, .fetched s.reports.length db)
  | .fetched since read =>
      (s, .escalating ⟨since, read, pollTickets env branchId tenantId read⟩
        (toEscalate env read (activeEntries env branchId tenantId read)))
  | .escalating report left =>
      match left.find? fun task => task.kq.id == ticketId with
      | some task =>
          let others := left.filter fun other => other.kq.id != ticketId
          if task.stored then
            ({ s with
                world := (sendPriority env branchId tenantId task.kq s.world).2
                sending := s.sending.erase (i, ticketId) }, .escalating report others)
          else
            match writePriority env tenantId task.kq s.world with
            | (.error _, w) => ({ s with world := w }, .escalating report others)
            | (.ok _, w) =>
                ({ s with world := w, sending := (i, ticketId) :: s.sending },
                  .escalating report ({ task with stored := true } :: others))
      | none =>
          -- the answer waits for all escalations of the poll
          if left.isEmpty then
            ({ s with reports := s.reports ++ [report] }, .finished (.ok report.tickets))
          else (s, .escalating report left)
  | .finished answer => (s, .finished answer)

end Polls

/-- The surroundings of a step at a time. -/
def pollEnv (created : Id → Timestamp) (clock : Timestamp) (env : KdsEnv) : KdsEnv :=
  { env with now := clock, createdAt := created }

/-- A change of the database from elsewhere. -/
def BranchState.onDb {ι : Type} (f : Db → Db) (s : BranchState ι) : BranchState ι :=
  { s with world := { s.world with db := f s.world.db } }

/-- The products with an edited preparation time. -/
def editProduct (productId : Id) (preparationTime : Int) (db : Db) : Db :=
  { db with products := db.products.map fun p =>
      if p.id = productId then { p with preparationTime := preparationTime } else p }

/-- The orders with one that has moved on. -/
def moveOrder (orderId : Id) (status : OrderStatus) (db : Db) : Db :=
  { db with orders := db.orders.map fun o =>
      if o.id = orderId then { o with status := status } else o }

/-- Any number of polls of a branch, whose orders were created at the given times. -/
def branchPolls (created : Id → Timestamp) (branchId tenantId : Id) (ι : Type) [DecidableEq ι] :
    CallSystem ι BranchEvent (BranchState ι) PollPhase where
  next i event s phase :=
    match event with
    | .move env ticketId =>
        pollStep (pollEnv created s.clock env) branchId tenantId i ticketId s phase
    | .edit productId preparationTime => (s.onDb (editProduct productId preparationTime), phase)
    | .setStatus orderId status => (s.onDb (moveOrder orderId status), phase)
    | .wait milliseconds => ({ s with clock := s.clock + milliseconds }, phase)

/-! ## What the reports and the broadcasts should say -/

section Promise

variable {ι : Type} (branchId tenantId : Id)

/-- The ticket is in the queue of the branch, for an order that is under way. -/
def ActiveTicket (db : Db) (ticketId : Id) : Prop :=
  ∃ kq ∈ db.kitchenQueues, kq.id = ticketId ∧ kq.tenantId = tenantId ∧ kq.branchId = branchId ∧
    ∃ order ∈ db.orders, order.id = kq.orderId ∧ order.status ∈ activeStatuses

/-- The report has the ticket, in a rush. -/
def PollReport.Rush (report : PollReport) (ticketId : Id) : Prop :=
  ∃ ticket ∈ report.tickets, ticket.ticketId = ticketId ∧ ticket.priority = "RUSH"

/-- The report has the tickets of earlier reports that were in a rush: each of them is listed
while its order is under way, and it is still in a rush. -/
def PollReport.Remains (report : PollReport) (earlier : List PollReport) : Prop :=
  ∀ before ∈ earlier, ∀ ticketId, before.Rush ticketId →
    (ActiveTicket branchId tenantId report.read ticketId → report.Rush ticketId) ∧
      ∀ ticket ∈ report.tickets, ticket.ticketId = ticketId → ticket.priority = "RUSH"

/-- The broadcast announces a new priority of the ticket. -/
def announces (ticketId : Id) (broadcast : Broadcast) : Bool :=
  broadcast.event == "ticket.priority_changed" &&
    match broadcast.payload with
    | .priorityChanged id _ _ => id == ticketId
    | _ => false

/-- How often a new priority of the ticket was broadcast. -/
def announcements (ticketId : Id) (w : World) : ℕ :=
  w.broadcasts.countP (announces ticketId)

/-- How many polls are about to broadcast it. -/
def BranchState.senders (s : BranchState ι) (ticketId : Id) : ℕ :=
  s.sending.countP fun entry => entry.2 == ticketId

/-- A ticket that was reported in a rush stays in a rush in every report that was read later,
no ticket is broadcast twice, and a ticket that was reported in a rush has been broadcast unless
a poll is about to. -/
structure EscalatesOnce (s : BranchState ι) : Prop where
  stays : ∀ report ∈ s.reports, report.Remains branchId tenantId (s.reports.take report.since)
  once : ∀ kq ∈ s.world.db.kitchenQueues, announcements kq.id s.world ≤ 1
  sent : ∀ report ∈ s.reports, ∀ ticketId, report.Rush ticketId → s.senders ticketId = 0 →
    announcements ticketId s.world = 1

end Promise

/-! ## Tickets and their waiting time -/

/-- What names a queue entry. -/
def entryKey (kq : KitchenQueue) : Id × Id × Id × Id :=
  (kq.id, kq.tenantId, kq.branchId, kq.orderId)

/-- What names an order and its items. -/
def itemsKey (order : Order) : Id × List OrderItem :=
  (order.id, order.orderItems)

/-- The tickets are the same ones, for the same items. -/
structure SameTickets (db db' : Db) : Prop where
  queues : db'.kitchenQueues.map entryKey = db.kitchenQueues.map entryKey
  orders : db'.orders.map itemsKey = db.orders.map itemsKey

/-- The rows are identified: the orders by their ids, and the queue keeps to its constraints. -/
structure Identified (db : Db) : Prop where
  orders : (db.orders.map (·.id)).Nodup
  queues : kitchenQueues.Valid db

/-- The ticket is the one of an order with the items. -/
def Waits (db : Db) (ticketId orderId : Id) (items : List OrderItem) : Prop :=
  (∃ kq ∈ db.kitchenQueues, kq.id = ticketId ∧ kq.orderId = orderId) ∧
    ∃ order ∈ db.orders, order.id = orderId ∧ order.orderItems = items

/-- The time that the slowest item takes. -/
def slowest (db : Db) (items : List OrderItem) : Int :=
  (items.map (preparationTime db)).foldl max 15

/-- The minutes since a time. -/
def minutesSince (start now : Timestamp) : Int :=
  (now - start) / 60000

section Tickets

variable {created : Id → Timestamp} {db db' db'' : Db} {clock clock' : Timestamp}
  {ticketId : Id}

theorem SameTickets.refl (db : Db) : SameTickets db db :=
  ⟨rfl, rfl⟩

theorem SameTickets.trans (h : SameTickets db db') (h' : SameTickets db' db'') :
    SameTickets db db'' :=
  ⟨h'.queues.trans h.queues, h'.orders.trans h.orders⟩

theorem SameTickets.symm (h : SameTickets db db') : SameTickets db' db :=
  ⟨h.queues.symm, h.orders.symm⟩

/-- An entry is found again under its names. -/
theorem SameTickets.entry (h : SameTickets db db') {kq : KitchenQueue}
    (hkq : kq ∈ db.kitchenQueues) : ∃ row ∈ db'.kitchenQueues, entryKey row = entryKey kq := by
  have hkey : entryKey kq ∈ db'.kitchenQueues.map entryKey := by
    rw [h.queues]
    exact List.mem_map_of_mem hkq
  exact List.mem_map.mp hkey

/-- So is an entry of a tenant. -/
theorem SameTickets.own (h : SameTickets db db') {id tenantId : Id}
    (hrow : ∃ row ∈ db.kitchenQueues, row.id = id ∧ row.tenantId = tenantId) :
    ∃ row ∈ db'.kitchenQueues, row.id = id ∧ row.tenantId = tenantId := by
  rcases hrow with ⟨kq, hkq, hid, htenant⟩
  rcases h.entry hkq with ⟨row, hrow, hkey⟩
  simp only [entryKey, Prod.mk.injEq] at hkey
  exact ⟨row, hrow, hkey.1.trans hid, hkey.2.1.trans htenant⟩

theorem SameTickets.order (h : SameTickets db db') {order : Order} (horder : order ∈ db.orders) :
    ∃ row ∈ db'.orders, itemsKey row = itemsKey order := by
  have hkey : itemsKey order ∈ db'.orders.map itemsKey := by
    rw [h.orders]
    exact List.mem_map_of_mem horder
  exact List.mem_map.mp hkey

theorem SameTickets.waits (h : SameTickets db db') {orderId : Id} {items : List OrderItem}
    (hwaits : Waits db ticketId orderId items) : Waits db' ticketId orderId items := by
  rcases hwaits with ⟨⟨kq, hkq, hid, horderId⟩, order, horder, hsame, hitems⟩
  rcases h.entry hkq with ⟨row, hrow, hkey⟩
  rcases h.order horder with ⟨row', hrow', hkey'⟩
  simp only [entryKey, itemsKey, Prod.mk.injEq] at hkey hkey'
  exact ⟨⟨row, hrow, hkey.1.trans hid, hkey.2.2.2.trans horderId⟩,
    row', hrow', hkey'.1.trans hsame, hkey'.2.trans hitems⟩

/-- Identified rows stay identified under the same names. -/
theorem Identified.of_same (h : Identified db) (hsame : SameTickets db db') : Identified db' := by
  rcases queues_valid_iff.mp h.queues with ⟨hids, hrefs⟩
  have horderIds : db'.orders.map (·.id) = db.orders.map (·.id) := by
    have hkeys := congrArg (List.map Prod.fst) hsame.orders
    simp only [List.map_map] at hkeys
    exact hkeys
  have hentryIds : db'.kitchenQueues.map (·.id) = db.kitchenQueues.map (·.id) := by
    have hkeys := congrArg (List.map Prod.fst) hsame.queues
    simp only [List.map_map] at hkeys
    exact hkeys
  refine ⟨horderIds ▸ h.orders, queues_valid_iff.mpr ⟨hentryIds ▸ hids, fun row hrow => ?_⟩⟩
  rcases hsame.symm.entry hrow with ⟨kq, hkq, hkey⟩
  rcases List.any_eq_true.mp (hrefs kq hkq) with ⟨order, horder, hid⟩
  rcases hsame.order horder with ⟨order', horder', hkey'⟩
  simp only [entryKey, itemsKey, Prod.mk.injEq] at hkey hkey'
  refine List.any_eq_true.mpr ⟨order', horder', ?_⟩
  rw [hkey'.1, ← hkey.2.2.2]
  exact hid

/-- A ticket waits for one order. -/
theorem Identified.waits_unique (h : Identified db) {orderId orderId' : Id}
    {items items' : List OrderItem} (hwaits : Waits db ticketId orderId items)
    (hwaits' : Waits db ticketId orderId' items') : orderId = orderId' ∧ items = items' := by
  rcases hwaits with ⟨⟨kq, hkq, hid, horderId⟩, order, horder, hsame, hitems⟩
  rcases hwaits' with ⟨⟨kq', hkq', hid', horderId'⟩, order', horder', hsame', hitems'⟩
  have hentry : kq = kq' := List.inj_on_of_nodup_map (queues_valid_iff.mp h.queues).1 hkq hkq'
    (hid.trans hid'.symm)
  have hids : orderId = orderId' := by
    rw [← horderId, ← horderId', hentry]
  have horders : order = order' := List.inj_on_of_nodup_map h.orders horder horder'
    (hsame.trans (hids.trans hsame'.symm))
  exact ⟨hids, by rw [← hitems, ← hitems', horders]⟩

/-- The order of the ticket waits for longer than its slowest item takes. -/
def Overdue (created : Id → Timestamp) (clock : Timestamp) (db : Db) (ticketId : Id) : Prop :=
  ∀ orderId items, Waits db ticketId orderId items →
    slowest db items < minutesSince (created orderId) clock

/-- With the preparation times of {lit}`db'` the ticket is due whenever it was with those of
{lit}`db`: they are no longer, or the order waits for longer than them already. -/
def StillDue (created : Id → Timestamp) (clock : Timestamp) (db db' : Db) (ticketId : Id) :
    Prop :=
  ∀ orderId items, Waits db ticketId orderId items →
    slowest db' items ≤ slowest db items ∨
      slowest db' items < minutesSince (created orderId) clock

theorem minutesSince_le (start : Timestamp) (h : clock ≤ clock') :
    minutesSince start clock ≤ minutesSince start clock' :=
  Int.ediv_le_ediv (by decide) (Int.sub_le_sub_right h start)

theorem slowest_congr (h : db'.products = db.products) (items : List OrderItem) :
    slowest db' items = slowest db items := by
  unfold slowest preparationTime
  rw [h]

theorem StillDue.of_products (h : db'.products = db.products) :
    StillDue created clock db db' ticketId :=
  fun _ items _ => Or.inl (slowest_congr h items).le

theorem StillDue.trans (hsame : SameTickets db db') (hclock : clock ≤ clock')
    (h : StillDue created clock db db' ticketId)
    (h' : StillDue created clock' db' db'' ticketId) :
    StillDue created clock' db db'' ticketId := by
  intro orderId items hwaits
  rcases h' orderId items (hsame.waits hwaits) with hless | hdue
  · rcases h orderId items hwaits with hless' | hdue'
    · exact Or.inl (hless.trans hless')
    · exact Or.inr ((hless.trans_lt hdue').trans_le (minutesSince_le _ hclock))
  · exact Or.inr hdue

/-- An overdue ticket stays overdue. -/
theorem Overdue.of_stillDue (hsame : SameTickets db db') (hclock : clock ≤ clock')
    (h : Overdue created clock db ticketId) (h' : StillDue created clock' db db' ticketId) :
    Overdue created clock' db' ticketId := by
  intro orderId items hwaits
  have hwaits' := hsame.symm.waits hwaits
  have hdue := (h orderId items hwaits').trans_le (minutesSince_le _ hclock)
  rcases h' orderId items hwaits' with hless | hdue'
  · exact hless.trans_lt hdue
  · exact hdue'

end Tickets

/-! ## What a poll computes -/

section Computed

variable {created : Id → Timestamp} {clock : Timestamp} {env : KdsEnv} {branchId tenantId : Id}
  {db : Db} {ticketId : Id}

theorem computedPriority_rush {order : Order} :
    computedPriority (pollEnv created clock env) db order = "RUSH" ↔
      slowest db order.orderItems < minutesSince (created order.id) clock := by
  unfold computedPriority
  change (if slowest db order.orderItems < minutesSince (created order.id) clock then "RUSH"
    else "NORMAL") = "RUSH" ↔ _
  split
  case isTrue h => exact iff_of_true rfl h
  case isFalse h => exact iff_of_false (by decide) h

theorem mem_activeEntries {kq : KitchenQueue} {order : Order} :
    (kq, order) ∈ activeEntries env branchId tenantId db ↔
      (kq ∈ db.kitchenQueues ∧ kq.tenantId = tenantId ∧ kq.branchId = branchId) ∧
        (db.orders.find? fun o => o.id == kq.orderId && activeStatuses.contains o.status) =
          some order := by
  unfold activeEntries
  rw [List.mem_mergeSort, List.mem_filterMap]
  simp only [List.mem_filter, Bool.and_eq_true, beq_iff_eq, Option.map_eq_some_iff]
  constructor
  · rintro ⟨kq', hkq', order', hfind, heq⟩
    cases heq
    exact ⟨hkq', hfind⟩
  · rintro ⟨hkq, hfind⟩
    exact ⟨kq, hkq, order, hfind, rfl⟩

/-- The check of a branch reads only, and passes under a tenant. -/
theorem findBranch_cases (w : World) :
    (∃ e, findBranch env branchId tenantId w = (.error e, w)) ∨
      ∃ found, findBranch env branchId tenantId w = (.ok found, w) ∧ tenantId ≠ "" := by
  unfold findBranch
  cases env.fails .branch with
  | true => exact Or.inl ⟨_, rfl⟩
  | false =>
      rw [attempt_false]
      by_cases hT : tenantId = ""
      · subst hT
        exact Or.inl ⟨.client missingTenantError, TableOf.run_refused rfl⟩
      · rw [TableOf.run_findById (inTenant_sees env hT) (by decide) rfl rfl]
        exact Or.inr ⟨_, rfl, hT⟩

/-- The entries of a poll are the active tickets of the branch. -/
theorem activeTicket_iff :
    ActiveTicket branchId tenantId db ticketId ↔
      ∃ kq order, (kq, order) ∈ activeEntries env branchId tenantId db ∧ kq.id = ticketId := by
  constructor
  · rintro ⟨kq, hkq, hkqId, htenant, hbranch, order, horder, horderId, hstatus⟩
    have hsome : (db.orders.find? fun o =>
        o.id == kq.orderId && activeStatuses.contains o.status).isSome = true := by
      rw [List.find?_isSome]
      refine ⟨order, horder, ?_⟩
      simp [horderId, hstatus]
    rcases Option.isSome_iff_exists.mp hsome with ⟨found, hfound⟩
    exact ⟨kq, found, mem_activeEntries.mpr ⟨⟨hkq, htenant, hbranch⟩, hfound⟩, hkqId⟩
  · rintro ⟨kq, order, hentry, hkqId⟩
    rcases mem_activeEntries.mp hentry with ⟨⟨hkq, htenant, hbranch⟩, hfound⟩
    have hholds := List.find?_some hfound
    simp only [Bool.and_eq_true, beq_iff_eq, List.contains_iff_mem] at hholds
    exact ⟨kq, hkq, hkqId, htenant, hbranch, order, List.mem_of_find?_eq_some hfound, hholds⟩

theorem waits_of_entry {kq : KitchenQueue} {order : Order}
    (hentry : (kq, order) ∈ activeEntries env branchId tenantId db) :
    Waits db kq.id order.id order.orderItems := by
  rcases mem_activeEntries.mp hentry with ⟨⟨hkq, _, _⟩, hfound⟩
  have hholds := List.find?_some hfound
  simp only [Bool.and_eq_true, beq_iff_eq] at hholds
  exact ⟨⟨kq, hkq, rfl, hholds.1.symm⟩, order, List.mem_of_find?_eq_some hfound, rfl, rfl⟩

/-- An entry is in a rush when its ticket is overdue. -/
theorem entry_rush_iff (hid : Identified db) {kq : KitchenQueue} {order : Order}
    (hentry : (kq, order) ∈ activeEntries env branchId tenantId db) :
    computedPriority (pollEnv created clock env) db order = "RUSH" ↔
      Overdue created clock db kq.id := by
  rw [computedPriority_rush]
  constructor
  · intro hless orderId items hwaits
    rcases hid.waits_unique (waits_of_entry hentry) hwaits with ⟨rfl, rfl⟩
    exact hless
  · exact fun hdue => hdue _ _ (waits_of_entry hentry)

/-- A poll reports the active tickets that are overdue in a rush. -/
theorem pollTickets_rush_iff (hid : Identified db) (since : ℕ) :
    (⟨since, db, pollTickets (pollEnv created clock env) branchId tenantId db⟩ :
        PollReport).Rush ticketId ↔
      ActiveTicket branchId tenantId db ticketId ∧ Overdue created clock db ticketId := by
  constructor
  · rintro ⟨ticket, hticket, hticketId, hrush⟩
    rcases List.mem_map.mp hticket with ⟨⟨kq, order⟩, hentry, rfl⟩
    have hkq : kq.id = ticketId := hticketId
    exact ⟨activeTicket_iff.mpr ⟨kq, order, hentry, hkq⟩,
      hkq ▸ (entry_rush_iff hid hentry).mp hrush⟩
  · rintro ⟨hactive, hdue⟩
    rcases activeTicket_iff.mp hactive with ⟨kq, order, hentry, hkq⟩
    exact ⟨_, List.mem_map_of_mem hentry, hkq,
      (entry_rush_iff hid hentry).mpr (hkq ▸ hdue)⟩

/-- A ticket that is overdue is not reported otherwise. -/
theorem pollTickets_priority (hid : Identified db) {ticket : KitchenTicket}
    (hticket : ticket ∈ pollTickets (pollEnv created clock env) branchId tenantId db)
    (hdue : Overdue created clock db ticket.ticketId) : ticket.priority = "RUSH" := by
  rcases List.mem_map.mp hticket with ⟨⟨kq, order⟩, hentry, rfl⟩
  exact (entry_rush_iff hid hentry).mpr hdue

end Computed

/-! ## A poll that runs alone -/

section Alone

variable {env : KdsEnv} {branchId tenantId : Id} {ι : Type} [DecidableEq ι] {i : ι}

/-- The moves of one poll, each with the ticket that it goes on with. -/
def alone (env : KdsEnv) (branchId tenantId : Id) (i : ι) (ticketIds : List Id)
    (x : BranchState ι × PollPhase) : BranchState ι × PollPhase :=
  ticketIds.foldl (fun x ticketId => pollStep env branchId tenantId i ticketId x.1 x.2) x

theorem alone_append (first second : List Id) (x : BranchState ι × PollPhase) :
    alone env branchId tenantId i (first ++ second) x =
      alone env branchId tenantId i second (alone env branchId tenantId i first x) :=
  List.foldl_append

/-- A poll takes no time. -/
theorem pollStep_clock (ticketId : Id) (s : BranchState ι) (phase : PollPhase) :
    (pollStep env branchId tenantId i ticketId s phase).1.clock = s.clock := by
  cases phase with
  | start =>
      unfold pollStep
      rcases findBranch env branchId tenantId s.world with ⟨_ | _ | _, _⟩ <;> rfl
  | allowed =>
      unfold pollStep
      rcases readRows env s.world with ⟨_ | _, _⟩ <;> rfl
  | fetched since read => rfl
  | escalating report left =>
      simp only [pollStep]
      split
      case h_1 task _ =>
        split
        · rfl
        · rcases writePriority env tenantId task.kq s.world with ⟨_ | _, _⟩ <;> rfl
      case h_2 => split <;> rfl
  | finished answer => rfl

/-- The moves are those of the system. -/
theorem run_alone (created : Id → Timestamp) (ticketIds : List Id)
    (c : Config ι (BranchState ι) PollPhase) :
    (((branchPolls created branchId tenantId ι).run c
        (ticketIds.map fun ticketId => (i, .move env ticketId))).shared,
      ((branchPolls created branchId tenantId ι).run c
        (ticketIds.map fun ticketId => (i, .move env ticketId))).phase i) =
      alone (pollEnv created c.shared.clock env) branchId tenantId i ticketIds
        (c.shared, c.phase i) := by
  induction ticketIds generalizing c with
  | nil => rfl
  | cons ticketId ticketIds ih =>
      have hphase := CallSystem.step_phase_self (branchPolls created branchId tenantId ι) c
        (i, .move env ticketId)
      have hclock : ((branchPolls created branchId tenantId ι).step c
          (i, .move env ticketId)).shared.clock = c.shared.clock :=
        pollStep_clock ticketId c.shared (c.phase i)
      rw [List.map_cons, CallSystem.run, ih, hclock]
      simp only at hphase
      rw [hphase]
      rfl

/-- What escalating one entry does to the world. -/
theorem escalate_run (kq : KitchenQueue) (hpriority : kq.priority ≠ "RUSH") (w : World) :
    escalate env branchId tenantId "RUSH" kq w =
      match writePriority env tenantId kq w with
      | (.error _, w') => (.ok (), w')
      | (.ok _, w') => (.ok (), (sendPriority env branchId tenantId kq w').2) := by
  rw [escalate_eq, if_pos ⟨rfl, hpriority⟩]
  unfold Fallible.orElse
  rw [Fallible.bind_apply]
  rcases writePriority env tenantId kq w with ⟨_ | _, w'⟩
  · rfl
  · dsimp only
    rcases sendPriority env branchId tenantId kq w' with ⟨_ | _, _⟩ <;> rfl

section Tasks

variable {kq : KitchenQueue} {rest : List Escalation} {report : PollReport} {s : BranchState ι}

/-- The move of a poll that writes its first escalation. -/
theorem pollStep_open (hothers : rest.filter (fun other => other.kq.id != kq.id) = rest) :
    pollStep env branchId tenantId i kq.id s (.escalating report ({ kq := kq } :: rest)) =
      match writePriority env tenantId kq s.world with
      | (.error _, w) => ({ s with world := w }, .escalating report rest)
      | (.ok _, w) => ({ s with world := w, sending := (i, kq.id) :: s.sending },
          .escalating report ({ kq := kq, stored := true } :: rest)) := by
  simp only [pollStep, List.find?_cons, beq_self_eq_true]
  rw [List.filter_cons_of_neg (by simp), hothers]
  rfl

/-- The move of a poll that broadcasts it. -/
theorem pollStep_stored (hothers : rest.filter (fun other => other.kq.id != kq.id) = rest) :
    pollStep env branchId tenantId i kq.id s
        (.escalating report ({ kq := kq, stored := true } :: rest)) =
      ({ s with
          world := (sendPriority env branchId tenantId kq s.world).2
          sending := s.sending.erase (i, kq.id) }, .escalating report rest) := by
  simp only [pollStep, List.find?_cons, beq_self_eq_true]
  rw [List.filter_cons_of_neg (by simp), hothers]
  rfl

end Tasks

/-- The moves that escalate the entries of a poll do to the world what its loop does. -/
theorem escalating_alone (db : Db) (report : PollReport) (entries : List (KitchenQueue × Order))
    (hids : (entries.map (·.1.id)).Nodup) (s : BranchState ι) :
    ∃ ticketIds s', alone env branchId tenantId i ticketIds
        (s, .escalating report (toEscalate env db entries)) = (s', .escalating report []) ∧
      escalateAll env branchId tenantId db entries s.world = (.ok (), s'.world) := by
  induction entries generalizing s with
  | nil => exact ⟨[], s, rfl, rfl⟩
  | cons entry entries ih =>
      rw [List.map_cons, List.nodup_cons] at hids
      by_cases hraise : computedPriority env db entry.2 = "RUSH" ∧ entry.1.priority ≠ "RUSH"
      · -- the tasks of the other entries have other ids
        have hothers : (toEscalate env db entries).filter
            (fun other => other.kq.id != entry.1.id) = toEscalate env db entries := by
          rw [List.filter_eq_self]
          intro other hother
          rcases List.mem_map.mp hother with ⟨entry', hentry', rfl⟩
          refine bne_iff_ne.mpr fun heq => hids.1 ?_
          exact heq ▸ List.mem_map_of_mem (List.mem_of_mem_filter hentry')
        have htasks : toEscalate env db (entry :: entries) =
            { kq := entry.1 } :: toEscalate env db entries := by
          unfold toEscalate
          rw [List.filter_cons_of_pos (by simp [hraise])]
          rfl
        have hescalate := @escalate_run env branchId tenantId entry.1 hraise.2 s.world
        rw [← hraise.1] at hescalate
        rw [htasks]
        unfold escalateAll
        rcases hwrite : writePriority env tenantId entry.1 s.world with ⟨e | _, w⟩
        · rw [hwrite] at hescalate
          rcases ih hids.2 { s with world := w } with ⟨ticketIds, s', halone, hloop⟩
          refine ⟨entry.1.id :: ticketIds, s', ?_, ?_⟩
          · unfold alone at halone ⊢
            rw [List.foldl_cons, pollStep_open hothers, hwrite]
            exact halone
          · rw [Fallible.bind_of_ok hescalate]
            exact hloop
        · rw [hwrite] at hescalate
          rcases ih hids.2 { s with
            world := (sendPriority env branchId tenantId entry.1 w).2
            sending := ((i, entry.1.id) :: s.sending).erase (i, entry.1.id) } with
            ⟨ticketIds, s', halone, hloop⟩
          refine ⟨entry.1.id :: entry.1.id :: ticketIds, s', ?_, ?_⟩
          · unfold alone at halone ⊢
            rw [List.foldl_cons, pollStep_open hothers, hwrite, List.foldl_cons,
              pollStep_stored hothers]
            exact halone
          · rw [Fallible.bind_of_ok hescalate]
            exact hloop
      · have htasks : toEscalate env db (entry :: entries) = toEscalate env db entries := by
          unfold toEscalate
          rw [List.filter_cons_of_neg (by simpa using hraise)]
        have hescalate : escalate env branchId tenantId (computedPriority env db entry.2) entry.1
            s.world = (.ok (), s.world) := by
          rw [escalate_eq, if_neg hraise]
          rfl
        rcases ih hids.2 s with ⟨ticketIds, s', halone, hloop⟩
        refine ⟨ticketIds, s', htasks ▸ halone, ?_⟩
        unfold escalateAll
        rw [Fallible.bind_of_ok hescalate]
        exact hloop

/-- A poll reads an entry once. -/
theorem activeEntries_nodup {db : Db} (hids : (db.kitchenQueues.map (·.id)).Nodup) :
    ((activeEntries env branchId tenantId db).map (·.1.id)).Nodup := by
  unfold activeEntries
  rw [((List.mergeSort_perm _ _).map _).nodup_iff, List.map_filterMap]
  have hsub : ∀ rows : List KitchenQueue, (rows.filterMap fun q =>
      ((db.orders.find? fun o => o.id == q.orderId && activeStatuses.contains o.status).map
        fun o => (q, o)).map (·.1.id)).Sublist (rows.map (·.id)) := by
    intro rows
    induction rows with
    | nil => exact List.Sublist.refl _
    | cons q rows ih =>
        rw [List.filterMap_cons, List.map_cons]
        cases db.orders.find? fun o => o.id == q.orderId && activeStatuses.contains o.status with
        | none => exact ih.cons _
        | some _ => exact ih.cons_cons _
  exact ((hsub _).trans (List.filter_sublist.map _)).nodup hids

/-- The moves of a poll in a row. -/
theorem alone_getTickets {s : BranchState ι}
    (hids : (s.world.db.kitchenQueues.map (·.id)).Nodup) :
    ∃ ticketIds, (alone env branchId tenantId i ticketIds (s, .start)).1.world =
        (getTickets env branchId tenantId s.world).2 ∧
      (alone env branchId tenantId i ticketIds (s, .start)).2 =
        .finished (getTickets env branchId tenantId s.world).1 := by
  rw [getTickets_eq]
  rcases @findBranch_cases env branchId tenantId s.world with ⟨e, herror⟩ | ⟨found, hfound, _⟩
  · rw [Fallible.bind_of_error herror]
    exact ⟨[""], by simp [alone, pollStep, herror]⟩
  · rw [Fallible.bind_of_ok hfound]
    cases found with
    | none => exact ⟨[""], by simp [alone, pollStep, hfound, Fallible.throw]⟩
    | some branch =>
        dsimp only
        cases hfails : env.fails .queues with
        | true =>
            have hread : readRows env s.world = (.error .failure, s.world) := by
              unfold readRows
              rw [hfails]
              rfl
            rw [Fallible.bind_of_error hread]
            exact ⟨["", ""], by simp [alone, pollStep, hfound, hread]⟩
        | false =>
            have hread : readRows env s.world = (.ok s.world.db, s.world) := by
              unfold readRows
              rw [hfails]
              rfl
            rw [Fallible.bind_of_ok hread]
            rcases @escalating_alone env branchId tenantId ι _ i s.world.db
              ⟨s.reports.length, s.world.db, pollTickets env branchId tenantId s.world.db⟩
              (activeEntries env branchId tenantId s.world.db) (activeEntries_nodup hids) s with
              ⟨ticketIds, s', halone, hloop⟩
            have hthree : alone env branchId tenantId i ["", "", ""] (s, .start) =
                (s, .escalating
                  ⟨s.reports.length, s.world.db, pollTickets env branchId tenantId s.world.db⟩
                  (toEscalate env s.world.db
                    (activeEntries env branchId tenantId s.world.db))) := by
              simp [alone, pollStep, hfound, hread]
            refine ⟨["", "", ""] ++ (ticketIds ++ [""]), ?_⟩
            rw [alone_append, hthree, alone_append, halone, Fallible.bind_of_ok hloop]
            exact ⟨rfl, rfl⟩

/-- A poll that runs alone answers what the service answers, and leaves the same world. -/
theorem poll_alone (created : Id → Timestamp) {c : Config ι (BranchState ι) PollPhase}
    (hstart : c.phase i = .start) (hids : (c.shared.world.db.kitchenQueues.map (·.id)).Nodup) :
    ∃ ticketIds : List Id,
      let c' := (branchPolls created branchId tenantId ι).run c
        (ticketIds.map fun ticketId => (i, .move env ticketId))
      let result := getTickets (pollEnv created c.shared.clock env) branchId tenantId
        c.shared.world
      c'.shared.world = result.2 ∧ c'.phase i = .finished result.1 := by
  have hmoves := @alone_getTickets (pollEnv created c.shared.clock env) branchId tenantId ι _ i
    c.shared hids
  rcases hmoves with ⟨ticketIds, hworld, hphase⟩
  have hrun := @run_alone env branchId tenantId ι _ i created ticketIds c
  rw [hstart, Prod.ext_iff] at hrun
  simp only at hrun
  refine ⟨ticketIds, ?_, ?_⟩
  · rw [hrun.1]
    exact hworld
  · rw [hrun.2]
    exact hphase

end Alone

/-! ## What the writes and the broadcasts do -/

/-- The entry is stored as a rush. -/
def StoredRush (db : Db) (ticketId : Id) : Prop :=
  ∃ kq ∈ db.kitchenQueues, kq.id = ticketId ∧ kq.priority = "RUSH"

/-- The queue with a raised entry. -/
def raiseEntry (tenantId ticketId : Id) (db : Db) : Db :=
  { db with kitchenQueues := db.kitchenQueues.map fun q =>
      if TableOf.ownRow (some tenantId) ticketId q then { q with priority := "RUSH" } else q }

section Writes

variable {env : KdsEnv} {branchId tenantId ticketId : Id} {kq : KitchenQueue} {w : World}
  {db : Db}

theorem raiseEntry_same (db : Db) : SameTickets db (raiseEntry tenantId ticketId db) := by
  refine ⟨?_, rfl⟩
  simp only [raiseEntry, List.map_map]
  refine List.map_congr_left fun q _ => ?_
  simp only [Function.comp_apply]
  split <;> rfl

/-- An entry that is raised stays so, and the entry with the id is. -/
theorem mem_raiseEntry {row : KitchenQueue}
    (h : row ∈ (raiseEntry tenantId ticketId db).kitchenQueues) :
    ∃ old ∈ db.kitchenQueues, old.id = row.id ∧
      ((TableOf.ownRow (some tenantId) ticketId old = true ∧ row.priority = "RUSH") ∨
        (TableOf.ownRow (some tenantId) ticketId old ≠ true ∧ row = old)) := by
  rcases List.mem_map.mp h with ⟨old, hold, rfl⟩
  refine ⟨old, hold, ?_⟩
  by_cases hown : TableOf.ownRow (some tenantId) ticketId old = true
  · rw [if_pos hown]
    exact ⟨rfl, Or.inl ⟨hown, rfl⟩⟩
  · rw [if_neg hown]
    exact ⟨rfl, Or.inr ⟨hown, rfl⟩⟩

theorem storedRush_raiseEntry {t : Id} (h : StoredRush db t) :
    StoredRush (raiseEntry tenantId ticketId db) t := by
  rcases h with ⟨q, hq, hid, hrush⟩
  refine ⟨_, List.mem_map_of_mem hq, ?_⟩
  split
  · exact ⟨hid, rfl⟩
  · exact ⟨hid, hrush⟩

/-- The write of an escalation raises its entry, or fails. -/
theorem writePriority_run (hT : tenantId ≠ "") (hqueues : kitchenQueues.Valid w.db)
    (hrow : ∃ row ∈ w.db.kitchenQueues, row.id = kq.id ∧ row.tenantId = tenantId) :
    writePriority env tenantId kq w =
      if env.fails (.escalate kq.id) then (.error .failure, w)
      else (.ok (), { w with db := raiseEntry tenantId kq.id w.db }) := by
  cases hfails : env.fails (.escalate kq.id) with
  | true =>
      unfold writePriority
      rw [hfails]
      rfl
  | false =>
      have hrun := @update_entry env tenantId w rushPayload kq.id hT hqueues rfl (fun _ => rfl)
        (fun _ => rfl) hrow
      rcases hrun with ⟨target, hupdate⟩
      unfold writePriority
      rw [hfails, attempt_false, Fallible.bind_of_ok hupdate]
      rfl

/-- The broadcast of an escalation, where nothing keeps it back. -/
theorem sendPriority_run (hT : tenantId ≠ "") (hbranch : branchId ≠ "")
    (hgateway : env.kdsGateway = true) (hsent : env.fails (.escalated kq.id) = false) :
    (sendPriority env branchId tenantId kq w).2 =
      { w with broadcasts := w.broadcasts ++ [⟨tenantId, branchId, "ticket.priority_changed",
        .priorityChanged kq.id kq.priority "RUSH"⟩] } := by
  unfold sendPriority broadcastOrderEvent
  rw [if_pos hgateway, hsent, attempt_false, if_neg (by simp [hT, hbranch])]
  rfl

end Writes

/-! ## What the steps keep -/

section Invariant

variable {ι : Type} (created : Id → Timestamp) (branchId tenantId : Id)

/-- What the answers of the polls say still holds, and each entry in a rush was broadcast or is
about to be. -/
structure BranchOk (s : BranchState ι) : Prop where
  identified : Identified s.world.db
  since_le : ∀ report ∈ s.reports, report.since ≤ s.reports.length
  stays : ∀ report ∈ s.reports, report.Remains branchId tenantId (s.reports.take report.since)
  due : ∀ report ∈ s.reports, ∀ ticketId, report.Rush ticketId →
    Overdue created s.clock s.world.db ticketId
  stored : ∀ report ∈ s.reports, ∀ ticketId, report.Rush ticketId →
    StoredRush s.world.db ticketId
  accounted : ∀ kq ∈ s.world.db.kitchenQueues,
    announcements kq.id s.world + s.senders kq.id = if kq.priority = "RUSH" then 1 else 0

/-- The rows that a poll has read are those of the branch, and what is due by them is due. -/
structure FetchedOk (s : BranchState ι) (since : ℕ) (read : Db) : Prop where
  since_le : since ≤ s.reports.length
  same : SameTickets read s.world.db
  due : ∀ ticketId, ActiveTicket branchId tenantId read ticketId →
    StillDue created s.clock read s.world.db ticketId
  known : ∀ report ∈ s.reports.take since, ∀ ticketId, report.Rush ticketId →
    Overdue created s.clock read ticketId
  stored : ∀ ticketId, StoredRush read ticketId → StoredRush s.world.db ticketId

/-- The answer of a poll that escalates holds, and what it says is stored or about to be. -/
structure EscalatingOk (s : BranchState ι) (i : ι) (report : PollReport)
    (left : List Escalation) : Prop where
  since_le : report.since ≤ s.reports.length
  remains : report.Remains branchId tenantId (s.reports.take report.since)
  due : ∀ ticketId, report.Rush ticketId → Overdue created s.clock s.world.db ticketId
  stored : ∀ ticketId, report.Rush ticketId → StoredRush s.world.db ticketId ∨
    ∃ task ∈ left, task.kq.id = ticketId ∧ task.stored = false
  tasks : ∀ task ∈ left, ∃ row ∈ s.world.db.kitchenQueues,
    row.id = task.kq.id ∧ row.tenantId = tenantId
  sending : ∀ task ∈ left, task.stored = true → (i, task.kq.id) ∈ s.sending

def PhaseOk (s : BranchState ι) (i : ι) : PollPhase → Prop
  | .start => True
  | .allowed => tenantId ≠ ""
  | .fetched since read => tenantId ≠ "" ∧ FetchedOk created branchId tenantId s since read
  | .escalating report left =>
      tenantId ≠ "" ∧ EscalatingOk created branchId tenantId s i report left
  | .finished _ => True

/-- The tickets that a poll in flight may report in a rush. -/
def PollPhase.Watches : PollPhase → Id → Prop
  | .fetched _ read, ticketId => ActiveTicket branchId tenantId read ticketId
  | .escalating report _, ticketId => report.Rush ticketId
  | _, _ => False

/-- How the branch goes on. -/
structure Evolves (s s' : BranchState ι) : Prop where
  same : SameTickets s.world.db s'.world.db
  clock : s.clock ≤ s'.clock
  reports : ∃ more, s'.reports = s.reports ++ more
  stored : ∀ ticketId, StoredRush s.world.db ticketId → StoredRush s'.world.db ticketId

variable {created branchId tenantId} {s s' : BranchState ι} {i : ι} {phase : PollPhase}

theorem Evolves.refl (s : BranchState ι) : Evolves s s :=
  ⟨SameTickets.refl _, Int.le_refl _, ⟨[], (List.append_nil _).symm⟩, fun _ h => h⟩

theorem Evolves.length_le (h : Evolves s s') : s.reports.length ≤ s'.reports.length := by
  rcases h.reports with ⟨more, hmore⟩
  rw [hmore, List.length_append]
  exact Nat.le_add_right _ _

/-- The reports that came first stay the first ones. -/
theorem Evolves.take_eq (h : Evolves s s') {n : ℕ} (hn : n ≤ s.reports.length) :
    s'.reports.take n = s.reports.take n := by
  rcases h.reports with ⟨more, hmore⟩
  rw [hmore, List.take_append_of_le_length hn]

/-- What a poll holds stays right while the branch goes on, as long as the tickets that it
watches stay due. -/
theorem phase_mono (h : PhaseOk created branchId tenantId s i phase) (hevolves : Evolves s s')
    (hsending : ∀ ticketId, (i, ticketId) ∈ s.sending → (i, ticketId) ∈ s'.sending)
    (hdue : ∀ ticketId, phase.Watches branchId tenantId ticketId →
      StillDue created s'.clock s.world.db s'.world.db ticketId) :
    PhaseOk created branchId tenantId s' i phase := by
  cases phase with
  | start => trivial
  | allowed => exact h
  | finished answer => trivial
  | fetched since read =>
      rcases h with ⟨hT, h⟩
      refine ⟨hT, h.since_le.trans hevolves.length_le, h.same.trans hevolves.same, ?_, ?_,
        fun ticketId hrush => hevolves.stored ticketId (h.stored ticketId hrush)⟩
      · exact fun ticketId hactive =>
          (h.due ticketId hactive).trans h.same hevolves.clock (hdue ticketId hactive)
      · rw [hevolves.take_eq h.since_le]
        intro report hreport ticketId hrush
        exact (h.known report hreport ticketId hrush).of_stillDue (SameTickets.refl _)
          hevolves.clock (StillDue.of_products rfl)
  | escalating report left =>
      rcases h with ⟨hT, h⟩
      refine ⟨hT, h.since_le.trans hevolves.length_le, ?_, ?_, ?_, ?_, ?_⟩
      · rw [hevolves.take_eq h.since_le]
        exact h.remains
      · exact fun ticketId hrush => (h.due ticketId hrush).of_stillDue hevolves.same hevolves.clock
          (hdue ticketId hrush)
      · exact fun ticketId hrush => (h.stored ticketId hrush).imp_left (hevolves.stored ticketId)
      · exact fun task htask => hevolves.same.own (h.tasks task htask)
      · exact fun task htask hstored => hsending _ (h.sending task htask hstored)

/-- The branch stays right when it goes on without a write, a broadcast or an answer. -/
theorem branch_mono (h : BranchOk created branchId tenantId s) (hevolves : Evolves s s')
    (hreports : s'.reports = s.reports) (hsending : s'.sending = s.sending)
    (hqueues : s'.world.db.kitchenQueues = s.world.db.kitchenQueues)
    (hbroadcasts : s'.world.broadcasts = s.world.broadcasts)
    (hdue : ∀ report ∈ s.reports, ∀ ticketId, report.Rush ticketId →
      StillDue created s'.clock s.world.db s'.world.db ticketId) :
    BranchOk created branchId tenantId s' := by
  refine ⟨h.identified.of_same hevolves.same, ?_, ?_, ?_, ?_, ?_⟩
  · rw [hreports]
    exact h.since_le
  · rw [hreports]
    exact h.stays
  · rw [hreports]
    exact fun report hreport ticketId hrush => (h.due report hreport ticketId hrush).of_stillDue
      hevolves.same hevolves.clock (hdue report hreport ticketId hrush)
  · rw [hreports]
    exact fun report hreport ticketId hrush =>
      hevolves.stored ticketId (h.stored report hreport ticketId hrush)
  · unfold announcements BranchState.senders
    rw [hqueues, hbroadcasts, hsending]
    exact h.accounted

/-- What a step of a poll leaves. -/
structure Moved (created : Id → Timestamp) (branchId tenantId : Id) (s s' : BranchState ι) (i : ι)
    (phase' : PollPhase) : Prop where
  branch : BranchOk created branchId tenantId s'
  phase : PhaseOk created branchId tenantId s' i phase'
  evolves : Evolves s s'
  products : s'.world.db.products = s.world.db.products
  others : ∀ j, j ≠ i → ∀ ticketId, (j, ticketId) ∈ s.sending → (j, ticketId) ∈ s'.sending

/-- A step that only moves the poll. -/
theorem Moved.still {phase' : PollPhase} (h : BranchOk created branchId tenantId s)
    (hphase : PhaseOk created branchId tenantId s i phase') :
    Moved created branchId tenantId s s i phase' :=
  ⟨h, hphase, Evolves.refl s, rfl, fun _ _ _ hj => hj⟩

variable {env : KdsEnv}

/-- A poll that has read the rows computes its answer. -/
theorem fetched_ok {since : ℕ} {read : Db} (h : BranchOk created branchId tenantId s)
    (hphase : PhaseOk created branchId tenantId s i (.fetched since read)) :
    PhaseOk created branchId tenantId s i
      (.escalating
        ⟨since, read, pollTickets (pollEnv created s.clock env) branchId tenantId read⟩
        (toEscalate (pollEnv created s.clock env) read
          (activeEntries (pollEnv created s.clock env) branchId tenantId read))) := by
  rcases hphase with ⟨hT, hread⟩
  have hid := h.identified.of_same hread.same.symm
  refine ⟨hT, hread.since_le, ?_, ?_, ?_, ?_, ?_⟩
  · intro before hbefore ticketId hrush
    have hdue := hread.known before hbefore ticketId hrush
    refine ⟨fun hactive => (pollTickets_rush_iff hid since).mpr ⟨hactive, hdue⟩, ?_⟩
    rintro ticket hticket rfl
    exact pollTickets_priority hid hticket hdue
  · intro ticketId hrush
    rcases (pollTickets_rush_iff hid since).mp hrush with ⟨hactive, hdue⟩
    exact hdue.of_stillDue hread.same (Int.le_refl _) (hread.due ticketId hactive)
  · rintro ticketId ⟨ticket, hticket, hticketId, hrush⟩
    rcases List.mem_map.mp hticket with ⟨⟨kq, order⟩, hentry, rfl⟩
    have hkqId : kq.id = ticketId := hticketId
    have hkq := (mem_activeEntries.mp hentry).1.1
    by_cases hpriority : kq.priority = "RUSH"
    · exact Or.inl (hread.stored ticketId ⟨kq, hkq, hkqId, hpriority⟩)
    · refine Or.inr ⟨{ kq := kq }, List.mem_map.mpr ⟨(kq, order), ?_, rfl⟩, hkqId, rfl⟩
      refine List.mem_filter.mpr ⟨hentry, ?_⟩
      have hcomputed : computedPriority (pollEnv created s.clock env) read order = "RUSH" := hrush
      simp [hcomputed, hpriority]
  · intro task htask
    rcases List.mem_map.mp htask with ⟨⟨kq, order⟩, hentry, rfl⟩
    rcases mem_activeEntries.mp (List.mem_filter.mp hentry).1 with ⟨⟨hkq, htenant, _⟩, _⟩
    exact hread.same.own ⟨kq, hkq, rfl, htenant⟩
  · intro task htask hstored
    rcases List.mem_map.mp htask with ⟨_, _, rfl⟩
    cases hstored

/-- A poll that has escalated its entries answers. -/
theorem report_ok {report : PollReport} (h : BranchOk created branchId tenantId s)
    (hphase : PhaseOk created branchId tenantId s i (.escalating report [])) :
    Moved created branchId tenantId s { s with reports := s.reports ++ [report] } i
      (.finished (.ok report.tickets)) := by
  rcases hphase with ⟨_, hreport⟩
  refine ⟨⟨h.identified, ?_, ?_, ?_, ?_, h.accounted⟩, trivial,
    ⟨SameTickets.refl _, Int.le_refl _, ⟨[report], rfl⟩, fun _ h => h⟩, rfl, fun _ _ _ hj => hj⟩
  · intro before hbefore
    rw [List.length_append]
    rcases List.mem_append.mp hbefore with hold | hnew
    · exact (h.since_le before hold).trans (Nat.le_add_right _ _)
    · rw [List.mem_singleton.mp hnew]
      exact hreport.since_le.trans (Nat.le_add_right _ _)
  · intro before hbefore
    rcases List.mem_append.mp hbefore with hold | hnew
    · rw [List.take_append_of_le_length (h.since_le before hold)]
      exact h.stays before hold
    · rw [List.mem_singleton.mp hnew, List.take_append_of_le_length hreport.since_le]
      exact hreport.remains
  · intro before hbefore ticketId hrush
    rcases List.mem_append.mp hbefore with hold | hnew
    · exact h.due before hold ticketId hrush
    · rw [List.mem_singleton.mp hnew] at hrush
      exact hreport.due ticketId hrush
  · intro before hbefore ticketId hrush
    rcases List.mem_append.mp hbefore with hold | hnew
    · exact h.stored before hold ticketId hrush
    · rw [List.mem_singleton.mp hnew] at hrush
      rcases hreport.stored ticketId hrush with hstored | ⟨task, htask, _⟩
      · exact hstored
      · exact absurd htask List.not_mem_nil

section Moves

variable {ticketId : Id} {report : PollReport} {left : List Escalation} {task : Escalation}

/-- The tasks of a poll beside one ticket. -/
theorem mem_others {other : Escalation} :
    other ∈ left.filter (fun other => other.kq.id != ticketId) ↔
      other ∈ left ∧ other.kq.id ≠ ticketId := by
  simp [List.mem_filter]

/-- A poll that is done with a ticket which is stored as a rush. -/
theorem others_ok (h : EscalatingOk created branchId tenantId s i report left)
    (hrush : StoredRush s.world.db ticketId) :
    EscalatingOk created branchId tenantId s i report
      (left.filter fun other => other.kq.id != ticketId) := by
  refine ⟨h.since_le, h.remains, h.due, ?_, ?_, ?_⟩
  · intro t ht
    rcases h.stored t ht with hstored | ⟨other, hother, hid, hopen⟩
    · exact Or.inl hstored
    · by_cases hsame : t = ticketId
      · exact Or.inl (hsame ▸ hrush)
      · exact Or.inr ⟨other, mem_others.mpr ⟨hother, hid ▸ hsame⟩, hid, hopen⟩
  · exact fun other hother => h.tasks other (mem_others.mp hother).1
  · exact fun other hother => h.sending other (mem_others.mp hother).1

/-- One more announcement of a ticket. -/
theorem announcements_concat (t : Id) (old new : String) (w : World) :
    announcements t { w with broadcasts := w.broadcasts ++ [⟨tenantId, branchId,
      "ticket.priority_changed", .priorityChanged ticketId old new⟩] } =
        announcements t w + if ticketId = t then 1 else 0 := by
  unfold announcements
  rw [List.countP_append, List.countP_singleton]
  congr 1
  simp [announces]

/-- A poll that is about to broadcast a ticket has stored it as a rush. -/
theorem storedRush_of_sending (h : BranchOk created branchId tenantId s) {row : KitchenQueue}
    (hrow : row ∈ s.world.db.kitchenQueues) (hsending : (i, row.id) ∈ s.sending) :
    row.priority = "RUSH" := by
  have hone : 0 < s.senders row.id :=
    List.countP_pos_iff.mpr ⟨_, hsending, beq_self_eq_true _⟩
  have hsum := h.accounted row hrow
  by_contra hpriority
  rw [if_neg hpriority] at hsum
  omega

/-- The write of an escalation that goes through, for an entry that is not yet a rush. -/
theorem write_ok (h : BranchOk created branchId tenantId s)
    (hphase : PhaseOk created branchId tenantId s i (.escalating report left))
    (htask : task ∈ left) (hid : task.kq.id = ticketId)
    (hfresh : ¬ StoredRush s.world.db ticketId) :
    Moved created branchId tenantId s
      { s with
        world := { s.world with db := raiseEntry tenantId ticketId s.world.db }
        sending := (i, ticketId) :: s.sending } i
      (.escalating report
        ({ task with stored := true } :: left.filter fun other => other.kq.id != ticketId)) := by
  rcases hphase with ⟨hT, hphase⟩
  rcases hphase.tasks task htask with ⟨row, hrow, hrowId, htenant⟩
  have hsame : SameTickets s.world.db (raiseEntry tenantId ticketId s.world.db) :=
    raiseEntry_same _
  have hraised : StoredRush (raiseEntry tenantId ticketId s.world.db) ticketId := by
    refine ⟨_, List.mem_map_of_mem hrow, ?_⟩
    rw [if_pos (ownEntry_iff.mpr ⟨hrowId.trans hid, htenant⟩)]
    exact ⟨hrowId.trans hid, rfl⟩
  have hevolves : Evolves s
      { s with
        world := { s.world with db := raiseEntry tenantId ticketId s.world.db }
        sending := (i, ticketId) :: s.sending } :=
    ⟨hsame, Int.le_refl _, ⟨[], (List.append_nil _).symm⟩, fun _ => storedRush_raiseEntry⟩
  have hdue : ∀ t, Overdue created s.clock s.world.db t →
      Overdue created s.clock (raiseEntry tenantId ticketId s.world.db) t := fun t ht =>
    ht.of_stillDue hsame (Int.le_refl _) (StillDue.of_products rfl)
  refine ⟨⟨h.identified.of_same hsame, h.since_le, h.stays, ?_, ?_, ?_⟩,
    ⟨hT, hphase.since_le, hphase.remains, ?_, ?_, ?_, ?_⟩, hevolves, rfl, ?_⟩
  · exact fun before hbefore t ht => hdue t (h.due before hbefore t ht)
  · exact fun before hbefore t ht => storedRush_raiseEntry (h.stored before hbefore t ht)
  · intro kq hkq
    rcases mem_raiseEntry hkq with ⟨old, hold, holdId, hcases⟩
    have hsum := h.accounted old hold
    have hsenders : (((i, ticketId) :: s.sending).countP fun entry => entry.2 == kq.id) =
        s.senders kq.id + if ticketId = kq.id then 1 else 0 := by
      simp [List.countP_cons, BranchState.senders]
    change announcements kq.id s.world +
      ((i, ticketId) :: s.sending).countP (fun entry => entry.2 == kq.id) = _
    rw [hsenders, ← Nat.add_assoc, ← holdId, hsum]
    rcases hcases with ⟨hown, hpriority⟩ | ⟨hother, rfl⟩
    · have hownId := (ownEntry_iff.mp hown).1
      rw [if_neg fun hrush => hfresh ⟨old, hold, hownId, hrush⟩, if_pos hownId.symm,
        if_pos hpriority]
    · -- no other entry has the id
      have hne : ticketId ≠ kq.id := by
        intro heq
        have hrows : row = kq := List.inj_on_of_nodup_map
          (queues_valid_iff.mp h.identified.queues).1 hrow hold
          ((hrowId.trans hid).trans heq)
        exact hother (ownEntry_iff.mpr ⟨heq.symm, hrows ▸ htenant⟩)
      rw [if_neg hne, Nat.add_zero]
  · exact fun t ht => hdue t (hphase.due t ht)
  · intro t ht
    rcases hphase.stored t ht with hstored | ⟨other, hother, hotherId, hopen⟩
    · exact Or.inl (storedRush_raiseEntry hstored)
    · by_cases heq : t = ticketId
      · exact Or.inl (heq ▸ hraised)
      · exact Or.inr ⟨other, List.mem_cons_of_mem _ (mem_others.mpr ⟨hother, hotherId ▸ heq⟩),
          hotherId, hopen⟩
  · intro other hother
    rcases List.mem_cons.mp hother with rfl | hrest
    · exact hsame.own (hphase.tasks task htask)
    · exact hsame.own (hphase.tasks other (mem_others.mp hrest).1)
  · intro other hother hstored
    rcases List.mem_cons.mp hother with rfl | hrest
    · exact List.mem_cons.mpr (Or.inl (by rw [hid]))
    · exact List.mem_cons_of_mem _ (hphase.sending other (mem_others.mp hrest).1 hstored)
  · exact fun _ _ _ ht => List.mem_cons_of_mem _ ht

variable [DecidableEq ι]

/-- A poll that has broadcast a ticket is no longer about to. -/
theorem senders_erase (hsending : (i, ticketId) ∈ s.sending) (t : Id) :
    (s.sending.erase (i, ticketId)).countP (fun entry => entry.2 == t) +
      (if ticketId = t then 1 else 0) = s.senders t := by
  unfold BranchState.senders
  rw [List.countP_erase]
  by_cases hsame : ticketId = t
  · have hone : 0 < s.sending.countP fun entry => entry.2 == t :=
      List.countP_pos_iff.mpr ⟨_, hsending, beq_iff_eq.mpr hsame⟩
    rw [if_pos ⟨hsending, beq_iff_eq.mpr hsame⟩, if_pos hsame]
    omega
  · simp [hsame]

/-- The broadcast of an escalation. -/
theorem send_ok (h : BranchOk created branchId tenantId s)
    (hphase : PhaseOk created branchId tenantId s i (.escalating report left))
    (htask : task ∈ left) (hid : task.kq.id = ticketId) (hstored : task.stored = true)
    (hgateway : env.kdsGateway = true) (hsent : env.fails (.escalated ticketId) = false)
    (hbranch : branchId ≠ "") :
    Moved created branchId tenantId s
      { s with
        world := (sendPriority env branchId tenantId task.kq s.world).2
        sending := s.sending.erase (i, ticketId) } i
      (.escalating report (left.filter fun other => other.kq.id != ticketId)) := by
  rcases hphase with ⟨hT, hphase⟩
  have hsending := hphase.sending task htask hstored
  rw [hid] at hsending
  rcases hphase.tasks task htask with ⟨row, hrow, hrowId, _⟩
  have hrush := storedRush_of_sending h hrow (hrowId.trans hid ▸ hsending)
  have hothers := others_ok hphase ⟨row, hrow, hrowId.trans hid, hrush⟩
  rw [sendPriority_run hT hbranch hgateway (hid ▸ hsent), hid]
  refine ⟨⟨h.identified, h.since_le, h.stays, h.due, h.stored, ?_⟩, ⟨hT, ?_⟩,
    ⟨SameTickets.refl _, Int.le_refl _, ⟨[], (List.append_nil _).symm⟩, fun _ h => h⟩, rfl, ?_⟩
  · intro kq hkq
    rw [announcements_concat]
    rw [← h.accounted kq hkq, ← senders_erase hsending kq.id]
    unfold BranchState.senders
    simp only
    omega
  · refine ⟨hothers.since_le, hothers.remains, hothers.due, hothers.stored, hothers.tasks, ?_⟩
    intro other hother hopen
    have hne := (mem_others.mp hother).2
    exact (List.mem_erase_of_ne fun h => hne (Prod.mk.inj h).2).mpr
      (hothers.sending other hother hopen)
  · intro j hj t ht
    exact (List.mem_erase_of_ne fun h => hj (Prod.mk.inj h).1).mpr ht

end Moves

end Invariant

/-! ## Safe steps -/

section Safe

variable {ι : Type} [DecidableEq ι] (created : Id → Timestamp) (branchId tenantId : Id)

/-- A move of a poll that escalates a ticket is safe: its write goes through unless the rush is
stored already, and fails if it is; its broadcast is sent. -/
structure SafeMove (db : Db) (env : KdsEnv) (ticketId : Id) (task : Escalation) : Prop where
  write : task.stored = false → (env.fails (.escalate ticketId) = true ↔ StoredRush db ticketId)
  send : task.stored = true →
    env.kdsGateway = true ∧ env.fails (.escalated ticketId) = false ∧ branchId ≠ ""

/-- A ticket that was reported in a rush, or that a poll in flight may report so. -/
def Watched (c : Config ι (BranchState ι) PollPhase) (ticketId : Id) : Prop :=
  (∃ report ∈ c.shared.reports, report.Rush ticketId) ∨
    ∃ i, (c.phase i).Watches branchId tenantId ticketId

/-- A step is safe when its move is, or when the edited preparation time leaves the tickets due
that are watched. -/
def SafeStep (c : Config ι (BranchState ι) PollPhase) (l : ι × BranchEvent) : Prop :=
  match l.2 with
  | .move env ticketId => ∀ report left task, c.phase l.1 = .escalating report left →
      left.find? (fun task => task.kq.id == ticketId) = some task →
        SafeMove branchId c.shared.world.db env ticketId task
  | .edit productId preparationTime => ∀ ticketId, Watched branchId tenantId c ticketId →
      StillDue created c.shared.clock c.shared.world.db
        (editProduct productId preparationTime c.shared.world.db) ticketId
  | .setStatus _ _ => True
  | .wait _ => True

variable {created branchId tenantId} {c : Config ι (BranchState ι) PollPhase}

/-- What one safe step of a poll keeps. -/
theorem pollStep_ok {s : BranchState ι} {i : ι} {phase : PollPhase} {env : KdsEnv} {ticketId : Id}
    (h : BranchOk created branchId tenantId s)
    (hphase : PhaseOk created branchId tenantId s i phase)
    (hsafe : ∀ report left task, phase = .escalating report left →
      left.find? (fun task => task.kq.id == ticketId) = some task →
        SafeMove branchId s.world.db env ticketId task) :
    Moved created branchId tenantId s
      (pollStep (pollEnv created s.clock env) branchId tenantId i ticketId s phase).1 i
      (pollStep (pollEnv created s.clock env) branchId tenantId i ticketId s phase).2 := by
  cases phase with
  | start =>
      unfold pollStep
      rcases @findBranch_cases (pollEnv created s.clock env) branchId tenantId s.world with
        ⟨e, herror⟩ | ⟨found, hfound, hT⟩
      · rw [herror]
        exact Moved.still h trivial
      · rw [hfound]
        cases found with
        | none => exact Moved.still h trivial
        | some _ => exact Moved.still h hT
  | allowed =>
      unfold pollStep readRows
      cases hfails : (pollEnv created s.clock env).fails .queues with
      | true => exact Moved.still h trivial
      | false =>
          refine Moved.still h ⟨hphase, Nat.le_refl _, SameTickets.refl _, ?_, ?_, fun _ ht => ht⟩
          · exact fun _ _ => StillDue.of_products rfl
          · rw [List.take_length]
            exact h.due
  | fetched since read => exact Moved.still h (fetched_ok h hphase)
  | escalating report left =>
      cases hfind : left.find? fun task => task.kq.id == ticketId with
      | none =>
          simp only [pollStep, hfind]
          cases left with
          | nil => exact report_ok h hphase
          | cons _ _ => exact Moved.still h hphase
      | some task =>
          simp only [pollStep, hfind]
          have hmove := hsafe report left task rfl hfind
          have htask := List.mem_of_find?_eq_some hfind
          have hid : task.kq.id = ticketId := by simpa using List.find?_some hfind
          subst hid
          cases hstored : task.stored with
          | true =>
              rcases hmove.send hstored with ⟨hgateway, hsent, hbranch⟩
              simp only [if_true]
              exact send_ok h hphase htask rfl hstored hgateway hsent hbranch
          | false =>
              simp only [Bool.false_eq_true, if_false]
              rw [writePriority_run hphase.1 h.identified.queues (hphase.2.tasks task htask)]
              cases hfails : env.fails (.escalate task.kq.id) with
              | true =>
                  have hrush := (hmove.write hstored).mp hfails
                  rw [if_pos (show (pollEnv created s.clock env).fails (.escalate task.kq.id) = true
                    from hfails)]
                  exact Moved.still h ⟨hphase.1, others_ok hphase.2 hrush⟩
              | false =>
                  have hfresh : ¬ StoredRush s.world.db task.kq.id := fun hrush => by
                    rw [(hmove.write hstored).mpr hrush] at hfails
                    cases hfails
                  rw [if_neg (show ¬ (pollEnv created s.clock env).fails (.escalate task.kq.id) =
                    true from fun h => Bool.false_ne_true (hfails.symm.trans h))]
                  exact write_ok h hphase htask rfl hfresh
  | finished answer => exact Moved.still h trivial

/-! ## Runs of safe steps -/

/-- What holds of a branch and its polls between two steps. -/
structure PollsOk (created : Id → Timestamp) (branchId tenantId : Id)
    (c : Config ι (BranchState ι) PollPhase) : Prop where
  branch : BranchOk created branchId tenantId c.shared
  phases : ∀ i, PhaseOk created branchId tenantId c.shared i (c.phase i)

omit [DecidableEq ι] in
/-- A change from elsewhere that leaves the tickets, the queue and the broadcasts, and the
watched tickets due. -/
theorem pollsOk_of_change {s' : BranchState ι} (h : PollsOk created branchId tenantId c)
    (hevolves : Evolves c.shared s') (hreports : s'.reports = c.shared.reports)
    (hsending : s'.sending = c.shared.sending)
    (hqueues : s'.world.db.kitchenQueues = c.shared.world.db.kitchenQueues)
    (hbroadcasts : s'.world.broadcasts = c.shared.world.broadcasts)
    (hdue : ∀ ticketId, Watched branchId tenantId c ticketId →
      StillDue created s'.clock c.shared.world.db s'.world.db ticketId) :
    PollsOk created branchId tenantId ⟨s', c.phase⟩ := by
  refine ⟨branch_mono h.branch hevolves hreports hsending hqueues hbroadcasts ?_, fun i => ?_⟩
  · exact fun report hreport ticketId hrush => hdue ticketId (Or.inl ⟨report, hreport, hrush⟩)
  · refine phase_mono (h.phases i) hevolves (fun ticketId hi => ?_) fun ticketId hwatch =>
      hdue ticketId (Or.inr ⟨i, hwatch⟩)
    rw [hsending]
    exact hi

omit [DecidableEq ι] in
theorem onDb_evolves {s : BranchState ι} {f : Db → Db}
    (hsame : SameTickets s.world.db (f s.world.db))
    (hqueues : (f s.world.db).kitchenQueues = s.world.db.kitchenQueues) : Evolves s (s.onDb f) := by
  refine ⟨hsame, Int.le_refl _, ⟨[], (List.append_nil _).symm⟩, fun ticketId hrush => ?_⟩
  unfold StoredRush BranchState.onDb
  rw [hqueues]
  exact hrush

/-- A safe step keeps what holds of a branch and its polls. -/
theorem pollsOk_step (h : PollsOk created branchId tenantId c) (l : ι × BranchEvent)
    (hsafe : SafeStep created branchId tenantId c l) :
    PollsOk created branchId tenantId ((branchPolls created branchId tenantId ι).step c l) := by
  rcases l with ⟨i, event⟩
  have hidle : ∀ s', ((branchPolls created branchId tenantId ι).next i event c.shared
      (c.phase i)) = (s', c.phase i) →
        (branchPolls created branchId tenantId ι).step c (i, event) = ⟨s', c.phase⟩ := by
    intro s' hnext
    unfold CallSystem.step
    simp only [hnext, Function.update_eq_self]
  cases event with
  | move env ticketId =>
      have hmoved := pollStep_ok h.branch (h.phases i) hsafe
      refine ⟨hmoved.branch, fun j => ?_⟩
      by_cases hj : j = i
      · subst hj
        rw [show j = ((j, BranchEvent.move env ticketId) : ι × BranchEvent).1 from rfl,
          CallSystem.step_phase_self]
        exact hmoved.phase
      · rw [CallSystem.step_phase_of_ne _ c _ hj]
        exact phase_mono (h.phases j) hmoved.evolves (hmoved.others j hj) fun _ _ =>
          StillDue.of_products hmoved.products
  | edit productId preparationTime =>
      rw [hidle _ rfl]
      exact pollsOk_of_change h (onDb_evolves ⟨rfl, rfl⟩ rfl) rfl rfl rfl rfl hsafe
  | setStatus orderId status =>
      rw [hidle _ rfl]
      refine pollsOk_of_change h (onDb_evolves ⟨rfl, ?_⟩ rfl) rfl rfl rfl rfl fun _ _ =>
        StillDue.of_products rfl
      simp only [moveOrder, List.map_map]
      refine List.map_congr_left fun order _ => ?_
      simp only [Function.comp_apply]
      split <;> rfl
  | wait milliseconds =>
      rw [hidle _ rfl]
      refine pollsOk_of_change h ⟨SameTickets.refl _, ?_, ⟨[], (List.append_nil _).symm⟩,
        fun _ ht => ht⟩ rfl rfl rfl rfl fun _ _ => StillDue.of_products rfl
      exact Int.le_add_of_nonneg_right (Int.natCast_nonneg _)

omit [DecidableEq ι] in
/-- Where the polls and the branch are right, the tickets escalate once. -/
theorem escalatesOnce_of_ok {s : BranchState ι} (h : BranchOk created branchId tenantId s) :
    EscalatesOnce branchId tenantId s := by
  refine ⟨h.stays, fun kq hkq => ?_, fun report hreport ticketId hrush hquiet => ?_⟩
  · have hsum := h.accounted kq hkq
    split at hsum <;> omega
  · rcases h.stored report hreport ticketId hrush with ⟨kq, hkq, hid, hpriority⟩
    have hsum := h.accounted kq hkq
    rw [if_pos hpriority, hid, hquiet] at hsum
    exact hsum

/-- A branch before its polls: the entries in a rush have been broadcast, the others not. -/
structure Settled (s : BranchState ι) : Prop where
  identified : Identified s.world.db
  reports : s.reports = []
  sending : s.sending = []
  announced : ∀ kq ∈ s.world.db.kitchenQueues,
    announcements kq.id s.world = if kq.priority = "RUSH" then 1 else 0

/-- Over a run of safe steps a ticket that was reported in a rush stays in a rush, and its
priority is broadcast once. -/
theorem escalates_once {schedule : List (ι × BranchEvent)} (hsettled : Settled c.shared)
    (hstart : ∀ i, c.phase i = .start)
    (hsafe : (branchPolls created branchId tenantId ι).EachStep
      (SafeStep created branchId tenantId) c schedule) :
    ∀ pre, pre <+: schedule → EscalatesOnce branchId tenantId
      ((branchPolls created branchId tenantId ι).run c pre).shared := by
  rintro pre ⟨suf, rfl⟩
  have hpre := ((branchPolls created branchId tenantId ι).eachStep_append _ c pre suf).mp hsafe
  have hnone : ∀ report, report ∉ c.shared.reports := by
    rw [hsettled.reports]
    exact fun _ => List.not_mem_nil
  have hok : PollsOk created branchId tenantId c := by
    refine ⟨⟨hsettled.identified, fun report h => absurd h (hnone report),
      fun report h => absurd h (hnone report), fun report h => absurd h (hnone report),
      fun report h => absurd h (hnone report), fun kq hkq => ?_⟩, fun i => ?_⟩
    · unfold BranchState.senders
      rw [hsettled.sending, List.countP_nil, Nat.add_zero]
      exact hsettled.announced kq hkq
    · rw [hstart i]
      trivial
  exact escalatesOnce_of_ok ((branchPolls created branchId tenantId ι).run_induction
    (I := PollsOk created branchId tenantId) (fun c l h hl => pollsOk_step h l hl) hok
    hpre.1).branch

variable (created branchId tenantId) in
/-- A check that a step is safe, whichever tickets are watched. -/
def isSafe (c : Config ι (BranchState ι) PollPhase) (l : ι × BranchEvent) : Bool :=
  match l.2 with
  | .move env ticketId =>
      match c.phase l.1 with
      | .escalating _ left => (left.find? fun task => task.kq.id == ticketId).all fun task =>
          if task.stored then
            env.kdsGateway && !env.fails (.escalated ticketId) && branchId != ""
          else
            env.fails (.escalate ticketId) ==
              c.shared.world.db.kitchenQueues.any fun kq =>
                kq.id == ticketId && kq.priority == "RUSH"
      | _ => true
  | .edit productId preparationTime => c.shared.world.db.orders.all fun order =>
      decide (slowest (editProduct productId preparationTime c.shared.world.db)
        order.orderItems < minutesSince (created order.id) c.shared.clock)
  | _ => true

omit [DecidableEq ι] in
theorem safeStep_of_isSafe {l : ι × BranchEvent} (h : isSafe created branchId c l = true) :
    SafeStep created branchId tenantId c l := by
  rcases l with ⟨i, event⟩
  cases event with
  | move env ticketId =>
      intro report left task hphase hfind
      simp only [isSafe, hphase, hfind, Option.all_some] at h
      refine ⟨fun hopen => ?_, fun hstored => ?_⟩
      · rw [hopen, if_neg Bool.false_ne_true, beq_iff_eq] at h
        rw [h]
        simp [StoredRush]
      · rw [hstored, if_pos rfl] at h
        simp only [Bool.and_eq_true, Bool.not_eq_true', bne_iff_ne] at h
        exact ⟨h.1.1, h.1.2, h.2⟩
  | edit productId preparationTime =>
      rintro ticketId _ orderId items ⟨_, order, horder, rfl, rfl⟩
      exact Or.inr (of_decide_eq_true (List.all_eq_true.mp h order horder))
  | setStatus _ _ => trivial
  | wait _ => trivial

end Safe

/-! ## A late soup -/

/-- A soup that was ordered twenty minutes ago. -/
def lateSoup : Config Bool (BranchState Bool) PollPhase where
  shared :=
    { world :=
      { db :=
        { orderedSoup with
          branches := [{ (default : Branch) with id := "branch-1", tenantId := "tenant-a" }]
          products := [{ (default : Product) with
            id := "soup", tenantId := "tenant-a", preparationTime := 15 }]
          kitchenQueues := [{ (default : KitchenQueue) with
            id := "queue-1"
            tenantId := "tenant-a"
            branchId := "branch-1"
            orderId := "order-1"
            priority := "NORMAL" }] } }
      clock := 20 * 60000 }
  phase _ := .start

/-- Moves of one display. -/
def moves (display : Bool) (n : ℕ) : List (Bool × BranchEvent) :=
  List.replicate n (display, .move kitchenEnv "queue-1")

abbrev soupPolls : CallSystem Bool BranchEvent (BranchState Bool) PollPhase :=
  branchPolls (fun _ => 0) "branch-1" "tenant-a" Bool

/-- Two polls, one after the other; the soup takes longer from now on, but not as long as its
order waits. -/
def pollsInTurn : List (Bool × BranchEvent) :=
  moves false 6 ++ (false, .wait (30 * 60000)) :: (false, .edit "soup" 40) :: moves true 4

/-- Both displays read the entry before it is raised. -/
def pollsAtOnce : List (Bool × BranchEvent) :=
  moves false 3 ++ moves true 3 ++ moves false 3 ++ moves true 3

/-- The soup takes an hour from now on. -/
def pollsAroundEdit : List (Bool × BranchEvent) :=
  moves false 6 ++ (false, .edit "soup" 60) :: moves true 4

theorem lateSoup_settled : Settled lateSoup.shared :=
  ⟨⟨by decide +kernel, queues_valid_iff.mpr (by decide +kernel)⟩, rfl, rfl, by decide +kernel⟩

/-- The soup escalates once. -/
theorem soup_escalates_once :
    EscalatesOnce "branch-1" "tenant-a" (soupPolls.run lateSoup pollsInTurn).shared :=
  escalates_once lateSoup_settled (fun _ => rfl)
    (CallSystem.EachStep.mono (fun _ _ h => safeStep_of_isSafe h)
      (by decide +kernel : soupPolls.EachStep
        (fun c l => isSafe (fun _ => 0) "branch-1" c l = true) lateSoup pollsInTurn))
    _ (List.prefix_refl _)

/-- Two displays that poll at once broadcast the soup twice, and after an edit of its product a
soup that was in a rush is not in a rush any more. -/
theorem soup_escalates_twice :
    Settled lateSoup.shared ∧ (∀ display, lateSoup.phase display = .start) ∧
      ¬ EscalatesOnce "branch-1" "tenant-a" (soupPolls.run lateSoup pollsAtOnce).shared ∧
      ¬ EscalatesOnce "branch-1" "tenant-a" (soupPolls.run lateSoup pollsAroundEdit).shared := by
  refine ⟨lateSoup_settled, fun _ => rfl, fun h => ?_, fun h => ?_⟩
  · have htwice : announcements "queue-1" (soupPolls.run lateSoup pollsAtOnce).shared.world = 2 ∧
        ∃ kq ∈ (soupPolls.run lateSoup pollsAtOnce).shared.world.db.kitchenQueues,
          kq.id = "queue-1" := by
      decide +kernel
    rcases htwice with ⟨hcount, kq, hkq, hid⟩
    have honce := h.once kq hkq
    rw [hid, hcount] at honce
    omega
  · have hback : ∃ report ∈ (soupPolls.run lateSoup pollsAroundEdit).shared.reports,
        ∃ before ∈ (soupPolls.run lateSoup pollsAroundEdit).shared.reports.take report.since,
          ∃ ticket ∈ before.tickets, ticket.priority = "RUSH" ∧
            ∃ ticket' ∈ report.tickets, ticket'.ticketId = ticket.ticketId ∧
              ticket'.priority = "NORMAL" := by
      decide +kernel
    rcases hback with ⟨report, hreport, before, hbefore, ticket, hticket, hrush, ticket', hticket',
      hsame, hnormal⟩
    have hstays := (h.stays report hreport before hbefore ticket.ticketId
      ⟨ticket, hticket, rfl, hrush⟩).2 ticket' hticket' hsame
    rw [hnormal] at hstays
    exact absurd hstays (by decide)

end KdsService
end Eleva
