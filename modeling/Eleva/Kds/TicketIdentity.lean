import Mathlib.Data.List.Perm.Basic
import Eleva.Foundation.Machine
import Eleva.Order.CheckoutSpec
import Eleva.Kds.CookingCalls
import Eleva.Kds.TicketBoard
import Eleva.Order.Totals

/-!
# Kds - One identity for a ticket

A branch takes orders, its displays poll the tickets and its cooks move the items, one call
after the other, while a terminal builds its board from the events it receives.  The poll
names a ticket by its queue entry; the event of a checkout names it by the order, in a
wrapper that the terminal does not open.

Main results:

- Theorem {lit}`createOrder_sent`: what an accepted checkout stores and which events it sends.
- Lemmas {lit}`getTickets_follows` and {lit}`updateCookingStatus_follows`: the other calls keep
  the orders and queue entries, and send no event of a new order.
- Theorem {lit}`one_identity_iff`: the identities of a run agree exactly when every checkout
  that is accepted fails to send {lit}`ticket.created` and sends {lit}`order.created`.
- Theorem {lit}`soup_has_two_identities`: an ordinary checkout leaves two ids and a broken board.
-/

namespace Eleva
namespace KdsService

open Foundation Database OrderService KDSTerminal

/-! ## The calls in a branch -/

/-- A call in the branch. -/
inductive KitchenAction where
  | checkout (env : CheckoutEnv) (dto : CreateOrderRequestDto)
  | getTickets (env : KdsEnv)
  | updateCookingStatus (env : KdsEnv) (orderItemId : Id) (status : String)

/-- The answer to a call. -/
inductive KitchenAnswer where
  | order (result : Except AppError Order)
  | tickets (result : Except AppError (List KitchenTicket))
  | item (result : Except AppError CookingAnswer)

section Branch

variable (T B : Id)

/-- The surroundings of a checkout in the tenant. -/
def checkoutEnv (env : CheckoutEnv) : CheckoutEnv :=
  { env with context := { tenantId := some T } }

/-- A checkout in the branch. -/
def checkoutIn (env : CheckoutEnv) (dto : CreateOrderRequestDto) : Service Order :=
  createOrder (checkoutEnv T env) { dto with branchId := B } T

/-- The calls of a branch over one world. -/
def kitchen : Machine KitchenAction World KitchenAnswer where
  step a w :=
    match a with
    | .checkout env dto =>
        (.order (checkoutIn T B env dto w).1, (checkoutIn T B env dto w).2)
    | .getTickets env => (.tickets (getTickets env B T w).1, (getTickets env B T w).2)
    | .updateCookingStatus env orderItemId status =>
        (.item (updateCookingStatus env orderItemId T status w).1,
          (updateCookingStatus env orderItemId T status w).2)

/-! ## One identity -/

/-- The event is sent to the branch. -/
def inRoom (broadcast : Broadcast) : Bool :=
  broadcast.tenantId == T && broadcast.branchId == B

/-- The events that a terminal has received which connected at {lit}`w₀`. -/
def received (w₀ w : World) : List Broadcast :=
  (w.broadcasts.drop w₀.broadcasts.length).filter (inRoom T B)

/-- The orders of the branch that were checked out since {lit}`w₀`. -/
def checkedOut (w₀ w : World) : List Order :=
  (w.db.orders.drop w₀.db.orders.length).filter fun order =>
    order.tenantId == T && order.branchId == B

/-- The event carries the ticket of an order. -/
def CarriesTicket (db : Db) (order : Order) (ticketId : Id) (broadcast : Broadcast) : Prop :=
  (broadcast.event = "ticket.created" ∧ ∃ ticketNumber priority items,
    broadcast.payload = .ticket ticketId ticketNumber priority items ∧
      items.map (·.orderItemId) = order.orderItems.map (·.id)) ∨
  (broadcast.event = "ticket.priority_changed" ∧ ∃ oldPriority newPriority,
    broadcast.payload = .priorityChanged ticketId oldPriority newPriority ∧
      ∃ kq ∈ db.kitchenQueues, kq.id = ticketId ∧ kq.orderId = order.id)

/-- The tickets of the branch have one identity: the events carry the id that a poll returns,
and the board of the terminal is well formed and has one entry for each order. -/
structure OneIdentity (arrival : ℕ → Arrival) (w₀ w : World) : Prop where
  carried : ∀ broadcast ∈ received T B w₀ w, ∀ order ∈ w.db.orders, ∀ ticketId,
    CarriesTicket w.db order ticketId broadcast →
      ∀ env tickets w', getTickets env B T w = (.ok tickets, w') →
        ∀ ticket ∈ tickets, ticket.orderId = order.id → ticket.ticketId = ticketId
  board : ∃ tickets, receive arrival (received T B w₀ w) = some tickets ∧
    (∀ ticket ∈ tickets, ticket.WellFormed) ∧
      (tickets.map (·.itemIds)).Perm
        ((checkedOut T B w₀ w).map fun order => some (order.orderItems.map (·.id)))

/-- A checkout that is accepted sends the legacy event only. -/
def LegacyOnly (a : KitchenAction) (w : World) : Prop :=
  match a with
  | .checkout env dto =>
      (checkoutIn T B env dto w).1.isOk = true →
        env.kdsGateway = true ∧
          (env.fails .ticketRead = true ∨ env.fails .ticketBroadcast = true) ∧
          env.fails .orderBroadcast = false
  | .getTickets _ => True
  | .updateCookingStatus _ _ _ => True

instance (a : KitchenAction) (w : World) : Decidable (LegacyOnly T B a w) :=
  match a with
  | .checkout _ _ => inferInstanceAs (Decidable (_ → _ ∧ _ ∧ _))
  | .getTickets _ => inferInstanceAs (Decidable True)
  | .updateCookingStatus _ _ _ => inferInstanceAs (Decidable True)

end Branch

/-! ## What an accepted checkout sends -/

/-- The events after the transaction of a checkout. -/
def checkoutEvents (env : CheckoutEnv) (userTenantId : Id) (dto : CreateOrderRequestDto)
    (order : Order) (db : Db) : List Broadcast :=
  (if env.kdsGateway = true ∧ env.fails .ticketRead = false ∧ env.fails .ticketBroadcast = false
    then [⟨userTenantId, dto.branchId, "ticket.created",
      .ticket order.id (ticketNumberOf (orderNumberOf env)) "NORMAL"
        (ticketItems env.context db order.id)⟩]
    else []) ++
  (if env.kdsGateway = true ∧ env.fails .orderBroadcast = false
    then [⟨userTenantId, dto.branchId, "order.created", .order order⟩] else [])

/-- A broadcast that may fail, and whose failure is swallowed. -/
theorem swallowed_emit (fails : Bool) (broadcast : Broadcast) (w : World) :
    Fallible.orElse (attempt fails (emit broadcast)) (pure ()) w =
      (.ok (), { w with
        broadcasts := w.broadcasts ++ if fails = false then [broadcast] else [] }) := by
  cases fails with
  | false => rfl
  | true =>
      simp only [Bool.true_eq_false, if_false, List.append_nil]
      rfl

theorem broadcastCheckout_eq {env : CheckoutEnv} {userTenantId : Id}
    {dto : CreateOrderRequestDto} {order : Order} (htenant : userTenantId ≠ "")
    (hbranch : dto.branchId ≠ "") (w : World) :
    broadcastCheckout env userTenantId dto order w =
      (.ok (), { w with
        broadcasts := w.broadcasts ++ checkoutEvents env userTenantId dto order w.db }) := by
  have hroom : (userTenantId != "" && dto.branchId != "") = true := by
    simp [htenant, hbranch]
  unfold broadcastCheckout checkoutEvents emitKdsEvent
  rw [Bool.and_assoc, hroom, Bool.and_true]
  cases env.kdsGateway with
  | false =>
      simp only [Bool.false_eq_true, false_and, if_false, List.append_nil]
      cases env.fails .orderBroadcast <;> rfl
  | true =>
      simp only [if_true, true_and]
      have hticket : Fallible.orElse
          (do
            let items ← attempt (env.fails .ticketRead)
              (Fallible.reads fun w => .ok (ticketItems env.context w.db order.id))
            attempt (env.fails .ticketBroadcast)
              (emit ⟨userTenantId, dto.branchId, "ticket.created",
                .ticket order.id (ticketNumberOf (orderNumberOf env)) "NORMAL" items⟩))
          (pure ()) w = (.ok (), { w with
            broadcasts := w.broadcasts ++
              if env.fails .ticketRead = false ∧ env.fails .ticketBroadcast = false
              then [⟨userTenantId, dto.branchId, "ticket.created",
                .ticket order.id (ticketNumberOf (orderNumberOf env)) "NORMAL"
                  (ticketItems env.context w.db order.id)⟩]
              else [] }) := by
        cases env.fails .ticketRead with
        | true =>
            simp only [Bool.true_eq_false, false_and, if_false, List.append_nil]
            rfl
        | false =>
            simp only [true_and]
            exact swallowed_emit _ _ w
      rw [Fallible.bind_of_ok hticket, swallowed_emit]
      simp only [List.append_assoc]

/-- What an accepted checkout stores, and the events it sends. -/
theorem createOrder_sent {env : CheckoutEnv} {S : Option Id} {userTenantId : Id}
    {dto : CreateOrderRequestDto} (hctx : env.context.Sees S) (htenant : userTenantId ≠ "")
    (hbranch : dto.branchId ≠ "") {w w' : World} {order : Order}
    (h : createOrder env dto userTenantId w = (.ok order, w')) :
    w'.db.orders = w.db.orders ++ [order] ∧
      w'.db.kitchenQueues = w.db.kitchenQueues ++ [queueEntry env S userTenantId dto order] ∧
      w'.broadcasts = w.broadcasts ++ checkoutEvents env userTenantId dto order w'.db ∧
      ((w.db.orders ++ [order]).map (·.id)).Nodup ∧ order.branchId = dto.branchId ∧
      order.tenantId = S.getD userTenantId := by
  rcases createOrder_parts hctx h with ⟨_, _, _, w₁, _, _, _, _, htx, hbroadcast⟩
  rcases checkoutTransaction_ok hctx htx with ⟨_, row, _, hrow, _, hcreated, hids, rfl⟩
  rw [broadcastCheckout_eq htenant hbranch] at hbroadcast
  cases hbroadcast
  refine ⟨rfl, rfl, rfl, hids, ?_, by rw [hcreated]⟩
  rw [hcreated]
  exact (orderRow_place hrow).1

/-! ## What the other calls keep -/

/-- What names an order and its items. -/
def orderKey (order : Order) : Id × Id × Id × List Id :=
  (order.id, order.tenantId, order.branchId, order.orderItems.map (·.id))

/-- What names a queue entry. -/
def queueKey (kq : KitchenQueue) : Id × Id :=
  (kq.id, kq.orderId)

/-- The orders and queue entries are the same ones, and the events since then name no new
order. -/
structure Follows (w w' : World) : Prop where
  orders : w'.db.orders.map orderKey = w.db.orders.map orderKey
  queues : w'.db.kitchenQueues.map queueKey = w.db.kitchenQueues.map queueKey
  sent : ∃ later, w'.broadcasts = w.broadcasts ++ later ∧
    ∀ broadcast ∈ later, broadcast.event ∈ followUps

theorem Follows.refl (w : World) : Follows w w :=
  ⟨rfl, rfl, [], (List.append_nil _).symm, fun _ h => absurd h List.not_mem_nil⟩

theorem Follows.trans {w w' w'' : World} (h : Follows w w') (h' : Follows w' w'') :
    Follows w w'' := by
  rcases h.sent with ⟨later, hsent, hlater⟩
  rcases h'.sent with ⟨later', hsent', hlater'⟩
  refine ⟨h'.orders.trans h.orders, h'.queues.trans h.queues, later ++ later', ?_, ?_⟩
  · rw [hsent', hsent, List.append_assoc]
  · intro broadcast hbroadcast
    rcases List.mem_append.mp hbroadcast with hfirst | hsecond
    · exact hlater broadcast hfirst
    · exact hlater' broadcast hsecond

section Follows

variable {env : KdsEnv} {T B : Id} {w : World}

theorem broadcastOrderEvent_follows {tenantId branchId : Id} {event : String}
    (hevent : event ∈ followUps) (payload : BroadcastPayload) :
    Fallible.Keeps (Follows w) (broadcastOrderEvent tenantId branchId event payload) := by
  unfold broadcastOrderEvent
  refine Fallible.Keeps.ite (fun _ => Fallible.Keeps.pure _) fun _ =>
    Fallible.Keeps.modify fun s hs => hs.trans ⟨rfl, rfl, _, rfl, fun broadcast hbroadcast => ?_⟩
  rw [List.mem_singleton.mp hbroadcast]
  exact hevent

/-- A rewrite of a queue entry that leaves its id and its order. -/
theorem updateQueue_follows (hT : T ≠ "") (id : Id) {d : Payload KitchenQueue}
    (hkey : ∀ kq, queueKey (d.apply kq) = queueKey kq) (hnested : d.nested = {}) :
    Fallible.Keeps (Follows w)
      (kitchenQueues.run (kitchenQueueRepository.update (env.inTenant T) id d)) := by
  intro s hs
  rcases @TableOf.run_repository_update _ _ _ kitchenQueues kitchenQueueRepository _ _ id d
    (inTenant_sees env hT) (by decide) rfl (fun _ => rfl) hnested s with ⟨e, herror⟩ | ⟨_, _, hok⟩
  · rw [herror]
    exact hs
  · rw [hok]
    refine hs.trans ⟨rfl, ?_, [], (List.append_nil _).symm, fun _ h => absurd h List.not_mem_nil⟩
    change (s.db.kitchenQueues.map _).map queueKey = s.db.kitchenQueues.map queueKey
    rw [List.map_map]
    refine List.map_congr_left fun kq _ => ?_
    simp only [Function.comp_apply]
    split
    · exact hkey kq
    · rfl

theorem escalate_follows (hT : T ≠ "") (computed : String) (kq : KitchenQueue) :
    Fallible.Keeps (Follows w) (escalate env B T computed kq) := by
  unfold escalate
  refine Fallible.Keeps.ite (fun _ => Fallible.Keeps.orElse ?_ (Fallible.Keeps.pure _))
    fun _ => Fallible.Keeps.pure _
  refine Fallible.Keeps.bind (attempt_keeps _ (updateQueue_follows hT kq.id (fun _ => rfl) rfl))
    fun _ => Fallible.Keeps.ite (fun _ => attempt_keeps _ ?_) fun _ => Fallible.Keeps.pure _
  exact broadcastOrderEvent_follows (by decide) _

theorem escalateAll_follows (hT : T ≠ "") (db : Db) (entries : List (KitchenQueue × Order)) :
    Fallible.Keeps (Follows w) (escalateAll env B T db entries) := by
  induction entries with
  | nil => exact Fallible.Keeps.pure _
  | cons entry entries ih =>
      exact Fallible.Keeps.bind (escalate_follows hT _ _) fun _ => ih

theorem findBranch_state (hT : T ≠ "") (s : World) :
    (branches.run (branchRepository.findById (env.inTenant T) B) s).2 = s := by
  rw [TableOf.run_findById (inTenant_sees env hT) (by decide) rfl rfl]

theorem getTickets_follows (hT : T ≠ "") : Follows w (getTickets env B T w).2 := by
  have hall : Fallible.Keeps (Follows w) (getTickets env B T) := by
    refine Fallible.Keeps.bind (attempt_keeps _
      (Fallible.Keeps.of_unchanged (findBranch_state hT))) fun branch => ?_
    cases branch with
    | none => exact Fallible.Keeps.throw _
    | some _ =>
        exact Fallible.Keeps.bind (attempt_keeps _ (Fallible.Keeps.reads _)) fun db =>
          Fallible.Keeps.bind (escalateAll_follows hT db _) fun _ => Fallible.Keeps.pure _
  exact hall w (Follows.refl w)

/-- A poll names each ticket by the queue entry of its order. -/
theorem getTickets_named (hT : T ≠ "") {tickets : List KitchenTicket} {w' : World}
    (h : getTickets env B T w = (.ok tickets, w')) :
    ∀ ticket ∈ tickets, ∃ kq ∈ w.db.kitchenQueues,
      kq.id = ticket.ticketId ∧ kq.orderId = ticket.orderId := by
  rcases Fallible.bind_eq_ok.mp h with ⟨branch, s, hbranch, hrest⟩
  have hsame : (branches.run (branchRepository.findById (env.inTenant T) B) w).2 = w :=
    findBranch_state hT w
  rw [(attempt_eq_ok.mp hbranch).2] at hsame
  cases hsame
  cases branch with
  | none => cases hrest
  | some branch =>
      rcases Fallible.bind_eq_ok.mp hrest with ⟨db, s₁, hread, hrest₁⟩
      rcases Fallible.reads_eq_ok.mp (attempt_eq_ok.mp hread).2 with ⟨hdb, rfl⟩
      cases hdb
      rcases Fallible.bind_eq_ok.mp hrest₁ with ⟨_, s₂, _, hpure⟩
      cases hpure
      intro ticket hticket
      rcases List.mem_map.mp hticket with ⟨⟨kq, order⟩, hentry, rfl⟩
      unfold activeEntries at hentry
      rw [List.mem_mergeSort] at hentry
      rcases List.mem_filterMap.mp hentry with ⟨kq', hkq, hfound⟩
      rcases Option.map_eq_some_iff.mp hfound with ⟨order', hfind, hpair⟩
      cases hpair
      have hof := List.find?_some hfind
      simp only [Bool.and_eq_true, beq_iff_eq] at hof
      exact ⟨kq, (List.mem_filter.mp hkq).1, rfl, hof.1.symm⟩

theorem stamp_follows (hT : T ≠ "") (orderId : Id) (status : CookingStatus) :
    Fallible.Keeps (Follows w) (updateKitchenQueueTimestamps env T orderId status) := by
  refine Fallible.Keeps.orElse (Fallible.Keeps.bind (attempt_keeps _
    (Fallible.Keeps.of_unchanged (TableOf.run_findFirst_state _))) fun found => ?_)
    (Fallible.Keeps.pure _)
  cases found with
  | none => exact Fallible.Keeps.pure _
  | some kq =>
      exact Fallible.Keeps.ite (fun _ => Fallible.Keeps.bind (attempt_keeps _
        (updateQueue_follows hT kq.id (fun _ => rfl) rfl)) fun _ => Fallible.Keeps.pure _)
        fun _ => Fallible.Keeps.pure _

theorem announce_follows (hT : T ≠ "") (item : OrderItem) (next : CookingStatus)
    (updated : OrderItem) : Fallible.Keeps (Follows w) (announce env T item next updated) := by
  have hbroadcast : ∀ order, Fallible.Keeps (Follows w) (broadcastItem env order next updated) := by
    intro order
    refine Fallible.Keeps.orElse (Fallible.Keeps.ite (fun _ => attempt_keeps _ ?_)
      fun _ => Fallible.Keeps.pure _) (Fallible.Keeps.pure _)
    exact Fallible.Keeps.bind (broadcastOrderEvent_follows (by decide) _) fun _ =>
      broadcastOrderEvent_follows (by decide) _
  refine Fallible.Keeps.bind (attempt_keeps _ (Fallible.Keeps.reads _)) fun found => ?_
  cases found with
  | none => exact Fallible.Keeps.pure _
  | some order =>
      exact Fallible.Keeps.bind (stamp_follows hT order.id next) fun _ =>
        Fallible.Keeps.bind (hbroadcast order) fun _ => Fallible.Keeps.pure _

/-- The status write keeps the orders and the ids of their items. -/
theorem withStatus_follows (orderItemId : Id) (next : CookingStatus) :
    Follows w (withStatus T orderItemId next w) := by
  refine ⟨?_, rfl, [], (List.append_nil _).symm, fun _ h => absurd h List.not_mem_nil⟩
  change (w.db.orders.map _).map orderKey = w.db.orders.map orderKey
  rw [List.map_map]
  refine List.map_congr_left fun order _ => ?_
  have hid : ∀ item, (rewriteItem T orderItemId next item).id = item.id := by
    intro item
    unfold rewriteItem
    split <;> rfl
  simp [orderKey, hid]

theorem writeItem_follows (orderItemId : Id) (next : CookingStatus) :
    Fallible.Keeps (Follows w) (writeItem env orderItemId T next) := by
  intro s hs
  have hcases : (∃ e, writeItem env orderItemId T next s = (.error e, s)) ∨
      ∃ item, itemOf T orderItemId s.db = some item ∧ writeItem env orderItemId T next s =
        (.ok { item with cookingStatus := next }, withStatus T orderItemId next s) :=
    writeItem_cases env next s
  rcases hcases with ⟨e, herror⟩ | ⟨item, _, hok⟩
  · rw [herror]
    exact hs
  · rw [hok]
    exact hs.trans (withStatus_follows orderItemId next)

theorem updateCookingStatus_follows (hT : T ≠ "") (orderItemId : Id) (status : String) :
    Follows w (updateCookingStatus env orderItemId T status w).2 := by
  have hall : Fallible.Keeps (Follows w) (updateCookingStatus env orderItemId T status) :=
    Fallible.Keeps.bind (Fallible.Keeps.of_unchanged fun s => checkItem_readsOnly env status s)
      fun checked => Fallible.Keeps.bind (writeItem_follows orderItemId checked.2) fun updated =>
        announce_follows hT checked.1 checked.2 updated
  exact hall w (Follows.refl w)

end Follows

/-! ## The identity along a run -/

/-- Each order has one queue entry, and each queue entry names a stored order. -/
structure OneEntryEach (db : Db) : Prop where
  entries : (db.kitchenQueues.map (·.orderId)).Nodup
  stored : ∀ kq ∈ db.kitchenQueues, kq.orderId ∈ db.orders.map (·.id)

/-- What the calls keep: no event of a ticket was received, and the board lists the orders. -/
structure Agreed (T B : Id) (arrival : ℕ → Arrival) (w₀ w : World) : Prop where
  queue : OneEntryEach w.db
  ordersSince : w₀.db.orders.length ≤ w.db.orders.length
  sentSince : w₀.broadcasts.length ≤ w.broadcasts.length
  quiet : ∀ broadcast ∈ received T B w₀ w, broadcast.event ≠ "ticket.created"
  lists : ∃ tickets, receive arrival (received T B w₀ w) = some tickets ∧
    Lists tickets ((checkedOut T B w₀ w).map fun order => order.orderItems.map (·.id))

section Agreement

variable {T B : Id} {arrival : ℕ → Arrival} {w₀ w w' : World}

theorem Agreed.start (hqueue : OneEntryEach w.db) : Agreed T B arrival w w where
  queue := hqueue
  ordersSince := Nat.le_refl _
  sentSince := Nat.le_refl _
  quiet := by simp [received]
  lists := by
    refine ⟨[], ?_, ?_⟩
    · simp [received, receive_nil]
    · simpa [checkedOut] using Lists.nil

/-- Where the calls have agreed, the tickets have one identity. -/
theorem Agreed.oneIdentity (hT : T ≠ "") (h : Agreed T B arrival w₀ w) :
    OneIdentity T B arrival w₀ w := by
  refine ⟨?_, ?_⟩
  · intro broadcast hbroadcast order _ ticketId hcarries env tickets w' hpoll ticket hticket hof
    rcases hcarries with ⟨hcreated, _⟩ | ⟨_, _, _, _, kq, hkq, hid, horder⟩
    · exact absurd hcreated (h.quiet broadcast hbroadcast)
    · rcases getTickets_named hT hpoll ticket hticket with ⟨kq', hkq', hid', horder'⟩
      have hsame : kq' = kq := List.inj_on_of_nodup_map h.queue.entries hkq' hkq
        (horder'.trans (hof.trans horder.symm))
      rw [← hid', hsame, hid]
  · rcases h.lists with ⟨tickets, hreceive, hlists⟩
    refine ⟨tickets, hreceive, hlists.wellFormed, ?_⟩
    rw [hlists.itemIds_eq, List.map_map]
    exact List.Perm.refl _

/-- The items of the orders since the terminal connected, by the keys of the orders. -/
theorem checkedOut_itemIds :
    ((checkedOut T B w₀ w).map fun order => order.orderItems.map (·.id)) =
      (((w.db.orders.map orderKey).drop w₀.db.orders.length).filter fun key =>
        key.2.1 == T && key.2.2.1 == B).map fun key => key.2.2.2 := by
  rw [← List.map_drop, List.filter_map, List.map_map]
  rfl

/-- Calls that name no new order keep the agreement. -/
theorem Agreed.of_follows (h : Agreed T B arrival w₀ w) (hfollows : Follows w w') :
    Agreed T B arrival w₀ w' := by
  rcases hfollows.sent with ⟨later, hsent, hlater⟩
  have hqueueOrders : w'.db.kitchenQueues.map (·.orderId) = w.db.kitchenQueues.map (·.orderId) := by
    have hkeys := congrArg (List.map Prod.snd) hfollows.queues
    rw [List.map_map, List.map_map] at hkeys
    exact hkeys
  have horderIds : w'.db.orders.map (·.id) = w.db.orders.map (·.id) := by
    have hkeys := congrArg (List.map Prod.fst) hfollows.orders
    rw [List.map_map, List.map_map] at hkeys
    exact hkeys
  have hlength : w'.db.orders.length = w.db.orders.length := by
    have hkeys := congrArg List.length hfollows.orders
    rwa [List.length_map, List.length_map] at hkeys
  have hreceived : received T B w₀ w' = received T B w₀ w ++ later.filter (inRoom T B) := by
    unfold received
    rw [hsent, List.drop_append_of_le_length h.sentSince, List.filter_append]
  have hroom : ∀ broadcast ∈ later.filter (inRoom T B), broadcast.event ∈ followUps :=
    fun broadcast hbroadcast => hlater broadcast (List.mem_filter.mp hbroadcast).1
  refine ⟨⟨?_, fun kq hkq => ?_⟩, ?_, ?_, ?_, ?_⟩
  · rw [hqueueOrders]
    exact h.queue.entries
  · rw [horderIds]
    have hmem : kq.orderId ∈ w.db.kitchenQueues.map (·.orderId) :=
      hqueueOrders ▸ List.mem_map_of_mem hkq
    rcases List.mem_map.mp hmem with ⟨old, hold, hsame⟩
    exact hsame ▸ h.queue.stored old hold
  · rw [hlength]
    exact h.ordersSince
  · rw [hsent, List.length_append]
    exact h.sentSince.trans (Nat.le_add_right _ _)
  · rw [hreceived]
    intro broadcast hbroadcast
    rcases List.mem_append.mp hbroadcast with hold | hnew
    · exact h.quiet broadcast hold
    · intro hcreated
      have hevent := hroom broadcast hnew
      rw [hcreated] at hevent
      exact absurd hevent (by decide)
  · rw [hreceived, checkedOut_itemIds, hfollows.orders, ← checkedOut_itemIds]
    exact receive_followUps hroom h.lists

/-! ## A checkout -/

/-- What an accepted checkout in the branch has done. -/
structure CheckedOut (T B : Id) (env : CheckoutEnv) (dto : CreateOrderRequestDto) (order : Order)
    (w w' : World) : Prop where
  orders : w'.db.orders = w.db.orders ++ [order]
  queues : ∃ kq, kq.orderId = order.id ∧ w'.db.kitchenQueues = w.db.kitchenQueues ++ [kq]
  sent : w'.broadcasts = w.broadcasts ++
    checkoutEvents (checkoutEnv T env) T { dto with branchId := B } order w'.db
  ids : ((w.db.orders ++ [order]).map (·.id)).Nodup
  tenantId : order.tenantId = T
  branchId : order.branchId = B

theorem checkoutIn_ok (hT : T ≠ "") (hB : B ≠ "") {env : CheckoutEnv}
    {dto : CreateOrderRequestDto} {order : Order}
    (h : checkoutIn T B env dto w = (.ok order, w')) : CheckedOut T B env dto order w w' := by
  have hctx : (checkoutEnv T env).context.Sees (some T) := ⟨rfl, hT⟩
  rcases createOrder_sent hctx hT (by exact hB) h with
    ⟨horders, hqueues, hsent, hids, hbranch, htenant⟩
  exact ⟨horders, ⟨_, rfl, hqueues⟩, hsent, hids, htenant, hbranch⟩

theorem checkoutIn_error (hT : T ≠ "") {env : CheckoutEnv} {dto : CreateOrderRequestDto}
    {e : AppError} (h : checkoutIn T B env dto w = (.error e, w')) : w' = w := by
  have hctx : (checkoutEnv T env).context.Sees (some T) := ⟨rfl, hT⟩
  exact createOrder_error hctx h

variable {env : CheckoutEnv} {dto : CreateOrderRequestDto} {order : Order}

theorem CheckedOut.received_eq (h : CheckedOut T B env dto order w w')
    (hagreed : Agreed T B arrival w₀ w) :
    received T B w₀ w' = received T B w₀ w ++
      checkoutEvents (checkoutEnv T env) T { dto with branchId := B } order w'.db := by
  unfold received
  rw [h.sent, List.drop_append_of_le_length hagreed.sentSince, List.filter_append]
  congr 1
  refine List.filter_eq_self.mpr fun broadcast hbroadcast => ?_
  have hroom : broadcast.tenantId = T ∧ broadcast.branchId = B := by
    unfold checkoutEvents at hbroadcast
    rcases List.mem_append.mp hbroadcast with hticket | horder
    · split at hticket
      · rw [List.mem_singleton.mp hticket]
        exact ⟨rfl, rfl⟩
      · cases hticket
    · split at horder
      · rw [List.mem_singleton.mp horder]
        exact ⟨rfl, rfl⟩
      · cases horder
  simp [inRoom, hroom]

theorem CheckedOut.checkedOut_eq (h : CheckedOut T B env dto order w w')
    (hagreed : Agreed T B arrival w₀ w) :
    checkedOut T B w₀ w' = checkedOut T B w₀ w ++ [order] := by
  unfold checkedOut
  rw [h.orders, List.drop_append_of_le_length hagreed.ordersSince, List.filter_append]
  simp [h.tenantId, h.branchId]

theorem CheckedOut.queue (h : CheckedOut T B env dto order w w') (hqueue : OneEntryEach w.db) :
    OneEntryEach w'.db := by
  rcases h.queues with ⟨kq, hof, hqueues⟩
  have hnew : order.id ∉ w.db.orders.map (·.id) := by
    have hids := h.ids
    rw [List.map_append, List.map_singleton] at hids
    exact fun hmem => (List.nodup_append.mp hids).2.2 _ hmem _ List.mem_cons_self rfl
  refine ⟨?_, fun kq' hkq' => ?_⟩
  · rw [hqueues, List.map_append, List.map_singleton]
    refine List.nodup_append.mpr ⟨hqueue.entries, List.nodup_singleton _, ?_⟩
    rintro orderId hold _ hlast rfl
    rw [List.mem_singleton.mp hlast, hof] at hold
    rcases List.mem_map.mp hold with ⟨old, hmem, hsame⟩
    exact hnew (hsame ▸ hqueue.stored old hmem)
  · rw [h.orders, List.map_append]
    rw [hqueues] at hkq'
    rcases List.mem_append.mp hkq' with hold | hlast
    · exact List.mem_append_left _ (hqueue.stored kq' hold)
    · rw [List.mem_singleton.mp hlast, hof]
      exact List.mem_append_right _ List.mem_cons_self

/-- After a checkout that sends the legacy event only the calls agree. -/
theorem CheckedOut.agreed (h : CheckedOut T B env dto order w w')
    (hagreed : Agreed T B arrival w₀ w) (hgateway : env.kdsGateway = true)
    (hticket : env.fails .ticketRead = true ∨ env.fails .ticketBroadcast = true)
    (horder : env.fails .orderBroadcast = false) : Agreed T B arrival w₀ w' := by
  have hevents : checkoutEvents (checkoutEnv T env) T { dto with branchId := B } order w'.db =
      [⟨T, B, "order.created", .order order⟩] := by
    unfold checkoutEvents checkoutEnv
    rw [if_neg (fun hall => by rcases hticket with hread | hsend <;> simp_all),
      if_pos ⟨hgateway, horder⟩]
    rfl
  refine ⟨h.queue hagreed.queue, ?_, ?_, ?_, ?_⟩
  · rw [h.orders, List.length_append]
    exact hagreed.ordersSince.trans (Nat.le_add_right _ _)
  · rw [h.sent, List.length_append]
    exact hagreed.sentSince.trans (Nat.le_add_right _ _)
  · rw [h.received_eq hagreed, hevents]
    intro broadcast hbroadcast
    rcases List.mem_append.mp hbroadcast with hold | hnew
    · exact hagreed.quiet broadcast hold
    · rw [List.mem_singleton.mp hnew]
      exact (by decide : "order.created" ≠ "ticket.created")
  · rw [h.received_eq hagreed, hevents, h.checkedOut_eq hagreed, List.map_append]
    exact receive_order order hagreed.lists

/-- A checkout that leaves the tickets one identity sends the legacy event only. -/
theorem CheckedOut.legacy (h : CheckedOut T B env dto order w w')
    (hagreed : Agreed T B arrival w₀ w) (hone : OneIdentity T B arrival w₀ w') :
    env.kdsGateway = true ∧
      (env.fails .ticketRead = true ∨ env.fails .ticketBroadcast = true) ∧
      env.fails .orderBroadcast = false := by
  rcases hone.board with ⟨tickets', hreceive', hwell, hperm⟩
  rcases hagreed.lists with ⟨tickets, hreceive, hlists⟩
  rw [h.received_eq hagreed] at hreceive'
  rw [h.checkedOut_eq hagreed] at hperm
  by_cases hticket : env.kdsGateway = true ∧ env.fails .ticketRead = false ∧
      env.fails .ticketBroadcast = false
  · -- the wrapper of the ticket makes an entry that no later event mends
    exfalso
    unfold checkoutEvents checkoutEnv at hreceive'
    rw [if_pos hticket, ← List.append_assoc] at hreceive'
    have hspread := receive_concat arrival (received T B w₀ w)
      ⟨T, B, "ticket.created", .ticket order.id (ticketNumberOf (orderNumberOf env)) "NORMAL"
        (ticketItems { tenantId := some T } w'.db order.id)⟩
    rw [hreceive, Option.bind_some] at hspread
    rcases receive_malformed hspread
      ⟨_, List.mem_append_right _ List.mem_cons_self, rfl⟩ hreceive' with ⟨ticket, hmem, hnone⟩
    have hsome := (hwell ticket hmem).1
    rw [hnone] at hsome
    cases hsome
  · by_cases horder : env.kdsGateway = true ∧ env.fails .orderBroadcast = false
    · refine ⟨horder.1, ?_, horder.2⟩
      by_contra hsent
      simp only [not_or, Bool.not_eq_true] at hsent
      exact hticket ⟨horder.1, hsent.1, hsent.2⟩
    · -- nothing was sent, so the board has no entry for the order
      exfalso
      unfold checkoutEvents checkoutEnv at hreceive'
      rw [if_neg hticket, if_neg horder, List.append_nil, List.append_nil, hreceive] at hreceive'
      cases hreceive'
      have hlength := hperm.length_eq
      have hold := congrArg List.length hlists.itemIds_eq
      simp only [List.length_map, List.length_append, List.length_singleton] at hlength hold
      omega

/-- What one call does to the agreement: only a checkout that sends {lit}`ticket.created`, or
does not send {lit}`order.created`, breaks it. -/
theorem kitchen_step (hT : T ≠ "") (hB : B ≠ "") (a : KitchenAction)
    (h : Agreed T B arrival w₀ w) :
    (OneIdentity T B arrival w₀ ((kitchen T B).step a w).2 ↔ LegacyOnly T B a w) ∧
      (LegacyOnly T B a w → Agreed T B arrival w₀ ((kitchen T B).step a w).2) := by
  cases a with
  | checkout env dto =>
      rcases hrun : checkoutIn T B env dto w with ⟨e | order, w'⟩
      · have hstep : ((kitchen T B).step (.checkout env dto) w).2 = w := by
          change (checkoutIn T B env dto w).2 = w
          rw [hrun]
          exact checkoutIn_error hT hrun
        have hlegacy : LegacyOnly T B (.checkout env dto) w := by
          intro hok
          rw [hrun] at hok
          cases hok
        rw [hstep]
        exact ⟨iff_of_true (h.oneIdentity hT) hlegacy, fun _ => h⟩
      · have hstep : ((kitchen T B).step (.checkout env dto) w).2 = w' := by
          change (checkoutIn T B env dto w).2 = w'
          rw [hrun]
        have hdone := checkoutIn_ok hT hB hrun
        have hok : (checkoutIn T B env dto w).1.isOk = true := by
          rw [hrun]
          rfl
        have hkeeps : LegacyOnly T B (.checkout env dto) w → Agreed T B arrival w₀ w' := by
          intro hlegacy
          rcases hlegacy hok with ⟨hgateway, hticket, horder⟩
          exact hdone.agreed h hgateway hticket horder
        rw [hstep]
        exact ⟨⟨fun hone _ => hdone.legacy h hone,
          fun hlegacy => (hkeeps hlegacy).oneIdentity hT⟩, hkeeps⟩
  | getTickets env =>
      have hnext : Agreed T B arrival w₀ ((kitchen T B).step (.getTickets env) w).2 :=
        h.of_follows (getTickets_follows hT)
      exact ⟨iff_of_true (hnext.oneIdentity hT) trivial, fun _ => hnext⟩
  | updateCookingStatus env orderItemId status =>
      have hnext : Agreed T B arrival w₀
          ((kitchen T B).step (.updateCookingStatus env orderItemId status) w).2 :=
        h.of_follows (updateCookingStatus_follows hT orderItemId status)
      exact ⟨iff_of_true (hnext.oneIdentity hT) trivial, fun _ => hnext⟩

/-- The tickets of a branch have one identity throughout a run exactly when every checkout that
is accepted fails to send {lit}`ticket.created` and sends {lit}`order.created`. -/
theorem one_identity_iff (hT : T ≠ "") (hB : B ≠ "") (hqueue : OneEntryEach w₀.db)
    (arrival : ℕ → Arrival) (actions : List KitchenAction) :
    (∀ pre, pre <+: actions →
        OneIdentity T B arrival w₀ ((kitchen T B).exec pre w₀)) ↔
      (kitchen T B).EachStep (LegacyOnly T B) actions w₀ :=
  (kitchen T B).prefix_iff_eachStep (I := Agreed T B arrival w₀)
    (fun _ h => h.oneIdentity hT) (fun a _ _ h => kitchen_step hT hB a h) (Agreed.start hqueue)

end Agreement

/-! ## An order of soup -/

/-- A display that wakes at noon. -/
def noon (_ : ℕ) : Arrival := ⟨1767268800000, 512⟩

/-- A guest orders soup, a display polls, and the cook starts; {lit}`sent` says whether the
event of the ticket gets through. -/
def soupRun (sent : Bool) : List KitchenAction :=
  [.checkout { guestEnv with fails := fun step => !sent && step == .ticketBroadcast } soupRequest,
    .getTickets kitchenEnv, .updateCookingStatus kitchenEnv "item-1" "PREPARING"]

theorem soupMenu_entries : OneEntryEach soupMenu where
  entries := List.nodup_nil
  stored := by simp [soupMenu]

/-- Without the event of the ticket the soup has one identity. -/
theorem soup_has_one_identity :
    OneIdentity "tenant-a" "branch-1" noon { db := soupMenu }
      ((kitchen "tenant-a" "branch-1").exec (soupRun false) { db := soupMenu }) :=
  (one_identity_iff (by decide) (by decide) soupMenu_entries noon (soupRun false)).mpr
    ⟨by decide +kernel, trivial, trivial, trivial⟩ _ (List.prefix_refl _)

/-- The branch after the soup was ordered and polled. -/
def polledSoup : World :=
  (kitchen "tenant-a" "branch-1").exec (soupRun true).dropLast { db := soupMenu }

/-- The id of a ticket that an event carries. -/
def carriedId (broadcast : Broadcast) : Option Id :=
  match broadcast.payload with
  | .ticket ticketId _ _ _ => some ticketId
  | .priorityChanged ticketId _ _ => some ticketId
  | .order _ => none
  | .itemUpdated _ _ _ _ => none

/-- With it the checkout names the ticket differently from the poll and the escalation, and the
board has a second entry, which has neither an id nor items. -/
theorem soup_has_two_identities :
    ((getTickets kitchenEnv "branch-1" "tenant-a" polledSoup).1.toOption.map fun tickets =>
      tickets.map fun ticket => (ticket.orderId, ticket.ticketId)) =
        some [("order-1", "ticket-1")] ∧
      (received "tenant-a" "branch-1" { db := soupMenu } polledSoup).filterMap carriedId =
        ["order-1", "ticket-1"] ∧
      ¬ OneIdentity "tenant-a" "branch-1" noon { db := soupMenu } polledSoup := by
  refine ⟨by decide +kernel, by decide +kernel, fun h => ?_⟩
  rcases h.board with ⟨tickets, hreceive, hwell, _⟩
  have hboard : (receive noon (received "tenant-a" "branch-1" { db := soupMenu } polledSoup)).any
      (fun tickets => tickets.all fun ticket => decide ticket.WellFormed) = true := by
    rw [hreceive]
    simpa using hwell
  exact absurd hboard (by decide +kernel)

end KdsService
end Eleva
