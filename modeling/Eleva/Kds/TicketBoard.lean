import Mathlib.Data.List.Induction
import Eleva.Kds.KdsService

/-!
# Kds - The ticket board of the terminal

The kitchen terminal keeps a list of tickets that its handlers change on every event of the
branch.  The gateway sends every event in a wrapper with the payload under {lit}`data`: some
handlers unwrap it, some read the wrapper itself.

An entry that was made of a wrapper has neither the id nor the items of a ticket, and the
handlers for items throw on it.

Main results:

- Definition {lit}`handle`: the handlers of the terminal.
- Definition {lit}`receive`: the board after the events that were received.
- Theorem {lit}`handle_followUp`: events that name no new order keep the entries of a well
  formed board and their items.
-/

namespace Eleva
namespace KDSTerminal

open Foundation Database

/-! ## The board -/

/-- A line of an entry; an addon without a name is {lit}`undefined`. -/
structure BoardItem where
  id : Id
  name : String
  quantity : ℕ
  size : Option String
  addons : List (Option String)
  cookingStatus : CookingStatus
deriving DecidableEq, Repr

/-- An entry of the board.  A key that is missing is {lit}`none`; {lit}`wrapper` is what an
entry has of the keys of a wrapper. -/
structure BoardTicket where
  ticketId : Option Id := none
  ticketNumber : Option String := none
  priority : Option String := none
  elapsedMinutes : ℕ := 0
  items : Option (List BoardItem) := none
  wrapper : Option Broadcast := none
deriving DecidableEq, Repr

/-- What the terminal draws from its surroundings when an event arrives. -/
structure Arrival where
  now : Timestamp
  digits : ℕ
deriving DecidableEq, Repr

/-! ## The handlers -/

/-- The line of an item of an order, which carries no names. -/
def boardItem (item : OrderItem) : BoardItem where
  id := item.id
  name := "Unknown Item"
  quantity := item.quantity
  size := none
  addons := item.orderItemAddons.map fun _ => none
  cookingStatus := item.cookingStatus

/-- The entry of an order. -/
def ticketOfOrder (arrival : Arrival) (order : Order) : BoardTicket where
  ticketId := some (if order.id != "" then order.id else "ticket-" ++ toString arrival.now)
  ticketNumber := some
    (if order.orderNumber != "" then OrderService.ticketNumberOf order.orderNumber
      else toString arrival.digits)
  priority := some "NORMAL"
  items := some (order.orderItems.map boardItem)

/-- The entry that spreads a wrapper. -/
def ticketOfWrapper (broadcast : Broadcast) : BoardTicket where
  wrapper := some broadcast

/-- Rewrite the lines of all entries; an entry without items throws. -/
def mapItems (f : BoardItem → BoardItem) (tickets : List BoardTicket) :
    Option (List BoardTicket) :=
  if tickets.all fun ticket => ticket.items.isSome then
    some (tickets.map fun ticket => { ticket with items := ticket.items.map (List.map f) })
  else none

def withPriority (ticketId : Id) (priority : String) (ticket : BoardTicket) : BoardTicket :=
  if ticket.ticketId = some ticketId then { ticket with priority := some priority } else ticket

def withCookingStatus (orderItemId : Id) (status : CookingStatus) (item : BoardItem) : BoardItem :=
  if item.id = orderItemId then { item with cookingStatus := status } else item

/-- The handlers; {lit}`none` is a handler that throws. -/
def handle (arrival : Arrival) (broadcast : Broadcast) (tickets : List BoardTicket) :
    Option (List BoardTicket) :=
  if broadcast.event = "ticket.created" then
    -- the handler spreads the wrapper instead of the ticket in it
    some (tickets ++ [ticketOfWrapper broadcast])
  else if broadcast.event = "ticket.priority_changed" then
    match broadcast.payload with
    | .priorityChanged ticketId _ newPriority =>
        some (tickets.map (withPriority ticketId newPriority))
    | _ => some tickets
  else if broadcast.event = "order.created" then
    match broadcast.payload with
    | .order order => some (tickets ++ [ticketOfOrder arrival order])
    | _ => some tickets
  else if broadcast.event = "ticket.item_updated" then
    -- the wrapper has no {lit}`orderItemId`, so no line is the one that it names
    mapItems id tickets
  else if broadcast.event = "order.item_updated" then
    match broadcast.payload with
    | .itemUpdated _ orderItemId _ cookingStatus =>
        mapItems (withCookingStatus orderItemId cookingStatus) tickets
    | _ => some tickets
  else some tickets

/-- The board after the events that the terminal has received since it connected. -/
def receive (arrival : ℕ → Arrival) (broadcasts : List Broadcast) : Option (List BoardTicket) :=
  broadcasts.zipIdx.foldl
    (fun tickets event => tickets.bind (handle (arrival event.2) event.1)) (some [])

theorem receive_nil (arrival : ℕ → Arrival) : receive arrival [] = some [] :=
  rfl

theorem receive_concat (arrival : ℕ → Arrival) (broadcasts : List Broadcast)
    (broadcast : Broadcast) :
    receive arrival (broadcasts ++ [broadcast]) =
      (receive arrival broadcasts).bind (handle (arrival broadcasts.length) broadcast) := by
  unfold receive
  rw [List.zipIdx_append, List.foldl_append]
  simp

/-! ## Well formed boards -/

/-- The entry has an id and a list of items. -/
def BoardTicket.WellFormed (ticket : BoardTicket) : Prop :=
  ticket.ticketId.isSome ∧ ticket.items.isSome

instance (ticket : BoardTicket) : Decidable ticket.WellFormed :=
  inferInstanceAs (Decidable (_ ∧ _))

/-- The ids of the items of an entry. -/
def BoardTicket.itemIds (ticket : BoardTicket) : Option (List Id) :=
  ticket.items.map (List.map (·.id))

/-- The events that name no new order. -/
def followUps : List String :=
  ["ticket.priority_changed", "ticket.item_updated", "order.item_updated"]

/-- A well formed board of entries with the items. -/
structure Lists (tickets : List BoardTicket) (itemIds : List (List Id)) : Prop where
  wellFormed : ∀ ticket ∈ tickets, ticket.WellFormed
  itemIds_eq : tickets.map (·.itemIds) = itemIds.map some

variable {tickets : List BoardTicket} {itemIds : List (List Id)}

theorem Lists.nil : Lists [] [] :=
  ⟨by simp, rfl⟩

/-- Rewriting entries without touching the ids keeps what a board lists. -/
theorem Lists.map (h : Lists tickets itemIds) {f : BoardTicket → BoardTicket}
    (hticketId : ∀ ticket, (f ticket).ticketId = ticket.ticketId)
    (hitems : ∀ ticket, (f ticket).itemIds = ticket.itemIds) : Lists (tickets.map f) itemIds := by
  refine ⟨fun ticket hticket => ?_, ?_⟩
  · rcases List.mem_map.mp hticket with ⟨old, hold, rfl⟩
    rcases h.wellFormed old hold with ⟨hid, hlist⟩
    have hkept := congrArg Option.isSome (hitems old)
    simp only [BoardTicket.itemIds, Option.isSome_map] at hkept
    exact ⟨(hticketId old).symm ▸ hid, hkept.trans hlist⟩
  · rw [List.map_map, ← h.itemIds_eq]
    exact List.map_congr_left fun ticket _ => hitems ticket

theorem Lists.concat (h : Lists tickets itemIds) (arrival : Arrival) (order : Order) :
    Lists (tickets ++ [ticketOfOrder arrival order])
      (itemIds ++ [order.orderItems.map (·.id)]) := by
  refine ⟨fun ticket hticket => ?_, ?_⟩
  · rcases List.mem_append.mp hticket with hold | hnew
    · exact h.wellFormed ticket hold
    · rw [List.mem_singleton.mp hnew]
      exact ⟨rfl, rfl⟩
  · have hnew : (ticketOfOrder arrival order).itemIds =
        some (order.orderItems.map (·.id)) := by
      simp [BoardTicket.itemIds, ticketOfOrder, boardItem, Function.comp_def]
    rw [List.map_append, List.map_append, h.itemIds_eq, List.map_singleton, List.map_singleton,
      hnew]

/-- Rewriting the lines of a board without touching their ids keeps what it lists. -/
theorem Lists.mapItems (h : Lists tickets itemIds) {f : BoardItem → BoardItem}
    (hid : ∀ item, (f item).id = item.id) :
    ∃ tickets', KDSTerminal.mapItems f tickets = some tickets' ∧ Lists tickets' itemIds := by
  have hall : (tickets.all fun ticket => ticket.items.isSome) = true :=
    List.all_eq_true.mpr fun ticket hticket => (h.wellFormed ticket hticket).2
  refine ⟨_, if_pos hall, h.map (fun _ => rfl) fun ticket => ?_⟩
  unfold BoardTicket.itemIds
  rw [Option.map_map]
  congr 1
  funext items
  simp [hid]

/-- Events that name no new order keep what a well formed board lists. -/
theorem handle_followUp (h : Lists tickets itemIds) (arrival : Arrival) {broadcast : Broadcast}
    (hevent : broadcast.event ∈ followUps) :
    ∃ tickets', handle arrival broadcast tickets = some tickets' ∧ Lists tickets' itemIds := by
  simp only [followUps, List.mem_cons, List.not_mem_nil, or_false] at hevent
  unfold handle
  rcases hevent with hpriority | hticket | horder
  · rw [hpriority, if_neg (by decide), if_pos rfl]
    cases broadcast.payload with
    | priorityChanged ticketId _ newPriority =>
        refine ⟨_, rfl, h.map (fun ticket => ?_) fun ticket => ?_⟩
        · unfold withPriority
          split <;> rfl
        · unfold withPriority
          split <;> rfl
    | ticket _ _ _ _ => exact ⟨tickets, rfl, h⟩
    | order _ => exact ⟨tickets, rfl, h⟩
    | itemUpdated _ _ _ _ => exact ⟨tickets, rfl, h⟩
  · rw [hticket, if_neg (by decide), if_neg (by decide), if_neg (by decide), if_pos rfl]
    exact h.mapItems fun _ => rfl
  · rw [horder, if_neg (by decide), if_neg (by decide), if_neg (by decide), if_neg (by decide),
      if_pos rfl]
    cases broadcast.payload with
    | itemUpdated _ orderItemId _ cookingStatus =>
        refine h.mapItems fun item => ?_
        unfold withCookingStatus
        split <;> rfl
    | ticket _ _ _ _ => exact ⟨tickets, rfl, h⟩
    | order _ => exact ⟨tickets, rfl, h⟩
    | priorityChanged _ _ _ => exact ⟨tickets, rfl, h⟩

/-- Follow-ups keep what the board lists. -/
theorem receive_followUps {arrival : ℕ → Arrival} {broadcasts later : List Broadcast}
    (hlater : ∀ broadcast ∈ later, broadcast.event ∈ followUps)
    (h : ∃ tickets, receive arrival broadcasts = some tickets ∧ Lists tickets itemIds) :
    ∃ tickets, receive arrival (broadcasts ++ later) = some tickets ∧ Lists tickets itemIds := by
  induction later generalizing broadcasts with
  | nil =>
      rw [List.append_nil]
      exact h
  | cons broadcast later ih =>
      rw [← List.singleton_append, ← List.append_assoc]
      refine ih (fun b hb => hlater b (List.mem_cons_of_mem _ hb)) ?_
      rcases h with ⟨tickets, hreceive, hlists⟩
      rw [receive_concat, hreceive, Option.bind_some]
      exact handle_followUp hlists _ (hlater broadcast List.mem_cons_self)

/-- The legacy event of a new order adds its entry. -/
theorem receive_order {arrival : ℕ → Arrival} {broadcasts : List Broadcast} {T B : Id}
    (order : Order)
    (h : ∃ tickets, receive arrival broadcasts = some tickets ∧ Lists tickets itemIds) :
    ∃ tickets, receive arrival (broadcasts ++ [⟨T, B, "order.created", .order order⟩]) =
        some tickets ∧ Lists tickets (itemIds ++ [order.orderItems.map (·.id)]) := by
  rcases h with ⟨tickets, hreceive, hlists⟩
  rw [receive_concat, hreceive, Option.bind_some]
  exact ⟨_, rfl, hlists.concat _ order⟩

/-- After a wrapper was spread, no board that follows is well formed. -/
theorem handle_malformed {arrival : Arrival} {broadcast : Broadcast} {tickets' : List BoardTicket}
    (hticket : ∃ ticket ∈ tickets, ticket.ticketId = none)
    (h : handle arrival broadcast tickets = some tickets') :
    ∃ ticket ∈ tickets', ticket.ticketId = none := by
  rcases hticket with ⟨ticket, hticket, hnone⟩
  have hitems : ∀ f, mapItems f tickets = some tickets' →
      ∃ ticket ∈ tickets', ticket.ticketId = none := by
    intro f hmap
    unfold mapItems at hmap
    split at hmap
    · cases hmap
      exact ⟨_, List.mem_map_of_mem hticket, hnone⟩
    · cases hmap
  unfold handle at h
  split at h
  · cases h
    exact ⟨ticket, List.mem_append_left _ hticket, hnone⟩
  split at h
  · split at h
    · cases h
      refine ⟨_, List.mem_map_of_mem hticket, ?_⟩
      unfold withPriority
      split <;> exact hnone
    · cases h
      exact ⟨ticket, hticket, hnone⟩
  split at h
  · split at h
    · cases h
      exact ⟨ticket, List.mem_append_left _ hticket, hnone⟩
    · cases h
      exact ⟨ticket, hticket, hnone⟩
  split at h
  · exact hitems _ h
  split at h
  · split at h
    · exact hitems _ h
    · cases h
      exact ⟨ticket, hticket, hnone⟩
  · cases h
    exact ⟨ticket, hticket, hnone⟩

/-- A board with a spread wrapper stays malformed, or throws. -/
theorem receive_malformed {arrival : ℕ → Arrival} {broadcasts later : List Broadcast}
    {tickets' : List BoardTicket} (hreceive : receive arrival broadcasts = some tickets)
    (hticket : ∃ ticket ∈ tickets, ticket.ticketId = none)
    (h : receive arrival (broadcasts ++ later) = some tickets') :
    ∃ ticket ∈ tickets', ticket.ticketId = none := by
  induction later using List.reverseRecOn generalizing tickets' with
  | nil =>
      rw [List.append_nil, hreceive] at h
      cases h
      exact hticket
  | append_singleton later broadcast ih =>
      rw [← List.append_assoc, receive_concat] at h
      rcases Option.bind_eq_some_iff.mp h with ⟨before, hbefore, hlast⟩
      exact handle_malformed (ih hbefore) hlast

end KDSTerminal
end Eleva
