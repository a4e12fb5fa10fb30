import Eleva.Foundation.Machine
import Eleva.Order.Acceptance
import Eleva.Kds.CookingCalls

/-!
# Kds - The times of a ticket

Every accepted update of a cooking status stamps the queue entry of the order: a start when
an item goes on the stove and the entry has none, an end whenever an item is cooked or
served.  The stamps follow the one item that moves, whatever the other items of the order
do, and the transitions let an item skip the stove.

A ticket is read as its lines and its two times.  {lit}`TimedTicket.update` is what one
accepted call does to it, and {lit}`accepted_update` says that the service does just that.

Main results:

- Lemma {lit}`TimedTicket.kept_update_iff`: when one update keeps the times of a ticket.
- Lemma {lit}`accepted_update`: what an accepted call does to the ticket of its order.
- Theorem {lit}`times_kept_iff`: the times of a run are kept exactly when every call is timely.
- Theorem {lit}`meal_times_not_kept`: a ticket that ends before it is started.
-/

namespace Eleva
namespace KdsService

open Foundation Database OrderService

/-! ## A ticket and its times -/

/-- An item of a ticket and how far it is. -/
structure CookingLine where
  id : Id
  status : CookingStatus
deriving DecidableEq, Repr

/-- The items of an order, and the times of its queue entry. -/
structure TimedTicket where
  lines : List CookingLine
  startedCookingAt : Option Timestamp
  completedCookingAt : Option Timestamp
deriving DecidableEq, Repr

/-- The item has left the stove. -/
def IsDone (status : CookingStatus) : Prop :=
  status = .COOKED ∨ status = .SERVED

instance (status : CookingStatus) : Decidable (IsDone status) :=
  inferInstanceAs (Decidable (_ ∨ _))

theorem isDone_iff {status : CookingStatus} : IsDone status ↔ 2 ≤ cookingRank status := by
  cases status <;> decide

namespace TimedTicket

/-- What the times of a ticket say of its items. -/
structure Kept (ticket : TimedTicket) : Prop where
  completed_iff : ticket.completedCookingAt.isSome = true ↔
    ∀ line ∈ ticket.lines, IsDone line.status
  started : (∃ line ∈ ticket.lines, line.status ≠ .PENDING) →
    ticket.startedCookingAt.isSome = true
  ordered : ∀ start ∈ ticket.startedCookingAt, ∀ stop ∈ ticket.completedCookingAt, start ≤ stop

/-- The ticket after an update of an item; {lit}`stamped` tells whether the stamp was stored. -/
def update (ticket : TimedTicket) (id : Id) (next : CookingStatus) (stamped : Bool)
    (now : Timestamp) : TimedTicket where
  lines := ticket.lines.map fun line =>
    if line.id = id then { line with status := next } else line
  startedCookingAt :=
    if stamped = true ∧ next = .PREPARING ∧ ticket.startedCookingAt = none then some now
    else ticket.startedCookingAt
  completedCookingAt :=
    if stamped = true ∧ IsDone next then some now else ticket.completedCookingAt

/-- All items but the one with the id are done. -/
def RestDone (ticket : TimedTicket) (id : Id) : Prop :=
  ∀ line ∈ ticket.lines, line.id ≠ id → IsDone line.status

/-- The item with the id is done. -/
def ItemDone (ticket : TimedTicket) (id : Id) : Prop :=
  ∀ line ∈ ticket.lines, line.id = id → IsDone line.status

/-- An update that the stamps can follow: a start is stored unless the ticket has one, an item
leaves the stove of a ticket that was started, and the end is stored with the last item. -/
structure Timely (ticket : TimedTicket) (id : Id) (next : CookingStatus) (stamped : Bool) :
    Prop where
  start : next = .PREPARING → stamped = true ∨ ticket.startedCookingAt.isSome = true
  started : IsDone next → ticket.startedCookingAt.isSome = true
  last : IsDone next → stamped = true → ticket.RestDone id
  again : IsDone next → stamped = false → ticket.RestDone id → ticket.ItemDone id

instance (ticket : TimedTicket) (id : Id) : Decidable (ticket.RestDone id) :=
  inferInstanceAs (Decidable (∀ line ∈ ticket.lines, _))

instance (ticket : TimedTicket) (id : Id) : Decidable (ticket.ItemDone id) :=
  inferInstanceAs (Decidable (∀ line ∈ ticket.lines, _))

instance (ticket : TimedTicket) (id : Id) (next : CookingStatus) (stamped : Bool) :
    Decidable (ticket.Timely id next stamped) :=
  decidable_of_iff
    ((next = .PREPARING → stamped = true ∨ ticket.startedCookingAt.isSome = true) ∧
      (IsDone next → ticket.startedCookingAt.isSome = true) ∧
      (IsDone next → stamped = true → ticket.RestDone id) ∧
      (IsDone next → stamped = false → ticket.RestDone id → ticket.ItemDone id))
    ⟨fun ⟨start, started, last, again⟩ => ⟨start, started, last, again⟩,
      fun h => ⟨h.start, h.started, h.last, h.again⟩⟩

section Update

variable {ticket : TimedTicket} {id : Id} {next : CookingStatus} {stamped : Bool}
  {now : Timestamp}

/-- Without a stamp that ends the ticket its end stays. -/
theorem completed_update (hstays : ¬ (stamped = true ∧ IsDone next)) :
    (ticket.update id next stamped now).completedCookingAt = ticket.completedCookingAt :=
  if_neg hstays

theorem mem_update_lines {line : CookingLine} :
    line ∈ (ticket.update id next stamped now).lines ↔
      (line ∈ ticket.lines ∧ line.id ≠ id) ∨
        (line.id = id ∧ line.status = next ∧ ∃ old ∈ ticket.lines, old.id = id) := by
  unfold update
  simp only [List.mem_map]
  constructor
  · rintro ⟨old, hold, rfl⟩
    by_cases hid : old.id = id
    · rw [if_pos hid]
      exact Or.inr ⟨hid, rfl, old, hold, hid⟩
    · rw [if_neg hid]
      exact Or.inl ⟨hold, hid⟩
  · rintro (⟨hold, hid⟩ | ⟨hid, hstatus, old, hold, hsame⟩)
    · exact ⟨line, hold, if_neg hid⟩
    · refine ⟨old, hold, ?_⟩
      rw [if_pos hsame, ← hstatus, hsame, ← hid]

/-- After an update all items are done when the new status is, and all other items are. -/
theorem allDone_update_iff (hmem : ∃ line ∈ ticket.lines, line.id = id) :
    (∀ line ∈ (ticket.update id next stamped now).lines, IsDone line.status) ↔
      IsDone next ∧ ticket.RestDone id := by
  constructor
  · intro h
    refine ⟨h ⟨id, next⟩ (mem_update_lines.mpr (Or.inr ⟨rfl, rfl, hmem⟩)), ?_⟩
    exact fun line hline hid => h line (mem_update_lines.mpr (Or.inl ⟨hline, hid⟩))
  · rintro ⟨hnext, hrest⟩ line hline
    rcases mem_update_lines.mp hline with ⟨hold, hid⟩ | ⟨_, hstatus, _⟩
    · exact hrest line hold hid
    · rw [hstatus]
      exact hnext

theorem allDone_iff :
    (∀ line ∈ ticket.lines, IsDone line.status) ↔ ticket.RestDone id ∧ ticket.ItemDone id := by
  constructor
  · exact fun h => ⟨fun line hline _ => h line hline, fun line hline _ => h line hline⟩
  · rintro ⟨hrest, hitem⟩ line hline
    by_cases hid : line.id = id
    · exact hitem line hline hid
    · exact hrest line hline hid

/-- An item moves to a status that is not done from one that is not done either. -/
theorem not_itemDone (hmem : ∃ line ∈ ticket.lines, line.id = id)
    (hforward : ∀ line ∈ ticket.lines, line.id = id → cookingRank line.status ≤ cookingRank next)
    (hnext : ¬ IsDone next) : ¬ ticket.ItemDone id := by
  rcases hmem with ⟨line, hline, hid⟩
  intro hdone
  refine hnext (isDone_iff.mpr ?_)
  exact (isDone_iff.mp (hdone line hline hid)).trans (hforward line hline hid)

/-- When an update keeps the end of a ticket. -/
theorem completed_update_iff (h : ticket.Kept) (hmem : ∃ line ∈ ticket.lines, line.id = id)
    (hforward : ∀ line ∈ ticket.lines, line.id = id →
      cookingRank line.status ≤ cookingRank next) :
    ((ticket.update id next stamped now).completedCookingAt.isSome = true ↔
        ∀ line ∈ (ticket.update id next stamped now).lines, IsDone line.status) ↔
      (IsDone next → stamped = true → ticket.RestDone id) ∧
        (IsDone next → stamped = false → ticket.RestDone id → ticket.ItemDone id) := by
  have hbefore : ticket.completedCookingAt.isSome = true ↔
      ticket.RestDone id ∧ ticket.ItemDone id := h.completed_iff.trans allDone_iff
  rw [allDone_update_iff hmem]
  by_cases hnext : IsDone next
  · cases stamped with
    | true => simp [update, hnext]
    | false =>
        rw [completed_update fun hboth => Bool.false_ne_true hboth.1, hbefore]
        simp only [hnext, true_and, forall_const, Bool.false_eq_true, false_implies]
        constructor
        · exact fun hiff hrest => (hiff.mpr hrest).2
        · exact fun himp => ⟨And.left, fun hrest => ⟨hrest, himp hrest⟩⟩
  · have hopen := not_itemDone hmem hforward hnext
    rw [completed_update fun hboth => hnext hboth.2, hbefore]
    simp [hnext, hopen]

/-- When an update keeps the start of a ticket. -/
theorem started_update_iff (h : ticket.Kept) (hmem : ∃ line ∈ ticket.lines, line.id = id) :
    ((∃ line ∈ (ticket.update id next stamped now).lines, line.status ≠ .PENDING) →
        (ticket.update id next stamped now).startedCookingAt.isSome = true) ↔
      (next = .PREPARING → stamped = true ∨ ticket.startedCookingAt.isSome = true) ∧
        (IsDone next → ticket.startedCookingAt.isSome = true) := by
  have hmoved : next ≠ .PENDING →
      ∃ line ∈ (ticket.update id next stamped now).lines, line.status ≠ .PENDING :=
    fun hnext => ⟨⟨id, next⟩, mem_update_lines.mpr (Or.inr ⟨rfl, rfl, hmem⟩), hnext⟩
  by_cases hstove : next = .PREPARING
  · subst hstove
    have hafter : (ticket.update id .PREPARING stamped now).startedCookingAt.isSome = true ↔
        stamped = true ∨ ticket.startedCookingAt.isSome = true := by
      unfold update
      cases stamped <;> cases ticket.startedCookingAt <;> simp
    rw [hafter]
    constructor
    · refine fun himp => ⟨fun _ => himp (hmoved (by decide)), fun hdone => ?_⟩
      cases hdone <;> contradiction
    · exact fun himp _ => himp.1 rfl
  · have hold : (ticket.update id next stamped now).startedCookingAt =
        ticket.startedCookingAt := if_neg fun hboth => hstove hboth.2.1
    rw [hold]
    constructor
    · intro himp
      refine ⟨fun hnext => absurd hnext hstove, fun hdone => himp (hmoved ?_)⟩
      rintro rfl
      cases hdone <;> contradiction
    · rintro ⟨_, hdone⟩ ⟨line, hline, hstatus⟩
      rcases mem_update_lines.mp hline with ⟨holdline, _⟩ | ⟨_, hsame, _⟩
      · exact h.started ⟨line, holdline, hstatus⟩
      · rw [hsame] at hstatus
        cases next with
        | PENDING => exact absurd rfl hstatus
        | PREPARING => exact absurd rfl hstove
        | COOKED => exact hdone (Or.inl rfl)
        | SERVED => exact hdone (Or.inr rfl)

/-- An update never stores an end before the start. -/
theorem ordered_update (h : ticket.Kept) (hpast : ∀ start ∈ ticket.startedCookingAt, start ≤ now)
    (hmem : ∃ line ∈ ticket.lines, line.id = id)
    (hforward : ∀ line ∈ ticket.lines, line.id = id →
      cookingRank line.status ≤ cookingRank next) :
    ∀ start ∈ (ticket.update id next stamped now).startedCookingAt,
      ∀ stop ∈ (ticket.update id next stamped now).completedCookingAt, start ≤ stop := by
  intro start hstart stop hstop
  by_cases hnext : IsDone next
  · have hold : (ticket.update id next stamped now).startedCookingAt =
        ticket.startedCookingAt := by
      refine if_neg ?_
      rintro ⟨_, rfl, _⟩
      cases hnext <;> contradiction
    rw [hold] at hstart
    cases stamped with
    | true =>
        have hnow : (ticket.update id next true now).completedCookingAt = some now :=
          if_pos ⟨rfl, hnext⟩
        rw [hnow] at hstop
        cases hstop
        exact hpast start hstart
    | false =>
        rw [completed_update fun hboth => Bool.false_ne_true hboth.1] at hstop
        exact h.ordered start hstart stop hstop
  · -- an item that is not done keeps the ticket from having an end
    rw [completed_update fun hboth => hnext hboth.2] at hstop
    have hall := h.completed_iff.mp (Option.isSome_of_mem hstop)
    exact absurd (allDone_iff.mp hall).2 (not_itemDone hmem hforward hnext)

/-- An update that does not take its item back keeps the times of a ticket exactly when it is
timely. -/
theorem kept_update_iff (h : ticket.Kept) (hpast : ∀ start ∈ ticket.startedCookingAt, start ≤ now)
    (hmem : ∃ line ∈ ticket.lines, line.id = id)
    (hforward : ∀ line ∈ ticket.lines, line.id = id →
      cookingRank line.status ≤ cookingRank next) :
    (ticket.update id next stamped now).Kept ↔ ticket.Timely id next stamped := by
  constructor
  · intro hkept
    rcases (completed_update_iff h hmem hforward).mp hkept.completed_iff with ⟨hlast, hagain⟩
    rcases (started_update_iff h hmem).mp hkept.started with ⟨hstart, hstarted⟩
    exact ⟨hstart, hstarted, hlast, hagain⟩
  · intro htimely
    exact ⟨(completed_update_iff h hmem hforward).mpr ⟨htimely.last, htimely.again⟩,
      (started_update_iff h hmem).mpr ⟨htimely.start, htimely.started⟩,
      ordered_update h hpast hmem hforward⟩

/-- The start of a ticket stays in the past. -/
theorem start_le_update (hpast : ∀ start ∈ ticket.startedCookingAt, start ≤ now) :
    ∀ start ∈ (ticket.update id next stamped now).startedCookingAt, start ≤ now := by
  intro start hstart
  unfold update at hstart
  simp only at hstart
  split at hstart
  · cases hstart
    exact Int.le_refl _
  · exact hpast start hstart

end Update

end TimedTicket

/-! ## The ticket of an order -/

/-- The order of a tenant. -/
def orderOf (tenantId orderId : Id) (db : Db) : Option Order :=
  db.orders.find? fun o => o.id == orderId && o.tenantId == tenantId

/-- The queue entry of an order. -/
def entryOf (tenantId orderId : Id) (db : Db) : Option KitchenQueue :=
  db.kitchenQueues.find? fun q => q.orderId == orderId && q.tenantId == tenantId

def timedTicket (order : Order) (kq : KitchenQueue) : TimedTicket where
  lines := order.orderItems.map fun item => ⟨item.id, item.cookingStatus⟩
  startedCookingAt := kq.startedCookingAt
  completedCookingAt := kq.completedCookingAt

/-- The ticket of an order that has an entry. -/
def ticketAt (tenantId orderId : Id) (db : Db) : Option TimedTicket :=
  match orderOf tenantId orderId db, entryOf tenantId orderId db with
  | some order, some kq => some (timedTicket order kq)
  | _, _ => none

theorem ticketAt_eq_some {tenantId orderId : Id} {db : Db} {ticket : TimedTicket} :
    ticketAt tenantId orderId db = some ticket ↔
      ∃ order kq, orderOf tenantId orderId db = some order ∧
        entryOf tenantId orderId db = some kq ∧ timedTicket order kq = ticket := by
  unfold ticketAt
  cases orderOf tenantId orderId db with
  | none => simp
  | some order =>
      cases entryOf tenantId orderId db with
      | none => simp
      | some kq => simp

/-- The keys of the rows: no two items share an id, and the queue keeps to its constraints. -/
structure Keyed (db : Db) : Prop where
  items : ((orderItems db).map (·.id)).Nodup
  queues : kitchenQueues.Valid db

section Stamps

variable {env : KdsEnv} {tenantId orderId : Id} {next : CookingStatus} {w : World}
  {kq : KitchenQueue}

/-- Whether the statements that stamp an entry go through. -/
def KdsEnv.stamps (env : KdsEnv) : Bool :=
  !env.fails .queue && !env.fails .stamp

/-- The entry with the stamp of a status. -/
def stampedEntry (env : KdsEnv) (next : CookingStatus) (kq : KitchenQueue) : KitchenQueue :=
  if env.stamps then (stampPayload env next kq).apply kq else kq

/-- Rows that are put in the place of the queue. -/
def withQueues (rows : List KitchenQueue) (w : World) : World :=
  { w with db := { w.db with kitchenQueues := rows } }

theorem find_entry (hT : tenantId ≠ "") :
    kitchenQueues.run (prisma.kitchenQueue.findFirst (env.inTenant tenantId)
      { rest := fun q => q.orderId == orderId && q.tenantId == tenantId }) w =
        (.ok (entryOf tenantId orderId w.db), w) := by
  rw [TableOf.run_client_findFirst (inTenant_sees env hT) (by decide) rfl]
  unfold entryOf
  congr 3
  funext q
  rw [Where.admits_inScope _ _ rfl]
  simp only [Where.admits, ColumnKey.admits, prisma.kitchenQueue, TenantRow.tenantId, visible,
    owned, Option.all_none, Option.all_some, Bool.true_and, Bool.and_true]
  cases q.orderId == orderId
  · rfl
  · simp

/-- An entry is the one of a tenant and an id. -/
theorem ownEntry_iff {id : Id} {q : KitchenQueue} :
    TableOf.ownRow (some tenantId) id q = true ↔ q.id = id ∧ q.tenantId = tenantId := by
  simp only [TableOf.ownRow, visible, owned, TenantRow.id, TenantRow.tenantId, Option.all_some,
    Bool.and_eq_true, beq_iff_eq, Option.some.injEq]
  exact and_congr_left' eq_comm

theorem entryOf_tenant (hentry : entryOf tenantId orderId w.db = some kq) :
    kq.tenantId = tenantId := by
  have h := List.find?_some hentry
  simp only [Bool.and_eq_true, beq_iff_eq] at h
  exact h.2

/-- A status that stores no stamp leaves the entry. -/
theorem stampPayload_idle
    (hidle : ¬ ((next = .PREPARING ∧ kq.startedCookingAt = none) ∨ next = .COOKED ∨
      next = .SERVED)) : (stampPayload env next kq).apply kq = kq := by
  have hstart : ¬ (next = .PREPARING ∧ kq.startedCookingAt = none) := fun h => hidle (Or.inl h)
  have hstop : ¬ (next = .COOKED ∨ next = .SERVED) := fun h => hidle (Or.inr h)
  simp only [stampPayload, Payload.apply, if_neg hstart, if_neg hstop]

/-- The rows with a stamped entry. -/
theorem entry_map_stamp (hentry : entryOf tenantId orderId w.db = some kq) :
    (w.db.kitchenQueues.map fun q => if TableOf.ownRow (some tenantId) kq.id q then
      (stampPayload env next kq).apply q else q).find?
        (fun q => q.orderId == orderId && q.tenantId == tenantId) =
      some ((stampPayload env next kq).apply kq) := by
  have hown : TableOf.ownRow (some tenantId) kq.id kq = true :=
    ownEntry_iff.mpr ⟨rfl, entryOf_tenant hentry⟩
  rw [List.find?_map]
  have hsame : ((fun q : KitchenQueue => q.orderId == orderId && q.tenantId == tenantId) ∘
      fun q => if TableOf.ownRow (some tenantId) kq.id q then
        (stampPayload env next kq).apply q else q) =
      fun q => q.orderId == orderId && q.tenantId == tenantId := by
    funext q
    simp only [Function.comp_apply]
    split <;> rfl
  rw [hsame]
  unfold entryOf at hentry
  rw [hentry, Option.map_some, if_pos hown]

/-- An update of an entry that does not touch its keys goes through. -/
theorem update_entry {d : Payload KitchenQueue} {id : Id} (hT : tenantId ≠ "")
    (hqueues : kitchenQueues.Valid w.db) (hnested : d.nested = {})
    (hid : ∀ q, (d.apply q).id = q.id) (horder : ∀ q, (d.apply q).orderId = q.orderId)
    (hrow : ∃ row ∈ w.db.kitchenQueues, row.id = id ∧ row.tenantId = tenantId) :
    ∃ target, kitchenQueues.run (kitchenQueueRepository.update (env.inTenant tenantId) id d) w =
      (.ok target, withQueues (w.db.kitchenQueues.map fun q =>
        if TableOf.ownRow (some tenantId) id q then d.apply q else q) w) := by
  have hfound : ∃ target, (kitchenQueues.get w.db).find?
      (TableOf.ownRow (some tenantId) id) = some target := by
    rcases hrow with ⟨row, hmem, hkeys⟩
    rw [← Option.isSome_iff_exists, List.find?_isSome]
    exact ⟨row, hmem, ownEntry_iff.mpr hkeys⟩
  rcases hfound with ⟨target, hfound⟩
  refine ⟨some (d.apply target), TableOf.run_repository_update_returns id (inTenant_sees env hT)
    (by decide) rfl (fun _ => rfl) hnested hqueues (fun key hkey q => ?_) (fun q => ?_) hfound⟩
  · rw [List.mem_singleton.mp hkey]
    exact congrArg some (hid q)
  · simp only [kitchenQueues, horder]

/-- The queue is valid when its ids are distinct and its entries name stored orders. -/
theorem queues_valid_iff {db : Db} :
    kitchenQueues.Valid db ↔ (db.kitchenQueues.map (·.id)).Nodup ∧
      ∀ q ∈ db.kitchenQueues, db.orders.any (fun o => o.id == q.orderId) = true := by
  unfold TableOf.Valid
  exact and_congr kitchenQueues_accepts Iff.rfl

/-- Rewriting entries without touching their keys keeps the queue valid. -/
theorem queues_map {f : KitchenQueue → KitchenQueue} (hqueues : kitchenQueues.Valid w.db)
    (hid : ∀ q, (f q).id = q.id) (horder : ∀ q, (f q).orderId = q.orderId) :
    kitchenQueues.Valid (withQueues (w.db.kitchenQueues.map f) w).db := by
  rcases queues_valid_iff.mp hqueues with ⟨hids, horders⟩
  refine queues_valid_iff.mpr ⟨?_, fun q hq => ?_⟩
  · have hsame : (w.db.kitchenQueues.map f).map (·.id) = w.db.kitchenQueues.map (·.id) := by
      rw [List.map_map]
      exact List.map_congr_left fun q _ => hid q
    simp only [withQueues, hsame]
    exact hids
  · rcases List.mem_map.mp hq with ⟨old, hold, rfl⟩
    rw [horder]
    exact horders old hold

/-- Stamping the entry of an order. -/
theorem stamp_entry (hT : tenantId ≠ "") (hqueues : kitchenQueues.Valid w.db)
    (hentry : entryOf tenantId orderId w.db = some kq) :
    ∃ rows, (updateKitchenQueueTimestamps env tenantId orderId next w).2 = withQueues rows w ∧
      rows.find? (fun q => q.orderId == orderId && q.tenantId == tenantId) =
        some (stampedEntry env next kq) ∧
      kitchenQueues.Valid (withQueues rows w).db := by
  unfold updateKitchenQueueTimestamps
  rw [Fallible.orElse_pure_state]
  cases hqueue : env.fails .queue with
  | true =>
      refine ⟨w.db.kitchenQueues, ?_, ?_, hqueues⟩
      · rfl
      · rw [stampedEntry, if_neg (by simp [KdsEnv.stamps, hqueue])]
        exact hentry
  | false =>
      rw [attempt_false, Fallible.bind_of_ok (find_entry hT), hentry]
      dsimp only
      split
      case isFalse hidle =>
        refine ⟨w.db.kitchenQueues, rfl, ?_, hqueues⟩
        rw [stampedEntry, stampPayload_idle hidle, ite_self]
        exact hentry
      case isTrue hstamp =>
        cases hstore : env.fails .stamp with
        | true =>
            refine ⟨w.db.kitchenQueues, rfl, ?_, hqueues⟩
            rw [stampedEntry, if_neg (by simp [KdsEnv.stamps, hstore])]
            exact hentry
        | false =>
            have hrow : ∃ row ∈ w.db.kitchenQueues, row.id = kq.id ∧ row.tenantId = tenantId :=
              ⟨kq, List.mem_of_find?_eq_some hentry, rfl, entryOf_tenant hentry⟩
            have hrun := @update_entry env tenantId w (stampPayload env next kq) kq.id hT hqueues
              rfl (fun _ => rfl) (fun _ => rfl) hrow
            rcases hrun with ⟨target, hupdate⟩
            rw [attempt_false, Fallible.bind_of_ok hupdate]
            refine ⟨_, rfl, ?_, queues_map hqueues (fun q => ?_) fun q => ?_⟩
            · rw [stampedEntry, if_pos (by simp [KdsEnv.stamps, hqueue, hstore])]
              exact entry_map_stamp hentry
            · split <;> rfl
            · split <;> rfl

end Stamps

/-! ## What an accepted update does -/

section Accepted

variable {env : KdsEnv} {tenantId orderId orderItemId : Id} {next : CookingStatus}
  {w w' : World} {order : Order} {kq : KitchenQueue}

/-- An update that passes its check has named a status and runs under a tenant. -/
theorem checkItem_names {status : String} {item : OrderItem}
    (h : checkItem env orderItemId tenantId status w = (.ok (item, next), w')) :
    cookingStatusOf status = some next ∧ tenantId ≠ "" := by
  unfold checkItem at h
  cases hstatus : cookingStatusOf status with
  | none =>
      rw [hstatus] at h
      cases h
  | some next' =>
      rw [hstatus] at h
      rcases Fallible.bind_eq_ok.mp h with ⟨found, s, hfind, hrest⟩
      constructor
      · cases found with
        | none => cases hrest
        | some item' =>
            rcases Fallible.bind_eq_ok.mp hrest with ⟨_, s', _, hpure⟩
            cases hpure
            rfl
      · rintro rfl
        have hrun := (attempt_eq_ok.mp hfind).2
        unfold runItems BaseTenantRepository.findById at hrun
        rw [findFirst_without_tenant] at hrun
        cases hrun

/-- The status write keeps the ids of the items. -/
theorem rewriteItem_id (item : OrderItem) :
    (rewriteItem tenantId orderItemId next item).id = item.id := by
  unfold rewriteItem
  split <;> rfl

theorem orderItems_withStatus :
    orderItems (withStatus tenantId orderItemId next w).db =
      (orderItems w.db).map (rewriteItem tenantId orderItemId next) :=
  orderItems_map _ _

/-- The status write keeps the keys of the rows. -/
theorem keyed_withStatus (h : Keyed w.db) :
    Keyed (withStatus tenantId orderItemId next w).db := by
  constructor
  · rw [orderItems_withStatus, List.map_map]
    have hids : ((·.id) ∘ rewriteItem tenantId orderItemId next) = fun i : OrderItem => i.id :=
      funext rewriteItem_id
    rw [hids]
    exact h.items
  · rcases queues_valid_iff.mp h.queues with ⟨hids, horders⟩
    refine queues_valid_iff.mpr ⟨hids, fun q hq => ?_⟩
    have hstored := horders q hq
    simp only [withStatus, List.any_map]
    exact hstored

theorem orderOf_withStatus (horder : orderOf tenantId orderId w.db = some order) :
    orderOf tenantId orderId (withStatus tenantId orderItemId next w).db =
      some { order with
        orderItems := order.orderItems.map (rewriteItem tenantId orderItemId next) } := by
  unfold orderOf withStatus at *
  rw [List.find?_map]
  have hsame : ((fun o : Order => o.id == orderId && o.tenantId == tenantId) ∘ fun o : Order =>
      { o with orderItems := o.orderItems.map (rewriteItem tenantId orderItemId next) }) =
        fun o => o.id == orderId && o.tenantId == tenantId := rfl
  rw [hsame, horder, Option.map_some]

/-- Two stored orders do not share an item. -/
theorem order_of_item (hkeyed : Keyed w.db) {first second : Order} {a b : OrderItem}
    (hfirst : first ∈ w.db.orders) (hsecond : second ∈ w.db.orders)
    (ha : a ∈ first.orderItems) (hb : b ∈ second.orderItems) (hid : a.id = b.id) :
    first = second := by
  have hnodup := hkeyed.items
  unfold orderItems at hnodup
  rw [List.map_flatMap, List.nodup_flatMap] at hnodup
  by_contra hne
  have hsymm : Std.Symm (Function.onFun List.Disjoint fun o : Order =>
      o.orderItems.map (·.id)) := ⟨fun _ _ h => List.Disjoint.symm h⟩
  have hdisjoint := hnodup.2.forall hfirst hsecond hne
  exact hdisjoint (List.mem_map_of_mem ha) (hid ▸ List.mem_map_of_mem hb)

/-- The lookup of the parent of an item finds its order. -/
theorem parent_of_item (hkeyed : Keyed w.db) (horder : orderOf tenantId orderId w.db = some order)
    {item : OrderItem} (hitem : ∃ i ∈ order.orderItems, i.id = item.id) :
    (w.db.orders.find? fun o => o.tenantId == tenantId && o.orderItems.any fun i =>
      i.id == item.id) = some order := by
  have hmem := List.mem_of_find?_eq_some horder
  have htenant : order.tenantId = tenantId := by
    have h := List.find?_some horder
    simp only [Bool.and_eq_true, beq_iff_eq] at h
    exact h.2
  have hsome : (w.db.orders.find? fun o => o.tenantId == tenantId && o.orderItems.any fun i =>
      i.id == item.id).isSome = true := by
    rw [List.find?_isSome]
    refine ⟨order, hmem, ?_⟩
    simp only [htenant, beq_self_eq_true, Bool.true_and, List.any_eq_true, beq_iff_eq]
    exact hitem
  rcases Option.isSome_iff_exists.mp hsome with ⟨found, hfound⟩
  have hholds := List.find?_some hfound
  simp only [Bool.and_eq_true, List.any_eq_true, beq_iff_eq] at hholds
  rcases hholds.2 with ⟨i, hi, hsame⟩
  rcases hitem with ⟨j, hj, hid⟩
  rw [hfound, order_of_item hkeyed (List.mem_of_find?_eq_some hfound) hmem hi hj
    (hsame.trans hid.symm)]

/-- The broadcasts leave the database. -/
theorem broadcastItem_db (order : Order) (updated : OrderItem) :
    (broadcastItem env order next updated w).2.db = w.db := by
  have hsend : ∀ event payload, Fallible.Keeps (fun s => s.db = w.db)
      (broadcastOrderEvent order.tenantId order.branchId event payload) := by
    intro event payload
    unfold broadcastOrderEvent
    exact Fallible.Keeps.ite (fun _ => Fallible.Keeps.pure _)
      fun _ => Fallible.Keeps.modify fun _ hs => hs
  have hall : Fallible.Keeps (fun s => s.db = w.db) (broadcastItem env order next updated) := by
    refine Fallible.Keeps.orElse (Fallible.Keeps.ite (fun _ => attempt_keeps _ ?_)
      fun _ => Fallible.Keeps.pure _) (Fallible.Keeps.pure _)
    exact Fallible.Keeps.bind (hsend _ _) fun _ => hsend _ _
  exact hall w rfl

/-- What follows the status write stamps the entry of the order. -/
theorem announce_ticket {item updated : OrderItem} {answer : CookingAnswer}
    (hkeyed : Keyed w.db) (hT : tenantId ≠ "")
    (horder : orderOf tenantId orderId w.db = some order)
    (hentry : entryOf tenantId orderId w.db = some kq)
    (hitem : ∃ i ∈ order.orderItems, i.id = item.id)
    (h : announce env tenantId item next updated w = (.ok answer, w')) :
    ticketAt tenantId orderId w'.db = some (timedTicket order (stampedEntry env next kq)) ∧
      Keyed w'.db := by
  have hid : order.id = orderId := by
    have hholds := List.find?_some horder
    simp only [Bool.and_eq_true, beq_iff_eq] at hholds
    exact hholds.1
  rcases Fallible.bind_eq_ok.mp h with ⟨found, s, hparent, hrest⟩
  rcases Fallible.reads_eq_ok.mp (attempt_eq_ok.mp hparent).2 with ⟨hfound, rfl⟩
  cases hfound
  rw [parent_of_item hkeyed horder hitem] at hrest
  rcases Fallible.bind_eq_ok.mp hrest with ⟨_, s₂, hstamp, hlater⟩
  rcases Fallible.bind_eq_ok.mp hlater with ⟨_, s₃, hsend, hpure⟩
  cases hpure
  rw [hid] at hstamp
  rcases @stamp_entry env tenantId orderId next s kq hT hkeyed.queues hentry with
    ⟨rows, hstamped, hrow, hvalid⟩
  have hs₂ : s₂ = withQueues rows s := by
    rw [← hstamped, hstamp]
  have hdb : w'.db = (withQueues rows s).db := by
    have hkept := @broadcastItem_db env next s₂ order updated
    rw [hsend] at hkept
    rw [hkept, hs₂]
  rw [hdb]
  exact ⟨ticketAt_eq_some.mpr ⟨order, _, horder, hrow, rfl⟩, hkeyed.items, hvalid⟩

/-- The lines of an order once an item of it is rewritten. -/
theorem timedTicket_rewrite {item : OrderItem}
    (hsame : ∀ i ∈ order.orderItems, i.id = orderItemId → i = item)
    (hown : TableOf.ownRow (some tenantId) orderItemId item = true) :
    timedTicket { order with
        orderItems := order.orderItems.map (rewriteItem tenantId orderItemId next) }
        (stampedEntry env next kq) =
      (timedTicket order kq).update orderItemId next env.stamps env.now := by
  have hlines : (order.orderItems.map (rewriteItem tenantId orderItemId next)).map
      (fun i => (⟨i.id, i.cookingStatus⟩ : CookingLine)) =
        (order.orderItems.map fun i => (⟨i.id, i.cookingStatus⟩ : CookingLine)).map fun line =>
          if line.id = orderItemId then { line with status := next } else line := by
    rw [List.map_map, List.map_map]
    refine List.map_congr_left fun i hi => ?_
    simp only [Function.comp_apply, rewriteItem]
    by_cases hid : i.id = orderItemId
    · rw [hsame i hi hid, if_pos hown, if_pos ((hsame i hi hid) ▸ hid)]
    · rw [if_neg hid, if_neg fun h => hid (ownRow_iff.mp h).1]
  unfold timedTicket TimedTicket.update
  simp only [hlines, TimedTicket.mk.injEq, true_and]
  unfold stampedEntry
  cases env.stamps with
  | false => simp
  | true => simp [stampPayload, Payload.apply, IsDone]

/-- What an accepted update does to the ticket of its order. -/
theorem accepted_update {status : String} {answer : CookingAnswer} {ticket : TimedTicket}
    (hkeyed : Keyed w.db) (hticket : ticketAt tenantId orderId w.db = some ticket)
    (hitem : ∃ line ∈ ticket.lines, line.id = orderItemId)
    (h : updateCookingStatus env orderItemId tenantId status w = (.ok answer, w')) :
    ∃ next, cookingStatusOf status = some next ∧
      (∀ line ∈ ticket.lines, line.id = orderItemId →
        cookingRank line.status ≤ cookingRank next) ∧
      ticketAt tenantId orderId w'.db =
        some (ticket.update orderItemId next env.stamps env.now) ∧ Keyed w'.db := by
  rcases ticketAt_eq_some.mp hticket with ⟨order, kq, horder, hentry, rfl⟩
  rcases Fallible.bind_eq_ok.mp h with ⟨⟨item, next⟩, s, hcheck, hrest⟩
  rcases Fallible.bind_eq_ok.mp hrest with ⟨updated, s', hwrite, hannounce⟩
  have hs : s = w := (checkItem_readsOnly env status).state_eq hcheck
  rw [hs] at hwrite
  rcases checkItem_ok env hcheck with ⟨hfound, hrank⟩
  rcases checkItem_names hcheck with ⟨hstatus, hT⟩
  have hread := List.find?_some hfound
  have hitemId := (ownRow_iff.mp hread).1
  -- the item that was read is the one of the ticket
  have hsame : ∀ i ∈ order.orderItems, i.id = orderItemId → i = item := by
    intro i hi hid
    have hstored : i ∈ orderItems w.db :=
      List.mem_flatMap.mpr ⟨order, List.mem_of_find?_eq_some horder, hi⟩
    exact List.inj_on_of_nodup_map hkeyed.items hstored (List.mem_of_find?_eq_some hfound)
      (hid.trans hitemId.symm)
  have hmine : item ∈ order.orderItems := by
    rcases hitem with ⟨line, hline, hid⟩
    rcases List.mem_map.mp hline with ⟨i, hi, rfl⟩
    rw [← hsame i hi hid]
    exact hi
  have hs' : s' = withStatus tenantId orderItemId next w := by
    rcases @writeItem_cases env orderItemId tenantId next w with ⟨e, herror⟩ | ⟨_, _, hok⟩
    · rw [hwrite] at herror
      cases herror
    · rw [hwrite] at hok
      cases hok
      rfl
  rw [hs'] at hannounce
  have hwritten : ∃ i ∈ order.orderItems.map (rewriteItem tenantId orderItemId next),
      i.id = item.id :=
    ⟨_, List.mem_map_of_mem hmine, rewriteItem_id item⟩
  rcases announce_ticket (keyed_withStatus hkeyed) hT (orderOf_withStatus horder) hentry hwritten
    hannounce with ⟨hafter, hkept⟩
  refine ⟨next, hstatus, fun line hline hid => ?_, ?_, hkept⟩
  · rcases List.mem_map.mp hline with ⟨i, hi, rfl⟩
    rw [hsame i hi hid]
    exact hrank
  · rw [hafter, timedTicket_rewrite hsame hread]

end Accepted

/-! ## Runs -/

/-- The kitchen between two updates, and the time of the last one. -/
structure Shift where
  world : World
  clock : Timestamp

/-- Updates that run one at a time. -/
def cookingTerminal : Machine (CookingCall × KdsEnv) Shift (Except AppError CookingAnswer) where
  step l s :=
    let answered := updateCookingStatus l.2 l.1.orderItemId l.1.tenantId l.1.status s.world
    (answered.1, ⟨answered.2, l.2.now⟩)

section Runs

variable {tenantId orderId : Id}

/-- The call is accepted, for an item of the order, and time has not gone back. -/
structure Accepted (tenantId orderId : Id) (l : CookingCall × KdsEnv) (s : Shift) : Prop where
  tenant : l.1.tenantId = tenantId
  item : ∃ order ∈ orderOf tenantId orderId s.world.db,
    ∃ item ∈ order.orderItems, item.id = l.1.orderItemId
  answered : (cookingTerminal.step l s).1.isOk = true
  later : s.clock ≤ l.2.now

/-- The update is one that the stamps of the ticket can follow. -/
def TimelyCall (tenantId orderId : Id) (l : CookingCall × KdsEnv) (s : Shift) : Prop :=
  ∀ next ∈ cookingStatusOf l.1.status, ∀ ticket ∈ ticketAt tenantId orderId s.world.db,
    ticket.Timely l.1.orderItemId next l.2.stamps

instance (l : CookingCall × KdsEnv) (s : Shift) : Decidable (TimelyCall tenantId orderId l s) :=
  inferInstanceAs (Decidable (∀ next ∈ cookingStatusOf l.1.status, _))

/-- The times of the order's ticket are kept. -/
def TimesKept (tenantId orderId : Id) (s : Shift) : Prop :=
  ∃ ticket, ticketAt tenantId orderId s.world.db = some ticket ∧ ticket.Kept

/-- An order that was just placed: all items are pending and its entry has no times. -/
structure JustPlaced (tenantId orderId : Id) (db : Db) : Prop where
  keyed : Keyed db
  ticket : ∃ ticket, ticketAt tenantId orderId db = some ticket ∧
    (∀ line ∈ ticket.lines, line.status = .PENDING) ∧
    ticket.startedCookingAt = none ∧ ticket.completedCookingAt = none

/-- The rows are keyed, and the times of the ticket are kept and lie in the past. -/
structure OnTime (tenantId orderId : Id) (s : Shift) : Prop where
  keyed : Keyed s.world.db
  ticket : ∃ ticket, ticketAt tenantId orderId s.world.db = some ticket ∧ ticket.Kept ∧
    ∀ start ∈ ticket.startedCookingAt, start ≤ s.clock

/-- What one accepted call does to a ticket that is on time. -/
theorem accepted_step {l : CookingCall × KdsEnv} {s : Shift} (h : OnTime tenantId orderId s)
    (haccepted : Accepted tenantId orderId l s) :
    (TimesKept tenantId orderId (cookingTerminal.step l s).2 ↔ TimelyCall tenantId orderId l s) ∧
      (TimelyCall tenantId orderId l s → OnTime tenantId orderId (cookingTerminal.step l s).2) := by
  rcases h.ticket with ⟨ticket, hticket, hkept, hpast⟩
  rcases hanswer : updateCookingStatus l.2 l.1.orderItemId l.1.tenantId l.1.status s.world with
    ⟨e | answer, w⟩
  · have hok := haccepted.answered
    simp only [cookingTerminal, hanswer] at hok
    cases hok
  have hitem : ∃ line ∈ ticket.lines, line.id = l.1.orderItemId := by
    rcases haccepted.item with ⟨order, horder, item, hitem, hid⟩
    rcases ticketAt_eq_some.mp hticket with ⟨order', kq, horder', _, rfl⟩
    rw [Option.mem_def.mp horder] at horder'
    cases horder'
    exact ⟨_, List.mem_map_of_mem hitem, hid⟩
  rw [haccepted.tenant] at hanswer
  rcases accepted_update h.keyed hticket hitem hanswer with
    ⟨next, hnext, hforward, hafter, hkeyed⟩
  have hnow : ∀ start ∈ ticket.startedCookingAt, start ≤ l.2.now :=
    fun start hstart => (hpast start hstart).trans haccepted.later
  have hiff : (ticket.update l.1.orderItemId next l.2.stamps l.2.now).Kept ↔
      ticket.Timely l.1.orderItemId next l.2.stamps :=
    TimedTicket.kept_update_iff hkept hnow hitem hforward
  have htimely : TimelyCall tenantId orderId l s ↔
      ticket.Timely l.1.orderItemId next l.2.stamps := by
    unfold TimelyCall
    rw [hnext, hticket]
    simp
  have hstep : (cookingTerminal.step l s).2 = ⟨w, l.2.now⟩ := by
    simp only [cookingTerminal, haccepted.tenant, hanswer]
  rw [hstep, htimely]
  refine ⟨?_, fun h' => ⟨hkeyed, _, hafter, hiff.mpr h', TimedTicket.start_le_update hnow⟩⟩
  rw [← hiff]
  unfold TimesKept
  rw [hafter]
  simp

/-- Along accepted calls on the items of an order that was just placed, its times are kept in
every state exactly when the order has an item and every call is timely. -/
theorem times_kept_iff {s : Shift} {calls : List (CookingCall × KdsEnv)}
    (hplaced : JustPlaced tenantId orderId s.world.db)
    (haccepted : cookingTerminal.EachStep (Accepted tenantId orderId) calls s) :
    (∀ pre, pre <+: calls → TimesKept tenantId orderId (cookingTerminal.exec pre s)) ↔
      (∃ order ∈ orderOf tenantId orderId s.world.db, order.orderItems ≠ []) ∧
        cookingTerminal.EachStep (TimelyCall tenantId orderId) calls s := by
  rcases hplaced.ticket with ⟨ticket, hticket, hpending, hstart, hstop⟩
  rcases ticketAt_eq_some.mp hticket with ⟨order, kq, horder, _, hlines⟩
  have hempty : ticket.lines = [] ↔ order.orderItems = [] := by
    rw [← hlines]
    exact List.map_eq_nil_iff
  have hrule : order.orderItems ≠ [] →
      ((∀ pre, pre <+: calls → TimesKept tenantId orderId (cookingTerminal.exec pre s)) ↔
        cookingTerminal.EachStep (TimelyCall tenantId orderId) calls s) := by
    intro hitems
    have hkept : ticket.Kept := by
      rcases List.exists_mem_of_ne_nil _ fun h => hitems (hempty.mp h) with ⟨line, hline⟩
      refine ⟨?_, fun ⟨other, hother, hmoved⟩ => absurd (hpending other hother) hmoved, ?_⟩
      · rw [hstop]
        refine ⟨fun h => (by cases h), fun h => ?_⟩
        have hdone := h line hline
        rw [hpending line hline] at hdone
        cases hdone <;> contradiction
      · rw [hstart]
        exact fun _ h => by cases h
    refine cookingTerminal.prefix_iff_of_eachStep (I := OnTime tenantId orderId)
      (fun s h => ?_) (fun _ _ _ h hacc => accepted_step h hacc)
      ⟨hplaced.keyed, ticket, hticket, hkept, ?_⟩ haccepted
    · rcases h.ticket with ⟨ticket, hticket, hkept, _⟩
      exact ⟨ticket, hticket, hkept⟩
    · rw [hstart]
      exact fun _ h => by cases h
  constructor
  · intro h
    have hitems : order.orderItems ≠ [] := by
      intro hnone
      rcases h [] (List.nil_prefix) with ⟨ticket', hticket', hkept⟩
      rw [Machine.exec_nil, hticket] at hticket'
      cases hticket'
      have hset := hkept.completed_iff.mpr (by rw [hempty.mpr hnone]; simp)
      rw [hstop] at hset
      cases hset
    exact ⟨⟨order, horder, hitems⟩, (hrule hitems).mp h⟩
  · rintro ⟨⟨order', horder', hitems⟩, htimely⟩
    rw [Option.mem_def, horder] at horder'
    cases horder'
    exact (hrule hitems).mpr htimely

end Runs

/-! ## A soup and a salad -/

/-- An order that was just placed, with its queue entry. -/
def placedMeal (items : List Id) : Shift where
  world :=
    { db :=
      { orders := [{ (default : Order) with
          id := "order-1"
          tenantId := "tenant-a"
          branchId := "branch-1"
          status := .PENDING
          orderItems := items.map fun item =>
            { (default : OrderItem) with id := item, tenantId := "tenant-a", productId := item } }]
        kitchenQueues := [{ (default : KitchenQueue) with
          id := "queue-1"
          tenantId := "tenant-a"
          branchId := "branch-1"
          orderId := "order-1" }] } }
  clock := 0

/-- An update of an item at some time. -/
def mealCall (item status : String) (now : Timestamp) : CookingCall × KdsEnv :=
  (⟨item, "tenant-a", status⟩, { kitchenEnv with now := now })

/-- A soup on its way from the stove to the table. -/
def soupCalls : List (CookingCall × KdsEnv) :=
  [mealCall "soup" "PREPARING" 10, mealCall "soup" "COOKED" 20, mealCall "soup" "SERVED" 30]

/-- A soup that needs no stove, and a salad that is started later. -/
def mealCalls : List (CookingCall × KdsEnv) :=
  [mealCall "soup" "COOKED" 10, mealCall "salad" "PREPARING" 20]

theorem placedMeal_placed {items : List Id} (hitems : items.Nodup) :
    JustPlaced "tenant-a" "order-1" (placedMeal items).world.db := by
  have hqueue : (placedMeal items).world.db.orders.any (fun o => o.id == "order-1") = true :=
    List.any_eq_true.mpr ⟨_, List.mem_singleton_self _, beq_self_eq_true _⟩
  refine ⟨⟨?_, queues_valid_iff.mpr ⟨by simp [placedMeal], fun q hq => ?_⟩⟩, _, rfl, ?_, rfl, rfl⟩
  · simpa [orderItems, placedMeal, Function.comp_def] using hitems
  · rw [List.mem_singleton.mp hq]
    exact hqueue
  · intro line hline
    simp only [timedTicket, List.map_map] at hline
    rcases List.mem_map.mp hline with ⟨_, _, rfl⟩
    rfl

theorem soup_accepted :
    cookingTerminal.EachStep (Accepted "tenant-a" "order-1") soupCalls (placedMeal ["soup"]) :=
  ⟨⟨rfl, by decide +kernel, by decide +kernel, by decide +kernel⟩,
    ⟨rfl, by decide +kernel, by decide +kernel, by decide +kernel⟩,
    ⟨rfl, by decide +kernel, by decide +kernel, by decide +kernel⟩, trivial⟩

theorem meal_accepted :
    cookingTerminal.EachStep (Accepted "tenant-a" "order-1") mealCalls
      (placedMeal ["soup", "salad"]) :=
  ⟨⟨rfl, by decide +kernel, by decide +kernel, by decide +kernel⟩,
    ⟨rfl, by decide +kernel, by decide +kernel, by decide +kernel⟩, trivial⟩

/-- The times of the soup are kept. -/
theorem soup_times_kept :
    JustPlaced "tenant-a" "order-1" (placedMeal ["soup"]).world.db ∧
      ∀ pre, pre <+: soupCalls →
        TimesKept "tenant-a" "order-1" (cookingTerminal.exec pre (placedMeal ["soup"])) :=
  have hplaced := placedMeal_placed (by decide)
  ⟨hplaced, (times_kept_iff hplaced soup_accepted).mpr
    ⟨by decide +kernel, by decide +kernel, by decide +kernel, by decide +kernel, trivial⟩⟩

/-- The ticket ends with the soup, before the salad is started. -/
theorem meal_times_not_kept :
    JustPlaced "tenant-a" "order-1" (placedMeal ["soup", "salad"]).world.db ∧
      cookingTerminal.EachStep (Accepted "tenant-a" "order-1") mealCalls
        (placedMeal ["soup", "salad"]) ∧
      ¬ ∀ pre, pre <+: mealCalls → TimesKept "tenant-a" "order-1"
        (cookingTerminal.exec pre (placedMeal ["soup", "salad"])) := by
  refine ⟨placedMeal_placed (by decide), meal_accepted, fun h => ?_⟩
  rcases h mealCalls (List.prefix_refl _) with ⟨ticket, hticket, hkept⟩
  have hafter : ticketAt "tenant-a" "order-1"
      (cookingTerminal.exec mealCalls (placedMeal ["soup", "salad"])).world.db =
        some ⟨[⟨"soup", .COOKED⟩, ⟨"salad", .PREPARING⟩], some 20, some 10⟩ := by
    decide +kernel
  rw [hafter] at hticket
  cases hticket
  exact absurd (hkept.ordered 20 rfl 10 rfl) (by decide)

end KdsService
end Eleva
