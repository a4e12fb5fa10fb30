import Mathlib.Data.List.Induction
import Eleva.Foundation.Interleaving
import Eleva.Kds.KdsService

/-!
# Kds - Concurrent updates of a cooking status

An update reads the item and checks the transition in one statement, writes the status in
another one and announces it afterwards; between two of these steps other updates run.
The state keeps a record of the writes that were committed, each with the status that was
stored just before it, and a call that has read its item remembers how many there were.

Main results:

- Lemma {lit}`sound_step`: the stored status of an item that a call has read is the one it
  has read or the one of the last write since.
- Theorem {lit}`moves_forward_iff`: the items of a run move forward exactly when no write
  that is committed comes after a write of a later status that its call has not seen.
- Theorem {lit}`soup_moved_back`: a stale update takes an item that was served back to the
  stove.
-/

namespace Eleva
namespace KdsService

open Foundation Database

/-! ## The calls -/

/-- The arguments of an update. -/
structure CookingCall where
  orderItemId : Id
  tenantId : Id
  status : String
deriving DecidableEq, Repr

/-- A committed write, with the status that was stored just before. -/
structure CookingWrite where
  orderItemId : Id
  tenantId : Id
  stored : CookingStatus
  written : CookingStatus
deriving DecidableEq, Repr

/-- The write concerns the item of the tenant. -/
def CookingWrite.about (write : CookingWrite) (tenantId orderItemId : Id) : Prop :=
  write.tenantId = tenantId ∧ write.orderItemId = orderItemId

instance (write : CookingWrite) (tenantId orderItemId : Id) :
    Decidable (write.about tenantId orderItemId) :=
  inferInstanceAs (Decidable (_ ∧ _))

/-- The world, and the writes that were committed. -/
structure Kitchen where
  world : World
  writes : List CookingWrite := []

/-- Where an update is; {lit}`since` counts the writes at the time of its read. -/
inductive CookingPhase where
  | start
  | checked (item : OrderItem) (next : CookingStatus) (since : ℕ)
  | written (item : OrderItem) (next : CookingStatus) (updated : OrderItem)
  | finished (answer : Except AppError CookingAnswer)

/-- The status of the item of a tenant. -/
def statusOf (tenantId orderItemId : Id) (db : Db) : Option CookingStatus :=
  (itemOf tenantId orderItemId db).map (·.cookingStatus)

/-- The writes with the one of the call. -/
def recordWrite (call : CookingCall) (next : CookingStatus) (s : Kitchen) : List CookingWrite :=
  match statusOf call.tenantId call.orderItemId s.world.db with
  | some stored => s.writes ++ [⟨call.orderItemId, call.tenantId, stored, next⟩]
  | none => s.writes

/-- One step of an update. -/
def cookingStep (call : CookingCall) (env : KdsEnv) (s : Kitchen) :
    CookingPhase → Kitchen × CookingPhase
  | .start =>
      match checkItem env call.orderItemId call.tenantId call.status s.world with
      | (.error e, w) => ({ s with world := w }, .finished (.error e))
      | (.ok (item, next), w) => ({ s with world := w }, .checked item next s.writes.length)
  | .checked item next _ =>
      match writeItem env call.orderItemId call.tenantId next s.world with
      | (.error e, w) => ({ s with world := w }, .finished (.error e))
      | (.ok updated, w) => (⟨w, recordWrite call next s⟩, .written item next updated)
  | .written item next updated =>
      match announce env call.tenantId item next updated s.world with
      | (answer, w) => ({ s with world := w }, .finished answer)
  | .finished answer => (s, .finished answer)

/-- Any number of updates over one database. -/
def cookingCalls {ι : Type} (calls : ι → CookingCall) :
    CallSystem ι KdsEnv Kitchen CookingPhase where
  next i env s phase := cookingStep (calls i) env s phase

/-! ## What the steps do to the items -/

section Steps

variable (env : KdsEnv) {orderItemId tenantId : Id} {w w' : World}

/-- An update that passes its check has read the item, and the status is not behind. -/
theorem checkItem_ok {status : String} {item : OrderItem} {next : CookingStatus}
    (h : checkItem env orderItemId tenantId status w = (.ok (item, next), w')) :
    itemOf tenantId orderItemId w.db = some item ∧
      cookingRank item.cookingStatus ≤ cookingRank next := by
  unfold checkItem at h
  cases hstatus : cookingStatusOf status with
  | none =>
      rw [hstatus] at h
      cases h
  | some next' =>
      rw [hstatus] at h
      rcases Fallible.bind_eq_ok.mp h with ⟨found, s, hfind, hrest⟩
      have hrun := (attempt_eq_ok.mp hfind).2
      rcases @runItems_findById env orderItemId tenantId w with
        ⟨e, herror⟩ | hok
      · rw [hrun] at herror
        cases herror
      · rw [hrun] at hok
        cases hok
        cases hitem : itemOf tenantId orderItemId w.db with
        | none =>
            rw [hitem] at hrest
            cases hrest
        | some item' =>
            rw [hitem] at hrest
            rcases Fallible.bind_eq_ok.mp hrest with ⟨_, s', hvalid, hpure⟩
            rcases Fallible.reads_eq_ok.mp hvalid with ⟨hallowed, rfl⟩
            cases hpure
            exact ⟨rfl, validateCookingTransition_ok.mp hallowed⟩

/-- Rewriting an item keeps its id and its tenant. -/
theorem ownRow_rewriteItem (T id : Id) (next : CookingStatus) (item : OrderItem) :
    TableOf.ownRow (some T) id (rewriteItem tenantId orderItemId next item) =
      TableOf.ownRow (some T) id item := by
  unfold rewriteItem
  split <;> rfl

/-- An item is the one of a tenant and an id. -/
theorem ownRow_iff {T id : Id} {item : OrderItem} :
    TableOf.ownRow (some T) id item = true ↔ item.id = id ∧ item.tenantId = T := by
  simp only [TableOf.ownRow, visible, owned, TenantRow.id, TenantRow.tenantId, Option.all_some,
    Bool.and_eq_true, beq_iff_eq, Option.some.injEq]
  exact and_congr_left' eq_comm

/-- The status write sets the status of the item that was asked for. -/
theorem statusOf_withStatus (T id : Id) (next : CookingStatus) :
    statusOf T id (withStatus tenantId orderItemId next w).db =
      if T = tenantId ∧ id = orderItemId then (statusOf T id w.db).map fun _ => next
      else statusOf T id w.db := by
  have hitem : itemOf T id (withStatus tenantId orderItemId next w).db =
      (itemOf T id w.db).map (rewriteItem tenantId orderItemId next) := by
    unfold itemOf withStatus
    rw [orderItems_map, List.find?_map]
    congr 2
    funext item
    exact ownRow_rewriteItem T id next item
  unfold statusOf
  rw [hitem]
  cases hfound : itemOf T id w.db with
  | none => simp
  | some item =>
      have hown := ownRow_iff.mp (List.find?_some hfound)
      by_cases hsame : T = tenantId ∧ id = orderItemId
      · have hrewrite : TableOf.ownRow (some tenantId) orderItemId item = true :=
          ownRow_iff.mpr ⟨hown.1.trans hsame.2, hown.2.trans hsame.1⟩
        simp [rewriteItem, hrewrite, hsame]
      · have hother : ¬ TableOf.ownRow (some tenantId) orderItemId item = true := fun h =>
          hsame ⟨hown.2.symm.trans (ownRow_iff.mp h).2, hown.1.symm.trans (ownRow_iff.mp h).1⟩
        simp [rewriteItem, hother, hsame]

/-- Statements on the queue leave the orders. -/
theorem run_kitchenQueues_orders {α : Type} (x : Fallible (Store KitchenQueue) ClientError α) :
    Fallible.Keeps (fun s => s.db.orders = w.db.orders) (kitchenQueues.run x) := by
  intro s hs
  unfold TableOf.run
  split
  · exact hs
  · split <;> exact hs

theorem broadcastOrderEvent_orders (T branchId : Id) (event : String)
    (payload : BroadcastPayload) :
    Fallible.Keeps (fun s => s.db.orders = w.db.orders)
      (broadcastOrderEvent T branchId event payload) := by
  unfold broadcastOrderEvent
  exact Fallible.Keeps.ite (fun _ => Fallible.Keeps.pure _)
    fun _ => Fallible.Keeps.modify fun _ hs => hs

/-- What follows the status write leaves the orders. -/
theorem announce_orders (item : OrderItem) (next : CookingStatus) (updated : OrderItem) :
    (announce env tenantId item next updated w).2.db.orders = w.db.orders := by
  have hstamp : ∀ orderId, Fallible.Keeps (fun s => s.db.orders = w.db.orders)
      (updateKitchenQueueTimestamps env tenantId orderId next) := by
    intro orderId
    refine Fallible.Keeps.orElse (Fallible.Keeps.bind (attempt_keeps _
      (run_kitchenQueues_orders _)) fun found => ?_) (Fallible.Keeps.pure _)
    cases found with
    | none => exact Fallible.Keeps.pure _
    | some kq =>
        exact Fallible.Keeps.ite (fun _ => Fallible.Keeps.bind
          (attempt_keeps _ (run_kitchenQueues_orders _)) fun _ => Fallible.Keeps.pure _)
          fun _ => Fallible.Keeps.pure _
  have hbroadcast : ∀ order, Fallible.Keeps (fun s => s.db.orders = w.db.orders)
      (broadcastItem env order next updated) := by
    intro order
    refine Fallible.Keeps.orElse (Fallible.Keeps.ite (fun _ => attempt_keeps _ ?_)
      fun _ => Fallible.Keeps.pure _) (Fallible.Keeps.pure _)
    exact Fallible.Keeps.bind (broadcastOrderEvent_orders _ _ _ _) fun _ =>
      broadcastOrderEvent_orders _ _ _ _
  have hall : Fallible.Keeps (fun s => s.db.orders = w.db.orders)
      (announce env tenantId item next updated) := by
    refine Fallible.Keeps.bind (attempt_keeps _ (Fallible.Keeps.reads _)) fun found => ?_
    cases found with
    | none => exact Fallible.Keeps.pure _
    | some order =>
        exact Fallible.Keeps.bind (hstamp order.id) fun _ =>
          Fallible.Keeps.bind (hbroadcast order) fun _ => Fallible.Keeps.pure _
  exact hall w rfl

end Steps

/-! ## The statuses of an item along the writes -/

section History

variable {T id : Id}

/-- The write keeps the status or moves the item along the table. -/
def CookingWrite.Forward (write : CookingWrite) : Prop :=
  write.written = write.stored ∨ write.written ∈ allowedCooking write.stored

instance (write : CookingWrite) : Decidable write.Forward :=
  inferInstanceAs (Decidable (_ ∨ _))

theorem CookingWrite.forward_iff {write : CookingWrite} :
    write.Forward ↔ cookingRank write.stored ≤ cookingRank write.written := by
  rw [← validateCookingTransition_ok]
  unfold CookingWrite.Forward validateCookingTransition
  by_cases hsame : write.stored = write.written
  · simp [hsame]
  · by_cases hallowed : write.written ∈ allowedCooking write.stored
    · simp [hsame, hallowed]
    · simp [hsame, hallowed, Ne.symm hsame]

/-- The status of an item after a write. -/
def statusAfterWrite (T id : Id) (s : CookingStatus) (write : CookingWrite) : CookingStatus :=
  if write.about T id then write.written else s

/-- The status of an item after several writes. -/
def statusAfter (T id : Id) (s : CookingStatus) (writes : List CookingWrite) : CookingStatus :=
  writes.foldl (statusAfterWrite T id) s

/-- Every write to the item has found the status that the writes before it have left. -/
def Chained (T id : Id) : CookingStatus → List CookingWrite → Prop
  | _, [] => True
  | s, write :: writes =>
      (write.about T id → write.stored = s) ∧ Chained T id (statusAfterWrite T id s write) writes

theorem statusAfter_concat (s : CookingStatus) (writes : List CookingWrite)
    (write : CookingWrite) :
    statusAfter T id s (writes ++ [write]) =
      statusAfterWrite T id (statusAfter T id s writes) write := by
  simp [statusAfter]

/-- The status after the writes is the first one or one of those that were written. -/
theorem statusAfter_cases (s : CookingStatus) (writes : List CookingWrite) :
    statusAfter T id s writes = s ∨
      ∃ write ∈ writes, write.about T id ∧ write.written = statusAfter T id s writes := by
  induction writes using List.reverseRecOn with
  | nil => exact Or.inl rfl
  | append_singleton writes last ih =>
      rw [statusAfter_concat, statusAfterWrite]
      by_cases habout : last.about T id
      · rw [if_pos habout]
        exact Or.inr ⟨last, by simp, habout, rfl⟩
      · rw [if_neg habout]
        rcases ih with hfirst | ⟨write, hwrite, hsame, hwritten⟩
        · exact Or.inl hfirst
        · exact Or.inr ⟨write, List.mem_append_left _ hwrite, hsame, hwritten⟩

theorem chained_concat {s : CookingStatus} {writes : List CookingWrite} {write : CookingWrite} :
    Chained T id s (writes ++ [write]) ↔
      Chained T id s writes ∧ (write.about T id → write.stored = statusAfter T id s writes) := by
  induction writes generalizing s with
  | nil => simp [Chained, statusAfter]
  | cons first writes ih =>
      rw [List.cons_append, Chained, Chained, ih, and_assoc]
      rfl

/-- Forward writes leave an item at least as far as each of them has brought it. -/
theorem rank_le_statusAfter {s : CookingStatus} {writes : List CookingWrite}
    (hchained : Chained T id s writes) (hforward : ∀ write ∈ writes, write.Forward) :
    cookingRank s ≤ cookingRank (statusAfter T id s writes) ∧
      ∀ write ∈ writes, write.about T id →
        cookingRank write.written ≤ cookingRank (statusAfter T id s writes) := by
  induction writes generalizing s with
  | nil => exact ⟨Nat.le_refl _, fun _ h => absurd h List.not_mem_nil⟩
  | cons first writes ih =>
      rcases hchained with ⟨hfirst, hrest⟩
      rcases ih hrest fun write hwrite => hforward write (List.mem_cons_of_mem _ hwrite) with
        ⟨hstart, hlater⟩
      by_cases habout : first.about T id
      · have hnext : statusAfterWrite T id s first = first.written := if_pos habout
        have hmoves : cookingRank s ≤ cookingRank first.written := by
          rw [← hfirst habout]
          exact CookingWrite.forward_iff.mp (hforward first List.mem_cons_self)
        rw [hnext] at hstart
        refine ⟨hmoves.trans (by simpa [statusAfter, hnext] using hstart), ?_⟩
        rintro write hwrite hsame
        rcases List.mem_cons.mp hwrite with rfl | hwrite
        · simpa [statusAfter, hnext] using hstart
        · simpa [statusAfter, hnext] using hlater write hwrite hsame
      · have hnext : statusAfterWrite T id s first = s := if_neg habout
        rw [hnext] at hstart
        refine ⟨by simpa [statusAfter, hnext] using hstart, ?_⟩
        rintro write hwrite hsame
        rcases List.mem_cons.mp hwrite with rfl | hwrite
        · exact absurd hsame habout
        · simpa [statusAfter, hnext] using hlater write hwrite hsame

end History

/-! ## What a call that has read its item knows -/

/-- The status that was read is not ahead of the one that is asked for, and the writes since
lead from it to the stored one. -/
structure Remembers (call : CookingCall) (s : Kitchen) (item : OrderItem) (next : CookingStatus)
    (since : ℕ) : Prop where
  since_le : since ≤ s.writes.length
  passed : cookingRank item.cookingStatus ≤ cookingRank next
  stored : statusOf call.tenantId call.orderItemId s.world.db =
    some (statusAfter call.tenantId call.orderItemId item.cookingStatus (s.writes.drop since))
  chained : Chained call.tenantId call.orderItemId item.cookingStatus (s.writes.drop since)

section Soundness

variable {ι : Type} [DecidableEq ι] {calls : ι → CookingCall} {c : Config ι Kitchen CookingPhase}

/-- Every call that has read its item remembers it. -/
def Sound (calls : ι → CookingCall) (c : Config ι Kitchen CookingPhase) : Prop :=
  ∀ i item next since, c.phase i = .checked item next since →
    Remembers (calls i) c.shared item next since

omit [DecidableEq ι] in
/-- A step without a write leaves what is remembered. -/
theorem Remembers.of_same {call : CookingCall} {s s' : Kitchen} {item : OrderItem}
    {next : CookingStatus} {since : ℕ} (h : Remembers call s item next since)
    (hwrites : s'.writes = s.writes) (horders : s'.world.db.orders = s.world.db.orders) :
    Remembers call s' item next since := by
  have hstatus : ∀ T id, statusOf T id s'.world.db = statusOf T id s.world.db := by
    intro T id
    unfold statusOf itemOf orderItems
    rw [horders]
  constructor
  · rw [hwrites]
    exact h.since_le
  · exact h.passed
  · rw [hstatus, hwrites]
    exact h.stored
  · rw [hwrites]
    exact h.chained

/-- The write of a call, as the others see it. -/
theorem Remembers.of_write {call other : CookingCall} {s : Kitchen} {item : OrderItem}
    {next written : CookingStatus} {since : ℕ} (h : Remembers call s item next since)
    {stored : CookingStatus}
    (hstored : statusOf other.tenantId other.orderItemId s.world.db = some stored) :
    Remembers call
      ⟨withStatus other.tenantId other.orderItemId written s.world,
        s.writes ++ [⟨other.orderItemId, other.tenantId, stored, written⟩]⟩
      item next since := by
  have hdrop : (s.writes ++ [(⟨other.orderItemId, other.tenantId, stored, written⟩ :
      CookingWrite)]).drop since = s.writes.drop since ++
        [⟨other.orderItemId, other.tenantId, stored, written⟩] :=
    List.drop_append_of_le_length h.since_le
  constructor
  · simp only [List.length_append]
    exact h.since_le.trans (Nat.le_add_right _ _)
  · exact h.passed
  · simp only
    rw [statusOf_withStatus, hdrop, statusAfter_concat, statusAfterWrite]
    by_cases hsame : call.tenantId = other.tenantId ∧ call.orderItemId = other.orderItemId
    · rw [if_pos hsame, if_pos (show CookingWrite.about _ _ _ from ⟨hsame.1.symm, hsame.2.symm⟩),
        h.stored]
      rfl
    · rw [if_neg hsame, if_neg (fun habout => hsame ⟨habout.1.symm, habout.2.symm⟩), h.stored]
  · simp only
    rw [hdrop, chained_concat]
    refine ⟨h.chained, fun habout => ?_⟩
    have hread := h.stored
    rw [show call.tenantId = other.tenantId from habout.1.symm,
      show call.orderItemId = other.orderItemId from habout.2.symm, hstored] at hread
    rw [show call.tenantId = other.tenantId from habout.1.symm,
      show call.orderItemId = other.orderItemId from habout.2.symm]
    exact Option.some.inj hread

omit [DecidableEq ι] in
/-- A step of an update reads its item, commits a write, or does neither. -/
theorem cookingStep_cases (call : CookingCall) (env : KdsEnv) (s : Kitchen)
    (phase : CookingPhase) :
    (∃ item next, phase = .start ∧ itemOf call.tenantId call.orderItemId s.world.db = some item ∧
      cookingRank item.cookingStatus ≤ cookingRank next ∧
      cookingStep call env s phase = (s, .checked item next s.writes.length)) ∨
    (∃ item next since updated stored, phase = .checked item next since ∧
      statusOf call.tenantId call.orderItemId s.world.db = some stored ∧
      (writeItem env call.orderItemId call.tenantId next s.world).1.isOk = true ∧
      cookingStep call env s phase =
        (⟨withStatus call.tenantId call.orderItemId next s.world,
          s.writes ++ [⟨call.orderItemId, call.tenantId, stored, next⟩]⟩,
          .written item next updated)) ∨
    ((∀ item next since, phase = .checked item next since →
        (writeItem env call.orderItemId call.tenantId next s.world).1.isOk = false) ∧
      (cookingStep call env s phase).1.writes = s.writes ∧
      (cookingStep call env s phase).1.world.db.orders = s.world.db.orders ∧
      ∀ item next since, (cookingStep call env s phase).2 ≠ .checked item next since) := by
  cases phase with
  | start =>
      rcases hcheck : checkItem env call.orderItemId call.tenantId call.status s.world with
        ⟨e | ⟨item, next⟩, w⟩
      · have hw : w = s.world := (checkItem_readsOnly env call.status).state_eq hcheck
        subst hw
        refine Or.inr (Or.inr ⟨fun _ _ _ h => (by cases h), ?_⟩)
        simp [cookingStep, hcheck]
      · have hw : w = s.world := (checkItem_readsOnly env call.status).state_eq hcheck
        subst hw
        rcases checkItem_ok env hcheck with ⟨hitem, hrank⟩
        exact Or.inl ⟨item, next, rfl, hitem, hrank, by simp [cookingStep, hcheck]⟩
  | checked item next since =>
      rcases @writeItem_cases env call.orderItemId call.tenantId next s.world with
        ⟨e, herror⟩ | ⟨stored, hstored, hok⟩
      · refine Or.inr (Or.inr ⟨?_, ?_⟩)
        · rintro item' next' since' ⟨⟩
          rw [herror]
          rfl
        · simp [cookingStep, herror]
      · have hstatus : statusOf call.tenantId call.orderItemId s.world.db =
            some stored.cookingStatus := by
          unfold statusOf
          rw [hstored]
          rfl
        refine Or.inr (Or.inl ⟨item, next, since, { stored with cookingStatus := next },
          stored.cookingStatus, rfl, hstatus, ?_, ?_⟩)
        · rw [hok]
          rfl
        · simp only [cookingStep, hok, recordWrite, hstatus]
  | written item next updated =>
      have hstep : cookingStep call env s (.written item next updated) =
          ({ s with world := (announce env call.tenantId item next updated s.world).2 },
            .finished (announce env call.tenantId item next updated s.world).1) := rfl
      have horders : (announce env call.tenantId item next updated s.world).2.db.orders =
          s.world.db.orders := announce_orders env item next updated
      rw [hstep]
      exact Or.inr (Or.inr ⟨fun _ _ _ h => (by cases h), rfl, horders, fun _ _ _ h => (by cases h)⟩)
  | finished answer =>
      exact Or.inr (Or.inr ⟨fun _ _ _ h => (by cases h), rfl, rfl, fun _ _ _ h => (by cases h)⟩)

/-- The calls go on remembering what they have read, whichever of them moves. -/
theorem sound_step (h : Sound calls c) (l : ι × KdsEnv) :
    Sound calls ((cookingCalls calls).step c l) := by
  intro i item next since hphase
  have hself : ((cookingCalls calls).step c l).phase l.1 =
      (cookingStep (calls l.1) l.2 c.shared (c.phase l.1)).2 :=
    CallSystem.step_phase_self _ c l
  have hshared : ((cookingCalls calls).step c l).shared =
      (cookingStep (calls l.1) l.2 c.shared (c.phase l.1)).1 := rfl
  rw [hshared]
  rcases cookingStep_cases (calls l.1) l.2 c.shared (c.phase l.1) with
    ⟨item', next', _, hitem, hrank, hstep⟩ | ⟨item', next', _, _, stored, _, hstored, _, hstep⟩ |
      ⟨_, hwrites, horders, hphases⟩
  · rw [hstep] at hself ⊢
    by_cases hi : i = l.1
    · subst hi
      rw [hself] at hphase
      cases hphase
      refine ⟨Nat.le_refl _, hrank, ?_, ?_⟩
      · rw [List.drop_length]
        unfold statusOf
        rw [hitem]
        rfl
      · rw [List.drop_length]
        trivial
    · rw [CallSystem.step_phase_of_ne _ c l hi] at hphase
      exact h i item next since hphase
  · rw [hstep] at hself ⊢
    by_cases hi : i = l.1
    · subst hi
      rw [hself] at hphase
      cases hphase
    · rw [CallSystem.step_phase_of_ne _ c l hi] at hphase
      exact (h i item next since hphase).of_write hstored
  · by_cases hi : i = l.1
    · subst hi
      rw [hself] at hphase
      exact absurd hphase (hphases item next since)
    · rw [CallSystem.step_phase_of_ne _ c l hi] at hphase
      exact (h i item next since hphase).of_same hwrites horders

/-! ## When the items move forward -/

/-- No write that is committed takes an item behind a write that came after its own read. -/
def NotOvertaken (calls : ι → CookingCall) (c : Config ι Kitchen CookingPhase)
    (l : ι × KdsEnv) : Prop :=
  ∀ item next since, c.phase l.1 = .checked item next since →
    (writeItem l.2 (calls l.1).orderItemId (calls l.1).tenantId next c.shared.world).1.isOk =
      true →
    ∀ write ∈ c.shared.writes.drop since,
      write.about (calls l.1).tenantId (calls l.1).orderItemId →
      cookingRank write.written ≤ cookingRank next

instance (l : ι × KdsEnv) : Decidable (NotOvertaken calls c l) :=
  match hphase : c.phase l.1 with
  | .checked item next since =>
      decidable_of_iff
        ((writeItem l.2 (calls l.1).orderItemId (calls l.1).tenantId next
            c.shared.world).1.isOk = true →
          ∀ write ∈ c.shared.writes.drop since,
            write.about (calls l.1).tenantId (calls l.1).orderItemId →
            cookingRank write.written ≤ cookingRank next)
        ⟨fun h item' next' since' hphase' => by
          cases hphase.symm.trans hphase'
          exact h, fun h => h item next since hphase⟩
  | .start => isTrue fun _ _ _ h => by cases hphase.symm.trans h
  | .written _ _ _ => isTrue fun _ _ _ h => by cases hphase.symm.trans h
  | .finished _ => isTrue fun _ _ _ h => by cases hphase.symm.trans h

/-- Every committed write keeps its item's status or moves it along the table. -/
def WritesForward (s : Kitchen) : Prop :=
  ∀ write ∈ s.writes, write.Forward

instance (s : Kitchen) : Decidable (WritesForward s) :=
  inferInstanceAs (Decidable (∀ write ∈ s.writes, _))

/-- After writes that went forward, one more step keeps to it exactly when its write is not
overtaken. -/
theorem writesForward_step_iff (h : Sound calls c) (hforward : WritesForward c.shared)
    (l : ι × KdsEnv) :
    WritesForward ((cookingCalls calls).step c l).shared ↔ NotOvertaken calls c l := by
  have hshared : ((cookingCalls calls).step c l).shared =
      (cookingStep (calls l.1) l.2 c.shared (c.phase l.1)).1 := rfl
  rw [hshared]
  rcases cookingStep_cases (calls l.1) l.2 c.shared (c.phase l.1) with
    ⟨_, _, hstart, _, _, hstep⟩ | ⟨item, next, since, _, stored, hchecked, hstored, hok, hstep⟩ |
      ⟨hrefused, hwrites, _, _⟩
  · rw [hstep]
    refine ⟨fun _ item next since hphase => ?_, fun _ => hforward⟩
    rw [hstart] at hphase
    cases hphase
  · rw [hstep]
    have hknown := h l.1 item next since hchecked
    have hsame : stored = statusAfter (calls l.1).tenantId (calls l.1).orderItemId
        item.cookingStatus (c.shared.writes.drop since) :=
      Option.some.inj (hstored.symm.trans hknown.stored)
    have hsince : ∀ write ∈ c.shared.writes.drop since, write.Forward :=
      fun write hwrite => hforward write (List.mem_of_mem_drop hwrite)
    have hlast : WritesForward ⟨withStatus (calls l.1).tenantId (calls l.1).orderItemId next
          c.shared.world, c.shared.writes ++
            [⟨(calls l.1).orderItemId, (calls l.1).tenantId, stored, next⟩]⟩ ↔
        cookingRank stored ≤ cookingRank next := by
      constructor
      · intro hall
        exact CookingWrite.forward_iff.mp (hall _ (List.mem_append_right _ List.mem_cons_self))
      · intro hrank write hwrite
        rcases List.mem_append.mp hwrite with hold | hnew
        · exact hforward write hold
        · rw [List.mem_singleton.mp hnew]
          exact CookingWrite.forward_iff.mpr hrank
    rw [hlast, hsame]
    constructor
    · intro hrank item' next' since' hphase _ write hwrite habout
      rw [hchecked] at hphase
      cases hphase
      exact ((rank_le_statusAfter hknown.chained hsince).2 write hwrite habout).trans hrank
    · intro hnot
      rcases @statusAfter_cases (calls l.1).tenantId (calls l.1).orderItemId
        item.cookingStatus (c.shared.writes.drop since) with
        hread | ⟨write, hwrite, habout, hlatest⟩
      · rw [hread]
        exact hknown.passed
      · rw [← hlatest]
        exact hnot item next since hchecked hok write hwrite habout
  · refine ⟨fun _ item next since hphase hok => ?_, fun _ => ?_⟩
    · rw [hrefused item next since hphase] at hok
      cases hok
    · unfold WritesForward
      rw [hwrites]
      exact hforward

/-- A step that keeps the writes forward does not take any item back. -/
theorem rank_step {l : ι × KdsEnv}
    (hforward : WritesForward ((cookingCalls calls).step c l).shared) {T id : Id}
    {s : CookingStatus} (hs : statusOf T id c.shared.world.db = some s) :
    ∃ s', statusOf T id ((cookingCalls calls).step c l).shared.world.db = some s' ∧
      cookingRank s ≤ cookingRank s' := by
  have hshared : ((cookingCalls calls).step c l).shared =
      (cookingStep (calls l.1) l.2 c.shared (c.phase l.1)).1 := rfl
  rw [hshared] at hforward ⊢
  rcases cookingStep_cases (calls l.1) l.2 c.shared (c.phase l.1) with
    ⟨_, _, _, _, _, hstep⟩ | ⟨_, next, _, _, stored, _, hstored, _, hstep⟩ | ⟨_, _, horders, _⟩
  · rw [hstep]
    exact ⟨s, hs, Nat.le_refl _⟩
  · rw [hstep] at hforward ⊢
    have hlast := CookingWrite.forward_iff.mp
      (hforward _ (List.mem_append_right _ List.mem_cons_self))
    simp only [statusOf_withStatus]
    by_cases hsame : T = (calls l.1).tenantId ∧ id = (calls l.1).orderItemId
    · rw [if_pos hsame, hs]
      rw [hsame.1, hsame.2, hstored] at hs
      cases hs
      exact ⟨next, rfl, hlast⟩
    · rw [if_neg hsame]
      exact ⟨s, hs, Nat.le_refl _⟩
  · refine ⟨s, ?_, Nat.le_refl _⟩
    unfold statusOf itemOf orderItems at hs ⊢
    rw [horders]
    exact hs

/-- Every committed write of a run keeps its item's status or moves it along the table, and no
item ever goes back. -/
structure MovesForward (calls : ι → CookingCall) (c : Config ι Kitchen CookingPhase)
    (schedule : List (ι × KdsEnv)) : Prop where
  writes : ∀ pre, pre <+: schedule → WritesForward ((cookingCalls calls).run c pre).shared
  ranks : ∀ pre mid, pre ++ mid <+: schedule → ∀ T id s,
    statusOf T id ((cookingCalls calls).run c pre).shared.world.db = some s →
    ∃ s', statusOf T id ((cookingCalls calls).run c (pre ++ mid)).shared.world.db = some s' ∧
      cookingRank s ≤ cookingRank s'

/-- The items of a run move forward exactly when none of its writes is overtaken. -/
theorem moves_forward_iff (hstart : ∀ i, c.phase i = .start) (hnone : c.shared.writes = [])
    (schedule : List (ι × KdsEnv)) :
    MovesForward calls c schedule ↔
      (cookingCalls calls).EachStep (NotOvertaken calls) c schedule := by
  have hsound : Sound calls c := by
    intro i item next since hphase
    rw [hstart i] at hphase
    cases hphase
  have hempty : WritesForward c.shared := by
    intro write hwrite
    rw [hnone] at hwrite
    cases hwrite
  have hprefix := (cookingCalls calls).prefix_iff_eachStep
    (I := fun c => Sound calls c ∧ WritesForward c.shared) (Q := NotOvertaken calls)
    (fun c l h => (and_iff_right (sound_step h.1 l)).trans (writesForward_step_iff h.1 h.2 l))
    ⟨hsound, hempty⟩ schedule
  rw [← hprefix]
  constructor
  · intro h pre hpre
    exact ⟨(cookingCalls calls).run_invariant (I := fun c => Sound calls c)
      (fun c l h => sound_step h l) hsound pre, h.writes pre hpre⟩
  · intro h
    refine ⟨fun pre hpre => (h pre hpre).2, fun pre mid hmid T id s hs => ?_⟩
    induction mid using List.reverseRecOn with
    | nil =>
        rw [List.append_nil]
        exact ⟨s, hs, Nat.le_refl _⟩
    | append_singleton mid l ih =>
        rw [← List.append_assoc] at hmid ⊢
        rcases ih ((List.prefix_append _ _).trans hmid) with ⟨s', hs', hrank⟩
        have hforward := (h _ hmid).2
        rw [CallSystem.run_append] at hforward ⊢
        rcases rank_step hforward hs' with ⟨s'', hs'', hrank'⟩
        exact ⟨s'', hs'', hrank.trans hrank'⟩

end Soundness

/-! ## A stale update -/

/-- An order of one soup that has not been started. -/
def orderedSoup : Db :=
  { orders := [{ (default : Order) with
      id := "order-1"
      tenantId := "tenant-a"
      branchId := "branch-1"
      status := .PENDING
      orderItems := [{ (default : OrderItem) with
        id := "item-1", tenantId := "tenant-a", productId := "soup" }] }] }

/-- One terminal serves the soup, another one starts to prepare it. -/
def twoTerminals (serves : Bool) : CookingCall where
  orderItemId := "item-1"
  tenantId := "tenant-a"
  status := if serves then "SERVED" else "PREPARING"

def soupKitchen : Config Bool Kitchen CookingPhase where
  shared := { world := { db := orderedSoup } }
  phase _ := .start

def kitchenEnv : KdsEnv where
  context := {}
  uuid _ := ""
  now := 1767225600000

/-- The terminals move in turns. -/
def turns (order : List Bool) : List (Bool × KdsEnv) :=
  order.map fun serves => (serves, kitchenEnv)

/-- The soup is prepared and served. -/
theorem soup_moves_forward :
    MovesForward twoTerminals soupKitchen (turns [false, false, true, true]) :=
  (moves_forward_iff (fun _ => rfl) rfl _).mpr (by decide +kernel)

/-- Both terminals read the soup; it is served, and then it is on the stove again. -/
theorem soup_moved_back :
    ¬ MovesForward twoTerminals soupKitchen (turns [false, true, true, false]) := by
  intro h
  have hforward := h.writes _ (List.prefix_refl _)
  exact absurd hforward (by decide +kernel)

end KdsService
end Eleva
