import Mathlib.Data.Fintype.Option
import Eleva.Foundation.OnceGuard
import Eleva.Billing.StatusChanges

/-!
# Billing - Concurrent deliveries

Any number of deliveries on one billing state.  The look at the processed marker, the
resolution of the tenant, the transaction, the domain event and the marking are different
steps, and a fallback value that a look sent back lands whenever the connection delivers it.

Main results:

- Theorem {lit}`deliveries_once`: where no two deliveries of an event id are at work at the
  same time and no marker is lost, an event id has at most one domain event and at most one
  delivery that applies its statuses.
- Theorem {lit}`deliveries_twice`: two deliveries that both look before either marks emit
  two domain events.
- Theorem {lit}`delivery_alone`: a delivery whose steps are not interleaved is
  {lit}`handleStripeWebhook`.
-/

namespace Eleva
namespace Billing

open Foundation Database Cache

/-- How far a delivery has come.  From {lit}`handled` on, the flags say whether it has sent a
domain event and whether it has applied statuses. -/
inductive DeliveryPhase where
  | start
  | checked
  | checkout (tenant : Tenant)
  | resolved (tenantId : Id)
  | applied (tenantId : Id) (previous : Option SubscriptionStatus) (status : SubscriptionStatus)
  | handled (notified applied : Bool)
  | marked (notified applied : Bool)
  | left
deriving DecidableEq, Repr

/-- What the surroundings add to a step: the environment of its database steps, the time since
the last step, and which sent value lands. -/
structure DeliveryTick where
  env : BillingEnv
  elapsed : ℕ := 0
  slot : ℕ := 0

/-- Look for something in the database; a delivery that does not find it ends. -/
def resolveWith {α : Type} (x : Service (Option α)) (found : α → DeliveryPhase)
    (s : BillingState) : BillingState × DeliveryPhase :=
  match (onWorld x s).1 with
  | .ok (some a) => ((onWorld x s).2, found a)
  | _ => ((onWorld x s).2, .left)

/-- The step after the look: find the tenant. -/
def resolveStep (event : StripeEvent) (obj : StripeObject) (env : BillingEnv)
    (s : BillingState) : BillingState × DeliveryPhase :=
  if event.type = "checkout.session.completed" then
    if truthy obj.metadataTenantId then
      resolveWith (tenantOfMetadata env obj) .checkout s
    else (s, .left)
  else if event.type = "customer.subscription.trial_will_end" then
    resolveWith (resolveTenant env obj.id obj.customer obj.metadataTenantId) .resolved s
  else
    resolveWith (resolveTenant env (stripeIds obj).1 (stripeIds obj).2 obj.metadataTenantId)
      (fun tenantId =>
        if mapStatuses event.type obj = .unhandled then .left else .resolved tenantId) s

/-- The step after the tenant is found: apply the statuses, or send the domain event of a
trial that ends. -/
def applyStep (event : StripeEvent) (obj : StripeObject) (env : BillingEnv) (tenantId : Id)
    (s : BillingState) : BillingState × DeliveryPhase :=
  if event.type = "customer.subscription.trial_will_end" then
    (emit (trialWillEnd event tenantId) s, .handled true false)
  else
    match mapStatuses event.type obj with
    | .change status tenantStatus =>
        match onWorld (applyStatuses env event.type obj (stripeIds obj).1 tenantId status
            tenantStatus) s with
        | (.ok previous, s) => (s, .applied tenantId previous status)
        | (.error _, s) => (s, .handled false false)
    | _ => (s, .handled false false)

/-- The next step of a delivery. -/
def deliveryStep (event : StripeEvent) (obj : StripeObject) (env : BillingEnv)
    (s : BillingState) : DeliveryPhase → BillingState × DeliveryPhase
  | .start =>
      if truthy event.id then
        ((alreadyProcessed (event.id.getD "") s).2,
          if (alreadyProcessed (event.id.getD "") s).1 then .left else .checked)
      else (s, .checked)
  | .checked => resolveStep event obj env s
  | .checkout tenant =>
      ((onWorld (persistStripeIds env obj tenant) s).2, .handled false false)
  | .resolved tenantId => applyStep event obj env tenantId s
  | .applied tenantId previous status =>
      (emit (statusChanged event tenantId previous status) s, .handled true true)
  | .handled notified applied => (markProcessed event.id s, .marked notified applied)
  | phase => (s, phase)

/-- Let time pass. -/
def BillingState.advance (s : BillingState) (elapsed : ℕ) : BillingState :=
  { s with cache := s.cache.advance elapsed }

variable {ι : Type} [DecidableEq ι]

/-- Any number of deliveries on one billing state; {lit}`none` is the connection of the cache,
which delivers what was sent back. -/
def deliveryCalls (events : ι → StripeEvent) :
    CallSystem (Option ι) DeliveryTick BillingState DeliveryPhase where
  next i tick s phase :=
    match i with
    | none =>
        ({ s with cache := (s.cache.advance tick.elapsed).land tick.slot }, phase)
    | some i =>
        match (events i).data with
        | none => (s.advance tick.elapsed, .left)
        | some obj => deliveryStep (events i) obj tick.env (s.advance tick.elapsed) phase

/-- A configuration of a run. -/
abbrev DeliveryConfig (ι : Type) := Config (Option ι) BillingState DeliveryPhase

/-! ## What the steps do to the markers and the domain events -/

/-- The delivery has sent a domain event. -/
def DeliveryPhase.notified : DeliveryPhase → Bool
  | .handled notified _ => notified
  | .marked notified _ => notified
  | _ => false

/-- The delivery has applied statuses. -/
def DeliveryPhase.hasApplied : DeliveryPhase → Bool
  | .applied .. => true
  | .handled _ changed => changed
  | .marked _ changed => changed
  | _ => false

/-- How a phase stands to the processed marker. -/
def DeliveryPhase.stage : DeliveryPhase → Stage
  | .start => .before
  | .marked _ _ => .marked
  | .left => .left
  | _ => .inside

/-- The delivery is past its look and has not set the marker. -/
abbrev DeliveryPhase.atWork (phase : DeliveryPhase) : Prop :=
  phase.stage = .inside

/-- The markers and the domain events are the same. -/
structure SameEffects (s s' : BillingState) : Prop where
  redis : s'.cache.redis = s.cache.redis
  emitted : s'.emitted = s.emitted

theorem SameEffects.refl (s : BillingState) : SameEffects s s :=
  ⟨rfl, rfl⟩

theorem sameEffects_onWorld {α : Type} (x : Service α) (s : BillingState) :
    SameEffects s (onWorld x s).2 :=
  ⟨rfl, rfl⟩

theorem sameEffects_alreadyProcessed (eventId : String) (s : BillingState) :
    SameEffects s (alreadyProcessed eventId s).2 :=
  ⟨CacheState.get_redis .., rfl⟩

/-- A search changes neither markers nor domain events. -/
theorem resolveWith_effect {α : Type} (x : Service (Option α)) (found : α → DeliveryPhase)
    (s : BillingState) :
    SameEffects s (resolveWith x found s).1 ∧
      ((resolveWith x found s).2 = .left ∨ ∃ a, (resolveWith x found s).2 = found a) := by
  have hsame := sameEffects_onWorld x s
  unfold resolveWith
  split
  · rename_i a _
    exact ⟨hsame, Or.inr ⟨a, rfl⟩⟩
  · exact ⟨hsame, Or.inl rfl⟩

/-- Finding the tenant changes neither markers nor domain events, and leaves the delivery at
work or ends it. -/
theorem resolveStep_effect (event : StripeEvent) (obj : StripeObject) (env : BillingEnv)
    (s : BillingState) :
    SameEffects s (resolveStep event obj env s).1 ∧
      ((resolveStep event obj env s).2.atWork ∨ (resolveStep event obj env s).2 = .left) := by
  unfold resolveStep
  by_cases hcheckout : event.type = "checkout.session.completed"
  · rw [if_pos hcheckout]
    by_cases hmetadata : truthy obj.metadataTenantId = true
    · rw [if_pos hmetadata]
      rcases resolveWith_effect (tenantOfMetadata env obj) .checkout s with
        ⟨hsame, hleft | ⟨tenant, hfound⟩⟩
      · exact ⟨hsame, Or.inr hleft⟩
      · exact ⟨hsame, Or.inl (by rw [hfound]; rfl)⟩
    · rw [if_neg hmetadata]
      exact ⟨.refl s, Or.inr rfl⟩
  · rw [if_neg hcheckout]
    by_cases htrial : event.type = "customer.subscription.trial_will_end"
    · rw [if_pos htrial]
      rcases resolveWith_effect (resolveTenant env obj.id obj.customer obj.metadataTenantId)
        .resolved s with ⟨hsame, hleft | ⟨tenantId, hfound⟩⟩
      · exact ⟨hsame, Or.inr hleft⟩
      · exact ⟨hsame, Or.inl (by rw [hfound]; rfl)⟩
    · rw [if_neg htrial]
      rcases resolveWith_effect
        (resolveTenant env (stripeIds obj).1 (stripeIds obj).2 obj.metadataTenantId)
        (fun tenantId =>
          if mapStatuses event.type obj = .unhandled then .left else .resolved tenantId) s with
        ⟨hsame, hleft | ⟨tenantId, hfound⟩⟩
      · exact ⟨hsame, Or.inr hleft⟩
      · refine ⟨hsame, ?_⟩
        rw [hfound]
        by_cases hmap : mapStatuses event.type obj = .unhandled
        · exact Or.inr (if_pos hmap)
        · left
          rw [if_neg hmap]
          rfl

/-- A step sends the domain event of a delivery that is at work and has sent none. -/
structure Notifies (event : StripeEvent) (s s' : BillingState) (phase phase' : DeliveryPhase) :
    Prop where
  redis : s'.cache.redis = s.cache.redis
  emitted : ∃ e : BillingStatusChangedEvent, e.eventId = event.id.getD "" ∧
    s'.emitted = s.emitted ++ [e]
  working : phase.atWork
  before : phase.notified = false
  after : phase'.notified = true

theorem applyStep_effect (event : StripeEvent) (obj : StripeObject) (env : BillingEnv)
    (tenantId : Id) (s : BillingState) :
    (SameEffects s (applyStep event obj env tenantId s).1 ∨
        Notifies event s (applyStep event obj env tenantId s).1 (.resolved tenantId)
          (applyStep event obj env tenantId s).2) ∧
      (applyStep event obj env tenantId s).2.atWork := by
  unfold applyStep
  by_cases htrial : event.type = "customer.subscription.trial_will_end"
  · rw [if_pos htrial]
    exact ⟨Or.inr ⟨rfl, ⟨_, rfl, rfl⟩, rfl, rfl, rfl⟩, rfl⟩
  · rw [if_neg htrial]
    cases mapStatuses event.type obj with
    | keep => exact ⟨Or.inl (.refl s), rfl⟩
    | unhandled => exact ⟨Or.inl (.refl s), rfl⟩
    | change status tenantStatus =>
        simp only
        have hsame := sameEffects_onWorld (applyStatuses env event.type obj (stripeIds obj).1
          tenantId status tenantStatus) s
        rcases hrun : onWorld (applyStatuses env event.type obj (stripeIds obj).1 tenantId status
          tenantStatus) s with ⟨_ | previous, s₁⟩
        all_goals rw [hrun] at hsame
        · exact ⟨Or.inl hsame, rfl⟩
        · exact ⟨Or.inl hsame, rfl⟩

/-- What one step of a delivery does to the markers and the domain events: nothing, the
domain event of its event, or the marker of its event. -/
theorem deliveryStep_effect (event : StripeEvent) (obj : StripeObject) (env : BillingEnv)
    (s : BillingState) (phase : DeliveryPhase) :
    SameEffects s (deliveryStep event obj env s phase).1 ∨
      Notifies event s (deliveryStep event obj env s phase).1 phase
        (deliveryStep event obj env s phase).2 ∨
      phase.atWork ∧ (deliveryStep event obj env s phase).1 = markProcessed event.id s := by
  cases phase with
  | start =>
      left
      simp only [deliveryStep]
      split
      · exact sameEffects_alreadyProcessed ..
      · exact .refl s
  | checked => exact Or.inl (resolveStep_effect ..).1
  | checkout tenant => exact Or.inl (sameEffects_onWorld ..)
  | resolved tenantId =>
      rcases (applyStep_effect event obj env tenantId s).1 with hsame | hnotifies
      · exact Or.inl hsame
      · exact Or.inr (Or.inl hnotifies)
  | applied tenantId previous status =>
      exact Or.inr (Or.inl ⟨rfl, ⟨_, rfl, rfl⟩, rfl, rfl, rfl⟩)
  | handled notified applied => exact Or.inr (Or.inr ⟨rfl, rfl⟩)
  | marked notified applied => exact Or.inl (.refl s)
  | left => exact Or.inl (.refl s)

/-- A delivery that is at work was at work, or has looked and not found the marker. -/
theorem deliveryStep_atWork {event : StripeEvent} {obj : StripeObject} {env : BillingEnv}
    {s : BillingState} {phase : DeliveryPhase}
    (h : (deliveryStep event obj env s phase).2.atWork) :
    phase = .start ∧ (truthy event.id = true → (alreadyProcessed (event.id.getD "") s).1 = false) ∨
      phase.atWork := by
  cases phase with
  | start =>
      left
      refine ⟨rfl, ?_⟩
      intro hid
      simp only [deliveryStep, if_pos hid] at h
      cases hseen : (alreadyProcessed (event.id.getD "") s).1 with
      | false => rfl
      | true =>
          rw [hseen] at h
          cases h
  | marked notified applied => cases h
  | left => cases h
  | checked => exact Or.inr rfl
  | checkout tenant => exact Or.inr rfl
  | resolved tenantId => exact Or.inr rfl
  | applied tenantId previous status => exact Or.inr rfl
  | handled notified applied => exact Or.inr rfl

/-- A delivery that has set the marker sets it in this step or had set it. -/
theorem deliveryStep_marked {event : StripeEvent} {obj : StripeObject} {env : BillingEnv}
    {s : BillingState} {phase : DeliveryPhase}
    (h : (deliveryStep event obj env s phase).2.stage = .marked) :
    phase.stage = .marked ∨
      phase.atWork ∧ (deliveryStep event obj env s phase).1 = markProcessed event.id s := by
  cases phase with
  | start =>
      simp only [deliveryStep] at h
      split at h
      · split at h <;> cases h
      · cases h
  | checked =>
      rcases (resolveStep_effect event obj env s).2 with hwork | hleft
      · cases hwork.symm.trans h
      · simp only [deliveryStep, hleft] at h
        cases h
  | checkout tenant => cases h
  | resolved tenantId =>
      have hwork := (applyStep_effect event obj env tenantId s).2
      cases hwork.symm.trans h
  | applied tenantId previous status => cases h
  | handled notified applied => exact Or.inr ⟨rfl, rfl⟩
  | marked notified applied => exact Or.inl rfl
  | left => cases h

/-- A delivery that has sent a domain event has still sent it after another step. -/
theorem deliveryStep_notified {event : StripeEvent} {obj : StripeObject} {env : BillingEnv}
    {s : BillingState} {phase : DeliveryPhase} (h : phase.notified = true) :
    (deliveryStep event obj env s phase).2.notified = true := by
  cases phase with
  | handled notified applied => exact h
  | marked notified applied => exact h
  | start => cases h
  | checked => cases h
  | checkout tenant => cases h
  | resolved tenantId => cases h
  | applied tenantId previous status => cases h
  | left => cases h

/-- A delivery that has sent a domain event is past its look. -/
theorem active_of_notified {phase : DeliveryPhase} (h : phase.notified = true) :
    phase.stage.active := by
  cases phase with
  | handled notified applied => exact Or.inl rfl
  | marked notified applied => exact Or.inr rfl
  | start => cases h
  | checked => cases h
  | checkout tenant => cases h
  | resolved tenantId => cases h
  | applied tenantId previous status => cases h
  | left => cases h

/-- A delivery that has applied statuses is past its look. -/
theorem active_of_hasApplied {phase : DeliveryPhase} (h : phase.hasApplied = true) :
    phase.stage.active := by
  cases phase with
  | applied tenantId previous status => exact Or.inl rfl
  | handled notified applied => exact Or.inl rfl
  | marked notified applied => exact Or.inr rfl
  | start => cases h
  | checked => cases h
  | checkout tenant => cases h
  | resolved tenantId => cases h
  | left => cases h

/-! ## The conditions of a step -/

section Runs

variable (events : ι → StripeEvent)

/-- The event that a delivery carries, if it has an object and an id. -/
def eventIdOf (i : Option ι) : Option String :=
  i.bind fun i =>
    if (events i).data.isSome && truthy (events i).id then (events i).id else none

/-- The step is the look of a delivery of an event id, and does not find the marker. -/
def FindsUnprocessed (c : DeliveryConfig ι) (l : Option ι × DeliveryTick) (eventId : String) :
    Prop :=
  eventIdOf events l.1 = some eventId ∧ c.phase l.1 = .start ∧
    (alreadyProcessed eventId (c.shared.advance l.2.elapsed)).1 = false

/-- The marker of the event id has been set, whether or not its time is over. -/
def HasProcessed (s : BillingState) (eventId : String) : Prop :=
  ∃ deadline, s.cache.redis.entry eventId = some (true, deadline)

/-- A step that keeps an event id to one delivery: when a delivery does not find the marker,
no other delivery of the event id is past its look and short of its marking, and no marker of
the event id has run out; and a fallback lands on no marker. -/
structure KeepsOnce (c : DeliveryConfig ι) (l : Option ι × DeliveryTick) : Prop where
  alone : ∀ eventId, FindsUnprocessed events c l eventId →
    ∀ j, eventIdOf events j = some eventId → ¬(c.phase j).atWork
  lasting : ∀ eventId, FindsUnprocessed events c l eventId → ¬HasProcessed c.shared eventId
  kept : ∀ eventId, l.1 = none → HasProcessed c.shared eventId →
    (c.shared.advance l.2.elapsed).cache.landing l.2.slot eventId = none

/-- The domain events of an event id. -/
def emittedFor (s : BillingState) (eventId : String) : List BillingStatusChangedEvent :=
  s.emitted.filter fun e => e.eventId == eventId

/-- Every event id has at most one domain event. -/
def EmittedOnce (c : DeliveryConfig ι) : Prop :=
  ∀ eventId, eventId ≠ "" → (emittedFor c.shared eventId).length ≤ 1

/-- Every event id has at most one delivery that applies its statuses. -/
def AppliedOnce (c : DeliveryConfig ι) : Prop :=
  ∀ eventId i j, eventIdOf events i = some eventId → eventIdOf events j = some eventId →
    (c.phase i).hasApplied = true → (c.phase j).hasApplied = true → i = j

/-! ## Deliveries as work that a marker admits once -/

/-- Deliveries with the markers of their event ids. -/
def deliveryGuard : OnceGuard (deliveryCalls events) String where
  key := eventIdOf events
  stage := DeliveryPhase.stage
  stored := HasProcessed
  seen c l eventId := (alreadyProcessed eventId (c.shared.advance l.2.elapsed)).1 = true

omit [DecidableEq ι] in
/-- The event of a delivery that carries an event id. -/
theorem event_of_eventIdOf {i : Option ι} {eventId : String}
    (hi : eventIdOf events i = some eventId) :
    ∃ k obj, i = some k ∧ (events k).data = some obj ∧ truthy (events k).id = true ∧
      (events k).id = some eventId := by
  cases i with
  | none => cases hi
  | some k =>
      simp only [eventIdOf, Option.bind_some] at hi
      cases hdata : (events k).data with
      | none =>
          rw [hdata] at hi
          cases hi
      | some obj =>
          rw [hdata] at hi
          by_cases hid : truthy (events k).id = true
          · rw [hid, Option.isSome_some] at hi
            exact ⟨k, obj, rfl, hdata, hid, hi⟩
          · rw [Bool.not_eq_true] at hid
            rw [hid] at hi
            cases hi

omit [DecidableEq ι] in
/-- The step of a delivery that carries an event id. -/
theorem next_of_eventIdOf {i : Option ι} {eventId : String}
    (hi : eventIdOf events i = some eventId) :
    ∃ event obj, truthy event.id = true ∧ event.id = some eventId ∧
      ∀ tick s phase, (deliveryCalls events).next i tick s phase =
        deliveryStep event obj tick.env (s.advance tick.elapsed) phase := by
  rcases event_of_eventIdOf events hi with ⟨k, obj, rfl, hdata, htruthy, hid⟩
  refine ⟨events k, obj, htruthy, hid, ?_⟩
  intro tick s phase
  simp only [deliveryCalls, hdata]

/-- What a step does to the markers and the domain events, whoever moves: a value lands,
nothing happens, a delivery sends its domain event, or a delivery sets its marker. -/
theorem delivery_step_effect (c : DeliveryConfig ι) (l : Option ι × DeliveryTick) :
    (l.1 = none ∧ ((deliveryCalls events).step c l).shared =
        { c.shared with cache := (c.shared.cache.advance l.2.elapsed).land l.2.slot }) ∨
      SameEffects (c.shared.advance l.2.elapsed) ((deliveryCalls events).step c l).shared ∨
      (∃ i obj, l.1 = some i ∧ (events i).data = some obj ∧
        Notifies (events i) (c.shared.advance l.2.elapsed)
          ((deliveryCalls events).step c l).shared (c.phase l.1)
          (((deliveryCalls events).step c l).phase l.1)) ∨
      ∃ i, l.1 = some i ∧ ((deliveryCalls events).step c l).shared =
        markProcessed (events i).id (c.shared.advance l.2.elapsed) := by
  rcases l with ⟨_ | i, tick⟩
  · exact Or.inl ⟨rfl, rfl⟩
  · right
    rw [CallSystem.step_shared, CallSystem.step_phase_self]
    cases hdata : (events i).data with
    | none =>
        left
        simp only [deliveryCalls, hdata]
        exact .refl _
    | some obj =>
        simp only [deliveryCalls, hdata]
        rcases deliveryStep_effect (events i) obj tick.env (c.shared.advance tick.elapsed)
          (c.phase (some i)) with hsame | hnotifies | ⟨_, hmark⟩
        · exact Or.inl hsame
        · exact Or.inr (Or.inl ⟨i, obj, rfl, hdata, hnotifies⟩)
        · exact Or.inr (Or.inr ⟨i, rfl, hmark⟩)

omit [DecidableEq ι] in
theorem hasProcessed_markProcessed_self {id : Option String} {eventId : String}
    (htruthy : truthy id = true) (hid : id = some eventId) (s : BillingState) :
    HasProcessed (markProcessed id s) eventId := by
  unfold markProcessed
  rw [if_pos htruthy]
  subst hid
  exact ⟨_, CacheState.setEx_entry_self s.cache eventId true (by decide)⟩

/-- A marker that is set stays set when another one is set. -/
theorem hasProcessed_markProcessed {id : Option String} {eventId : String} {s : BillingState}
    (h : HasProcessed s eventId) : HasProcessed (markProcessed id s) eventId := by
  unfold markProcessed
  by_cases htruthy : truthy id = true
  · rw [if_pos htruthy]
    by_cases hown : eventId = id.getD ""
    · subst hown
      exact ⟨_, CacheState.setEx_entry_self s.cache (id.getD "") true (by decide)⟩
    · rcases h with ⟨deadline, hentry⟩
      exact ⟨deadline, (CacheState.setEx_entry_of_ne s.cache hown true _).trans hentry⟩
  · rw [if_neg htruthy]
    exact h

/-- A delivery looks before it works and sets the marker after it. -/
theorem delivery_lawful : (deliveryGuard events).Lawful (fun _ => True) where
  keeps _ _ _ := trivial
  unseen c l eventId _ henters hl hseen := by
    rcases next_of_eventIdOf events hl with ⟨event, obj, htruthy, hid, hnext⟩
    have hinside : (((deliveryCalls events).step c l).phase l.1).atWork := henters.2
    rw [CallSystem.step_phase_self, hnext] at hinside
    rcases deliveryStep_atWork hinside with ⟨_, hunseen⟩ | hwork
    · have hfound := hunseen htruthy
      rw [hid, Option.getD_some] at hfound
      exact absurd (hseen.symm.trans hfound) (by decide)
    · cases hwork.symm.trans henters.1
  inside c l eventId _ hl hinside := by
    rcases next_of_eventIdOf events hl with ⟨event, obj, _, _, hnext⟩
    have hwork : (((deliveryCalls events).step c l).phase l.1).atWork := hinside
    rw [CallSystem.step_phase_self, hnext] at hwork
    rcases deliveryStep_atWork hwork with ⟨hstart, _⟩ | hstill
    · left
      show (c.phase l.1).stage = .before
      rw [hstart]
      rfl
    · exact Or.inr hstill
  marked c l eventId _ hl hmarked := by
    rcases next_of_eventIdOf events hl with ⟨event, obj, htruthy, hid, hnext⟩
    have hstage : (((deliveryCalls events).step c l).phase l.1).stage = .marked := hmarked
    rw [CallSystem.step_phase_self, hnext] at hstage
    rcases deliveryStep_marked hstage with hstill | ⟨hwork, hmark⟩
    · exact Or.inl hstill
    · right
      refine ⟨hwork, ?_⟩
      show HasProcessed _ _
      rw [CallSystem.step_shared, hnext, hmark]
      exact hasProcessed_markProcessed_self htruthy hid _

/-- A step that meets the conditions keeps the deliveries of an event id apart. -/
theorem safe_of_keepsOnce {c : DeliveryConfig ι} {l : Option ι × DeliveryTick}
    (hkeeps : KeepsOnce events c l) : (deliveryGuard events).Safe c l := by
  have hfinds : (deliveryGuard events).Enters c l → ∀ eventId,
      eventIdOf events l.1 = some eventId → FindsUnprocessed events c l eventId := by
    intro henters eventId hl
    rcases next_of_eventIdOf events hl with ⟨event, obj, htruthy, hid, hnext⟩
    have hinside : (((deliveryCalls events).step c l).phase l.1).atWork := henters.2
    rw [CallSystem.step_phase_self, hnext] at hinside
    rcases deliveryStep_atWork hinside with ⟨hstart, hunseen⟩ | hwork
    · have hfound := hunseen htruthy
      rw [hid, Option.getD_some] at hfound
      exact ⟨hl, hstart, hfound⟩
    · cases hwork.symm.trans henters.1
  constructor
  · intro henters j eventId hl hj _
    exact hkeeps.alone eventId (hfinds henters eventId hl) j hj
  · intro j eventId _ _ hstored
    show HasProcessed _ _
    rcases delivery_step_effect events c l with ⟨hnone, hland⟩ | hsame |
      ⟨i, obj, _, _, hnotifies⟩ | ⟨i, _, hmark⟩
    · rcases hstored with ⟨deadline, hentry⟩
      refine ⟨deadline, ?_⟩
      rw [hland]
      refine (CacheState.land_entry _ _ _).trans ?_
      have hlanding := hkeeps.kept eventId hnone ⟨deadline, hentry⟩
      rw [show (c.shared.cache.advance l.2.elapsed).landing l.2.slot eventId = none from hlanding,
        Option.none_or]
      exact hentry
    · rcases hstored with ⟨deadline, hentry⟩
      exact ⟨deadline, by rw [hsame.redis]; exact hentry⟩
    · rcases hstored with ⟨deadline, hentry⟩
      exact ⟨deadline, by rw [hnotifies.redis]; exact hentry⟩
    · rw [hmark]
      exact hasProcessed_markProcessed hstored
  · intro henters j eventId hl _ _ hstored
    exact absurd hstored (hkeeps.lasting eventId (hfinds henters eventId hl))

/-! ## One domain event -/

/-- Every event id has at most one domain event, and then a delivery that has sent it. -/
def Accounted (c : DeliveryConfig ι) : Prop :=
  ∀ eventId, eventId ≠ "" → emittedFor c.shared eventId = [] ∨
    (emittedFor c.shared eventId).length = 1 ∧
      ∃ j, eventIdOf events j = some eventId ∧ (c.phase j).notified = true

omit [DecidableEq ι] in
/-- The domain events of an event id do not change when the list of domain events does not. -/
theorem emittedFor_congr {s s' : BillingState} (h : s'.emitted = s.emitted) (eventId : String) :
    emittedFor s' eventId = emittedFor s eventId := by
  unfold emittedFor
  rw [h]

/-- A delivery that has sent its domain event has still sent it after any step. -/
theorem notified_stays {c : DeliveryConfig ι} {l : Option ι × DeliveryTick} {j : Option ι}
    {eventId : String} (hj : eventIdOf events j = some eventId)
    (h : (c.phase j).notified = true) :
    (((deliveryCalls events).step c l).phase j).notified = true := by
  by_cases hmoves : j = l.1
  · subst hmoves
    rcases next_of_eventIdOf events hj with ⟨event, obj, _, _, hnext⟩
    rw [CallSystem.step_phase_self, hnext]
    exact deliveryStep_notified h
  · rw [CallSystem.step_phase_of_ne _ _ _ hmoves]
    exact h

/-- Where deliveries are kept apart, a step keeps the account of the domain events. -/
theorem accounted_step {c : DeliveryConfig ι} {l : Option ι × DeliveryTick}
    (hinv : (deliveryGuard events).Inv c) (haccounted : Accounted events c) :
    Accounted events ((deliveryCalls events).step c l) := by
  intro eventId hne
  have hquiet : ((deliveryCalls events).step c l).shared.emitted = c.shared.emitted →
      emittedFor ((deliveryCalls events).step c l).shared eventId = [] ∨
        (emittedFor ((deliveryCalls events).step c l).shared eventId).length = 1 ∧
          ∃ j, eventIdOf events j = some eventId ∧
            (((deliveryCalls events).step c l).phase j).notified = true := by
    intro hemitted
    rw [emittedFor_congr hemitted eventId]
    rcases haccounted eventId hne with hempty | ⟨hone, j, hj, hnotified⟩
    · exact Or.inl hempty
    · exact Or.inr ⟨hone, j, hj, notified_stays events hj hnotified⟩
  rcases delivery_step_effect events c l with ⟨_, hland⟩ | hsame |
    ⟨i, obj, hi, hdata, hnotifies⟩ | ⟨i, _, hmark⟩
  · exact hquiet (by rw [hland])
  · exact hquiet hsame.emitted
  · rcases hnotifies.emitted with ⟨e, he, hemitted⟩
    have hold : (c.shared.advance l.2.elapsed).emitted = c.shared.emitted := rfl
    have hsplit : emittedFor ((deliveryCalls events).step c l).shared eventId =
        emittedFor c.shared eventId ++ [e].filter (fun e => e.eventId == eventId) := by
      unfold emittedFor
      rw [hemitted, hold, List.filter_append]
    by_cases hown : e.eventId = eventId
    · -- The moving delivery carries the event id, so nobody has sent its domain event yet.
      have hl : eventIdOf events l.1 = some eventId := by
        rw [hi]
        cases hid : (events i).id with
        | none =>
            rw [hid] at he
            exact absurd (hown.symm.trans he) hne
        | some id =>
            rw [hid, Option.getD_some] at he
            rw [he] at hown
            subst hown
            simp [eventIdOf, hdata, hid, truthy, hne]
      have hnobody : emittedFor c.shared eventId = [] := by
        rcases haccounted eventId hne with hempty | ⟨_, j, hj, hnotified⟩
        · exact hempty
        · have hsame := hinv.unique l.1 j eventId hl hj (Or.inl hnotifies.working)
            (active_of_notified hnotified)
          rw [← hsame, hnotifies.before] at hnotified
          cases hnotified
      right
      rw [hsplit, hnobody]
      refine ⟨?_, l.1, hl, hnotifies.after⟩
      simp [hown]
    · have hsilent : emittedFor ((deliveryCalls events).step c l).shared eventId =
          emittedFor c.shared eventId := by
        rw [hsplit]
        simp [hown]
      rw [hsilent]
      rcases haccounted eventId hne with hempty | ⟨hone, j, hj, hnotified⟩
      · exact Or.inl hempty
      · exact Or.inr ⟨hone, j, hj, notified_stays events hj hnotified⟩
  · refine hquiet ?_
    rw [hmark]
    unfold markProcessed
    split <;> rfl

/-- In a run whose steps all meet the conditions, each event id has at most one domain event
and at most one delivery that applies its statuses. -/
theorem deliveries_once {c : DeliveryConfig ι} {ls : List (Option ι × DeliveryTick)}
    (hstart : ∀ i, c.phase i = .start) (hsilent : c.shared.emitted = [])
    (hall : (deliveryCalls events).EachStep (KeepsOnce events) c ls) :
    EmittedOnce ((deliveryCalls events).run c ls) ∧
      AppliedOnce events ((deliveryCalls events).run c ls) := by
  have hbegin : (deliveryGuard events).Inv c ∧ Accounted events c := by
    refine ⟨OnceGuard.inv_start fun i => ?_, fun eventId _ => Or.inl ?_⟩
    · rw [hstart i]
      rfl
    · unfold emittedFor
      rw [hsilent]
      rfl
  have hend := CallSystem.run_induction
    (I := fun c => (deliveryGuard events).Inv c ∧ Accounted events c) (deliveryCalls events)
    (fun c l h hkeeps => ⟨OnceGuard.inv_step (delivery_lawful events) trivial h.1
      (safe_of_keepsOnce events hkeeps), accounted_step events h.1 h.2⟩) hbegin hall
  constructor
  · intro eventId hne
    rcases hend.2 eventId hne with hempty | ⟨hone, _⟩
    · rw [hempty]
      exact Nat.zero_le 1
    · exact hone.le
  · intro eventId i j hi hj hai haj
    exact hend.1.unique i j eventId hi hj (active_of_hasApplied hai) (active_of_hasApplied haj)

/-! ## A delivery that is not interleaved -/

/-- The state after some steps of a delivery that nothing comes between. -/
def deliveryAlone (event : StripeEvent) (obj : StripeObject) (env : BillingEnv) :
    ℕ → BillingState × DeliveryPhase → BillingState
  | 0, x => x.1
  | n + 1, x => deliveryAlone event obj env n (deliveryStep event obj env x.1 x.2)

theorem deliveryAlone_eq (event : StripeEvent) (obj : StripeObject) (env : BillingEnv) (n : ℕ)
    (x : BillingState × DeliveryPhase) :
    ((fun x : BillingState × DeliveryPhase => deliveryStep event obj env x.1 x.2)^[n] x).1 =
      deliveryAlone event obj env n x := by
  induction n generalizing x with
  | zero => rfl
  | succ n ih => exact ih _

/-- A delivery that has ended stays where it is. -/
theorem deliveryAlone_left (event : StripeEvent) (obj : StripeObject) (env : BillingEnv) (n : ℕ)
    (s : BillingState) : deliveryAlone event obj env n (s, .left) = s := by
  induction n with
  | zero => rfl
  | succ n ih => exact ih

theorem resolveWith_of_error {α : Type} {x : Service (Option α)} {found : α → DeliveryPhase}
    {s s' : BillingState} {e : AppError} (h : onWorld x s = (.error e, s')) :
    resolveWith x found s = (s', .left) := by
  unfold resolveWith
  rw [h]

theorem resolveWith_of_none {α : Type} {x : Service (Option α)} {found : α → DeliveryPhase}
    {s s' : BillingState} (h : onWorld x s = (.ok none, s')) :
    resolveWith x found s = (s', .left) := by
  unfold resolveWith
  rw [h]

theorem resolveWith_of_some {α : Type} {x : Service (Option α)} {found : α → DeliveryPhase}
    {s s' : BillingState} {a : α} (h : onWorld x s = (.ok (some a), s')) :
    resolveWith x found s = (s', found a) := by
  unfold resolveWith
  rw [h]

/-- A completed checkout, step by step. -/
theorem checkout_alone {event : StripeEvent} {obj : StripeObject} (env : BillingEnv)
    (hevent : event.type = "checkout.session.completed") (s : BillingState) :
    deliveryAlone event obj env 4 (s, .checked) =
      (handleCheckoutSessionCompleted env event obj s).2 := by
  show deliveryAlone event obj env 3 (resolveStep event obj env s) = _
  unfold resolveStep handleCheckoutSessionCompleted
  rw [if_pos hevent]
  by_cases hmetadata : truthy obj.metadataTenantId = true
  · rw [if_pos hmetadata, if_pos hmetadata]
    rcases hfound : onWorld (tenantOfMetadata env obj) s with ⟨_ | _ | tenant, s₁⟩
    · rw [Fallible.bind_of_error hfound, resolveWith_of_error hfound, deliveryAlone_left]
    · rw [Fallible.bind_of_ok hfound, resolveWith_of_none hfound, deliveryAlone_left]
      rfl
    · rw [Fallible.bind_of_ok hfound, resolveWith_of_some hfound]
      show markProcessed event.id (onWorld (persistStripeIds env obj tenant) s₁).2 = _
      rcases hpersist : onWorld (persistStripeIds env obj tenant) s₁ with ⟨_ | _, s₂⟩
      · simp [Fallible.bind_apply, Fallible.orElse, hpersist]
      · simp [Fallible.bind_apply, Fallible.orElse, hpersist]
  · rw [if_neg hmetadata, if_neg hmetadata, deliveryAlone_left]
    rfl

/-- The notice of a trial that ends, step by step. -/
theorem trial_alone {event : StripeEvent} {obj : StripeObject} (env : BillingEnv)
    (hevent : event.type = "customer.subscription.trial_will_end") (s : BillingState) :
    deliveryAlone event obj env 4 (s, .checked) = (handleTrialWillEnd env event obj s).2 := by
  have hne : event.type ≠ "checkout.session.completed" := by
    rw [hevent]
    decide
  show deliveryAlone event obj env 3 (resolveStep event obj env s) = _
  unfold resolveStep handleTrialWillEnd
  rw [if_neg hne, if_pos hevent]
  rcases hfound : onWorld (resolveTenant env obj.id obj.customer obj.metadataTenantId) s with
    ⟨_ | _ | tenantId, s₁⟩
  · rw [Fallible.bind_of_error hfound, resolveWith_of_error hfound, deliveryAlone_left]
  · rw [Fallible.bind_of_ok hfound, resolveWith_of_none hfound, deliveryAlone_left]
    rfl
  · rw [Fallible.bind_of_ok hfound, resolveWith_of_some hfound]
    have happly : applyStep event obj env tenantId s₁ =
        (emit (trialWillEnd event tenantId) s₁, .handled true false) := if_pos hevent
    show deliveryAlone event obj env 2 (applyStep event obj env tenantId s₁) = _
    rw [happly]
    rfl

/-- An event that maps to statuses, step by step. -/
theorem status_alone {event : StripeEvent} {obj : StripeObject} (env : BillingEnv)
    (hcheckout : event.type ≠ "checkout.session.completed")
    (htrial : event.type ≠ "customer.subscription.trial_will_end") (s : BillingState) :
    deliveryAlone event obj env 4 (s, .checked) = (handleStatusChange env event obj s).2 := by
  show deliveryAlone event obj env 3 (resolveStep event obj env s) = _
  unfold resolveStep handleStatusChange
  rw [if_neg hcheckout, if_neg htrial]
  rcases hfound : onWorld
    (resolveTenant env (stripeIds obj).1 (stripeIds obj).2 obj.metadataTenantId) s with
    ⟨_ | _ | tenantId, s₁⟩
  · rw [Fallible.bind_of_error hfound, resolveWith_of_error hfound, deliveryAlone_left]
  · rw [Fallible.bind_of_ok hfound, resolveWith_of_none hfound, deliveryAlone_left]
    rfl
  · rw [Fallible.bind_of_ok hfound, resolveWith_of_some hfound]
    have happly : ∀ n, deliveryAlone event obj env (n + 1) (s₁, .resolved tenantId) =
        deliveryAlone event obj env n (applyStep event obj env tenantId s₁) := fun _ => rfl
    cases hmap : mapStatuses event.type obj with
    | unhandled => exact deliveryAlone_left event obj env 3 s₁
    | keep =>
        rw [if_neg (by decide), happly, applyStep, if_neg htrial, hmap]
        rfl
    | change status tenantStatus =>
        rw [if_neg (by simp), happly, applyStep, if_neg htrial, hmap]
        simp only [reduceCtorEq, if_false]
        rcases hrun : onWorld (applyStatuses env event.type obj (stripeIds obj).1 tenantId
          status tenantStatus) s₁ with ⟨_ | previous, s₂⟩
        · simp [deliveryAlone, deliveryStep, hrun, applyAndEmit, Fallible.bind_apply]
        · simp [deliveryAlone, deliveryStep, hrun, applyAndEmit, Fallible.bind_apply]

/-- The handler of an event that is not a duplicate, step by step. -/
theorem dispatch_alone (event : StripeEvent) (obj : StripeObject) (env : BillingEnv)
    (s : BillingState) :
    deliveryAlone event obj env 4 (s, .checked) = (dispatch env event obj s).2 := by
  unfold dispatch
  by_cases hcheckout : event.type = "checkout.session.completed"
  · rw [if_pos hcheckout]
    exact checkout_alone env hcheckout s
  · rw [if_neg hcheckout]
    by_cases htrial : event.type = "customer.subscription.trial_will_end"
    · rw [if_pos htrial]
      exact trial_alone env htrial s
    · rw [if_neg htrial]
      exact status_alone env hcheckout htrial s

/-- A delivery whose steps are not interleaved and take no time is the handler. -/
theorem delivery_alone {i : ι} {obj : StripeObject} (hdata : (events i).data = some obj)
    (env : BillingEnv) {c : DeliveryConfig ι} (hstart : c.phase (some i) = .start) :
    ((deliveryCalls events).run c (List.replicate 5 (some i, { env := env }))).shared =
      (handleStripeWebhook env (events i) c.shared).2 := by
  have hnext : (fun x : BillingState × DeliveryPhase =>
      (deliveryCalls events).next (some i) { env := env } x.1 x.2) =
        fun x => deliveryStep (events i) obj env x.1 x.2 := by
    funext x
    simp only [deliveryCalls, hdata]
    rfl
  have hrun := congrArg Prod.fst
    ((deliveryCalls events).run_replicate (some i) { env := env } 5 c)
  rw [hnext, hstart, deliveryAlone_eq] at hrun
  refine hrun.trans ?_
  unfold handleStripeWebhook
  rw [hdata, deliveryAlone]
  simp only [deliveryStep]
  by_cases htruthy : truthy (events i).id = true
  · rw [if_pos htruthy, if_pos htruthy]
    rcases alreadyProcessed ((events i).id.getD "") c.shared with ⟨_ | _, s⟩
    · exact dispatch_alone (events i) obj env s
    · exact deliveryAlone_left _ _ _ 4 s
  · rw [if_neg htruthy, if_neg htruthy]
    exact dispatch_alone (events i) obj env c.shared

end Runs

/-! ## Two deliveries of one event -/

/-- Two deliveries of a failed payment. -/
def twoDeliveries : Fin 2 → StripeEvent :=
  fun _ => paymentFailed

def deliveriesStart : DeliveryConfig (Fin 2) where
  shared := sampleState
  phase _ := .start

omit [DecidableEq ι] in
/-- A step of a delivery that has looked meets the conditions. -/
theorem keepsOnce_of_no_look {events : ι → StripeEvent} {c : DeliveryConfig ι} {i : ι}
    {tick : DeliveryTick} (hlook : c.phase (some i) ≠ .start) :
    KeepsOnce events c (some i, tick) where
  alone _ h := absurd h.2.1 hlook
  lasting _ h := absurd h.2.1 hlook
  kept _ h := by cases h

/-- One delivery after the other. -/
theorem deliveries_in_turn :
    EmittedOnce ((deliveryCalls twoDeliveries).run deliveriesStart
        [(some 0, { env := ownerEnv }), (some 0, { env := ownerEnv }),
          (some 0, { env := ownerEnv }), (some 0, { env := ownerEnv }),
          (some 0, { env := ownerEnv }), (some 1, { env := ownerEnv })]) ∧
      AppliedOnce twoDeliveries ((deliveryCalls twoDeliveries).run deliveriesStart
        [(some 0, { env := ownerEnv }), (some 0, { env := ownerEnv }),
          (some 0, { env := ownerEnv }), (some 0, { env := ownerEnv }),
          (some 0, { env := ownerEnv }), (some 1, { env := ownerEnv })]) := by
  refine deliveries_once twoDeliveries (fun _ => rfl) rfl ⟨?_, ?_, ?_, ?_, ?_, ?_, trivial⟩
  · -- Nobody else has looked, and there is no marker.
    constructor
    · intro eventId _ j _ hwork
      cases hwork
    · rintro eventId _ ⟨deadline, hentry⟩
      cases hentry
    · intro eventId h
      cases h
  · exact keepsOnce_of_no_look (by decide +kernel)
  · exact keepsOnce_of_no_look (by decide +kernel)
  · exact keepsOnce_of_no_look (by decide +kernel)
  · exact keepsOnce_of_no_look (by decide +kernel)
  · -- The second delivery finds the marker.
    have hnever : ∀ eventId, ¬FindsUnprocessed twoDeliveries
        ((deliveryCalls twoDeliveries).run deliveriesStart
          [(some 0, { env := ownerEnv }), (some 0, { env := ownerEnv }),
            (some 0, { env := ownerEnv }), (some 0, { env := ownerEnv }),
            (some 0, { env := ownerEnv })]) (some 1, { env := ownerEnv }) eventId := by
      rintro eventId ⟨hid, _, hunseen⟩
      cases hid
      revert hunseen
      decide +kernel
    constructor
    · exact fun eventId h => absurd h (hnever eventId)
    · exact fun eventId h => absurd h (hnever eventId)
    · intro eventId h
      cases h

/-- Two deliveries that both look before either marks both apply the statuses and send two
domain events. -/
theorem deliveries_twice :
    (¬∀ ls, EmittedOnce ((deliveryCalls twoDeliveries).run deliveriesStart ls)) ∧
      ¬∀ ls, AppliedOnce twoDeliveries
        ((deliveryCalls twoDeliveries).run deliveriesStart ls) := by
  constructor
  · intro honce
    have hshort := honce [(some 0, { env := ownerEnv }), (some 1, { env := ownerEnv }),
      (some 0, { env := ownerEnv }), (some 0, { env := ownerEnv }),
      (some 0, { env := ownerEnv }), (some 1, { env := ownerEnv }),
      (some 1, { env := ownerEnv }), (some 1, { env := ownerEnv })] "evt_1" (by decide)
    revert hshort
    decide +kernel
  · intro honce
    have hsame := honce [(some 0, { env := ownerEnv }), (some 1, { env := ownerEnv }),
      (some 0, { env := ownerEnv }), (some 0, { env := ownerEnv }),
      (some 1, { env := ownerEnv }), (some 1, { env := ownerEnv })] "evt_1" (some 0) (some 1)
      (by decide +kernel) (by decide +kernel) (by decide +kernel) (by decide +kernel)
    cases hsame

end Billing
end Eleva
