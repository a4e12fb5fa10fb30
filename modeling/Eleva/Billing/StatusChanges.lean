import Eleva.Foundation.Machine
import Eleva.Billing.BillingService

/-!
# Billing - Status changes and the processed marker

Deliveries handled one at a time, with time passing and fallback values landing between
them.  An event is marked as processed whether or not its transaction went through, so the
marker alone does not say that the statuses were applied.

Main results:

- Theorem {lit}`applyStatuses_run`: when the transaction of a status change goes through,
  and what it leaves.
- Theorem {lit}`status_change_kept_iff`: over every run, a marked event has left its
  statuses exactly when each delivery that reaches the marking meets
  {lit}`ReachesStatuses`.
- Theorem {lit}`status_change_lost`: a failed transaction is marked, and the redelivery is
  skipped.
-/

namespace Eleva
namespace Billing

open Foundation Database Cache

/-! ## The transaction of a status change -/

section Transaction

variable {env : BillingEnv} {eventType : String} {obj : StripeObject}
  {stripeSubscriptionId : Option String} {tenantId : Id} {status : SubscriptionStatus}
  {tenantStatus : TenantStatus} {w : World}

/-- The conditions under which the transaction commits: a platform owner's context without a
tenant, no failing step, and a tenant to update. -/
structure GoesThrough (env : BillingEnv) (db : Db) (tenantId : Id) : Prop where
  context : env.context.Sees none
  steps : ∀ step, step ∈ [BillingStep.currentStatus, .subscriptionUpdate, .tenantUpdate, .commit] →
    env.fails step = false
  tenant : db.tenants.any (fun t => t.id == tenantId) = true

instance (context : TenantContext) : Decidable (context.Sees none) :=
  inferInstanceAs (Decidable (_ ∧ _))

instance (env : BillingEnv) (db : Db) (tenantId : Id) : Decidable (GoesThrough env db tenantId) :=
  decidable_of_iff (env.context.Sees none ∧
      (∀ step ∈ [BillingStep.currentStatus, .subscriptionUpdate, .tenantUpdate, .commit],
        env.fails step = false) ∧
      db.tenants.any (fun t => t.id == tenantId) = true)
    ⟨fun h => ⟨h.1, h.2.1, h.2.2⟩, fun h => ⟨h.context, h.steps, h.tenant⟩⟩

/-- The subscription is one that the event names. -/
def named (stripeSubscriptionId : Option String) (tenantId : Id) (s : Subscription) : Bool :=
  if truthy stripeSubscriptionId then s.stripeSubscriptionId == stripeSubscriptionId
  else s.tenantId == tenantId

theorem subscriptionWhere_admits (s : Subscription) :
    (subscriptionWhere stripeSubscriptionId tenantId).admits prisma.subscription s =
      named stripeSubscriptionId tenantId s := by
  unfold subscriptionWhere named
  cases htruthy : truthy stripeSubscriptionId with
  | true => simp [Where.admits, prisma.subscription, ColumnKey.admits]
  | false =>
      simp only [Where.admits, prisma.subscription, ColumnKey.admits, Bool.false_eq_true, if_false,
        Option.all_none, Bool.and_true, Bool.true_and]
      show (some s.tenantId == some tenantId) = (s.tenantId == tenantId)
      simp

/-- The database once the statuses are applied. -/
def applied (eventType : String) (obj : StripeObject) (stripeSubscriptionId : Option String)
    (tenantId : Id) (status : SubscriptionStatus) (tenantStatus : TenantStatus) (db : Db) : Db :=
  { db with
    subscriptions := db.subscriptions.map fun s =>
      if named stripeSubscriptionId tenantId s then
        (subscriptionPayload eventType obj stripeSubscriptionId status).apply s
      else s
    tenants := db.tenants.map fun t =>
      if t.id = tenantId then { t with status := tenantStatus } else t }

theorem subscriptionPayload_apply (eventType : String) (obj : StripeObject)
    (stripeSubscriptionId : Option String) (status : SubscriptionStatus) (s : Subscription) :
    ((subscriptionPayload eventType obj stripeSubscriptionId status).apply s).id = s.id ∧
      ((subscriptionPayload eventType obj stripeSubscriptionId status).apply s).tenantId =
        s.tenantId ∧
      ((subscriptionPayload eventType obj stripeSubscriptionId status).apply s).status =
        status := by
  unfold subscriptionPayload Payload.apply
  simp only
  split
  · exact ⟨subscriptionData_id .., subscriptionData_tenantId .., subscriptionData_status ..⟩
  · exact ⟨rfl, rfl, rfl⟩

/-- Rewriting a subscription with the event's columns touches no key. -/
theorem rewritten_keys (p : Subscription → Bool) :
    ∀ key ∈ subscriptions.uniqueKeys, ∀ s,
      key (if p s then (subscriptionPayload eventType obj stripeSubscriptionId status).apply s
        else s) = key s := by
  intro key hkey s
  have hsame := subscriptionPayload_apply eventType obj stripeSubscriptionId status s
  simp only [subscriptions, List.mem_cons, List.not_mem_nil, or_false] at hkey
  rcases hkey with rfl | rfl
  · split
    · exact congrArg some hsame.1
    · rfl
  · split
    · exact congrArg some hsame.2.1
    · rfl

/-- The update of the subscriptions, in a platform owner's context. -/
theorem subscriptionUpdate_run (eventType : String) (obj : StripeObject)
    (stripeSubscriptionId : Option String) (tenantId : Id) (status : SubscriptionStatus)
    (hcontext : env.context.Sees none)
    (hvalid : subscriptions.Valid w.db) :
    ∃ n, subscriptions.run (prisma.subscription.updateMany env.toEnv
        (subscriptionWhere stripeSubscriptionId tenantId)
        (subscriptionPayload eventType obj stripeSubscriptionId status)) w =
      (.ok n, { w with db := { w.db with
        subscriptions := w.db.subscriptions.map fun s =>
          if named stripeSubscriptionId tenantId s then
            (subscriptionPayload eventType obj stripeSubscriptionId status).apply s
          else s } }) := by
  have hrewrite : (fun s => if (subscriptionWhere stripeSubscriptionId tenantId).admits
        prisma.subscription s then
          (subscriptionPayload eventType obj stripeSubscriptionId status).apply s else s) =
      fun s => if named stripeSubscriptionId tenantId s then
          (subscriptionPayload eventType obj stripeSubscriptionId status).apply s else s := by
    funext s
    rw [subscriptionWhere_admits]
  have haccepts : ({ rows := subscriptions.get w.db, uniqueKeys := subscriptions.uniqueKeys } :
      Store Subscription).accepts ((subscriptions.get w.db).map fun s =>
        if (subscriptionWhere stripeSubscriptionId tenantId).admits prisma.subscription s then
          (subscriptionPayload eventType obj stripeSubscriptionId status).apply s else s) =
      true := by
    rw [hrewrite]
    exact TableOf.accepts_map hvalid (rewritten_keys _)
  have hknown : ({
      whereArg := subscriptionWhere stripeSubscriptionId tenantId
      data := subscriptionPayload eventType obj stripeSubscriptionId status } :
        Args Subscription).unknownColumn prisma.subscription = false := by
    unfold subscriptionWhere
    split <;> rfl
  have hmany := Delegate.updateMany_apply hcontext (by decide) hknown
    { rows := subscriptions.get w.db, uniqueKeys := subscriptions.uniqueKeys } haccepts
  rcases hmany with ⟨n, hrun⟩
  rw [hrewrite] at hrun
  refine ⟨n, TableOf.run_of_ok hrun ?_⟩
  intro r hr
  rcases List.mem_map.mp hr with ⟨s, hs, rfl⟩
  right
  have href := hvalid.2 s hs
  have htenant : (if named stripeSubscriptionId tenantId s then
      (subscriptionPayload eventType obj stripeSubscriptionId status).apply s
      else s).tenantId = s.tenantId := by
    split
    · exact (subscriptionPayload_apply ..).2.1
    · rfl
  simp only [subscriptions] at href ⊢
  rw [htenant]
  exact href

/-- Where the conditions hold, the transaction commits and applies the statuses. -/
theorem applyStatuses_commits (eventType : String) (obj : StripeObject)
    (stripeSubscriptionId : Option String) (status : SubscriptionStatus)
    (tenantStatus : TenantStatus) (hvalid : subscriptions.Valid w.db)
    (hgoes : GoesThrough env w.db tenantId) :
    ∃ previous, applyStatuses env eventType obj stripeSubscriptionId tenantId status tenantStatus
        w = (.ok previous, { w with
          db := applied eventType obj stripeSubscriptionId tenantId status tenantStatus
            w.db }) := by
  have hstep := fun step h => hgoes.steps step h
  have hknown : ({ whereArg := subscriptionWhere stripeSubscriptionId tenantId } :
      Args Subscription).unknownColumn prisma.subscription = false := by
    unfold subscriptionWhere
    split <;> rfl
  have hlookup : ∃ found, subscriptions.run (prisma.subscription.findFirst env.toEnv
      (subscriptionWhere stripeSubscriptionId tenantId)) w = (.ok found, w) :=
    ⟨_, TableOf.run_client_findFirst hgoes.context (by decide) hknown w⟩
  rcases hlookup with ⟨found, hfind⟩
  rcases subscriptionUpdate_run eventType obj stripeSubscriptionId tenantId status
    hgoes.context hvalid with ⟨n, hupdate⟩
  unfold applyStatuses
  refine ⟨found.map (·.status), Fallible.transaction_eq_ok.mpr ?_⟩
  rw [hstep .currentStatus (by simp), hstep .subscriptionUpdate (by simp),
    hstep .tenantUpdate (by simp), hstep .commit (by simp)]
  simp only [attempt_false]
  rw [Fallible.bind_of_ok hfind, Fallible.bind_of_ok hupdate]
  have htenant : updateTenantStatus tenantId tenantStatus { w with db := { w.db with
      subscriptions := w.db.subscriptions.map fun s =>
        if named stripeSubscriptionId tenantId s then
          (subscriptionPayload eventType obj stripeSubscriptionId status).apply s else s } } =
      (.ok (), { w with
        db := applied eventType obj stripeSubscriptionId tenantId status tenantStatus w.db }) := by
    unfold updateTenantStatus
    rw [if_pos hgoes.tenant]
    rfl
  rw [Fallible.bind_of_ok htenant]
  rfl

/-- A transaction that commits met the conditions. -/
theorem goesThrough_of_commits (hvalid : subscriptions.Valid w.db)
    {previous : Option SubscriptionStatus} {w' : World}
    (h : applyStatuses env eventType obj stripeSubscriptionId tenantId status tenantStatus w =
      (.ok previous, w')) : GoesThrough env w.db tenantId := by
  unfold applyStatuses at h
  rcases Fallible.bind_eq_ok.mp (Fallible.transaction_eq_ok.mp h) with ⟨current, w₁, hfind, h⟩
  rcases Fallible.bind_eq_ok.mp h with ⟨n, w₂, hupdate, h⟩
  rcases Fallible.bind_eq_ok.mp h with ⟨_, w₃, htenant, h⟩
  rcases attempt_eq_ok.mp hfind with ⟨hfind', hfound⟩
  rcases attempt_eq_ok.mp hupdate with ⟨hupdate', hupdated⟩
  rcases attempt_eq_ok.mp htenant with ⟨htenant', hset⟩
  rcases attempt_eq_ok.mp h with ⟨hcommit', _⟩
  have hw₁ : w₁ = w := by
    have hstate : (subscriptions.run (prisma.subscription.findFirst env.toEnv
        (subscriptionWhere stripeSubscriptionId tenantId)) w).2 = w :=
      TableOf.run_findFirst_state _ w
    rw [hfound] at hstate
    exact hstate
  subst hw₁
  have hcontext : env.context.Sees none := by
    by_contra hnot
    have hmany := Delegate.updateMany_refused (m := prisma.subscription)
      (w := subscriptionWhere stripeSubscriptionId tenantId)
      (d := subscriptionPayload eventType obj stripeSubscriptionId status) hnot (by decide)
      { rows := subscriptions.get w₁.db, uniqueKeys := subscriptions.uniqueKeys }
    rcases hmany with ⟨e, hrefused⟩
    rw [TableOf.run_refused hrefused] at hupdated
    cases hupdated
  rcases subscriptionUpdate_run eventType obj stripeSubscriptionId tenantId status
    hcontext hvalid with ⟨n', hrun⟩
  cases hrun.symm.trans hupdated
  refine ⟨hcontext, ?_, ?_⟩
  · intro step hstep
    simp only [List.mem_cons, List.not_mem_nil, or_false] at hstep
    rcases hstep with rfl | rfl | rfl | rfl
    · exact hfind'
    · exact hupdate'
    · exact htenant'
    · exact hcommit'
  · unfold updateTenantStatus at hset
    by_cases hany : w₁.db.tenants.any (fun t => t.id == tenantId) = true
    · exact hany
    · rw [if_neg hany] at hset
      cases hset

/-- What the transaction of a status change leaves. -/
theorem applyStatuses_run (hvalid : subscriptions.Valid w.db) :
    (applyStatuses env eventType obj stripeSubscriptionId tenantId status tenantStatus w).2 =
      if GoesThrough env w.db tenantId then { w with
        db := applied eventType obj stripeSubscriptionId tenantId status tenantStatus w.db }
      else w := by
  split
  · rename_i hgoes
    rcases applyStatuses_commits eventType obj stripeSubscriptionId status tenantStatus hvalid
      hgoes with ⟨previous, hrun⟩
    rw [hrun]
  · rename_i hnot
    rcases hrun : applyStatuses env eventType obj stripeSubscriptionId tenantId status tenantStatus
      w with ⟨e | previous, w'⟩
    · exact Fallible.transaction_error hrun
    · exact absurd (goesThrough_of_commits hvalid hrun) hnot

end Transaction

/-! ## The keys that deliveries leave -/

/-- The same tenants, and the same subscriptions of the same tenants. -/
structure SameKeys (db db' : Db) : Prop where
  tenants : db'.tenants.map (·.id) = db.tenants.map (·.id)
  subscriptions : db'.subscriptions.map (fun s => (s.id, s.tenantId)) =
    db.subscriptions.map (fun s => (s.id, s.tenantId))

theorem SameKeys.refl (db : Db) : SameKeys db db :=
  ⟨rfl, rfl⟩

theorem SameKeys.trans {db db₁ db₂ : Db} (h₁ : SameKeys db db₁) (h₂ : SameKeys db₁ db₂) :
    SameKeys db db₂ :=
  ⟨h₂.tenants.trans h₁.tenants, h₂.subscriptions.trans h₁.subscriptions⟩

/-- The constraints on subscriptions look at keys only. -/
theorem valid_of_sameKeys {db db' : Db} (h : SameKeys db db')
    (hvalid : subscriptions.Valid db) : subscriptions.Valid db' := by
  have hids : db'.subscriptions.map (·.id) = db.subscriptions.map (·.id) := by
    simpa [Function.comp_def] using congrArg (List.map Prod.fst) h.subscriptions
  have htenants : db'.subscriptions.map (·.tenantId) = db.subscriptions.map (·.tenantId) := by
    simpa [Function.comp_def] using congrArg (List.map Prod.snd) h.subscriptions
  have hkeys : ∀ db : Db, (Store.mk (subscriptions.get db) subscriptions.uniqueKeys []).accepts
        (subscriptions.get db) = true ↔
      (db.subscriptions.map (·.id)).Nodup ∧ (db.subscriptions.map (·.tenantId)).Nodup := by
    intro db
    have hid : db.subscriptions.filterMap (fun s => some s.id) = db.subscriptions.map (·.id) := by
      rw [← List.filterMap_eq_map]
      rfl
    have htenant : db.subscriptions.filterMap (fun s => some s.tenantId) =
        db.subscriptions.map (·.tenantId) := by
      rw [← List.filterMap_eq_map]
      rfl
    simp [Store.accepts, subscriptions, hid, htenant]
  constructor
  · rw [hkeys, hids, htenants, ← hkeys]
    exact hvalid.1
  · intro s hs
    have hmem : s.tenantId ∈ db.subscriptions.map (·.tenantId) := by
      rw [← htenants]
      exact List.mem_map_of_mem hs
    rcases List.mem_map.mp hmem with ⟨s', hs', hsame⟩
    have href := hvalid.2 s' hs'
    simp only [subscriptions, List.any_eq_true, beq_iff_eq] at href ⊢
    rcases href with ⟨tenant, htenant, hid⟩
    have hmem' : tenant.id ∈ db'.tenants.map (·.id) := by
      rw [h.tenants]
      exact List.mem_map_of_mem htenant
    rcases List.mem_map.mp hmem' with ⟨tenant', htenant', hid'⟩
    exact ⟨tenant', htenant', hid'.trans (hid.trans hsame)⟩

/-- Rewriting subscriptions without touching their keys. -/
theorem sameKeys_subscriptions (db : Db) {f : Subscription → Subscription}
    (hf : ∀ s, (f s).id = s.id ∧ (f s).tenantId = s.tenantId) :
    SameKeys db { db with subscriptions := db.subscriptions.map f } := by
  refine ⟨rfl, ?_⟩
  simp only [List.map_map]
  congr 1
  funext s
  simp [hf s]

/-- Rewriting tenants without touching their ids. -/
theorem sameKeys_tenants (db : Db) {f : Tenant → Tenant} (hf : ∀ t, (f t).id = t.id) :
    SameKeys db { db with tenants := db.tenants.map f } := by
  refine ⟨?_, rfl⟩
  simp only [List.map_map]
  congr 1
  funext t
  exact hf t

/-- A statement that rewrites subscriptions leaves the keys. -/
theorem sameKeys_run {α : Type} {x : Fallible (Store Subscription) ClientError α}
    {f : Subscription → Subscription} {w : World}
    (hf : ∀ s, (f s).id = s.id ∧ (f s).tenantId = s.tenantId)
    (hx : ∃ p : Subscription → Bool,
      (x { rows := subscriptions.get w.db, uniqueKeys := subscriptions.uniqueKeys }).2.rows =
        (subscriptions.get w.db).map fun r => if p r then f r else r) :
    SameKeys w.db (subscriptions.run x w).2.db := by
  rcases TableOf.run_rewrites hx with ⟨p, hrun⟩
  rw [hrun]
  refine sameKeys_subscriptions w.db fun s => ?_
  split
  · exact hf s
  · exact ⟨rfl, rfl⟩

section Keys

variable {db : Db}

/-- The keys are those of a given database. -/
abbrev KeysOf (db : Db) (w : World) : Prop :=
  SameKeys db w.db

theorem keeps_lookup (env : Env) (f : Where Subscription) :
    Fallible.Keeps (KeysOf db) (subscriptions.run (prisma.subscription.findFirst env f)) :=
  Fallible.Keeps.of_unchanged (TableOf.run_findFirst_state f)

theorem resolveTenant_world (env : BillingEnv) (sub customer metadata : Option String)
    (w : World) : (resolveTenant env sub customer metadata w).2 = w := by
  have hcustomer : Fallible.Keeps (fun w' => w' = w) (tenantByCustomer env customer) := by
    unfold tenantByCustomer
    exact Fallible.Keeps.ite (fun _ => attempt_keeps _ (Fallible.Keeps.reads _))
      fun _ => Fallible.Keeps.pure _
  have hsubscription : Fallible.Keeps (fun w' => w' = w) (tenantBySubscription env sub) := by
    unfold tenantBySubscription
    refine Fallible.Keeps.ite (fun _ => Fallible.Keeps.bind (attempt_keeps _ ?_)
      fun _ => Fallible.Keeps.pure _) fun _ => Fallible.Keeps.pure _
    exact Fallible.Keeps.of_unchanged (TableOf.run_findFirst_state _)
  refine Fallible.Keeps.state_eq ?_
  unfold resolveTenant
  refine Fallible.Keeps.bind hcustomer fun _ => Fallible.Keeps.ite
    (fun _ => Fallible.Keeps.pure _) fun _ => ?_
  refine Fallible.Keeps.bind hsubscription fun _ => Fallible.Keeps.ite
    (fun _ => Fallible.Keeps.pure _) fun _ => ?_
  exact Fallible.Keeps.ite (fun _ => Fallible.Keeps.pure _) fun _ => Fallible.Keeps.pure _

theorem applyStatuses_keeps (env : BillingEnv) (eventType : String) (obj : StripeObject)
    (sub : Option String) (tenantId : Id) (status : SubscriptionStatus)
    (tenantStatus : TenantStatus) :
    Fallible.Keeps (KeysOf db)
      (applyStatuses env eventType obj sub tenantId status tenantStatus) := by
  unfold applyStatuses
  refine Fallible.Keeps.transaction ?_
  refine Fallible.Keeps.bind (attempt_keeps _ (keeps_lookup _ _)) fun _ => ?_
  refine Fallible.Keeps.bind (attempt_keeps _ fun w hw => ?_) fun _ => ?_
  · refine hw.trans (sameKeys_run (fun s => ?_) (Delegate.updateMany_rewrites _ rfl))
    have hsame := subscriptionPayload_apply eventType obj sub status s
    exact ⟨hsame.1, hsame.2.1⟩
  refine Fallible.Keeps.bind (attempt_keeps _ fun w hw => ?_) fun _ =>
    attempt_keeps _ (Fallible.Keeps.pure _)
  unfold updateTenantStatus
  split
  · refine hw.trans (sameKeys_tenants w.db fun t => ?_)
    split <;> rfl
  · exact hw

theorem persistStripeIds_keeps (env : BillingEnv) (obj : StripeObject) (tenant : Tenant) :
    Fallible.Keeps (KeysOf db) (persistStripeIds env obj tenant) := by
  have hcustomer : Fallible.Keeps (KeysOf db) (persistCustomerId env obj tenant) := by
    refine Fallible.Keeps.ite (fun _ => attempt_keeps _ (Fallible.Keeps.modify fun w hw => ?_))
      fun _ => Fallible.Keeps.pure _
    refine hw.trans (sameKeys_tenants w.db fun t => ?_)
    split <;> rfl
  have hsubscription : Fallible.Keeps (KeysOf db) (persistSubscriptionId env obj tenant) := by
    refine Fallible.Keeps.ite (fun _ => Fallible.Keeps.bind
      (attempt_keeps _ (keeps_lookup _ _)) fun found => ?_) fun _ => Fallible.Keeps.pure _
    cases found with
    | none => exact Fallible.Keeps.pure _
    | some subscription =>
        refine Fallible.Keeps.ite (fun _ => Fallible.Keeps.pure _) fun _ =>
          Fallible.Keeps.bind (attempt_keeps _ fun w hw => ?_) fun _ => Fallible.Keeps.pure _
        refine hw.trans (sameKeys_run ?_ (Delegate.update_rewrites _ rfl))
        exact fun s => ⟨rfl, rfl⟩
  exact Fallible.Keeps.transaction (Fallible.Keeps.bind hcustomer fun _ =>
    Fallible.Keeps.bind hsubscription fun _ => attempt_keeps _ (Fallible.Keeps.pure _))

end Keys

/-! ## What every delivery keeps -/

/-- A property of the state that every part of a delivery keeps: the database methods, the
look at the marker, the marking and the domain event. -/
structure KeptByParts (db : Db) (event : StripeEvent) (I : BillingState → Prop) : Prop where
  world : ∀ {α : Type} {x : Service α}, Fallible.Keeps (KeysOf db) x →
    Fallible.Keeps I (onWorld x)
  look : ∀ s, I s → I (alreadyProcessed (event.id.getD "") s).2
  mark : ∀ s, I s → I (markProcessed event.id s)
  emit : ∀ e s, I s → I (emit e s)

section Parts

variable {db : Db} {event : StripeEvent} {I : BillingState → Prop}

theorem applyAndEmit_keeps (hI : KeptByParts db event I) (env : BillingEnv) (obj : StripeObject)
    (tenantId : Id) (mapping : StatusMapping) {s : BillingState} (hs : I s) :
    I (applyAndEmit env event obj tenantId mapping s) := by
  cases mapping with
  | keep => exact hs
  | unhandled => exact hs
  | change status tenantStatus =>
      have hkeeps := hI.world (applyStatuses_keeps env event.type obj (stripeIds obj).1
        tenantId status tenantStatus) s hs
      simp only [applyAndEmit]
      rcases hrun : onWorld (applyStatuses env event.type obj (stripeIds obj).1 tenantId status
        tenantStatus) s with ⟨_ | previous, s'⟩ <;> rw [hrun] at hkeeps
      · exact hkeeps
      · exact hI.emit _ _ hkeeps

theorem dispatch_keeps (hI : KeptByParts db event I) (env : BillingEnv) (obj : StripeObject) :
    Fallible.Keeps I (dispatch env event obj) := by
  have hresolve : ∀ sub customer metadata,
      Fallible.Keeps I (onWorld (resolveTenant env sub customer metadata)) :=
    fun sub customer metadata =>
      hI.world (Fallible.Keeps.of_unchanged (resolveTenant_world env sub customer metadata))
  have hmark : Fallible.Keeps I (Fallible.modify (markProcessed event.id) : BillingService Unit) :=
    Fallible.Keeps.modify hI.mark
  unfold dispatch
  refine Fallible.Keeps.ite (fun _ => ?_) fun _ => Fallible.Keeps.ite (fun _ => ?_) fun _ => ?_
  · unfold handleCheckoutSessionCompleted
    refine Fallible.Keeps.ite (fun _ => Fallible.Keeps.bind
      (hI.world (attempt_keeps _ (Fallible.Keeps.reads _))) fun tenant => ?_)
      fun _ => Fallible.Keeps.pure _
    cases tenant with
    | none => exact Fallible.Keeps.pure _
    | some tenant =>
        refine Fallible.Keeps.bind (Fallible.Keeps.orElse
          (hI.world (persistStripeIds_keeps env obj tenant)) (Fallible.Keeps.pure _))
          fun _ => ?_
        exact Fallible.Keeps.bind hmark fun _ => Fallible.Keeps.pure _
  · unfold handleTrialWillEnd
    refine Fallible.Keeps.bind (hresolve _ _ _) fun tenantId => ?_
    cases tenantId with
    | none => exact Fallible.Keeps.pure _
    | some tenantId =>
        refine Fallible.Keeps.bind (Fallible.Keeps.modify (hI.emit _)) fun _ => ?_
        exact Fallible.Keeps.bind hmark fun _ => Fallible.Keeps.pure _
  · unfold handleStatusChange
    refine Fallible.Keeps.bind (hresolve _ _ _) fun tenantId => ?_
    cases tenantId with
    | none => exact Fallible.Keeps.pure _
    | some tenantId =>
        refine Fallible.Keeps.ite (fun _ => Fallible.Keeps.pure _) fun _ => ?_
        refine Fallible.Keeps.bind (Fallible.Keeps.modify fun s hs =>
          applyAndEmit_keeps hI env obj tenantId _ hs) fun _ => ?_
        exact Fallible.Keeps.bind hmark fun _ => Fallible.Keeps.pure _

/-- A delivery keeps what its parts keep, whatever becomes of it. -/
theorem handleStripeWebhook_keeps (hI : KeptByParts db event I) (env : BillingEnv) :
    Fallible.Keeps I (handleStripeWebhook env event) := by
  unfold handleStripeWebhook
  cases event.data with
  | none => exact Fallible.Keeps.throw _
  | some obj =>
      intro s hs
      simp only
      split
      · have hs' := hI.look s hs
        rcases hlook : alreadyProcessed (event.id.getD "") s with ⟨processed, s'⟩
        rw [hlook] at hs'
        cases processed with
        | true => exact hs'
        | false => exact dispatch_keeps hI env obj s' hs'
      · exact dispatch_keeps hI env obj s hs

theorem markProcessed_world (eventId : Option String) (s : BillingState) :
    (markProcessed eventId s).world = s.world := by
  unfold markProcessed
  split <;> rfl

/-- The keys of tenants and subscriptions are kept. -/
theorem keysOf_kept (db : Db) (event : StripeEvent) :
    KeptByParts db event fun s => KeysOf db s.world where
  world hx s hs := hx s.world hs
  look _ hs := hs
  mark s hs := by
    rw [markProcessed_world]
    exact hs
  emit _ _ hs := hs

/-- The clock and the markers of other events are kept, and only negative fallbacks are
sent back. -/
theorem otherMarkers_kept (db : Db) (event : StripeEvent) (redis : ExpiringStore String Bool) :
    KeptByParts db event fun s => (∀ w ∈ s.cache.pending, w.value = false) ∧
      s.cache.redis.now = redis.now ∧
      ∀ id, event.id ≠ some id → s.cache.redis.entry id = redis.entry id where
  world _ _ hs := hs
  look s hs := by
    rcases hs with ⟨hpending, hnow, hentry⟩
    unfold alreadyProcessed
    refine ⟨fun w hw => ?_, ?_, fun id hid => ?_⟩
    · rcases CacheState.get_pending hw with hw | ⟨_, rfl⟩
      · exact hpending w hw
      · rfl
    · rw [CacheState.get_redis]
      exact hnow
    · rw [CacheState.get_redis]
      exact hentry id hid
  mark s hs := by
    rcases hs with ⟨hpending, hnow, hentry⟩
    unfold markProcessed
    split
    · rename_i htruthy
      refine ⟨fun w hw => ?_, ?_, fun id hid => ?_⟩
      · rw [CacheState.set, CacheState.setEx_pending] at hw
        exact hpending w hw
      · exact (CacheState.setEx_now ..).trans hnow
      · have hne : id ≠ event.id.getD "" := by
          rintro rfl
          cases hevent : event.id with
          | none =>
              rw [hevent] at htruthy
              cases htruthy
          | some k =>
              rw [hevent] at hid
              exact hid rfl
        exact (CacheState.setEx_entry_of_ne _ hne _ _).trans (hentry id hid)
    · exact ⟨hpending, hnow, hentry⟩
  emit _ _ hs := hs

end Parts

/-! ## A delivery that maps to new statuses -/

/-- The state a delivery leaves. -/
def deliver (env : BillingEnv) (event : StripeEvent) (s : BillingState) : BillingState :=
  (handleStripeWebhook env event s).2

/-- The tenant that the handler of status changes resolves, when nothing fails. -/
def resolvedTenant (env : BillingEnv) (obj : StripeObject) (db : World) : Option Id :=
  (resolveTenant env (stripeIds obj).1 (stripeIds obj).2 obj.metadataTenantId db).1.toOption.join

/-- The state once the marker has been looked up and not been found. -/
def looked (event : StripeEvent) (s : BillingState) : BillingState :=
  if truthy event.id then (alreadyProcessed (event.id.getD "") s).2 else s

theorem looked_world (event : StripeEvent) (s : BillingState) :
    (looked event s).world = s.world := by
  unfold looked
  split <;> rfl

/-- The marker of the event's id is set. -/
def isMarked (event : StripeEvent) (s : BillingState) : Bool :=
  truthy event.id && (s.cache.redis.read (event.id.getD "") == some true)

theorem alreadyProcessed_eq (eventId : String) (s : BillingState) :
    (alreadyProcessed eventId s).1 = (s.cache.redis.read eventId == some true) := by
  unfold alreadyProcessed
  rw [CacheState.get_value]
  rcases s.cache.redis.read eventId with _ | b
  · rfl
  · cases b <;> rfl

/-- A delivery of an event that maps to new statuses: a duplicate is skipped, a tenant that is
not resolved ends it, and else the statuses are applied, or not, and the event is marked. -/
theorem deliver_change {env : BillingEnv} {event : StripeEvent} {obj : StripeObject}
    {status : SubscriptionStatus} {tenantStatus : TenantStatus} (hdata : event.data = some obj)
    (hmap : mapStatuses event.type obj = .change status tenantStatus) (s : BillingState)
    (hfresh : isMarked event s = false) :
    deliver env event s =
      match resolvedTenant env obj s.world with
      | some tenantId => markProcessed event.id
          (applyAndEmit env event obj tenantId (.change status tenantStatus) (looked event s))
      | none => looked event s := by
  have hdispatch : handleStripeWebhook env event s = dispatch env event obj (looked event s) := by
    unfold handleStripeWebhook looked
    rw [hdata]
    simp only
    unfold isMarked at hfresh
    cases hid : truthy event.id with
    | false => rfl
    | true =>
        rw [hid, Bool.true_and, ← alreadyProcessed_eq] at hfresh
        simp only [if_true]
        rcases hlook : alreadyProcessed (event.id.getD "") s with ⟨processed, s'⟩
        rw [hlook] at hfresh
        simp only at hfresh
        rw [hfresh]
  have hstatus : dispatch env event obj = handleStatusChange env event obj := by
    unfold dispatch
    have hcheckout : event.type ≠ "checkout.session.completed" := by
      intro htype
      rw [htype] at hmap
      exact absurd hmap (by simp [mapStatuses])
    have htrial : event.type ≠ "customer.subscription.trial_will_end" := by
      intro htype
      rw [htype] at hmap
      exact absurd hmap (by simp [mapStatuses])
    rw [if_neg hcheckout, if_neg htrial]
  unfold deliver
  rw [hdispatch, hstatus]
  have hworld := looked_world event s
  have hresolved := resolveTenant_world env (stripeIds obj).1 (stripeIds obj).2
    obj.metadataTenantId s.world
  unfold handleStatusChange resolvedTenant
  rw [Fallible.bind_apply]
  unfold onWorld
  rw [hworld, hresolved]
  have hsame : ({ looked event s with world := s.world } : BillingState) = looked event s := by
    rw [← hworld]
  rw [hsame]
  cases hresult : (resolveTenant env (stripeIds obj).1 (stripeIds obj).2 obj.metadataTenantId
      s.world).1 with
  | error e => rfl
  | ok tenantId =>
      cases tenantId with
      | none => rfl
      | some tenantId =>
          simp only [Except.toOption, Option.join_some]
          rw [hmap]
          rfl

/-! ## The claim of a marker -/

/-- The delivery marks the event: its marker reads true afterwards and did not before. -/
def MarksProcessed (env : BillingEnv) (event : StripeEvent) (s : BillingState) : Prop :=
  isMarked event s = false ∧ isMarked event (deliver env event s) = true

/-- The tenant's row and the tenant's own subscription row hold the statuses. -/
def StatusesHeld (db : Db) (tenantId : Id) (status : SubscriptionStatus)
    (tenantStatus : TenantStatus) : Prop :=
  (∃ t ∈ db.tenants, t.id = tenantId ∧ t.status = tenantStatus) ∧
    ∃ s ∈ db.subscriptions, s.tenantId = tenantId ∧ s.status = status

/-- If the delivery marks an event that maps to new statuses, the resolved tenant holds them
afterwards. -/
def ChangeKept (env : BillingEnv) (event : StripeEvent) (s : BillingState) : Prop :=
  ∀ obj status tenantStatus tenantId, event.data = some obj →
    mapStatuses event.type obj = .change status tenantStatus →
      resolvedTenant env obj s.world = some tenantId → MarksProcessed env event s →
        StatusesHeld (deliver env event s).world.db tenantId status tenantStatus

/-- The tenant and a subscription of its own are there; and the transaction goes through and
names that subscription, or the rows hold the statuses already. -/
def ReachesStatuses (env : BillingEnv) (obj : StripeObject) (db : Db) (tenantId : Id)
    (status : SubscriptionStatus) (tenantStatus : TenantStatus) : Prop :=
  (∃ t ∈ db.tenants, t.id = tenantId ∧
      (GoesThrough env db tenantId ∨ t.status = tenantStatus)) ∧
    ∃ s ∈ db.subscriptions, s.tenantId = tenantId ∧
      (GoesThrough env db tenantId ∧ named (stripeIds obj).1 tenantId s = true ∨
        s.status = status)

/-- A delivery that gets to the marking of an event that maps to new statuses reaches
them. -/
def KeepsChange (env : BillingEnv) (event : StripeEvent) (s : BillingState) : Prop :=
  ∀ obj status tenantStatus tenantId, event.data = some obj →
    mapStatuses event.type obj = .change status tenantStatus →
      resolvedTenant env obj s.world = some tenantId → truthy event.id = true →
        isMarked event s = false →
          ReachesStatuses env obj s.world.db tenantId status tenantStatus

/-- After its transaction an event's statuses are held exactly when it reaches them. -/
theorem statusesHeld_iff {env : BillingEnv} {eventType : String} {obj : StripeObject}
    {tenantId : Id} {status : SubscriptionStatus} {tenantStatus : TenantStatus} {w : World}
    (hvalid : subscriptions.Valid w.db) :
    StatusesHeld (applyStatuses env eventType obj (stripeIds obj).1 tenantId status tenantStatus
        w).2.db tenantId status tenantStatus ↔
      ReachesStatuses env obj w.db tenantId status tenantStatus := by
  rw [applyStatuses_run hvalid]
  unfold StatusesHeld ReachesStatuses
  by_cases hgoes : GoesThrough env w.db tenantId
  · rw [if_pos hgoes]
    refine and_congr ?_ ?_
    · simp only [applied, List.mem_map, exists_exists_and_eq_and, hgoes, true_or, and_true]
      constructor
      · rintro ⟨t, ht, hid, _⟩
        refine ⟨t, ht, ?_⟩
        split at hid <;> exact hid
      · rintro ⟨t, ht, hid⟩
        refine ⟨t, ht, ?_⟩
        rw [if_pos hid]
        exact ⟨hid, rfl⟩
    · simp only [applied, List.mem_map, exists_exists_and_eq_and, hgoes, true_and]
      refine exists_congr fun s => and_congr_right fun _ => ?_
      have hsame := subscriptionPayload_apply eventType obj (stripeIds obj).1 status s
      by_cases hnamed : named (stripeIds obj).1 tenantId s = true
      · rw [if_pos hnamed, hsame.2.1, hsame.2.2]
        simp [hnamed]
      · rw [if_neg hnamed]
        simp [hnamed]
  · rw [if_neg hgoes]
    simp [hgoes]

/-- Marking an event sets its marker. -/
theorem isMarked_markProcessed {event : StripeEvent} (hid : truthy event.id = true)
    (s : BillingState) : isMarked event (markProcessed event.id s) = true := by
  have hentry := CacheState.setEx_entry_self s.cache (event.id.getD "") true
    (by decide : IDEMPOTENCY_TTL_SECONDS ≠ 0)
  unfold isMarked markProcessed
  rw [hid, if_pos rfl, Bool.true_and]
  have hread := ExpiringStore.read_of_entry hentry
  rw [CacheState.setEx_now, if_pos (Nat.lt_add_of_pos_right (by decide))] at hread
  simp only [CacheState.set, hread]
  rfl

theorem applyAndEmit_world (env : BillingEnv) (event : StripeEvent) (obj : StripeObject)
    (tenantId : Id) (status : SubscriptionStatus) (tenantStatus : TenantStatus)
    (s : BillingState) :
    (applyAndEmit env event obj tenantId (.change status tenantStatus) s).world =
      (applyStatuses env event.type obj (stripeIds obj).1 tenantId status tenantStatus
        s.world).2 := by
  simp only [applyAndEmit]
  rcases hrun : onWorld (applyStatuses env event.type obj (stripeIds obj).1 tenantId status
    tenantStatus) s with ⟨_ | previous, s'⟩
  all_goals exact (congrArg (fun p => p.2.world) hrun).symm

/-- One delivery keeps its change exactly when it reaches the statuses where it marks. -/
theorem changeKept_iff {env : BillingEnv} {event : StripeEvent} {s : BillingState}
    (hvalid : subscriptions.Valid s.world.db) :
    ChangeKept env event s ↔ KeepsChange env event s := by
  have hheld : ∀ obj status tenantStatus tenantId, event.data = some obj →
      mapStatuses event.type obj = .change status tenantStatus →
        resolvedTenant env obj s.world = some tenantId → isMarked event s = false →
          (StatusesHeld (deliver env event s).world.db tenantId status tenantStatus ↔
            ReachesStatuses env obj s.world.db tenantId status tenantStatus) := by
    intro obj status tenantStatus tenantId hdata hmap hresolved hfresh
    rw [deliver_change hdata hmap s hfresh, hresolved]
    simp only
    rw [markProcessed_world, applyAndEmit_world, looked_world]
    exact statusesHeld_iff hvalid
  constructor
  · intro hkept obj status tenantStatus tenantId hdata hmap hresolved hid hfresh
    have hmarks : MarksProcessed env event s := by
      refine ⟨hfresh, ?_⟩
      rw [deliver_change hdata hmap s hfresh, hresolved]
      exact isMarked_markProcessed hid _
    exact (hheld obj status tenantStatus tenantId hdata hmap hresolved hfresh).mp
      (hkept obj status tenantStatus tenantId hdata hmap hresolved hmarks)
  · intro hkeeps obj status tenantStatus tenantId hdata hmap hresolved hmarks
    have hid : truthy event.id = true := by
      have hafter := hmarks.2
      unfold isMarked at hafter
      exact (Bool.and_eq_true _ _ ▸ hafter).1
    exact (hheld obj status tenantStatus tenantId hdata hmap hresolved hmarks.1).mpr
      (hkeeps obj status tenantStatus tenantId hdata hmap hresolved hid hmarks.1)

/-! ## Runs of deliveries -/

/-- What happens to the billing state: a delivery, the passing of time, or the landing of a
fallback value. -/
inductive BillingAction where
  | deliver (env : BillingEnv) (event : StripeEvent)
  | wait (elapsed : ℕ)
  | land (slot : ℕ)

/-- Deliveries, one at a time. -/
def webhooks : Machine BillingAction BillingState (Option (Except AppError WebhookResult)) where
  step action s :=
    match action with
    | .deliver env event => (some (handleStripeWebhook env event s).1, deliver env event s)
    | .wait elapsed => (none, { s with cache := s.cache.advance elapsed })
    | .land slot => (none, { s with cache := s.cache.land slot })

/-- The property holds of the action if it is a delivery. -/
def OnDelivery (P : BillingEnv → StripeEvent → BillingState → Prop) :
    BillingAction → BillingState → Prop
  | .deliver env event, s => P env event s
  | _, _ => True

/-- Before a delivery that is skipped as a duplicate, the run has a delivery of the same event
id that was not skipped, marked it and kept its change. -/
def SkippedOnlyIfKept (as : List BillingAction) (s : BillingState) : Prop :=
  ∀ pre env event suf, as = pre ++ .deliver env event :: suf →
    isMarked event (webhooks.exec pre s) = true →
      ∃ pre' env' event' rest, pre = pre' ++ .deliver env' event' :: rest ∧
        event'.id = event.id ∧ MarksProcessed env' event' (webhooks.exec pre' s) ∧
        ChangeKept env' event' (webhooks.exec pre' s)

/-- No event is marked, and only negative fallbacks are under way. -/
structure Unmarked (s : BillingState) : Prop where
  markers : ∀ event, isMarked event s = false
  pending : ∀ w ∈ s.cache.pending, w.value = false

/-- Every action leaves the keys. -/
theorem sameKeys_step (action : BillingAction) (s : BillingState) :
    SameKeys s.world.db (webhooks.step action s).2.world.db := by
  cases action with
  | deliver env event =>
      exact handleStripeWebhook_keeps (keysOf_kept s.world.db event) env s (.refl _)
  | wait elapsed => exact .refl _
  | land slot => exact .refl _

theorem valid_step {action : BillingAction} {s : BillingState}
    (hvalid : subscriptions.Valid s.world.db) :
    subscriptions.Valid (webhooks.step action s).2.world.db :=
  valid_of_sameKeys (sameKeys_step action s) hvalid

/-- Only negative fallbacks are ever sent back. -/
theorem pending_step {action : BillingAction} {s : BillingState}
    (hpending : ∀ w ∈ s.cache.pending, w.value = false) :
    ∀ w ∈ (webhooks.step action s).2.cache.pending, w.value = false := by
  cases action with
  | deliver env event =>
      exact (handleStripeWebhook_keeps (otherMarkers_kept s.world.db event s.cache.redis) env s
        ⟨hpending, rfl, fun _ _ => rfl⟩).1
  | wait elapsed => exact hpending
  | land slot => exact fun w hw => hpending w (CacheState.land_pending_subset _ _ hw)

/-- A marker that is set after an action was set before, or the action is a delivery of its
event id that marked it. -/
theorem marked_step {action : BillingAction} {s : BillingState} {event : StripeEvent}
    (hpending : ∀ w ∈ s.cache.pending, w.value = false)
    (hmarked : isMarked event (webhooks.step action s).2 = true) :
    isMarked event s = true ∨ ∃ env' event', action = .deliver env' event' ∧
      event'.id = event.id ∧ MarksProcessed env' event' s := by
  have hmarked' := hmarked
  unfold isMarked at hmarked'
  simp only [Bool.and_eq_true, beq_iff_eq] at hmarked'
  rcases hmarked' with ⟨hid, hread⟩
  have hsame : s.cache.redis.read (event.id.getD "") = some true → isMarked event s = true := by
    intro h
    unfold isMarked
    rw [hid, h]
    rfl
  cases action with
  | wait elapsed => exact Or.inl (hsame (ExpiringStore.read_of_read_advance hread))
  | land slot =>
      left
      rcases ExpiringStore.read_eq_some.mp hread with ⟨deadline, hentry, hlive⟩
      have hland := CacheState.land_entry s.cache slot (event.id.getD "")
      have hnow := CacheState.land_now s.cache slot
      cases hlanding : s.cache.landing slot (event.id.getD "") with
      | some e =>
          -- What lands is negative.
          rw [hlanding, Option.some_or] at hland
          have hvalue : e.1 = false := by
            unfold CacheState.landing at hlanding
            cases hslot : s.cache.pending[slot]? with
            | none =>
                rw [hslot] at hlanding
                cases hlanding
            | some w =>
                have hw := hpending w (List.mem_of_getElem? hslot)
                rw [hslot, Option.bind_some] at hlanding
                split at hlanding <;> cases hlanding
                exact hw
          have htrue := hland.symm.trans hentry
          cases htrue
          cases hvalue
      | none =>
          rw [hlanding, Option.none_or] at hland
          refine hsame (ExpiringStore.read_eq_some.mpr ⟨deadline, hland.symm.trans hentry, ?_⟩)
          simp only [webhooks] at hlive
          rwa [hnow] at hlive
  | deliver env' event' =>
      cases hbefore : isMarked event s with
      | true => exact Or.inl rfl
      | false =>
          right
          refine ⟨env', event', rfl, ?_⟩
          by_cases hsameid : event'.id = event.id
          · refine ⟨hsameid, ?_, ?_⟩
            · unfold isMarked at hbefore ⊢
              rw [hsameid]
              exact hbefore
            · unfold isMarked at hmarked ⊢
              rw [hsameid]
              exact hmarked
          · -- The marker of another event is left alone.
            exfalso
            have hkept := handleStripeWebhook_keeps
              (otherMarkers_kept s.world.db event' s.cache.redis) env' s
              ⟨hpending, rfl, fun _ _ => rfl⟩
            have hother : event'.id ≠ some (event.id.getD "") := by
              intro h
              cases hevent : event.id with
              | none =>
                  rw [hevent] at hid
                  cases hid
              | some k =>
                  rw [hevent] at h hsameid
                  exact hsameid h
            rcases ExpiringStore.read_eq_some.mp hread with ⟨deadline, hentry, hlive⟩
            have hentry' := (hkept.2.2 _ hother).symm.trans hentry
            have hlive' : s.cache.redis.now < deadline := by
              rw [← hkept.2.1]
              exact hlive
            have := hsame (ExpiringStore.read_eq_some.mpr ⟨deadline, hentry', hlive'⟩)
            rw [hbefore] at this
            cases this

/-- A marker that is set after a run was set before it, or by a delivery of the run. -/
theorem marked_run {event : StripeEvent} :
    ∀ (pre : List BillingAction) (s : BillingState),
      (∀ w ∈ s.cache.pending, w.value = false) → isMarked event (webhooks.exec pre s) = true →
        isMarked event s = true ∨ ∃ pre' env' event' rest,
          pre = pre' ++ .deliver env' event' :: rest ∧ event'.id = event.id ∧
            MarksProcessed env' event' (webhooks.exec pre' s)
  | [], s, _, hmarked => Or.inl hmarked
  | action :: pre, s, hpending, hmarked => by
      rcases marked_run pre (webhooks.step action s).2 (pending_step hpending) hmarked with
        hbefore | ⟨pre', env', event', rest, rfl, hid, hmarks⟩
      · rcases marked_step hpending hbefore with hstart | ⟨env', event', rfl, hid, hmarks⟩
        · exact Or.inl hstart
        · exact Or.inr ⟨[], env', event', pre, rfl, hid, hmarks⟩
      · exact Or.inr ⟨action :: pre', env', event', rest, rfl, hid, hmarks⟩

/-- A property of every delivery of a run, at a cut before one of them. -/
theorem onDelivery_cut {P : BillingEnv → StripeEvent → BillingState → Prop}
    (pre : List BillingAction) (s : BillingState) {env : BillingEnv} {event : StripeEvent}
    {suf : List BillingAction}
    (hall : webhooks.EachStep (OnDelivery P) (pre ++ .deliver env event :: suf) s) :
    P env event (webhooks.exec pre s) :=
  ((webhooks.eachStep_append pre _ s).mp hall).2.1

/-- Over every run from a state without markers, each marked event has left its statuses, and
only such events are skipped as duplicates, exactly when each delivery that gets to the
marking reaches its statuses. -/
theorem status_change_kept_iff {s : BillingState} (hvalid : subscriptions.Valid s.world.db)
    (hunmarked : Unmarked s) (as : List BillingAction) :
    (webhooks.EachStep (OnDelivery ChangeKept) as s ∧ SkippedOnlyIfKept as s) ↔
      webhooks.EachStep (OnDelivery KeepsChange) as s := by
  have hiff : ∀ {action : BillingAction} {s : BillingState}, subscriptions.Valid s.world.db →
      (OnDelivery ChangeKept action s ↔ OnDelivery KeepsChange action s) := by
    intro action s hvalid
    cases action with
    | deliver env event => exact changeKept_iff hvalid
    | wait elapsed => exact Iff.rfl
    | land slot => exact Iff.rfl
  constructor
  · rintro ⟨hkept, _⟩
    exact webhooks.eachStep_of_invariant
      (fun _ _ _ hv hq => ⟨valid_step hv, (hiff hv).mp hq⟩) hvalid hkept
  · intro hkeeps
    have hkept : webhooks.EachStep (OnDelivery ChangeKept) as s :=
      webhooks.eachStep_of_invariant
        (fun _ _ _ hv hq => ⟨valid_step hv, (hiff hv).mpr hq⟩) hvalid hkeeps
    refine ⟨hkept, ?_⟩
    rintro pre env event suf rfl hmarked
    rcases marked_run pre s hunmarked.pending hmarked with
      hstart | ⟨pre', env', event', rest, rfl, hid, hmarks⟩
    · rw [hunmarked.markers event] at hstart
      cases hstart
    · refine ⟨pre', env', event', rest, rfl, hid, hmarks, ?_⟩
      rw [List.append_assoc] at hkept
      exact onDelivery_cut pre' s hkept

/-! ## A lost status change -/

/-- A subscription that Stripe knows. -/
def sampleSubscription : Subscription where
  id := "s1"
  tenantId := "t1"
  planId := "p1"
  stripeSubscriptionId := some "sub_1"
  status := .ACTIVE
  currentPeriodStart := 0
  currentPeriodEnd := 0

/-- Its tenant. -/
def sampleTenant : Tenant where
  id := "t1"
  name := "Burger"
  status := .ACTIVE
  stripeCustomerId := some "cus_1"

def sampleDb : Db where
  tenants := [sampleTenant]
  subscriptions := [sampleSubscription]

/-- No markers. -/
def sampleState : BillingState where
  world := { db := sampleDb }
  cache := { redis := { now := 1700000000000, entry := fun _ => none } }

/-- An invoice of the subscription. -/
def sampleInvoice : StripeObject where
  object := some "invoice"
  subscription := some "sub_1"
  customer := some "cus_1"

/-- Its payment has failed. -/
def paymentFailed : StripeEvent where
  type := "invoice.payment_failed"
  id := some "evt_1"
  data := some sampleInvoice

/-- A platform owner's context. -/
def ownerEnv : BillingEnv where
  context := { isPlatformOwner := true }
  uuid _ := ""
  now := 0

/-- The context of the tenant. -/
def tenantEnv : BillingEnv where
  context := { tenantId := some "t1" }
  uuid _ := ""
  now := 0

theorem sampleDb_valid : subscriptions.Valid sampleDb := by
  constructor
  · decide +kernel
  · intro s hs
    cases List.mem_singleton.mp hs
    decide +kernel

theorem sampleState_unmarked : Unmarked sampleState where
  markers event := by
    unfold isMarked
    cases truthy event.id <;> rfl
  pending w hw := by cases hw

/-- In a platform owner's context the failed payment is applied and marked. -/
theorem payment_failure_applied :
    webhooks.EachStep (OnDelivery ChangeKept) [.deliver ownerEnv paymentFailed] sampleState ∧
      SkippedOnlyIfKept [.deliver ownerEnv paymentFailed] sampleState := by
  refine (status_change_kept_iff sampleDb_valid sampleState_unmarked _).mpr ⟨?_, trivial⟩
  rintro obj status tenantStatus tenantId hdata hmap hresolved _ _
  cases hdata
  have hgoes : GoesThrough ownerEnv sampleDb "t1" := by decide +kernel
  have ht : tenantId = "t1" := by
    have hsome : resolvedTenant ownerEnv sampleInvoice sampleState.world = some "t1" := by
      decide +kernel
    exact Option.some.inj (hresolved.symm.trans hsome)
  subst ht
  refine ⟨⟨sampleTenant, List.mem_singleton_self _, rfl, Or.inl hgoes⟩,
    ⟨sampleSubscription, List.mem_singleton_self _, rfl, Or.inl ⟨hgoes, ?_⟩⟩⟩
  decide +kernel

/-- In a tenant's context the transaction always fails; the event is marked all the same, so
that the redelivery is skipped. -/
theorem status_change_lost :
    isMarked paymentFailed (deliver tenantEnv paymentFailed sampleState) = true ∧
      ¬∀ as, webhooks.EachStep (OnDelivery ChangeKept) as sampleState ∧
        SkippedOnlyIfKept as sampleState := by
  refine ⟨by decide +kernel, ?_⟩
  intro hkept
  have hfirst := (hkept [.deliver tenantEnv paymentFailed]).1.1
  have hheld := hfirst _ .PAST_DUE .PAST_DUE "t1" rfl (by decide +kernel) (by decide +kernel)
    (by constructor <;> decide +kernel)
  rcases hheld.1 with ⟨t, ht, _, hstatus⟩
  have htenants : (deliver tenantEnv paymentFailed sampleState).world.db.tenants =
      sampleDb.tenants := by
    decide +kernel
  rw [htenants] at ht
  cases List.mem_singleton.mp ht
  cases hstatus

end Billing
end Eleva
