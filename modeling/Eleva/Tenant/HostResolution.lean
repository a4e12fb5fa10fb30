import Eleva.Foundation.Machine
import Eleva.Auth.TenantContext
import Eleva.Tenant.TenantService

/-!
# Tenant - The tenant of a host

The middleware looks the tenant of a subdomain or a custom domain up in the cache first, where an
answer of the database stays for an hour.  Onboardings and updates do not touch the cache.

Main results:

- Theorem {lit}`one_holder`: at all times a domain has at most one tenant.
- Theorem {lit}`host_resolution`: a request to a domain runs under a tenant that has held it at
  some moment of the last hour, and is refused where none has.
- Theorem {lit}`stale_host`: a domain that has moved to another tenant.
-/

namespace Eleva
namespace TenantService

open Foundation Database Auth Cache

/-! ## Runs -/

/-- What happens at the gate: calls that change tenants, requests, and the passing of time.  The
answer of a lookup reaches the cache some time after it. -/
inductive HostAction where
  | onboard (env : TenantEnv) (dto : CreateTenantRequestDto)
  | updateTenant (env : TenantEnv) (id : Id) (dto : UpdateTenantRequestDto)
      (requester : Option Requester)
  | request (env : GateEnv) (req : HttpRequest) (delay : ℕ)
  | wait (elapsed : ℕ)

/-- What an action answers. -/
inductive HostAnswer where
  | onboarded (answer : Except AppError OnboardResponse)
  | updated (answer : Except AppError TenantResponse)
  | passed (answer : Except AppError (Option Id × TenantContext))
  | waited

/-- Run a method of the tenant service. -/
def onTenants {α : Type} (x : Service α) (s : GateState) : Except AppError α × GateState :=
  ((x { db := s.db }).1, { s with db := (x { db := s.db }).2.db })

/-- Let time pass. -/
def advanceGate (elapsed : ℕ) (s : GateState) : GateState :=
  { s with domains := s.domains.advance elapsed, sessions := s.sessions.advance elapsed }

/-- What a lookup has sent to the cache arrives. -/
def landDomain (s : GateState) : GateState :=
  { s with domains := s.domains.land 0 }

/-- The gate under a runtime. -/
def gate (rt : Runtime) : Machine HostAction GateState HostAnswer where
  step action s :=
    match action with
    | .onboard env dto =>
        (.onboarded (onTenants (onboard rt env dto) s).1, (onTenants (onboard rt env dto) s).2)
    | .updateTenant env id dto requester =>
        (.updated (onTenants (updateTenant env id dto requester) s).1,
          (onTenants (updateTenant env id dto requester) s).2)
    | .request env req delay =>
        (.passed (tenantContextMiddleware env req s).1,
          landDomain (advanceGate delay (tenantContextMiddleware env req s).2))
    | .wait elapsed => (.waited, advanceGate elapsed s)

/-! ## Who holds a domain -/

/-- The tenant has the subdomain or the custom domain. -/
def Holds (db : Db) (key : DomainKey) (id : Id) : Prop :=
  ∃ t ∈ db.tenants, t.id = id ∧
    match key with
    | .subdomain name => t.subdomain = name
    | .customDomain host => t.customDomain = some host

theorem holds_of_tenantOfDomain {db : Db} {key : DomainKey} {id : Id}
    (h : tenantOfDomain db key = some id) : Holds db key id := by
  cases key with
  | subdomain name =>
      rcases Option.map_eq_some_iff.mp h with ⟨t, hfind, hid⟩
      exact ⟨t, List.mem_of_find?_eq_some hfind, hid, by simpa using List.find?_some hfind⟩
  | customDomain host =>
      rcases Option.map_eq_some_iff.mp h with ⟨t, hfind, hid⟩
      exact ⟨t, List.mem_of_find?_eq_some hfind, hid, by simpa using List.find?_some hfind⟩

/-- Rows that agree in a key of a table without duplicates are the same row. -/
theorem eq_of_key_eq {α β : Type} {key : α → Option β} {rows : List α}
    (h : (rows.filterMap key).Nodup) {a b : α} (ha : a ∈ rows) (hb : b ∈ rows) {k : β}
    (hka : key a = some k) (hkb : key b = some k) : a = b := by
  induction rows with
  | nil => cases ha
  | cons r rows ih =>
      have hother : ∀ {c}, key r = some k → key c = some k → c ∉ rows := by
        intro c hr hc hmem
        rw [List.filterMap_cons, hr, List.nodup_cons] at h
        exact h.1 (List.mem_filterMap.mpr ⟨c, hmem, hc⟩)
      have hrest : (rows.filterMap key).Nodup := by
        rw [List.filterMap_cons] at h
        split at h
        · exact h
        · exact h.of_cons
      rcases List.mem_cons.mp ha with rfl | ha'
      · rcases List.mem_cons.mp hb with rfl | hb
        · rfl
        · exact absurd hb (hother hka hkb)
      · rcases List.mem_cons.mp hb with rfl | hb
        · exact absurd ha' (hother hkb hka)
        · exact ih hrest ha' hb

/-- A domain has one tenant at most where the indexes hold. -/
theorem holds_unique {db : Db} (h : Distinct db.tenants) {key : DomainKey} {id id' : Id}
    (hid : Holds db key id) (hid' : Holds db key id') : id = id' := by
  rcases hid with ⟨t, ht, rfl, hkey⟩
  rcases hid' with ⟨t', ht', rfl, hkey'⟩
  cases key with
  | subdomain name =>
      have hsub := h (fun t => some t.subdomain) (by simp [tenantKeys])
      rw [eq_of_key_eq hsub ht ht' (congrArg some hkey) (congrArg some hkey')]
  | customDomain host =>
      have hcustom := h (fun t => t.customDomain) (by simp [tenantKeys])
      rw [eq_of_key_eq hcustom ht ht' hkey hkey']

/-- The middleware after its look at the token. -/
theorem tenantContextMiddleware_apply (env : GateEnv) (req : HttpRequest) (s : GateState) :
    tenantContextMiddleware env req s =
      (do
        let tenantId ← resolveTenantId env req
        Fallible.throwIf
          (!truthy tenantId && !req.authorization.any (isPlatformOwner s.sessions))
          (.forbidden "Access denied: Missing valid tenant context.")
        pure (tenantId,
          { tenantId := tenantId.filter (· != "")
            isPlatformOwner := req.authorization.any (isPlatformOwner s.sessions) }) :
        GateService (Option Id × TenantContext)) s :=
  rfl

theorem resolveTenantId_state {env : GateEnv} {req : HttpRequest} (s : GateState) :
    (resolveTenantId env req s).2 = s ∨ ∃ key, (resolveTenantId env req s).2 =
      { s with domains := (s.domains.get key (tenantOfDomain s.db key) 3600).2 } := by
  have hhost : (resolveHost env req.host s).2 = s ∨ ∃ key, (resolveHost env req.host s).2 =
      { s with domains := (s.domains.get key (tenantOfDomain s.db key) 3600).2 } := by
    unfold resolveHost
    cases domainKey req.host with
    | none => exact Or.inl rfl
    | some key =>
        simp only [resolveDomain]
        split
        · exact Or.inl rfl
        · exact Or.inr ⟨key, rfl⟩
  unfold resolveTenantId
  cases req.xTenantId with
  | single value =>
      simp only
      split
      · exact Or.inl rfl
      · exact hhost
  | absent => exact hhost
  | many values => exact hhost

/-- A request looks up one domain at most. -/
theorem tenantContextMiddleware_state (env : GateEnv) (req : HttpRequest) (s : GateState) :
    (tenantContextMiddleware env req s).2 = s ∨
      ∃ key, (tenantContextMiddleware env req s).2 =
        { s with domains := (s.domains.get key (tenantOfDomain s.db key) 3600).2 } := by
  have hstate : (tenantContextMiddleware env req s).2 = (resolveTenantId env req s).2 := by
    rw [tenantContextMiddleware_apply]
    rcases hrun : resolveTenantId env req s with ⟨e | tenantId, s'⟩
    · rw [Fallible.bind_of_error hrun]
    · rw [Fallible.bind_of_ok hrun]
      exact Fallible.ReadsOnly.bind (.throwIf _ _) (fun _ => .pure _) s'
  rw [hstate]
  exact resolveTenantId_state s

section Runs

variable {rt : Runtime} {s : GateState}

/-- The calls and requests of a run keep tenants apart. -/
theorem exec_distinct (as : List HostAction) (h : Distinct s.db.tenants) :
    Distinct ((gate rt).exec as s).db.tenants := by
  refine (gate rt).run_invariant (I := fun s => Distinct s.db.tenants) (fun a _ s hs => ?_) h
  cases a with
  | onboard env dto => exact onboard_distinct rt env dto { db := s.db } hs
  | updateTenant env id dto requester =>
      exact updateTenant_distinct env id dto requester { db := s.db } hs
  | request env req delay =>
      change Distinct (tenantContextMiddleware env req s).2.db.tenants
      rcases tenantContextMiddleware_state env req s with hstate | ⟨key, hstate⟩
      · rw [hstate]
        exact hs
      · rw [hstate]
        exact hs
  | wait elapsed => exact hs

/-- At all times a domain has at most one tenant. -/
theorem one_holder (as : List HostAction) (h : Distinct s.db.tenants) {key : DomainKey}
    {id id' : Id} (hid : Holds ((gate rt).exec as s).db key id)
    (hid' : Holds ((gate rt).exec as s).db key id') : id = id' :=
  holds_unique (exec_distinct as h) hid hid'

/-! ## What the cache answers -/

/-- The tenant has held the domain at some moment of the last hour of a run. -/
def HeldWithinHour (rt : Runtime) (s : GateState) (as : List HostAction) (key : DomainKey)
    (id : Id) : Prop :=
  ∃ pre, pre <+: as ∧ Holds ((gate rt).exec pre s).db key id ∧
    ((gate rt).exec as s).domains.redis.now <
      ((gate rt).exec pre s).domains.redis.now + 3600 * 1000

/-- Nothing is on its way to the cache, and its entries are answers that the database gave at
some moment of a run, each for an hour from then on. -/
structure Remembers (rt : Runtime) (s : GateState) (as : List HostAction) : Prop where
  pending : ((gate rt).exec as s).domains.pending = []
  entry : ∀ key value deadline,
    ((gate rt).exec as s).domains.redis.entry key = some (value, deadline) →
      ∃ pre, pre <+: as ∧ tenantOfDomain ((gate rt).exec pre s).db key = value ∧
        deadline ≤ ((gate rt).exec pre s).domains.redis.now + 3600 * 1000

/-- What an action does to the entries of the cache: it leaves them, or one of them becomes the
answer of the database. -/
theorem step_entry (a : HostAction) (hpending : s.domains.pending = []) :
    ((gate rt).step a s).2.domains.pending = [] ∧
      ∀ key value deadline,
        ((gate rt).step a s).2.domains.redis.entry key = some (value, deadline) →
          s.domains.redis.entry key = some (value, deadline) ∨
            (tenantOfDomain ((gate rt).step a s).2.db key = value ∧
              deadline = ((gate rt).step a s).2.domains.redis.now + 3600 * 1000) := by
  cases a with
  | onboard env dto => exact ⟨hpending, fun _ _ _ h => Or.inl h⟩
  | updateTenant env id dto requester => exact ⟨hpending, fun _ _ _ h => Or.inl h⟩
  | wait elapsed => exact ⟨hpending, fun _ _ _ h => Or.inl h⟩
  | request env req delay =>
      rcases tenantContextMiddleware_state env req s with hstate | ⟨key', hstate⟩
      · have hland : ((gate rt).step (.request env req delay) s).2 = advanceGate delay s := by
          change landDomain (advanceGate delay (tenantContextMiddleware env req s).2) = _
          rw [hstate]
          unfold landDomain
          rw [CacheState.land_of_pending_nil (s := (advanceGate delay s).domains) hpending]
        rw [hland]
        exact ⟨hpending, fun _ _ _ h => Or.inl h⟩
      · have hland : ((gate rt).step (.request env req delay) s).2 =
            { advanceGate delay s with
              domains := ((s.domains.get key' (tenantOfDomain s.db key') 3600).2.advance
                delay).land 0 } := by
          change landDomain (advanceGate delay (tenantContextMiddleware env req s).2) = _
          rw [hstate]
          rfl
        rw [hland]
        have hread := CacheState.get_advance_land hpending key' (tenantOfDomain s.db key') 3600
          delay
        refine ⟨hread.1, fun key value deadline hentry => ?_⟩
        rcases hread.2 key value deadline hentry with hold | ⟨rfl, rfl, rfl⟩
        · exact Or.inl hold
        · refine Or.inr ⟨rfl, ?_⟩
          simp

/-- A run from a cache that remembers truly ends in one that does. -/
theorem remembers (h : Remembers rt s []) (as : List HostAction) : Remembers rt s as := by
  induction as using List.reverseRecOn with
  | nil => exact h
  | append_singleton as a ih =>
      have hexec : (gate rt).exec (as ++ [a]) s = ((gate rt).step a ((gate rt).exec as s)).2 :=
        (gate rt).exec_append as [a] s
      have hstep := @step_entry rt _ a ih.pending
      constructor
      · rw [hexec]
        exact hstep.1
      · intro key value deadline hentry
        rw [hexec] at hentry
        rcases hstep.2 key value deadline hentry with hold | ⟨hnow, hdeadline⟩
        · rcases ih.entry key value deadline hold with ⟨pre, hpre, hvalue⟩
          exact ⟨pre, hpre.trans (List.prefix_append as [a]), hvalue⟩
        · refine ⟨as ++ [a], List.prefix_refl _, ?_⟩
          rw [hexec]
          exact ⟨hnow, hdeadline.le⟩

/-- A tenant that a domain is resolved to has held it within the last hour. -/
theorem resolveDomain_held (h : Remembers rt s []) {as : List HostAction} {env : GateEnv}
    {key : DomainKey} {id : Id} {s' : GateState}
    (hrun : resolveDomain env key ((gate rt).exec as s) = (.ok (some id), s')) :
    HeldWithinHour rt s as key id := by
  unfold resolveDomain at hrun
  split at hrun
  · cases hrun
  · have hvalue := congrArg Prod.fst hrun
    simp only [Except.ok.injEq] at hvalue
    rw [CacheState.get_value] at hvalue
    cases hread : ((gate rt).exec as s).domains.redis.read key with
    | none =>
        rw [hread] at hvalue
        refine ⟨as, List.prefix_refl as, holds_of_tenantOfDomain hvalue, ?_⟩
        omega
    | some value =>
        rw [hread] at hvalue
        rcases ExpiringStore.read_eq_some.mp hread with ⟨deadline, hentry, hlive⟩
        rcases (remembers h as).entry key value deadline hentry with
          ⟨pre, hpre, hholder, hdeadline⟩
        refine ⟨pre, hpre, holds_of_tenantOfDomain (hholder.trans hvalue), ?_⟩
        omega

/-- In every run a request without an {lit}`X-Tenant-ID` header to a subdomain or a custom domain
runs under a tenant that has held the domain at some moment of the last hour; where no tenant has,
it is refused, unless its token is a platform owner's. -/
theorem host_resolution (h : Remembers rt s []) (as : List HostAction) {env : GateEnv}
    {req : HttpRequest} (hheader : req.xTenantId = .absent) {key : DomainKey}
    (hkey : domainKey req.host = some key) :
    (∀ tenantId context s', tenantContextMiddleware env req ((gate rt).exec as s) =
        (.ok (tenantId, context), s') →
      ∀ id, context.tenantId = some id → HeldWithinHour rt s as key id) ∧
      (req.authorization.any (isPlatformOwner ((gate rt).exec as s).sessions) = false →
        (∀ id, ¬ HeldWithinHour rt s as key id) →
          ∃ e, (tenantContextMiddleware env req ((gate rt).exec as s)).1 = .error e) := by
  have hresolve : ∀ s, resolveTenantId env req s = resolveDomain env key s := by
    intro s
    unfold resolveTenantId resolveHost
    rw [hheader, hkey]
  constructor
  · intro tenantId context s' hrun id hid
    rcases tenantContextMiddleware_eq_ok hrun with ⟨hresolved, htenant, _⟩
    rw [hresolve] at hresolved
    rw [htenant] at hid
    have hsome : tenantId = some id := (Option.filter_eq_some_iff.mp hid).1
    rw [hsome] at hresolved
    exact resolveDomain_held h hresolved
  · intro howner hnone
    rcases hrun : tenantContextMiddleware env req ((gate rt).exec as s) with
      ⟨e | ⟨tenantId, context⟩, s'⟩
    · exact ⟨e, rfl⟩
    · have hok := hrun
      rcases tenantContextMiddleware_eq_ok hrun with ⟨hresolved, htenant, hprivilege⟩
      rw [hresolve] at hresolved
      cases tenantId with
      | some id => exact absurd (resolveDomain_held h hresolved) (hnone id)
      | none =>
          -- without a tenant and without platform privilege the middleware throws
          rw [← hresolve] at hresolved
          rw [tenantContextMiddleware_apply, howner, Fallible.bind_of_ok hresolved] at hok
          cases hok

end Runs

/-! ## A domain that moves -/

/-- A gate before its first tenant. -/
def emptyGate : GateState where
  db := { subscriptionPlans := [{ id := "plan-1", name := "Starter" }] }
  domains := { redis := { now := 1700000000000, entry := fun _ => none } }
  sessions := { cache := { redis := { now := 1700000000000, entry := fun _ => none } } }

/-- The onboarding of a restaurant with a subdomain. -/
def onboardAs (name : String) : HostAction :=
  .onboard
    { context := {}, uuid := fun n => name ++ "-" ++ toString n, now := 1700000000000 }
    { companyName := name, subdomain := name, ownerFirstName := "Ann", ownerLastName := "Lee"
      ownerEmail := "ann@" ++ name ++ ".com", ownerPassword := "password", planId := "plan-1" }

/-- A tenant takes the custom domain, or gives it up. -/
def setDomain (id : Id) (customDomain : Field String) : HostAction :=
  .updateTenant { context := {}, uuid := fun n => toString n, now := 1700000000000 } id
    { customDomain := customDomain } none

/-- A guest's request to the custom domain. -/
def menuRequest : HttpRequest where
  host := "menu.burgers.com"

/-- The first restaurant has the domain, and a guest has been there. -/
def visited : List HostAction :=
  [onboardAs "burgers", onboardAs "sushi", setDomain "burgers-0" (.value "menu.burgers.com"),
    .request {} menuRequest 5]

/-- The domain moves to the second restaurant. -/
def handedOver : List HostAction :=
  visited ++ [setDomain "burgers-0" .null, setDomain "sushi-0" (.value "menu.burgers.com")]

theorem emptyGate_remembers : Remembers plainRuntime emptyGate [] where
  pending := rfl
  entry key value deadline h := by cases h

/-- The next request to the domain runs under a tenant that has held it within the last hour. -/
theorem visited_resolution :
    ∃ tenantId context s', tenantContextMiddleware {} menuRequest
        ((gate plainRuntime).exec visited emptyGate) = (.ok (tenantId, context), s') ∧
      context.tenantId = some "burgers-0" ∧
      HeldWithinHour plainRuntime emptyGate visited (.customDomain "menu.burgers.com")
        "burgers-0" := by
  have hthrough : (tenantContextMiddleware {} menuRequest
      ((gate plainRuntime).exec visited emptyGate)).1.toOption.any
        (fun r => r.2.tenantId == some "burgers-0") = true := by
    decide +kernel
  rcases Fallible.returned_of_any hthrough with ⟨⟨tenantId, context⟩, s', hrun, hcontext⟩
  have htenant : context.tenantId = some "burgers-0" := by simpa using hcontext
  have hkey : domainKey menuRequest.host = some (.customDomain "menu.burgers.com") := by
    decide +kernel
  exact ⟨tenantId, context, s', hrun, htenant,
    (host_resolution emptyGate_remembers visited rfl hkey).1 _ _ _ hrun _ htenant⟩

/-- After the domain has moved, a request to it still runs under its former tenant. -/
theorem stale_host :
    ¬∀ as env req key tenantId context s', req.xTenantId = .absent →
      domainKey req.host = some key →
      tenantContextMiddleware env req ((gate plainRuntime).exec as emptyGate) =
        (.ok (tenantId, context), s') →
      ∀ id, context.tenantId = some id →
        Holds ((gate plainRuntime).exec as emptyGate).db key id := by
  intro hfollows
  have hthrough : (tenantContextMiddleware {} menuRequest
      ((gate plainRuntime).exec handedOver emptyGate)).1.toOption.any
        (fun r => r.2.tenantId == some "burgers-0") = true := by
    decide +kernel
  rcases Fallible.returned_of_any hthrough with ⟨⟨tenantId, context⟩, s', hrun, hcontext⟩
  have hholds := hfollows handedOver {} menuRequest (.customDomain "menu.burgers.com") tenantId
    context s' rfl (by decide +kernel) hrun "burgers-0" (by simpa using hcontext)
  have hother : Holds ((gate plainRuntime).exec handedOver emptyGate).db
      (.customDomain "menu.burgers.com") "sushi-0" :=
    holds_of_tenantOfDomain (by decide +kernel)
  have hdistinct : Distinct emptyGate.db.tenants := by
    intro key _
    exact List.nodup_nil
  exact absurd (holds_unique (exec_distinct handedOver hdistinct) hholds hother) (by decide)

end TenantService
end Eleva
