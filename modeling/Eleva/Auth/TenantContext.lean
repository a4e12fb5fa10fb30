import Eleva.Foundation.Text
import Eleva.Auth.JwtStrategy

/-!
# Auth - The tenant of a request

The middleware that picks the tenant of a request from its headers and the guard behind
it, which reconciles that tenant with the tenant of the token.  The middleware knows a
platform owner by a role in any letter case, the guard by the exact name.

Main results:

- Definition {lit}`tenantContextMiddleware` and {lit}`guardedRequest`: the middleware, and the
  middleware with the guard behind it.
- Theorem {lit}`tenant_binding`: a token with a tenant runs under that tenant, a token
  without one under the tenant that the headers pick.
- Theorem {lit}`tenantless_token_unbound`: a rotated token of a platform owner runs under the
  tenant that {lit}`X-Tenant-ID` names.
-/

namespace Eleva
namespace Auth

open Foundation Database Cache

/-! ## Requests -/

/-- The value of a header that may be sent more than once. -/
inductive HeaderValue where
  | absent
  | single (value : String)
  | many (values : List String)
deriving DecidableEq, Repr

/-- {lit}`Array.isArray(raw) ? raw[0] : raw`. -/
def HeaderValue.first : HeaderValue → Option String
  | .absent => none
  | .single value => some value
  | .many values => values.head?

/-- An authorization header that carries a token: a scheme, at least one blank, the token. -/
structure AuthorizationHeader where
  scheme : String := "Bearer"
  extraBlanks : ℕ := 0
  token : AccessToken
deriving DecidableEq, Repr

/-- {lit}`authHeader.split(' ')[1]`. -/
def AuthorizationHeader.text (header : AuthorizationHeader) : HeaderText :=
  if header.extraBlanks = 0 then .token header.token else .other ""

/-- What the middleware and the guard read of a request. -/
structure HttpRequest where
  host : String := ""
  authorization : Option AuthorizationHeader := none
  xTenantId : HeaderValue := .absent
deriving DecidableEq, Repr

/-- The cache keys of resolved hosts. -/
inductive DomainKey where
  /-- {lit}`subdomain:` and a subdomain. -/
  | subdomain (name : String)
  /-- {lit}`custom_domain:` and a host. -/
  | customDomain (host : String)
deriving DecidableEq, Repr

/-- What the middleware and the guard work on; a client that is offline answers as one
without entries. -/
structure GateState where
  db : Db := {}
  domains : CacheState DomainKey (Option Id)
  sessions : Sessions

/-- Whether the look-up of a tenant fails. -/
structure GateEnv where
  lookupFails : Bool := false

/-- A step on the way of a request to its route. -/
abbrev GateService (α : Type) := Fallible GateState AppError α

/-! ## The middleware -/

/-- The middleware takes the bearer for a platform owner.  No character outside ASCII has an
upper case that is part of the name. -/
def isPlatformOwner (sessions : Sessions) (header : AuthorizationHeader) : Bool :=
  header.scheme == "Bearer" &&
    match header.text with
    | .token t =>
        sessions.verifiesAccess t &&
          t.payload.roles.any fun role => asciiUpperCase role == "PLATFORM_OWNER"
    | .other _ => false

/-- The key under which the tenant of a host is looked up. -/
def domainKey (host : String) : Option DomainKey :=
  let parsedHost := firstPart ':' host
  if endsWith parsedHost ".zayjar.com" || endsWith parsedHost ".localhost" then
    let subdomain := removeFirst ".localhost" (removeFirst ".zayjar.com" parsedHost)
    if subdomain != "" && subdomain != "www" && subdomain != "api" then
      some (.subdomain subdomain)
    else none
  else some (.customDomain parsedHost)

/-- The tenant of a host in the database. -/
def tenantOfDomain (db : Db) : DomainKey → Option Id
  | .subdomain name => (db.tenants.find? fun t => t.subdomain == name).map (·.id)
  | .customDomain host => (db.tenants.find? fun t => t.customDomain == some host).map (·.id)

/-- The tenant of a host, from the cache or else from the database. -/
def resolveDomain (env : GateEnv) (key : DomainKey) : GateService (Option Id) := fun s =>
  if (s.domains.redis.read key).isNone && env.lookupFails then
    (.error (.notFound "Unable to resolve active tenant domain context."), s)
  else
    (.ok (s.domains.get key (tenantOfDomain s.db key) 3600).1,
      { s with domains := (s.domains.get key (tenantOfDomain s.db key) 3600).2 })

/-- The tenant that the host names. -/
def resolveHost (env : GateEnv) (host : String) : GateService (Option Id) :=
  match domainKey host with
  | some key => resolveDomain env key
  | none => pure none

/-- The tenant that the headers pick: that of {lit}`X-Tenant-ID`, or else that of the host. -/
def resolveTenantId (env : GateEnv) (req : HttpRequest) : GateService (Option Id) :=
  match req.xTenantId with
  | .single value => if value != "" then pure (some value) else resolveHost env req.host
  | _ => resolveHost env req.host

/-- The middleware: the tenant that it keeps on the request, and the database context. -/
def tenantContextMiddleware (env : GateEnv) (req : HttpRequest) :
    GateService (Option Id × TenantContext) := do
  let owner ← Fallible.reads fun s => .ok (req.authorization.any (isPlatformOwner s.sessions))
  let tenantId ← resolveTenantId env req
  Fallible.throwIf (!truthy tenantId && !owner)
    (.forbidden "Access denied: Missing valid tenant context.")
  pure (tenantId, { tenantId := tenantId.filter (· != ""), isPlatformOwner := owner })

/-! ## The guard behind it -/

/-- Run a method on the session store. -/
def onSessions {α : Type} (x : SessionService α) : GateService α := fun s =>
  ((x s.sessions).1, { s with sessions := (x s.sessions).2 })

/-- What the strategy reads of a request. -/
def HttpRequest.jwtRequest (req : HttpRequest) (header : AuthorizationHeader)
    (tenantId : Option Id) : JwtRequest where
  headerText := header.text
  xTenantId := req.xTenantId.first
  tenantId := tenantId

/-- A request on its way to a guarded route: the user, and the context of what follows. -/
def guardedRequest (env : GateEnv) (req : HttpRequest) :
    GateService (AuthenticatedUser × Option TenantContext) := do
  let (tenantId, context) ← tenantContextMiddleware env req
  match req.authorization with
  | none => Fallible.throw (.unauthorized "Unauthorized")
  | some header =>
      if asciiLowerCase header.scheme = "bearer" then
        onSessions (authenticate (req.jwtRequest header tenantId) header.token (some context))
      else Fallible.throw (.unauthorized "Unauthorized")

/-! ## What a request that gets through runs under -/

/-- The context that the middleware opens. -/
theorem tenantContextMiddleware_eq_ok {env : GateEnv} {req : HttpRequest} {s s' : GateState}
    {tenantId : Option Id} {context : TenantContext}
    (h : tenantContextMiddleware env req s = (.ok (tenantId, context), s')) :
    resolveTenantId env req s = (.ok tenantId, s') ∧
      context.tenantId = tenantId.filter (· != "") ∧
      context.isPlatformOwner = req.authorization.any (isPlatformOwner s.sessions) := by
  unfold tenantContextMiddleware at h
  rcases Fallible.bind_eq_ok.mp h with ⟨owner, s₁, howner, hresolves⟩
  rcases Fallible.reads_eq_ok.mp howner with ⟨hvalue, rfl⟩
  rcases Fallible.bind_eq_ok.mp hresolves with ⟨resolved, s₂, hresolved, hguards⟩
  rcases Fallible.bind_eq_ok.mp hguards with ⟨_, s₃, hguard, hends⟩
  rcases Fallible.throwIf_eq_ok.mp hguard with ⟨_, rfl⟩
  cases hends
  exact ⟨hresolved, rfl, (Except.ok.inj hvalue).symm⟩

/-- The context that the strategy leaves: the tenant of the token, if it has one and is no
platform owner's. -/
theorem reconcileTenant_eq_ok {req : JwtRequest} {payload : TokenPayload}
    {context : TenantContext} {store : Option TenantContext}
    (h : reconcileTenant req payload (some context) = .ok store) :
    store = some (if !payload.roles.contains "PLATFORM_OWNER" && truthy payload.tenantId then
      { context with tenantId := payload.tenantId } else context) := by
  unfold reconcileTenant at h
  by_cases hbound : (!payload.roles.contains "PLATFORM_OWNER" && truthy payload.tenantId) = true
  · rw [if_pos hbound] at h
    rw [if_pos hbound]
    split at h
    · cases h
    · split at h
      · cases h
      · cases h
        rfl
  · rw [if_neg hbound] at h
    rw [if_neg hbound]
    cases h
    rfl

/-- A request that gets through the middleware and the guard. -/
theorem guardedRequest_eq_ok {env : GateEnv} {req : HttpRequest} {header : AuthorizationHeader}
    {s s' : GateState} {user : AuthenticatedUser} {store : Option TenantContext}
    (hheader : req.authorization = some header)
    (h : guardedRequest env req s = (.ok (user, store), s')) :
    ∃ tenantId s₁, resolveTenantId env req s = (.ok tenantId, s₁) ∧
      reconcileTenant (req.jwtRequest header tenantId) header.token.payload
        (some { tenantId := tenantId.filter (· != ""),
                isPlatformOwner := isPlatformOwner s.sessions header }) = .ok store := by
  unfold guardedRequest at h
  rcases Fallible.bind_eq_ok.mp h with ⟨⟨tenantId, context⟩, s₁, hmiddleware, h⟩
  rcases tenantContextMiddleware_eq_ok hmiddleware with ⟨hresolved, htenant, howner⟩
  refine ⟨tenantId, s₁, hresolved, ?_⟩
  rw [hheader] at h howner
  simp only [Option.any_some] at h howner
  by_cases hscheme : asciiLowerCase header.scheme = "bearer"
  · rw [if_pos hscheme] at h
    have hauthenticated : authenticate (req.jwtRequest header tenantId) header.token
        (some context) s₁.sessions = (.ok (user, store), s'.sessions) := by
      unfold onSessions at h
      simp only [Prod.mk.injEq] at h
      rw [← h.2]
      exact Prod.ext h.1 rfl
    have hvalid := (authenticate_eq_ok.mp hauthenticated).2
    have hreconciled := (validate_eq_ok hvalid).2.2.2
    rw [← htenant, ← howner]
    exact hreconciled
  · rw [if_neg hscheme] at h
    cases h

/-- A token without a role that reads as the platform owner's confers no platform
privilege. -/
theorem isPlatformOwner_eq_false (sessions : Sessions) {header : AuthorizationHeader}
    (hroles : ∀ role ∈ header.token.payload.roles, asciiUpperCase role ≠ "PLATFORM_OWNER") :
    isPlatformOwner sessions header = false := by
  have hnone : (header.token.payload.roles.any fun role =>
      asciiUpperCase role == "PLATFORM_OWNER") = false := by
    rw [List.any_eq_false]
    intro role hrole
    simpa using hroles role hrole
  unfold isPlatformOwner AuthorizationHeader.text
  by_cases hblanks : header.extraBlanks = 0
  · simp [hblanks, hnone]
  · simp [hblanks]

/-- A request with a token that is no platform owner's and that gets through runs under the
tenant of the token, or, when the token has none, under the tenant that the headers pick; and
without platform privilege, when none of its roles reads as the platform owner's. -/
theorem tenant_binding {env : GateEnv} {req : HttpRequest} {header : AuthorizationHeader}
    {s s' : GateState} {user : AuthenticatedUser} {store : Option TenantContext}
    (hheader : req.authorization = some header)
    (hroles : "PLATFORM_OWNER" ∉ header.token.payload.roles)
    (hthrough : guardedRequest env req s = (.ok (user, store), s')) :
    ∃ context, store = some context ∧
      (truthy header.token.payload.tenantId = true →
        context.tenantId = header.token.payload.tenantId) ∧
      (truthy header.token.payload.tenantId = false →
        ∃ tenantId s₁, resolveTenantId env req s = (.ok tenantId, s₁) ∧
          context.tenantId = tenantId.filter (· != "")) ∧
      ((∀ role ∈ header.token.payload.roles, asciiUpperCase role ≠ "PLATFORM_OWNER") →
        context.isPlatformOwner = false) := by
  rcases guardedRequest_eq_ok hheader hthrough with ⟨tenantId, s₁, hresolved, hreconciled⟩
  have hstore := reconcileTenant_eq_ok hreconciled
  have hcontains : header.token.payload.roles.contains "PLATFORM_OWNER" = false := by
    simpa using hroles
  rw [hcontains, Bool.not_false, Bool.true_and] at hstore
  refine ⟨_, hstore, ?_, ?_, ?_⟩
  · intro htenant
    rw [if_pos htenant]
  · intro htenant
    rw [if_neg (by simp [htenant])]
    exact ⟨tenantId, s₁, hresolved, rfl⟩
  · intro hspelling
    have howner := isPlatformOwner_eq_false s.sessions hspelling
    split <;> exact howner

/-! ## A token without a tenant -/

/-- The refresh token of a platform owner. -/
def ownerRefreshToken : RefreshToken :=
  { sub := "p1", email := "owner@zayjar.com", iat := 1700000000 }

/-- The access token of the pair that it is exchanged for. -/
def rotatedOwnerToken : AccessToken :=
  { payload := ownerRefreshToken.rotatedPayload, iat := 1700000050 }

/-- The access token of a waiter. -/
def waiterToken : AccessToken :=
  { payload := { sub := "u1", email := "a@b.c", tenantId := some "t1", roles := ["WAITER"] }
    iat := 1700000050 }

/-- The access token of an account whose role is spelled in lower case. -/
def lowerCaseToken : AccessToken :=
  { payload := { sub := "u2", email := "d@b.c", tenantId := some "t1",
                 roles := ["platform_owner"] }
    iat := 1700000050 }

def sampleGate : GateState where
  db := { tenants := [{ id := "t1", name := "Burger", subdomain := "burger" },
                      { id := "t2", name := "Sushi", subdomain := "sushi" }] }
  domains := { redis := { now := 1700000060000, entry := fun _ => none } }
  sessions :=
    { cache := { redis := { now := 1700000060000, entry := fun _ => none } }
      accessTokens := [rotatedOwnerToken, waiterToken, lowerCaseToken] }

/-- A waiter's request to the subdomain of the tenant. -/
def waiterRequest : HttpRequest where
  host := "burger.zayjar.com:443"
  authorization := some { token := waiterToken }

/-- A request with a rotated token of a platform owner. -/
def rotatedRequest : HttpRequest where
  host := "api.zayjar.com"
  authorization := some { token := rotatedOwnerToken }
  xTenantId := .single "t2"

/-- A request with a role in lower case. -/
def lowerCaseRequest : HttpRequest where
  host := "burger.zayjar.com"
  authorization := some { token := lowerCaseToken }

/-- The waiter's request runs under the waiter's tenant. -/
theorem waiter_bound :
    ∃ context s', guardedRequest {} waiterRequest sampleGate =
        (.ok (waiterToken.payload.user, some context), s') ∧
      context.tenantId = some "t1" ∧ context.isPlatformOwner = false := by
  have hthrough : (guardedRequest {} waiterRequest sampleGate).1.toOption.any
      (fun r => r.1 = waiterToken.payload.user) = true := by
    decide +kernel
  rcases Fallible.returned_of_any hthrough with ⟨⟨user, store⟩, s', hrun, huser⟩
  have hname : user = waiterToken.payload.user := by simpa using huser
  subst hname
  rcases tenant_binding rfl (by decide) hrun with ⟨context, rfl, htenant, _, howner⟩
  refine ⟨context, s', hrun, ?_, ?_⟩
  · exact htenant (by decide)
  · exact howner (by decide +kernel)

/-- A rotated token of a platform owner, which has neither roles nor a tenant, runs under the
tenant that the header names; and a role in lower case opens a platform owner's context. -/
theorem tenantless_token_unbound :
    (¬∀ env req header s s' user store, req.authorization = some header →
      "PLATFORM_OWNER" ∉ header.token.payload.roles →
      guardedRequest env req s = (.ok (user, store), s') →
        ∃ context, store = some context ∧
          context.tenantId = header.token.payload.tenantId) ∧
    ¬∀ env req header s s' user store, req.authorization = some header →
      "PLATFORM_OWNER" ∉ header.token.payload.roles →
      guardedRequest env req s = (.ok (user, store), s') →
        ∃ context, store = some context ∧ context.isPlatformOwner = false := by
  constructor
  · intro hbound
    have hthrough : (guardedRequest {} rotatedRequest sampleGate).1.toOption.any
        (fun r => r.2.any fun context => context.tenantId == some "t2") = true := by
      decide +kernel
    rcases Fallible.returned_of_any hthrough with ⟨⟨user, store⟩, s', hrun, hstore⟩
    rcases hbound _ _ _ _ _ _ _ rfl (by decide) hrun with ⟨context, rfl, htenant⟩
    rw [Option.any_some, htenant] at hstore
    revert hstore
    decide
  · intro hunprivileged
    have hthrough : (guardedRequest {} lowerCaseRequest sampleGate).1.toOption.any
        (fun r => r.2.any fun context => context.isPlatformOwner) = true := by
      decide +kernel
    rcases Fallible.returned_of_any hthrough with ⟨⟨user, store⟩, s', hrun, hstore⟩
    rcases hunprivileged _ _ _ _ _ _ _ rfl (by decide) hrun with ⟨context, rfl, howner⟩
    rw [Option.any_some, howner] at hstore
    cases hstore

end Auth
end Eleva
