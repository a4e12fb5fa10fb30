import Eleva.Auth.Tokens

/-!
# Auth - The guard of authenticated routes

What a request with an access token goes through: the verification of the signature and
the expiry, the blacklist, the revocation cutoff of the user and the reconciliation of
the tenant context with the tenant of the token.

Main results:

- Definition {lit}`validate`: the strategy, and {lit}`authenticate`: the whole guard.
- Theorem {lit}`authenticate_eq_ok`: what a request that is let through has passed.
-/

namespace Eleva
namespace Auth

open Foundation Database

/-- What the strategy reads of a request: the piece of the authorization header after its
first blank, the first {lit}`x-tenant-id` header, and the tenant that the middleware
resolved. -/
structure JwtRequest where
  headerText : HeaderText
  xTenantId : Option String := none
  tenantId : Option Id := none
deriving DecidableEq, Repr

/-- The user that the strategy hands to the route. -/
structure AuthenticatedUser where
  id : Id
  email : String
  tenantId : Option Id
  roles : List String
  permissions : List String
deriving DecidableEq, Repr

/-- The user that a payload names. -/
def TokenPayload.user (payload : TokenPayload) : AuthenticatedUser where
  id := payload.sub
  email := payload.email
  tenantId := payload.tenantId
  roles := payload.roles
  permissions := payload.permissions

/-- The first check: a token that was surrendered at logout. -/
def rejectBlacklisted (req : JwtRequest) : SessionService Unit := fun s =>
  match isTokenBlacklisted req.headerText s with
  | (true, s) =>
      (.error (.unauthorized "This access token has been revoked or blacklisted."), s)
  | (false, s) => (.ok (), s)

/-- The second check: a token issued before the revocation cutoff of its user. -/
def rejectRevoked (token : AccessToken) : SessionService Unit := fun s =>
  match getUserRevocationCutoff token.payload.sub s with
  | (revokedAt, s) =>
      if 0 < revokedAt ∧ token.iat < revokedAt then
        (.error (.unauthorized ("This access token has been revoked because the account was " ++
          "deactivated or removed.")), s)
      else (.ok (), s)

/-- The third check: the tenant of the token against the header and the resolved tenant;
the context of the rest of the request takes the tenant of the token. -/
def reconcileTenant (req : JwtRequest) (payload : TokenPayload)
    (store : Option TenantContext) : Except AppError (Option TenantContext) :=
  if !payload.roles.contains "PLATFORM_OWNER" && truthy payload.tenantId then
    if truthy req.xTenantId && req.xTenantId != payload.tenantId then
      .error (.forbidden ("Tenant context mismatch: X-Tenant-ID does not match the " ++
        "authenticated tenant."))
    else if truthy req.tenantId && req.tenantId != payload.tenantId then
      .error (.forbidden ("Tenant context mismatch: resolved tenant does not match the " ++
        "authenticated tenant."))
    else .ok (store.map fun context => { context with tenantId := payload.tenantId })
  else .ok store

def validate (req : JwtRequest) (token : AccessToken) (store : Option TenantContext) :
    SessionService (AuthenticatedUser × Option TenantContext) := do
  rejectBlacklisted req
  rejectRevoked token
  let store ← Fallible.reads fun _ => reconcileTenant req token.payload store
  pure (token.payload.user, store)

/-- The guard: the bearer token verifies and the strategy accepts it. -/
def authenticate (req : JwtRequest) (token : AccessToken) (store : Option TenantContext) :
    SessionService (AuthenticatedUser × Option TenantContext) := fun s =>
  if s.verifiesAccess token then validate req token store s
  else (.error (.unauthorized "Unauthorized"), s)

/-! ## What the checks do -/

theorem rejectBlacklisted_eq_ok {req : JwtRequest} {s s' : Sessions} {u : Unit} :
    rejectBlacklisted req s = (.ok u, s') ↔
      (isTokenBlacklisted req.headerText s).1 = false ∧
        s' = (isTokenBlacklisted req.headerText s).2 := by
  unfold rejectBlacklisted
  rcases isTokenBlacklisted req.headerText s with ⟨listed, s₁⟩
  cases listed <;> simp [eq_comm]

theorem rejectRevoked_eq_ok {token : AccessToken} {s s' : Sessions} {u : Unit} :
    rejectRevoked token s = (.ok u, s') ↔
      (getUserRevocationCutoff token.payload.sub s).1 ≤ token.iat ∧
        s' = (getUserRevocationCutoff token.payload.sub s).2 := by
  unfold rejectRevoked
  rcases getUserRevocationCutoff token.payload.sub s with ⟨revokedAt, s₁⟩
  simp only
  split <;> rename_i hcutoff
  · constructor
    · intro h
      cases h
    · rintro ⟨hle, _⟩
      omega
  · constructor
    · intro h
      cases h
      exact ⟨by omega, rfl⟩
    · rintro ⟨_, rfl⟩
      rfl

/-- A request that the strategy accepts was not blacklisted, and its token was issued at or
after the cutoff that was read. -/
theorem validate_eq_ok {req : JwtRequest} {token : AccessToken}
    {store store' : Option TenantContext}
    {user : AuthenticatedUser} {s s' : Sessions}
    (h : validate req token store s = (.ok (user, store'), s')) :
    user = token.payload.user ∧ (isTokenBlacklisted req.headerText s).1 = false ∧
      (getUserRevocationCutoff token.payload.sub
        (isTokenBlacklisted req.headerText s).2).1 ≤ token.iat ∧
      reconcileTenant req token.payload store = .ok store' := by
  unfold validate at h
  rcases Fallible.bind_eq_ok.mp h with ⟨_, s₁, hblack, h⟩
  rcases rejectBlacklisted_eq_ok.mp hblack with ⟨hnot, rfl⟩
  rcases Fallible.bind_eq_ok.mp h with ⟨_, s₂, hrevoked, h⟩
  rcases rejectRevoked_eq_ok.mp hrevoked with ⟨hcutoff, rfl⟩
  rcases Fallible.bind_eq_ok.mp h with ⟨store₁, s₃, hreads, h⟩
  rcases Fallible.reads_eq_ok.mp hreads with ⟨hstore, rfl⟩
  cases h
  exact ⟨rfl, hnot, hcutoff, hstore⟩

/-- A request that is let through carries a token that verifies and that the strategy
accepts. -/
theorem authenticate_eq_ok {req : JwtRequest} {token : AccessToken}
    {store store' : Option TenantContext} {user : AuthenticatedUser} {s s' : Sessions} :
    authenticate req token store s = (.ok (user, store'), s') ↔
      s.verifiesAccess token = true ∧ validate req token store s = (.ok (user, store'), s') := by
  unfold authenticate
  by_cases hverifies : s.verifiesAccess token = true
  · simp [hverifies]
  · rw [if_neg hverifies]
    constructor
    · intro h
      cases h
    · rintro ⟨h, _⟩
      exact absurd h hverifies

end Auth
end Eleva
