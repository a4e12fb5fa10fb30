import Eleva.Auth.JwtStrategy
import Eleva.Database.SoftDelete

/-!
# Kds - The gateway of the kitchen display

The WebSocket gateway authenticates a socket by an access token of its handshake, lets it
join the rooms of its tenant's branches and sends order events to such a room.  It repeats
the checks that the guard of the HTTP routes makes of an access token, up to one.

Main results:

- Definitions {lit}`handleConnection`, {lit}`handleJoinBranch`, {lit}`handleLeaveBranch`
  and {lit}`broadcastOrderEvent`.
- Theorem {lit}`handleConnection_eq_authenticated`: what a socket that is authenticated has
  shown.
- Theorem {lit}`socket_token_accepted_iff`: the guard of the routes accepts the token of a
  socket exactly when the token was not issued before a stored cutoff of its user.
-/

namespace Eleva
namespace Kds

open Foundation Database Cache Auth

/-! ## Handshakes -/

/-- An authorization header: what stands before its first blank, and the piece after it. -/
structure HeaderValue where
  scheme : String
  piece : HeaderText
deriving DecidableEq, Repr

/-- {lit}`header.startsWith('Bearer ')`. -/
def HeaderValue.isBearer (value : HeaderValue) : Bool :=
  value.scheme == "Bearer"

/-- An authorization header, or several. -/
inductive AuthorizationHeader where
  | single (value : HeaderValue)
  | several (values : List HeaderValue)
deriving DecidableEq, Repr

/-- What the gateway reads of a handshake; a value that is not a text counts as missing. -/
structure Handshake where
  authToken : Option HeaderText := none
  queryToken : Option HeaderText := none
  authorization : Option AuthorizationHeader := none
deriving DecidableEq, Repr

/-- Whether a text is not empty. -/
def textPresent : HeaderText → Bool
  | .token _ => true
  | .other text => text != ""

/-- The token of an authorization header. -/
def headerToken : AuthorizationHeader → Option HeaderText
  | .single value => if value.isBearer then some value.piece else none
  | .several values =>
      match values.head? with
      | some value => if value.isBearer then some value.piece else none
      | none => none

/-- The handshake's own token first, then the query's, then the header's. -/
def extractToken (handshake : Handshake) : Option HeaderText :=
  if handshake.authToken.any textPresent then handshake.authToken
  else if handshake.queryToken.any textPresent then handshake.queryToken
  else handshake.authorization.bind headerToken

/-! ## Connections -/

/-- How a connection ends: with a user on the socket, or with an error event, after which
the socket is disconnected. -/
inductive Connection where
  | authenticated (user : AuthenticatedUser)
  | rejected (message : String)
deriving DecidableEq, Repr

/-- The tenant of the token is required once the token has passed. -/
def attachUser (token : AccessToken) : Connection :=
  if truthy token.payload.tenantId then .authenticated token.payload.user
  else .rejected "Tenant context missing in token"

/-- The signature is verified, then the blacklist is consulted, then the tenant is required. -/
def handleConnection (handshake : Handshake) (s : Sessions) : Connection × Sessions :=
  match (extractToken handshake).filter textPresent with
  | none => (.rejected "Authentication required: Missing JWT token", s)
  | some (.other _) => (.rejected "Invalid or expired token", s)
  | some (.token token) =>
      if s.verifiesAccess token then
        match isTokenBlacklisted (.token token) s with
        | (true, s) => (.rejected "Token has been revoked", s)
        | (false, s) => (attachUser token, s)
      else (.rejected "Invalid or expired token", s)

/-! ## Rooms -/

/-- The room of a tenant's branch. -/
def getRoomName (tenantId branchId : String) : String :=
  "tenant:" ++ tenantId ++ ":branch:" ++ branchId

/-- A branch id as a client may send it: a text, an object, which the database client reads
as a filter, or a value that it refuses, with the text a template makes of it. -/
inductive BranchIdValue where
  | text (value : String)
  | filter (matching : Id → Bool)
  | refused (shown : String)

/-- Whether a value counts as true; other values that do not are given as missing. -/
def BranchIdValue.truthy : BranchIdValue → Bool
  | .text value => value != ""
  | _ => true

/-- The text that a template makes of a value. -/
def BranchIdValue.shown : BranchIdValue → String
  | .text value => value
  | .filter _ => "[object Object]"
  | .refused shown => shown

/-- A message: a text, an object with or without a branch id, or anything else. -/
inductive RoomMessage where
  | text (value : String)
  | object (branchId : Option BranchIdValue)
  | other

/-- The branch id of a message. -/
def RoomMessage.branchId : RoomMessage → Option BranchIdValue
  | .text value => some (.text value)
  | .object branchId => branchId
  | .other => none

/-- What a message to join or leave a room ends in. -/
inductive RoomAnswer where
  | disconnected (message : String)
  | error (message : String)
  | joined (room : String)
  | left (room : String)
deriving DecidableEq, Repr

/-- The lookup of the branch; a value of the wrong shape is refused by the client. -/
def findBranch (env : Env) : BranchIdValue → Service (Option Branch)
  | .text value => branches.run (branchRepository.findById env value)
  | .filter matching =>
      branches.run (branchRepository.findFirst env { rest := fun b => matching b.id })
  | .refused _ => Fallible.throw (.client (.unknownArgument "id"))

/-- The message of a failed lookup. -/
def lookupFailure : AppError → String
  | .client (.failSafe _) => "Tenant isolation violation: Branch not accessible"
  | _ => "Failed to join branch room"

/-- The branch is looked up in the context of the socket's tenant. -/
def handleJoinBranch (env : Env) (user : Option AuthenticatedUser) (message : RoomMessage)
    (w : World) : RoomAnswer :=
  match user.bind (·.tenantId) |>.filter (· != "") with
  | none => .disconnected "Not authenticated"
  | some tenantId =>
      match message.branchId.filter (·.truthy) with
      | none => .error "branchId required"
      | some branchId =>
          match (findBranch { env with context := { tenantId := some tenantId } } branchId w).1 with
          | .error e => .error (lookupFailure e)
          | .ok none => .error "Branch not found or access denied"
          | .ok (some _) => .joined (getRoomName tenantId branchId.shown)

/-- A socket may leave any room of its tenant. -/
def handleLeaveBranch (user : Option AuthenticatedUser) (message : RoomMessage) : RoomAnswer :=
  match user.bind (·.tenantId) |>.filter (· != "") with
  | none => .error "Not authenticated"
  | some tenantId =>
      match message.branchId.filter (·.truthy) with
      | none => .error "branchId required"
      | some branchId => .left (getRoomName tenantId branchId.shown)

/-- The room that an event is sent to, unless an id is missing. -/
def broadcastOrderEvent (tenantId branchId : String) : Option String :=
  if tenantId = "" ∨ branchId = "" then none
  else some (getRoomName tenantId branchId)

/-! ## The token of a socket -/

/-- A socket that is authenticated has shown a token that verifies, that is not blacklisted
and that names a tenant. -/
theorem handleConnection_eq_authenticated {handshake : Handshake} {s s' : Sessions}
    {user : AuthenticatedUser} :
    handleConnection handshake s = (.authenticated user, s') ↔
      ∃ token, (extractToken handshake).filter textPresent = some (.token token) ∧
        s.verifiesAccess token = true ∧ (isTokenBlacklisted (.token token) s).1 = false ∧
        truthy token.payload.tenantId = true ∧ user = token.payload.user ∧
        s' = (isTokenBlacklisted (.token token) s).2 := by
  unfold handleConnection
  rcases (extractToken handshake).filter textPresent with _ | token | text
  · simp
  · by_cases hverifies : s.verifiesAccess token = true
    · rcases hblack : isTokenBlacklisted (.token token) s with ⟨listed, s₁⟩
      cases listed with
      | true => simp [hverifies, hblack]
      | false =>
          by_cases htenant : truthy token.payload.tenantId = true
          · simp only [hverifies, if_true, hblack, attachUser, htenant, Prod.mk.injEq,
              Connection.authenticated.injEq, Option.some.injEq, HeaderText.token.injEq,
              exists_eq_left', true_and]
            exact and_congr eq_comm eq_comm
          · simp [hverifies, hblack, attachUser, htenant]
    · simp [hverifies]
  · simp

/-- No cutoff that is stored for the user of a token lies after its issue. -/
def IssuedAfterCutoff (token : AccessToken) (s : Sessions) : Prop :=
  ∀ cutoff, s.cache.redis.read (.revokedUser token.payload.sub) = some (.number cutoff) →
    token.payload.sub = "" ∨ cutoff ≤ token.iat

/-- The cutoff that is read, against the time of issue. -/
theorem cutoff_le_iff (token : AccessToken) (s : Sessions) :
    (getUserRevocationCutoff token.payload.sub s).1 ≤ token.iat ↔ IssuedAfterCutoff token s := by
  unfold getUserRevocationCutoff IssuedAfterCutoff
  by_cases hsub : token.payload.sub = ""
  · simp [hsub]
  · rw [if_neg hsub]
    rcases hread : s.cache.redis.read (.revokedUser token.payload.sub) with _ | _ | cutoff | _ | _
    all_goals simp [Sessions.get, CacheState.get, hread, hsub]

/-- The look at the blacklist leaves what is stored. -/
theorem isTokenBlacklisted_redis (text : HeaderText) (s : Sessions) :
    (isTokenBlacklisted text s).2.cache.redis = s.cache.redis :=
  CacheState.get_redis ..

/-- The request that carries a token and nothing else. -/
def bearerRequest (token : AccessToken) : JwtRequest where
  headerText := .token token

/-- Without a tenant header and a resolved tenant, the strategy accepts a token that is neither
blacklisted nor issued before the cutoff of its user. -/
theorem validate_bearer {token : AccessToken} {store : Option TenantContext} {s : Sessions}
    (hblack : (isTokenBlacklisted (.token token) s).1 = false) :
    (∃ store' s', validate (bearerRequest token) token store s =
      (.ok (token.payload.user, store'), s')) ↔ IssuedAfterCutoff token s := by
  have hread : IssuedAfterCutoff token (isTokenBlacklisted (.token token) s).2 ↔
      IssuedAfterCutoff token s := by
    unfold IssuedAfterCutoff
    rw [isTokenBlacklisted_redis]
  rw [← hread, ← cutoff_le_iff]
  constructor
  · rintro ⟨store', s', hvalid⟩
    exact (validate_eq_ok hvalid).2.2.1
  · intro hcutoff
    have htenant : ∃ store', reconcileTenant (bearerRequest token) token.payload store =
        .ok store' := by
      unfold reconcileTenant
      split
      · exact ⟨_, rfl⟩
      · exact ⟨_, rfl⟩
    rcases htenant with ⟨store', hstore⟩
    have hfirst : rejectBlacklisted (bearerRequest token) s =
        (.ok (), (isTokenBlacklisted (.token token) s).2) :=
      rejectBlacklisted_eq_ok.mpr ⟨hblack, rfl⟩
    have hsecond := rejectRevoked_eq_ok (u := ()) |>.mpr ⟨hcutoff, rfl⟩
    let s₂ := (getUserRevocationCutoff token.payload.sub (isTokenBlacklisted (.token token) s).2).2
    refine ⟨store', s₂, ?_⟩
    unfold validate
    rw [Fallible.bind_of_ok hfirst, Fallible.bind_of_ok hsecond, hstore]
    rfl

/-- The strategy accepts the token of a socket, with the same user and tenant, exactly when
the token was not issued before a cutoff that is stored for its user. -/
theorem socket_token_accepted_iff {handshake : Handshake} {token : AccessToken}
    {user : AuthenticatedUser} {s s' : Sessions} (store : Option TenantContext)
    (htoken : extractToken handshake = some (.token token))
    (hsocket : handleConnection handshake s = (.authenticated user, s')) :
    (∃ user' store' s'',
        validate (bearerRequest token) token store s = (.ok (user', store'), s'') ∧
          user'.id = user.id ∧ user'.tenantId = user.tenantId) ↔
      IssuedAfterCutoff token s := by
  rcases handleConnection_eq_authenticated.mp hsocket with
    ⟨token', hextract, _, hblack, _, rfl, _⟩
  have hsame : token' = token := by
    rw [htoken] at hextract
    cases hextract
    rfl
  subst hsame
  rw [← validate_bearer hblack]
  constructor
  · rintro ⟨user', store', s'', hvalid, _, _⟩
    rw [(validate_eq_ok hvalid).1] at hvalid
    exact ⟨store', s'', hvalid⟩
  · rintro ⟨store', s'', hvalid⟩
    exact ⟨_, store', s'', hvalid, rfl, rfl⟩

/-! ## A cook whose access was revoked -/

/-- A cook's token. -/
def cookToken : AccessToken where
  payload :=
    { sub := "u1", email := "ana@example.com", tenantId := some "t1", roles := ["KITCHEN_STAFF"] }
  iat := 1700000000

/-- The session store a minute later. -/
def cookSessions : Sessions where
  cache := { redis := { now := 1700000060000, entry := fun _ => none } }
  accessTokens := [cookToken]

/-- The handshake with that token. -/
def cookHandshake : Handshake where
  authToken := some (.token cookToken)

/-- The store once all tokens of the cook have been revoked. -/
def revokedSessions : Sessions :=
  (revokeAllUserTokens "u1" cookSessions).2

/-- Before the revocation, socket and route accept the token alike. -/
theorem cook_token_accepted :
    (handleConnection cookHandshake cookSessions).1 = .authenticated cookToken.payload.user ∧
      ∃ user store s, validate (bearerRequest cookToken) cookToken none cookSessions =
        (.ok (user, store), s) ∧ user.id = "u1" ∧ user.tenantId = some "t1" := by
  have hsocket : (handleConnection cookHandshake cookSessions).1 =
      .authenticated cookToken.payload.user := by decide +kernel
  refine ⟨hsocket, (socket_token_accepted_iff none rfl (Prod.ext hsocket rfl)).mpr ?_⟩
  intro cutoff hread
  cases hread

/-- After it, the gateway still authenticates a socket with the token, which the strategy
refuses. -/
theorem revoked_token_on_socket :
    (revokeAllUserTokens "u1" cookSessions).1 = .ok () ∧
      (handleConnection cookHandshake revokedSessions).1 = .authenticated cookToken.payload.user ∧
      (validate (bearerRequest cookToken) cookToken none revokedSessions).1 =
        .error (.unauthorized ("This access token has been revoked because the account was " ++
          "deactivated or removed.")) := by
  refine ⟨by decide +kernel, by decide +kernel, rfl⟩

end Kds
end Eleva
