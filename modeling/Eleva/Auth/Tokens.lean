import Eleva.Cache.CacheService
import Eleva.Service

/-!
# Auth - Tokens and their revocation

The token functions of the authentication service: signing a pair, rotating a refresh
token, blacklisting an access token and the revocation cutoff of a user.  A signed token
is given by its claims, since signing is a function of them, and a signature verifies
exactly on the tokens that were signed here.  The keys of the cache differ in their
first letters, so each kind is a constructor of its own.

Main results:

- Definitions {lit}`generateTokens`, {lit}`rotateRefreshToken`, {lit}`blacklistToken`,
  {lit}`revokeAllUserTokens` and {lit}`getUserRevocationCutoff`.
- Theorem {lit}`rotateRefreshToken_run`: what a rotation that runs alone does.
-/

namespace Eleva
namespace Auth

open Foundation Database Cache

/-! ## Claims -/

/-- Lifetime of an access token, in seconds. -/
def accessTokenExpiry : ℕ := 15 * 60

/-- Lifetime of a refresh token, in seconds. -/
def refreshTokenExpiry : ℕ := 7 * 24 * 60 * 60

/-- What an access token says about its holder. -/
structure TokenPayload where
  sub : Id
  email : String
  tenantId : Option Id := none
  roles : List String := []
  permissions : List String := []
deriving DecidableEq, Repr

/-- An access token, by its claims. -/
structure AccessToken where
  payload : TokenPayload
  iat : ℕ
deriving DecidableEq, Repr

/-- A refresh token, by its claims. -/
structure RefreshToken where
  sub : Id
  email : String
  tenantId : Option Id := none
  iat : ℕ
deriving DecidableEq, Repr

/-- The second from which an access token has expired. -/
def AccessToken.exp (t : AccessToken) : ℕ :=
  t.iat + accessTokenExpiry

/-- The second from which a refresh token has expired. -/
def RefreshToken.exp (t : RefreshToken) : ℕ :=
  t.iat + refreshTokenExpiry

/-- The piece of an authorization header that follows its first blank. -/
inductive HeaderText where
  | token (t : AccessToken)
  | other (text : String)
deriving DecidableEq, Repr

/-! ## The session store -/

/-- The cache keys of the authentication service. -/
inductive SessionKey where
  /-- {lit}`blacklist:token:` and a refresh token. -/
  | blacklistToken (token : RefreshToken)
  /-- {lit}`blacklist:access:` and the piece of a header. -/
  | blacklistAccess (text : HeaderText)
  /-- {lit}`revoked:user:` and a user id. -/
  | revokedUser (userId : Id)
  /-- {lit}`csrf:token:` and a user id. -/
  | csrfToken (userId : Id)
  /-- {lit}`password-reset:token:` and a text. -/
  | passwordReset (token : String)
deriving DecidableEq, Repr

/-- The values that the service keeps in the cache, as they are parsed back. -/
inductive SessionValue where
  | flag (b : Bool)
  | number (n : ℕ)
  | text (s : String)
  | null
deriving DecidableEq, Repr

/-- Whether a value counts as true. -/
def SessionValue.truthy : SessionValue → Bool
  | .flag b => b
  | .number n => n != 0
  | .text s => s != ""
  | .null => false

/-- The cache, and the tokens that were signed so far. -/
structure Sessions where
  cache : CacheState SessionKey SessionValue
  accessTokens : List AccessToken := []
  refreshTokens : List RefreshToken := []

/-- A method of the authentication service that works on the session store. -/
abbrev SessionService (α : Type) := Fallible Sessions AppError α

/-- The clock in seconds, rounded down. -/
def Sessions.seconds (s : Sessions) : ℕ :=
  s.cache.redis.now / 1000

/-- The time to live of a cache entry when the call names none. -/
def defaultTtl : ℕ := 7200

/-- Lifetime of a revocation cutoff in the cache, in seconds. -/
def USER_REVOCATION_TTL_SECONDS : ℕ := 3600

/-- Let time pass. -/
def Sessions.advance (s : Sessions) (elapsed : ℕ) : Sessions :=
  { s with cache := s.cache.advance elapsed }

/-- A value that was sent back to the cache lands. -/
def Sessions.land (s : Sessions) (slot : ℕ) : Sessions :=
  { s with cache := s.cache.land slot }

/-- Read a cache key. -/
def Sessions.get (s : Sessions) (key : SessionKey) (fallback : SessionValue)
    (ttlSeconds : ℕ) : SessionValue × Sessions :=
  ((s.cache.get key fallback ttlSeconds).1,
    { s with cache := (s.cache.get key fallback ttlSeconds).2 })

/-- Write a cache key. -/
def Sessions.set (s : Sessions) (key : SessionKey) (value : SessionValue)
    (ttlSeconds : ℕ) : Sessions :=
  { s with cache := s.cache.set key value ttlSeconds }

/-- Remove a cache key. -/
def Sessions.del (s : Sessions) (key : SessionKey) : Sessions :=
  { s with cache := s.cache.del key }

/-! ## Signing and verifying -/

/-- The signature of a refresh token verifies and the token has not expired. -/
def Sessions.verifiesRefresh (s : Sessions) (t : RefreshToken) : Bool :=
  s.refreshTokens.contains t && decide (s.seconds < t.exp)

/-- The signature of an access token verifies and the token has not expired. -/
def Sessions.verifiesAccess (s : Sessions) (t : AccessToken) : Bool :=
  s.accessTokens.contains t && decide (s.seconds < t.exp)

/-- The access token signed now. -/
def Sessions.accessTokenFor (s : Sessions) (payload : TokenPayload) : AccessToken :=
  { payload, iat := s.seconds }

/-- The refresh token signed now. -/
def Sessions.refreshTokenFor (s : Sessions) (payload : TokenPayload) : RefreshToken :=
  { sub := payload.sub, email := payload.email, tenantId := payload.tenantId, iat := s.seconds }

/-- The state once a pair has been signed. -/
def Sessions.signed (s : Sessions) (payload : TokenPayload) : Sessions :=
  { s with
    accessTokens := s.accessTokenFor payload :: s.accessTokens
    refreshTokens := s.refreshTokenFor payload :: s.refreshTokens }

def generateTokens (payload : TokenPayload) : SessionService (AccessToken × RefreshToken) :=
  fun s => (.ok (s.accessTokenFor payload, s.refreshTokenFor payload), s.signed payload)

/-! ## Rotation -/

/-- The claims of a rotated pair; a refresh token carries no roles and no permissions. -/
def RefreshToken.rotatedPayload (t : RefreshToken) : TokenPayload :=
  { sub := t.sub
    email := t.email
    tenantId := if truthy t.tenantId then t.tenantId else none
    roles := []
    permissions := [] }

/-- The error of every refresh that fails. -/
def refreshFailed : AppError :=
  .unauthorized "Session refresh has failed. Please log in again."

/-- Read the blacklist marker of a refresh token. -/
def markerRead (t : RefreshToken) (s : Sessions) : Bool × Sessions :=
  ((s.get (.blacklistToken t) (.flag false) defaultTtl).1.truthy,
    (s.get (.blacklistToken t) (.flag false) defaultTtl).2)

/-- Set the blacklist marker of a refresh token. -/
def markRotated (t : RefreshToken) (s : Sessions) : Sessions :=
  s.set (.blacklistToken t) (.flag true) refreshTokenExpiry

def rotateRefreshToken (oldToken : RefreshToken) :
    SessionService (AccessToken × RefreshToken × Id) := fun s =>
  if s.verifiesRefresh oldToken then
    match markerRead oldToken s with
    | (true, s) => (.error refreshFailed, s)
    | (false, s) =>
        match generateTokens oldToken.rotatedPayload (markRotated oldToken s) with
        | (.ok (accessToken, refreshToken), s) =>
            (.ok (accessToken, refreshToken, oldToken.sub), s)
        | (.error e, s) => (.error e, s)
  else (.error refreshFailed, s)

/-! ## Blacklist and cutoff -/

def blacklistToken (text : HeaderText) (remainingSeconds : ℕ) (s : Sessions) : Sessions :=
  s.set (.blacklistAccess text) (.flag true) remainingSeconds

def isTokenBlacklisted (text : HeaderText) (s : Sessions) : Bool × Sessions :=
  ((s.get (.blacklistAccess text) (.flag false) defaultTtl).1.truthy,
    (s.get (.blacklistAccess text) (.flag false) defaultTtl).2)

def revokeAllUserTokens (userId : Id) : SessionService Unit := fun s =>
  if userId = "" then (.ok (), s)
  else
    match s.cache.setStrict (.revokedUser userId) (.number (s.seconds + 1))
        USER_REVOCATION_TTL_SECONDS with
    | (true, cache) => (.ok (), { s with cache })
    | (false, cache) =>
        (.error (.serviceUnavailable ("Unable to revoke active sessions right now. " ++
          "The change was not applied — please retry.")), { s with cache })

def getUserRevocationCutoff (userId : Id) (s : Sessions) : ℕ × Sessions :=
  if userId = "" then (0, s)
  else
    match s.get (.revokedUser userId) (.number 0) USER_REVOCATION_TTL_SECONDS with
    | (.number n, s) => (n, s)
    | (_, s) => (0, s)

/-! ## What the functions leave alone -/

section Projections

variable (s : Sessions) (key : SessionKey) (value fallback : SessionValue) (ttlSeconds : ℕ)

@[simp]
theorem advance_accessTokens (elapsed : ℕ) : (s.advance elapsed).accessTokens = s.accessTokens :=
  rfl

@[simp]
theorem advance_refreshTokens (elapsed : ℕ) :
    (s.advance elapsed).refreshTokens = s.refreshTokens :=
  rfl

@[simp]
theorem advance_now (elapsed : ℕ) :
    (s.advance elapsed).cache.redis.now = s.cache.redis.now + elapsed :=
  rfl

@[simp]
theorem advance_entry (elapsed : ℕ) :
    (s.advance elapsed).cache.redis.entry key = s.cache.redis.entry key :=
  rfl

@[simp]
theorem get_accessTokens : (s.get key fallback ttlSeconds).2.accessTokens = s.accessTokens :=
  rfl

@[simp]
theorem get_refreshTokens :
    (s.get key fallback ttlSeconds).2.refreshTokens = s.refreshTokens :=
  rfl

@[simp]
theorem get_redis : (s.get key fallback ttlSeconds).2.cache.redis = s.cache.redis :=
  CacheState.get_redis ..

@[simp]
theorem set_accessTokens : (s.set key value ttlSeconds).accessTokens = s.accessTokens :=
  rfl

@[simp]
theorem set_refreshTokens : (s.set key value ttlSeconds).refreshTokens = s.refreshTokens :=
  rfl

@[simp]
theorem set_now : (s.set key value ttlSeconds).cache.redis.now = s.cache.redis.now :=
  CacheState.setEx_now ..

/-- Reading moves no clock. -/
@[simp]
theorem get_seconds : (s.get key fallback ttlSeconds).2.seconds = s.seconds := by
  unfold Sessions.seconds
  rw [get_redis]

/-- Writing moves no clock. -/
@[simp]
theorem set_seconds : (s.set key value ttlSeconds).seconds = s.seconds := by
  unfold Sessions.seconds
  rw [set_now]

/-- Time only goes forward. -/
theorem seconds_le_advance (elapsed : ℕ) : s.seconds ≤ (s.advance elapsed).seconds :=
  Nat.div_le_div_right (Nat.le_add_right _ _)

end Projections

/-- The time of a token that has not expired is not over. -/
theorem now_lt_of_seconds {s : Sessions} {exp : ℕ} (hlive : s.seconds < exp) :
    s.cache.redis.now < 1000 * exp := by
  unfold Sessions.seconds at hlive
  omega

/-- A rotation marks the old token and signs a pair, where the token verifies and is not
marked. -/
theorem rotateRefreshToken_run (t : RefreshToken) (s : Sessions) :
    rotateRefreshToken t s =
      if s.verifiesRefresh t = false then (.error refreshFailed, s)
      else if (markerRead t s).1 = true then (.error refreshFailed, (markerRead t s).2)
      else (.ok (s.accessTokenFor t.rotatedPayload, s.refreshTokenFor t.rotatedPayload, t.sub),
        (markRotated t (markerRead t s).2).signed t.rotatedPayload) := by
  unfold rotateRefreshToken
  cases hverifies : s.verifiesRefresh t with
  | false => rfl
  | true =>
      rcases hmarker : markerRead t s with ⟨marked, s'⟩
      cases marked with
      | true => rfl
      | false =>
          have hseconds : (markRotated t s').seconds = s.seconds := by
            have hs' : s' = (markerRead t s).2 := (congrArg Prod.snd hmarker).symm
            rw [markRotated, set_seconds, hs']
            exact get_seconds ..
          simp [generateTokens, Sessions.accessTokenFor, Sessions.refreshTokenFor, hseconds]

end Auth
end Eleva
