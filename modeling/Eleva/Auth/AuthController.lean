import Eleva.Auth.JwtStrategy

/-!
# Auth - The session routes

The routes that go on with a session or end it, each run as one call, and the CSRF token
that goes with a session.

Main results:

- Definitions {lit}`refresh` and {lit}`logout`: the routes.
- Theorem {lit}`refresh_eq_ok`: a refresh that returns has rotated the token of its cookie.
- Theorem {lit}`logout_eq_ok`: what a logout that returns has done.
-/

namespace Eleva
namespace Auth

open Foundation Database

/-- Lifetime of a CSRF token in the cache, in seconds. -/
def CSRF_TOKEN_TTL : ℕ := 7 * 24 * 60 * 60

/-- Store a CSRF token; {lit}`token` is the text that the generator draws. -/
def csrfGenerateToken (userId : Id) (token : String) (s : Sessions) : Sessions :=
  s.set (.csrfToken userId) (.text token) CSRF_TOKEN_TTL

def csrfDeleteToken (userId : Id) (s : Sessions) : Sessions :=
  s.del (.csrfToken userId)

/-- The error of a refresh without a cookie. -/
def refreshCookieMissing : AppError :=
  .unauthorized "Refresh session cookie is missing."

/-- The answer to a refresh: a pair of tokens with a new CSRF token. -/
def answerRefresh (csrfToken : String) (rotated : AccessToken × RefreshToken × Id) :
    SessionService (AccessToken × RefreshToken × String) := fun s =>
  if rotated.2.2 = "" then (.ok (rotated.1, rotated.2.1, ""), s)
  else (.ok (rotated.1, rotated.2.1, csrfToken), csrfGenerateToken rotated.2.2 csrfToken s)

def refresh (cookie : Option RefreshToken) (csrfToken : String) :
    SessionService (AccessToken × RefreshToken × String) :=
  match cookie with
  | none => Fallible.throw refreshCookieMissing
  | some oldRefreshToken => rotateRefreshToken oldRefreshToken >>= answerRefresh csrfToken

/-- What a logout does once its request has passed the guard. -/
def endSession (req : JwtRequest) (userId : Id) (s : Sessions) : Sessions :=
  if userId = "" then blacklistToken req.headerText 900 s
  else csrfDeleteToken userId (blacklistToken req.headerText 900 s)

def logout (req : JwtRequest) (bearer : AccessToken) (store : Option TenantContext) :
    SessionService Unit := do
  let (user, _) ← authenticate req bearer store
  Fallible.modify (endSession req user.id)

/-- The answer to a refresh hands on the rotated pair and leaves the tokens. -/
theorem answerRefresh_run (csrfToken : String) (a : AccessToken) (r : RefreshToken) (sub : Id)
    (s : Sessions) :
    ∃ csrf s', answerRefresh csrfToken (a, r, sub) s = (.ok (a, r, csrf), s') ∧
      s'.accessTokens = s.accessTokens ∧ s'.refreshTokens = s.refreshTokens := by
  unfold answerRefresh
  by_cases hsub : sub = ""
  · exact ⟨"", s, if_pos hsub, rfl, rfl⟩
  · exact ⟨csrfToken, _, if_neg hsub, rfl, rfl⟩

theorem refresh_some (t : RefreshToken) (csrfToken : String) :
    refresh (some t) csrfToken = rotateRefreshToken t >>= answerRefresh csrfToken :=
  rfl

/-- A refresh that returns has rotated the token of its cookie. -/
theorem refresh_eq_ok {cookie : Option RefreshToken} {csrfToken csrf : String}
    {a : AccessToken} {r : RefreshToken} {s s' : Sessions}
    (h : refresh cookie csrfToken s = (.ok (a, r, csrf), s')) :
    ∃ t sub s₁, cookie = some t ∧ rotateRefreshToken t s = (.ok (a, r, sub), s₁) ∧
      answerRefresh csrfToken (a, r, sub) s₁ = (.ok (a, r, csrf), s') := by
  cases cookie with
  | none => cases h
  | some t =>
      rcases Fallible.bind_eq_ok.mp h with ⟨⟨a', r', sub⟩, s₁, hrotate, hanswer⟩
      rcases answerRefresh_run csrfToken a' r' sub s₁ with ⟨csrf', s'', hrun, _, _⟩
      have hsame := hrun.symm.trans hanswer
      cases hsame
      exact ⟨t, sub, s₁, rfl, hrotate, hanswer⟩

/-- A logout that returns has passed the guard and ended the session of its bearer. -/
theorem logout_eq_ok {req : JwtRequest} {bearer : AccessToken} {store : Option TenantContext}
    {s s' : Sessions} {u : Unit} :
    logout req bearer store s = (.ok u, s') ↔
      ∃ user store' s₁, authenticate req bearer store s = (.ok (user, store'), s₁) ∧
        s' = endSession req user.id s₁ := by
  unfold logout
  rw [Fallible.bind_eq_ok]
  constructor
  · rintro ⟨⟨user, store'⟩, s₁, hauth, hend⟩
    cases hend
    exact ⟨user, store', s₁, hauth, rfl⟩
  · rintro ⟨user, store', s₁, hauth, rfl⟩
    exact ⟨(user, store'), s₁, hauth, rfl⟩

end Auth
end Eleva
