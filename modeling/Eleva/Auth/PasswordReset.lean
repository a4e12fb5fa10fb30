import Eleva.Auth.RefreshChain

/-!
# Auth - Password resets in turn

Requests for a reset token and uses of tokens, one at a time, beside an account of which tokens
were issued for whom.  The service keeps the record of a token as a text, and reads a text back
that names no user.

Main results:

- Definition {lit}`resetMachine`: the requests, with the account of issued tokens.
- Theorem {lit}`resets_accepted_iff`: the requests answer as the account has it exactly where
  no issued token is used.
- Theorem {lit}`reset_refused`: a token is refused that was issued a minute before.
-/

namespace Eleva
namespace Auth

open Foundation Database

/-! ## The account of tokens -/

/-- A token that was issued for an existing user and has not been used. -/
structure IssuedReset where
  token : String
  userId : Id
  issuedAt : ℕ
deriving DecidableEq, Repr

/-- Lifetime of a reset token, in milliseconds. -/
def resetLifetime : ℕ := 900000

structure ResetState where
  app : AppState
  issued : List IssuedReset := []

namespace ResetState

/-- The clock. -/
def now (s : ResetState) : ℕ :=
  s.app.sessions.cache.redis.now

/-- The user whose password a token may change. -/
def holder (s : ResetState) (token : String) : Option Id :=
  (s.issued.find? fun i => i.token == token && decide (s.now < i.issuedAt + resetLifetime)).map
    (·.userId)

/-- Account for a token that was issued for an email.  The email of a deleted user counts as that
of an existing one: the lookup of a reset does not look at {lit}`deletedAt`. -/
def issue (s : ResetState) (email token : String) : List IssuedReset :=
  match s.app.world.db.users.find? fun u => u.email == email with
  | some user => { token, userId := user.id, issuedAt := s.now } :: s.issued
  | none => s.issued

/-- Account for the use of a token. -/
def spend (s : ResetState) (token : String) : Except AppError Unit → List IssuedReset
  | .ok _ => s.issued.filter fun i => i.token != token
  | .error _ => s.issued

end ResetState

/-! ## The requests -/

/-- What happens, one thing at a time. -/
inductive ResetAction where
  | wait (elapsed : ℕ)
  | land (slot : ℕ)
  | initiate (env : Env) (email token : String)
  | reset (env : Env) (token newPassword salt : String)

/-- The requests; the answer is that of the request. -/
def resetMachine (rt : Runtime) : Machine ResetAction ResetState (Except AppError Unit) where
  step a s :=
    match a with
    | .wait elapsed =>
        (.ok (), { s with app := { s.app with sessions := s.app.sessions.advance elapsed } })
    | .land slot =>
        (.ok (), { s with app := { s.app with sessions := s.app.sessions.land slot } })
    | .initiate env email token =>
        ((initiatePasswordReset rt env email token s.app).1,
          { app := (initiatePasswordReset rt env email token s.app).2
            issued := s.issue (rt.normalizedEmail email) token })
    | .reset env token newPassword salt =>
        ((resetPassword rt env token newPassword salt s.app).1,
          { app := (resetPassword rt env token newPassword salt s.app).2
            issued := s.spend token (resetPassword rt env token newPassword salt s.app).1 })

/-- The users behind a change of one password. -/
def changePassword (users : List User) (userId : Id) (passwordHash : String) : List User :=
  users.map fun u => if u.id = userId then { u with passwordHash := passwordHash } else u

/-- The request answers as the account has it: an issued token that is used in time changes the
password of its user and no other, and any other token changes nothing and is rejected. -/
def AnswersAsIssued (rt : Runtime) (a : ResetAction) (s : ResetState) : Prop :=
  match a with
  | .reset _ token newPassword salt =>
      match s.holder token with
      | some userId => newPassword ≠ "" →
          ((resetMachine rt).step a s).1 = .ok () ∧
            ((resetMachine rt).step a s).2.app.world.db.users =
              changePassword s.app.world.db.users userId (rt.hashPassword newPassword salt)
      | none =>
          ((resetMachine rt).step a s).1 ≠ .ok () ∧
            ((resetMachine rt).step a s).2.app.world.db.users = s.app.world.db.users
  | _ => ((resetMachine rt).step a s).2.app.world.db.users = s.app.world.db.users

/-- The request does not use an issued token in time. -/
def UsesNone (a : ResetAction) (s : ResetState) : Prop :=
  match a with
  | .reset _ token newPassword _ => newPassword ≠ "" → s.holder token = none
  | _ => True

/-- A request for a token leaves the database. -/
theorem initiatePasswordReset_world (rt : Runtime) (env : Env) (email token : String)
    (s : AppState) : (initiatePasswordReset rt env email token s).2.world = s.world := by
  unfold initiatePasswordReset
  split <;> rfl

/-- A use of a token is rejected and leaves the database. -/
theorem resetPassword_world (rt : Runtime) (env : Env) (token newPassword salt : String)
    (s : AppState) :
    (resetPassword rt env token newPassword salt s).1 ≠ .ok () ∧
      (resetPassword rt env token newPassword salt s).2.world = s.world := by
  rcases resetPassword_rejects rt env token newPassword salt s with ⟨e, hrun | hrun⟩
  · rw [hrun]
    exact ⟨(fun h => by cases h), rfl⟩
  · rw [hrun]
    exact ⟨(fun h => by cases h), rfl⟩

/-- A request answers as the account has it exactly where it uses no issued token. -/
theorem answers_iff (rt : Runtime) (a : ResetAction) (s : ResetState) :
    AnswersAsIssued rt a s ↔ UsesNone a s := by
  cases a with
  | wait elapsed => exact iff_of_true rfl trivial
  | land slot => exact iff_of_true rfl trivial
  | initiate env email token =>
      refine iff_of_true ?_ trivial
      simp only [AnswersAsIssued, resetMachine, initiatePasswordReset_world]
  | reset env token newPassword salt =>
      rcases resetPassword_world rt env token newPassword salt s.app with ⟨hrejected, hworld⟩
      simp only [AnswersAsIssued, UsesNone]
      cases hholder : s.holder token with
      | none =>
          refine iff_of_true ⟨hrejected, ?_⟩ fun _ => rfl
          simp only [resetMachine, hworld]
      | some userId =>
          constructor
          · intro haccepted hne
            exact absurd (haccepted hne).1 hrejected
          · intro hnone hne
            cases hnone hne

/-- The requests of a sequence all answer as the account has it exactly where none of them uses
an issued token in time. -/
theorem resets_accepted_iff (rt : Runtime) (as : List ResetAction) (s : ResetState) :
    (resetMachine rt).EachStep (AnswersAsIssued rt) as s ↔
      (resetMachine rt).EachStep UsesNone as s :=
  (resetMachine rt).eachStep_congr (answers_iff rt) as s

/-- The cook asks for a reset, and uses the token a minute later. -/
theorem reset_refused :
    ¬∀ (as : List ResetAction) (s : ResetState),
      (resetMachine plainRuntime).EachStep (AnswersAsIssued plainRuntime) as s := by
  intro hall
  have hsteps := hall
    [.initiate { cookEnv with context := { isPlatformOwner := true } } "carlo@example.com" "k7",
      .wait 60000, .reset cookEnv.toEnv "k7" "rosmarino" "salt2"] { app := cookState }
  have hused := hsteps.2.2.1
  rw [answers_iff] at hused
  have hnone := hused (by decide)
  revert hnone
  decide +kernel

end Auth
end Eleva
