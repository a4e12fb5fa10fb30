import Eleva.Auth.AuthController

/-!
# Auth - What the session functions leave alone

The functions of the session store read and write keys of a few kinds each.  Those of any other
kind keep their entries, and nothing new is on its way to them.

Main results:

- Theorem {lit}`leavesKeys_authenticate`: the guard of authenticated routes.
- Theorem {lit}`refresh_cases`: a refresh fails, or signs a pair and stores a CSRF token.
- Theorem {lit}`logout_cases`: a logout fails, or ends the session of its bearer.
-/

namespace Eleva
namespace Auth

open Foundation Database Cache

/-- The clock and the entries of the keys are the same, and nothing new is on its way to them. -/
structure LeavesKeys (P : SessionKey → Prop) (s s' : Sessions) : Prop where
  now : s'.cache.redis.now = s.cache.redis.now
  entry : ∀ key, P key → s'.cache.redis.entry key = s.cache.redis.entry key
  pending : ∀ w ∈ s'.cache.pending, P w.key → w ∈ s.cache.pending

namespace LeavesKeys

variable {P : SessionKey → Prop}

theorem refl (s : Sessions) : LeavesKeys P s s :=
  ⟨rfl, fun _ _ => rfl, fun _ hw _ => hw⟩

theorem trans {s s₁ s₂ : Sessions} (h₁ : LeavesKeys P s s₁) (h₂ : LeavesKeys P s₁ s₂) :
    LeavesKeys P s s₂ where
  now := h₂.now.trans h₁.now
  entry key hkey := (h₂.entry key hkey).trans (h₁.entry key hkey)
  pending w hw hkey := h₁.pending w (h₂.pending w hw hkey) hkey

theorem seconds {s s' : Sessions} (h : LeavesKeys P s s') : s'.seconds = s.seconds := by
  unfold Sessions.seconds
  rw [h.now]

end LeavesKeys

section Frames

variable {P : SessionKey → Prop}

/-- A read of another key. -/
theorem leavesKeys_get {key : SessionKey} (hkey : ¬P key) (s : Sessions)
    (fallback : SessionValue) (ttlSeconds : ℕ) :
    LeavesKeys P s (s.get key fallback ttlSeconds).2 where
  now := by rw [get_redis]
  entry _ _ := by rw [get_redis]
  pending w hw hP := by
    rcases CacheState.get_pending hw with hold | ⟨_, rfl⟩
    · exact hold
    · exact absurd hP hkey

/-- A write to another key. -/
theorem leavesKeys_set {key : SessionKey} (hkey : ¬P key) (s : Sessions) (value : SessionValue)
    (ttlSeconds : ℕ) : LeavesKeys P s (s.set key value ttlSeconds) where
  now := set_now ..
  entry key' hP :=
    CacheState.setEx_entry_of_ne _ (fun heq : key' = key => hkey (heq ▸ hP)) _ _
  pending w hw _ := by
    have hsame : (s.set key value ttlSeconds).cache.pending = s.cache.pending :=
      CacheState.setEx_pending ..
    rw [hsame] at hw
    exact hw

theorem leavesKeys_signed (s : Sessions) (payload : TokenPayload) :
    LeavesKeys P s (s.signed payload) :=
  ⟨rfl, fun _ _ => rfl, fun _ hw _ => hw⟩

variable (haccess : ∀ text, ¬P (.blacklistAccess text)) (hrevoked : ∀ id, ¬P (.revokedUser id))

include haccess in
theorem leavesKeys_rejectBlacklisted (req : JwtRequest) (s : Sessions) :
    LeavesKeys P s (rejectBlacklisted req s).2 := by
  have hread : LeavesKeys P s (isTokenBlacklisted req.headerText s).2 :=
    leavesKeys_get (haccess _) s _ _
  unfold rejectBlacklisted
  rcases hlisted : isTokenBlacklisted req.headerText s with ⟨listed, s₁⟩
  rw [hlisted] at hread
  cases listed <;> exact hread

include hrevoked in
theorem leavesKeys_cutoff (userId : Id) (s : Sessions) :
    LeavesKeys P s (getUserRevocationCutoff userId s).2 := by
  unfold getUserRevocationCutoff
  by_cases hempty : userId = ""
  · rw [if_pos hempty]
    exact .refl s
  · rw [if_neg hempty]
    have hread := leavesKeys_get (hrevoked userId) s (.number 0) USER_REVOCATION_TTL_SECONDS
    rcases hvalue : s.get (.revokedUser userId) (.number 0) USER_REVOCATION_TTL_SECONDS with
      ⟨value, s₁⟩
    rw [hvalue] at hread
    cases value <;> exact hread

include hrevoked in
theorem leavesKeys_rejectRevoked (token : AccessToken) (s : Sessions) :
    LeavesKeys P s (rejectRevoked token s).2 := by
  have hread := leavesKeys_cutoff hrevoked token.payload.sub s
  unfold rejectRevoked
  rcases hcutoff : getUserRevocationCutoff token.payload.sub s with ⟨revokedAt, s₁⟩
  rw [hcutoff] at hread
  simp only
  split <;> exact hread

include haccess hrevoked

/-- The guard of authenticated routes reads two kinds of keys. -/
theorem leavesKeys_authenticate (req : JwtRequest) (token : AccessToken)
    (store : Option TenantContext) (s : Sessions) :
    LeavesKeys P s (authenticate req token store s).2 := by
  unfold authenticate
  by_cases hverifies : s.verifiesAccess token = true
  · rw [if_pos hverifies]
    have hvalidate : Fallible.Keeps (LeavesKeys P s) (validate req token store) :=
      .bind (fun s₁ h => h.trans (leavesKeys_rejectBlacklisted haccess req s₁)) fun _ =>
        .bind (fun s₁ h => h.trans (leavesKeys_rejectRevoked hrevoked token s₁)) fun _ =>
          .bind (.reads _) fun _ => .pure _
    exact hvalidate s (.refl s)
  · rw [if_neg hverifies]
    exact .refl s

end Frames

/-! ## The routes -/

section Routes

variable {P : SessionKey → Prop}

/-- The answer of a refresh that has rotated the token of its cookie. -/
structure Refreshes (P : SessionKey → Prop) (t : RefreshToken) (csrfToken : String)
    (s : Sessions) (a : AccessToken) (r : RefreshToken) (csrf : String) (s' : Sessions) :
    Prop where
  access : a = s.accessTokenFor t.rotatedPayload
  refresh : r = s.refreshTokenFor t.rotatedPayload
  verified : s.verifiesRefresh t = true
  unmarked : (markerRead t s).1 = false
  state : ∃ s₁, LeavesKeys P s s₁ ∧
    (t.sub = "" ∧ csrf = "" ∧ s' = s₁ ∨
      t.sub ≠ "" ∧ csrf = csrfToken ∧ s' = csrfGenerateToken t.sub csrfToken s₁)

/-- A refresh fails, or it rotates the token of its cookie; it touches the markers of rotated
tokens and the CSRF token of the subject. -/
theorem refresh_cases (hmarkers : ∀ t, ¬P (.blacklistToken t)) (cookie : Option RefreshToken)
    (csrfToken : String) (s : Sessions) :
    (∃ e s', refresh cookie csrfToken s = (.error e, s') ∧ LeavesKeys P s s') ∨
      ∃ t a r csrf s', cookie = some t ∧ refresh cookie csrfToken s = (.ok (a, r, csrf), s') ∧
        Refreshes P t csrfToken s a r csrf s' := by
  cases cookie with
  | none => exact Or.inl ⟨_, s, rfl, .refl s⟩
  | some t =>
      have hread : LeavesKeys P s (markerRead t s).2 := leavesKeys_get (hmarkers t) s _ _
      have hrotate := rotateRefreshToken_run t s
      rw [refresh_some]
      cases hverifies : s.verifiesRefresh t with
      | false =>
          rw [if_pos hverifies] at hrotate
          exact Or.inl ⟨_, s, Fallible.bind_of_error hrotate, .refl s⟩
      | true =>
          rw [if_neg (by rw [hverifies]; exact Bool.noConfusion)] at hrotate
          cases hmarked : (markerRead t s).1 with
          | true =>
              rw [if_pos hmarked] at hrotate
              exact Or.inl ⟨_, _, Fallible.bind_of_error hrotate, hread⟩
          | false =>
              rw [if_neg (by rw [hmarked]; exact Bool.noConfusion)] at hrotate
              have hkeeps : LeavesKeys P s
                  ((markRotated t (markerRead t s).2).signed t.rotatedPayload) :=
                (hread.trans (leavesKeys_set (hmarkers t) _ _ _)).trans (leavesKeys_signed _ _)
              rw [Fallible.bind_of_ok hrotate]
              unfold answerRefresh
              by_cases hsub : t.sub = ""
              · exact Or.inr ⟨t, _, _, _, _, rfl, if_pos hsub,
                  rfl, rfl, hverifies, hmarked, _, hkeeps, Or.inl ⟨hsub, rfl, rfl⟩⟩
              · exact Or.inr ⟨t, _, _, _, _, rfl, if_neg hsub,
                  rfl, rfl, hverifies, hmarked, _, hkeeps, Or.inr ⟨hsub, rfl, rfl⟩⟩

/-- A logout fails, or it has passed the guard and ends the session of its bearer. -/
theorem logout_cases (haccess : ∀ text, ¬P (.blacklistAccess text))
    (hrevoked : ∀ id, ¬P (.revokedUser id)) (req : JwtRequest) (bearer : AccessToken)
    (store : Option TenantContext) (s : Sessions) :
    (∃ e s', logout req bearer store s = (.error e, s') ∧ LeavesKeys P s s') ∨
      ∃ s₁, logout req bearer store s = (.ok (), endSession req bearer.payload.sub s₁) ∧
        (authenticate req bearer store s).1.isOk = true ∧ LeavesKeys P s s₁ := by
  have hkeeps := leavesKeys_authenticate haccess hrevoked req bearer store s
  unfold logout
  rcases hauth : authenticate req bearer store s with ⟨e | ⟨user, store'⟩, s₁⟩
  · rw [hauth] at hkeeps
    exact Or.inl ⟨e, s₁, Fallible.bind_of_error hauth, hkeeps⟩
  · rw [hauth] at hkeeps
    have huser := (validate_eq_ok (authenticate_eq_ok.mp hauth).2).1
    refine Or.inr ⟨s₁, ?_, rfl, hkeeps⟩
    rw [Fallible.bind_of_ok hauth, huser]
    rfl

end Routes

end Auth
end Eleva
