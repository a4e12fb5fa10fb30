import Eleva.Auth.AuthController
import Eleva.Foundation.Hex
import Eleva.Foundation.Machine

/-!
# Auth - CSRF tokens

The service keeps one token for each user and compares a submitted text with it after both are
read as hexadecimal.  That reading looks at the low byte of every UTF-16 code unit, takes upper-case
digits and stops at the first pair that is not hexadecimal, so one token is accepted in many
spellings.

Main results:

- Theorem {lit}`refines_step`: the service keeps, for each user, the token that was generated last
  and not deleted, until it expires.
- Theorem {lit}`validateToken_iff`: the texts that are accepted for a token.
- Theorem {lit}`validates_exactly_iff`: after any calls, a text is judged rightly exactly when it
  is no other spelling of the token.
-/

namespace Eleva
namespace Auth

open Foundation Database Cache

/-! ## The service -/

/-- The text of 32 random bytes. -/
def csrfTokenText (randomBytes : Vector UInt8 32) : String :=
  String.ofList (Hex.encode randomBytes.toList)

/-- Compare two texts as hexadecimal. -/
def sameToken (storedToken token : String) : Bool :=
  let storedBuf := Hex.decode (utf16 storedToken)
  let submittedBuf := Hex.decode (utf16 token)
  if storedBuf.length ≠ submittedBuf.length then false else storedBuf == submittedBuf

def csrfValidateToken (userId : Id) (token : String) (s : Sessions) : Bool × Sessions :=
  if token = "" then (false, s)
  else
    match s.get (.csrfToken userId) .null defaultTtl with
    | (.text storedToken, s) => (storedToken != "" && sameToken storedToken token, s)
    | (_, s) => (false, s)

/-! ## Runs -/

inductive CsrfAction
  | generate (userId : Id) (randomBytes : Vector UInt8 32)
  | delete (userId : Id)
  | validate (userId : Id) (token : String)
  | wait (elapsed : ℕ)

inductive CsrfAnswer
  | token (text : String)
  | valid (answer : Bool)
  | done
deriving DecidableEq, Repr

/-- The calls of the service, one at a time: what a miss sends back lands before the next. -/
def csrfService : Machine CsrfAction Sessions CsrfAnswer where
  step
    | .generate userId randomBytes, s =>
        (.token (csrfTokenText randomBytes),
          csrfGenerateToken userId (csrfTokenText randomBytes) s)
    | .delete userId, s => (.done, csrfDeleteToken userId s)
    | .validate userId token, s =>
        (.valid (csrfValidateToken userId token s).1, (csrfValidateToken userId token s).2.land 0)
    | .wait elapsed, s => (.done, s.advance elapsed)

/-! ## The tokens of the users -/

/-- What a call does to the tokens of the users: a generated one replaces what was there. -/
def CsrfAction.issue : CsrfAction → ExpiringStore Id String → ExpiringStore Id String
  | generate userId randomBytes, tokens =>
      tokens.write userId (csrfTokenText randomBytes) (1000 * CSRF_TOKEN_TTL)
  | delete userId, tokens => tokens.delete userId
  | validate _ _, tokens => tokens
  | wait elapsed, tokens => tokens.advance elapsed

/-- The tokens after a list of calls. -/
def issued (actions : List CsrfAction) (tokens : ExpiringStore Id String) :
    ExpiringStore Id String :=
  actions.foldl (fun tokens action => action.issue tokens) tokens

/-- The cache holds the token of a user; where there is none it may hold a fallback. -/
def HoldsToken (s : Sessions) (tokens : ExpiringStore Id String) (userId : Id) : Prop :=
  s.cache.redis.entry (.csrfToken userId) =
      (tokens.entry userId).map (fun e => (SessionValue.text e.1, e.2)) ∨
    tokens.read userId = none ∧
      ∀ value deadline,
        s.cache.redis.entry (.csrfToken userId) = some (value, deadline) → value = .null

/-- The cache holds the tokens of the users, at the same time. -/
structure Refines (s : Sessions) (tokens : ExpiringStore Id String) : Prop where
  now : s.cache.redis.now = tokens.now
  pending : s.cache.pending = []
  holds : ∀ userId, HoldsToken s tokens userId
  generated : ∀ userId text deadline, tokens.entry userId = some (text, deadline) →
    ∃ randomBytes, text = csrfTokenText randomBytes

/-- What is kept for a user depends on the entries of the user. -/
theorem HoldsToken.congr {s s' : Sessions} {tokens tokens' : ExpiringStore Id String}
    {userId : Id}
    (hcache : s'.cache.redis.entry (.csrfToken userId) = s.cache.redis.entry (.csrfToken userId))
    (hentry : tokens'.entry userId = tokens.entry userId) (hnow : tokens'.now = tokens.now)
    (h : HoldsToken s tokens userId) : HoldsToken s' tokens' userId := by
  have hread : tokens'.read userId = tokens.read userId := by
    unfold ExpiringStore.read
    rw [hentry, hnow]
  unfold HoldsToken
  rw [hcache, hentry, hread]
  exact h

section Refinement

variable {s : Sessions} {tokens : ExpiringStore Id String} {userId : Id} {token : String}

/-- What a read of the cache finds: the token, or nothing but a fallback. -/
theorem Refines.read (h : Refines s tokens) (userId : Id) :
    s.cache.redis.read (.csrfToken userId) = (tokens.read userId).map SessionValue.text ∨
      tokens.read userId = none ∧ s.cache.redis.read (.csrfToken userId) = some .null := by
  rcases h.holds userId with hentry | ⟨hnone, hnull⟩
  · left
    unfold ExpiringStore.read
    rw [hentry, h.now]
    cases tokens.entry userId with
    | none => rfl
    | some e =>
        simp only [Option.map_some, Option.bind_some]
        split <;> rfl
  · cases hread : s.cache.redis.read (.csrfToken userId) with
    | none => exact Or.inl (by rw [hnone]; rfl)
    | some value =>
        rcases ExpiringStore.read_eq_some.mp hread with ⟨deadline, hentry, -⟩
        rw [hnull value deadline hentry]
        exact Or.inr ⟨hnone, rfl⟩

theorem Refines.get (h : Refines s tokens) (userId : Id) :
    (s.get (.csrfToken userId) .null defaultTtl).1 =
      ((tokens.read userId).map SessionValue.text).getD .null := by
  change (s.cache.get _ _ _).1 = _
  rw [CacheState.get_value]
  rcases h.read userId with hread | ⟨hnone, hread⟩
  · rw [hread]
  · rw [hread, hnone]
    rfl

theorem Refines.token_generated (h : Refines s tokens) (hread : tokens.read userId = some token) :
    ∃ randomBytes, token = csrfTokenText randomBytes := by
  rcases ExpiringStore.read_eq_some.mp hread with ⟨deadline, hentry, -⟩
  exact h.generated userId token deadline hentry

theorem csrfToken_ne {userId other : Id} (h : other ≠ userId) :
    SessionKey.csrfToken other ≠ .csrfToken userId :=
  fun heq => h (SessionKey.csrfToken.inj heq)

theorem refines_generate (h : Refines s tokens) (randomBytes : Vector UInt8 32) :
    Refines (csrfGenerateToken userId (csrfTokenText randomBytes) s)
      (tokens.write userId (csrfTokenText randomBytes) (1000 * CSRF_TOKEN_TTL)) where
  now := (CacheState.setEx_now ..).trans h.now
  pending := (CacheState.setEx_pending ..).trans h.pending
  holds other := by
    by_cases hother : other = userId
    · subst hother
      left
      change (s.cache.setEx _ _ _).redis.entry _ = _
      rw [CacheState.setEx_entry_self _ _ _ (by decide), ExpiringStore.write_entry_self, h.now]
      rfl
    · exact (h.holds other).congr (CacheState.setEx_entry_of_ne _ (csrfToken_ne hother) _ _)
        (ExpiringStore.write_entry_of_ne _ hother _ _) rfl
  generated other text deadline hentry := by
    by_cases hother : other = userId
    · subst hother
      rw [ExpiringStore.write_entry_self] at hentry
      cases hentry
      exact ⟨randomBytes, rfl⟩
    · rw [ExpiringStore.write_entry_of_ne _ hother] at hentry
      exact h.generated other text deadline hentry

theorem refines_delete (h : Refines s tokens) (userId : Id) :
    Refines (csrfDeleteToken userId s) (tokens.delete userId) where
  now := h.now
  pending := h.pending
  holds other := by
    by_cases hother : other = userId
    · subst hother
      left
      rw [ExpiringStore.delete_entry_self]
      exact ExpiringStore.delete_entry_self _ _
    · exact (h.holds other).congr (CacheState.del_entry_of_ne _ (csrfToken_ne hother))
        (ExpiringStore.delete_entry_of_ne _ hother) rfl
  generated other text deadline hentry := by
    by_cases hother : other = userId
    · subst hother
      rw [ExpiringStore.delete_entry_self] at hentry
      cases hentry
    · rw [ExpiringStore.delete_entry_of_ne _ hother] at hentry
      exact h.generated other text deadline hentry

theorem refines_advance (h : Refines s tokens) (elapsed : ℕ) :
    Refines (s.advance elapsed) (tokens.advance elapsed) where
  now := congrArg (· + elapsed) h.now
  pending := h.pending
  holds userId :=
    (h.holds userId).imp_right fun hnull =>
      ⟨ExpiringStore.read_advance_of_none hnull.1 elapsed, hnull.2⟩
  generated := h.generated

/-- The fallback that a miss sends back takes a place where there was no token. -/
theorem refines_get (h : Refines s tokens) (userId : Id) :
    Refines ((s.get (.csrfToken userId) .null defaultTtl).2.land 0) tokens := by
  cases hread : s.cache.redis.read (.csrfToken userId) with
  | some value =>
      have hstate : (s.cache.get (.csrfToken userId) .null defaultTtl).2 = s.cache := by
        unfold CacheState.get
        rw [hread]
      have hsame : (s.get (.csrfToken userId) .null defaultTtl).2.land 0 = s := by
        unfold Sessions.get Sessions.land
        rw [hstate, CacheState.land_of_pending_nil h.pending]
      rw [hsame]
      exact h
  | none =>
      have hstate : (s.cache.get (.csrfToken userId) .null defaultTtl).2 =
          { s.cache with
            pending :=
              [{ key := .csrfToken userId, value := .null, ttlSeconds := defaultTtl }] } := by
        unfold CacheState.get CacheState.writeBack
        rw [hread, h.pending]
        rfl
      have hnone : tokens.read userId = none := by
        rcases h.read userId with hsome | ⟨hnone, -⟩
        · rw [hread] at hsome
          exact Option.map_eq_none_iff.mp hsome.symm
        · exact hnone
      have hlanded : (s.get (.csrfToken userId) .null defaultTtl).2.land 0 =
          { s with
            cache :=
              { s.cache.setEx (.csrfToken userId) .null defaultTtl with pending := [] } } := by
        unfold Sessions.get Sessions.land
        rw [hstate]
        rfl
      rw [hlanded]
      refine ⟨(CacheState.setEx_now ..).trans h.now, rfl, fun other => ?_, h.generated⟩
      by_cases hother : other = userId
      · subst hother
        refine Or.inr ⟨hnone, fun value deadline hentry => ?_⟩
        change (s.cache.setEx _ _ _).redis.entry _ = _ at hentry
        rw [CacheState.setEx_entry_self _ _ _ (by decide)] at hentry
        cases hentry
        rfl
      · exact (h.holds other).congr (CacheState.setEx_entry_of_ne _ (csrfToken_ne hother) _ _)
          rfl rfl

/-- One call of the service is one step of the tokens. -/
theorem refines_step (h : Refines s tokens) (action : CsrfAction) :
    Refines (csrfService.step action s).2 (action.issue tokens) := by
  cases action with
  | generate userId randomBytes => exact refines_generate h randomBytes
  | delete userId => exact refines_delete h userId
  | wait elapsed => exact refines_advance h elapsed
  | validate userId token =>
      change Refines ((csrfValidateToken userId token s).2.land 0) tokens
      unfold csrfValidateToken
      split
      · have hland : s.land 0 = s := by
          unfold Sessions.land
          rw [CacheState.land_of_pending_nil h.pending]
        rw [hland]
        exact h
      · split <;> rename_i hget
        · exact (congrArg (·.2) hget : (s.get _ _ _).2 = _) ▸ refines_get h userId
        · exact (congrArg (·.2) hget : (s.get _ _ _).2 = _) ▸ refines_get h userId

theorem refines_run (h : Refines s tokens) (actions : List CsrfAction) :
    Refines (csrfService.exec actions s) (issued actions tokens) := by
  induction actions generalizing s tokens with
  | nil => exact h
  | cons action actions ih => exact ih (refines_step h action)

/-! ## What is accepted -/

/-- Another spelling of a token: code units whose low bytes are its digits in either case, and then
anything that does not go on with two digits. -/
def Respells (text token : String) : Prop :=
  text ≠ token ∧
    ∃ spelled rest, utf16 text = spelled ++ rest ∧ spelled.map Hex.letter = token.toList ∧
      Hex.startsWithPair rest = false

theorem csrfTokenText_toList (randomBytes : Vector UInt8 32) :
    (csrfTokenText randomBytes).toList = Hex.encode randomBytes.toList :=
  String.toList_ofList

theorem decode_csrfTokenText (randomBytes : Vector UInt8 32) :
    Hex.decode (utf16 (csrfTokenText randomBytes)) = randomBytes.toList :=
  Hex.decode_encode _

theorem sameToken_eq (storedToken token : String) :
    sameToken storedToken token = true ↔
      Hex.decode (utf16 token) = Hex.decode (utf16 storedToken) := by
  unfold sameToken
  by_cases hlength :
      (Hex.decode (utf16 storedToken)).length = (Hex.decode (utf16 token)).length
  · simp only [hlength, ne_eq, not_true_eq_false, if_false, beq_iff_eq]
    exact eq_comm
  · have hne : Hex.decode (utf16 token) ≠ Hex.decode (utf16 storedToken) :=
      fun heq => hlength (congrArg List.length heq).symm
    simp [hlength, hne]

/-- The texts that agree with a token: itself and its other spellings. -/
theorem sameToken_iff (randomBytes : Vector UInt8 32) (text : String) :
    sameToken (csrfTokenText randomBytes) text = true ↔
      text = csrfTokenText randomBytes ∨ Respells text (csrfTokenText randomBytes) := by
  rw [sameToken_eq, decode_csrfTokenText]
  constructor
  · intro hdecode
    by_cases hsame : text = csrfTokenText randomBytes
    · exact Or.inl hsame
    · have hspelled := (Hex.decode_eq_iff _ _).mp hdecode
      rw [← csrfTokenText_toList] at hspelled
      exact Or.inr ⟨hsame, hspelled⟩
  · rintro (rfl | ⟨-, hspelled⟩)
    · exact decode_csrfTokenText randomBytes
    · rw [csrfTokenText_toList] at hspelled
      exact (Hex.decode_eq_iff _ _).mpr hspelled

/-- A token has digits. -/
theorem csrfTokenText_ne_nil (randomBytes : Vector UInt8 32) :
    (csrfTokenText randomBytes).toList ≠ [] := by
  intro hnil
  have hbytes : randomBytes.toList = [] := by
    rw [← decode_csrfTokenText randomBytes]
    unfold utf16
    rw [hnil]
    rfl
  have hlength := congrArg List.length hbytes
  rw [Vector.length_toList] at hlength
  cases hlength

theorem csrfTokenText_ne_empty (randomBytes : Vector UInt8 32) :
    csrfTokenText randomBytes ≠ "" :=
  fun hempty => csrfTokenText_ne_nil randomBytes (congrArg String.toList hempty)

/-- The empty text spells no token. -/
theorem not_respells_empty (randomBytes : Vector UInt8 32) :
    ¬Respells "" (csrfTokenText randomBytes) := by
  rintro ⟨-, spelled, rest, htext, hspelled, -⟩
  have hnil : spelled = [] := (List.append_eq_nil_iff.mp htext.symm).1
  rw [hnil] at hspelled
  exact csrfTokenText_ne_nil randomBytes hspelled.symm

/-- The texts that are accepted for a user: the token and its other spellings. -/
theorem validateToken_iff (h : Refines s tokens) :
    (csrfValidateToken userId token s).1 = true ↔
      ∃ stored, tokens.read userId = some stored ∧ (token = stored ∨ Respells token stored) := by
  have hget : s.get (.csrfToken userId) .null defaultTtl =
      (((tokens.read userId).map SessionValue.text).getD .null,
        (s.get (.csrfToken userId) .null defaultTtl).2) :=
    Prod.ext (h.get userId) rfl
  unfold csrfValidateToken
  rw [hget]
  cases hread : tokens.read userId with
  | none => split <;> simp
  | some stored =>
      rcases h.token_generated hread with ⟨randomBytes, rfl⟩
      simp only [Option.some.injEq, exists_eq_left', Option.map_some, Option.getD_some]
      split <;> rename_i hempty
      · subst hempty
        refine iff_of_false Bool.false_ne_true ?_
        rintro (hsame | hrespells)
        · exact csrfTokenText_ne_empty randomBytes hsame.symm
        · exact not_respells_empty randomBytes hrespells
      · rw [Bool.and_eq_true, bne_iff_ne, sameToken_iff]
        exact and_iff_right (csrfTokenText_ne_empty randomBytes)

/-- No tokens yet. -/
def noTokens (s : Sessions) : ExpiringStore Id String where
  now := s.cache.redis.now
  entry _ := none

theorem refines_noTokens (hpending : s.cache.pending = [])
    (hfresh : ∀ userId, s.cache.redis.entry (.csrfToken userId) = none) :
    Refines s (noTokens s) where
  now := rfl
  pending := hpending
  holds userId := Or.inl (hfresh userId)
  generated userId text deadline hentry := by cases hentry

/-- After any calls, a text is judged rightly exactly when it is no other spelling of the token of
the user. -/
theorem validates_exactly_iff (hpending : s.cache.pending = [])
    (hfresh : ∀ userId, s.cache.redis.entry (.csrfToken userId) = none)
    (actions : List CsrfAction) (userId : Id) (token : String) :
    ((csrfValidateToken userId token (csrfService.exec actions s)).1 = true ↔
        (issued actions (noTokens s)).read userId = some token) ↔
      ¬∃ stored,
        (issued actions (noTokens s)).read userId = some stored ∧ Respells token stored := by
  rw [validateToken_iff (refines_run (refines_noTokens hpending hfresh) actions)]
  constructor
  · rintro hexact ⟨stored, hread, hrespells⟩
    have hsame := hexact.mp ⟨stored, hread, Or.inr hrespells⟩
    rw [hread] at hsame
    exact hrespells.1 (Option.some.inj hsame).symm
  · intro hnone
    constructor
    · rintro ⟨stored, hread, rfl | hrespells⟩
      · exact hread
      · exact absurd ⟨stored, hread, hrespells⟩ hnone
    · exact fun hread => ⟨token, hread, Or.inl rfl⟩

end Refinement

/-! ## One token in two spellings -/

def emptySessions : Sessions where
  cache := { redis := { now := 0, entry := fun _ => none } }

/-- The bytes of a token. -/
def drawnBytes : Vector UInt8 32 :=
  Vector.replicate 32 0xab

def drawnToken : String :=
  "abababababababababababababababababababababababababababababababab"

def drawnTokenInCapitals : String :=
  "ABABABABABABABABABABABABABABABABABABABABABABABABABABABABABABABAB"

/-- The token is accepted, and it is the token of the user. -/
theorem drawnToken_accepted :
    (csrfValidateToken "user-1" drawnToken
        (csrfService.exec [.generate "user-1" drawnBytes] emptySessions)).1 = true ↔
      (issued [.generate "user-1" drawnBytes] (noTokens emptySessions)).read "user-1" =
        some drawnToken := by
  refine (validates_exactly_iff rfl (fun _ => rfl) _ _ _).mpr ?_
  rintro ⟨stored, hread, hrespells⟩
  have hstored : (issued [.generate "user-1" drawnBytes] (noTokens emptySessions)).read "user-1" =
      some drawnToken := by decide +kernel
  rw [hread] at hstored
  exact hrespells.1 (Option.some.inj hstored).symm

/-- In capitals the token is accepted as well. -/
theorem capitals_accepted :
    (csrfValidateToken "user-1" drawnTokenInCapitals
        (csrfService.exec [.generate "user-1" drawnBytes] emptySessions)).1 = true ∧
      (issued [.generate "user-1" drawnBytes] (noTokens emptySessions)).read "user-1" ≠
        some drawnTokenInCapitals := by
  decide +kernel

/-- Of other characters the low byte counts. -/
example : sameToken drawnToken (String.ofList (List.replicate 32 ['š', 'Ţ']).flatten) = true := by
  decide +kernel

end Auth
end Eleva
