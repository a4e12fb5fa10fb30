import Eleva.Database.Repository
import Eleva.Foundation.Json
import Eleva.Foundation.Retries

/-!
# Webhook - Deliveries

An event of a tenant is delivered to the webhooks that are active and subscribed to it, one after
the other.  Each delivery is attempted up to five times, with a signature over the body under the
secret of the webhook.  The requests are made by {lit}`fetch`, which follows redirects.

Main results:

- Definitions {lit}`fetch`, {lit}`sendWithRetry` and {lit}`dispatchEvent`.
- Theorem {lit}`sendWithRetry_delivered`: what one delivery does, whatever the endpoint answers but
  a redirect.
- Theorem {lit}`dispatchEvent_delivers_iff`: an event reaches every subscribed webhook of the tenant
  and no other exactly when no endpoint redirects a request.
-/

namespace Eleva

open Foundation Database

namespace WebhookService

structure Webhook where
  id : Id
  tenantId : Id
  targetUrl : String
  secretKey : String
  events : List String
  isActive : Bool
deriving DecidableEq, Repr

instance : TenantRow Webhook where
  id := Webhook.id
  tenantId wh := some wh.tenantId
  setTenantId t wh := { wh with tenantId := t.getD wh.tenantId }
  tenantId_setTenantId _ _ := rfl
  id_setTenantId _ _ := rfl

def webhookDelegate : Delegate Webhook where
  model := "Webhook"
  isRow _ := true
  blank id :=
    { id := id, tenantId := "", targetUrl := "", secretKey := "", events := [], isActive := true }

def webhookRepository : BaseTenantRepository Webhook where
  delegate := webhookDelegate

/-! ## Requests -/

structure HttpRequest where
  method : String
  url : String
  headers : List (String × String)
  body : Option String
deriving DecidableEq, Repr

/-- What the {lit}`Location` header of an answer names, read at the URL of the request: an address
of the web, or nothing that could be fetched. -/
inductive Location
  | url (target : String)
  | unfetchable
deriving DecidableEq, Repr

/-- What an endpoint does with a request. -/
inductive Reaction
  | responds (status : ℕ) (location : Option Location) (afterMs : ℕ)
  | fails (message : String) (afterMs : ℕ)
  | hangs
deriving DecidableEq, Repr

/-- What {lit}`fetch` makes of a request. -/
inductive Answer
  | response (status : ℕ)
  | error (message : String)
deriving DecidableEq, Repr

/-- What comes back for one request: an answer, or a redirect that is followed. -/
inductive Reply
  | answered (answer : Answer)
  | redirected (status : ℕ) (target : String)
deriving DecidableEq, Repr

/-- What happens on the way to the endpoints. -/
inductive WireEvent
  | exchange (request : HttpRequest) (reply : Reply)
  | pause (ms : ℕ)
deriving DecidableEq, Repr

/-- The endpoints, which may go by all that happened, and the keyed hash. -/
structure Surroundings where
  reaction : List WireEvent → HttpRequest → Reaction
  hmacSha256Hex : String → String → String

/-! ## Fetching -/

/-- Milliseconds until a request is aborted. -/
def requestTimeout : ℕ := 5000

def abortError : Answer :=
  .error "This operation was aborted"

/-- The error of {lit}`fetch` for a redirect that it cannot follow. -/
def redirectError : Answer :=
  .error "fetch failed"

/-- The redirects that {lit}`fetch` follows for one request. -/
def maxRedirects : ℕ := 20

def redirectStatuses : List ℕ :=
  [301, 302, 303, 307, 308]

/-- The headers that go with a body. -/
def requestBodyHeaders : List String :=
  ["Content-Encoding", "Content-Language", "Content-Location", "Content-Type", "Content-Length"]

/-- The request that follows a redirect.  Some statuses make a plain {lit}`GET` of it; its other
headers stay, at any address. -/
def redirectedRequest (request : HttpRequest) (status : ℕ) (target : String) : HttpRequest :=
  if (status == 301 || status == 302) && request.method == "POST" ||
      status == 303 && !(["GET", "HEAD"].contains request.method) then
    { method := "GET"
      url := target
      headers := request.headers.filter fun header => !requestBodyHeaders.contains header.1
      body := none }
  else { request with url := target }

/-- What comes back, with milliseconds gone by since the first request: all of it is aborted after
five seconds. -/
def replyTo (elapsed : ℕ) : Reaction → Reply
  | .responds status location afterMs =>
      if elapsed + afterMs < requestTimeout then
        if redirectStatuses.contains status then
          match location with
          | none => .answered (.response status)
          | some .unfetchable => .answered redirectError
          | some (.url target) => .redirected status target
        else .answered (.response status)
      else .answered abortError
  | .fails message afterMs =>
      if elapsed + afterMs < requestTimeout then .answered (.error message)
      else .answered abortError
  | .hangs => .answered abortError

/-- Milliseconds that a reaction takes. -/
def Reaction.takes : Reaction → ℕ
  | responds _ _ afterMs => afterMs
  | fails _ afterMs => afterMs
  | hangs => requestTimeout

/-- Make a request and follow its redirects, as long as there are any left to follow. -/
def follow (env : Surroundings) (left elapsed : ℕ) (request : HttpRequest)
    (wire : List WireEvent) : Answer × List WireEvent :=
  let reaction := env.reaction wire request
  match replyTo elapsed reaction, left with
  | .answered answer, _ => (answer, wire ++ [.exchange request (.answered answer)])
  | .redirected _ _, 0 => (redirectError, wire ++ [.exchange request (.answered redirectError)])
  | .redirected status target, left + 1 =>
      follow env left (elapsed + reaction.takes) (redirectedRequest request status target)
        (wire ++ [.exchange request (.redirected status target)])

/-- {lit}`fetch(url, init)`. -/
def fetch (env : Surroundings) (request : HttpRequest) (wire : List WireEvent) :
    Answer × List WireEvent :=
  follow env maxRedirects 0 request wire

/-! ## Attempts -/

/-- {lit}`response.ok`. -/
def responseOk (status : ℕ) : Bool :=
  200 ≤ status && status ≤ 299

/-- Success, an error of the request, or another attempt. -/
def judge : Answer → Verdict
  | .response status =>
      if responseOk status || (200 ≤ status && status < 300) then .settled true
      else if 400 ≤ status && status < 500 && status != 429 then .settled false
      else .again
  | .error _ => .again

section Sending

variable (env : Surroundings)

def generateSignature (payload : Json) (secret : String) : String :=
  env.hmacSha256Hex secret payload.stringify

/-- The attempts to send one request. -/
def attempts (request : HttpRequest) : Retrying Answer (List WireEvent) where
  attempt wire := fetch env request wire
  judge := judge
  pause attempts wire := wire ++ [.pause (min (1000 * 2 ^ (attempts - 1)) 5000)]

/-- The request that delivers an event. -/
def deliveryRequest (targetUrl eventName : String) (payload : Json) (signature : String) :
    HttpRequest where
  method := "POST"
  url := targetUrl
  headers :=
    [("Content-Type", "application/json"), ("X-Zayjar-Signature", signature),
      ("X-Zayjar-Event", eventName)]
  body := some payload.stringify

def sendWithRetry (targetUrl eventName : String) (payload : Json) (signature : String)
    (maxAttempts : ℕ) (wire : List WireEvent) : RetryResult × List WireEvent :=
  (attempts env (deliveryRequest targetUrl eventName payload signature)).run maxAttempts wire

structure DispatchResult where
  webhookId : Id
  targetUrl : String
  success : Bool
  attempts : ℕ
deriving DecidableEq, Repr

/-- The deliveries, one after the other. -/
def deliverAll (eventName : String) (payload : Json) :
    List Webhook → List WireEvent → List DispatchResult × List WireEvent
  | [], wire => ([], wire)
  | wh :: relevant, wire =>
      let signature := generateSignature env payload wh.secretKey
      let sent := sendWithRetry env wh.targetUrl eventName payload signature 5 wire
      let rest := deliverAll eventName payload relevant sent.2
      ({ webhookId := wh.id
         targetUrl := wh.targetUrl
         success := sent.1.success
         attempts := sent.1.attempts } :: rest.1, rest.2)

/-- Deliver an event of a tenant. -/
def dispatchEvent (dbEnv : Env) (tenantId : Id) (eventName : String) (payload : Json)
    (db : Store Webhook) (wire : List WireEvent) :
    Except ClientError (List DispatchResult) × List WireEvent :=
  match (webhookRepository.findMany { dbEnv with context := { tenantId := some tenantId } }
    {} {} db).1 with
  | .error e => (.error e, wire)
  | .ok webhooks =>
      let relevant := webhooks.filter fun wh => wh.isActive && wh.events.contains eventName
      if relevant.length = 0 then (.ok [], wire)
      else
        let delivered := deliverAll env eventName payload relevant wire
        (.ok delivered.1, delivered.2)

end Sending

/-! ## Answers -/

/-- The answer is a 2xx status. -/
def Answer.Is2xx (answer : Answer) : Prop :=
  ∃ status, answer = .response status ∧ 200 ≤ status ∧ status < 300

/-- The answer is a 4xx status other than 429. -/
def Answer.IsRefusal (answer : Answer) : Prop :=
  ∃ status, answer = .response status ∧ 400 ≤ status ∧ status < 500 ∧ status ≠ 429

theorem judge_response (status : ℕ) :
    judge (.response status) =
      if 200 ≤ status ∧ status < 300 then .settled true
      else if 400 ≤ status ∧ status < 500 ∧ status ≠ 429 then .settled false
      else .again := by
  have hok : (responseOk status || (200 ≤ status && status < 300)) = true ↔
      200 ≤ status ∧ status < 300 := by
    simp only [responseOk, Bool.or_eq_true, Bool.and_eq_true, decide_eq_true_eq]
    omega
  have hrefused : (400 ≤ status && status < 500 && status != 429) = true ↔
      400 ≤ status ∧ status < 500 ∧ status ≠ 429 := by
    simp only [Bool.and_eq_true, decide_eq_true_eq, bne_iff_ne]
    omega
  exact if_congr hok rfl (if_congr hrefused rfl rfl)

theorem judge_eq_success_iff (answer : Answer) :
    judge answer = .settled true ↔ answer.Is2xx := by
  cases answer with
  | error message => exact ⟨nofun, fun ⟨_, h, _⟩ => Answer.noConfusion h⟩
  | response status =>
      rw [judge_response]
      unfold Answer.Is2xx
      by_cases hok : 200 ≤ status ∧ status < 300
      · rw [if_pos hok]
        exact iff_of_true rfl ⟨status, rfl, hok⟩
      · rw [if_neg hok]
        refine iff_of_false ?_ ?_
        · split <;> simp
        · rintro ⟨_, h, hbounds⟩
          cases h
          exact hok hbounds

theorem judge_ne_again_iff (answer : Answer) :
    judge answer ≠ .again ↔ answer.Is2xx ∨ answer.IsRefusal := by
  cases answer with
  | error message =>
      refine iff_of_false (fun h => h rfl) ?_
      rintro (⟨_, h, -⟩ | ⟨_, h, -⟩) <;> cases h
  | response status =>
      have his2xx : (Answer.response status).Is2xx ↔ 200 ≤ status ∧ status < 300 := by
        simp [Answer.Is2xx]
      have hrefusal : (Answer.response status).IsRefusal ↔
          400 ≤ status ∧ status < 500 ∧ status ≠ 429 := by
        simp [Answer.IsRefusal]
      rw [judge_response, his2xx, hrefusal]
      by_cases hok : 200 ≤ status ∧ status < 300
      · rw [if_pos hok]
        exact iff_of_true Verdict.noConfusion (Or.inl hok)
      · rw [if_neg hok]
        by_cases hrefused : 400 ≤ status ∧ status < 500 ∧ status ≠ 429
        · rw [if_pos hrefused]
          exact iff_of_true Verdict.noConfusion (Or.inr hrefused)
        · rw [if_neg hrefused]
          exact iff_of_false (fun h => h rfl) (by tauto)

/-! ## One request -/

/-- The requests with what came back. -/
def exchanges (wire : List WireEvent) : List (HttpRequest × Reply) :=
  wire.filterMap fun
    | .exchange request reply => some (request, reply)
    | .pause _ => none

def Reply.isRedirect : Reply → Bool
  | answered _ => false
  | redirected _ _ => true

/-- No request is redirected. -/
def Direct (sent : List (HttpRequest × Reply)) : Prop :=
  ∀ p ∈ sent, p.2.isRedirect = false

/-- The way does not end in a redirect, so that the next request is no redirected one. -/
def Fresh (wire : List WireEvent) : Prop :=
  ∀ event ∈ wire.getLast?, ∀ request reply, event = .exchange request reply →
    reply.isRedirect = false

/-- What came back for a request that is no redirected one is from the endpoint, unless it came too
late. -/
def Genuine (env : Surroundings) (wire : List WireEvent) : Prop :=
  ∀ before request reply after, wire = before ++ .exchange request reply :: after →
    Fresh before → reply = replyTo 0 (env.reaction before request)

/-- The exchanges for one request: redirects, and then the answer. -/
structure Chain (request : HttpRequest) (answer : Answer) (sent : List (HttpRequest × Reply)) :
    Prop where
  ends : ∃ redirects last, sent = redirects ++ [(last, .answered answer)] ∧
    ∀ p ∈ redirects, p.2.isRedirect = true
  single : Direct sent → sent = [(request, .answered answer)]

section Requests

variable {env : Surroundings}

theorem exchanges_append (xs ys : List WireEvent) :
    exchanges (xs ++ ys) = exchanges xs ++ exchanges ys :=
  List.filterMap_append

theorem Direct.append {xs ys : List (HttpRequest × Reply)} (h : Direct (xs ++ ys)) :
    Direct xs ∧ Direct ys :=
  ⟨fun p hp => h p (List.mem_append_left _ hp), fun p hp => h p (List.mem_append_right _ hp)⟩

theorem Chain.answered (request : HttpRequest) (answer : Answer) :
    Chain request answer [(request, .answered answer)] where
  ends := ⟨[], request, rfl, fun _ hp => absurd hp List.not_mem_nil⟩
  single _ := rfl

theorem Chain.redirected {request next : HttpRequest} {answer : Answer}
    {sent : List (HttpRequest × Reply)} (h : Chain next answer sent) (status : ℕ)
    (target : String) : Chain request answer ((request, .redirected status target) :: sent) where
  ends := by
    rcases h.ends with ⟨redirects, last, rfl, hredirects⟩
    refine ⟨(request, .redirected status target) :: redirects, last, rfl, fun p hp => ?_⟩
    rcases List.mem_cons.mp hp with rfl | hp
    · rfl
    · exact hredirects p hp
  single hdirect := absurd (hdirect _ List.mem_cons_self) Bool.noConfusion

/-- A chain of one exchange is no redirect. -/
theorem Chain.direct_iff {request : HttpRequest} {answer : Answer}
    {sent : List (HttpRequest × Reply)} (h : Chain request answer sent) :
    1 ≤ sent.length ∧ (Direct sent ↔ sent.length = 1) := by
  rcases h.ends with ⟨redirects, last, rfl, hredirects⟩
  rw [List.length_append, List.length_singleton]
  refine ⟨Nat.le_add_left 1 _, fun hdirect => ?_, fun hlength => ?_⟩
  · cases redirects with
    | nil => rfl
    | cons p redirects =>
        have hfalse := hdirect p List.mem_cons_self
        rw [hredirects p List.mem_cons_self] at hfalse
        cases hfalse
  · cases redirects with
    | nil =>
        intro p hp
        rw [List.mem_singleton.mp hp]
        rfl
    | cons p redirects => simp at hlength

section Following

variable {elapsed : ℕ} {request : HttpRequest} {wire : List WireEvent} (left : ℕ)

theorem follow_answered {answer : Answer}
    (h : replyTo elapsed (env.reaction wire request) = .answered answer) :
    follow env left elapsed request wire =
      (answer, wire ++ [.exchange request (.answered answer)]) := by
  rw [follow.eq_def]
  simp only [h]

theorem follow_exhausted {status : ℕ} {target : String}
    (h : replyTo elapsed (env.reaction wire request) = .redirected status target) :
    follow env 0 elapsed request wire =
      (redirectError, wire ++ [.exchange request (.answered redirectError)]) := by
  rw [follow.eq_def]
  simp only [h]

theorem follow_redirected {status : ℕ} {target : String}
    (h : replyTo elapsed (env.reaction wire request) = .redirected status target) :
    follow env (left + 1) elapsed request wire =
      follow env left (elapsed + (env.reaction wire request).takes)
        (redirectedRequest request status target)
        (wire ++ [.exchange request (.redirected status target)]) := by
  rw [follow.eq_def]
  simp only [h]

end Following

/-- What the exchanges for one request are. -/
theorem follow_chain (left elapsed : ℕ) (request : HttpRequest) (wire : List WireEvent) :
    ∃ sent, exchanges (follow env left elapsed request wire).2 = exchanges wire ++ sent ∧
      Chain request (follow env left elapsed request wire).1 sent := by
  induction left generalizing elapsed request wire with
  | zero =>
      cases hreply : replyTo elapsed (env.reaction wire request) with
      | answered answer =>
          rw [follow_answered 0 hreply]
          exact ⟨_, exchanges_append _ _, .answered request answer⟩
      | redirected status target =>
          rw [follow_exhausted hreply]
          exact ⟨_, exchanges_append _ _, .answered request redirectError⟩
  | succ left ih =>
      cases hreply : replyTo elapsed (env.reaction wire request) with
      | answered answer =>
          rw [follow_answered (left + 1) hreply]
          exact ⟨_, exchanges_append _ _, .answered request answer⟩
      | redirected status target =>
          rw [follow_redirected left hreply]
          rcases ih (elapsed + (env.reaction wire request).takes)
            (redirectedRequest request status target)
            (wire ++ [.exchange request (.redirected status target)]) with ⟨sent, hsent, hchain⟩
          refine ⟨(request, .redirected status target) :: sent, ?_, hchain.redirected _ _⟩
          rw [hsent, exchanges_append, List.append_assoc]
          rfl

/-- Another event keeps the way genuine when it is a pause, a redirected request or what the
endpoint makes of a new one. -/
theorem Genuine.snoc {wire : List WireEvent} (h : Genuine env wire) {event : WireEvent}
    (hevent : ∀ request reply, event = .exchange request reply → Fresh wire →
      reply = replyTo 0 (env.reaction wire request)) :
    Genuine env (wire ++ [event]) := by
  intro before request reply after hsplit
  rcases List.eq_nil_or_concat after with rfl | ⟨rest, last, rfl⟩
  · rcases List.append_inj' hsplit rfl with ⟨rfl, hlast⟩
    exact hevent request reply (List.singleton_inj.mp hlast)
  · rw [List.concat_eq_append, ← List.cons_append, ← List.append_assoc] at hsplit
    exact h before request reply rest (List.append_inj' hsplit rfl).1

theorem fresh_nil : Fresh [] :=
  fun _ h => by cases h

theorem fresh_snoc {wire : List WireEvent} {event : WireEvent}
    (h : ∀ request reply, event = .exchange request reply → reply.isRedirect = false) :
    Fresh (wire ++ [event]) := by
  intro last hlast
  rw [List.getLast?_append, List.getLast?_singleton, Option.some_or] at hlast
  cases hlast
  exact h

theorem not_fresh_redirected (wire : List WireEvent) (request : HttpRequest) (status : ℕ)
    (target : String) :
    ¬ Fresh (wire ++ [.exchange request (.redirected status target)]) := by
  intro h
  have hlast := h (.exchange request (.redirected status target)) (by
    rw [List.getLast?_append, List.getLast?_singleton, Option.some_or]
    rfl) request (.redirected status target) rfl
  cases hlast

/-- A way on which what came back is from the endpoints, and which is ready for a new request. -/
def Ready (env : Surroundings) (wire : List WireEvent) : Prop :=
  Genuine env wire ∧ Fresh wire

/-- An answered request leaves the way ready. -/
theorem ready_answered {wire : List WireEvent} (h : Genuine env wire) {request : HttpRequest}
    {answer : Answer} (hanswer : Fresh wire →
      .answered answer = replyTo 0 (env.reaction wire request)) :
    Ready env (wire ++ [.exchange request (.answered answer)]) := by
  constructor
  · refine h.snoc fun request' reply hevent hfresh => ?_
    cases hevent
    exact hanswer hfresh
  · refine fresh_snoc fun _ _ hevent => ?_
    cases hevent
    rfl

theorem follow_ready (left elapsed : ℕ) (request : HttpRequest) {wire : List WireEvent}
    (h : Genuine env wire) (hstart : Fresh wire → elapsed = 0 ∧ 0 < left) :
    Ready env (follow env left elapsed request wire).2 := by
  induction left generalizing elapsed request wire with
  | zero =>
      have hstale : ¬ Fresh wire := fun hfresh => Nat.lt_irrefl 0 (hstart hfresh).2
      cases hreply : replyTo elapsed (env.reaction wire request) with
      | answered answer =>
          rw [follow_answered 0 hreply]
          exact ready_answered h fun hfresh => absurd hfresh hstale
      | redirected status target =>
          rw [follow_exhausted hreply]
          exact ready_answered h fun hfresh => absurd hfresh hstale
  | succ left ih =>
      cases hreply : replyTo elapsed (env.reaction wire request) with
      | answered answer =>
          rw [follow_answered (left + 1) hreply]
          refine ready_answered h fun hfresh => ?_
          rw [← (hstart hfresh).1, hreply]
      | redirected status target =>
          rw [follow_redirected left hreply]
          refine ih _ _ (h.snoc fun request' reply hevent hfresh => ?_) fun hfresh =>
            absurd hfresh (not_fresh_redirected wire request status target)
          cases hevent
          rw [← (hstart hfresh).1, hreply]

theorem attempts_run_ready (request : HttpRequest) (maxAttempts : ℕ) {wire : List WireEvent}
    (h : Ready env wire) : Ready env ((attempts env request).run maxAttempts wire).2 := by
  refine (attempts env request).run_invariant ?_ ?_ maxAttempts h
  · intro wire hwire
    exact follow_ready maxRedirects 0 request hwire.1 fun _ => ⟨rfl, by decide⟩
  · intro n wire hwire
    exact ⟨hwire.1.snoc fun _ _ hevent => WireEvent.noConfusion hevent,
      fresh_snoc fun _ _ hevent => WireEvent.noConfusion hevent⟩

/-- The attempts put their requests, the redirects of these and the answers on the way. -/
theorem attempts_run_exchanges (request : HttpRequest) (maxAttempts : ℕ)
    (wire : List WireEvent) :
    ∃ chains, exchanges ((attempts env request).run maxAttempts wire).2 =
        exchanges wire ++ chains.flatten ∧
      List.Forall₂ (Chain request) ((attempts env request).answers maxAttempts wire) chains := by
  refine (attempts env request).run_log (fun wire => ?_) (fun n wire => ?_) maxAttempts wire
  · exact follow_chain maxRedirects 0 request wire
  · exact (exchanges_append wire _).trans (List.append_nil _)

/-- There are at least as many exchanges as answers, and as many only without redirects. -/
theorem chains_direct_iff {request : HttpRequest} {answers : List Answer}
    {chains : List (List (HttpRequest × Reply))}
    (h : List.Forall₂ (Chain request) answers chains) :
    answers.length ≤ chains.flatten.length ∧
      (Direct chains.flatten ↔ chains.flatten.length = answers.length) := by
  induction h with
  | nil => exact ⟨Nat.le_refl 0, fun _ => rfl, fun _ _ hp => absurd hp List.not_mem_nil⟩
  | @cons answer chain answers chains hchain _ ih =>
      have hfirst := hchain.direct_iff
      rw [List.flatten_cons, List.length_append, List.length_cons]
      refine ⟨by omega, fun hdirect => ?_, fun hlength => ?_⟩
      · rw [hfirst.2.mp hdirect.append.1, ih.2.mp hdirect.append.2, Nat.add_comm]
      · intro p hp
        rcases List.mem_append.mp hp with hp | hp
        · exact hfirst.2.mpr (by omega) p hp
        · exact ih.2.mpr (by omega) p hp

/-- Without redirects every attempt is one request. -/
theorem chains_eq_map {request : HttpRequest} {answers : List Answer}
    {chains : List (List (HttpRequest × Reply))}
    (h : List.Forall₂ (Chain request) answers chains) (hdirect : Direct chains.flatten) :
    chains.flatten = answers.map fun answer => (request, .answered answer) := by
  induction h with
  | nil => rfl
  | cons hchain _ ih =>
      rw [List.flatten_cons] at hdirect ⊢
      rw [hchain.single hdirect.append.1, ih hdirect.append.2, List.map_cons,
        List.singleton_append]

end Requests

/-! ## One delivery -/

/-- A reply with a 2xx status. -/
def Reply.Is2xx (reply : Reply) : Prop :=
  ∃ answer, reply = .answered answer ∧ answer.Is2xx

/-- A reply with a 4xx status other than 429. -/
def Reply.IsRefusal (reply : Reply) : Prop :=
  ∃ answer, reply = .answered answer ∧ answer.IsRefusal

/-- What the delivery of an event to a webhook sends, and what is reported of it. -/
structure Delivered (env : Surroundings) (eventName : String) (payload : Json) (wh : Webhook)
    (sent : List (HttpRequest × Reply)) (result : DispatchResult) : Prop where
  contacted : sent ≠ []
  atMost : sent.length ≤ 5
  addressed : ∀ p ∈ sent, p.1.method = "POST" ∧ p.1.url = wh.targetUrl ∧
    p.1.headers.lookup "X-Zayjar-Event" = some eventName ∧ p.1.body = some payload.stringify
  signed : ∀ p ∈ sent, p.1.headers.lookup "X-Zayjar-Signature" =
    some (env.hmacSha256Hex wh.secretKey (p.1.body.getD ""))
  goesOn : ∀ p ∈ sent.dropLast, ¬ (p.2.Is2xx ∨ p.2.IsRefusal)
  stops : sent.length = 5 ∨ ∀ p ∈ sent.getLast?, p.2.Is2xx ∨ p.2.IsRefusal
  success : result.success = true ↔ ∃ p ∈ sent.getLast?, p.2.Is2xx
  attempts : result.attempts = sent.length
  reported : result.webhookId = wh.id ∧ result.targetUrl = wh.targetUrl

section Deliveries

theorem answered_is2xx (answer : Answer) : (Reply.answered answer).Is2xx ↔ answer.Is2xx := by
  simp [Reply.Is2xx]

theorem answered_isRefusal (answer : Answer) :
    (Reply.answered answer).IsRefusal ↔ answer.IsRefusal := by
  simp [Reply.IsRefusal]

variable (env : Surroundings)

/-- What one delivery does, whatever the endpoint answers but a redirect, which shows in the number
of its exchanges. -/
theorem sendWithRetry_delivered (eventName : String) (payload : Json) (wh : Webhook)
    (wire : List WireEvent) :
    let run := sendWithRetry env wh.targetUrl eventName payload
      (generateSignature env payload wh.secretKey) 5 wire
    ∃ sent, exchanges run.2 = exchanges wire ++ sent ∧ run.1.attempts ≤ sent.length ∧
      (sent.length = run.1.attempts → Direct sent) ∧
      (Direct sent → Delivered env eventName payload wh sent
        ⟨wh.id, wh.targetUrl, run.1.success, run.1.attempts⟩) := by
  intro run
  let request := deliveryRequest wh.targetUrl eventName payload
    (generateSignature env payload wh.secretKey)
  let answers := (attempts env request).answers 5 wire
  have htried := (attempts env request).answers_tried 5 wire
  have hresult := (attempts env request).run_result 5 wire
  rcases @attempts_run_exchanges env request 5 wire with ⟨chains, hexchanges, hchains⟩
  have hcount := chains_direct_iff hchains
  have hattempts : run.1.attempts = answers.length := hresult.1
  refine ⟨chains.flatten, hexchanges, hattempts ▸ hcount.1, fun hlength => ?_, fun hdirect => ?_⟩
  · exact hcount.2.mpr (hlength.trans hattempts)
  rw [chains_eq_map hchains hdirect]
  have hsent : ∀ p ∈ answers.map fun answer => (request, Reply.answered answer),
      p.1 = request := by
    intro p hp
    rcases List.mem_map.mp hp with ⟨answer, -, rfl⟩
    rfl
  exact
    { contacted := fun hnil => htried.some (by decide) (List.map_eq_nil_iff.mp hnil)
      atMost := (List.length_map _).trans_le htried.atMost
      addressed := fun p hp => by
        rw [hsent p hp]
        exact ⟨rfl, rfl, rfl, rfl⟩
      signed := fun p hp => by
        rw [hsent p hp]
        rfl
      goesOn := fun p hp => by
        rw [← List.map_dropLast] at hp
        rcases List.mem_map.mp hp with ⟨answer, hanswer, rfl⟩
        rw [answered_is2xx, answered_isRefusal, ← judge_ne_again_iff]
        exact not_not_intro (htried.goesOn answer hanswer)
      stops := by
        rw [List.length_map]
        refine htried.stops.imp id fun hlast p hp => ?_
        rw [List.getLast?_map] at hp
        rcases Option.map_eq_some_iff.mp hp with ⟨answer, hanswer, rfl⟩
        rw [answered_is2xx, answered_isRefusal]
        exact (judge_ne_again_iff answer).mp (hlast answer hanswer)
      success := by
        rw [List.getLast?_map]
        refine hresult.2.trans ?_
        constructor
        · rintro ⟨answer, hanswer, hjudge⟩
          exact ⟨_, Option.mem_map_of_mem _ hanswer,
            (answered_is2xx answer).mpr ((judge_eq_success_iff answer).mp hjudge)⟩
        · rintro ⟨p, hp, h2xx⟩
          rcases Option.map_eq_some_iff.mp hp with ⟨answer, hanswer, rfl⟩
          exact ⟨answer, hanswer,
            (judge_eq_success_iff answer).mpr ((answered_is2xx answer).mp h2xx)⟩
      attempts := hattempts.trans (List.length_map _).symm
      reported := ⟨rfl, rfl⟩ }

/-- The deliveries to some webhooks, one after the other. -/
inductive Deliveries (env : Surroundings) (eventName : String) (payload : Json) :
    List Webhook → List (HttpRequest × Reply) → List DispatchResult → Prop
  | nil : Deliveries env eventName payload [] [] []
  | cons {wh : Webhook} {sent : List (HttpRequest × Reply)} {result : DispatchResult}
      {relevant : List Webhook} {more : List (HttpRequest × Reply)}
      {results : List DispatchResult} (first : Delivered env eventName payload wh sent result)
      (rest : Deliveries env eventName payload relevant more results) :
      Deliveries env eventName payload (wh :: relevant) (sent ++ more) (result :: results)

/-- The attempts that some results report. -/
def totalAttempts (results : List DispatchResult) : ℕ :=
  (results.map (·.attempts)).sum

/-- Deliveries report every request that was sent. -/
theorem Deliveries.length_eq {env : Surroundings} {eventName : String} {payload : Json}
    {relevant : List Webhook} {sent : List (HttpRequest × Reply)} {results : List DispatchResult}
    (h : Deliveries env eventName payload relevant sent results) :
    sent.length = totalAttempts results := by
  induction h with
  | nil => rfl
  | cons first _ ih =>
      rw [List.length_append, ih, ← first.attempts]
      rfl

/-- Every webhook of the list gets its delivery, whatever the endpoints answer but a redirect, which
shows in the number of exchanges. -/
theorem deliverAll_deliveries (eventName : String) (payload : Json) (relevant : List Webhook)
    (wire : List WireEvent) :
    let run := deliverAll env eventName payload relevant wire
    ∃ sent, exchanges run.2 = exchanges wire ++ sent ∧ totalAttempts run.1 ≤ sent.length ∧
      (sent.length = totalAttempts run.1 → Direct sent) ∧
      (Direct sent → Deliveries env eventName payload relevant sent run.1) := by
  induction relevant generalizing wire with
  | nil =>
      exact ⟨[], (List.append_nil _).symm, Nat.le_refl 0, fun _ _ hp => absurd hp List.not_mem_nil,
        fun _ => .nil⟩
  | cons wh relevant ih =>
      intro run
      rcases sendWithRetry_delivered env eventName payload wh wire with
        ⟨sent, hsent, hleast, hdirect, hfirst⟩
      rcases ih (sendWithRetry env wh.targetUrl eventName payload
        (generateSignature env payload wh.secretKey) 5 wire).2 with
        ⟨more, hmore, hleasts, hdirects, hrest⟩
      have htotal : totalAttempts run.1 = (sendWithRetry env wh.targetUrl eventName payload
          (generateSignature env payload wh.secretKey) 5 wire).1.attempts +
            totalAttempts (deliverAll env eventName payload relevant (sendWithRetry env
              wh.targetUrl eventName payload (generateSignature env payload wh.secretKey) 5
                wire).2).1 :=
        rfl
      refine ⟨sent ++ more, ?_, ?_, ?_, ?_⟩
      · rw [← List.append_assoc, ← hsent]
        exact hmore
      · rw [htotal, List.length_append]
        exact Nat.add_le_add hleast hleasts
      · intro hlength p hp
        rw [htotal, List.length_append] at hlength
        rcases List.mem_append.mp hp with hp | hp
        · exact hdirect (by omega) p hp
        · exact hdirects (by omega) p hp
      · exact fun h => .cons (hfirst h.append.1) (hrest h.append.2)

theorem deliverAll_ready (eventName : String) (payload : Json) (relevant : List Webhook)
    {wire : List WireEvent} (h : Ready env wire) :
    Ready env (deliverAll env eventName payload relevant wire).2 := by
  induction relevant generalizing wire with
  | nil => exact h
  | cons wh relevant ih => exact ih (attempts_run_ready _ 5 h)

end Deliveries

/-! ## Events -/

/-- The webhooks that an event of a tenant is for, among the rows that the repository lists. -/
def subscribers (T : Id) (eventName : String) (db : Store Webhook) : List Webhook :=
  ((own T db.rows).take BaseTenantRepository.DEFAULT_MAX_ROWS).filter fun wh =>
    wh.isActive && wh.events.contains eventName

theorem findMany_webhooks (dbEnv : Env) {T : Id} (hT : T ≠ "") (db : Store Webhook) :
    (webhookRepository.findMany { dbEnv with context := { tenantId := some T } } {} {} db).1 =
      .ok ((own T db.rows).take BaseTenantRepository.DEFAULT_MAX_ROWS) := by
  have hctx : ({ dbEnv with context := { tenantId := some T } } : Env).context.Sees (some T) :=
    ⟨rfl, hT⟩
  have hown : ∀ wh : Webhook,
      (webhookRepository.scopedWhere {} (some T)).admits webhookRepository.delegate wh =
        owned T wh := by
    intro wh
    have htruthy : truthy (some T) = true := by simpa [truthy] using hT
    unfold BaseTenantRepository.scopedWhere
    rw [htruthy]
    simp [webhookRepository, webhookDelegate, Where.admits, Where.withTenant, ColumnKey.admits,
      owned]
  rw [BaseTenantRepository.findMany_apply hctx (by decide)
    (BaseTenantRepository.known_of_absent _ (fun hsoft => absurd hsoft (by decide)) rfl) db]
  dsimp only
  rw [own, List.filter_congr fun wh _ => hown wh]

def orderPayload : Json :=
  .object [("id", .string "order-1")]

/-- A webhook of the tenant. -/
def orderWebhook (id targetUrl secretKey : String) : Webhook where
  id := id
  tenantId := "t1"
  targetUrl := targetUrl
  secretKey := secretKey
  events := ["order.created"]
  isActive := true

def webhookRows : Store Webhook where
  rows :=
    [orderWebhook "w1" "https://down.example" "first-secret",
      orderWebhook "w2" "https://up.example" "second-secret"]

/-- The signatures of the order. -/
def orderHmac (secret body : String) : String :=
  if body ≠ orderPayload.stringify then ""
  else if secret = "first-secret" then
    "42c22914dc94be02ca2c8c980c5597da708cc74d5065f1cc492a2284f67bc37d"
  else if secret = "second-secret" then
    "4d8ed7fa36f709ddcb1e512bb1e3384c3a59a3803fdfc3f7b4b8e6e3fd50c2fd"
  else ""

/-- The first endpoint fails, the second one accepts every request. -/
def oneEndpointDown : Surroundings where
  reaction _ request :=
    if request.url = "https://down.example" then .responds 503 none 20
    else .responds 200 none 20
  hmacSha256Hex := orderHmac

/-- The first endpoint has moved, the second one accepts every request. -/
def oneEndpointMoved : Surroundings where
  reaction _ request :=
    if request.url = "https://down.example" then
      .responds 302 (some (.url "https://moved.example")) 20
    else .responds 200 none 20
  hmacSha256Hex := orderHmac

def noContext : Env where
  context := {}
  uuid _ := ""
  now := 0

/-- What is sent to both webhooks. -/
def orderDispatch (env : Surroundings) :
    Except ClientError (List DispatchResult) × List WireEvent :=
  dispatchEvent env noContext "t1" "order.created" orderPayload webhookRows []

example : (orderDispatch oneEndpointDown).1.toOption.map (List.map fun r =>
    (r.success, r.attempts)) = some [(false, 5), (true, 1)] := by
  decide +kernel

end WebhookService
end Eleva
