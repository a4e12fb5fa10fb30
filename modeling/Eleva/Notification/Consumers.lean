import Mathlib.Data.List.GetD
import Eleva.Foundation.Text
import Eleva.Notification.DispatchService

/-!
# Notification - The consumers of a dispatch job

A job is delivered by one of three consumers: the array of the dispatch service, the
BullMQ worker the service starts when Redis is configured, and the worker of the
standalone process.  Each runs {lit}`processChannel` once for an attempt.  The method of
the dispatch service turns every exception of a channel service into a result, the
function of the standalone process lets it pass.

BullMQ completes a job whose processor resolves, whatever it resolves with, and retries
one whose processor throws until the configured attempts are used.  The array looks at
the result instead.

Main results:

- Theorem {lit}`processInMemoryQueue_of_dealtWith`: what a run of the event loop does to a
  job that it deals with is what the loop over one job computes from its deliveries.
- Theorem {lit}`consumers_agree_iff`: the three consumers make the same number of attempts
  and come to the same end exactly when the first attempt delivers.
- Theorem {lit}`refused_email_diverges`: an e-mail that the provider refuses is attempted
  three times by the array and once by either worker.
-/

namespace Eleva
namespace Notification

open Foundation

/-! ## Payloads and channel services -/

/-- A value of a payload that is there.  A number is given by its text and by whether it is
falsy, a list or a record by its text. -/
inductive JsonValue where
  | null
  | bool (b : Bool)
  | number (falsy : Bool) (text : String)
  | string (s : String)
  | other (text : String)
deriving DecidableEq, Repr

/-- {lit}`Record<string, unknown>`. -/
abbrev Payload := String → Option JsonValue

/-- Truthiness of a value, or of none. -/
def isTruthy : Option JsonValue → Bool
  | none => false
  | some .null => false
  | some (.bool b) => b
  | some (.number falsy _) => !falsy
  | some (.string s) => s != ""
  | some (.other _) => true

/-- The value, where it is truthy. -/
def given (a : Option JsonValue) : Option JsonValue :=
  if isTruthy a then a else none

/-- {lit}`a || b`. -/
def orElse (a b : Option JsonValue) : Option JsonValue :=
  if isTruthy a then a else b

/-- {lit}`a || text`, for a text that is there. -/
def orText (a : Option JsonValue) (text : String) : JsonValue :=
  (given a).getD (.string text)

/-- A value inside a template literal. -/
def JsonValue.text : JsonValue → String
  | .null => "null"
  | .bool b => if b then "true" else "false"
  | .number _ text => text
  | .string s => s
  | .other text => text

/-- How a call of a service ends. -/
inductive Answer (α : Type) where
  | returned (a : α)
  | threw
deriving DecidableEq, Repr

/-- The services behind the channels, as they answer during one attempt: the success of an
e-mail, the success and the provider of a text message, the number of devices a push
notification was sent to, and the success of each webhook delivery. -/
structure ChannelServices where
  sendEmail : JsonValue → String → Payload → Answer Bool
  sendSms : JsonValue → JsonValue → String → Answer (Bool × String)
  sendPushNotification : String → JsonValue → JsonValue → JsonValue → Payload → Answer Nat
  dispatchEvent : String → String → Payload → Answer (List Bool)
  broadcastOrderEvent : String → JsonValue → String → Payload → Answer Unit

/-- What {lit}`processChannel` resolves with. -/
structure ChannelResult where
  success : Bool
  provider : Option String := none
deriving DecidableEq, Repr

/-! ## The arguments of the channels -/

def emailTo (payload : Payload) : JsonValue :=
  orText (orElse (payload "email") (payload "customerEmail")) "customer@example.com"

def template (event : String) : String :=
  if includes event "invoice" then "invoice"
  else if includes event "order" then "order-status"
  else "welcome"

def phone (payload : Payload) : JsonValue :=
  orText (orElse (payload "phone") (payload "customerPhone")) "+12025550144"

def smsMessage (event : String) (payload : Payload) : JsonValue :=
  orText (payload "message") ("Zayjar: Event " ++ event ++ " for order " ++
    (orText (orElse (payload "orderNumber") (payload "id")) "").text)

def userId (payload : Payload) : Option JsonValue :=
  orElse (payload "userId") (payload "customerId")

def pushTitle (event : String) (payload : Payload) : JsonValue :=
  orText (payload "title") ("Zayjar: " ++ event)

def pushBody (event : String) (payload : Payload) : JsonValue :=
  orText (orElse (payload "body") (payload "message")) ("Event " ++ event ++ " occurred")

/-! ## The switch over the channels, twice -/

/-- {lit}`DispatchService.processChannel`: an exception becomes a result without success. -/
def DispatchService.processChannel (services : ChannelServices) (channel : NotificationChannel)
    (event : String) (payload : Payload) (tenantId : String) : ChannelResult :=
  match channel with
  | .email =>
      match services.sendEmail (emailTo payload) (template event) payload with
      | .returned success => { success, provider := some "sendgrid" }
      | .threw => { success := false }
  | .sms =>
      match services.sendSms (phone payload) (smsMessage event payload) tenantId with
      | .returned (success, provider) => { success, provider := some provider }
      | .threw => { success := false }
  | .push =>
      match given (userId payload) with
      | some user =>
          match services.sendPushNotification tenantId user (pushTitle event payload)
            (pushBody event payload) payload with
          | .returned sent => { success := 0 < sent, provider := some "fcm" }
          | .threw => { success := false }
      | none => { success := false, provider := some "fcm" }
  | .webhook =>
      match services.dispatchEvent tenantId event payload with
      | .returned results =>
          { success := 0 < (results.filter (·)).length || 0 < results.length
            provider := some "webhook" }
      | .threw => { success := false }
  | .websocket =>
      match given (payload "branchId") with
      | some branchId =>
          match services.broadcastOrderEvent tenantId branchId event payload with
          | .returned () => { success := true, provider := some "socket.io" }
          | .threw => { success := false }
      | none => { success := false, provider := some "socket.io" }

/-- {lit}`processChannel` of the standalone process: an exception passes through. -/
def Worker.processChannel (services : ChannelServices) (channel : NotificationChannel)
    (event : String) (payload : Payload) (tenantId : String) : Answer ChannelResult :=
  match channel with
  | .email =>
      match services.sendEmail (emailTo payload) (template event) payload with
      | .returned success => .returned { success, provider := some "sendgrid" }
      | .threw => .threw
  | .sms =>
      match services.sendSms (phone payload) (smsMessage event payload) tenantId with
      | .returned (success, provider) => .returned { success, provider := some provider }
      | .threw => .threw
  | .push =>
      match given (userId payload) with
      | some user =>
          match services.sendPushNotification tenantId user (pushTitle event payload)
            (pushBody event payload) payload with
          | .returned sent => .returned { success := 0 < sent, provider := some "fcm" }
          | .threw => .threw
      | none => .returned { success := false, provider := some "fcm" }
  | .webhook =>
      match services.dispatchEvent tenantId event payload with
      | .returned results =>
          .returned
            { success := 0 < (results.filter (·)).length || 0 < results.length
              provider := some "webhook" }
      | .threw => .threw
  | .websocket =>
      match given (payload "branchId") with
      | some branchId =>
          match services.broadcastOrderEvent tenantId branchId event payload with
          | .returned () => .returned { success := true, provider := some "socket.io" }
          | .threw => .threw
      | none => .returned { success := false, provider := some "socket.io" }

/-- The channel service reaches somebody, given a recipient in the payload: the provider
accepts the message, a device is sent to, a webhook is subscribed, or the broadcast to the
branch goes out. -/
def Delivers (services : ChannelServices) (channel : NotificationChannel) (event : String)
    (payload : Payload) (tenantId : String) : Prop :=
  match channel with
  | .email =>
      services.sendEmail (emailTo payload) (template event) payload = .returned true
  | .sms => ∃ provider,
      services.sendSms (phone payload) (smsMessage event payload) tenantId =
        .returned (true, provider)
  | .push => ∃ user sent, given (userId payload) = some user ∧
      services.sendPushNotification tenantId user (pushTitle event payload)
        (pushBody event payload) payload = .returned sent ∧ 0 < sent
  | .webhook => ∃ results,
      services.dispatchEvent tenantId event payload = .returned results ∧ results ≠ []
  | .websocket => ∃ branchId, given (payload "branchId") = some branchId ∧
      services.broadcastOrderEvent tenantId branchId event payload = .returned ()

section Switch

variable (services : ChannelServices) (channel : NotificationChannel) (event : String)
  (payload : Payload) (tenantId : String)

/-- The guarded switch reports a success exactly when the channel delivers. -/
theorem processChannel_success_iff :
    (DispatchService.processChannel services channel event payload tenantId).success = true ↔
      Delivers services channel event payload tenantId := by
  cases channel with
  | email =>
      unfold DispatchService.processChannel Delivers
      dsimp only
      cases services.sendEmail (emailTo payload) (template event) payload <;> simp
  | sms =>
      unfold DispatchService.processChannel Delivers
      dsimp only
      rcases services.sendSms (phone payload) (smsMessage event payload) tenantId with
        ⟨success, provider⟩ | _ <;> simp
  | push =>
      unfold DispatchService.processChannel Delivers
      dsimp only
      cases given (userId payload) with
      | none => simp
      | some user =>
          cases hsend : services.sendPushNotification tenantId user (pushTitle event payload)
            (pushBody event payload) payload <;> simp [hsend]
  | webhook =>
      unfold DispatchService.processChannel Delivers
      dsimp only
      cases services.dispatchEvent tenantId event payload with
      | returned results => cases results <;> simp
      | threw => simp
  | websocket =>
      unfold DispatchService.processChannel Delivers
      dsimp only
      cases given (payload "branchId") with
      | none => simp
      | some branchId =>
          cases hsend : services.broadcastOrderEvent tenantId branchId event payload <;>
            simp [hsend]

/-- Where the unguarded switch returns, the guarded one returns the same; where it throws, the
guarded one reports no success. -/
theorem processChannel_mirrors :
    match Worker.processChannel services channel event payload tenantId with
    | .returned result =>
        DispatchService.processChannel services channel event payload tenantId = result
    | .threw =>
        (DispatchService.processChannel services channel event payload tenantId).success =
          false := by
  unfold Worker.processChannel DispatchService.processChannel
  cases channel with
  | email =>
      dsimp only
      cases services.sendEmail (emailTo payload) (template event) payload <;> rfl
  | sms =>
      dsimp only
      rcases services.sendSms (phone payload) (smsMessage event payload) tenantId with
        ⟨success, provider⟩ | _ <;> rfl
  | push =>
      dsimp only
      cases given (userId payload) with
      | none => rfl
      | some user =>
          dsimp only
          cases services.sendPushNotification tenantId user (pushTitle event payload)
            (pushBody event payload) payload <;> rfl
  | webhook =>
      dsimp only
      cases services.dispatchEvent tenantId event payload <;> rfl
  | websocket =>
      dsimp only
      cases given (payload "branchId") with
      | none => rfl
      | some branchId =>
          dsimp only
          cases services.broadcastOrderEvent tenantId branchId event payload <;> rfl

end Switch

/-! ## The consumers -/

/-- The end of a job: delivered, given up after its last attempt, or completed by the queue
although nothing was delivered. -/
inductive JobEnd where
  | delivered
  | failed
  | completed
deriving DecidableEq, Repr

/-- The attempts a consumer has made for a job when it is done with it, and how it ended. -/
structure Processed where
  attempts : Nat
  ending : JobEnd
deriving DecidableEq, Repr

/-- The passes of {lit}`processInMemoryQueue` over one job, with the attempts that are left and
those that are made.  A delivery that fails or throws puts the job back while attempts are
left, and moves it to the dead letters otherwise. -/
def processInMemoryQueue (deliver : Nat → Delivery) : Nat → Nat → Processed
  | 0, made => ⟨made, .failed⟩
  | left + 1, made =>
      match deliver made with
      | .answered true => ⟨made + 1, .delivered⟩
      | .answered false => processInMemoryQueue deliver left (made + 1)
      | .threw => processInMemoryQueue deliver left (made + 1)

/-- A BullMQ worker on one job: the job is complete once its processor resolves. -/
def bullMQWorker (processor : Nat → Answer ChannelResult) : Nat → Nat → Processed
  | 0, made => ⟨made, .failed⟩
  | left + 1, made =>
      match processor made with
      | .returned result => ⟨made + 1, if result.success then .delivered else .completed⟩
      | .threw => bullMQWorker processor left (made + 1)

/-- The data of a job that a consumer reads. -/
structure JobData where
  tenantId : String
  channel : NotificationChannel
  event : String
  payload : Payload

/-- {lit}`maxAttempts` of a job that {lit}`dispatch` builds. -/
def MAX_ATTEMPTS : Nat := 3

/-- {lit}`RETRY_CONFIG.attempts`. -/
def RETRY_ATTEMPTS : Nat := 3

namespace JobData

variable (job : JobData) (services : Nat → ChannelServices)

/-- The job in the array of the dispatch service, with the channel services of each attempt. -/
def inMemory : Processed :=
  processInMemoryQueue (fun k => .answered (DispatchService.processChannel (services k)
    job.channel job.event job.payload job.tenantId).success) MAX_ATTEMPTS 0

/-- The job at the worker that {lit}`initializeBullMQ` starts. -/
def atDispatchWorker : Processed :=
  bullMQWorker (fun k => .returned (DispatchService.processChannel (services k)
    job.channel job.event job.payload job.tenantId)) RETRY_ATTEMPTS 0

/-- The job at the worker of the standalone process. -/
def atStandaloneWorker : Processed :=
  bullMQWorker (fun k => Worker.processChannel (services k)
    job.channel job.event job.payload job.tenantId) RETRY_ATTEMPTS 0

/-- The three consumers agree about the job. -/
def ConsumersAgree : Prop :=
  job.atDispatchWorker services = job.inMemory services ∧
    job.atStandaloneWorker services = job.inMemory services

instance : Decidable (job.ConsumersAgree services) :=
  inferInstanceAs (Decidable (_ ∧ _))

end JobData

/-! ## The loop over one job and the event loop -/

/-- Deliveries that all fail use up the attempts. -/
theorem processInMemoryQueue_of_failures {deliver : Nat → Delivery} {left made : Nat}
    (hfail : ∀ k, made ≤ k → k < made + left → deliver k ≠ .answered true) :
    processInMemoryQueue deliver left made = ⟨made + left, .failed⟩ := by
  induction left generalizing made with
  | zero => rfl
  | succ left ih =>
      have hnow : deliver made ≠ .answered true := hfail made (by omega) (by omega)
      have hlater : processInMemoryQueue deliver left (made + 1) = ⟨made + 1 + left, .failed⟩ :=
        ih fun k hk hlt => hfail k (by omega) (by omega)
      have hlength : made + 1 + left = made + (left + 1) := by omega
      rw [hlength] at hlater
      unfold processInMemoryQueue
      split
      · next hsuccess => exact absurd hsuccess hnow
      · exact hlater
      · exact hlater

/-- The first delivery that succeeds ends the job. -/
theorem processInMemoryQueue_of_success {deliver : Nat → Delivery} (failed : Nat) {left made : Nat}
    (hfail : ∀ k, made ≤ k → k < made + failed → deliver k ≠ .answered true)
    (hsuccess : deliver (made + failed) = .answered true) (hleft : failed < left) :
    processInMemoryQueue deliver left made = ⟨made + failed + 1, .delivered⟩ := by
  induction failed generalizing left made with
  | zero =>
      cases left with
      | zero => omega
      | succ left =>
          rw [Nat.add_zero] at hsuccess
          rw [processInMemoryQueue, hsuccess]
  | succ failed ih =>
      cases left with
      | zero => omega
      | succ left =>
          have hlength : made + 1 + failed = made + (failed + 1) := by omega
          have hnow : deliver made ≠ .answered true := hfail made (by omega) (by omega)
          have hlater : processInMemoryQueue deliver left (made + 1) =
              ⟨made + 1 + failed + 1, .delivered⟩ := ih
            (fun k hk hlt => hfail k (by omega) (by omega)) (by rw [hlength]; exact hsuccess)
            (by omega)
          rw [hlength] at hlater
          unfold processInMemoryQueue
          split
          · next hdone => exact absurd hdone hnow
          · exact hlater
          · exact hlater

namespace DispatchService

/-- The deliveries of a job that are over, in their order. -/
def deliveries (s : DispatchService) (r : Nat) : List Delivery :=
  s.ended.filterMap fun e => if e.1 = r then some e.2 else none

/-- A job whose delivery succeeded is not delivered again. -/
structure Recorded (s : DispatchService) : Prop where
  ledger : s.Ledger
  last : ∀ r, .answered true ∉ (s.deliveries r).dropLast

theorem count_deliveries (s : DispatchService) (r : Nat) (d : Delivery) :
    (s.deliveries r).count d = s.ended.count (r, d) := by
  unfold deliveries
  induction s.ended with
  | nil => rfl
  | cons e ended ih =>
      rcases e with ⟨q, d'⟩
      by_cases hq : q = r
      · subst hq
        simp [List.count_cons, ih]
      · simp [hq, ih]

theorem length_deliveries (s : DispatchService) (r : Nat) :
    (s.deliveries r).length = s.failures r + s.successes r := by
  have hsplit : ∀ ds : List Delivery, ds.length =
      ds.count (.answered false) + ds.count .threw + ds.count (.answered true) := by
    intro ds
    induction ds with
    | nil => rfl
    | cons d ds ih =>
        rcases d with (_ | _) | _ <;> simp [ih] <;> omega
  rw [hsplit, count_deliveries, count_deliveries, count_deliveries]
  rfl

@[simp]
theorem shiftJob_ended (s : DispatchService) : (shiftJob s).ended = s.ended := by
  unfold shiftJob
  split <;> rfl

@[simp]
theorem settleJob_ended (s : DispatchService) (r : Nat) (d : Delivery) :
    (settleJob r d s).ended = s.ended := by
  unfold settleJob
  rcases d with (_ | _) | _ <;> dsimp only <;> try split
  all_goals rfl

theorem deliveries_congr {s s' : DispatchService} (h : s'.ended = s.ended) (r : Nat) :
    s'.deliveries r = s.deliveries r := by
  unfold deliveries
  rw [h]

/-- While a delivery of the job is awaited none has succeeded. -/
theorem Ledger.not_succeeded {s : DispatchService} (h : s.Ledger) {r : Nat} (hloop : r ∈ s.loops) :
    .answered true ∉ s.deliveries r := by
  have hheld : 0 < (s.account r).awaited := List.count_pos_iff.mpr hloop
  have hplace := (h.kept r (h.born (by unfold Account.places; omega))).one_place
  have hnone : (s.account r).succeeded = 0 := by
    unfold Account.places at hplace
    omega
  rw [← List.count_eq_zero, count_deliveries]
  exact hnone

/-- Every turn leaves the deliveries recorded: only the end of a delivery adds one. -/
theorem Recorded.step {s : DispatchService} (h : s.Recorded) (a : Turn) :
    (eventLoop.step a s).2.Recorded := by
  refine ⟨step_ledger a h.ledger, fun r => ?_⟩
  cases a with
  | dispatch id tenantId channel event priority now => exact h.last r
  | immediate =>
      simp only [eventLoop, turn]
      split
      · rw [deliveries_congr (shiftJob_ended _)]
        exact h.last r
      · exact h.last r
  | timeout q =>
      simp only [eventLoop, turn]
      split <;> exact h.last r
  | delivered q d =>
      simp only [eventLoop, turn]
      split
      · next hloop =>
          have hended : ∀ loops, (shiftJob (settleJob q d
              { s with loops := loops, ended := s.ended ++ [(q, d)] })).ended =
                s.ended ++ [(q, d)] := by
            intro loops
            simp
          unfold deliveries
          rw [hended, List.filterMap_append]
          by_cases hq : q = r
          · subst hq
            simp only [List.filterMap_cons, List.filterMap_nil, if_true, List.dropLast_concat]
            exact h.ledger.not_succeeded hloop
          · simp only [List.filterMap_cons, List.filterMap_nil, if_neg hq, List.append_nil]
            exact h.last r
      · exact h.last r

theorem recorded_exec (turns : List Turn) : (eventLoop.exec turns {}).Recorded :=
  eventLoop.run_invariant (I := Recorded) (fun a _ _ h => h.step a)
    ⟨⟨fun r hr => absurd hr (Nat.not_lt_zero r), fun _ _ => rfl⟩, fun _ => List.not_mem_nil⟩

end DispatchService

/-- A job that a run of the event loop has dealt with has the attempts and the end that the
passes over one job compute from its deliveries. -/
theorem processInMemoryQueue_of_dealtWith (turns : List Turn) {r : Nat}
    (hborn : r < (eventLoop.exec turns {}).jobs.length)
    (hdealt : ((eventLoop.exec turns {}).account r).DealtWith) :
    processInMemoryQueue (fun k => ((eventLoop.exec turns {}).deliveries r).getD k .threw)
        ((eventLoop.exec turns {}).maxAttempts r) 0 =
      ⟨(eventLoop.exec turns {}).attempts r,
        if (eventLoop.exec turns {}).successes r = 1 then .delivered else .failed⟩ := by
  have hrecorded := DispatchService.recorded_exec turns
  generalize eventLoop.exec turns {} = s at hborn hdealt hrecorded ⊢
  rcases hrecorded.ledger.kept r hborn with ⟨hplace, hcounted, hbounded, _, _⟩
  have hlength := s.length_deliveries r
  unfold Account.places at hplace
  simp only [DispatchService.account, Account.DealtWith] at hplace hcounted hbounded hdealt
  rcases hdealt with ⟨hone, hdead⟩ | ⟨hnone, hdead, hspent⟩
  · -- the delivery that succeeded is the last one
    rw [if_pos hone]
    have hne : s.deliveries r ≠ [] := List.ne_nil_of_length_pos (by omega)
    have hmem : .answered true ∈ s.deliveries r := by
      rw [← List.count_pos_iff, DispatchService.count_deliveries]
      exact Nat.lt_of_lt_of_eq Nat.zero_lt_one hone.symm
    have hsplit := List.dropLast_append_getLast hne
    have hlast : (s.deliveries r).getLast hne = .answered true := by
      rw [← hsplit, List.mem_append, List.mem_singleton] at hmem
      exact (hmem.resolve_left (hrecorded.last r)).symm
    have hinit : (s.deliveries r).dropLast.length = s.failures r := by
      rw [List.length_dropLast]
      omega
    rw [hlast] at hsplit
    rw [processInMemoryQueue_of_success (s.failures r)]
    · congr 1
      omega
    · intro k _ hk
      rw [← hsplit, List.getD_append _ _ _ _ (by omega)]
      intro hsuccess
      refine hrecorded.last r ?_
      rw [← hsuccess, List.getD_eq_getElem _ _ (by omega)]
      exact List.getElem_mem _
    · rw [← hsplit, List.getD_append_right _ _ _ _ (by omega), hinit]
      simp
    · omega
  · rw [if_neg (by omega), processInMemoryQueue_of_failures]
    · congr 1
      omega
    · intro k _ hk hsuccess
      have hmem : .answered true ∈ s.deliveries r := by
        rw [← hsuccess, List.getD_eq_getElem _ _ (by omega)]
        exact List.getElem_mem _
      rw [← List.count_pos_iff, DispatchService.count_deliveries] at hmem
      exact absurd hmem (by unfold DispatchService.successes at hnone; omega)

/-! ## When the consumers agree -/

section Agreement

variable (job : JobData) (services : Nat → ChannelServices)

/-- The array makes one attempt exactly when that one delivers. -/
theorem inMemory_attempts_eq_one_iff :
    (job.inMemory services).attempts = 1 ↔
      Delivers (services 0) job.channel job.event job.payload job.tenantId := by
  rw [← processChannel_success_iff]
  unfold JobData.inMemory MAX_ATTEMPTS processInMemoryQueue
  cases hfirst : (DispatchService.processChannel (services 0) job.channel job.event job.payload
    job.tenantId).success with
  | true => simp
  | false =>
      simp only [Bool.false_eq_true, iff_false]
      unfold processInMemoryQueue
      split
      · simp
      all_goals
        unfold processInMemoryQueue
        split <;> simp [processInMemoryQueue]

/-- The three consumers agree about a job exactly when its first attempt delivers. -/
theorem consumers_agree_iff :
    job.ConsumersAgree services ↔
      Delivers (services 0) job.channel job.event job.payload job.tenantId := by
  constructor
  · rintro ⟨hdispatch, _⟩
    rw [← inMemory_attempts_eq_one_iff, ← hdispatch]
    rfl
  · intro hdelivers
    have hsuccess := (processChannel_success_iff (services 0) job.channel job.event job.payload
      job.tenantId).mpr hdelivers
    have hmemory : job.inMemory services = ⟨1, .delivered⟩ := by
      unfold JobData.inMemory MAX_ATTEMPTS processInMemoryQueue
      rw [hsuccess]
    have hmirrors := processChannel_mirrors (services 0) job.channel job.event job.payload
      job.tenantId
    refine ⟨?_, ?_⟩
    · rw [hmemory]
      unfold JobData.atDispatchWorker RETRY_ATTEMPTS bullMQWorker
      simp [hsuccess]
    · rw [hmemory]
      unfold JobData.atStandaloneWorker RETRY_ATTEMPTS bullMQWorker
      cases hworker : Worker.processChannel (services 0) job.channel job.event job.payload
        job.tenantId with
      | threw =>
          rw [hworker] at hmirrors
          exact absurd (hsuccess.symm.trans hmirrors) (by decide)
      | returned result =>
          rw [hworker] at hmirrors
          dsimp only at hmirrors ⊢
          rw [← hmirrors, if_pos hsuccess]

end Agreement

/-- An order confirmation by e-mail. -/
def orderEmail : JobData where
  tenantId := "tenant-a"
  channel := .email
  event := "order.created"
  payload key := if key = "email" then some (.string "ada@example.com") else none

/-- Services whose mail provider refuses every message. -/
def refusingServices : ChannelServices where
  sendEmail _ _ _ := .returned false
  sendSms _ _ _ := .returned (true, "twilio")
  sendPushNotification _ _ _ _ _ := .returned 1
  dispatchEvent _ _ _ := .returned []
  broadcastOrderEvent _ _ _ _ := .returned ()

/-- The array gives the refused e-mail up after three attempts; for either worker it is complete
after one. -/
theorem refused_email_diverges :
    ¬ orderEmail.ConsumersAgree (fun _ => refusingServices) ∧
      orderEmail.inMemory (fun _ => refusingServices) = ⟨3, .failed⟩ ∧
      orderEmail.atDispatchWorker (fun _ => refusingServices) = ⟨1, .completed⟩ ∧
      orderEmail.atStandaloneWorker (fun _ => refusingServices) = ⟨1, .completed⟩ := by
  decide +kernel

end Notification
end Eleva
