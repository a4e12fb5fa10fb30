import Mathlib.Data.List.Count
import Eleva.Foundation.Machine

/-!
# Notification - The in-memory dispatch queue

Without Redis the dispatch service keeps its jobs in an array.  {lit}`dispatch`
pushes a job and schedules {lit}`processInMemoryQueue`, which shifts one job at a
time, awaits its delivery and goes on until the array is empty.  Several such
loops may be under way; a delivery that was reported as failed waits on a timer
before its job is pushed back, one that threw is pushed back at once.

The state names a job by its place in the list of all jobs {lit}`dispatch` has
built, as the arrays of the source hold references.  An action is one turn of the
event loop: between two of them nothing is awaited.

Main results:

- Theorem {lit}`step_ledger`: an action leaves every job in exactly one place, and
  its counter equal to the attempts that have ended or are awaited.
- Theorem {lit}`dispatch_loses_nothing_iff`: the quiescent states of a run have
  dealt with every job exactly when no last timer fires while no loop is scheduled
  or running.
- Theorem {lit}`failed_delivery_stranded`: a delivery that fails once on an idle
  service leaves its job in the array for good.
-/

namespace Eleva
namespace Notification

open Foundation

/-! ## The service between two turns of the event loop -/

inductive NotificationChannel
  | email | sms | push | webhook | websocket
  deriving DecidableEq, Repr

inductive NotificationPriority
  | low | normal | high
  deriving DecidableEq, Repr

/-- A job, less the payload, which only the delivery itself reads. -/
structure DispatchJob where
  id : String
  tenantId : String
  channel : NotificationChannel
  event : String
  priority : NotificationPriority
  attempts : Nat
  maxAttempts : Nat
  createdAt : Nat
  deriving DecidableEq, Repr

/-- How {lit}`await this.processChannel(…)` ends: with the {lit}`success` of its
result, or by throwing. -/
inductive Delivery
  | answered (success : Bool)
  | threw
  deriving DecidableEq, Repr

/-- The fields of the service, and what the runtime holds for it: the back-off
timers, the {lit}`setImmediate` callbacks that have not run, and the job each
running loop awaits.  The list {lit}`ended` records the attempts that are over. -/
structure DispatchService where
  jobs : List DispatchJob := []
  queue : List Nat := []
  deadLetterQueue : List Nat := []
  timers : List Nat := []
  scheduled : Nat := 0
  loops : List Nat := []
  ended : List (Nat × Delivery) := []
  deriving DecidableEq, Repr

namespace DispatchService

/-- {lit}`job.attempts`. -/
def attempts (s : DispatchService) (r : Nat) : Nat :=
  (s.jobs[r]?.map DispatchJob.attempts).getD 0

/-- {lit}`job.maxAttempts`. -/
def maxAttempts (s : DispatchService) (r : Nat) : Nat :=
  (s.jobs[r]?.map DispatchJob.maxAttempts).getD 0

/-- The attempts of a job that ended well. -/
def successes (s : DispatchService) (r : Nat) : Nat :=
  s.ended.count (r, .answered true)

/-- The attempts of a job that were reported as failed or threw. -/
def failures (s : DispatchService) (r : Nat) : Nat :=
  s.ended.count (r, .answered false) + s.ended.count (r, .threw)

/-- No timer is pending and no loop is scheduled or running. -/
def Quiescent (s : DispatchService) : Prop :=
  s.timers = [] ∧ s.scheduled = 0 ∧ s.loops = []

instance (s : DispatchService) : Decidable s.Quiescent :=
  inferInstanceAs (Decidable (_ ∧ _ ∧ _))

end DispatchService

/-! ## The turns of the event loop -/

/-- The head of the {lit}`while` loop: a loop that finds a job counts the attempt and
awaits the delivery, one that finds none is over. -/
def shiftJob (s : DispatchService) : DispatchService :=
  match s.queue with
  | [] => s
  | r :: queue =>
      { s with
        queue := queue
        jobs := s.jobs.modify r fun job => { job with attempts := job.attempts + 1 }
        loops := s.loops ++ [r] }

/-- What the loop does with a job whose delivery has ended. -/
def settleJob (r : Nat) (delivery : Delivery) (s : DispatchService) : DispatchService :=
  match delivery with
  | .answered true => s
  | .answered false =>
      if s.attempts r < s.maxAttempts r then
        { s with timers := s.timers ++ [r] }
      else
        { s with deadLetterQueue := s.deadLetterQueue ++ [r] }
  | .threw =>
      if s.attempts r < s.maxAttempts r then
        { s with queue := s.queue ++ [r] }
      else
        { s with deadLetterQueue := s.deadLetterQueue ++ [r] }

/-- What {lit}`dispatch` answers for a job it keeps in memory. -/
structure Queued where
  queued : Bool
  jobId : String
  channel : NotificationChannel
  event : String
  fallback : String
  deriving DecidableEq, Repr

/-- The in-memory branch of {lit}`dispatch`. -/
def dispatch (id tenantId : String) (channel : NotificationChannel) (event : String)
    (priority : NotificationPriority) (now : Nat) (s : DispatchService) :
    Queued × DispatchService :=
  let job : DispatchJob :=
    { id, tenantId, channel, event, priority, attempts := 0, maxAttempts := 3, createdAt := now }
  ({ queued := true, jobId := job.id, channel, event, fallback := "memory" },
    { s with
      jobs := s.jobs ++ [job]
      queue := s.queue ++ [s.jobs.length]
      scheduled := s.scheduled + 1 })

/-- A turn of the event loop.  The timers may fire in any order. -/
inductive Turn
  | dispatch (id tenantId : String) (channel : NotificationChannel) (event : String)
      (priority : NotificationPriority) (now : Nat)
  | immediate
  | delivered (r : Nat) (delivery : Delivery)
  | timeout (r : Nat)
  deriving DecidableEq, Repr

/-- The effect of a turn; a turn that the state does not offer has none. -/
def turn : Turn → DispatchService → Option Queued × DispatchService
  | .dispatch id tenantId channel event priority now, s =>
      let sent := dispatch id tenantId channel event priority now s
      (some sent.1, sent.2)
  | .immediate, s =>
      if 0 < s.scheduled then
        (none, shiftJob { s with scheduled := s.scheduled - 1 })
      else
        (none, s)
  | .delivered r delivery, s =>
      if r ∈ s.loops then
        (none, shiftJob (settleJob r delivery
          { s with loops := s.loops.erase r, ended := s.ended ++ [(r, delivery)] }))
      else
        (none, s)
  | .timeout r, s =>
      if r ∈ s.timers then
        (none, { s with timers := s.timers.erase r, queue := s.queue ++ [r] })
      else
        (none, s)

/-- The service as a machine over the turns of the event loop. -/
def eventLoop : Machine Turn DispatchService (Option Queued) :=
  ⟨turn⟩

/-! ## The account of one job -/

/-- Where the references to a job are, and the attempts it has used. -/
structure Account where
  queued : Nat := 0
  timed : Nat := 0
  awaited : Nat := 0
  succeeded : Nat := 0
  dead : Nat := 0
  failed : Nat := 0
  attempts : Nat := 0
  maxAttempts : Nat := 0
  deriving DecidableEq, Repr

namespace Account

/-- The places that hold the job. -/
def places (a : Account) : Nat :=
  a.queued + a.timed + a.awaited + a.succeeded + a.dead

/-- A job is in one place, its counter is the number of attempts that have ended or are
awaited, and it waits only while attempts are left. -/
structure Kept (a : Account) : Prop where
  one_place : a.places = 1
  counted : a.attempts = a.failed + a.succeeded + a.awaited
  bounded : a.attempts ≤ a.maxAttempts
  waiting : 0 < a.queued + a.timed → a.attempts < a.maxAttempts
  spent : 0 < a.dead → a.attempts = a.maxAttempts

/-- A job is dealt with: it succeeded once, or it is a dead letter once after as many
failed attempts as it has. -/
def DealtWith (a : Account) : Prop :=
  (a.succeeded = 1 ∧ a.dead = 0) ∨
    (a.succeeded = 0 ∧ a.dead = 1 ∧ a.failed = a.maxAttempts)

instance (a : Account) : Decidable a.DealtWith :=
  inferInstanceAs (Decidable (_ ∨ _))

/-- A loop takes the job out of the array. -/
def taken (a : Account) : Account :=
  { a with queued := a.queued - 1, awaited := a.awaited + 1, attempts := a.attempts + 1 }

/-- The awaited delivery ends. -/
def settled (a : Account) : Delivery → Account
  | .answered true => { a with awaited := a.awaited - 1, succeeded := a.succeeded + 1 }
  | .answered false =>
      if a.attempts < a.maxAttempts then
        { a with awaited := a.awaited - 1, failed := a.failed + 1, timed := a.timed + 1 }
      else
        { a with awaited := a.awaited - 1, failed := a.failed + 1, dead := a.dead + 1 }
  | .threw =>
      if a.attempts < a.maxAttempts then
        { a with awaited := a.awaited - 1, failed := a.failed + 1, queued := a.queued + 1 }
      else
        { a with awaited := a.awaited - 1, failed := a.failed + 1, dead := a.dead + 1 }

/-- The timer puts the job back into the array. -/
def woken (a : Account) : Account :=
  { a with timed := a.timed - 1, queued := a.queued + 1 }

/-- The account of a job that has just been dispatched. -/
def opened : Account :=
  { queued := 1, maxAttempts := 3 }

theorem Kept.opened : opened.Kept := by
  constructor <;> decide

theorem Kept.taken {a : Account} (h : a.Kept) (hqueued : 0 < a.queued) : a.taken.Kept := by
  rcases h with ⟨hplace, hcounted, hbounded, hwaiting, hspent⟩
  have hleft := hwaiting (by omega)
  unfold places at hplace
  constructor <;> simp only [Account.taken, places] <;> omega

theorem Kept.woken {a : Account} (h : a.Kept) (htimed : 0 < a.timed) : a.woken.Kept := by
  rcases h with ⟨hplace, hcounted, hbounded, hwaiting, hspent⟩
  have hleft := hwaiting (by omega)
  unfold places at hplace
  constructor <;> simp only [Account.woken, places] <;> omega

theorem Kept.settled {a : Account} (h : a.Kept) (hawaited : 0 < a.awaited)
    (delivery : Delivery) : (a.settled delivery).Kept := by
  rcases h with ⟨hplace, hcounted, hbounded, hwaiting, hspent⟩
  unfold places at hplace
  cases delivery with
  | answered success =>
      cases success with
      | true => constructor <;> simp only [Account.settled, places] <;> omega
      | false =>
          simp only [Account.settled]
          split <;> constructor <;> simp only [places] <;> omega
  | threw =>
      simp only [Account.settled]
      split <;> constructor <;> simp only [places] <;> omega

/-- A kept job that is in none of the places a quiescent service has left is dealt with. -/
theorem Kept.dealtWith {a : Account} (h : a.Kept) (hqueued : a.queued = 0) (htimed : a.timed = 0)
    (hawaited : a.awaited = 0) : a.DealtWith := by
  rcases h with ⟨hplace, hcounted, hbounded, hwaiting, hspent⟩
  unfold places at hplace
  by_cases hdead : a.dead = 0
  · exact Or.inl ⟨by omega, hdead⟩
  · have hall := hspent (by omega)
    exact Or.inr ⟨by omega, by omega, by omega⟩

end Account

namespace DispatchService

/-- The account of a job. -/
def account (s : DispatchService) (r : Nat) : Account where
  queued := s.queue.count r
  timed := s.timers.count r
  awaited := s.loops.count r
  succeeded := s.successes r
  dead := s.deadLetterQueue.count r
  failed := s.failures r
  attempts := s.attempts r
  maxAttempts := s.maxAttempts r

/-- Every job has an account that is kept, and nothing refers to any other number. -/
structure Ledger (s : DispatchService) : Prop where
  kept : ∀ r < s.jobs.length, (s.account r).Kept
  unborn : ∀ r, s.jobs.length ≤ r → s.account r = {}

/-- In a quiescent state the array is empty and every job is dealt with. -/
def LosesNothing (s : DispatchService) : Prop :=
  s.Quiescent → s.queue = [] ∧ ∀ r < s.jobs.length, (s.account r).DealtWith

end DispatchService

/-! ## What a turn does to the accounts -/

open DispatchService

/-- A job taken from a list. -/
theorem count_take (refs : List Nat) (r q : Nat) :
    (refs.erase r).count q = refs.count q - if r = q then 1 else 0 := by
  rw [List.count_erase]
  simp

theorem shiftJob_of_cons {s : DispatchService} {q : Nat} {queue : List Nat}
    (hqueue : s.queue = q :: queue) :
    shiftJob s =
      { s with
        queue := queue
        jobs := s.jobs.modify q fun job => { job with attempts := job.attempts + 1 }
        loops := s.loops ++ [q] } := by
  rcases s with ⟨jobs, _, deadLetterQueue, timers, scheduled, loops, ended⟩
  cases hqueue
  rfl

/-- The first job of the array is taken by the loop; the others keep their accounts. -/
theorem account_shiftJob {s : DispatchService} {q : Nat} {queue : List Nat}
    (hqueue : s.queue = q :: queue) (hborn : q < s.jobs.length) (r : Nat) :
    (shiftJob s).account r = if q = r then (s.account q).taken else s.account r := by
  rw [shiftJob_of_cons hqueue]
  by_cases hq : q = r
  · subst hq
    simp [account, Account.taken, attempts, DispatchService.maxAttempts, successes, failures,
      hqueue, hborn]
  · simp [account, attempts, DispatchService.maxAttempts, successes, failures, hqueue, hq,
      List.count_cons_of_ne hq]

/-- A delivery that ends concerns the job it was made for. -/
theorem account_settleJob (s : DispatchService) (q : Nat) (delivery : Delivery) (r : Nat) :
    (settleJob q delivery
      { s with loops := s.loops.erase q, ended := s.ended ++ [(q, delivery)] }).account r =
      if q = r then (s.account q).settled delivery else s.account r := by
  have hloops : (s.loops.erase q).count r = s.loops.count r - if q = r then 1 else 0 :=
    count_take s.loops q r
  by_cases hq : q = r
  · subst hq
    rw [if_pos rfl] at hloops ⊢
    rcases delivery with (_ | _) | _
    · by_cases hleft : (s.account q).attempts < (s.account q).maxAttempts
      · rw [Account.settled, if_pos hleft, settleJob, if_pos]
        · simp [account, hloops, successes, failures, attempts,
            DispatchService.maxAttempts, Nat.add_right_comm]
        · exact hleft
      · rw [Account.settled, if_neg hleft, settleJob, if_neg]
        · simp [account, hloops, successes, failures, attempts,
            DispatchService.maxAttempts, Nat.add_right_comm]
        · exact hleft
    · simp [settleJob, account, Account.settled, hloops, successes, failures,
        attempts, DispatchService.maxAttempts]
    · by_cases hleft : (s.account q).attempts < (s.account q).maxAttempts
      · rw [Account.settled, if_pos hleft, settleJob, if_pos]
        · simp [account, hloops, successes, failures, attempts,
            DispatchService.maxAttempts, Nat.add_assoc]
        · exact hleft
      · rw [Account.settled, if_neg hleft, settleJob, if_neg]
        · simp [account, hloops, successes, failures, attempts,
            DispatchService.maxAttempts, Nat.add_assoc]
        · exact hleft
  · rw [if_neg hq, Nat.sub_zero] at hloops
    rw [if_neg hq]
    unfold settleJob
    rcases delivery with (_ | _) | _ <;> dsimp only <;> try split
    all_goals
      simp [account, hloops, successes, failures, attempts,
        DispatchService.maxAttempts, hq]

/-- A timer that fires concerns its own job. -/
theorem account_timeout (s : DispatchService) (q r : Nat) :
    ({ s with timers := s.timers.erase q, queue := s.queue ++ [q] } : DispatchService).account r =
      if q = r then (s.account q).woken else s.account r := by
  by_cases hq : q = r
  · subst hq
    simp [account, Account.woken, attempts, DispatchService.maxAttempts, successes,
      failures]
  · simp [account, count_take, attempts, DispatchService.maxAttempts, successes,
      failures, hq]

/-- The account of the job a call of {lit}`dispatch` builds is opened. -/
theorem account_dispatch {s : DispatchService} (hunborn : s.account s.jobs.length = {})
    (id tenantId : String) (channel : NotificationChannel) (event : String)
    (priority : NotificationPriority) (now r : Nat) :
    (dispatch id tenantId channel event priority now s).2.account r =
      if s.jobs.length = r then Account.opened else s.account r := by
  by_cases hr : s.jobs.length = r
  · subst hr
    simp only [account, Account.mk.injEq] at hunborn
    rcases hunborn with ⟨hqueue, htimers, hloops, hsucc, hdead, hfail, -, -⟩
    rw [if_pos rfl]
    simp only [account, Account.opened, Account.mk.injEq]
    refine ⟨?_, htimers, hloops, hsucc, hdead, hfail, ?_, ?_⟩
    · simp [dispatch, hqueue]
    · simp [dispatch, attempts]
    · simp [dispatch, DispatchService.maxAttempts]
  · have hsame (job : DispatchJob) : (s.jobs ++ [job])[r]? = s.jobs[r]? := by
      rcases Nat.lt_or_gt_of_ne hr with hlater | hold
      · rw [List.getElem?_eq_none (by simp; omega), List.getElem?_eq_none (by omega)]
      · exact List.getElem?_append_left hold
    simp [account, dispatch, attempts, DispatchService.maxAttempts, successes,
      failures, hsame, hr]

/-! ## The ledger along a run -/

/-- A turn that changes the account of one known job, and leaves it kept. -/
theorem DispatchService.Ledger.touch {s s' : DispatchService} (h : s.Ledger)
    (hjobs : s'.jobs.length = s.jobs.length) {q : Nat} {a : Account} (hq : q < s.jobs.length)
    (ha : a.Kept) (haccount : ∀ r, s'.account r = if q = r then a else s.account r) :
    s'.Ledger := by
  constructor
  · intro r hr
    rw [haccount]
    by_cases hqr : q = r
    · rw [if_pos hqr]
      exact ha
    · rw [if_neg hqr]
      exact h.kept r (hjobs ▸ hr)
  · intro r hr
    rw [hjobs] at hr
    rw [haccount, if_neg (by omega)]
    exact h.unborn r hr

/-- What some place refers to is a job. -/
theorem DispatchService.Ledger.born {s : DispatchService} (h : s.Ledger) {q : Nat}
    (hplace : 0 < (s.account q).places) : q < s.jobs.length := by
  by_contra hge
  rw [h.unborn q (by omega)] at hplace
  exact absurd hplace (by decide)

theorem DispatchService.Ledger.shiftJob {s : DispatchService} (h : s.Ledger) :
    (shiftJob s).Ledger := by
  cases hqueue : s.queue with
  | nil =>
      have hsame : Notification.shiftJob s = s := by
        unfold Notification.shiftJob
        rw [hqueue]
      rw [hsame]
      exact h
  | cons q queue =>
      have hqueued : 0 < (s.account q).queued := by
        simp [account, hqueue]
      have hborn : q < s.jobs.length := h.born (by unfold Account.places; omega)
      refine h.touch ?_ hborn ((h.kept q hborn).taken hqueued) (account_shiftJob hqueue hborn)
      simp [shiftJob_of_cons hqueue]

theorem DispatchService.Ledger.settleJob {s : DispatchService} (h : s.Ledger) {q : Nat}
    (hawaited : q ∈ s.loops) (delivery : Delivery) :
    (settleJob q delivery
      { s with loops := s.loops.erase q, ended := s.ended ++ [(q, delivery)] }).Ledger := by
  have hheld : 0 < (s.account q).awaited := List.count_pos_iff.mpr hawaited
  have hborn : q < s.jobs.length := h.born (by unfold Account.places; omega)
  refine h.touch ?_ hborn ((h.kept q hborn).settled hheld delivery) (account_settleJob s q delivery)
  unfold Notification.settleJob
  rcases delivery with (_ | _) | _ <;> dsimp only <;> try split
  all_goals rfl

theorem DispatchService.Ledger.timeout {s : DispatchService} (h : s.Ledger) {q : Nat}
    (hset : q ∈ s.timers) :
    ({ s with timers := s.timers.erase q, queue := s.queue ++ [q] } : DispatchService).Ledger := by
  have hheld : 0 < (s.account q).timed := List.count_pos_iff.mpr hset
  have hborn : q < s.jobs.length := h.born (by unfold Account.places; omega)
  exact h.touch rfl hborn ((h.kept q hborn).woken hheld) (account_timeout s q)

theorem DispatchService.Ledger.dispatch {s : DispatchService} (h : s.Ledger)
    (id tenantId : String) (channel : NotificationChannel) (event : String)
    (priority : NotificationPriority) (now : Nat) :
    (dispatch id tenantId channel event priority now s).2.Ledger := by
  have haccount :=
    account_dispatch (h.unborn _ (Nat.le_refl _)) id tenantId channel event priority now
  have hlength : (Notification.dispatch id tenantId channel event priority now s).2.jobs.length =
      s.jobs.length + 1 := by
    simp [Notification.dispatch]
  constructor
  · intro r hr
    rw [haccount]
    by_cases hnew : s.jobs.length = r
    · rw [if_pos hnew]
      exact Account.Kept.opened
    · rw [if_neg hnew]
      exact h.kept r (by omega)
  · intro r hr
    rw [haccount, if_neg (by omega)]
    exact h.unborn r (by omega)

/-- Whatever a turn does, every job stays in one place, with its attempts counted. -/
theorem step_ledger (a : Turn) {s : DispatchService} (h : s.Ledger) :
    (eventLoop.step a s).2.Ledger := by
  cases a with
  | dispatch id tenantId channel event priority now =>
      exact h.dispatch id tenantId channel event priority now
  | immediate =>
      simp only [eventLoop, turn]
      split
      · exact DispatchService.Ledger.shiftJob ⟨h.kept, h.unborn⟩
      · exact h
  | delivered q delivery =>
      simp only [eventLoop, turn]
      split
      · next hawaited => exact (h.settleJob hawaited delivery).shiftJob
      · exact h
  | timeout q =>
      simp only [eventLoop, turn]
      split
      · next hset => exact h.timeout hset
      · exact h

/-! ## Quiescent states -/

/-- A loop that is scheduled or running. -/
def DispatchService.Working (s : DispatchService) : Prop :=
  0 < s.scheduled ∨ s.loops ≠ []

/-- The last pending timer fires only while a loop is scheduled or running. -/
def Attended : Turn → DispatchService → Prop
  | .timeout r, s => s.timers = [r] → s.Working
  | _, _ => True

/-- The ledger is kept, and what lies in the array is still to be looked at. -/
structure DispatchService.Sound (s : DispatchService) : Prop where
  ledger : s.Ledger
  watched : s.queue ≠ [] → s.Working ∨ s.timers ≠ []

theorem DispatchService.Sound.losesNothing {s : DispatchService} (h : s.Sound) :
    s.LosesNothing := by
  intro hidle
  have hempty : s.queue = [] := by
    by_contra hne
    rcases h.watched hne with (hscheduled | hloops) | htimers
    · exact absurd hidle.2.1 (Nat.pos_iff_ne_zero.mp hscheduled)
    · exact hloops hidle.2.2
    · exact htimers hidle.1
  refine ⟨hempty, fun r hr => (h.ledger.kept r hr).dealtWith ?_ ?_ ?_⟩
  · simp [account, hempty]
  · simp [account, hidle.1]
  · simp [account, hidle.2.2]

/-- A loop goes on as long as the array is not empty. -/
theorem shiftJob_watched (s : DispatchService) :
    (shiftJob s).queue ≠ [] → (shiftJob s).Working := by
  unfold shiftJob
  split
  · next hnil => exact fun hne => absurd hnil hne
  · exact fun _ => Or.inr (by simp)

/-- The only turn that can leave the array unwatched is a timer that fires. -/
theorem step_sound {a : Turn} (hturn : ∀ r, a ≠ .timeout r) {s : DispatchService}
    (h : s.Sound) : (eventLoop.step a s).2.Sound := by
  refine ⟨step_ledger a h.ledger, ?_⟩
  cases a with
  | dispatch id tenantId channel event priority now =>
      exact fun _ => Or.inl (Or.inl (Nat.succ_pos _))
  | immediate =>
      simp only [eventLoop, turn]
      split
      · exact fun hne => Or.inl (shiftJob_watched _ hne)
      · exact h.watched
  | delivered q delivery =>
      simp only [eventLoop, turn]
      split
      · exact fun hne => Or.inl (shiftJob_watched _ hne)
      · exact h.watched
  | timeout q => exact absurd rfl (hturn q)

/-- A timer that fires leaves the array watched exactly when it is attended. -/
theorem timeout_losesNothing_iff {s : DispatchService} (h : s.Sound) (q : Nat) :
    ((eventLoop.step (.timeout q) s).2.LosesNothing ↔ Attended (.timeout q) s) ∧
      (Attended (.timeout q) s → (eventLoop.step (.timeout q) s).2.Sound) := by
  by_cases hset : q ∈ s.timers
  · have hstep : (eventLoop.step (.timeout q) s).2 =
        { s with timers := s.timers.erase q, queue := s.queue ++ [q] } := by
      simp [eventLoop, turn, hset]
    have hlast : s.timers.erase q = [] ↔ s.timers = [q] := by
      rw [List.erase_eq_nil_iff, or_iff_right (List.ne_nil_of_mem hset)]
    have hsound : Attended (.timeout q) s → (eventLoop.step (.timeout q) s).2.Sound := by
      intro hattended
      refine ⟨step_ledger _ h.ledger, fun _ => ?_⟩
      rw [hstep]
      by_cases hnone : s.timers.erase q = []
      · exact Or.inl (hattended (hlast.mp hnone))
      · exact Or.inr hnone
    refine ⟨⟨fun hkept honly => ?_, fun hattended => (hsound hattended).losesNothing⟩, hsound⟩
    -- the job is in the array, so the state cannot be quiescent
    by_contra hidle
    rw [DispatchService.Working, not_or, Nat.not_lt, Nat.le_zero, not_not] at hidle
    rw [hstep] at hkept
    have hempty := (hkept ⟨hlast.mpr honly, hidle.1, hidle.2⟩).1
    exact absurd hempty (by simp)
  · have hstep : (eventLoop.step (.timeout q) s).2 = s := by
      simp [eventLoop, turn, hset]
    rw [hstep]
    have hattended : Attended (.timeout q) s := by
      intro honly
      exact absurd (honly ▸ List.mem_singleton_self q) hset
    exact ⟨⟨fun _ => hattended, fun _ => h.losesNothing⟩, fun _ => h⟩

/-- The quiescent states of a run have dealt with every accepted job exactly when, in the
whole run, the last pending timer fires only while a loop is scheduled or running. -/
theorem dispatch_loses_nothing_iff (turns : List Turn) :
    (∀ ts, ts <+: turns → (eventLoop.exec ts {}).LosesNothing) ↔
      eventLoop.EachStep Attended turns {} := by
  have hstart : Sound {} :=
    ⟨⟨fun r hr => absurd hr (Nat.not_lt_zero r), fun _ _ => rfl⟩, fun hne => absurd rfl hne⟩
  refine eventLoop.prefix_iff_eachStep (I := Sound) (fun s => Sound.losesNothing) ?_ hstart
  intro a _ s h
  cases a with
  | timeout q => exact timeout_losesNothing_iff h q
  | dispatch id tenantId channel event priority now =>
      have hnext := step_sound (a := .dispatch id tenantId channel event priority now) (by simp) h
      exact ⟨⟨fun _ => trivial, fun _ => hnext.losesNothing⟩, fun _ => hnext⟩
  | immediate =>
      have hnext := step_sound (a := .immediate) (by simp) h
      exact ⟨⟨fun _ => trivial, fun _ => hnext.losesNothing⟩, fun _ => hnext⟩
  | delivered q delivery =>
      have hnext := step_sound (a := .delivered q delivery) (by simp) h
      exact ⟨⟨fun _ => trivial, fun _ => hnext.losesNothing⟩, fun _ => hnext⟩

/-- One e-mail on an idle service, whose first delivery the provider reports as failed:
after the back-off nothing is pending, and the job is still in the array. -/
theorem failed_delivery_stranded :
    let s := eventLoop.exec
      [.dispatch "1700000000000-k3j9x2a" "t1" .email "order.created" .normal 1700000000000,
        .immediate, .delivered 0 (.answered false), .timeout 0] {}
    s.Quiescent ∧ s.queue = [0] ∧ ¬ (s.account 0).DealtWith ∧ ¬ s.LosesNothing := by
  intro s
  have hidle : s.Quiescent := by decide +kernel
  have hqueue : s.queue = [0] := by decide +kernel
  have hopen : ¬ (s.account 0).DealtWith := by decide +kernel
  refine ⟨hidle, hqueue, hopen, fun hall => ?_⟩
  exact absurd ((hall hidle).1.symm.trans hqueue) (by simp)

end Notification
end Eleva
