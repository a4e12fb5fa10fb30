import Eleva.Foundation.Liveness
import Eleva.Media.MediaCalls

/-!
# Media - The cleanup queue

The queue of files to be deleted, as the event loop runs it.  {lit}`processQueue` is cut at its
awaits: from one await to the next it runs without a break, so an action is a call of
{lit}`enqueue`, the firing of the timer, the end of a sleep, or the answer of the storage.

Main results:

- Definition {lit}`cleanupQueue`: the queue as a machine.
- Theorem {lit}`Steady.step`: where jobs wait, a run of {lit}`processQueue` is active or the timer
  is pending.
- Theorem {lit}`Accounted.answer`: a job holds the keys that are outstanding.
- Theorem {lit}`cleanup_queue_drains`: every reachable state, by what was enqueued and deleted on
  the way to it, and the end of every fair run.
-/

namespace Eleva
namespace MediaCleanupQueue

open Foundation Database MediaService

/-! ## The state -/

/-- A job, with the number of the {lit}`enqueue` it comes from. -/
structure Job extends CleanupJob where
  number : ℕ
deriving DecidableEq, Repr

/-- What the storage answers to a batch: the keys it failed to delete, or an exception. -/
inductive Outcome where
  | reported (failed : List String)
  | threw
deriving DecidableEq, Repr

/-- The job has failed. -/
def Outcome.isFailure : Outcome → Bool
  | .reported failed => !failed.isEmpty
  | .threw => true

/-- The keys that are tried again. -/
def Outcome.failedKeys (storageKeys : List String) : Outcome → List String
  | .reported failed => failed
  | .threw => storageKeys

/-- A run of {lit}`processQueue`, at the await it has come to. -/
inductive Worker where
  | sleeping (wakesAt : Timestamp)
  | deleting (job : Job)
deriving DecidableEq, Repr

/-- The job that a run holds. -/
def Worker.job? : Worker → Option Job
  | .sleeping _ => none
  | .deleting job => some job

/-- A batch of deletions that the storage has answered. -/
structure DeletionAttempt where
  number : ℕ
  storageKeys : List String
  outcome : Outcome
deriving DecidableEq, Repr

/-- The fields of the service, the clock and the runs of {lit}`processQueue`.  Beside them a
record is kept of the batches enqueued and of the deletions so far. -/
structure QueueState where
  now : Timestamp
  queue : List Job := []
  processing : Bool := false
  timer : Option Timestamp := none
  workers : List Worker := []
  batches : List (List String) := []
  log : List DeletionAttempt := []

/-- The service once it is constructed. -/
def initial (now : Timestamp) : QueueState where
  now := now

/-! ## The methods -/

def scheduleProcessing (s : QueueState) : QueueState :=
  if s.processing then s
  else if s.timer.isSome then s
  else { s with timer := some (s.now + 100) }

/-- The job of a batch that is enqueued. -/
def newJob (type : CleanupType) (storageKeys : List String) (s : QueueState) : Job where
  type := type
  storageKeys := storageKeys
  nextRetryAt := s.now
  number := s.batches.length

def enqueue (type : CleanupType) (storageKeys : List String) (s : QueueState) : QueueState :=
  scheduleProcessing { s with
    queue := s.queue ++ [newJob type storageKeys s]
    batches := s.batches ++ [storageKeys] }

/-- The loop of {lit}`processQueue`, from its head to the next await. -/
def drain (s : QueueState) : QueueState :=
  match s.queue with
  | [] => { s with processing := false }
  | job :: queue =>
      if s.now < job.nextRetryAt then
        { s with queue := queue ++ [job], workers := s.workers ++ [.sleeping (s.now + 100)] }
      else { s with queue := queue, workers := s.workers ++ [.deleting job] }

def processQueue (s : QueueState) : QueueState :=
  drain { s with processing := true, timer := none }

/-- A failed job goes back into the queue, unless it has failed often enough. -/
def afterBatch (job : Job) (outcome : Outcome) (s : QueueState) : QueueState :=
  if outcome.isFailure then
    let attempts := job.attempts + 1
    if attempts < MAX_RETRIES then
      { s with queue := s.queue ++ [{ job with
          storageKeys := outcome.failedKeys job.storageKeys, attempts := attempts
          nextRetryAt := s.now + 2 ^ attempts * 1000 }] }
    else s
  else s

/-! ## The machine -/

/-- What happens next. -/
inductive Action where
  | enqueue (type : CleanupType) (storageKeys : List String)
  | tick (ms : ℕ)
  | fire
  | wake (i : ℕ)
  | answer (i : ℕ) (outcome : Outcome)
deriving DecidableEq, Repr

/-- The storage reports keys of the batch only. -/
def Outcome.about (storageKeys : List String) : Outcome → Bool
  | .reported failed => failed.all (storageKeys.contains ·)
  | .threw => true

/-- A state without one of the runs. -/
def QueueState.withoutWorker (s : QueueState) (i : ℕ) : QueueState :=
  { s with workers := s.workers.eraseIdx i }

/-- The state in which a run goes on with an answer. -/
def answered (i : ℕ) (job : Job) (outcome : Outcome) (s : QueueState) : QueueState :=
  { s.withoutWorker i with log := s.log ++ [⟨job.number, job.storageKeys, outcome⟩] }

/-- One action.  What is not due leaves the state. -/
def step (action : Action) (s : QueueState) : QueueState :=
  match action with
  | .enqueue type storageKeys => enqueue type storageKeys s
  | .tick ms => { s with now := s.now + ms }
  | .fire =>
      match s.timer with
      | some due => if due ≤ s.now then processQueue s else s
      | none => s
  | .wake i =>
      match s.workers[i]? with
      | some (.sleeping wakesAt) => if wakesAt ≤ s.now then drain (s.withoutWorker i) else s
      | _ => s
  | .answer i outcome =>
      match s.workers[i]? with
      | some (.deleting job) =>
          if outcome.about job.storageKeys then
            drain (afterBatch job outcome (answered i job outcome s))
          else s
      | _ => s

/-- The queue as a machine. -/
def cleanupQueue : Machine Action QueueState Unit where
  step action s := ((), step action s)

/-- The batches that a run enqueues. -/
def enqueued (actions : List Action) : List (List String) :=
  actions.filterMap fun
    | .enqueue _ storageKeys => some storageKeys
    | _ => none

/-- The batch of deletions that an action answers: the storage was called with the keys of the job
that the run holds. -/
def answeredDeletion (action : Action) (s : QueueState) : Option DeletionAttempt :=
  match action with
  | .answer i outcome =>
      match s.workers[i]? with
      | some (.deleting job) =>
          if outcome.about job.storageKeys then some ⟨job.number, job.storageKeys, outcome⟩
          else none
      | _ => none
  | _ => none

/-- The batches of deletions that are answered in a run. -/
def deletions : List Action → QueueState → List DeletionAttempt
  | [], _ => []
  | action :: actions, s =>
      (answeredDeletion action s).toList ++ deletions actions (step action s)

/-- The jobs that wait or are being worked on. -/
def QueueState.live (s : QueueState) : List Job :=
  s.queue ++ s.workers.filterMap Worker.job?

/-! ## What is outstanding -/

/-- How often a job has failed. -/
def failures (log : List DeletionAttempt) (number : ℕ) : ℕ :=
  log.countP fun a => a.number == number && a.outcome.isFailure

/-- The storage has reported a key of a job as deleted. -/
def Succeeded (log : List DeletionAttempt) (number : ℕ) (key : String) : Prop :=
  ∃ a ∈ log, a.number = number ∧ key ∈ a.storageKeys ∧
    ∃ failed, a.outcome = .reported failed ∧ key ∉ failed

/-- A key of an enqueued batch has not been reported as deleted, and its job has not failed three
times. -/
structure Outstanding (batches : List (List String)) (log : List DeletionAttempt) (number : ℕ)
    (key : String) : Prop where
  enqueued : ∃ storageKeys, batches[number]? = some storageKeys ∧ key ∈ storageKeys
  kept : ¬Succeeded log number key
  hopeful : failures log number < MAX_RETRIES

/-! ## One run at a time -/

/-- At most one run is active, the flag says whether one is, and where jobs wait a run is active
or the timer is pending. -/
structure Steady (s : QueueState) : Prop where
  one : s.workers.length ≤ 1
  flag : s.processing = !s.workers.isEmpty
  timer : s.timer.isSome = true → s.workers = []
  pending : s.queue ≠ [] → s.workers ≠ [] ∨ s.timer.isSome = true

/-- A run is between two awaits. -/
structure Running (s : QueueState) : Prop where
  workers : s.workers = []
  processing : s.processing = true
  timer : s.timer = none

section OneRun

variable {s : QueueState} {i : ℕ} {w : Worker} {job : Job} {outcome : Outcome}

theorem initial_steady (now : Timestamp) : Steady (initial now) where
  one := Nat.zero_le 1
  flag := rfl
  timer := fun h => by cases h
  pending := fun h => absurd rfl h

/-- The run that goes on is the only one. -/
theorem Steady.only (h : Steady s) (hw : s.workers[i]? = some w) : i = 0 ∧ s.workers = [w] := by
  have hone := h.one
  cases hworkers : s.workers with
  | nil =>
      rw [hworkers] at hw
      simp at hw
  | cons w' rest =>
      rw [hworkers] at hw hone
      have hrest : rest = [] := List.eq_nil_of_length_eq_zero (by simpa using hone)
      subst hrest
      cases i with
      | zero =>
          simp only [List.getElem?_cons_zero, Option.some.injEq] at hw
          rw [hw]
          exact ⟨rfl, rfl⟩
      | succ i => simp at hw

theorem Steady.running (h : Steady s) (hw : s.workers[i]? = some w) :
    Running (s.withoutWorker i) := by
  rcases h.only hw with ⟨rfl, hworkers⟩
  refine ⟨?_, ?_, ?_⟩
  · unfold QueueState.withoutWorker
    simp [hworkers]
  · have hflag := h.flag
    rw [hworkers] at hflag
    exact hflag
  · cases htimer : s.timer with
    | none => exact htimer
    | some due =>
        have hidle := h.timer (by rw [htimer]; rfl)
        rw [hworkers] at hidle
        cases hidle

/-- The loop goes to its next await, or the run ends. -/
theorem Running.drain (h : Running s) : Steady (drain s) := by
  rcases h with ⟨hworkers, hprocessing, htimer⟩
  unfold MediaCleanupQueue.drain
  cases hqueue : s.queue with
  | nil =>
      refine ⟨?_, ?_, ?_, ?_⟩
      · simp [hworkers]
      · simp [hworkers]
      · simp [htimer]
      · simp
  | cons job queue =>
      simp only
      split
      · refine ⟨?_, ?_, ?_, ?_⟩ <;> simp [hworkers, hprocessing, htimer]
      · refine ⟨?_, ?_, ?_, ?_⟩ <;> simp [hworkers, hprocessing, htimer]

theorem Running.afterBatch (h : Running s) : Running (afterBatch job outcome s) := by
  unfold MediaCleanupQueue.afterBatch
  simp only
  split
  · split
    · exact ⟨h.workers, h.processing, h.timer⟩
    · exact h
  · exact h

/-- After an {lit}`enqueue` the queue is looked after. -/
theorem Steady.enqueue (h : Steady s) (type : CleanupType) (storageKeys : List String) :
    Steady (enqueue type storageKeys s) := by
  have hflag := h.flag
  unfold MediaCleanupQueue.enqueue scheduleProcessing
  simp only
  by_cases hprocessing : s.processing = true
  · rw [if_pos hprocessing]
    have hactive : s.workers ≠ [] := by
      rw [hprocessing] at hflag
      simpa using hflag.symm
    exact ⟨h.one, h.flag, h.timer, fun _ => Or.inl hactive⟩
  · rw [if_neg hprocessing]
    have hidle : s.workers = [] := by
      rw [Bool.not_eq_true] at hprocessing
      rw [hprocessing] at hflag
      simpa using hflag.symm
    by_cases htimer : s.timer.isSome = true
    · rw [if_pos htimer]
      exact ⟨h.one, h.flag, h.timer, fun _ => Or.inr htimer⟩
    · rw [if_neg htimer]
      exact ⟨h.one, h.flag, fun _ => hidle, fun _ => Or.inr rfl⟩

/-- Every action keeps the queue looked after. -/
theorem Steady.step (h : Steady s) (action : Action) : Steady (step action s) := by
  cases action with
  | enqueue type storageKeys => exact h.enqueue type storageKeys
  | tick ms => exact ⟨h.one, h.flag, h.timer, h.pending⟩
  | fire =>
      simp only [MediaCleanupQueue.step]
      cases htimer : s.timer with
      | none => exact h
      | some due =>
          simp only
          split
          · have hidle := h.timer (by rw [htimer]; rfl)
            exact Running.drain ⟨hidle, rfl, rfl⟩
          · exact h
  | wake i =>
      simp only [MediaCleanupQueue.step]
      cases hworker : s.workers[i]? with
      | none => exact h
      | some w =>
          cases w with
          | deleting job => exact h
          | sleeping wakesAt =>
              simp only
              split
              · exact (h.running hworker).drain
              · exact h
  | answer i outcome =>
      simp only [MediaCleanupQueue.step]
      cases hworker : s.workers[i]? with
      | none => exact h
      | some w =>
          cases w with
          | sleeping wakesAt => exact h
          | deleting job =>
              simp only
              split
              · have hrunning := h.running hworker
                have hanswered : Running (answered i job outcome s) :=
                  ⟨hrunning.workers, hrunning.processing, hrunning.timer⟩
                exact hanswered.afterBatch.drain
              · exact h

end OneRun

/-! ## The jobs that are live -/

/-- What goes back into the queue after a batch. -/
def requeued (now : Timestamp) (job : Job) (outcome : Outcome) : List Job :=
  if outcome.isFailure && decide (job.attempts + 1 < MAX_RETRIES) then
    [{ job with
      storageKeys := outcome.failedKeys job.storageKeys, attempts := job.attempts + 1
      nextRetryAt := now + 2 ^ (job.attempts + 1) * 1000 }]
  else []

theorem afterBatch_eq (job : Job) (outcome : Outcome) (s : QueueState) :
    afterBatch job outcome s = { s with queue := s.queue ++ requeued s.now job outcome } := by
  unfold afterBatch requeued
  simp only
  cases outcome.isFailure with
  | false => simp
  | true =>
      by_cases hattempts : job.attempts + 1 < MAX_RETRIES
      · simp [hattempts]
      · simp [hattempts]

theorem drain_live (s : QueueState) : (drain s).live.Perm s.live := by
  unfold drain
  cases hqueue : s.queue with
  | nil =>
      simp only [QueueState.live, hqueue]
      exact List.Perm.refl _
  | cons job queue =>
      simp only
      split
      · simp only [QueueState.live, hqueue, List.filterMap_append, List.filterMap_cons,
          Worker.job?, List.filterMap_nil, List.append_nil]
        rw [List.append_assoc, List.singleton_append, List.cons_append]
        exact List.perm_middle
      · simp only [QueueState.live, hqueue, List.filterMap_append, List.filterMap_cons,
          Worker.job?, List.filterMap_nil]
        rw [← List.append_assoc, List.cons_append]
        exact List.perm_append_singleton _ _

@[simp]
theorem drain_log (s : QueueState) : (drain s).log = s.log := by
  unfold drain
  cases s.queue with
  | nil => rfl
  | cons job queue =>
      simp only
      split <;> rfl

@[simp]
theorem drain_batches (s : QueueState) : (drain s).batches = s.batches := by
  unfold drain
  cases s.queue with
  | nil => rfl
  | cons job queue =>
      simp only
      split <;> rfl

/-! ## What an answer changes -/

section Answers

variable {log : List DeletionAttempt} {batches : List (List String)} {number : ℕ} {key : String}
  {job : Job} {outcome : Outcome} {a : DeletionAttempt}

theorem failures_append : failures (log ++ [a]) number =
    failures log number + if a.number = number ∧ a.outcome.isFailure = true then 1 else 0 := by
  unfold failures
  rw [List.countP_append, List.countP_singleton]
  simp only [Bool.and_eq_true, beq_iff_eq]

theorem succeeded_append : Succeeded (log ++ [a]) number key ↔
    Succeeded log number key ∨ a.number = number ∧ key ∈ a.storageKeys ∧
      ∃ failed, a.outcome = .reported failed ∧ key ∉ failed := by
  unfold Succeeded
  simp only [List.mem_append, List.mem_singleton, or_and_right, exists_or, exists_eq_left]

/-- The keys of another job stay outstanding. -/
theorem outstanding_append_of_ne (h : a.number ≠ number) :
    Outstanding batches (log ++ [a]) number key ↔ Outstanding batches log number key := by
  have hfailures : failures (log ++ [a]) number = failures log number := by
    rw [failures_append, if_neg fun hsame => h hsame.1, Nat.add_zero]
  have hsucceeded : Succeeded (log ++ [a]) number key ↔ Succeeded log number key := by
    rw [succeeded_append]
    constructor
    · rintro (hold | ⟨hsame, _⟩)
      · exact hold
      · exact absurd hsame h
    · exact Or.inl
  constructor
  · rintro ⟨hkey, hkept, hhopeful⟩
    rw [hfailures] at hhopeful
    exact ⟨hkey, fun hs => hkept (hsucceeded.mpr hs), hhopeful⟩
  · rintro ⟨hkey, hkept, hhopeful⟩
    exact ⟨hkey, fun hs => hkept (hsucceeded.mp hs), by rw [hfailures]; exact hhopeful⟩

/-- Which keys of a job are outstanding after its batch has been answered. -/
theorem outstanding_append_self (habout : outcome.about job.storageKeys = true)
    (hattempts : job.attempts = failures log job.number)
    (hkeys : ∀ key, key ∈ job.storageKeys ↔ Outstanding batches log job.number key)
    (now : Timestamp) :
    Outstanding batches (log ++ [⟨job.number, job.storageKeys, outcome⟩]) job.number key ↔
      ∃ job' ∈ requeued now job outcome, key ∈ job'.storageKeys := by
  have hfailures : failures (log ++ [⟨job.number, job.storageKeys, outcome⟩]) job.number =
      job.attempts + if outcome.isFailure = true then 1 else 0 := by
    rw [failures_append, hattempts]
    simp
  have hold : Outstanding batches (log ++ [⟨job.number, job.storageKeys, outcome⟩])
      job.number key → key ∈ job.storageKeys := by
    rintro ⟨hkey, hkept, hhopeful⟩
    rw [hkeys]
    refine ⟨hkey, fun hs => hkept (succeeded_append.mpr (Or.inl hs)), ?_⟩
    rw [hfailures] at hhopeful
    omega
  cases outcome with
  | threw =>
      have hrequeued : (∃ job' ∈ requeued now job .threw, key ∈ job'.storageKeys) ↔
          job.attempts + 1 < MAX_RETRIES ∧ key ∈ job.storageKeys := by
        unfold requeued
        by_cases hmore : job.attempts + 1 < MAX_RETRIES
        · simp [Outcome.isFailure, hmore, Outcome.failedKeys]
        · simp [Outcome.isFailure, hmore]
      rw [hrequeued]
      constructor
      · intro h
        have hhopeful := h.hopeful
        rw [hfailures] at hhopeful
        exact ⟨hhopeful, hold h⟩
      · rintro ⟨hmore, hkey⟩
        have hbefore := (hkeys key).mp hkey
        refine ⟨hbefore.enqueued, fun hs => ?_, by rw [hfailures]; exact hmore⟩
        rcases succeeded_append.mp hs with hs | ⟨_, _, failed, houtcome, _⟩
        · exact hbefore.kept hs
        · cases houtcome
  | reported failed =>
      have hsubset : ∀ k ∈ failed, k ∈ job.storageKeys := by
        simpa [Outcome.about] using habout
      have hrequeued : (∃ job' ∈ requeued now job (.reported failed), key ∈ job'.storageKeys) ↔
          job.attempts + 1 < MAX_RETRIES ∧ key ∈ failed := by
        unfold requeued
        by_cases hnone : failed = []
        · simp [Outcome.isFailure, hnone]
        · by_cases hmore : job.attempts + 1 < MAX_RETRIES
          · simp [Outcome.isFailure, hnone, hmore, Outcome.failedKeys]
          · simp [Outcome.isFailure, hmore]
      rw [hrequeued]
      constructor
      · intro h
        have hkey : key ∈ failed := by
          by_contra hdeleted
          exact h.kept (succeeded_append.mpr (Or.inr ⟨rfl, hold h, failed, rfl, hdeleted⟩))
        have hhopeful := h.hopeful
        have hfailure : Outcome.isFailure (.reported failed) = true := by
          simpa [Outcome.isFailure] using List.ne_nil_of_mem hkey
        rw [hfailures, if_pos hfailure] at hhopeful
        exact ⟨hhopeful, hkey⟩
      · rintro ⟨hmore, hkey⟩
        have hbefore := (hkeys key).mp (hsubset key hkey)
        refine ⟨hbefore.enqueued, fun hs => ?_, ?_⟩
        · rcases succeeded_append.mp hs with hs | ⟨_, _, failed', houtcome, hdeleted⟩
          · exact hbefore.kept hs
          · cases houtcome
            exact hdeleted hkey
        · rw [hfailures]
          split <;> omega

end Answers

/-! ## What the live jobs hold -/

/-- Every live job holds the keys of its batch that are outstanding, no other key is outstanding,
and so it was with every batch of deletions. -/
structure Accounted (batches : List (List String)) (log : List DeletionAttempt)
    (live : List Job) : Prop where
  numbers : (live.map (·.number)).Nodup
  known : ∀ job ∈ live, job.number < batches.length
  attempts : ∀ job ∈ live, job.attempts = failures log job.number
  hopeful : ∀ job ∈ live, job.attempts < MAX_RETRIES
  keys : ∀ job ∈ live, ∀ key,
    key ∈ job.storageKeys ↔ Outstanding batches log job.number key
  covered : ∀ number key, Outstanding batches log number key → ∃ job ∈ live, job.number = number
  loggedKnown : ∀ a ∈ log, a.number < batches.length
  logged : ∀ earlier a later, log = earlier ++ a :: later → ∀ key,
    key ∈ a.storageKeys ↔ Outstanding batches earlier a.number key

section Accounts

variable {batches : List (List String)} {log : List DeletionAttempt} {live live' : List Job}
  {job : Job} {outcome : Outcome} {number : ℕ} {key : String} {storageKeys : List String}

theorem accounted_nil : Accounted [] [] [] where
  numbers := List.nodup_nil
  known := fun _ h => by cases h
  attempts := fun _ h => by cases h
  hopeful := fun _ h => by cases h
  keys := fun _ h => by cases h
  covered := fun number key h => by
    rcases h.enqueued with ⟨storageKeys, hbatch, _⟩
    simp at hbatch
  loggedKnown := fun _ h => by cases h
  logged := fun earlier a later h => by simp at h

/-- The order of the live jobs does not matter. -/
theorem Accounted.perm (h : Accounted batches log live) (hperm : live.Perm live') :
    Accounted batches log live' where
  numbers := (hperm.map (·.number)).nodup_iff.mp h.numbers
  known := fun job hjob => h.known job (hperm.mem_iff.mpr hjob)
  attempts := fun job hjob => h.attempts job (hperm.mem_iff.mpr hjob)
  hopeful := fun job hjob => h.hopeful job (hperm.mem_iff.mpr hjob)
  keys := fun job hjob => h.keys job (hperm.mem_iff.mpr hjob)
  covered := fun number key hkey => by
    rcases h.covered number key hkey with ⟨job, hjob, hnumber⟩
    exact ⟨job, hperm.mem_iff.mp hjob, hnumber⟩
  loggedKnown := h.loggedKnown
  logged := h.logged

/-- Another batch does not change what is outstanding of the earlier ones. -/
theorem outstanding_batch_iff (hnumber : number < batches.length) :
    Outstanding (batches ++ [storageKeys]) log number key ↔ Outstanding batches log number key := by
  have hbatch : (batches ++ [storageKeys])[number]? = batches[number]? :=
    List.getElem?_append_left hnumber
  constructor
  · rintro ⟨hkey, hkept, hhopeful⟩
    rw [hbatch] at hkey
    exact ⟨hkey, hkept, hhopeful⟩
  · rintro ⟨hkey, hkept, hhopeful⟩
    exact ⟨by rw [hbatch]; exact hkey, hkept, hhopeful⟩

/-- All keys of a new batch are outstanding. -/
theorem outstanding_new_iff (hlog : ∀ a ∈ log, a.number < batches.length) :
    Outstanding (batches ++ [storageKeys]) log batches.length key ↔ key ∈ storageKeys := by
  have hbatch : (batches ++ [storageKeys])[batches.length]? = some storageKeys := by simp
  have hother : ∀ a ∈ log, a.number ≠ batches.length := fun a ha => Nat.ne_of_lt (hlog a ha)
  constructor
  · rintro ⟨⟨keys, hkeys, hkey⟩, _, _⟩
    rw [hbatch, Option.some.injEq] at hkeys
    rw [hkeys]
    exact hkey
  · intro hkey
    refine ⟨⟨storageKeys, hbatch, hkey⟩, ?_, ?_⟩
    · rintro ⟨a, ha, hnumber, _⟩
      exact hother a ha hnumber
    · have hnone : failures log batches.length = 0 := by
        unfold failures
        rw [List.countP_eq_zero]
        intro a ha
        simp [hother a ha]
      rw [hnone]
      decide

/-- After an {lit}`enqueue` the new job holds the keys of its batch. -/
theorem Accounted.enqueue (h : Accounted batches log live) (hnew : job.number = batches.length)
    (hkeys : job.storageKeys = storageKeys) (hattempts : job.attempts = 0) :
    Accounted (batches ++ [storageKeys]) log (live ++ [job]) where
  numbers := by
    rw [List.map_append, List.map_singleton, List.nodup_append]
    refine ⟨h.numbers, List.nodup_singleton _, ?_⟩
    intro n hn n' hn'
    rcases List.mem_map.mp hn with ⟨old, hold, rfl⟩
    rw [List.mem_singleton.mp hn', hnew]
    exact Nat.ne_of_lt (h.known old hold)
  known := by
    intro j hj
    rw [List.length_append, List.length_singleton]
    rcases List.mem_append.mp hj with hold | hlast
    · exact Nat.lt_succ_of_lt (h.known j hold)
    · rw [List.mem_singleton.mp hlast, hnew]
      exact Nat.lt_succ_self _
  attempts := by
    intro j hj
    rcases List.mem_append.mp hj with hold | hlast
    · exact h.attempts j hold
    · rw [List.mem_singleton.mp hlast, hattempts, hnew]
      unfold failures
      symm
      rw [List.countP_eq_zero]
      intro a ha
      simp [Nat.ne_of_lt (h.loggedKnown a ha)]
  hopeful := by
    intro j hj
    rcases List.mem_append.mp hj with hold | hlast
    · exact h.hopeful j hold
    · rw [List.mem_singleton.mp hlast, hattempts]
      decide
  keys := by
    intro j hj key
    rcases List.mem_append.mp hj with hold | hlast
    · rw [outstanding_batch_iff (h.known j hold)]
      exact h.keys j hold key
    · rw [List.mem_singleton.mp hlast, hnew, outstanding_new_iff h.loggedKnown, hkeys]
  covered := by
    intro number key hkey
    rcases hkey.enqueued with ⟨keys, hbatch, _⟩
    have hbound : number < (batches ++ [storageKeys]).length := by
      by_contra hbeyond
      rw [List.getElem?_eq_none (Nat.le_of_not_lt hbeyond)] at hbatch
      cases hbatch
    rw [List.length_append, List.length_singleton] at hbound
    by_cases hold : number < batches.length
    · rcases h.covered number key ((outstanding_batch_iff hold).mp hkey) with ⟨j, hj, hnumber⟩
      exact ⟨j, List.mem_append_left _ hj, hnumber⟩
    · exact ⟨job, List.mem_append_right _ List.mem_cons_self, by omega⟩
  loggedKnown := by
    intro a ha
    rw [List.length_append]
    exact Nat.lt_of_lt_of_le (h.loggedKnown a ha) (Nat.le_add_right _ _)
  logged := by
    intro earlier a later hlog key
    have hknown : a.number < batches.length := by
      apply h.loggedKnown
      rw [hlog]
      simp
    rw [outstanding_batch_iff hknown]
    exact h.logged earlier a later hlog key

/-- A job that goes back keeps its number and has failed once more. -/
structure GoesBack (job : Job) (outcome : Outcome) (now : Timestamp) (back : Job) : Prop where
  number : back.number = job.number
  attempts : back.attempts = job.attempts + 1
  hopeful : back.attempts < MAX_RETRIES
  failed : outcome.isFailure = true
  only : requeued now job outcome = [back]

theorem goesBack_of_mem {back : Job} {now : Timestamp} (h : back ∈ requeued now job outcome) :
    GoesBack job outcome now back := by
  have hback := h
  unfold requeued at hback
  split at hback
  · rename_i hagain
    have hlist : requeued now job outcome = [back] := by
      unfold requeued
      rw [if_pos hagain, List.mem_singleton.mp hback]
    rw [Bool.and_eq_true, decide_eq_true_eq] at hagain
    rw [List.mem_singleton.mp hback] at hlist ⊢
    exact ⟨rfl, rfl, hagain.2, hagain.1, hlist⟩
  · cases hback

theorem requeued_numbers_nodup (job : Job) (outcome : Outcome) (now : Timestamp) :
    ((requeued now job outcome).map (·.number)).Nodup := by
  unfold requeued
  split
  · exact List.nodup_singleton _
  · exact List.nodup_nil

/-- The numbers of the other live jobs are not that of a job at the storage. -/
theorem Accounted.others (h : Accounted batches log (live ++ [job])) :
    (live.map (·.number)).Nodup ∧ ∀ j ∈ live, job.number ≠ j.number := by
  have hsplit := h.numbers
  rw [List.map_append, List.map_singleton, List.nodup_append] at hsplit
  rcases hsplit with ⟨hnodup, _, hapart⟩
  refine ⟨hnodup, fun j hj hsame => ?_⟩
  exact hapart j.number (List.mem_map_of_mem hj) job.number List.mem_cons_self hsame.symm

section Answer

variable (h : Accounted batches log (live ++ [job])) (now : Timestamp)
include h

theorem Accounted.answer_numbers :
    ((live ++ requeued now job outcome).map (·.number)).Nodup := by
  rw [List.map_append, List.nodup_append]
  refine ⟨h.others.1, requeued_numbers_nodup job outcome now, ?_⟩
  intro n hn n' hn' hsame
  rcases List.mem_map.mp hn with ⟨j, hj, rfl⟩
  rcases List.mem_map.mp hn' with ⟨back, hback, rfl⟩
  rw [(goesBack_of_mem hback).number] at hsame
  exact h.others.2 j hj hsame.symm

theorem Accounted.answer_attempts (j : Job) (hj : j ∈ live ++ requeued now job outcome) :
    j.attempts = failures (log ++ [⟨job.number, job.storageKeys, outcome⟩]) j.number := by
  rcases List.mem_append.mp hj with hold | hback
  · rw [failures_append, if_neg fun hsame => h.others.2 j hold hsame.1, Nat.add_zero]
    exact h.attempts j (List.mem_append_left _ hold)
  · have hgoes := goesBack_of_mem hback
    rw [hgoes.number, failures_append, if_pos ⟨rfl, hgoes.failed⟩, hgoes.attempts,
      h.attempts job (List.mem_append_right _ List.mem_cons_self)]

/-- What is outstanding of the answered job. -/
theorem Accounted.answer_outstanding (habout : outcome.about job.storageKeys = true)
    (key : String) :
    Outstanding batches (log ++ [⟨job.number, job.storageKeys, outcome⟩]) job.number key ↔
      ∃ back ∈ requeued now job outcome, key ∈ back.storageKeys := by
  have hjob : job ∈ live ++ [job] := List.mem_append_right _ List.mem_cons_self
  exact outstanding_append_self habout (h.attempts job hjob) (h.keys job hjob) now

theorem Accounted.answer_keys (habout : outcome.about job.storageKeys = true) (j : Job)
    (hj : j ∈ live ++ requeued now job outcome) (key : String) : key ∈ j.storageKeys ↔
      Outstanding batches (log ++ [⟨job.number, job.storageKeys, outcome⟩]) j.number key := by
  rcases List.mem_append.mp hj with hold | hback
  · rw [outstanding_append_of_ne (h.others.2 j hold)]
    exact h.keys j (List.mem_append_left _ hold) key
  · have hgoes := goesBack_of_mem hback
    rw [hgoes.number, h.answer_outstanding now habout, hgoes.only]
    simp

theorem Accounted.answer_covered (habout : outcome.about job.storageKeys = true)
    (hkey : Outstanding batches (log ++ [⟨job.number, job.storageKeys, outcome⟩]) number key) :
    ∃ j ∈ live ++ requeued now job outcome, j.number = number := by
  by_cases hsame : job.number = number
  · rw [← hsame, h.answer_outstanding now habout] at hkey
    rcases hkey with ⟨back, hback, _⟩
    exact ⟨back, List.mem_append_right _ hback, (goesBack_of_mem hback).number.trans hsame⟩
  · rw [outstanding_append_of_ne hsame] at hkey
    rcases h.covered number key hkey with ⟨j, hj, hnumber⟩
    rcases List.mem_append.mp hj with hold | hlast
    · exact ⟨j, List.mem_append_left _ hold, hnumber⟩
    · rw [List.mem_singleton.mp hlast] at hnumber
      exact absurd hnumber hsame

/-- The answered batch had the keys that were outstanding before. -/
theorem Accounted.answer_logged {earlier later : List DeletionAttempt} {a : DeletionAttempt}
    (hlog : log ++ [⟨job.number, job.storageKeys, outcome⟩] = earlier ++ a :: later)
    (key : String) : key ∈ a.storageKeys ↔ Outstanding batches earlier a.number key := by
  rcases List.eq_nil_or_concat later with rfl | ⟨rest, last, rfl⟩
  · rcases List.append_inj' hlog rfl with ⟨rfl, hlast⟩
    cases hlast
    exact h.keys job (List.mem_append_right _ List.mem_cons_self) key
  · rw [List.concat_eq_append, ← List.cons_append, ← List.append_assoc] at hlog
    rcases List.append_inj' hlog rfl with ⟨hfirst, _⟩
    exact h.logged earlier a rest hfirst key

/-- After an answer the job holds the keys that are left, if it is tried again. -/
theorem Accounted.answer (habout : outcome.about job.storageKeys = true) :
    Accounted batches (log ++ [⟨job.number, job.storageKeys, outcome⟩])
      (live ++ requeued now job outcome) where
  numbers := h.answer_numbers now
  known := by
    intro j hj
    rcases List.mem_append.mp hj with hold | hback
    · exact h.known j (List.mem_append_left _ hold)
    · rw [(goesBack_of_mem hback).number]
      exact h.known job (List.mem_append_right _ List.mem_cons_self)
  attempts := h.answer_attempts now
  hopeful := by
    intro j hj
    rcases List.mem_append.mp hj with hold | hback
    · exact h.hopeful j (List.mem_append_left _ hold)
    · exact (goesBack_of_mem hback).hopeful
  keys := h.answer_keys now habout
  covered _ _ := h.answer_covered now habout
  loggedKnown := by
    intro a ha
    rcases List.mem_append.mp ha with hold | hlast
    · exact h.loggedKnown a hold
    · rw [List.mem_singleton.mp hlast]
      exact h.known job (List.mem_append_right _ List.mem_cons_self)
  logged _ _ _ := h.answer_logged

end Answer

end Accounts

/-! ## Every state of a run -/

/-- What holds in every state of a run. -/
structure Sound (s : QueueState) : Prop where
  steady : Steady s
  accounted : Accounted s.batches s.log s.live

section Runs

variable {s : QueueState} {action : Action} {actions : ℕ → Action} {n m : ℕ}

theorem initial_sound (now : Timestamp) : Sound (initial now) :=
  ⟨initial_steady now, accounted_nil⟩

/-- The new job comes to the live ones. -/
theorem enqueue_live (type : CleanupType) (storageKeys : List String) (s : QueueState) :
    (enqueue type storageKeys s).batches = s.batches ++ [storageKeys] ∧
      (enqueue type storageKeys s).log = s.log ∧
      (enqueue type storageKeys s).live.Perm (s.live ++ [newJob type storageKeys s]) := by
  have hlive : ((s.queue ++ [newJob type storageKeys s]) ++
      s.workers.filterMap Worker.job?).Perm
      (s.queue ++ s.workers.filterMap Worker.job? ++ [newJob type storageKeys s]) := by
    rw [List.append_assoc, List.append_assoc]
    exact List.Perm.append_left _ List.perm_append_comm
  unfold enqueue scheduleProcessing
  simp only
  split
  · exact ⟨rfl, rfl, hlive⟩
  · split
    · exact ⟨rfl, rfl, hlive⟩
    · exact ⟨rfl, rfl, hlive⟩

/-- A run that sleeps holds no job. -/
theorem live_of_sleeping {i : ℕ} {wakesAt : Timestamp} (h : Steady s)
    (hw : s.workers[i]? = some (.sleeping wakesAt)) : (s.withoutWorker i).live = s.live := by
  rcases h.only hw with ⟨rfl, hworkers⟩
  simp [QueueState.live, QueueState.withoutWorker, hworkers, Worker.job?]

/-- A run that waits for the storage holds the job. -/
theorem live_of_deleting {i : ℕ} {job : Job} (h : Steady s)
    (hw : s.workers[i]? = some (.deleting job)) :
    s.live = s.queue ++ [job] ∧ ∀ outcome,
      (drain (afterBatch job outcome (answered i job outcome s))).live.Perm
        (s.queue ++ requeued s.now job outcome) := by
  rcases h.only hw with ⟨rfl, hworkers⟩
  refine ⟨by simp [QueueState.live, hworkers, Worker.job?], fun outcome => ?_⟩
  rw [afterBatch_eq]
  refine (drain_live _).trans (List.Perm.of_eq ?_)
  simp [QueueState.live, answered, QueueState.withoutWorker, hworkers]

/-- The storage answers a batch. -/
def Answers (action : Action) (s : QueueState) : Prop :=
  ∃ i outcome job, action = .answer i outcome ∧ s.workers[i]? = some (.deleting job) ∧
    outcome.about job.storageKeys = true

/-- An action that is neither an {lit}`enqueue` nor an answer keeps the live jobs. -/
theorem step_live (h : Steady s) (hquiet : ∀ type storageKeys, action ≠ .enqueue type storageKeys)
    (hanswer : ¬Answers action s) :
    (step action s).live.Perm s.live ∧ (step action s).batches = s.batches ∧
      (step action s).log = s.log := by
  cases action with
  | enqueue type storageKeys => exact absurd rfl (hquiet type storageKeys)
  | tick ms => exact ⟨List.Perm.refl _, rfl, rfl⟩
  | fire =>
      simp only [step]
      cases htimer : s.timer with
      | none => exact ⟨List.Perm.refl _, rfl, rfl⟩
      | some due =>
          simp only
          split
          · refine ⟨drain_live _, ?_, ?_⟩
            · unfold processQueue
              rw [drain_batches]
            · unfold processQueue
              rw [drain_log]
          · exact ⟨List.Perm.refl _, rfl, rfl⟩
  | wake i =>
      simp only [step]
      cases hworker : s.workers[i]? with
      | none => exact ⟨List.Perm.refl _, rfl, rfl⟩
      | some w =>
          cases w with
          | deleting job => exact ⟨List.Perm.refl _, rfl, rfl⟩
          | sleeping wakesAt =>
              simp only
              split
              · rw [drain_batches, drain_log, ← live_of_sleeping h hworker]
                exact ⟨drain_live _, rfl, rfl⟩
              · exact ⟨List.Perm.refl _, rfl, rfl⟩
  | answer i outcome =>
      simp only [step]
      cases hworker : s.workers[i]? with
      | none => exact ⟨List.Perm.refl _, rfl, rfl⟩
      | some w =>
          cases w with
          | sleeping wakesAt => exact ⟨List.Perm.refl _, rfl, rfl⟩
          | deleting job =>
              simp only
              split
              · rename_i habout
                exact absurd ⟨i, outcome, job, rfl, hworker, habout⟩ hanswer
              · exact ⟨List.Perm.refl _, rfl, rfl⟩

/-- Every action keeps the queue looked after and its keys accounted for. -/
theorem Sound.step (h : Sound s) (action : Action) : Sound (step action s) := by
  refine ⟨h.steady.step action, ?_⟩
  by_cases hanswer : Answers action s
  · rcases hanswer with ⟨i, outcome, job, rfl, hworker, habout⟩
    rcases live_of_deleting h.steady hworker with ⟨hlive, hafter⟩
    have haccounted := h.accounted
    rw [hlive] at haccounted
    have hstep : MediaCleanupQueue.step (.answer i outcome) s =
        drain (afterBatch job outcome (answered i job outcome s)) := by
      simp only [MediaCleanupQueue.step]
      rw [hworker]
      exact if_pos habout
    rw [hstep]
    have hnext := (haccounted.answer s.now habout).perm (hafter outcome).symm
    rw [drain_batches, drain_log, afterBatch_eq]
    rw [afterBatch_eq] at hnext
    exact hnext
  · by_cases hquiet : ∀ type storageKeys, action ≠ .enqueue type storageKeys
    · rcases step_live h.steady hquiet hanswer with ⟨hlive, hbatches, hlog⟩
      rw [hbatches, hlog]
      exact h.accounted.perm hlive.symm
    · simp only [not_forall, not_not] at hquiet
      rcases hquiet with ⟨type, storageKeys, rfl⟩
      rcases enqueue_live type storageKeys s with ⟨hbatches, hlog, hlive⟩
      have hnext : Accounted (s.batches ++ [storageKeys]) s.log
          (s.live ++ [newJob type storageKeys s]) := h.accounted.enqueue rfl rfl rfl
      change Accounted (enqueue type storageKeys s).batches (enqueue type storageKeys s).log
        (enqueue type storageKeys s).live
      rw [hbatches, hlog]
      exact hnext.perm hlive.symm

/-! ## The end of a run -/

/-- A run can go on: its sleep is over, or it waits for the storage. -/
def Worker.Due (now : Timestamp) : Worker → Prop
  | .sleeping wakesAt => wakesAt ≤ now
  | .deleting _ => True

/-- The event loop has something to run, or waits for the storage. -/
def Due (s : QueueState) : Prop :=
  (∃ due, s.timer = some due ∧ due ≤ s.now) ∨ ∃ w ∈ s.workers, w.Due s.now

/-- An action that runs what is due. -/
def Serves (action : Action) (s : QueueState) : Prop :=
  (action = .fire ∧ ∃ due, s.timer = some due ∧ due ≤ s.now) ∨
    (∃ i wakesAt, action = .wake i ∧ s.workers[i]? = some (.sleeping wakesAt) ∧
      wakesAt ≤ s.now) ∨
    Answers action s

/-- An endless run in which time advances beyond every bound, and what is due is run. -/
structure Fair (start : QueueState) (actions : ℕ → Action) : Prop where
  time : ∀ t, ∃ n, t ≤ (cleanupQueue.trace actions start n).now
  serves : ∀ n, Due (cleanupQueue.trace actions start n) →
    ∃ m, n ≤ m ∧ Serves (actions m) (cleanupQueue.trace actions start m)

/-- From some action on there is no {lit}`enqueue`. -/
def Quiet (actions : ℕ → Action) (N : ℕ) : Prop :=
  ∀ n, N ≤ n → ∀ type storageKeys, actions n ≠ .enqueue type storageKeys

/-- How many answers the live jobs can still get. -/
def budget (live : List Job) : ℕ :=
  (live.map fun job => MAX_RETRIES - job.attempts).sum

theorem budget_perm {live live' : List Job} (h : live.Perm live') : budget live = budget live' :=
  (h.map _).sum_eq

theorem budget_append (live live' : List Job) :
    budget (live ++ live') = budget live + budget live' := by
  unfold budget
  rw [List.map_append, List.sum_append]

theorem budget_requeued {job : Job} (hhopeful : job.attempts < MAX_RETRIES) (now : Timestamp)
    (outcome : Outcome) : budget (requeued now job outcome) < budget [job] := by
  have hsingle : ∀ j : Job, budget [j] = MAX_RETRIES - j.attempts := by
    intro j
    simp [budget]
  rw [hsingle]
  unfold requeued
  split
  · rw [hsingle]
    simp only
    omega
  · have hnone : budget [] = 0 := rfl
    rw [hnone]
    omega

/-- Every answer uses up some of the budget. -/
theorem budget_answer (h : Sound s) (hanswer : Answers action s) :
    budget (step action s).live < budget s.live := by
  rcases hanswer with ⟨i, outcome, job, rfl, hworker, habout⟩
  rcases live_of_deleting h.steady hworker with ⟨hlive, hafter⟩
  have hstep : MediaCleanupQueue.step (.answer i outcome) s =
      drain (afterBatch job outcome (answered i job outcome s)) := by
    simp only [MediaCleanupQueue.step]
    rw [hworker]
    exact if_pos habout
  have hhopeful : job.attempts < MAX_RETRIES := by
    apply h.accounted.hopeful
    rw [hlive]
    exact List.mem_append_right _ List.mem_cons_self
  rw [hstep, budget_perm (hafter outcome), hlive, budget_append, budget_append]
  have hless := budget_requeued hhopeful s.now outcome
  omega

/-- The clock does not go back. -/
theorem step_now (action : Action) (s : QueueState) : s.now ≤ (step action s).now := by
  have hdrain : ∀ s, (drain s).now = s.now := by
    intro s
    unfold drain
    cases s.queue with
    | nil => rfl
    | cons job queue =>
        simp only
        split <;> rfl
  cases action with
  | enqueue type storageKeys =>
      simp only [step, enqueue, scheduleProcessing]
      split
      · exact Int.le_refl _
      · split <;> exact Int.le_refl _
  | tick ms => exact Int.le_add_of_nonneg_right (Int.natCast_nonneg ms)
  | fire =>
      simp only [step]
      split
      · split
        · unfold processQueue
          rw [hdrain]
        · exact Int.le_refl _
      · exact Int.le_refl _
  | wake i =>
      simp only [step]
      split
      · split
        · rw [hdrain]
          exact Int.le_refl _
        · exact Int.le_refl _
      · exact Int.le_refl _
  | answer i outcome =>
      simp only [step]
      split
      · split
        · rw [hdrain, afterBatch_eq]
          exact Int.le_refl _
        · exact Int.le_refl _
      · exact Int.le_refl _

/-- An action that runs nothing leaves the runs and the timer. -/
theorem step_idle (hquiet : ∀ type storageKeys, action ≠ .enqueue type storageKeys)
    (hserves : ¬Serves action s) :
    (step action s).workers = s.workers ∧ (step action s).timer = s.timer := by
  cases action with
  | enqueue type storageKeys => exact absurd rfl (hquiet type storageKeys)
  | tick ms => exact ⟨rfl, rfl⟩
  | fire =>
      simp only [step]
      cases htimer : s.timer with
      | none => exact ⟨rfl, htimer⟩
      | some due =>
          simp only
          split
          · rename_i hdue
            exact absurd (Or.inl ⟨rfl, due, htimer, hdue⟩) hserves
          · exact ⟨rfl, htimer⟩
  | wake i =>
      simp only [step]
      cases hworker : s.workers[i]? with
      | none => exact ⟨rfl, rfl⟩
      | some w =>
          cases w with
          | deleting job => exact ⟨rfl, rfl⟩
          | sleeping wakesAt =>
              simp only
              split
              · rename_i hdue
                exact absurd (Or.inr (Or.inl ⟨i, wakesAt, rfl, hworker, hdue⟩)) hserves
              · exact ⟨rfl, rfl⟩
  | answer i outcome =>
      simp only [step]
      cases hworker : s.workers[i]? with
      | none => exact ⟨rfl, rfl⟩
      | some w =>
          cases w with
          | sleeping wakesAt => exact ⟨rfl, rfl⟩
          | deleting job =>
              simp only
              split
              · rename_i habout
                exact absurd (Or.inr (Or.inr ⟨i, outcome, job, rfl, hworker, habout⟩)) hserves
              · exact ⟨rfl, rfl⟩

/-- Where all jobs may be tried, the loop takes the next one. -/
theorem drain_deletes (hworkers : s.workers = []) (hqueue : s.queue ≠ [])
    (hdue : ∀ job ∈ s.queue, job.nextRetryAt ≤ s.now) :
    ∃ job, (drain s).workers = [.deleting job] := by
  unfold drain
  cases hjobs : s.queue with
  | nil => exact absurd hjobs hqueue
  | cons job queue =>
      have hnow : ¬s.now < job.nextRetryAt :=
        Int.not_lt.mpr (hdue job (by rw [hjobs]; exact List.mem_cons_self))
      simp only
      rw [if_neg hnow]
      exact ⟨job, by simp [hworkers]⟩

/-- What is run takes a job to the storage, where all jobs may be tried and none is there. -/
theorem serves_deletes (h : Sound s) (hserves : Serves action s) (hanswer : ¬Answers action s)
    (hlive : s.live ≠ []) (hdue : ∀ job ∈ s.live, job.nextRetryAt ≤ s.now) :
    ∃ job, (step action s).workers = [.deleting job] := by
  rcases hserves with ⟨rfl, due, htimer, hnow⟩ | ⟨i, wakesAt, rfl, hworker, hnow⟩ | hserved
  · have hidle := h.steady.timer (by rw [htimer]; rfl)
    have hqueue : s.live = s.queue := by simp [QueueState.live, hidle]
    rw [hqueue] at hlive hdue
    simp only [step, htimer, if_pos hnow]
    exact drain_deletes (s := { s with processing := true, timer := none }) hidle hlive hdue
  · have hrunning := h.steady.running hworker
    have hsame := live_of_sleeping h.steady hworker
    have hqueue : s.live = s.queue := by
      rw [← hsame]
      unfold QueueState.live
      rw [hrunning.workers]
      exact List.append_nil _
    rw [hqueue] at hlive hdue
    simp only [step, hworker, if_pos hnow]
    exact drain_deletes hrunning.workers hlive hdue
  · exact absurd hserved hanswer

theorem exists_bound (live : List Job) : ∃ t : Timestamp, ∀ job ∈ live, job.nextRetryAt ≤ t := by
  induction live with
  | nil => exact ⟨0, fun _ h => by cases h⟩
  | cons job live ih =>
      rcases ih with ⟨t, ht⟩
      refine ⟨max job.nextRetryAt t, fun j hj => ?_⟩
      rcases List.mem_cons.mp hj with rfl | hrest
      · exact Int.le_max_left _ _
      · exact Int.le_trans (ht j hrest) (Int.le_max_right _ _)

theorem trace_sound (hs : Sound s) (n : ℕ) : Sound (cleanupQueue.trace actions s n) :=
  Machine.trace_invariant cleanupQueue (fun action _ h => h.step action) hs n

theorem trace_now (hnm : n ≤ m) :
    (cleanupQueue.trace actions s n).now ≤ (cleanupQueue.trace actions s m).now := by
  induction m with
  | zero =>
      have hn : n = 0 := by omega
      rw [hn]
  | succ m ih =>
      by_cases hn : n = m + 1
      · rw [hn]
      · exact Int.le_trans (ih (by omega)) (step_now _ _)

/-- From some action on nothing is enqueued, and the storage answers nothing. -/
structure Stalled (start : QueueState) (actions : ℕ → Action) (n : ℕ) : Prop where
  quiet : Quiet actions n
  unanswered : ∀ m, n ≤ m → ¬Answers (actions m) (cleanupQueue.trace actions start m)

/-- While nothing is answered the jobs stay the same. -/
theorem Stalled.live (h : Stalled s actions n) (hs : Sound s) (hm : n ≤ m) :
    (cleanupQueue.trace actions s m).live.Perm (cleanupQueue.trace actions s n).live := by
  induction m with
  | zero =>
      have hzero : n = 0 := by omega
      rw [hzero]
  | succ m ih =>
      by_cases hlast : n = m + 1
      · rw [hlast]
      · have hle : n ≤ m := by omega
        exact (step_live (trace_sound hs m).steady (h.quiet m hle) (h.unanswered m hle)).1.trans
          (ih hle)

theorem Stalled.live_ne_nil (h : Stalled s actions n) (hs : Sound s)
    (hlive : (cleanupQueue.trace actions s n).live ≠ []) (hm : n ≤ m) :
    (cleanupQueue.trace actions s m).live ≠ [] := by
  intro hempty
  have hperm := h.live hs hm
  rw [hempty] at hperm
  exact hlive hperm.nil_eq.symm

/-- From some time on all of them may be tried. -/
theorem Stalled.exists_due (h : Stalled s actions n) (hs : Sound s) (hfair : Fair s actions) :
    ∃ k, n ≤ k ∧ ∀ m, k ≤ m → ∀ job ∈ (cleanupQueue.trace actions s m).live,
      job.nextRetryAt ≤ (cleanupQueue.trace actions s m).now := by
  rcases exists_bound (cleanupQueue.trace actions s n).live with ⟨t, ht⟩
  rcases hfair.time t with ⟨n', hn'⟩
  refine ⟨max n n', by omega, fun m hm job hjob => ?_⟩
  have hbound := ht job ((h.live hs (by omega)).mem_iff.mp hjob)
  exact Int.le_trans hbound (Int.le_trans hn' (trace_now (by omega)))

/-- No run waits for the storage: the next action that is due would be its answer. -/
theorem Stalled.not_deleting (h : Stalled s actions n) (hs : Sound s) (hfair : Fair s actions)
    (hm : n ≤ m) (job : Job) : (cleanupQueue.trace actions s m).workers ≠ [.deleting job] := by
  intro hworkers
  have hwaits : Due (cleanupQueue.trace actions s m) :=
    Or.inr ⟨.deleting job, by rw [hworkers]; exact List.mem_cons_self, trivial⟩
  rcases hfair.serves m hwaits with ⟨k, hmk, hserves⟩
  rcases exists_first (P := fun k => Serves (actions k) (cleanupQueue.trace actions s k)) hmk
    hserves with ⟨k', hmk', hserves', hbefore⟩
  have hstill : (cleanupQueue.trace actions s k').workers = [.deleting job] := by
    rw [← hworkers]
    exact cleanupQueue.trace_unchanged (f := QueueState.workers) hmk' fun j hj hjk =>
      (step_idle (h.quiet j (by omega)) (hbefore j hj hjk)).1
  rcases hserves' with ⟨_, due, htimer, _⟩ | ⟨i, wakesAt, _, hworker, _⟩ | hanswered
  · have hidle := (trace_sound hs k').steady.timer (by rw [htimer]; rfl)
    rw [hstill] at hidle
    cases hidle
  · have honly := ((trace_sound hs k').steady.only hworker).2
    rw [hstill] at honly
    cases honly
  · exact h.unanswered k' (by omega) hanswered

/-- Where all jobs may be tried nothing is run any more. -/
theorem Stalled.idle (h : Stalled s actions n) (hs : Sound s) (hfair : Fair s actions)
    (hlive : (cleanupQueue.trace actions s n).live ≠ []) (hm : n ≤ m)
    (hdue : ∀ job ∈ (cleanupQueue.trace actions s m).live,
      job.nextRetryAt ≤ (cleanupQueue.trace actions s m).now) :
    ¬Serves (actions m) (cleanupQueue.trace actions s m) := by
  intro hserves
  rcases serves_deletes (trace_sound hs m) hserves (h.unanswered m hm)
    (h.live_ne_nil hs hlive hm) hdue with ⟨job, hworkers⟩
  exact h.not_deleting hs hfair (Nat.le_succ_of_le hm) job hworkers

/-- A fair run in which nothing is run from some action on has nothing to run. -/
theorem not_due_of_idle (hfair : Fair s actions) {k : ℕ}
    (hidle : ∀ m, k ≤ m → ¬Serves (actions m) (cleanupQueue.trace actions s m)) (hm : k ≤ m) :
    ¬Due (cleanupQueue.trace actions s m) := by
  intro hnow
  rcases hfair.serves m hnow with ⟨j, hmj, hserves⟩
  exact hidle j (by omega) hserves

/-- What is pending becomes due, so such a run has no run of {lit}`processQueue` and no timer. -/
theorem nothing_pending (hfair : Fair s actions) {k : ℕ} (hquiet : Quiet actions k)
    (hidle : ∀ m, k ≤ m → ¬Serves (actions m) (cleanupQueue.trace actions s m)) :
    (cleanupQueue.trace actions s k).workers = [] ∧
      (cleanupQueue.trace actions s k).timer = none := by
  have hfixed : ∀ m, k ≤ m →
      (cleanupQueue.trace actions s m).workers = (cleanupQueue.trace actions s k).workers ∧
        (cleanupQueue.trace actions s m).timer = (cleanupQueue.trace actions s k).timer := by
    intro m hm
    constructor
    · exact cleanupQueue.trace_unchanged (f := QueueState.workers) hm fun j hj _ =>
        (step_idle (hquiet j hj) (hidle j hj)).1
    · exact cleanupQueue.trace_unchanged (f := QueueState.timer) hm fun j hj _ =>
        (step_idle (hquiet j hj) (hidle j hj)).2
  constructor
  · rw [List.eq_nil_iff_forall_not_mem]
    intro w hw
    cases w with
    | deleting job =>
        exact not_due_of_idle hfair hidle (Nat.le_refl k) (Or.inr ⟨.deleting job, hw, trivial⟩)
    | sleeping wakesAt =>
        rcases hfair.time wakesAt with ⟨j, hj⟩
        have hle : k ≤ max k j := by omega
        refine not_due_of_idle hfair hidle hle (Or.inr ⟨.sleeping wakesAt, ?_, ?_⟩)
        · rw [(hfixed _ hle).1]
          exact hw
        · exact Int.le_trans hj (trace_now (by omega))
  · cases htimer : (cleanupQueue.trace actions s k).timer with
    | none => rfl
    | some due =>
        rcases hfair.time due with ⟨j, hj⟩
        have hle : k ≤ max k j := by omega
        refine absurd (Or.inl ⟨due, ?_, ?_⟩) (not_due_of_idle hfair hidle hle)
        · rw [(hfixed _ hle).2]
          exact htimer
        · exact Int.le_trans hj (trace_now (by omega))

/-- A fair run without another {lit}`enqueue` comes to an answer while jobs are live. -/
theorem exists_answer (hs : Sound s) (hfair : Fair s actions) {N : ℕ} (hquiet : Quiet actions N)
    (hn : N ≤ n) (hlive : (cleanupQueue.trace actions s n).live ≠ []) :
    ∃ m, n ≤ m ∧ Answers (actions m) (cleanupQueue.trace actions s m) := by
  by_contra hnone
  have hstalled : Stalled s actions n :=
    ⟨fun m hm => hquiet m (by omega), fun m hm h => hnone ⟨m, hm, h⟩⟩
  rcases hstalled.exists_due hs hfair with ⟨k, hk, hdue⟩
  have hidle : ∀ m, k ≤ m → ¬Serves (actions m) (cleanupQueue.trace actions s m) :=
    fun m hm => hstalled.idle hs hfair hlive (by omega) (hdue m hm)
  rcases nothing_pending hfair (fun m hm => hquiet m (by omega)) hidle with ⟨hworkers, htimer⟩
  -- Without runs the live jobs are in the queue, and a queue is looked after.
  have hqueue : (cleanupQueue.trace actions s k).queue ≠ [] := by
    have hjobs := hstalled.live_ne_nil hs hlive hk
    unfold QueueState.live at hjobs
    rwa [hworkers, List.filterMap_nil, List.append_nil] at hjobs
  rcases (trace_sound hs k).steady.pending hqueue with hactive | hset
  · exact hactive hworkers
  · rw [htimer] at hset
    cases hset

/-- In the end of a fair run without another {lit}`enqueue` no job is live. -/
theorem eventually_drained (hs : Sound s) (hfair : Fair s actions) {N : ℕ}
    (hquiet : Quiet actions N) :
    ∃ n, N ≤ n ∧ ∀ m, n ≤ m → (cleanupQueue.trace actions s m).live = [] := by
  have hmono : ∀ n, N ≤ n → budget (cleanupQueue.trace actions s (n + 1)).live ≤
      budget (cleanupQueue.trace actions s n).live := by
    intro n hn
    by_cases hanswer : Answers (actions n) (cleanupQueue.trace actions s n)
    · exact Nat.le_of_lt (budget_answer (trace_sound hs n) hanswer)
    · exact Nat.le_of_eq (budget_perm
        (step_live (trace_sound hs n).steady (hquiet n hn) hanswer).1)
  have hempty : ∀ n, budget (cleanupQueue.trace actions s n).live = 0 →
      (cleanupQueue.trace actions s n).live = [] := by
    intro n hzero
    cases hlive : (cleanupQueue.trace actions s n).live with
    | nil => rfl
    | cons job live =>
        have hsound : Sound (cleanupQueue.trace actions s n) := trace_sound hs n
        have hhopeful := hsound.accounted.hopeful job
          (by rw [hlive]; exact List.mem_cons_self)
        rw [hlive, budget, List.map_cons, List.sum_cons] at hzero
        omega
  have hshrinks : ∀ n, N ≤ n → 0 < budget (cleanupQueue.trace actions s n).live →
      ∃ m, n ≤ m ∧ budget (cleanupQueue.trace actions s (m + 1)).live <
        budget (cleanupQueue.trace actions s m).live := by
    intro n hn hpositive
    have hlive : (cleanupQueue.trace actions s n).live ≠ [] := by
      intro hnone
      rw [hnone] at hpositive
      cases hpositive
    rcases exists_answer hs hfair hquiet hn hlive with ⟨m, hm, hanswer⟩
    exact ⟨m, hm, budget_answer (trace_sound hs m) hanswer⟩
  rcases @eventually_zero (fun n => budget (cleanupQueue.trace actions s n).live) N hmono
    hshrinks with ⟨n, hn, hzero⟩
  exact ⟨n, hn, fun m hm => hempty m (hzero m hm)⟩

end Runs

/-! ## The queue as a whole -/

/-- The record of a state is that of the run. -/
theorem step_record (action : Action) (s : QueueState) :
    (step action s).batches = s.batches ++ enqueued [action] ∧
      (step action s).log = s.log ++ (answeredDeletion action s).toList := by
  cases action with
  | enqueue type storageKeys =>
      rcases enqueue_live type storageKeys s with ⟨hbatches, hlog, _⟩
      exact ⟨hbatches, hlog.trans (List.append_nil _).symm⟩
  | tick ms => exact ⟨(List.append_nil _).symm, (List.append_nil _).symm⟩
  | fire =>
      have hnone : enqueued [Action.fire] = [] := rfl
      simp only [step, answeredDeletion, hnone, Option.toList_none, List.append_nil]
      cases s.timer with
      | none => exact ⟨rfl, rfl⟩
      | some due =>
          simp only
          split
          · exact ⟨drain_batches _, drain_log _⟩
          · exact ⟨rfl, rfl⟩
  | wake i =>
      have hnone : enqueued [Action.wake i] = [] := rfl
      simp only [step, answeredDeletion, hnone, Option.toList_none, List.append_nil]
      split
      · split
        · exact ⟨drain_batches _, drain_log _⟩
        · exact ⟨rfl, rfl⟩
      · exact ⟨rfl, rfl⟩
  | answer i outcome =>
      have hnone : enqueued [Action.answer i outcome] = [] := rfl
      simp only [step, answeredDeletion, hnone, List.append_nil]
      split
      · split
        · rw [drain_batches, drain_log, afterBatch_eq]
          exact ⟨rfl, rfl⟩
        · exact ⟨rfl, (List.append_nil _).symm⟩
      · exact ⟨rfl, (List.append_nil _).symm⟩

theorem enqueued_cons (action : Action) (actions : List Action) :
    enqueued (action :: actions) = enqueued [action] ++ enqueued actions := by
  unfold enqueued
  rw [← List.filterMap_append, List.singleton_append]

theorem exec_record (actions : List Action) (s : QueueState) :
    (cleanupQueue.exec actions s).batches = s.batches ++ enqueued actions ∧
      (cleanupQueue.exec actions s).log = s.log ++ deletions actions s := by
  induction actions generalizing s with
  | nil => exact ⟨(List.append_nil _).symm, (List.append_nil _).symm⟩
  | cons action actions ih =>
      rcases step_record action s with ⟨hbatches, hlog⟩
      rcases ih (step action s) with ⟨hmore, hlater⟩
      constructor
      · rw [enqueued_cons, ← List.append_assoc, ← hbatches]
        exact hmore
      · rw [deletions, ← List.append_assoc, ← hlog]
        exact hlater

/-- Waiting jobs are looked after, every batch of deletions was about the keys of its job that were
outstanding, and every key that is outstanding now is held by a job that waits or is worked on. -/
structure Reliable (batches : List (List String)) (log : List DeletionAttempt) (s : QueueState) :
    Prop where
  attended : s.queue ≠ [] → s.workers ≠ [] ∨ s.timer.isSome = true
  attempted : ∀ earlier a later, log = earlier ++ a :: later → ∀ key,
    key ∈ a.storageKeys ↔ Outstanding batches earlier a.number key
  held : ∀ number key, Outstanding batches log number key →
    ∃ job ∈ s.live, job.number = number ∧ key ∈ job.storageKeys

theorem Sound.reliable {s : QueueState} (h : Sound s) : Reliable s.batches s.log s where
  attended := h.steady.pending
  attempted := h.accounted.logged
  held := fun number key hkey => by
    rcases h.accounted.covered number key hkey with ⟨job, hjob, hnumber⟩
    refine ⟨job, hjob, hnumber, ?_⟩
    rw [h.accounted.keys job hjob, hnumber]
    exact hkey

/-- The states that the service reaches are reliable about what was enqueued and deleted. -/
theorem reachable_reliable (now : Timestamp) (actions : List Action) :
    Reliable (enqueued actions) (deletions actions (initial now))
      (cleanupQueue.exec actions (initial now)) := by
  have hsound : Sound (cleanupQueue.exec actions (initial now)) :=
    cleanupQueue.run_invariant (I := Sound) (fun action _ _ h => h.step action)
      (initial_sound now)
  have hreliable := hsound.reliable
  rcases exec_record actions (initial now) with ⟨hbatches, hlog⟩
  rw [hbatches, hlog] at hreliable
  exact hreliable

/-- In every reachable state the queue is reliable about the batches enqueued and the deletions
answered so far, and once there is no further {lit}`enqueue` a fair run comes to an empty queue and
to no outstanding key. -/
theorem cleanup_queue_drains (now : Timestamp) :
    (∀ actions, Reliable (enqueued actions) (deletions actions (initial now))
      (cleanupQueue.exec actions (initial now))) ∧
      ∀ actions N, Fair (initial now) actions → Quiet actions N →
        ∃ n, ∀ m, n ≤ m →
          (cleanupQueue.exec (firstOf actions m) (initial now)).queue = [] ∧
          ∀ number key, ¬Outstanding (enqueued (firstOf actions m))
            (deletions (firstOf actions m) (initial now)) number key := by
  refine ⟨reachable_reliable now, fun actions N hfair hquiet => ?_⟩
  rcases eventually_drained (initial_sound now) hfair hquiet with ⟨n, _, hdrained⟩
  refine ⟨n, fun m hm => ?_⟩
  have hlive := hdrained m hm
  rw [cleanupQueue.trace_eq_exec] at hlive
  refine ⟨(List.append_eq_nil_iff.mp hlive).1, fun number key hkey => ?_⟩
  rcases (reachable_reliable now (firstOf actions m)).held number key hkey with ⟨job, hjob, _⟩
  rw [hlive] at hjob
  cases hjob

/-! ## One batch -/

/-- A batch is enqueued, the timer fires, the storage answers, and time goes on. -/
def oneBatch : ℕ → Action
  | 0 => .enqueue .DELETE ["tenants/tenant-a/logo/1-aa-original.webp"]
  | 1 => .tick 100
  | 2 => .fire
  | 3 => .answer 0 (.reported [])
  | _ => .tick 1

/-- After the answer only the clock changes. -/
theorem oneBatch_rest (k : ℕ) : cleanupQueue.trace oneBatch (initial 0) (4 + k) =
    { cleanupQueue.trace oneBatch (initial 0) 4 with now := 100 + k } := by
  induction k with
  | zero => rfl
  | succ k ih =>
      have htick : oneBatch (4 + k) = .tick 1 := by
        rw [Nat.add_comm]
        rfl
      rw [← Nat.add_assoc, cleanupQueue.trace_succ, ih, htick]
      simp only [cleanupQueue, step]
      congr 1

theorem oneBatch_fair : Fair (initial 0) oneBatch where
  time := fun t => by
    refine ⟨4 + t.toNat, ?_⟩
    rw [oneBatch_rest]
    have hle := Int.self_le_toNat t
    simp only
    exact Int.le_trans hle (Int.le_add_of_nonneg_left (by decide))
  serves := fun n hdue => by
    by_cases hn : n ≤ 3
    · exact ⟨3, hn, Or.inr (Or.inr ⟨0, .reported [], _, rfl, rfl, rfl⟩)⟩
    · have hk : n = 4 + (n - 4) := by omega
      rw [hk, oneBatch_rest] at hdue
      rcases hdue with ⟨due, htimer, _⟩ | ⟨w, hw, _⟩
      · cases htimer
      · cases hw

theorem oneBatch_quiet : Quiet oneBatch 1 := by
  intro n hn type storageKeys henqueue
  match n, hn, henqueue with
  | 1, _, h => cases h
  | 2, _, h => cases h
  | 3, _, h => cases h
  | _ + 4, _, h => cases h

/-- The batch is done with in the end. -/
theorem oneBatch_drains :
    ∃ n, ∀ m, n ≤ m → (cleanupQueue.exec (firstOf oneBatch m) (initial 0)).queue = [] ∧
      ∀ number key, ¬Outstanding (enqueued (firstOf oneBatch m))
        (deletions (firstOf oneBatch m) (initial 0)) number key :=
  (cleanup_queue_drains 0).2 oneBatch 1 oneBatch_fair oneBatch_quiet

/-- The batch was enqueued, and its file was deleted. -/
example : deletions (firstOf oneBatch 4) (initial 0) =
    [⟨0, ["tenants/tenant-a/logo/1-aa-original.webp"], .reported []⟩] := by
  decide +kernel

end MediaCleanupQueue
end Eleva
