import Eleva.Foundation.Interleaving
import Eleva.Media.MediaService

/-!
# Media - Concurrent uploads, removals and cleanups

The calls of the media service in their steps: the lookups, every file that is written or deleted,
every transaction and what is queued after it.  Between two steps of a call the others make theirs.
The worker of the cleanup queue is a call as well.

Main results:

- Definition {lit}`mediaCalls`: the calls as a system of interleaved steps.
-/

namespace Eleva
namespace MediaService

open Foundation Database

/-! ## Steps -/

/-- How a step ends: it does its work, fails, or is broken off, a transaction by the database and
a batch of deletions by the storage. -/
inductive Event where
  | works
  | fails
  | aborts
deriving DecidableEq, Repr

/-- What the surroundings choose for a step: the ids and the clock, how the step ends, and which
of the writes under way it is about. -/
structure Choice where
  env : MediaEnv
  event : Event := .works
  file : String := ""

/-- The surroundings of a call in the database context of a tenant. -/
def Choice.inTenant (choice : Choice) (T : Id) : MediaEnv :=
  { choice.env with context := { tenantId := some T } }

/-- What an upload has found before its first attempt. -/
structure Lookups where
  mediaType : MediaType
  existingByChecksum : Option Media
  existing : Option Media
deriving DecidableEq

/-- How far an upload has come. -/
inductive UploadStage where
  | start
  | hashed (mediaType : MediaType) (existingByChecksum : Option Media)
  | attempting (found : Lookups) (attempt : ℕ)
  | writing (found : Lookups) (attempt : ℕ) (target : AttemptFiles)
      (attemptStorageKeys outstanding : List String)
  | committing (found : Lookups) (attempt : ℕ) (target : AttemptFiles)
      (attemptStorageKeys : List String)
  | clearing (found : Lookups) (attempt : ℕ) (outstanding failed : List String)
  | committed (result : UploadResult)
  | finished (answer : Except AppError Media)
deriving DecidableEq

/-- How far a removal has come. -/
inductive RemovalStage where
  | start
  | removing (media : Media) (attempt : ℕ)
  | removed (media : Media) (shouldDeleteFiles : Bool)
  | finished (answer : Except AppError Unit)
deriving DecidableEq

/-- What the worker of the cleanup queue does. -/
inductive WorkerStage where
  | idle
  | deleting (job : CleanupJob) (outstanding failed : List String)
deriving DecidableEq

/-- A call and how far it has come. -/
inductive Phase where
  | upload (call : UploadCall) (stage : UploadStage)
  | removal (id tenantId : Id) (stage : RemovalStage)
  | worker (stage : WorkerStage)

/-- {lit}`MediaCleanupQueueService.MAX_RETRIES`. -/
def MAX_RETRIES : ℕ := 3

/-- A file less in the storage. -/
def MediaState.withoutFile (s : MediaState) (file : String) : MediaState :=
  { s with files := s.files.filter (· != file) }

/-- A database method as a step, and what follows it. -/
def afterStatement {α β : Type} (choice : Choice) (x : Service α) (s : MediaState)
    (throws : AppError → β) (returns : α → β) : MediaState × β :=
  if choice.event = .works then
    match onWorld x s with
    | (.error e, s') => (s', throws e)
    | (.ok a, s') => (s', returns a)
  else (s, throws .failure)

/-- After an aborted transaction the next attempt begins, unless it was the last one. -/
def retryOr {β : Type} (attempt : ℕ) (again : ℕ → β) (throws : AppError → β) : β :=
  if attempt = MAX_SERIALIZATION_RETRIES then throws serializationFailure else again (attempt + 1)

/-- A transaction as a step, and what follows it. -/
def afterTransaction {α β : Type} (choice : Choice) (x : Service α) (s : MediaState)
    (aborted : β) (throws : AppError → β) (returns : α → β) : MediaState × β :=
  if choice.event = .aborts then (s, aborted)
  else afterStatement choice (Fallible.transaction x) s throws returns

/-- A step of an upload. -/
def uploadStep (deleteMany : DeleteMany) (choice : Choice) (call : UploadCall) (s : MediaState)
    (stage : UploadStage) : MediaState × UploadStage :=
  let env := choice.inTenant call.tenantId
  let throws (e : AppError) : UploadStage := .finished (.error e)
  match stage with
  | .start =>
      match validateUpload call with
      | .error e => (s, throws e)
      | .ok mediaType =>
          afterStatement choice (findByChecksum env.toEnv call) s throws (.hashed mediaType)
  | .hashed mediaType existingByChecksum =>
      afterStatement choice (findActive env.toEnv call mediaType) s throws fun existing =>
        .attempting ⟨mediaType, existingByChecksum, existing⟩ 1
  | .attempting found attempt =>
      match found.existingByChecksum with
      | some row => (s, .committing found attempt (reusedFiles row) [])
      | none =>
          match newFiles env call found.mediaType with
          | .error e => (s, throws e)
          | .ok target =>
              let keys := attemptStorageKeys call found.mediaType env.now
              (s, .writing found attempt target keys keys)
  | .writing found attempt target keys outstanding =>
      if outstanding.isEmpty then (s, .committing found attempt target keys)
      else if choice.event ≠ .works then (s, throws .failure)
      else if outstanding.contains choice.file then
        ((writeFile choice.file s).2,
          .writing found attempt target keys (outstanding.filter (· != choice.file)))
      else (s, stage)
  | .committing found attempt target keys =>
      afterTransaction choice
        (uploadTransaction deleteMany env call found.mediaType target found.existing) s
        (if keys.isEmpty then retryOr attempt (.attempting found) throws
          else .clearing found attempt keys [])
        throws .committed
  | .clearing found attempt [] failed =>
      ((if failed.isEmpty then s else (enqueue env.now .ROLLBACK failed s).2),
        retryOr attempt (.attempting found) throws)
  | .clearing found attempt (file :: outstanding) failed =>
      match choice.event with
      | .works => (s.withoutFile file, .clearing found attempt outstanding failed)
      | .fails => (s, .clearing found attempt outstanding (failed ++ [file]))
      | .aborts => (s, throws .failure)
  | .committed result => ((enqueueReplaced env result s).2, .finished (.ok result.media))
  | .finished answer => (s, .finished answer)

/-- A removal after its lookup. -/
def removalFound (id : Id) : Option Media → RemovalStage
  | none => .finished (.error (mediaNotFound id))
  | some row => .removing row 1

/-- A step of a removal. -/
def removalStep (deleteMany : DeleteMany) (choice : Choice) (id tenantId : Id) (s : MediaState)
    (stage : RemovalStage) : MediaState × RemovalStage :=
  let env := choice.inTenant tenantId
  let throws (e : AppError) : RemovalStage := .finished (.error e)
  match stage with
  | .start =>
      afterStatement choice (findMedia env.toEnv id tenantId) s throws (removalFound id)
  | .removing row attempt =>
      afterTransaction choice (removeTransaction deleteMany env.toEnv id tenantId) s
        (retryOr attempt (.removing row) throws) throws (.removed row)
  | .removed row shouldDeleteFiles =>
      ((if shouldDeleteFiles then (enqueue env.now .DELETE (cleanupKeys row.storageKey) s).2
        else s), .finished (.ok ()))
  | .finished answer => (s, .finished answer)

/-- A job goes back into the queue, unless it has been tried often enough. -/
def requeue (now : Timestamp) (job : CleanupJob) (storageKeys : List String) (s : MediaState) :
    MediaState :=
  let attempts := job.attempts + 1
  if attempts < MAX_RETRIES then
    { s with queue := s.queue ++ [{ job with
        storageKeys := storageKeys, attempts := attempts
        nextRetryAt := now + 2 ^ attempts * 1000 }] }
  else s

/-- A step of {lit}`processQueue`. -/
def workerStep (choice : Choice) (s : MediaState) (stage : WorkerStage) :
    MediaState × WorkerStage :=
  let now := choice.env.now
  match stage with
  | .idle =>
      match s.queue with
      | [] => (s, .idle)
      | job :: jobs =>
          if now < job.nextRetryAt then ({ s with queue := jobs ++ [job] }, .idle)
          else ({ s with queue := jobs }, .deleting job job.storageKeys [])
  | .deleting job [] failed =>
      ((if failed.isEmpty then s else requeue now job failed s), .idle)
  | .deleting job (file :: outstanding) failed =>
      match choice.event with
      | .works => (s.withoutFile file, .deleting job outstanding failed)
      | .fails => (s, .deleting job outstanding (failed ++ [file]))
      | .aborts => (requeue now job job.storageKeys s, .idle)

/-- The calls of the media service, the scheduled one making its next step. -/
def mediaCalls (ι : Type) (deleteMany : DeleteMany) : CallSystem ι Choice MediaState Phase where
  next _ choice s phase :=
    match phase with
    | .upload call stage =>
        ((uploadStep deleteMany choice call s stage).1,
          .upload call (uploadStep deleteMany choice call s stage).2)
    | .removal id tenantId stage =>
        ((removalStep deleteMany choice id tenantId s stage).1,
          .removal id tenantId (removalStep deleteMany choice id tenantId s stage).2)
    | .worker stage => ((workerStep choice s stage).1, .worker (workerStep choice s stage).2)

/-- The call has not begun. -/
def Phase.Starts : Phase → Prop
  | .upload _ stage => stage = .start
  | .removal _ _ stage => stage = .start
  | .worker stage => stage = .idle

/-! ## The rows after a step -/

section Rows

variable (choice : Choice) (s : MediaState)

/-- A statement that throws leaves the state, once it is run as a transaction. -/
theorem afterTransaction_cases {α β : Type} (x : Service α) (aborted : β) (throws : AppError → β)
    (returns : α → β) :
    (∃ b, (b = aborted ∨ ∃ e, b = throws e) ∧
        afterTransaction choice x s aborted throws returns = (s, b)) ∨
      ∃ a w', choice.event = .works ∧ x s.world = (.ok a, w') ∧
        afterTransaction choice x s aborted throws returns =
          ({ s with world := w' }, returns a) := by
  unfold afterTransaction afterStatement
  cases hevent : choice.event with
  | aborts => exact Or.inl ⟨_, Or.inl rfl, rfl⟩
  | fails => exact Or.inl ⟨_, Or.inr ⟨_, rfl⟩, rfl⟩
  | works =>
      rw [if_neg (by decide), if_pos rfl]
      unfold onWorld
      rcases hrun : Fallible.transaction x s.world with ⟨e | a, w'⟩
      · rw [Fallible.transaction_error hrun]
        exact Or.inl ⟨_, Or.inr ⟨e, rfl⟩, rfl⟩
      · exact Or.inr ⟨a, w', rfl, Fallible.transaction_eq_ok.mp hrun, rfl⟩

/-- A lookup as a step leaves the state. -/
theorem afterStatement_read {α β : Type} {x : Service α} (hx : Fallible.ReadsOnly x)
    (throws : AppError → β) (returns : α → β) :
    ∃ b, ((∃ e, b = throws e) ∨ ∃ a, x s.world = (.ok a, s.world) ∧ b = returns a) ∧
      afterStatement choice x s throws returns = (s, b) := by
  unfold afterStatement
  split
  · unfold onWorld
    have hkept := hx s.world
    rcases hrun : x s.world with ⟨e | a, w'⟩
    · rw [hrun] at hkept
      simp only at hkept
      subst hkept
      exact ⟨_, Or.inl ⟨e, rfl⟩, rfl⟩
    · rw [hrun] at hkept
      simp only at hkept
      subst hkept
      exact ⟨_, Or.inr ⟨a, rfl, rfl⟩, rfl⟩
  · exact ⟨_, Or.inl ⟨_, rfl⟩, rfl⟩

theorem afterStatement_state {α β : Type} {x : Service α} (hx : Fallible.ReadsOnly x)
    (throws : AppError → β) (returns : α → β) :
    (afterStatement choice x s throws returns).1 = s := by
  rcases afterStatement_read choice s hx throws returns with ⟨b, _, hstep⟩
  rw [hstep]

end Rows

end MediaService
end Eleva
