import Mathlib.Data.List.MinMax
import Eleva.Foundation.Rounds
import Eleva.Media.MediaCalls

/-!
# Media - What a failed upload leaves

An upload with every step that can fail: the lookups, the image library, the save of each file,
and the transaction.  The handler of an attempt deletes the files of the attempt, but only where
the error is one that makes another attempt, and only the files whose keys it has noted by then.
A save that is refused may have stored its object all the same, and a save that outlives the
refusal of another one may store it after the handler.

Main results:

- Definition {lit}`upload`: the call, and {lit}`settled`: its end, all its saves being over.
- Theorem {lit}`leavesNothing_iff`: an upload that throws leaves nothing behind exactly when every
  object of its attempts is covered by a later clean-up.
- Theorem {lit}`refused_save_leaves_files`: a save that the storage refuses.
-/

namespace Eleva
namespace FailedUploads

open Foundation Database MediaService

/-! ## Errors -/

/-- The text of an exception. -/
def messageOf : AppError → String
  | .notFound message => message
  | .badRequest message => message
  | .forbidden message => message
  | .unauthorized message => message
  | .serviceUnavailable message => message
  | .conflict message => message
  | .error message => message
  | .client (.failSafe message) => message
  | .client .recordNotFound => "An operation failed because it depends on one or more records " ++
      "that were required but not found."
  | .client .constraintViolation => "Constraint failed"
  | .client (.unknownArgument name) => "Unknown argument " ++ name
  | .failure => "Failure"

/-- What a step throws: an exception of the services, or an error of the storage or of the
database with its code. -/
inductive Thrown where
  | app (e : AppError)
  | external (code : Option String) (message : String)
deriving DecidableEq, Repr

def PG_SERIALIZATION_ERROR : String := "40001"

def PG_DEADLOCK_ERROR : String := "40P01"

/-- The errors that make another attempt. -/
def isRetryableError : Thrown → Bool
  | .app e => includes (messageOf e) "serialization failure"
  | .external code message =>
      code == some PG_SERIALIZATION_ERROR || code == some PG_DEADLOCK_ERROR ||
        includes message "serialization failure"

/-! ## The surroundings of an upload -/

/-- How the save of a file ends: the error that refuses it, whether the object is stored all the
same, the place of its end among the saves of its attempt, and the attempt that is running when
the object gets into the storage, should the save outlive a refusal. -/
structure Save where
  error : Option Thrown := none
  leavesObject : Bool := false
  place : ℕ := 0
  arrives : ℕ := 0

/-- The object of the save gets into the storage. -/
def Save.stores (save : Save) : Bool :=
  save.error.isNone || save.leavesObject

/-- What one attempt meets. -/
structure AttemptEnv where
  uuid : ℕ → Id
  now : Timestamp
  save : String → Save := fun _ => {}
  undeletable : String → Bool := fun _ => false
  commitError : Option Thrown := none

/-- What a call meets: besides its attempts, the errors that refuse its two lookups. -/
structure UploadEnv extends MediaEnv where
  checksumLookupError : Option Thrown := none
  activeLookupError : Option Thrown := none
  attempts : ℕ → AttemptEnv

/-- The surroundings of an attempt's statements. -/
def UploadEnv.during (env : UploadEnv) (n : ℕ) : MediaEnv :=
  { env.toMediaEnv with uuid := (env.attempts n).uuid, now := (env.attempts n).now }

/-! ## The state -/

/-- The database and the storage, and of the call itself: the objects it has written, those that
are still under way with the attempt they arrive in, and the jobs it has enqueued. -/
structure UploadState where
  world : World
  files : List String
  written : List String := []
  underway : List (ℕ × String) := []
  enqueued : List CleanupJob := []

/-- A step of an upload. -/
abbrev UploadMethod (α : Type) := Fallible UploadState Thrown α

/-- The call before its first step. -/
def start (world : World) (files : List String) : UploadState where
  world := world
  files := files

/-- Run a database method. -/
def onDatabase {α : Type} (x : Service α) : UploadMethod α := fun s =>
  ((x s.world).1.mapError .app, { s with world := (x s.world).2 })

/-- Stop where there is an error. -/
def refuse (error : Option Thrown) : UploadMethod Unit :=
  match error with
  | some e => Fallible.throw e
  | none => pure ()

/-! ## Saving files -/

/-- The error that {lit}`Promise.all` rejects with: that of the save that is refused first. -/
def rejection (env : AttemptEnv) (keys : List String) : Option Thrown :=
  ((keys.filter fun key => (env.save key).error.isSome).argmin
    fun key => (env.save key).place).bind fun key => (env.save key).error

/-- The attempt in which the object of a save arrives.  {lit}`Promise.all` waits for all saves
unless one is refused. -/
def arrival (env : AttemptEnv) (n : ℕ) (keys : List String) (key : String) : ℕ :=
  if (rejection env keys).isNone then n else max n (env.save key).arrives

/-- The saves of an attempt whose objects get into the storage. -/
def saves (env : AttemptEnv) (n : ℕ) (keys : List String) : List (ℕ × String) :=
  (keys.filter fun key => (env.save key).stores).map fun key => (arrival env n keys key, key)

/-- The objects under way that arrive until an attempt. -/
def arrived (n : ℕ) (s : UploadState) : List String :=
  (s.underway.filter fun u => u.1 ≤ n).map (·.2)

/-- These objects get into the storage. -/
def arrive (n : ℕ) (s : UploadState) : UploadState :=
  { s with
    files := arrived n s ++ s.files
    written := arrived n s ++ s.written
    underway := s.underway.filter fun u => n < u.1 }

/-- The saves of an attempt begin. -/
def launch (env : AttemptEnv) (n : ℕ) (keys : List String) (s : UploadState) : UploadState :=
  { s with underway := s.underway ++ saves env n keys }

/-- Save the files of an attempt in parallel. -/
def saveFiles (env : AttemptEnv) (n : ℕ) (keys : List String) : UploadMethod Unit := fun s =>
  ((match rejection env keys with
    | some e => .error e
    | none => .ok ()), arrive n (launch env n keys s))

/-- The keys that the handler knows while the files are saved.  The key of a document is noted
after its save. -/
def notedKeys (mediaType : MediaType) (keys : List String) : List String :=
  match mediaType with
  | .DOCUMENT => []
  | _ => keys

/-! ## Clearing up -/

/-- {lit}`storageProvider.deleteBatch`: it answers with the files that it failed to delete. -/
def deleteBatch (env : AttemptEnv) (keys : List String) : UploadMethod (List String) := fun s =>
  (.ok (keys.filter env.undeletable),
    { s with files := s.files.filter fun file => !keys.contains file || env.undeletable file })

/-- {lit}`cleanupQueue.enqueue`. -/
def enqueue (now : Timestamp) (type : CleanupType) (storageKeys : List String) :
    UploadMethod Unit :=
  Fallible.modify fun s => { s with
    enqueued := s.enqueued ++
      [{ type := type, storageKeys := storageKeys, nextRetryAt := now }] }

/-- Delete the files of a failed attempt; what cannot be deleted now is enqueued. -/
def deleteAttemptFiles (env : AttemptEnv) (keys : List String) : UploadMethod Unit :=
  if keys.isEmpty then pure ()
  else do
    let failed ← deleteBatch env keys
    if failed.isEmpty then pure () else enqueue env.now .ROLLBACK failed

/-- The handler of an attempt. -/
def cleaningUp {α : Type} (env : AttemptEnv) (keys : List String) (x : UploadMethod α) :
    UploadMethod α := fun s =>
  match x s with
  | (.error e, s') =>
      if isRetryableError e then
        (do deleteAttemptFiles env keys; Fallible.throw e : UploadMethod α) s'
      else (.error e, s')
  | returned => returned

/-! ## The call -/

/-- A transaction, unless the database refuses it. -/
def commit {α : Type} (env : AttemptEnv) (x : Service α) : UploadMethod α := do
  refuse env.commitError
  onDatabase (Fallible.transaction x)

/-- One attempt of an upload. -/
def uploadAttempt (deleteMany : DeleteMany) (env : UploadEnv) (call : UploadCall)
    (found : Lookups) (n : ℕ) : UploadMethod UploadResult :=
  match found.existingByChecksum with
  | some row =>
      commit (env.attempts n) (uploadTransaction deleteMany (env.during n) call found.mediaType
        (reusedFiles row) found.existing)
  | none => do
      let target ← Fallible.reads fun _ =>
        (newFiles (env.during n) call found.mediaType).mapError .app
      let keys := attemptStorageKeys call found.mediaType (env.attempts n).now
      cleaningUp (env.attempts n) (notedKeys found.mediaType keys)
        (saveFiles (env.attempts n) n keys)
      cleaningUp (env.attempts n) keys
        (commit (env.attempts n) (uploadTransaction deleteMany (env.during n) call
          found.mediaType target found.existing))

/-- Try again after an error that allows it, up to a number of attempts. -/
def serializableRetry {α : Type} (attempt : ℕ → UploadMethod α) : ℕ → UploadMethod α
  | 0 => Fallible.throw (.app (.error "Unreachable: serializableRetry exceeded retries"))
  | remaining + 1 => fun s =>
      match attempt (MAX_SERIALIZATION_RETRIES - remaining) s with
      | (.error e, s') =>
          if isRetryableError e && remaining != 0 then serializableRetry attempt remaining s'
          else (.error e, s')
      | returned => returned

/-- The checks and the lookups before the first attempt. -/
def lookUp (env : UploadEnv) (call : UploadCall) : UploadMethod Lookups := do
  let mediaType ← Fallible.reads fun _ => (validateUpload call).mapError .app
  refuse env.checksumLookupError
  let existingByChecksum ← onDatabase (findByChecksum env.toEnv call)
  refuse env.activeLookupError
  let existing ← onDatabase (findActive env.toEnv call mediaType)
  return { mediaType := mediaType, existingByChecksum := existingByChecksum, existing := existing }

/-- The files of a replaced row are deleted where no other row has them. -/
def enqueueReplaced (env : UploadEnv) (result : UploadResult) : UploadMethod Unit :=
  match result.oldStorageKey with
  | none => pure ()
  | some oldStorageKey =>
      if result.shouldDeleteOldFiles then enqueue env.now .REPLACE (cleanupKeys oldStorageKey)
      else pure ()

/-- Upload a file for an entity. -/
def upload (deleteMany : DeleteMany) (env : UploadEnv) (call : UploadCall) :
    UploadMethod Media := do
  let found ← lookUp env call
  let result ← serializableRetry (uploadAttempt deleteMany env call found)
    MAX_SERIALIZATION_RETRIES
  enqueueReplaced env result
  return result.media

/-- All objects that are still under way get into the storage. -/
def settle (s : UploadState) : UploadState :=
  { s with
    files := s.underway.map (·.2) ++ s.files
    written := s.underway.map (·.2) ++ s.written
    underway := [] }

/-- The end of a call, all its saves being over. -/
def settled (deleteMany : DeleteMany) (env : UploadEnv) (call : UploadCall) (s : UploadState) :
    Except Thrown Media × UploadState :=
  ((upload deleteMany env call s).1, settle (upload deleteMany env call s).2)

/-! ## What is left behind -/

/-- A file waits for its deletion in a job of the call. -/
def Enqueued (s : UploadState) (file : String) : Prop :=
  ∃ job ∈ s.enqueued, file ∈ job.storageKeys

/-- Every object that the call wrote has been deleted or enqueued. -/
def Clean (s : UploadState) : Prop :=
  ∀ file ∈ s.written, file ∈ s.files → Enqueued s file

/-- A call that throws leaves no object behind, and no change of the database. -/
def LeavesNothing (deleteMany : DeleteMany) (env : UploadEnv) (call : UploadCall) (world : World)
    (files : List String) : Prop :=
  ∀ e s', settled deleteMany env call (start world files) = (.error e, s') →
    Clean s' ∧ s'.world = world

/-! ## How the attempts end -/

section Attempts

variable (deleteMany : DeleteMany) (env : UploadEnv) (call : UploadCall) (found : Lookups)
  (world : World)

/-- The keys of an attempt's files.  Files that are used again are not saved, nor those of a
picture that cannot be read. -/
def keysOf (n : ℕ) : List String :=
  match found.existingByChecksum, newFiles (env.during n) call found.mediaType with
  | none, .ok _ => attemptStorageKeys call found.mediaType (env.attempts n).now
  | _, _ => []

/-- The error that the saves of an attempt end with. -/
def saveError (n : ℕ) : Option Thrown :=
  rejection (env.attempts n) (keysOf env call found n)

/-- The error of a result. -/
def errorOf {α : Type} : Except AppError α → Option Thrown
  | .error e => some (.app e)
  | .ok _ => none

/-- The error that the transaction of an attempt ends with. -/
def transactionError (n : ℕ) (target : AttemptFiles) : Option Thrown :=
  (env.attempts n).commitError.or
    (errorOf (uploadTransaction deleteMany (env.during n) call found.mediaType target
      found.existing world).1)

/-- The error that an attempt ends with. -/
def attemptError (n : ℕ) : Option Thrown :=
  match found.existingByChecksum with
  | some row => transactionError deleteMany env call found world n (reusedFiles row)
  | none =>
      match newFiles (env.during n) call found.mediaType with
      | .error e => some (.app e)
      | .ok target =>
          (saveError env call found n).or
            (transactionError deleteMany env call found world n target)

/-- An attempt ends with an error that allows another one. -/
def retryable (n : ℕ) : Bool :=
  (attemptError deleteMany env call found world n).any isRetryableError

/-- The call throws after a number of attempts. -/
structure GivesUp (n : ℕ) : Prop where
  started : 1 ≤ n
  bounded : n ≤ MAX_SERIALIZATION_RETRIES
  retried : ∀ j, 1 ≤ j → j < n → retryable deleteMany env call found world j = true
  failed : (attemptError deleteMany env call found world n).isSome = true
  last : retryable deleteMany env call found world n = true → n = MAX_SERIALIZATION_RETRIES

/-- The objects of an attempt that get into the storage. -/
def storedKeys (n : ℕ) : List String :=
  (keysOf env call found n).filter fun key => ((env.attempts n).save key).stores

/-- The attempt in which an object of an attempt arrives. -/
def arrivalOf (n : ℕ) (key : String) : ℕ :=
  arrival (env.attempts n) n (keysOf env call found n) key

/-- The keys that the handler of an attempt deletes. -/
def cleanedKeys (n : ℕ) : List String :=
  if retryable deleteMany env call found world n then
    if (saveError env call found n).isSome then
      notedKeys found.mediaType (keysOf env call found n)
    else keysOf env call found n
  else []

/-- One of the first attempts has cleared up after an object of an attempt: it deleted the key
when the object had arrived, or could not delete the key and enqueued it. -/
def Covered (n i : ℕ) (key : String) : Prop :=
  ∃ j, 1 ≤ j ∧ j ≤ n ∧ key ∈ cleanedKeys deleteMany env call found world j ∧
    (arrivalOf env call found i key ≤ j ∨ (env.attempts j).undeletable key = true)

/-! ## The state after an attempt -/

/-- The state after the files of a failed attempt have been deleted. -/
def cleaned (env : AttemptEnv) (keys : List String) (s : UploadState) : UploadState :=
  { s with
    files := s.files.filter fun file => !keys.contains file || env.undeletable file
    enqueued := s.enqueued ++
      if (keys.filter env.undeletable).isEmpty then []
      else [{ type := .ROLLBACK, storageKeys := keys.filter env.undeletable
              nextRetryAt := env.now }] }

/-- The state after a failed attempt. -/
def afterAttempt (n : ℕ) (s : UploadState) : UploadState :=
  cleaned (env.attempts n) (cleanedKeys deleteMany env call found world n)
    (arrive n (launch (env.attempts n) n (keysOf env call found n) s))

/-- The state after a number of failed attempts. -/
def afterAttempts (files : List String) : ℕ → UploadState
  | 0 => start world files
  | n + 1 => afterAttempt deleteMany env call found world (n + 1) (afterAttempts files n)

theorem cleaned_nil (env : AttemptEnv) (s : UploadState) : cleaned env [] s = s := by
  simp [cleaned]

theorem arrive_idle {n : ℕ} {s : UploadState} (h : s.underway = []) : arrive n s = s := by
  rcases s with ⟨world, files, written, underway, enqueued⟩
  simp only at h
  subst h
  rfl

theorem deleteAttemptFiles_run (env : AttemptEnv) (keys : List String) (s : UploadState) :
    deleteAttemptFiles env keys s = (.ok (), cleaned env keys s) := by
  unfold deleteAttemptFiles
  by_cases hkeys : keys = []
  · rw [hkeys, cleaned_nil]
    rfl
  · have hempty : keys.isEmpty = false := by simpa using hkeys
    rw [hempty, if_neg (by decide)]
    have hdelete : deleteBatch env keys s = (.ok (keys.filter env.undeletable), _) := rfl
    rw [Fallible.bind_of_ok hdelete]
    unfold cleaned
    by_cases hfailed : (keys.filter env.undeletable).isEmpty = true
    · rw [if_pos hfailed, if_pos hfailed, List.append_nil]
      rfl
    · rw [if_neg hfailed, if_neg hfailed]
      rfl

/-- A step that throws under the handler. -/
theorem cleaningUp_error {α : Type} {env : AttemptEnv} {keys : List String}
    {x : UploadMethod α} {e : Thrown} {s s' : UploadState} (h : x s = (.error e, s')) :
    cleaningUp env keys x s =
      (.error e, cleaned env (if isRetryableError e = true then keys else []) s') := by
  unfold cleaningUp
  rw [h]
  simp only
  by_cases he : isRetryableError e = true
  · rw [if_pos he, if_pos he]
    exact Fallible.bind_of_ok (deleteAttemptFiles_run env keys s')
  · rw [if_neg he, if_neg he, cleaned_nil]

theorem cleaningUp_ok {α : Type} {env : AttemptEnv} {keys : List String}
    {x : UploadMethod α} {a : α} {s s' : UploadState} (h : x s = (.ok a, s')) :
    cleaningUp env keys x s = (.ok a, s') := by
  unfold cleaningUp
  rw [h]

/-- How the transaction of an attempt ends. -/
theorem commit_run {α : Type} (env : AttemptEnv) (x : Service α) (s : UploadState) :
    (∀ e, env.commitError.or (errorOf (x s.world).1) = some e → commit env x s = (.error e, s)) ∧
      (env.commitError.or (errorOf (x s.world).1) = none →
        ∃ a w', commit env x s = (.ok a, { s with world := w' })) := by
  unfold commit
  cases hrefused : env.commitError with
  | some e =>
      refine ⟨fun e' he => ?_, fun hnone => by simp at hnone⟩
      simp only [Option.some_or, Option.some.injEq] at he
      rw [← he]
      exact Fallible.bind_of_error rfl
  | none =>
      have hpass : (refuse none : UploadMethod Unit) s = (.ok (), s) := rfl
      rw [Fallible.bind_of_ok hpass]
      rcases hrun : x s.world with ⟨e | a, w'⟩
      · have hundone : Fallible.transaction x s.world = (.error e, s.world) := by
          unfold Fallible.transaction
          rw [hrun]
        refine ⟨fun e' he => ?_, fun hnone => by simp [errorOf] at hnone⟩
        simp only [Option.none_or, errorOf, Option.some.injEq] at he
        rw [← he]
        unfold onDatabase
        rw [hundone]
        rfl
      · refine ⟨fun e' he => by simp [errorOf] at he, fun _ => ⟨a, w', ?_⟩⟩
        unfold onDatabase
        rw [Fallible.transaction_eq_ok.mpr hrun]
        rfl

theorem notedKeys_nil (mediaType : MediaType) : notedKeys mediaType [] = [] := by
  cases mediaType <;> rfl

theorem cleanedKeys_of_no_keys {n : ℕ} (hkeys : keysOf env call found n = []) :
    cleanedKeys deleteMany env call found world n = [] := by
  unfold cleanedKeys
  rw [hkeys, notedKeys_nil]
  simp

/-- An attempt without files leaves the state. -/
theorem afterAttempt_of_no_keys {n : ℕ} {s : UploadState}
    (hkeys : keysOf env call found n = []) (hidle : s.underway = []) :
    afterAttempt deleteMany env call found world n s = s := by
  unfold afterAttempt
  rw [cleanedKeys_of_no_keys deleteMany env call found world hkeys, cleaned_nil, hkeys]
  have hlaunch : launch (env.attempts n) n [] s = s := by
    simp [launch, saves]
  rw [hlaunch]
  exact arrive_idle hidle

/-- The keys that the handler deletes, where the error is known. -/
theorem cleanedKeys_eq {n : ℕ} {e : Thrown}
    (herror : attemptError deleteMany env call found world n = some e) :
    cleanedKeys deleteMany env call found world n =
      if isRetryableError e = true then
        if (saveError env call found n).isSome then
          notedKeys found.mediaType (keysOf env call found n)
        else keysOf env call found n
      else [] := by
  unfold cleanedKeys retryable
  rw [herror]
  rfl

/-- An attempt ends as its error says. -/
def EndsAsSaid (n : ℕ) (s : UploadState) : Prop :=
  (∀ e, attemptError deleteMany env call found world n = some e →
    uploadAttempt deleteMany env call found n s =
      (.error e, afterAttempt deleteMany env call found world n s)) ∧
  (attemptError deleteMany env call found world n = none →
    ∃ result s', uploadAttempt deleteMany env call found n s = (.ok result, s'))

/-- An attempt that uses files again saves nothing. -/
theorem keysOf_reused {n : ℕ} {row : Media} (hreused : found.existingByChecksum = some row) :
    keysOf env call found n = [] := by
  unfold keysOf
  rw [hreused]

/-- An attempt that uses files again is its transaction. -/
theorem reused_endsAsSaid {n : ℕ} {s : UploadState} {row : Media} (hworld : s.world = world)
    (hidle : s.underway = []) (hreused : found.existingByChecksum = some row) :
    EndsAsSaid deleteMany env call found world n s := by
  have herror : attemptError deleteMany env call found world n =
      transactionError deleteMany env call found world n (reusedFiles row) := by
    unfold attemptError
    rw [hreused]
  have hattempt : uploadAttempt deleteMany env call found n =
      commit (env.attempts n) (uploadTransaction deleteMany (env.during n) call
        found.mediaType (reusedFiles row) found.existing) := by
    unfold uploadAttempt
    rw [hreused]
  unfold EndsAsSaid
  rw [herror, hattempt, afterAttempt_of_no_keys deleteMany env call found world
    (keysOf_reused env call found hreused) hidle]
  unfold transactionError
  rw [← hworld]
  have hcommit := commit_run (env.attempts n) (uploadTransaction deleteMany
    (env.during n) call found.mediaType (reusedFiles row) found.existing) s
  refine ⟨hcommit.1, fun hnone => ?_⟩
  rcases hcommit.2 hnone with ⟨result, w', hrun⟩
  exact ⟨result, _, hrun⟩

/-- An attempt for a new file. -/
theorem uploadAttempt_new {n : ℕ} (hnew : found.existingByChecksum = none) :
    uploadAttempt deleteMany env call found n = (do
      let target ← Fallible.reads fun _ =>
        (newFiles (env.during n) call found.mediaType).mapError .app
      let keys := attemptStorageKeys call found.mediaType (env.attempts n).now
      cleaningUp (env.attempts n) (notedKeys found.mediaType keys)
        (saveFiles (env.attempts n) n keys)
      cleaningUp (env.attempts n) keys
        (commit (env.attempts n) (uploadTransaction deleteMany (env.during n) call
          found.mediaType target found.existing))) := by
  unfold uploadAttempt
  rw [hnew]

/-- A picture that cannot be read is refused before anything is saved. -/
theorem unreadable_endsAsSaid {n : ℕ} {s : UploadState} {e : AppError} (hidle : s.underway = [])
    (hnew : found.existingByChecksum = none)
    (htarget : newFiles (env.during n) call found.mediaType = .error e) :
    EndsAsSaid deleteMany env call found world n s := by
  have hkeys : keysOf env call found n = [] := by
    unfold keysOf
    rw [hnew, htarget]
  have herror : attemptError deleteMany env call found world n = some (.app e) := by
    unfold attemptError
    rw [hnew, htarget]
  unfold EndsAsSaid
  rw [herror, uploadAttempt_new deleteMany env call found hnew,
    afterAttempt_of_no_keys deleteMany env call found world hkeys hidle, htarget]
  refine ⟨fun e' he => ?_, fun hnone => by simp at hnone⟩
  rw [Option.some.injEq] at he
  rw [← he]
  exact Fallible.bind_of_error rfl

section NewFile

variable {n : ℕ} {s : UploadState} {target : AttemptFiles}
  (hnew : found.existingByChecksum = none)
  (htarget : newFiles (env.during n) call found.mediaType = .ok target)

include hnew htarget

/-- The keys of an attempt for a new file that can be read. -/
theorem keysOf_new : keysOf env call found n =
    attemptStorageKeys call found.mediaType (env.attempts n).now := by
  unfold keysOf
  rw [hnew, htarget]

theorem attemptError_new : attemptError deleteMany env call found world n =
    (saveError env call found n).or
      (transactionError deleteMany env call found world n target) := by
  unfold attemptError
  rw [hnew, htarget]

/-- Such an attempt saves its files and runs its transaction. -/
theorem uploadAttempt_saves (s : UploadState) :
    uploadAttempt deleteMany env call found n s =
      (do
        cleaningUp (env.attempts n) (notedKeys found.mediaType (keysOf env call found n))
          (saveFiles (env.attempts n) n (keysOf env call found n))
        cleaningUp (env.attempts n) (keysOf env call found n)
          (commit (env.attempts n) (uploadTransaction deleteMany (env.during n) call
            found.mediaType target found.existing)) : UploadMethod UploadResult) s := by
  have hread : (Fallible.reads (fun _ =>
      (newFiles (env.during n) call found.mediaType).mapError .app) :
        UploadMethod AttemptFiles) s = (.ok target, s) := by
    rw [Fallible.reads_apply, htarget]
    rfl
  rw [uploadAttempt_new deleteMany env call found hnew, Fallible.bind_of_ok hread,
    keysOf_new env call found hnew htarget]

/-- A save that is refused ends the attempt. -/
theorem unsaved_endsAsSaid {e : Thrown} (hsave : saveError env call found n = some e) :
    EndsAsSaid deleteMany env call found world n s := by
  have hrun : saveFiles (env.attempts n) n (keysOf env call found n) s =
      (.error e, arrive n (launch (env.attempts n) n (keysOf env call found n) s)) := by
    unfold saveError at hsave
    unfold saveFiles
    rw [hsave]
  have herror := attemptError_new deleteMany env call found world hnew htarget
  rw [hsave, Option.some_or] at herror
  refine ⟨fun e' he => ?_, fun hnone => by rw [herror] at hnone; cases hnone⟩
  rw [herror, Option.some.injEq] at he
  rw [uploadAttempt_saves deleteMany env call found hnew htarget, ← he,
    Fallible.bind_of_error (cleaningUp_error hrun)]
  unfold afterAttempt
  rw [cleanedKeys_eq deleteMany env call found world herror, hsave]
  rfl

/-- Once the files are saved the attempt ends as its transaction does. -/
theorem saved_endsAsSaid (hworld : s.world = world) (hsave : saveError env call found n = none) :
    EndsAsSaid deleteMany env call found world n s := by
  have hrun : saveFiles (env.attempts n) n (keysOf env call found n) s =
      (.ok (), arrive n (launch (env.attempts n) n (keysOf env call found n) s)) := by
    unfold saveError at hsave
    unfold saveFiles
    rw [hsave]
  have herror := attemptError_new deleteMany env call found world hnew htarget
  rw [hsave, Option.none_or] at herror
  have hcommit := commit_run (env.attempts n) (uploadTransaction deleteMany
    (env.during n) call found.mediaType target found.existing)
    (arrive n (launch (env.attempts n) n (keysOf env call found n) s))
  have hsame : (arrive n
      (launch (env.attempts n) n (keysOf env call found n) s)).world = world := hworld
  rw [hsame] at hcommit
  unfold EndsAsSaid
  rw [uploadAttempt_saves deleteMany env call found hnew htarget,
    Fallible.bind_of_ok (cleaningUp_ok hrun)]
  refine ⟨fun e' he => ?_, fun hnone => ?_⟩
  · rw [cleaningUp_error (hcommit.1 e' (herror.symm.trans he))]
    unfold afterAttempt
    rw [cleanedKeys_eq deleteMany env call found world he, hsave]
    rfl
  · rcases hcommit.2 (herror.symm.trans hnone) with ⟨result, w', hreturn⟩
    exact ⟨result, _, cleaningUp_ok hreturn⟩

end NewFile

/-- How an attempt ends. -/
theorem uploadAttempt_run {n : ℕ} {s : UploadState} (hworld : s.world = world)
    (hidle : keysOf env call found n = [] → s.underway = []) :
    EndsAsSaid deleteMany env call found world n s := by
  cases hreused : found.existingByChecksum with
  | some row =>
      exact reused_endsAsSaid deleteMany env call found world hworld
        (hidle (keysOf_reused env call found hreused)) hreused
  | none =>
      cases htarget : newFiles (env.during n) call found.mediaType with
      | error e =>
          refine unreadable_endsAsSaid deleteMany env call found world (hidle ?_) hreused htarget
          unfold keysOf
          rw [hreused, htarget]
      | ok target =>
          cases hsave : saveError env call found n with
          | some e => exact unsaved_endsAsSaid deleteMany env call found world hreused htarget hsave
          | none =>
              exact saved_endsAsSaid deleteMany env call found world hreused htarget hworld hsave

/-! ## Objects over the attempts -/

variable (files : List String) {m : ℕ} {key : String}

/-- Whether the picture can be read does not depend on the attempt. -/
theorem keysOf_eq_nil {n : ℕ} (h : keysOf env call found n = []) (m : ℕ) :
    keysOf env call found m = [] := by
  unfold keysOf at h ⊢
  cases hreused : found.existingByChecksum with
  | some row => rfl
  | none =>
      rw [hreused] at h
      unfold newFiles attemptStorageKeys at *
      cases hmedia : found.mediaType with
      | DOCUMENT =>
          rw [hmedia] at h
          simp at h
      | IMAGE | LOGO | BANNER | AVATAR =>
          rw [hmedia] at h
          cases hprocessed : call.file.processed with
          | error e => rfl
          | ok picture =>
              rw [hprocessed] at h
              simp [imageKeys, Except.map] at h

theorem mem_storedKeys {n : ℕ} : key ∈ storedKeys env call found n ↔
    key ∈ keysOf env call found n ∧ ((env.attempts n).save key).stores = true :=
  List.mem_filter

theorem le_arrivalOf (n : ℕ) (key : String) : n ≤ arrivalOf env call found n key := by
  unfold arrivalOf arrival
  split
  · exact Nat.le_refl n
  · exact Nat.le_max_left _ _

theorem mem_launch {n a : ℕ} {s : UploadState} :
    (a, key) ∈ (launch (env.attempts n) n (keysOf env call found n) s).underway ↔
      (a, key) ∈ s.underway ∨
        key ∈ storedKeys env call found n ∧ arrivalOf env call found n key = a := by
  have hsaves : (a, key) ∈ saves (env.attempts n) n (keysOf env call found n) ↔
      key ∈ storedKeys env call found n ∧ arrivalOf env call found n key = a := by
    unfold saves
    rw [List.mem_map]
    constructor
    · rintro ⟨k, hk, hpair⟩
      cases hpair
      exact ⟨hk, rfl⟩
    · rintro ⟨hk, rfl⟩
      exact ⟨key, hk, rfl⟩
  unfold launch
  rw [List.mem_append, hsaves]

/-- The objects under way after a number of attempts. -/
theorem underway_afterAttempts {a : ℕ} :
    (a, key) ∈ (afterAttempts deleteMany env call found world files m).underway ↔
      m < a ∧ ∃ i, 1 ≤ i ∧ i ≤ m ∧ key ∈ storedKeys env call found i ∧
        arrivalOf env call found i key = a := by
  induction m with
  | zero =>
      constructor
      · intro h
        cases h
      · rintro ⟨_, i, h1, h0, _⟩
        omega
  | succ m ih =>
      have hstep : (a, key) ∈
          (afterAttempts deleteMany env call found world files (m + 1)).underway ↔
            (a, key) ∈ (launch (env.attempts (m + 1)) (m + 1)
              (keysOf env call found (m + 1))
              (afterAttempts deleteMany env call found world files m)).underway ∧ m + 1 < a := by
        simp only [afterAttempts, afterAttempt, cleaned, arrive, List.mem_filter,
          decide_eq_true_eq]
      rw [hstep, mem_launch, ih]
      constructor
      · rintro ⟨⟨_, i, h1, hi, hstored⟩ | hstored, hlate⟩
        · exact ⟨hlate, i, h1, by omega, hstored⟩
        · exact ⟨hlate, m + 1, by omega, Nat.le_refl _, hstored⟩
      · rintro ⟨hlate, i, h1, hi, hstored⟩
        refine ⟨?_, hlate⟩
        by_cases him : i ≤ m
        · exact Or.inl ⟨by omega, i, h1, him, hstored⟩
        · have hlast : i = m + 1 := by omega
          rw [hlast] at hstored
          exact Or.inr hstored

/-- The objects that arrive in an attempt. -/
def Arrives (n : ℕ) (key : String) : Prop :=
  ∃ i, 1 ≤ i ∧ i ≤ n ∧ key ∈ storedKeys env call found i ∧ arrivalOf env call found i key = n

theorem mem_arrived : key ∈ arrived (m + 1) (launch (env.attempts (m + 1)) (m + 1)
      (keysOf env call found (m + 1)) (afterAttempts deleteMany env call found world files m)) ↔
    Arrives env call found (m + 1) key := by
  have hpairs : key ∈ arrived (m + 1) (launch (env.attempts (m + 1)) (m + 1)
      (keysOf env call found (m + 1)) (afterAttempts deleteMany env call found world files m)) ↔
      ∃ a, (a, key) ∈ (launch (env.attempts (m + 1)) (m + 1) (keysOf env call found (m + 1))
        (afterAttempts deleteMany env call found world files m)).underway ∧ a ≤ m + 1 := by
    simp [arrived]
  rw [hpairs]
  constructor
  · rintro ⟨a, hmem, ha⟩
    rw [mem_launch, underway_afterAttempts] at hmem
    rcases hmem with ⟨hlate, i, h1, hi, hstored, harrival⟩ | ⟨hstored, harrival⟩
    · exact ⟨i, h1, by omega, hstored, by omega⟩
    · have hle := le_arrivalOf env call found (m + 1) key
      exact ⟨m + 1, by omega, Nat.le_refl _, hstored, by omega⟩
  · rintro ⟨i, h1, hi, hstored, harrival⟩
    refine ⟨m + 1, ?_, Nat.le_refl _⟩
    rw [mem_launch, underway_afterAttempts]
    by_cases him : i ≤ m
    · exact Or.inl ⟨by omega, i, h1, him, hstored, harrival⟩
    · have hlast : i = m + 1 := by omega
      rw [hlast] at hstored harrival
      exact Or.inr ⟨hstored, harrival⟩

/-- The files in the storage after another attempt. -/
theorem mem_files_succ :
    key ∈ (afterAttempts deleteMany env call found world files (m + 1)).files ↔
      (key ∈ (afterAttempts deleteMany env call found world files m).files ∨
        Arrives env call found (m + 1) key) ∧
      ¬(key ∈ cleanedKeys deleteMany env call found world (m + 1) ∧
        (env.attempts (m + 1)).undeletable key = false) := by
  have hstep : key ∈ (afterAttempts deleteMany env call found world files (m + 1)).files ↔
      (key ∈ arrived (m + 1) (launch (env.attempts (m + 1)) (m + 1)
          (keysOf env call found (m + 1))
          (afterAttempts deleteMany env call found world files m)) ∨
        key ∈ (afterAttempts deleteMany env call found world files m).files) ∧
      (key ∉ cleanedKeys deleteMany env call found world (m + 1) ∨
        (env.attempts (m + 1)).undeletable key = true) := by
    simp only [afterAttempts, afterAttempt, cleaned, arrive, launch, List.mem_filter,
      List.mem_append, Bool.or_eq_true, Bool.not_eq_true', List.contains_eq_mem,
      decide_eq_false_iff_not]
  rw [hstep, mem_arrived, or_comm, not_and, Bool.not_eq_false, imp_iff_not_or]

/-- The files in the storage as objects that come and go with the attempts. -/
def storage : Rounds String where
  present m key := key ∈ (afterAttempts deleteMany env call found world files m).files
  arrives := Arrives env call found
  leaves n key := key ∈ cleanedKeys deleteMany env call found world n ∧
    (env.attempts n).undeletable key = false
  step _ _ := mem_files_succ deleteMany env call found world files

/-- What the call has written into the storage. -/
theorem written_afterAttempts :
    key ∈ (afterAttempts deleteMany env call found world files m).written ↔
      ∃ n, 1 ≤ n ∧ n ≤ m ∧ Arrives env call found n key := by
  have hrecord := recorded_iff
    (fun m => key ∈ (afterAttempts deleteMany env call found world files m).written)
    (fun n => Arrives env call found n key) (fun m => by
      have hstep : key ∈ (afterAttempts deleteMany env call found world files (m + 1)).written ↔
          key ∈ arrived (m + 1) (launch (env.attempts (m + 1)) (m + 1)
              (keysOf env call found (m + 1))
              (afterAttempts deleteMany env call found world files m)) ∨
            key ∈ (afterAttempts deleteMany env call found world files m).written := by
        simp [afterAttempts, afterAttempt, cleaned, arrive, launch]
      rw [hstep, mem_arrived]
      exact or_comm) m
  rw [hrecord]
  constructor
  · rintro (h | h)
    · cases h
    · exact h
  · exact Or.inr

/-- What the call has enqueued. -/
theorem enqueued_afterAttempts :
    Enqueued (afterAttempts deleteMany env call found world files m) key ↔
      ∃ j, 1 ≤ j ∧ j ≤ m ∧ key ∈ cleanedKeys deleteMany env call found world j ∧
        (env.attempts j).undeletable key = true := by
  have hrecord := recorded_iff
    (fun m => Enqueued (afterAttempts deleteMany env call found world files m) key)
    (fun j => key ∈ cleanedKeys deleteMany env call found world j ∧
      (env.attempts j).undeletable key = true) (fun m => by
      simp only [Enqueued, afterAttempts, afterAttempt, cleaned, arrive, launch,
        List.mem_append, or_and_right, exists_or]
      refine or_congr Iff.rfl ?_
      rw [← List.mem_filter]
      by_cases hempty : ((cleanedKeys deleteMany env call found world (m + 1)).filter
          (env.attempts (m + 1)).undeletable).isEmpty = true
      · rw [if_pos hempty, List.isEmpty_iff.mp hempty]
        simp
      · rw [if_neg hempty]
        simp) m
  rw [hrecord]
  constructor
  · rintro (⟨job, hjob, _⟩ | h)
    · cases hjob
    · exact h
  · exact Or.inr

/-- What the call has written, all its saves being over. -/
theorem written_settle :
    key ∈ (settle (afterAttempts deleteMany env call found world files m)).written ↔
      ∃ i, 1 ≤ i ∧ i ≤ m ∧ key ∈ storedKeys env call found i := by
  have hwritten : key ∈ (settle (afterAttempts deleteMany env call found world files m)).written ↔
      (∃ a, (a, key) ∈ (afterAttempts deleteMany env call found world files m).underway) ∨
        key ∈ (afterAttempts deleteMany env call found world files m).written := by
    simp [settle]
  rw [hwritten, written_afterAttempts]
  simp only [underway_afterAttempts]
  constructor
  · rintro (⟨a, _, i, h1, hi, hstored, _⟩ | ⟨n, _, hn, i, h1, hi, hstored, _⟩)
    · exact ⟨i, h1, hi, hstored⟩
    · exact ⟨i, h1, by omega, hstored⟩
  · rintro ⟨i, h1, hi, hstored⟩
    have hle := le_arrivalOf env call found i key
    by_cases hlate : m < arrivalOf env call found i key
    · exact Or.inl ⟨_, hlate, i, h1, hi, hstored, rfl⟩
    · exact Or.inr ⟨_, by omega, by omega, i, h1, hle, hstored, rfl⟩

/-- After its attempts a call has left nothing exactly when all its objects are covered. -/
theorem clean_settle_iff :
    Clean (settle (afterAttempts deleteMany env call found world files m)) ↔
      ∀ i, 1 ≤ i → i ≤ m → ∀ key ∈ storedKeys env call found i,
        Covered deleteMany env call found world m i key := by
  have hfiles : ∀ key,
      key ∈ (settle (afterAttempts deleteMany env call found world files m)).files ↔
      (∃ a, (a, key) ∈ (afterAttempts deleteMany env call found world files m).underway) ∨
        (storage deleteMany env call found world files).present m key := by
    intro key
    simp [settle, storage]
  have henqueued : ∀ key, Enqueued (settle (afterAttempts deleteMany env call found world files m))
      key ↔ ∃ j, 1 ≤ j ∧ j ≤ m ∧ key ∈ cleanedKeys deleteMany env call found world j ∧
        (env.attempts j).undeletable key = true :=
    fun key => enqueued_afterAttempts deleteMany env call found world files
  constructor
  · intro hclean i h1 hi key hstored
    by_contra huncovered
    have hwritten := (written_settle deleteMany env call found world files).mpr
      ⟨i, h1, hi, hstored⟩
    -- The object is there, since no clean-up after its arrival covers it.
    have hthere : key ∈ (settle (afterAttempts deleteMany env call found world files m)).files := by
      rw [hfiles]
      by_cases hlate : m < arrivalOf env call found i key
      · refine Or.inl ⟨arrivalOf env call found i key, ?_⟩
        rw [underway_afterAttempts]
        exact ⟨hlate, i, h1, hi, hstored, rfl⟩
      · have hle := le_arrivalOf env call found i key
        refine Or.inr ((Rounds.present_iff _).mpr (Or.inl
          ⟨arrivalOf env call found i key, by omega, by omega, ⟨i, h1, hle, hstored, rfl⟩, ?_⟩))
        rintro j hj hjm ⟨hcleaned, _⟩
        exact huncovered ⟨j, by omega, hjm, hcleaned, Or.inl hj⟩
    rcases (henqueued key).mp (hclean key hwritten hthere) with ⟨j, hj1, hjm, hcleaned, hkept⟩
    exact huncovered ⟨j, hj1, hjm, hcleaned, Or.inr hkept⟩
  · intro hcovered key hwritten hthere
    rw [henqueued]
    by_contra hqueued
    have hleaves : ∀ j, 1 ≤ j → j ≤ m → key ∈ cleanedKeys deleteMany env call found world j →
        (storage deleteMany env call found world files).leaves j key := by
      intro j hj1 hjm hcleaned
      refine ⟨hcleaned, Bool.eq_false_iff.mpr fun hkept => ?_⟩
      exact hqueued ⟨j, hj1, hjm, hcleaned, hkept⟩
    -- Some clean-up deletes the object of an attempt after its arrival.
    have hdeleted : ∀ i, 1 ≤ i → i ≤ m → key ∈ storedKeys env call found i →
        ∃ j, 1 ≤ j ∧ j ≤ m ∧ arrivalOf env call found i key ≤ j ∧
          (storage deleteMany env call found world files).leaves j key := by
      intro i h1 hi hstored
      rcases hcovered i h1 hi key hstored with ⟨j, hj1, hjm, hcleaned, harrival | hkept⟩
      · exact ⟨j, hj1, hjm, harrival, hleaves j hj1 hjm hcleaned⟩
      · exact absurd ⟨j, hj1, hjm, hcleaned, hkept⟩ hqueued
    rcases (hfiles key).mp hthere with ⟨a, hunderway⟩ | hpresent
    · rcases (underway_afterAttempts deleteMany env call found world files).mp hunderway with
        ⟨hlate, i, h1, hi, hstored, harrival⟩
      rcases hdeleted i h1 hi hstored with ⟨j, _, hjm, hj, _⟩
      omega
    · rcases (Rounds.present_iff _).mp hpresent with
        ⟨a, ha1, ham, ⟨i, h1, hi, hstored, harrival⟩, hstays⟩ | ⟨_, hstays⟩
      · rcases hdeleted i h1 (by omega) hstored with ⟨j, _, hjm, hj, hleft⟩
        exact hstays j (by omega) hjm hleft
      · rcases (written_settle deleteMany env call found world files).mp hwritten with
          ⟨i, h1, hi, hstored⟩
        rcases hdeleted i h1 hi hstored with ⟨j, hj1, hjm, _, hleft⟩
        exact hstays j hj1 hjm hleft

/-! ## Trying again -/

theorem afterAttempts_world :
    (afterAttempts deleteMany env call found world files m).world = world := by
  induction m with
  | zero => rfl
  | succ m ih => exact ih

/-- An attempt without files comes after none with files. -/
theorem afterAttempts_idle {n : ℕ} (hkeys : keysOf env call found n = []) :
    (afterAttempts deleteMany env call found world files m).underway = [] := by
  rw [List.eq_nil_iff_forall_not_mem]
  rintro ⟨a, key⟩ hmem
  rcases (underway_afterAttempts deleteMany env call found world files).mp hmem with
    ⟨_, i, _, _, hstored, _⟩
  have hkey := ((mem_storedKeys env call found).mp hstored).1
  rw [keysOf_eq_nil env call found hkeys i] at hkey
  cases hkey

/-- How the next attempt ends. -/
theorem nextAttempt_run (m : ℕ) :
    (∀ e, attemptError deleteMany env call found world (m + 1) = some e →
        uploadAttempt deleteMany env call found (m + 1)
            (afterAttempts deleteMany env call found world files m) =
          (.error e, afterAttempts deleteMany env call found world files (m + 1))) ∧
      (attemptError deleteMany env call found world (m + 1) = none →
        ∃ result s', uploadAttempt deleteMany env call found (m + 1)
          (afterAttempts deleteMany env call found world files m) = (.ok result, s')) :=
  uploadAttempt_run deleteMany env call found world
    (afterAttempts_world deleteMany env call found world files)
    (afterAttempts_idle deleteMany env call found world files)

/-- The attempts that are left throw exactly where the call gives up, and after the attempt that
it gives up with. -/
theorem serializableRetry_run {remaining m : ℕ} (hm : m + remaining = MAX_SERIALIZATION_RETRIES)
    (hretried : ∀ j, 1 ≤ j → j ≤ m → retryable deleteMany env call found world j = true) :
    (∀ e s', serializableRetry (uploadAttempt deleteMany env call found) remaining
        (afterAttempts deleteMany env call found world files m) = (.error e, s') →
      remaining = 0 ∨ ∃ n, GivesUp deleteMany env call found world n ∧
        s' = afterAttempts deleteMany env call found world files n) ∧
    (∀ n, m < n → GivesUp deleteMany env call found world n →
      ∃ e, serializableRetry (uploadAttempt deleteMany env call found) remaining
        (afterAttempts deleteMany env call found world files m) =
          (.error e, afterAttempts deleteMany env call found world files n)) := by
  induction remaining generalizing m with
  | zero =>
      refine ⟨fun _ _ _ => Or.inl rfl, fun n hmn hgives => ?_⟩
      have hbounded := hgives.bounded
      omega
  | succ remaining ih =>
      have hnumber : MAX_SERIALIZATION_RETRIES - remaining = m + 1 := by omega
      have hattempt := nextAttempt_run deleteMany env call found world files m
      simp only [serializableRetry, hnumber]
      cases herror : attemptError deleteMany env call found world (m + 1) with
      | none =>
          rcases hattempt.2 herror with ⟨result, s', hrun⟩
          rw [hrun]
          refine ⟨fun e s h => (by cases h), fun n hmn hgives => ?_⟩
          -- The call does not give up after an attempt that returns.
          by_cases hn : n = m + 1
          · have hfailed := hgives.failed
            rw [hn, herror] at hfailed
            cases hfailed
          · have hretry := hgives.retried (m + 1) (by omega) (by omega)
            unfold retryable at hretry
            rw [herror] at hretry
            cases hretry
      | some e =>
          rw [hattempt.1 e herror]
          simp only
          have hretryable : retryable deleteMany env call found world (m + 1) =
              isRetryableError e := by
            unfold retryable
            rw [herror]
            rfl
          by_cases hagain : (isRetryableError e && remaining != 0) = true
          · rw [if_pos hagain]
            rw [Bool.and_eq_true, bne_iff_ne] at hagain
            have hretried' : ∀ j, 1 ≤ j → j ≤ m + 1 →
                retryable deleteMany env call found world j = true := by
              intro j hj1 hj
              by_cases hjm : j ≤ m
              · exact hretried j hj1 hjm
              · have hlast : j = m + 1 := by omega
                rw [hlast, hretryable]
                exact hagain.1
            have hrest := ih (m := m + 1) (by omega) hretried'
            refine ⟨fun e' s' h => Or.inr ?_, fun n hmn hgives => ?_⟩
            · rcases hrest.1 e' s' h with hzero | hthrown
              · exact absurd hzero hagain.2
              · exact hthrown
            · by_cases hn : n = m + 1
              · have hlast := hgives.last (by rw [hn, hretryable]; exact hagain.1)
                omega
              · exact hrest.2 n (by omega) hgives
          · rw [if_neg hagain]
            have hlast : retryable deleteMany env call found world (m + 1) = true →
                m + 1 = MAX_SERIALIZATION_RETRIES := by
              intro hretry
              rw [hretryable] at hretry
              rw [hretry, Bool.true_and, bne_iff_ne, not_not] at hagain
              omega
            have hfailed :
                (attemptError deleteMany env call found world (m + 1)).isSome = true := by
              rw [herror]
              rfl
            have hgives : GivesUp deleteMany env call found world (m + 1) :=
              ⟨by omega, by omega, fun j hj1 hj => hretried j hj1 (by omega), hfailed, hlast⟩
            refine ⟨fun e' s' h => Or.inr ⟨m + 1, hgives, ?_⟩, fun n hmn hgives => ?_⟩
            · cases h
              rfl
            · have hn : n = m + 1 := by
                by_contra hn
                have hretry := hgives.retried (m + 1) (by omega) (by omega)
                have hend := hlast hretry
                have hbounded := hgives.bounded
                omega
              rw [hn]
              exact ⟨e, rfl⟩

/-! ## The whole call -/

theorem onDatabase_readsOnly {α : Type} {x : Service α} (hx : Fallible.ReadsOnly x) :
    Fallible.ReadsOnly (onDatabase x) := by
  intro s
  have hkept := hx s.world
  unfold onDatabase
  rw [hkept]

theorem refuse_readsOnly (error : Option Thrown) : Fallible.ReadsOnly (refuse error) := by
  cases error with
  | none => exact fun _ => rfl
  | some e => exact fun _ => rfl

/-- The checks and the lookups leave the state. -/
theorem lookUp_readsOnly : Fallible.ReadsOnly (lookUp env call) := by
  unfold lookUp
  refine .bind (fun _ => rfl) fun mediaType => ?_
  refine .bind (refuse_readsOnly _) fun _ => ?_
  refine .bind (onDatabase_readsOnly (findFirst_media_readsOnly _ _)) fun _ => ?_
  refine .bind (refuse_readsOnly _) fun _ => ?_
  exact .bind (onDatabase_readsOnly (findFirst_media_readsOnly _ _)) fun _ => fun _ => rfl

theorem enqueueReplaced_returns (result : UploadResult) (s : UploadState) :
    ∃ s', enqueueReplaced env result s = (.ok (), s') := by
  unfold enqueueReplaced
  cases result.oldStorageKey with
  | none => exact ⟨s, rfl⟩
  | some key =>
      simp only
      split <;> exact ⟨_, rfl⟩

/-- How an upload throws: before its first attempt, or by giving up. -/
theorem upload_throws_iff {e : Thrown} {s' : UploadState}
    (h : upload deleteMany env call (start world files) = (.error e, s')) :
    s' = start world files ∨
      ∃ found n, (lookUp env call (start world files)).1 = .ok found ∧
        GivesUp deleteMany env call found world n ∧
        s' = afterAttempts deleteMany env call found world files n := by
  have hlookups := lookUp_readsOnly env call (start world files)
  rcases Fallible.bind_eq_error.mp h with hearly | ⟨found, s, hfound, hrest⟩
  · rw [hearly] at hlookups
    exact Or.inl hlookups
  · rw [hfound] at hlookups
    simp only at hlookups
    subst hlookups
    rcases Fallible.bind_eq_error.mp hrest with hretry | ⟨result, s, _, hlast⟩
    · have hrun := serializableRetry_run deleteMany env call found world files
        (Nat.zero_add MAX_SERIALIZATION_RETRIES) fun j hj1 hj => by omega
      rcases hrun.1 e s' hretry with hzero | ⟨n, hgives, hstate⟩
      · cases hzero
      · exact Or.inr ⟨found, n, by rw [hfound], hgives, hstate⟩
    · rcases enqueueReplaced_returns env result s with ⟨s₂, henqueue⟩
      rw [Fallible.bind_of_ok henqueue] at hlast
      cases hlast

/-- A call that gives up throws. -/
theorem upload_throws {n : ℕ}
    (hfound : (lookUp env call (start world files)).1 = .ok found)
    (hgives : GivesUp deleteMany env call found world n) :
    ∃ e, upload deleteMany env call (start world files) =
      (.error e, afterAttempts deleteMany env call found world files n) := by
  have hlookUp : lookUp env call (start world files) = (.ok found, start world files) :=
    Prod.ext hfound (lookUp_readsOnly env call (start world files))
  have hstarted := hgives.started
  have hrun := serializableRetry_run deleteMany env call found world files
    (Nat.zero_add MAX_SERIALIZATION_RETRIES) fun j hj1 hj => by omega
  rcases hrun.2 n (by omega) hgives with ⟨e, hretry⟩
  refine ⟨e, ?_⟩
  unfold upload
  rw [Fallible.bind_of_ok hlookUp]
  exact Fallible.bind_of_error hretry

/-- An upload that throws leaves nothing behind exactly when every object that its attempts
stored is covered by the handler of an attempt. -/
theorem leavesNothing_iff :
    LeavesNothing deleteMany env call world files ↔
      ∀ found, (lookUp env call (start world files)).1 = .ok found →
        ∀ n, GivesUp deleteMany env call found world n →
          ∀ i, 1 ≤ i → i ≤ n → ∀ key ∈ storedKeys env call found i,
            Covered deleteMany env call found world n i key := by
  constructor
  · intro hnothing found hfound n hgives
    rcases upload_throws deleteMany env call found world files hfound hgives with ⟨e, hrun⟩
    have hclean := (hnothing e (settle (afterAttempts deleteMany env call found world files n))
      (by unfold settled; rw [hrun])).1
    exact (clean_settle_iff deleteMany env call found world files).mp hclean
  · intro hcovered e s' hsettled
    rcases hrun : upload deleteMany env call (start world files) with ⟨answer, s⟩
    unfold settled at hsettled
    rw [hrun] at hsettled
    cases hsettled
    rcases upload_throws_iff deleteMany env call world files hrun with
      rfl | ⟨found, n, hfound, hgives, rfl⟩
    · exact ⟨fun file hfile => (by cases hfile), rfl⟩
    · exact ⟨(clean_settle_iff deleteMany env call found world files).mpr
        (hcovered found hfound n hgives), afterAttempts_world deleteMany env call found world files⟩

end Attempts

/-! ## A full disk -/

/-- A restaurant without media. -/
def emptyBistro : World where
  db := { tenants := [{ id := "tenant-a", name := "Bistro" }] }

/-- The disk is full when the second version of a picture is saved. -/
def fullDisk (key : String) : Save where
  error := if endsWith key "-thumbnail.webp" then
    some (.external (some "ENOSPC") "ENOSPC: no space left on device, write") else none

def fullDiskEnv : UploadEnv where
  toMediaEnv := bistroEnv
  attempts _ := { uuid := bistroEnv.uuid, now := bistroEnv.now, save := fullDisk }

/-- A picture for the restaurant. -/
def bistroLogo : UploadCall :=
  logoUpload (digestOf 'b' (by decide))

/-- The version of the picture that is saved first. -/
def savedVersion : String :=
  "tenants/tenant-a/logo/1700000000000-bbbbbbbb-original.webp"

/-- The upload on the full disk. -/
def fullDiskRun : Except Thrown Media × UploadState :=
  settled clientDeleteMany fullDiskEnv bistroLogo (start emptyBistro [])

theorem fullDiskRun_left :
    (fullDiskRun.1.toOption.isNone && fullDiskRun.2.written.contains savedVersion &&
      fullDiskRun.2.files.contains savedVersion && fullDiskRun.2.enqueued.isEmpty) = true := by
  decide +kernel

/-- The upload throws, and the versions that were saved stay in the storage. -/
theorem refused_save_leaves_files :
    ¬LeavesNothing clientDeleteMany fullDiskEnv bistroLogo emptyBistro [] := by
  intro hnothing
  have hleft := fullDiskRun_left
  rcases hrun : fullDiskRun with ⟨answer, s'⟩
  rw [hrun] at hleft
  simp only [Bool.and_eq_true, List.contains_iff_mem, List.isEmpty_iff] at hleft
  rcases hleft with ⟨⟨⟨hthrows, hwritten⟩, hthere⟩, hqueue⟩
  cases answer with
  | ok media => cases hthrows
  | error e =>
      rcases (hnothing e s' hrun).1 savedVersion hwritten hthere with ⟨job, hjob, _⟩
      rw [hqueue] at hjob
      cases hjob

end FailedUploads
end Eleva
