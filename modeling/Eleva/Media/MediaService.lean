import Eleva.Foundation.Text
import Eleva.Service

/-!
# Media - The media service

Uploading, replacing and removing the media of restaurants and products: the rows, the files
behind them and the queue of files to be deleted.

Main results:

- Definitions {lit}`upload` and {lit}`remove`.
- Definitions {lit}`uploadTransaction` and {lit}`removeTransaction`: what the calls do at once.
-/

namespace Eleva
namespace MediaService

open Foundation Database

/-! ## Requests -/

/-- A SHA-256 digest in hexadecimal, as {lit}`computeChecksum` returns it. -/
structure Checksum where
  digest : String
  length : digest.length = 64
  hex : ∀ c ∈ digest.toList, c ∈ "0123456789abcdef".toList
deriving DecidableEq

/-- What the image library makes of a picture: the size of the largest version, and its bytes. -/
structure ProcessedImage where
  width : ℕ
  height : ℕ
  size : ℕ
deriving DecidableEq, Repr

/-- An uploaded file.  The image library answers an error for contents it cannot read. -/
structure UploadedFile where
  originalname : String
  mimetype : String
  size : ℕ
  checksum : Checksum
  processed : Except AppError ProcessedImage

/-- The arguments of an upload. -/
structure UploadCall where
  file : UploadedFile
  entityType : String
  entityId : String
  mediaType : String
  tenantId : Id

/-- What a call draws from its surroundings: besides the tenant, the generated ids and the clock,
the storage provider with the addresses of its files, the files that it fails to delete, and the
attempts whose transactions the database aborts. -/
structure MediaEnv extends Env where
  storageProvider : String := "LocalStorageProvider"
  url : String → String := fun key => "/uploads/" ++ key
  undeletable : String → Bool := fun _ => false
  aborts : ℕ → Bool := fun _ => false

structure MediaTypeConfig where
  mediaType : MediaType
  maxSize : ℕ
  allowedTypes : List String
deriving DecidableEq, Repr

def imageTypes : List String :=
  ["image/jpeg", "image/png", "image/webp"]

def MEDIA_TYPE_CONFIG (mediaType : String) : Option MediaTypeConfig :=
  match mediaType with
  | "IMAGE" => some ⟨.IMAGE, 5 * 1024 * 1024, imageTypes⟩
  | "LOGO" => some ⟨.LOGO, 2 * 1024 * 1024, imageTypes⟩
  | "BANNER" => some ⟨.BANNER, 4 * 1024 * 1024, imageTypes⟩
  | "AVATAR" => some ⟨.AVATAR, 2 * 1024 * 1024, imageTypes⟩
  | "DOCUMENT" => some ⟨.DOCUMENT, 10 * 1024 * 1024, ["application/pdf"]⟩
  | _ => none

/-- The checks of an upload before its first statement. -/
def validateUpload (call : UploadCall) : Except AppError MediaType :=
  match MEDIA_TYPE_CONFIG call.mediaType with
  | none => .error (.badRequest ("Invalid media type: " ++ call.mediaType))
  | some config =>
      if !config.allowedTypes.contains call.file.mimetype then
        .error (.badRequest ("Invalid file type \"" ++ call.file.mimetype ++ "\". Allowed: " ++
          ", ".intercalate config.allowedTypes))
      else if config.maxSize < call.file.size then
        .error (.badRequest ("File size " ++ toString call.file.size ++ " exceeds maximum " ++
          toString config.maxSize ++ " for " ++ call.mediaType))
      else .ok config.mediaType

/-! ## The state -/

/-- Why files are deleted. -/
inductive CleanupType where
  | REPLACE
  | DELETE
  | ROLLBACK
deriving DecidableEq, Repr

/-- Files that wait for their deletion. -/
structure CleanupJob where
  type : CleanupType
  storageKeys : List String
  attempts : ℕ := 0
  nextRetryAt : Timestamp
deriving DecidableEq, Repr

/-- The database, the files in the storage and the cleanup queue. -/
structure MediaState where
  world : World
  files : List String := []
  queue : List CleanupJob := []

/-- A method of the media service. -/
abbrev MediaMethod (α : Type) := Fallible MediaState AppError α

/-- Run a database method. -/
def onWorld {α : Type} (x : Service α) : MediaMethod α := fun s =>
  ((x s.world).1, { s with world := (x s.world).2 })

/-- {lit}`storageProvider.upload`. -/
def writeFile (key : String) : MediaMethod Unit :=
  Fallible.modify fun s => { s with files := key :: s.files }

/-- {lit}`storageProvider.deleteBatch`: it answers with the files that it failed to delete. -/
def deleteBatch (env : MediaEnv) (keys : List String) : MediaMethod (List String) := fun s =>
  (.ok (keys.filter env.undeletable),
    { s with files := s.files.filter fun file => !keys.contains file || env.undeletable file })

/-- {lit}`cleanupQueue.enqueue`. -/
def enqueue (now : Timestamp) (type : CleanupType) (storageKeys : List String) :
    MediaMethod Unit :=
  Fallible.modify fun s => { s with
    queue := s.queue ++ [{ type := type, storageKeys := storageKeys, nextRetryAt := now }] }

/-! ## Storage keys -/

/-- The four files of an image. -/
def imageKeys (storageKey : String) : List String :=
  [storageKey ++ "-original.webp", storageKey ++ "-thumbnail.webp", storageKey ++ "-medium.webp",
    storageKey ++ "-large.webp"]

/-- The files that are deleted for a storage key; the key of a document names its file. -/
def cleanupKeys (storageKey : String) : List String :=
  imageKeys storageKey ++ if endsWith storageKey ".pdf" then [storageKey] else []

/-- The files behind a storage key. -/
def storedFiles (storageKey : String) : List String :=
  if endsWith storageKey ".pdf" then [storageKey] else imageKeys storageKey

/-- {lit}`mediaType.toLowerCase()`. -/
def folderOf (mediaType : MediaType) : String :=
  match mediaType with
  | .IMAGE => "image"
  | .LOGO => "logo"
  | .BANNER => "banner"
  | .AVATAR => "avatar"
  | .DOCUMENT => "document"

/-- The storage key that an attempt forms from the clock and the checksum. -/
def attemptKey (call : UploadCall) (mediaType : MediaType) (now : Timestamp) : String :=
  "tenants/" ++ call.tenantId ++ "/" ++ folderOf mediaType ++ "/" ++ toString now ++ "-" ++
    String.ofList (call.file.checksum.digest.toList.take 8)

/-- The files that an attempt writes. -/
def attemptStorageKeys (call : UploadCall) (mediaType : MediaType) (now : Timestamp) :
    List String :=
  match mediaType with
  | .DOCUMENT => [attemptKey call mediaType now ++ ".pdf"]
  | _ => imageKeys (attemptKey call mediaType now)

/-- Where the contents of an upload are stored. -/
structure AttemptFiles where
  storageKey : String
  originalUrl : String
  thumbnailUrl : Option String := none
  mediumUrl : Option String := none
  largeUrl : Option String := none
  width : Option ℕ := none
  height : Option ℕ := none
  fileSize : ℕ
deriving DecidableEq, Repr

/-- The files of a row with the same contents are used again. -/
def reusedFiles (row : Media) : AttemptFiles where
  storageKey := row.storageKey
  originalUrl := row.originalUrl
  thumbnailUrl := row.thumbnailUrl
  mediumUrl := row.mediumUrl
  largeUrl := row.largeUrl
  width := row.width
  height := row.height
  fileSize := row.fileSize

/-- Where an attempt stores new files. -/
def newFiles (env : MediaEnv) (call : UploadCall) (mediaType : MediaType) :
    Except AppError AttemptFiles :=
  let key := attemptKey call mediaType env.now
  match mediaType with
  | .DOCUMENT =>
      .ok { storageKey := key ++ ".pdf", originalUrl := env.url (key ++ ".pdf")
            fileSize := call.file.size }
  | _ =>
      call.file.processed.map fun processed =>
        { storageKey := key
          originalUrl := env.url (key ++ "-original.webp")
          thumbnailUrl := some (env.url (key ++ "-thumbnail.webp"))
          mediumUrl := some (env.url (key ++ "-medium.webp"))
          largeUrl := some (env.url (key ++ "-large.webp"))
          width := some processed.width
          height := some processed.height
          fileSize := processed.size }

/-! ## The image address of an entity -/

/-- The columns that hold the address of a picture. -/
inductive UrlField where
  | logoUrl
  | bannerUrl
  | imageUrl
deriving DecidableEq, Repr

def ENTITY_URL_MAP (entityType : String) (mediaType : MediaType) : Option UrlField :=
  match entityType, mediaType with
  | "restaurant", .LOGO => some .logoUrl
  | "restaurant", .BANNER => some .bannerUrl
  | "product", .IMAGE => some .imageUrl
  | _, _ => none

/-- {lit}`tx.tenant.update`: the extension leaves tenants alone. -/
def updateTenant (tenantId : Id) (change : Tenant → Tenant) : Service Unit := fun w =>
  if w.db.tenants.any (·.id == tenantId) then
    (.ok (), { w with db := { w.db with
      tenants := w.db.tenants.map fun t => if t.id == tenantId then change t else t } })
  else (.error (.client .recordNotFound), w)

/-- A tenant with another address in a column. -/
def setTenantUrl (field : UrlField) (url : Option String) (t : Tenant) : Tenant :=
  match field with
  | .logoUrl => { t with logoUrl := url }
  | .bannerUrl => { t with bannerUrl := url }
  | .imageUrl => t

def productUrlPayload (url : Option String) : Payload Product where
  assign p := { p with imageUrl := url }

/-- Write the address of a picture to its entity. -/
def writeUrl (env : Env) (tenantId : Id) (entityType entityId : String) (mediaType : MediaType)
    (url : Option String) : Service Unit :=
  match ENTITY_URL_MAP entityType mediaType with
  | none => pure ()
  | some field =>
      if entityType = "restaurant" then updateTenant tenantId (setTenantUrl field url)
      else if entityType = "product" then do
        let _ ← products.run (prisma.product.update env { id := some entityId }
          (productUrlPayload url))
        return ()
      else pure ()

/-! ## The transactions -/

/-- A {lit}`deleteMany` on the media. -/
abbrev DeleteMany := Env → Where Media → Fallible (Store Media) ClientError ℕ

/-- {lit}`tx.media.deleteMany` of the extended client. -/
def clientDeleteMany : DeleteMany := fun env f =>
  prisma.media.deleteMany env f

/-- The deletion of all rows that the filter admits. -/
def deleteMatching : DeleteMany := fun _ f db =>
  (.ok (db.rows.filter (f.admits prisma.media)).length,
    { db with rows := db.rows.filter fun r => !f.admits prisma.media r })

/-- A ready row of the tenant with the same contents. -/
def findByChecksum (env : Env) (call : UploadCall) : Service (Option Media) :=
  media.run (prisma.media.findFirst env
    { tenantId := .filter fun t => t == some call.tenantId
      rest := fun r => r.checksum == call.file.checksum.digest && r.status == "ready" })

/-- The ready row of the slot that an upload is for. -/
def findActive (env : Env) (call : UploadCall) (mediaType : MediaType) :
    Service (Option Media) :=
  media.run (prisma.media.findFirst env
    { tenantId := .filter fun t => t == some call.tenantId
      rest := fun r => r.entityType == call.entityType && r.entityId == call.entityId &&
        r.mediaType == mediaType && r.status == "ready" })

/-- The row of an upload. -/
def uploadPayload (env : MediaEnv) (call : UploadCall) (mediaType : MediaType)
    (target : AttemptFiles) : Payload Media where
  tenantId := some (some call.tenantId)
  assign r := { r with
    entityType := call.entityType
    entityId := call.entityId
    mediaType := mediaType
    originalName := call.file.originalname
    mimeType := call.file.mimetype
    originalFileSize := call.file.size
    fileSize := target.fileSize
    checksum := call.file.checksum.digest
    width := target.width
    height := target.height
    storageKey := target.storageKey
    storageProvider := env.storageProvider
    originalUrl := target.originalUrl
    thumbnailUrl := target.thumbnailUrl
    mediumUrl := target.mediumUrl
    largeUrl := target.largeUrl
    status := "ready"
    createdAt := env.now
    updatedAt := env.now }

/-- How many ready rows in scope have a storage key. -/
def countReferences (env : Env) (storageKey : String) : Service ℕ :=
  media.run (prisma.media.count env
    { rest := fun r => r.storageKey == storageKey && r.status == "ready" })

/-- What the transaction of an upload returns. -/
structure UploadResult where
  media : Media
  shouldDeleteOldFiles : Bool := false
  oldStorageKey : Option String := none
deriving DecidableEq, Repr

/-- The row to be replaced, as the transaction finds it. -/
def findReplaced (env : Env) (existing : Option Media) : Service (Option Media) :=
  match existing with
  | none => pure none
  | some row =>
      media.run (prisma.media.findFirst env
        { id := some row.id, rest := fun r => r.status == "ready" })

/-- The statements of an upload's transaction. -/
def uploadTransaction (deleteMany : DeleteMany) (env : MediaEnv) (call : UploadCall)
    (mediaType : MediaType) (target : AttemptFiles) (existing : Option Media) :
    Service UploadResult := do
  let currentExisting ← findReplaced env.toEnv existing
  let created ← media.run (prisma.media.create env.toEnv
    (uploadPayload env call mediaType target))
  match created with
  | none => Fallible.throw .failure
  | some created => do
      writeUrl env.toEnv call.tenantId call.entityType call.entityId mediaType
        (some target.originalUrl)
      match currentExisting with
      | none => return { media := created }
      | some old => do
          let _ ← media.run (deleteMany env.toEnv { id := some old.id })
          let remainingCount ← countReferences env.toEnv old.storageKey
          return { media := created
                   shouldDeleteOldFiles := remainingCount == 0
                   oldStorageKey := some old.storageKey }

/-- A row of the tenant. -/
def findMedia (env : Env) (id tenantId : Id) : Service (Option Media) :=
  media.run (prisma.media.findFirst env
    { id := some id, tenantId := .filter fun t => t == some tenantId })

/-- The statements of a removal's transaction: whether the files are to be deleted. -/
def removeTransaction (deleteMany : DeleteMany) (env : Env) (id tenantId : Id) : Service Bool := do
  let currentMedia ← findMedia env id tenantId
  match currentMedia with
  | none => return false
  | some current => do
      writeUrl env tenantId current.entityType current.entityId current.mediaType none
      let _ ← media.run (deleteMany env { id := some id })
      let remainingCount ← countReferences env current.storageKey
      return remainingCount == 0

/-! ## The calls -/

def mediaNotFound (id : Id) : AppError :=
  .notFound ("Media with ID \"" ++ id ++ "\" not found")

/-- The error of a transaction that the database aborts to keep transactions serializable. -/
def serializationFailure : AppError :=
  .error "serialization failure"

def isRetryableError (e : AppError) : Bool :=
  e == serializationFailure

def MAX_SERIALIZATION_RETRIES : ℕ := 3

/-- Try again after an aborted transaction, up to a number of attempts. -/
def serializableRetry {α : Type} (attempt : ℕ → MediaMethod α) : ℕ → MediaMethod α
  | 0 => Fallible.throw (.error "Unreachable: serializableRetry exceeded retries")
  | remaining + 1 => fun s =>
      match attempt (MAX_SERIALIZATION_RETRIES - remaining) s with
      | (.error e, s') =>
          if isRetryableError e && remaining != 0 then serializableRetry attempt remaining s'
          else (.error e, s')
      | returned => returned

/-- A transaction, unless the database aborts it. -/
def runTransaction {α : Type} (env : MediaEnv) (attempt : ℕ) (x : Service α) : MediaMethod α :=
  if env.aborts attempt then Fallible.throw serializationFailure
  else onWorld (Fallible.transaction x)

/-- Delete the files of an aborted attempt; what cannot be deleted now waits in the queue. -/
def deleteAttemptFiles (env : MediaEnv) (keys : List String) : MediaMethod Unit :=
  if keys.isEmpty then pure ()
  else do
    let failed ← deleteBatch env keys
    if failed.isEmpty then pure () else enqueue env.now .ROLLBACK failed

/-- Run the handler before an aborted transaction is thrown on. -/
def onRetryable {α : Type} (x : MediaMethod α) (handler : MediaMethod Unit) : MediaMethod α :=
  fun s =>
    match x s with
    | (.error e, s') =>
        if isRetryableError e then (do handler; Fallible.throw e : MediaMethod α) s'
        else (.error e, s')
    | returned => returned

/-- One attempt of an upload: its files are written, and then its transaction runs. -/
def uploadAttempt (deleteMany : DeleteMany) (env : MediaEnv) (call : UploadCall)
    (mediaType : MediaType) (existingByChecksum existing : Option Media) (attempt : ℕ) :
    MediaMethod UploadResult :=
  match existingByChecksum with
  | some row =>
      onRetryable (runTransaction env attempt
        (uploadTransaction deleteMany env call mediaType (reusedFiles row) existing)) (pure ())
  | none => do
      let keys := attemptStorageKeys call mediaType env.now
      let target ← Fallible.reads fun _ => newFiles env call mediaType
      keys.forM writeFile
      onRetryable (runTransaction env attempt
        (uploadTransaction deleteMany env call mediaType target existing))
        (deleteAttemptFiles env keys)

/-- The files of a replaced row are deleted where no other row has them. -/
def enqueueReplaced (env : MediaEnv) (result : UploadResult) : MediaMethod Unit :=
  match result.oldStorageKey with
  | none => pure ()
  | some oldStorageKey =>
      if result.shouldDeleteOldFiles then enqueue env.now .REPLACE (cleanupKeys oldStorageKey)
      else pure ()

/-- Upload a file for an entity, replacing the media of its slot. -/
def upload (deleteMany : DeleteMany) (env : MediaEnv) (call : UploadCall) :
    MediaMethod Media := do
  let mediaType ← Fallible.reads fun _ => validateUpload call
  let existingByChecksum ← onWorld (findByChecksum env.toEnv call)
  let existing ← onWorld (findActive env.toEnv call mediaType)
  let result ← serializableRetry
    (uploadAttempt deleteMany env call mediaType existingByChecksum existing)
    MAX_SERIALIZATION_RETRIES
  enqueueReplaced env result
  return result.media

/-- Remove a row of the tenant. -/
def remove (deleteMany : DeleteMany) (env : MediaEnv) (id tenantId : Id) : MediaMethod Unit := do
  let found ← onWorld (findMedia env.toEnv id tenantId)
  match found with
  | none => Fallible.throw (mediaNotFound id)
  | some row => do
      let shouldDeleteFiles ← serializableRetry
        (fun attempt => runTransaction env attempt
          (removeTransaction deleteMany env.toEnv id tenantId))
        MAX_SERIALIZATION_RETRIES
      if shouldDeleteFiles then enqueue env.now .DELETE (cleanupKeys row.storageKey)
      else pure ()

/-! ## What the statements do -/

section Statements

variable {T : Id} {w w' : World}

open TableOf

/-- What a lookup in scope among the media finds. -/
theorem findFirst_media {env : Env} {S : Option Id} (hctx : env.context.Sees S)
    {f : Where Media} (hf : f.deletedAt = .absent) (w : World) :
    media.run (prisma.media.findFirst env f) w =
      (.ok (w.db.media.find? ((f.inScope S).admits prisma.media)), w) := by
  refine run_client_findFirst hctx (by decide) ?_ w
  unfold Args.unknownColumn
  simp only [hf]

/-- A lookup among the media leaves the database. -/
theorem findFirst_media_readsOnly (env : Env) (f : Where Media) :
    Fallible.ReadsOnly (media.run (prisma.media.findFirst env f)) :=
  run_findFirst_state f

theorem findMedia_readsOnly (env : Env) (id tenantId : Id) :
    Fallible.ReadsOnly (findMedia env id tenantId) :=
  findFirst_media_readsOnly env _

/-- The address of a picture is no column of the media. -/
theorem writeUrl_media {env : Env} {tenantId : Id} {entityType entityId : String}
    {mediaType : MediaType} {url : Option String} {u : Unit}
    (h : writeUrl env tenantId entityType entityId mediaType url w = (.ok u, w')) :
    w'.db.media = w.db.media := by
  unfold writeUrl at h
  cases hfield : ENTITY_URL_MAP entityType mediaType with
  | none =>
      rw [hfield] at h
      cases h
      rfl
  | some field =>
      rw [hfield] at h
      simp only at h
      split at h
      · unfold updateTenant at h
        split at h
        · cases h
          rfl
        · cases h
      · split at h
        · rcases Fallible.bind_eq_ok.mp h with ⟨_, w₁, hupdate, hreturn⟩
          cases hreturn
          rcases run_eq_ok hupdate with ⟨_, _, _, rfl⟩
          rfl
        · cases h
          rfl

/-- The rows that a filter by id leaves. -/
def withoutRow (id : Id) (rows : List Media) : List Media :=
  rows.filter fun r => !(id == r.id)

theorem deleteMatching_run (env : Env) (id : Id) (w : World) :
    ∃ n, media.run (deleteMatching env { id := some id }) w =
      (.ok n, { w with db := media.set (withoutRow id w.db.media) w.db }) := by
  have hrows : w.db.media.filter (fun r =>
      !({ id := some id } : Where Media).admits prisma.media r) = withoutRow id w.db.media := by
    unfold withoutRow
    congr 1
    funext r
    simp [Where.admits, prisma.media, ColumnKey.admits, TenantRow.id]
  rw [← hrows]
  have hrun : deleteMatching env { id := some id }
      { rows := media.get w.db, uniqueKeys := media.uniqueKeys } = (.ok _, _) := rfl
  exact ⟨_, run_of_ok hrun fun r hr => Or.inl (List.mem_filter.mp hr).1⟩

/-- The ready rows of a tenant with a storage key. -/
def references (T : Id) (storageKey : String) (rows : List Media) : List Media :=
  rows.filter fun r => r.storageKey == storageKey && r.status == "ready" && r.tenantId == T

theorem countReferences_run {env : Env} (hctx : env.context.Holds T) (storageKey : String)
    (w : World) :
    countReferences env storageKey w =
      (.ok (references T storageKey w.db.media).length, w) := by
  have hrows : w.db.media.filter ((({ rest := fun r : Media => r.storageKey == storageKey &&
      r.status == "ready" } : Where Media).inScope (some T)).admits prisma.media) =
      references T storageKey w.db.media := by
    unfold references
    congr 1
    funext r
    rw [Where.admits_inScope _ _ rfl]
    simp [Where.admits, prisma.media, ColumnKey.admits, visible, owned, TenantRow.tenantId]
  have hcount := run_client_count (t := media) (S := some T) (m := prisma.media)
    (f := { rest := fun r : Media => r.storageKey == storageKey && r.status == "ready" })
    hctx (by decide) rfl w
  unfold countReferences
  rw [hcount]
  congr 3

/-- The row that an upload creates. -/
def uploadRow (env : MediaEnv) (call : UploadCall) (mediaType : MediaType)
    (target : AttemptFiles) : Media :=
  (uploadPayload env call mediaType target).apply (prisma.media.blank (env.uuid 0))

/-- The row that the transaction of an upload replaces. -/
def currentOf (T : Id) (existing : Option Media) (rows : List Media) : Option Media :=
  existing.bind fun row =>
    rows.find? fun r => row.id == r.id && r.status == "ready" && r.tenantId == T

theorem findReplaced_run {env : Env} (hctx : env.context.Holds T) (existing : Option Media)
    (w : World) :
    findReplaced env existing w = (.ok (currentOf T existing w.db.media), w) := by
  cases existing with
  | none => rfl
  | some row =>
      have hadmits : (({ id := some row.id, rest := fun r => r.status == "ready" } :
          Where Media).inScope (some T)).admits prisma.media =
          fun r => row.id == r.id && r.status == "ready" && r.tenantId == T := by
        funext r
        rw [Where.admits_inScope _ _ rfl]
        simp [Where.admits, prisma.media, ColumnKey.admits, visible, owned, TenantRow.tenantId,
          TenantRow.id]
      have hrun := findFirst_media (S := some T)
        (f := { id := some row.id, rest := fun r => r.status == "ready" }) hctx rfl w
      rw [hadmits] at hrun
      exact hrun

/-- The rows after a replacement. -/
def replaceRow (created : Media) (current : Option Media) (rows : List Media) : List Media :=
  match current with
  | none => rows ++ [created]
  | some old => withoutRow old.id (rows ++ [created])

/-- What the transaction of an upload returns about the replaced row. -/
def uploadResult (T : Id) (created : Media) (current : Option Media) (rows : List Media) :
    UploadResult :=
  match current with
  | none => { media := created }
  | some old =>
      { media := created
        shouldDeleteOldFiles := (references T old.storageKey rows).length == 0
        oldStorageKey := some old.storageKey }

/-- What the transaction of an upload has done, once it commits. -/
theorem uploadTransaction_ok {env : MediaEnv} {call : UploadCall} {mediaType : MediaType}
    {target : AttemptFiles} {existing : Option Media} {result : UploadResult}
    (hctx : env.context.Holds call.tenantId)
    (h : uploadTransaction deleteMatching env call mediaType target existing w =
      (.ok result, w')) :
    let created := uploadRow env call mediaType target
    let current := currentOf call.tenantId existing w.db.media
    ((w.db.media ++ [created]).map (·.id)).Nodup ∧
      w'.db.media = replaceRow created current w.db.media ∧
      result = uploadResult call.tenantId created current w'.db.media := by
  intro created current
  unfold uploadTransaction at h
  rw [Fallible.bind_of_ok (findReplaced_run hctx existing w)] at h
  rcases Fallible.bind_eq_ok.mp h with ⟨made, w₁, hcreate, hrest⟩
  have hcreated := run_create_ok (t := media) (S := some call.tenantId) hctx (by decide) rfl hcreate
  rcases hcreated with ⟨_, rfl, _, haccepts, rfl⟩
  have hrow : ((uploadPayload env call mediaType target).inScope (some call.tenantId)).apply
      (prisma.media.blank (env.uuid 0)) = created := rfl
  rw [hrow] at haccepts hrest
  have hids : ((w.db.media ++ [created]).map (·.id)).Nodup := by
    simp only [Store.accepts, media, List.all_cons, List.all_nil, Bool.and_true] at haccepts
    simpa [List.filterMap_eq_map'] using haccepts
  refine ⟨hids, ?_⟩
  simp only at hrest
  rcases Fallible.bind_eq_ok.mp hrest with ⟨_, w₂, hurl, hreplace⟩
  have hmedia₂ : w₂.db.media = w.db.media ++ [created] := writeUrl_media hurl
  change (match current with
    | none => _
    | some old => _ : Service UploadResult) w₂ = _ at hreplace
  cases hcurrent : current with
  | none =>
      rw [hcurrent] at hreplace
      cases hreplace
      exact ⟨hmedia₂, rfl⟩
  | some old =>
      rw [hcurrent] at hreplace
      rcases deleteMatching_run env.toEnv old.id w₂ with ⟨n, hdelete⟩
      simp only at hreplace
      rw [Fallible.bind_of_ok hdelete, Fallible.bind_of_ok (countReferences_run hctx _ _)]
        at hreplace
      cases hreplace
      refine ⟨?_, rfl⟩
      change withoutRow old.id w₂.db.media = _
      rw [hmedia₂]
      rfl

/-- The row that a removal is about. -/
def rowOf (T id : Id) (rows : List Media) : Option Media :=
  rows.find? fun r => id == r.id && r.tenantId == T

theorem findMedia_run {env : Env} (hctx : env.context.Holds T) (id : Id) (w : World) :
    findMedia env id T w = (.ok (rowOf T id w.db.media), w) := by
  have hadmits : (({ id := some id, tenantId := .filter fun t => t == some T } :
      Where Media).inScope (some T)).admits prisma.media =
      fun r => id == r.id && r.tenantId == T := by
    funext r
    simp [Where.inScope, Where.withTenant, Where.admits, prisma.media, ColumnKey.admits,
      TenantRow.id, TenantRow.tenantId]
  have hrun := findFirst_media (S := some T)
    (f := { id := some id, tenantId := .filter fun t => t == some T }) hctx rfl w
  rw [hadmits] at hrun
  exact hrun

/-- What the transaction of a removal has done, once it commits. -/
theorem removeTransaction_ok {env : Env} {id : Id} {shouldDelete : Bool}
    (hctx : env.context.Holds T)
    (h : removeTransaction deleteMatching env id T w = (.ok shouldDelete, w')) :
    match rowOf T id w.db.media with
    | none => w' = w ∧ shouldDelete = false
    | some current => w'.db.media = withoutRow id w.db.media ∧
        shouldDelete = ((references T current.storageKey w'.db.media).length == 0) := by
  unfold removeTransaction at h
  rw [Fallible.bind_of_ok (findMedia_run hctx id w)] at h
  cases hrow : rowOf T id w.db.media with
  | none =>
      rw [hrow] at h
      cases h
      exact ⟨rfl, rfl⟩
  | some current =>
      rw [hrow] at h
      simp only at h ⊢
      rcases Fallible.bind_eq_ok.mp h with ⟨_, w₁, hurl, hrest⟩
      rcases deleteMatching_run env id w₁ with ⟨n, hdelete⟩
      rw [Fallible.bind_of_ok hdelete, Fallible.bind_of_ok (countReferences_run hctx _ _)] at hrest
      cases hrest
      rw [← writeUrl_media hurl]
      exact ⟨rfl, rfl⟩

end Statements

/-! ## A restaurant -/

/-- The context of the restaurant's tenant. -/
def bistroEnv : MediaEnv where
  context := { tenantId := some "tenant-a" }
  uuid _ := "media-2"
  now := 1700000000000

/-- The digest that repeats one digit. -/
def digestOf (c : Char) (hc : c ∈ "0123456789abcdef".toList) : Checksum where
  digest := String.ofList (List.replicate 64 c)
  length := by simp
  hex d hd := by
    rw [String.toList_ofList] at hd
    rw [List.eq_of_mem_replicate hd]
    exact hc

/-- A logo for the restaurant. -/
def logoUpload (checksum : Checksum) : UploadCall where
  file :=
    { originalname := "logo.png", mimetype := "image/png", size := 5000, checksum := checksum
      processed := .ok { width := 512, height := 512, size := 3000 } }
  entityType := "restaurant"
  entityId := "restaurant-1"
  mediaType := "LOGO"
  tenantId := "tenant-a"

end MediaService
end Eleva
