import Eleva.Media.MediaService

/-!
# Media - Replacing and removing through the tenant client

The transactions of a replacing upload and of a removal delete a row with {lit}`deleteMany`, an
operation that the tenant extension refuses on every scoped model.  So neither transaction
commits, whatever else the database holds.

Main results:

- Theorem {lit}`replace_and_remove_refused`: no removal of a ready row returns, and no upload to
  the slot of one.
- Theorem {lit}`bistro_logo_errors`: the error that the calls for one restaurant end with.
-/

namespace Eleva
namespace MediaService

open Foundation Database TableOf

variable {env : MediaEnv} {T : Id} {w : World} {s : MediaState} {row : Media}

/-! ## The refused statement -/

/-- In a tenant's context the extension refuses {lit}`deleteMany`. -/
theorem clientDeleteMany_run {env : Env} (hctx : env.context.Holds T) (f : Where Media)
    (w : World) :
    media.run (clientDeleteMany env f) w =
      (.error (.client (unsupportedError .deleteMany "Media")), w) := by
  apply TableOf.run_refused
  have hscope : scope env.context prisma.media .deleteMany { whereArg := f } =
      .error (unsupportedError .deleteMany "Media") := by
    unfold scope
    rw [if_neg (by decide), hctx.tenantId]
    have hT : truthy (some T) = true := by simpa [truthy] using hctx.nonempty
    rw [hT]
    rfl
  unfold clientDeleteMany Delegate.deleteMany
  apply Fallible.bind_of_error
  unfold invoke call
  rw [hscope]

/-- A lookup that admits a stored row finds one. -/
theorem findFirst_media_some {env : Env} (hctx : env.context.Holds T) {f : Where Media}
    (hf : f.deletedAt = .absent) (hrow : row ∈ w.db.media)
    (hadmits : (f.inScope (some T)).admits prisma.media row = true) :
    ∃ found ∈ w.db.media, (f.inScope (some T)).admits prisma.media found = true ∧
      media.run (prisma.media.findFirst env f) w = (.ok (some found), w) := by
  have hrun := findFirst_media (S := some T) hctx hf w
  cases hfind : w.db.media.find? ((f.inScope (some T)).admits prisma.media) with
  | none => exact absurd hadmits (List.find?_eq_none.mp hfind row hrow)
  | some found =>
      rw [hfind] at hrun
      exact ⟨found, List.mem_of_find?_eq_some hfind, List.find?_some hfind, hrun⟩

/-! ## Transactions that never commit -/

/-- The transaction of a removal throws wherever it finds a row. -/
theorem removeTransaction_throws (hctx : env.context.Holds T) (hrow : row ∈ w.db.media)
    (howned : row.tenantId = T) :
    (removeTransaction clientDeleteMany env.toEnv row.id T).ThrowsAt w := by
  have hadmits : (({ id := some row.id, tenantId := .filter fun t => t == some T } :
      Where Media).inScope (some T)).admits prisma.media row = true := by
    simp [Where.inScope, Where.withTenant, Where.admits, prisma.media, ColumnKey.admits,
      TenantRow.id, TenantRow.tenantId, howned]
  rcases findFirst_media_some hctx rfl hrow hadmits with ⟨current, _, _, hrun⟩
  unfold removeTransaction findMedia
  refine .bind fun found w₁ hfound => ?_
  rw [hrun] at hfound
  cases hfound
  refine .bind fun _ w₂ _ => .bind fun n w₃ hdeleted => ?_
  rw [clientDeleteMany_run hctx] at hdeleted
  cases hdeleted

/-- The transaction of an upload throws wherever it finds the row to be replaced. -/
theorem uploadTransaction_throws (hctx : env.context.Holds T) (hrow : row ∈ w.db.media)
    (howned : row.tenantId = T) (hready : row.status = "ready") (call : UploadCall)
    (mediaType : MediaType) (target : AttemptFiles) :
    (uploadTransaction clientDeleteMany env call mediaType target (some row)).ThrowsAt w := by
  have hadmits : (({ id := some row.id, rest := fun r => r.status == "ready" } :
      Where Media).inScope (some T)).admits prisma.media row = true := by
    simp [Where.inScope, Where.withTenant, Where.admits, prisma.media, ColumnKey.admits,
      TenantRow.id, TenantRow.tenantId, howned, hready]
  rcases findFirst_media_some hctx rfl hrow hadmits with ⟨old, _, _, hrun⟩
  unfold uploadTransaction
  refine .bind fun found w₁ hfound => ?_
  unfold findReplaced at hfound
  simp only [hrun] at hfound
  cases hfound
  refine .bind fun created w₂ _ => ?_
  cases created with
  | none => exact ⟨_, rfl⟩
  | some created =>
      refine .bind fun _ w₃ _ => .bind fun n w₄ hdeleted => ?_
      rw [clientDeleteMany_run hctx] at hdeleted
      cases hdeleted

/-! ## Calls that never return -/

/-- A method throws from every state over a database, and leaves the database. -/
def RefusedOver {α : Type} (w : World) (x : MediaMethod α) : Prop :=
  ∀ s, s.world = w → ∃ e s', x s = (.error e, s') ∧ s'.world = w

section Refused

variable {α β : Type}

/-- A transaction that throws, whether the database aborts it or not. -/
theorem RefusedOver.transaction {x : Service α} (h : x.ThrowsAt w) (n : ℕ) :
    RefusedOver w (runTransaction env n x) := by
  intro s hs
  unfold runTransaction
  split
  · exact ⟨_, s, rfl, hs⟩
  · rcases h.transaction with ⟨e, he⟩
    rw [← hs] at he
    refine ⟨e, s, ?_, hs⟩
    unfold onWorld
    rw [he]

/-- Clearing up after an aborted transaction does not touch the database. -/
theorem RefusedOver.onRetryable {x : MediaMethod α} {handler : MediaMethod Unit}
    (hx : RefusedOver w x) (hhandler : ∀ s, (handler s).2.world = s.world) :
    RefusedOver w (onRetryable x handler) := by
  intro s hs
  rcases hx s hs with ⟨e, s₁, hrun, hworld⟩
  simp only [MediaService.onRetryable, hrun]
  split
  · have hkept := hhandler s₁
    rcases hhandled : handler s₁ with ⟨e' | u, s₂⟩
    · rw [hhandled] at hkept
      exact ⟨e', s₂, Fallible.bind_of_error hhandled, hkept.trans hworld⟩
    · rw [hhandled] at hkept
      exact ⟨e, s₂, Fallible.bind_of_ok hhandled, hkept.trans hworld⟩
  · exact ⟨e, s₁, rfl, hworld⟩

/-- Whatever comes first and leaves the database, a refused method is refused after it. -/
theorem RefusedOver.bind {x : MediaMethod α} {f : α → MediaMethod β}
    (hx : ∀ s, (x s).2.world = s.world) (hf : ∀ s a, s.world = w → (x s).1 = .ok a →
      RefusedOver w (f a)) : RefusedOver w (x >>= f) := by
  intro s hs
  have hkept := hx s
  rcases hrun : x s with ⟨e | a, s₁⟩
  · rw [hrun] at hkept
    exact ⟨e, s₁, Fallible.bind_of_error hrun, hkept.trans hs⟩
  · rw [hrun] at hkept
    rw [Fallible.bind_of_ok hrun]
    exact hf s a hs (by rw [hrun]) s₁ (hkept.trans hs)

/-- What is refused stays refused however often it is tried. -/
theorem RefusedOver.retry {attempt : ℕ → MediaMethod α} (h : ∀ n, RefusedOver w (attempt n))
    (remaining : ℕ) : RefusedOver w (serializableRetry attempt remaining) := by
  induction remaining with
  | zero => exact fun s hs => ⟨_, s, rfl, hs⟩
  | succ remaining ih =>
      intro s hs
      rcases h (MAX_SERIALIZATION_RETRIES - remaining) s hs with ⟨e, s₁, hrun, hworld⟩
      simp only [serializableRetry, hrun]
      split
      · exact ih s₁ hworld
      · exact ⟨e, s₁, rfl, hworld⟩

/-- Nothing that comes after a refused method makes up for it. -/
theorem RefusedOver.andThen {x : MediaMethod α} (hx : RefusedOver w x) (f : α → MediaMethod β) :
    RefusedOver w (x >>= f) := by
  intro s hs
  rcases hx s hs with ⟨e, s₁, hrun, hworld⟩
  exact ⟨e, s₁, Fallible.bind_of_error hrun, hworld⟩

end Refused

theorem deleteAttemptFiles_world (env : MediaEnv) (keys : List String) (s : MediaState) :
    (deleteAttemptFiles env keys s).2.world = s.world := by
  unfold deleteAttemptFiles
  split
  · rfl
  · rw [Fallible.bind_apply]
    unfold deleteBatch
    simp only
    split <;> rfl

theorem writeFiles_world (keys : List String) (s : MediaState) :
    (keys.forM writeFile s).2.world = s.world := by
  induction keys generalizing s with
  | nil => rfl
  | cons key keys ih => exact ih _

theorem onWorld_readsOnly {α : Type} {x : Service α} (hx : Fallible.ReadsOnly x)
    (s : MediaState) : (onWorld x s).2.world = s.world :=
  hx s.world

/-! ## Removals and replacing uploads -/

/-- The removal of a stored row of the tenant is refused. -/
theorem remove_refused (hctx : env.context.Holds T) (hrow : row ∈ w.db.media)
    (howned : row.tenantId = T) : RefusedOver w (remove clientDeleteMany env row.id T) := by
  unfold remove
  refine .bind (onWorld_readsOnly (findFirst_media_readsOnly _ _)) fun s found _ _ => ?_
  cases found with
  | none => exact fun s hs => ⟨_, s, rfl, hs⟩
  | some found =>
      exact (RefusedOver.retry (fun n =>
        .transaction (removeTransaction_throws hctx hrow howned) n) _).andThen _

/-- The upload is for the slot of a row. -/
structure ForSlotOf (call : UploadCall) (row : Media) : Prop where
  tenantId : call.tenantId = row.tenantId
  entityType : call.entityType = row.entityType
  entityId : call.entityId = row.entityId
  mediaType : (MEDIA_TYPE_CONFIG call.mediaType).map (·.mediaType) = some row.mediaType

/-- The media type that the checks of an upload return. -/
theorem validateUpload_ok {call : UploadCall} {mediaType : MediaType}
    (h : validateUpload call = .ok mediaType) :
    (MEDIA_TYPE_CONFIG call.mediaType).map (·.mediaType) = some mediaType := by
  unfold validateUpload at h
  cases hconfig : MEDIA_TYPE_CONFIG call.mediaType with
  | none =>
      rw [hconfig] at h
      cases h
  | some config =>
      rw [hconfig] at h
      simp only at h
      split at h
      · cases h
      · split at h
        · cases h
        · cases h
          rfl

/-- The upload to the slot of a ready row is refused. -/
theorem upload_refused (hctx : env.context.Holds T) (hrow : row ∈ w.db.media)
    (howned : row.tenantId = T) (hready : row.status = "ready") {call : UploadCall}
    (hslot : ForSlotOf call row) : RefusedOver w (upload clientDeleteMany env call) := by
  unfold upload
  refine .bind (fun _ => rfl) fun s₀ mediaType _ hvalid => ?_
  have htype : mediaType = row.mediaType := by
    have hconfig := (validateUpload_ok hvalid).symm.trans hslot.mediaType
    exact Option.some_inj.mp hconfig
  refine .bind (onWorld_readsOnly (findFirst_media_readsOnly _ _)) fun s₁ byChecksum _ _ => ?_
  refine .bind (onWorld_readsOnly (findFirst_media_readsOnly _ _)) fun s₂ existing hs₂ hfound => ?_
  have hadmits : (({ tenantId := .filter fun t => t == some call.tenantId
                     rest := fun r => r.entityType == call.entityType &&
                       r.entityId == call.entityId && r.mediaType == mediaType &&
                       r.status == "ready" } : Where Media).inScope (some T)).admits
      prisma.media row = true := by
    simp [Where.inScope, Where.withTenant, Where.admits, prisma.media, ColumnKey.admits,
      TenantRow.tenantId, howned, hready, hslot.entityType, hslot.entityId, htype]
  rw [← hs₂] at hrow
  rcases findFirst_media_some hctx rfl hrow hadmits with ⟨active, hactive, hactiveAdmits, hrun⟩
  have hexisting : existing = some active := by
    unfold onWorld findActive at hfound
    rw [hrun] at hfound
    exact (Except.ok.inj hfound).symm
  subst hexisting
  have hready' : active.status = "ready" ∧ active.tenantId = T := by
    simp only [Where.inScope, Option.elim_some, Where.withTenant, Where.admits, prisma.media,
      ColumnKey.admits, TenantRow.tenantId, Option.all_none, Bool.and_eq_true, beq_iff_eq,
      Option.some.injEq] at hactiveAdmits
    exact ⟨hactiveAdmits.2.2, hactiveAdmits.1.1.2⟩
  rw [hs₂] at hactive
  refine (RefusedOver.retry (fun n => ?_) _).andThen _
  unfold uploadAttempt
  cases byChecksum with
  | some reused =>
      exact (RefusedOver.transaction (uploadTransaction_throws hctx hactive hready'.2 hready'.1
        call mediaType _) n).onRetryable fun _ => rfl
  | none =>
      refine .bind (fun _ => rfl) fun s₃ target _ _ => ?_
      refine .bind (writeFiles_world _) fun s₄ _ _ _ => ?_
      exact (RefusedOver.transaction (uploadTransaction_throws hctx hactive hready'.2 hready'.1
        call mediaType _) n).onRetryable (deleteAttemptFiles_world env _)

/-- Through the tenant's client no removal of a ready row returns, and no upload to the slot of
one; both leave the database. -/
theorem replace_and_remove_refused (hctx : env.context.Holds T) (hrow : row ∈ s.world.db.media)
    (howned : row.tenantId = T) (hready : row.status = "ready") :
    (∃ e s', remove clientDeleteMany env row.id T s = (.error e, s') ∧ s'.world = s.world) ∧
      ∀ call, ForSlotOf call row →
        ∃ e s', upload clientDeleteMany env call s = (.error e, s') ∧ s'.world = s.world :=
  ⟨remove_refused hctx hrow howned s rfl,
    fun _ hslot => upload_refused hctx hrow howned hready hslot s rfl⟩

/-! ## A restaurant with a logo -/

def logoRow : Media where
  id := "media-1"
  tenantId := "tenant-a"
  entityType := "restaurant"
  entityId := "restaurant-1"
  mediaType := .LOGO
  originalName := "logo.png"
  mimeType := "image/png"
  originalFileSize := 4096
  fileSize := 2048
  checksum := "aa"
  storageKey := "tenants/tenant-a/logo/1-aa"
  originalUrl := "/uploads/tenants/tenant-a/logo/1-aa-original.webp"

/-- The tenant with its logo and the files behind it. -/
def bistro : MediaState where
  world := { db := { tenants := [{ id := "tenant-a", name := "Bistro" }], media := [logoRow] } }
  files := storedFiles logoRow.storageKey

theorem digit_b : 'b' ∈ "0123456789abcdef".toList := by
  decide

/-- Another logo for the restaurant. -/
def newLogo : UploadCall :=
  logoUpload (digestOf 'b' digit_b)

/-- The logo of the restaurant can neither be removed nor replaced. -/
theorem bistro_logo_refused :
    (∃ e s', remove clientDeleteMany bistroEnv "media-1" "tenant-a" bistro = (.error e, s') ∧
        s'.world = bistro.world) ∧
      ∃ e s', upload clientDeleteMany bistroEnv newLogo bistro = (.error e, s') ∧
        s'.world = bistro.world := by
  have hctx : bistroEnv.context.Holds "tenant-a" := ⟨rfl, by decide⟩
  have hrow : logoRow ∈ bistro.world.db.media := by simp [bistro]
  have hrefused := replace_and_remove_refused hctx hrow rfl rfl
  exact ⟨hrefused.1, hrefused.2 newLogo ⟨rfl, rfl, rfl, rfl⟩⟩

/-- The removal and the upload end with the error of the extension. -/
theorem bistro_logo_errors :
    (remove clientDeleteMany bistroEnv "media-1" "tenant-a" bistro).1 =
        .error (.client (unsupportedError .deleteMany "Media")) ∧
      (upload clientDeleteMany bistroEnv newLogo bistro).1 =
        .error (.client (unsupportedError .deleteMany "Media")) := by
  decide +kernel

end MediaService
end Eleva
