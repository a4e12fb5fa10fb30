import Eleva.Media.MediaCalls

/-!
# Media - One active media per slot

An upload looks the row of its slot up before its first attempt, and every attempt replaces that
row.  What another upload has put into the slot since then stays there.

Main results:

- Theorem {lit}`active_replaceRow`: the ready rows of its slot after an upload.
- Theorem {lit}`step_media`: the rows after a step.
- Theorem {lit}`one_active_iff`: a run leaves at most one ready row in every slot exactly when
  every upload that commits replaces all ready rows of its slot.
- Theorem {lit}`two_logos`: two uploads to an empty slot.
-/

namespace Eleva
namespace MediaService

open Foundation Database TableOf

/-! ## Slots -/

/-- What a picture is for. -/
structure Slot where
  tenantId : Id
  entityType : String
  entityId : String
  mediaType : MediaType
deriving DecidableEq, Repr

/-- The slot of a row. -/
def slotOf (r : Media) : Slot where
  tenantId := r.tenantId
  entityType := r.entityType
  entityId := r.entityId
  mediaType := r.mediaType

/-- The ready rows of a slot. -/
def active (slot : Slot) (rows : List Media) : List Media :=
  rows.filter fun r => slotOf r == slot && r.status == "ready"

/-- Every slot has at most one ready row. -/
def AtMostOne (rows : List Media) : Prop :=
  ∀ slot, (active slot rows).length ≤ 1

/-- The slot of an upload. -/
def UploadCall.slot (call : UploadCall) (mediaType : MediaType) : Slot where
  tenantId := call.tenantId
  entityType := call.entityType
  entityId := call.entityId
  mediaType := mediaType

/-- The ready rows of a slot beside the one that an upload has found. -/
def overlooked (slot : Slot) (existing : Option Media) (rows : List Media) : List Media :=
  (active slot rows).filter fun r => existing.all fun e => e.id != r.id

section Slots

variable {rows rows' : List Media} {slot : Slot} {created : Media}

theorem AtMostOne.of_sublist (h : AtMostOne rows) (hsub : rows'.Sublist rows) :
    AtMostOne rows' :=
  fun slot => (hsub.filter _).length_le.trans (h slot)

theorem active_withoutRow (id : Id) :
    active slot (withoutRow id rows) = withoutRow id (active slot rows) := by
  unfold active withoutRow
  rw [List.filter_filter, List.filter_filter]
  congr 1
  funext r
  exact Bool.and_comm _ _

theorem active_append_created (hready : created.status = "ready") :
    active slot (rows ++ [created]) =
      active slot rows ++ if slotOf created = slot then [created] else [] := by
  unfold active
  rw [List.filter_append, List.filter_singleton, hready]
  by_cases hslot : slotOf created = slot
  · simp [hslot]
  · rw [if_neg hslot, beq_eq_false_iff_ne.mpr hslot]
    rfl

/-- In the slot of its upload a new row stands beside what the upload has overlooked. -/
theorem active_replaceRow {existing : Option Media} (hready : created.status = "ready")
    (hids : ((rows ++ [created]).map (·.id)).Nodup) :
    active (slotOf created)
        (replaceRow created (currentOf created.tenantId existing rows) rows) =
      overlooked (slotOf created) existing rows ++ [created] := by
  unfold overlooked
  cases hcurrent : currentOf created.tenantId existing rows with
  | none =>
      rw [replaceRow, active_append_created hready, if_pos rfl]
      congr 1
      symm
      rw [List.filter_eq_self]
      intro r hr
      rcases List.mem_filter.mp hr with ⟨hmem, hactive⟩
      cases existing with
      | none => rfl
      | some e =>
          have hnone := List.find?_eq_none.mp hcurrent r hmem
          simp only [Bool.and_eq_true, beq_iff_eq] at hactive hnone
          have htenant : r.tenantId = created.tenantId := congrArg Slot.tenantId hactive.1
          simp only [Option.all_some, bne_iff_ne, ne_eq]
          exact fun hid => hnone ⟨⟨hid, hactive.2⟩, htenant⟩
  | some old =>
      cases existing with
      | none => cases hcurrent
      | some e =>
          have hold := List.mem_of_find?_eq_some hcurrent
          have hfound := List.find?_some hcurrent
          simp only [Bool.and_eq_true, beq_iff_eq] at hfound
          have hnew : old.id ≠ created.id := by
            rw [List.map_append, List.nodup_append] at hids
            exact hids.2.2 _ (List.mem_map_of_mem hold) _ (by simp)
          rw [replaceRow, active_withoutRow, active_append_created hready, if_pos rfl]
          unfold withoutRow
          rw [List.filter_append, List.filter_singleton, beq_eq_false_iff_ne.mpr hnew]
          simp [hfound.1.1, bne]

/-- An upload overlooks nothing where every ready row of the slot is the one it has found. -/
theorem overlooked_eq_nil_iff {existing : Option Media} :
    overlooked slot existing rows = [] ↔ ∀ r ∈ rows, r.status = "ready" → slotOf r = slot →
      ∃ e ∈ existing, e.id = r.id := by
  unfold overlooked active
  simp only [List.filter_eq_nil_iff, List.mem_filter, Bool.and_eq_true, beq_iff_eq, and_imp]
  refine forall_congr' fun r => forall_congr' fun _ => ?_
  cases existing with
  | none =>
      constructor
      · exact fun h hready hslot => absurd rfl (h hslot hready)
      · rintro h hslot hready -
        rcases h hready hslot with ⟨e, he, _⟩
        cases he
  | some e =>
      constructor
      · intro h hready hslot
        exact ⟨e, rfl, by simpa using h hslot hready⟩
      · rintro h hslot hready
        rcases h hready hslot with ⟨_, he, hid⟩
        cases he
        simpa using hid

/-- In another slot nothing is added. -/
theorem active_replaceRow_of_ne {current : Option Media} (hslot : slotOf created ≠ slot)
    (hready : created.status = "ready") :
    (active slot (replaceRow created current rows)).Sublist (active slot rows) := by
  cases current with
  | none =>
      rw [replaceRow, active_append_created hready, if_neg hslot, List.append_nil]
  | some old =>
      rw [replaceRow, active_withoutRow, active_append_created hready, if_neg hslot,
        List.append_nil]
      exact List.filter_sublist

/-- At most one row per slot is left exactly when the upload has overlooked none. -/
theorem atMostOne_replaceRow_iff {existing : Option Media} (h : AtMostOne rows)
    (hready : created.status = "ready") (hids : ((rows ++ [created]).map (·.id)).Nodup) :
    AtMostOne (replaceRow created (currentOf created.tenantId existing rows) rows) ↔
      overlooked (slotOf created) existing rows = [] := by
  constructor
  · intro hafter
    have hslot := hafter (slotOf created)
    rw [active_replaceRow hready hids, List.length_append, List.length_singleton] at hslot
    exact List.length_eq_zero_iff.mp (by omega)
  · intro hnone slot
    by_cases hslot : slotOf created = slot
    · rw [← hslot, active_replaceRow hready hids, hnone]
      rfl
    · exact (active_replaceRow_of_ne hslot hready).length_le.trans (h slot)

end Slots

/-! ## The rows after a step -/

section Steps

variable {T : Id} {w w' : World} {s : MediaState} {choice : Choice}

/-- A tenant's context reaches the media only if the tenant's id is not empty. -/
theorem holds_of_sees {T : Id} {env : MediaEnv} {S : Option Id}
    (h : ({ env with context := { tenantId := some T } } : MediaEnv).context.Sees S) :
    ({ env with context := { tenantId := some T } } : MediaEnv).context.Holds T := by
  cases S with
  | none =>
      rcases h with ⟨_, howner⟩
      cases howner
  | some T' =>
      rcases h with ⟨htenant, hnonempty⟩
      cases htenant
      exact ⟨rfl, hnonempty⟩

/-- The transaction of an upload commits in the context of a tenant only. -/
theorem holds_of_uploadTransaction {deleteMany : DeleteMany} {call : UploadCall}
    {mediaType : MediaType} {target : AttemptFiles} {existing : Option Media}
    {result : UploadResult}
    (h : uploadTransaction deleteMany (choice.inTenant call.tenantId) call mediaType target
      existing w = (.ok result, w')) :
    (choice.inTenant call.tenantId).context.Holds call.tenantId := by
  rcases Fallible.bind_eq_ok.mp h with ⟨_, w₁, _, hrest⟩
  rcases Fallible.bind_eq_ok.mp hrest with ⟨_, w₂, hcreate, _⟩
  rcases sees_of_run_ok (by decide) hcreate with ⟨S, hsees⟩
  exact holds_of_sees hsees

/-- So does that of a removal. -/
theorem holds_of_removeTransaction {deleteMany : DeleteMany} {id : Id} {shouldDelete : Bool}
    (h : removeTransaction deleteMany (choice.inTenant T).toEnv id T w = (.ok shouldDelete, w')) :
    (choice.inTenant T).context.Holds T := by
  rcases Fallible.bind_eq_ok.mp h with ⟨_, w₁, hfind, _⟩
  rcases sees_of_run_ok (by decide) hfind with ⟨S, hsees⟩
  exact holds_of_sees hsees

theorem enqueueReplaced_world (env : MediaEnv) (result : UploadResult) (s : MediaState) :
    (enqueueReplaced env result s).2.world = s.world := by
  unfold enqueueReplaced
  cases result.oldStorageKey with
  | none => rfl
  | some oldStorageKey =>
      simp only
      split <;> rfl

/-- Only the step that commits writes to the database. -/
theorem uploadStep_world {call : UploadCall} {stage : UploadStage}
    (hstage : ∀ found attempt target keys, stage ≠ .committing found attempt target keys) :
    (uploadStep deleteMatching choice call s stage).1.world = s.world := by
  cases stage with
  | start =>
      simp only [uploadStep]
      cases validateUpload call with
      | error e => rfl
      | ok mediaType =>
          exact congrArg (·.world)
            (afterStatement_state choice s (findFirst_media_readsOnly _ _) _ _)
  | hashed mediaType existingByChecksum =>
      exact congrArg (·.world)
        (afterStatement_state choice s (findFirst_media_readsOnly _ _) _ _)
  | attempting found attempt =>
      simp only [uploadStep]
      cases found.existingByChecksum with
      | some row => rfl
      | none =>
          simp only
          split <;> rfl
  | writing found attempt target keys outstanding =>
      simp only [uploadStep]
      split
      · rfl
      · split
        · rfl
        · split <;> rfl
  | committing found attempt target keys => exact absurd rfl (hstage found attempt target keys)
  | clearing found attempt outstanding failed =>
      cases outstanding with
      | nil =>
          simp only [uploadStep]
          split <;> rfl
      | cons file outstanding =>
          simp only [uploadStep]
          split <;> rfl
  | committed result => exact enqueueReplaced_world _ result s
  | finished answer => rfl

theorem requeue_world (now : Timestamp) (job : CleanupJob) (storageKeys : List String)
    (s : MediaState) : (requeue now job storageKeys s).world = s.world := by
  simp only [requeue]
  split <;> rfl

/-- The worker does not touch the database. -/
theorem workerStep_world (stage : WorkerStage) : (workerStep choice s stage).1.world = s.world := by
  cases stage with
  | idle =>
      simp only [workerStep]
      split
      · rfl
      · split <;> rfl
  | deleting job outstanding failed =>
      cases outstanding with
      | nil =>
          simp only [workerStep]
          split
          · rfl
          · exact requeue_world _ _ _ _
      | cons file outstanding =>
          simp only [workerStep]
          split
          · rfl
          · rfl
          · exact requeue_world _ _ _ _

/-- A removal only deletes rows. -/
theorem removalStep_media (id : Id) (stage : RemovalStage) :
    (removalStep deleteMatching choice id T s stage).1.world.db.media.Sublist
      s.world.db.media := by
  cases stage with
  | start =>
      simp only [removalStep]
      rw [afterStatement_state choice s (findMedia_readsOnly _ _ _)]
  | removing row attempt =>
      simp only [removalStep]
      rcases afterTransaction_cases choice s
        (removeTransaction deleteMatching (choice.inTenant T).toEnv id T)
        (retryOr attempt (.removing row) fun e => RemovalStage.finished (.error e))
        (fun e => .finished (.error e)) (.removed row) with ⟨b, _, hstep⟩ | ⟨a, w', _, hrun, hstep⟩
      · rw [hstep]
      · rw [hstep]
        have hok := removeTransaction_ok (holds_of_removeTransaction hrun) hrun
        split at hok
        · rw [hok.1]
        · rw [hok.1]
          exact List.filter_sublist
  | removed row shouldDeleteFiles =>
      simp only [removalStep]
      split <;> exact List.Sublist.refl _
  | finished answer => exact List.Sublist.refl _

end Steps

/-! ## Uploads that commit -/

/-- An upload whose transaction commits. -/
structure Commit where
  call : UploadCall
  found : Lookups
  target : AttemptFiles

/-- The row that a commit creates. -/
def Commit.created (commit : Commit) (choice : Choice) : Media :=
  uploadRow (choice.inTenant commit.call.tenantId) commit.call commit.found.mediaType
    commit.target

section Runs

variable {ι : Type} [DecidableEq ι]

/-- The commit that a step makes. -/
def commitOf (c : Config ι MediaState Phase) (l : ι × Choice) : Option Commit :=
  match c.phase l.1 with
  | .upload call (.committing found _ target _) =>
      if l.2.event = .works ∧ (uploadTransaction deleteMatching (l.2.inTenant call.tenantId) call
          found.mediaType target found.existing c.shared.world).1.toOption.isSome then
        some ⟨call, found, target⟩
      else none
  | _ => none

/-- Where the step commits an upload, every ready row of its slot is the one that the upload has
looked up. -/
def ReplacesAll (c : Config ι MediaState Phase) (l : ι × Choice) : Prop :=
  ∀ commit ∈ commitOf c l, ∀ r ∈ c.shared.world.db.media, r.status = "ready" →
    slotOf r = commit.call.slot commit.found.mediaType →
      ∃ e ∈ commit.found.existing, e.id = r.id

omit [DecidableEq ι] in
/-- The phase before a commit. -/
theorem commitOf_eq_some {c : Config ι MediaState Phase} {l : ι × Choice} {commit : Commit}
    (h : commitOf c l = some commit) :
    ∃ attempt keys, c.phase l.1 = .upload commit.call
        (.committing commit.found attempt commit.target keys) ∧ l.2.event = .works ∧
      ∃ result w', uploadTransaction deleteMatching (l.2.inTenant commit.call.tenantId)
        commit.call commit.found.mediaType commit.target commit.found.existing c.shared.world =
          (.ok result, w') := by
  unfold commitOf at h
  split at h
  · rename_i call found attempt target keys hphase
    split at h
    · rename_i hcommits
      cases h
      refine ⟨attempt, keys, hphase, hcommits.1, ?_⟩
      rcases hrun : uploadTransaction deleteMatching (l.2.inTenant call.tenantId) call
        found.mediaType target found.existing c.shared.world with ⟨e | result, w'⟩
      · rw [hrun] at hcommits
        cases hcommits.2
      · exact ⟨result, w', rfl⟩
    · cases h
  · cases h

/-- The rows after a commit. -/
theorem step_of_commit {c : Config ι MediaState Phase} {l : ι × Choice} {commit : Commit}
    (h : commitOf c l = some commit) :
    ((c.shared.world.db.media ++ [commit.created l.2]).map (·.id)).Nodup ∧
      ((mediaCalls ι deleteMatching).step c l).shared.world.db.media =
        replaceRow (commit.created l.2)
          (currentOf commit.call.tenantId commit.found.existing c.shared.world.db.media)
          c.shared.world.db.media := by
  rcases commitOf_eq_some h with ⟨attempt, keys, hphase, hevent, result, w', hrun⟩
  have hok := uploadTransaction_ok (holds_of_uploadTransaction hrun) hrun
  refine ⟨hok.1, ?_⟩
  rw [CallSystem.step_shared, hphase]
  simp only [mediaCalls, uploadStep, afterTransaction, afterStatement, hevent]
  rw [if_neg (by decide), if_pos trivial]
  unfold onWorld
  rw [Fallible.transaction_eq_ok.mpr hrun]
  exact hok.2.1

/-- A step that commits no upload only deletes rows. -/
theorem step_of_no_commit {c : Config ι MediaState Phase} {l : ι × Choice}
    (h : commitOf c l = none) :
    ((mediaCalls ι deleteMatching).step c l).shared.world.db.media.Sublist
      c.shared.world.db.media := by
  rw [CallSystem.step_shared]
  cases hphase : c.phase l.1 with
  | worker stage =>
      simp only [mediaCalls]
      rw [workerStep_world]
  | removal id tenantId stage =>
      simp only [mediaCalls]
      exact removalStep_media id stage
  | upload call stage =>
      simp only [mediaCalls]
      by_cases hstage : ∃ found attempt target keys, stage = .committing found attempt target keys
      · rcases hstage with ⟨found, attempt, target, keys, rfl⟩
        simp only [uploadStep]
        rcases afterTransaction_cases l.2 c.shared
          (uploadTransaction deleteMatching (l.2.inTenant call.tenantId) call found.mediaType target
            found.existing)
          (if keys.isEmpty then retryOr attempt (.attempting found) fun e =>
              UploadStage.finished (.error e)
            else .clearing found attempt keys [])
          (fun e => .finished (.error e)) .committed with ⟨b, _, hstep⟩ | ⟨a, w', hevent, hrun, _⟩
        · rw [hstep]
        · unfold commitOf at h
          rw [hphase] at h
          simp only at h
          rw [if_pos ⟨hevent, by rw [hrun]; rfl⟩] at h
          cases h
      · rw [uploadStep_world fun found attempt target keys h =>
          hstage ⟨found, attempt, target, keys, h⟩]

/-- A step leaves at most one ready row per slot exactly when it replaces all of them. -/
theorem step_atMostOne_iff (c : Config ι MediaState Phase) (l : ι × Choice)
    (h : AtMostOne c.shared.world.db.media) :
    AtMostOne ((mediaCalls ι deleteMatching).step c l).shared.world.db.media ↔
      ReplacesAll c l := by
  cases hcommit : commitOf c l with
  | none =>
      refine iff_of_true (h.of_sublist (step_of_no_commit hcommit)) ?_
      intro commit hsome
      rw [hcommit] at hsome
      cases hsome
  | some commit =>
      rcases step_of_commit hcommit with ⟨hids, hrows⟩
      have hiff : AtMostOne (replaceRow (commit.created l.2) (currentOf commit.call.tenantId
          commit.found.existing c.shared.world.db.media) c.shared.world.db.media) ↔
          overlooked (commit.call.slot commit.found.mediaType) commit.found.existing
            c.shared.world.db.media = [] :=
        atMostOne_replaceRow_iff h rfl hids
      rw [hrows, hiff, overlooked_eq_nil_iff]
      unfold ReplacesAll
      rw [hcommit]
      simp only [Option.mem_def, Option.some.injEq, forall_eq']

/-- In a run every slot has at most one ready row at all times exactly when every upload that
commits replaces all ready rows of its slot. -/
theorem one_active_iff {c : Config ι MediaState Phase} (h : AtMostOne c.shared.world.db.media)
    (schedule : List (ι × Choice)) :
    (∀ pre, pre <+: schedule →
      AtMostOne ((mediaCalls ι deleteMatching).run c pre).shared.world.db.media) ↔
      (mediaCalls ι deleteMatching).EachStep ReplacesAll c schedule :=
  (mediaCalls ι deleteMatching).prefix_iff_eachStep
    (fun c l => step_atMostOne_iff c l) h schedule

instance (c : Config ι MediaState Phase) (l : ι × Choice) : Decidable (ReplacesAll c l) :=
  inferInstanceAs (Decidable (∀ commit ∈ commitOf c l, _))

end Runs

/-! ## Two uploads to one slot -/

/-- The restaurant before its first logo. -/
def bareBistro : MediaState where
  world := { db := { tenants := [{ id := "tenant-a", name := "Bistro" }] } }

def firstLogo : UploadCall :=
  logoUpload (digestOf '1' (by decide))

def secondLogo : UploadCall :=
  logoUpload (digestOf '2' (by decide))

/-- Two uploads that have not begun. -/
def twoUploads : Config Bool MediaState Phase where
  shared := bareBistro
  phase second := .upload (if second then secondLogo else firstLogo) .start

/-- What the surroundings choose for the first and for the second upload. -/
def uploadEnv (second : Bool) : MediaEnv :=
  { bistroEnv with uuid := fun _ => if second then "media-2" else "media-1" }

/-- The two lookups of an upload. -/
def lookupSteps (second : Bool) : List (Bool × Choice) :=
  List.replicate 2 (second, { env := uploadEnv second })

/-- An attempt of an upload: its files, its transaction and what is queued after it. -/
def attemptSteps (second : Bool) : List (Bool × Choice) :=
  let files := attemptStorageKeys (if second then secondLogo else firstLogo) .LOGO
    (uploadEnv second).now
  (second, { env := uploadEnv second }) ::
    files.map (fun file => (second, { env := uploadEnv second, file := file })) ++
      List.replicate 3 (second, { env := uploadEnv second })

theorem bareBistro_atMostOne : AtMostOne twoUploads.shared.world.db.media :=
  fun _ => Nat.zero_le 1

/-- One upload after the other leaves one logo at all times. -/
theorem logos_in_turn :
    AtMostOne ((mediaCalls Bool deleteMatching).run twoUploads (lookupSteps false ++
      attemptSteps false ++ lookupSteps true ++ attemptSteps true)).shared.world.db.media :=
  (one_active_iff bareBistro_atMostOne _).mpr (by decide +kernel) _ (List.prefix_refl _)

/-- Two uploads that both look the empty slot up before the first one commits leave two logos. -/
theorem two_logos :
    ¬ AtMostOne ((mediaCalls Bool deleteMatching).run twoUploads (lookupSteps false ++
      lookupSteps true ++ attemptSteps false ++ attemptSteps true)).shared.world.db.media := by
  intro h
  have hslot := h ⟨"tenant-a", "restaurant", "restaurant-1", .LOGO⟩
  exact absurd hslot (by decide +kernel)

end MediaService
end Eleva
