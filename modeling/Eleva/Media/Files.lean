import Eleva.Media.Slots

/-!
# Media - Files that are still needed

An upload whose contents are stored already uses the files of the row that its lookup found.  A
replacement or a removal that leaves no ready row with a storage key has the files of the key
deleted, later and outside its transaction.

Main results:

- Theorem {lit}`eq_of_mem_cleanupKeys`: files of one storage key are deleted for that key only.
- Theorem {lit}`Sound.step`: what a call does to the files keeps them sound.
- Theorem {lit}`files_kept`: in every run in which reused files are still referenced at the commit
  and new storage keys are new, the files of the ready rows are there and are not to be deleted.
- Theorem {lit}`logo_lost`: an upload that commits files which a removal has already given up.
-/

namespace Eleva

namespace Foundation

/-- Texts that end differently differ. -/
theorem append_ne_append {a b s t : String} (hst : ¬ s.toList <:+ t.toList)
    (hts : ¬ t.toList <:+ s.toList) : a ++ s ≠ b ++ t := by
  intro h
  have hchars : a.toList ++ s.toList = b.toList ++ t.toList := by
    rw [← String.toList_append, h, String.toList_append]
  have hs : s.toList <:+ a.toList ++ s.toList := List.suffix_append _ _
  have ht : t.toList <:+ a.toList ++ s.toList := by
    rw [hchars]
    exact List.suffix_append _ _
  rcases Nat.le_total s.toList.length t.toList.length with hle | hle
  · exact hst (List.suffix_of_suffix_length_le hs ht hle)
  · exact hts (List.suffix_of_suffix_length_le ht hs hle)

/-- Texts that are equal up to the same ending are equal. -/
theorem append_right_inj_of_eq {a b s : String} (h : a ++ s = b ++ s) : a = b := by
  have hchars : a.toList ++ s.toList = b.toList ++ s.toList := by
    rw [← String.toList_append, h, String.toList_append]
  exact String.toList_inj.mp (List.append_cancel_right hchars)

theorem endsWith_append (a s : String) : endsWith (a ++ s) s = true := by
  unfold endsWith
  rw [List.isSuffixOf_iff_suffix, String.toList_append]
  exact List.suffix_append _ _

/-- A text with one ending does not have another. -/
theorem endsWith_append_of_ne {a s t : String} (hst : ¬ s.toList <:+ t.toList)
    (hts : ¬ t.toList <:+ s.toList) : endsWith (a ++ s) t = false := by
  cases hends : endsWith (a ++ s) t with
  | false => rfl
  | true =>
      unfold endsWith at hends
      rw [List.isSuffixOf_iff_suffix, String.toList_append] at hends
      have hs : s.toList <:+ a.toList ++ s.toList := List.suffix_append _ _
      rcases Nat.le_total s.toList.length t.toList.length with hle | hle
      · exact absurd (List.suffix_of_suffix_length_le hs hends hle) hst
      · exact absurd (List.suffix_of_suffix_length_le hends hs hle) hts

end Foundation

namespace MediaService

open Foundation Database TableOf

/-! ## Files of different storage keys -/

/-- How the names of the files of an image end. -/
def imageEndings : List String :=
  ["-original.webp", "-thumbnail.webp", "-medium.webp", "-large.webp"]

theorem mem_imageKeys {storageKey file : String} :
    file ∈ imageKeys storageKey ↔ ∃ ending ∈ imageEndings, file = storageKey ++ ending := by
  simp [imageKeys, imageEndings]

/-- No ending of an image file ends in another one, or in that of a document. -/
theorem imageEndings_apart : ∀ s ∈ imageEndings, ¬ s.toList <:+ ".pdf".toList ∧
    ¬ ".pdf".toList <:+ s.toList ∧ ∀ t ∈ imageEndings, s ≠ t → ¬ s.toList <:+ t.toList := by
  decide

theorem endsWith_image {storageKey ending : String} (h : ending ∈ imageEndings) :
    endsWith (storageKey ++ ending) ".pdf" = false :=
  endsWith_append_of_ne (imageEndings_apart ending h).1 (imageEndings_apart ending h).2.1

/-- Files of images with different keys are different. -/
theorem eq_of_mem_imageKeys {key key' file : String} (h : file ∈ imageKeys key)
    (h' : file ∈ imageKeys key') : key = key' := by
  rcases mem_imageKeys.mp h with ⟨s, hs, rfl⟩
  rcases mem_imageKeys.mp h' with ⟨t, ht, heq⟩
  by_cases hst : s = t
  · subst hst
    exact append_right_inj_of_eq heq
  · exact absurd heq (append_ne_append ((imageEndings_apart s hs).2.2 t ht hst)
      ((imageEndings_apart t ht).2.2 s hs (Ne.symm hst)))

theorem mem_cleanupKeys {key file : String} :
    file ∈ cleanupKeys key ↔ file ∈ imageKeys key ∨ (endsWith key ".pdf" = true ∧ file = key) := by
  unfold cleanupKeys
  rw [List.mem_append]
  split
  · simp_all
  · simp_all

/-- The files behind a key are among those that are deleted for it. -/
theorem storedFiles_subset {key file : String} (h : file ∈ storedFiles key) :
    file ∈ cleanupKeys key := by
  rw [mem_cleanupKeys]
  unfold storedFiles at h
  split at h
  · next hends => exact Or.inr ⟨hends, List.mem_singleton.mp h⟩
  · exact Or.inl h

/-- Files of one storage key are deleted for that key only. -/
theorem eq_of_mem_cleanupKeys {key key' file : String} (h : file ∈ cleanupKeys key)
    (h' : file ∈ cleanupKeys key') : key = key' := by
  rcases mem_cleanupKeys.mp h with himage | ⟨hends, rfl⟩
  · rcases mem_cleanupKeys.mp h' with himage' | ⟨hends', rfl⟩
    · exact eq_of_mem_imageKeys himage himage'
    · rcases mem_imageKeys.mp himage with ⟨s, hs, rfl⟩
      rw [endsWith_image hs] at hends'
      cases hends'
  · rcases mem_cleanupKeys.mp h' with himage' | ⟨_, heq⟩
    · rcases mem_imageKeys.mp himage' with ⟨s, hs, rfl⟩
      rw [endsWith_image hs] at hends
      cases hends
    · exact heq

/-- Every storage key has files. -/
theorem original_mem_cleanupKeys (key : String) : key ++ "-original.webp" ∈ cleanupKeys key :=
  mem_cleanupKeys.mpr (Or.inl (mem_imageKeys.mpr ⟨_, by decide, rfl⟩))

/-- A key that ends with digits is not that of a document. -/
theorem attemptKey_not_document (call : UploadCall) (mediaType : MediaType) (now : Timestamp) :
    endsWith (attemptKey call mediaType now) ".pdf" = false := by
  cases hends : endsWith (attemptKey call mediaType now) ".pdf" with
  | false => rfl
  | true =>
      let digits := call.file.checksum.digest.toList.take 8
      obtain ⟨front, hkey⟩ : ∃ front, attemptKey call mediaType now =
        front ++ String.ofList digits := ⟨_, rfl⟩
      unfold endsWith at hends
      rw [hkey, List.isSuffixOf_iff_suffix, String.toList_append,
        String.toList_ofList (l := digits)] at hends
      have hlength : digits.length = 8 := by
        rw [List.length_take, String.length_toList, call.file.checksum.length]
        rfl
      have hdigits : digits <:+ front.toList ++ digits := List.suffix_append _ _
      have hsuffix : ".pdf".toList <:+ digits :=
        List.suffix_of_suffix_length_le hends hdigits (by rw [hlength]; decide)
      have hp : 'p' ∈ digits := hsuffix.subset (by decide)
      exact absurd (call.file.checksum.hex 'p' (List.mem_of_mem_take hp)) (by decide)

/-- An attempt writes the files behind its storage key. -/
theorem attemptStorageKeys_eq {env : MediaEnv} {call : UploadCall} {mediaType : MediaType}
    {target : AttemptFiles} (h : newFiles env call mediaType = .ok target) :
    attemptStorageKeys call mediaType env.now = storedFiles target.storageKey := by
  have himage : storedFiles (attemptKey call mediaType env.now) =
      imageKeys (attemptKey call mediaType env.now) := by
    unfold storedFiles
    rw [attemptKey_not_document]
    rfl
  cases mediaType with
  | DOCUMENT =>
      cases h
      unfold storedFiles
      rw [if_pos (endsWith_append _ _)]
      rfl
  | IMAGE | LOGO | BANNER | AVATAR =>
      rcases hprocessed : call.file.processed with e | processed
      · simp only [newFiles, hprocessed] at h
        cases h
      · simp only [newFiles, hprocessed] at h
        cases h
        exact himage.symm

/-! ## What a call owns and gives up -/

/-- The files that a call writes or deletes for its own attempt. -/
def owned : Phase → List String
  | .upload _ (.writing _ _ target _ _) => cleanupKeys target.storageKey
  | .upload _ (.committing found _ target _) =>
      if found.existingByChecksum.isNone then cleanupKeys target.storageKey else []
  | .upload _ (.clearing _ _ outstanding failed) => outstanding ++ failed
  | _ => []

/-- The files that a call is about to have deleted, or deletes. -/
def doomed : Phase → List String
  | .upload _ (.committed result) =>
      if result.shouldDeleteOldFiles then (result.oldStorageKey.map cleanupKeys).getD [] else []
  | .removal _ _ (.removed row true) => cleanupKeys row.storageKey
  | .worker (.deleting job outstanding failed) => job.storageKeys ++ outstanding ++ failed
  | _ => []

/-- A job of the queue names the file. -/
def Queued (s : MediaState) (file : String) : Prop :=
  ∃ job ∈ s.queue, file ∈ job.storageKeys

/-- What a call has found and written is still as it needs it. -/
def Phase.Holds (s : MediaState) : Phase → Prop
  | .upload _ (.writing found _ target keys outstanding) =>
      found.existingByChecksum = none ∧ keys = storedFiles target.storageKey ∧
        ∀ file ∈ keys, file ∈ outstanding ∨ file ∈ s.files
  | .upload _ (.committing found _ target keys) =>
      match found.existingByChecksum with
      | none => keys = storedFiles target.storageKey ∧ ∀ file ∈ keys, file ∈ s.files
      | some row => keys = [] ∧ target = reusedFiles row
  | .removal id _ (.removing row _) => row.id = id ∧
      ∀ r ∈ s.world.db.media, r.id = row.id → r.storageKey = row.storageKey
  | _ => True

/-- The row that a removal has found. -/
def sought : Phase → Option Id
  | .removal _ _ (.removing row _) => some row.id
  | _ => none

section Soundness

variable {ι : Type}

/-- A call or the queue is going to have the file deleted. -/
def Doomed (c : Config ι MediaState Phase) (file : String) : Prop :=
  Queued c.shared file ∨ ∃ i, file ∈ doomed (c.phase i)

/-- Neither a row nor a deletion names the file. -/
structure Unnamed (c : Config ι MediaState Phase) (file : String) : Prop where
  rows : ∀ r ∈ c.shared.world.db.media, file ∉ cleanupKeys r.storageKey
  deletions : ¬ Doomed c file

/-- The files of the ready rows are there and not to be deleted, rows of different tenants share
no files, and the files of an attempt are its own. -/
structure Sound (c : Config ι MediaState Phase) : Prop where
  ids : (c.shared.world.db.media.map (·.id)).Nodup
  kept : ∀ r ∈ c.shared.world.db.media, r.status = "ready" →
    ∀ file ∈ storedFiles r.storageKey, file ∈ c.shared.files ∧ ¬ Doomed c file
  tenants : ∀ r ∈ c.shared.world.db.media, ∀ r' ∈ c.shared.world.db.media,
    r.storageKey = r'.storageKey → r.tenantId = r'.tenantId
  owned : ∀ i, ∀ file ∈ owned (c.phase i), Unnamed c file ∧
    ∀ j, j ≠ i → file ∉ MediaService.owned (c.phase j)
  holds : ∀ i, (c.phase i).Holds c.shared

/-- How a row that a step creates comes by its files: another ready row of the tenant has them,
or they are the call's own. -/
structure Backed (c : Config ι MediaState Phase) (i : ι) (s' : MediaState) (p' : Phase)
    (created : Media) : Prop where
  files : (∃ r ∈ c.shared.world.db.media, r.status = "ready" ∧
      r.storageKey = created.storageKey ∧ r.tenantId = created.tenantId) ∨
    ((∀ file ∈ cleanupKeys created.storageKey, file ∈ MediaService.owned (c.phase i)) ∧
      (∀ file ∈ storedFiles created.storageKey, file ∈ s'.files ∧ ¬ Queued s' file ∧
        file ∉ doomed p') ∧ MediaService.owned p' = [])
  id : ∀ j, sought (c.phase j) ≠ some created.id

/-- What a step may do to rows, files and queue. -/
structure Move (c : Config ι MediaState Phase) (i : ι) (s' : MediaState) (p' : Phase)
    (created : Option Media) : Prop where
  ids : (s'.world.db.media.map (·.id)).Nodup
  rows : ∀ r ∈ s'.world.db.media, r ∈ c.shared.world.db.media ∨ created = some r
  backed : ∀ r, created = some r → Backed c i s' p' r
  files : ∀ file ∈ c.shared.files, file ∈ s'.files ∨ Doomed c file ∨
    file ∈ owned (c.phase i)
  dooms : ∀ file, Queued s' file ∨ file ∈ doomed p' → Doomed c file ∨
    (file ∈ owned (c.phase i) ∧ file ∉ owned p') ∨
    ∃ old ∈ c.shared.world.db.media, file ∈ cleanupKeys old.storageKey ∧
      ∀ r ∈ s'.world.db.media, r.status = "ready" → r.storageKey ≠ old.storageKey
  owns : ∀ file ∈ owned p', file ∈ owned (c.phase i) ∨
    (Unnamed c file ∧ ∀ j, file ∉ owned (c.phase j))
  holds : p'.Holds s'

/-! ## A step keeps the files sound -/

variable [DecidableEq ι] {c : Config ι MediaState Phase} {i : ι} {s' : MediaState} {p' : Phase}
  {created : Option Media}

/-- The configuration after a call has moved. -/
def moved (c : Config ι MediaState Phase) (i : ι) (s' : MediaState) (p' : Phase) :
    Config ι MediaState Phase where
  shared := s'
  phase := Function.update c.phase i p'

@[simp]
theorem moved_phase_self : (moved c i s' p').phase i = p' := by
  simp [moved]

theorem moved_phase_of_ne {j : ι} (hj : j ≠ i) :
    (moved c i s' p').phase j = c.phase j := by
  simp [moved, Function.update_of_ne hj]

/-- A file that is to be deleted after a step was so before, was the call's own, or has lost its
last row. -/
theorem Move.doomed_cases (hmove : Move c i s' p' created) {file : String}
    (h : Doomed (moved c i s' p') file) :
    Doomed c file ∨ (file ∈ owned (c.phase i) ∧ file ∉ owned p') ∨
      ∃ old ∈ c.shared.world.db.media, file ∈ cleanupKeys old.storageKey ∧
        ∀ r ∈ s'.world.db.media, r.status = "ready" → r.storageKey ≠ old.storageKey := by
  rcases h with hqueue | ⟨j, hdoomed⟩
  · exact hmove.dooms file (Or.inl hqueue)
  · by_cases hj : j = i
    · subst hj
      rw [moved_phase_self] at hdoomed
      exact hmove.dooms file (Or.inr hdoomed)
    · rw [moved_phase_of_ne hj] at hdoomed
      exact Or.inl (Or.inr ⟨j, hdoomed⟩)

/-- The files of a row that was there before stay, and stay needed. -/
theorem Move.kept_of_row (h : Sound c) (hmove : Move c i s' p' created) {r₀ : Media}
    (hr₀ : r₀ ∈ c.shared.world.db.media) (hready : r₀.status = "ready") {r : Media}
    (hr : r ∈ s'.world.db.media) (hrready : r.status = "ready")
    (hkey : r₀.storageKey = r.storageKey) {file : String}
    (hfile : file ∈ storedFiles r.storageKey) :
    file ∈ s'.files ∧ ¬ Doomed (moved c i s' p') file := by
  rw [← hkey] at hfile
  rcases h.kept r₀ hr₀ hready file hfile with ⟨hstored, hneeded⟩
  have hforeign : file ∉ owned (c.phase i) := fun hown =>
    (h.owned i file hown).1.rows r₀ hr₀ (storedFiles_subset hfile)
  constructor
  · rcases hmove.files file hstored with hthere | hdoomed | hown
    · exact hthere
    · exact absurd hdoomed hneeded
    · exact absurd hown hforeign
  · intro hdoomed
    rcases hmove.doomed_cases hdoomed with hbefore | ⟨hown, _⟩ | ⟨old, _, hold, hdead⟩
    · exact hneeded hbefore
    · exact hforeign hown
    · exact hdead r hr hrready
        (hkey.symm.trans (eq_of_mem_cleanupKeys (storedFiles_subset hfile) hold))

/-- A file that nothing named and that no created row has is still named by nothing. -/
theorem Move.unnamed (hmove : Move c i s' p' created) {file : String} (h : Unnamed c file)
    (hcreated : ∀ r, created = some r → file ∉ cleanupKeys r.storageKey)
    (hown : file ∈ owned (c.phase i) → file ∈ owned p') :
    Unnamed (moved c i s' p') file where
  rows r hr := by
    rcases hmove.rows r hr with hbefore | hnew
    · exact h.rows r hbefore
    · exact hcreated r hnew
  deletions hdoomed := by
    rcases hmove.doomed_cases hdoomed with hbefore | ⟨hmine, hdropped⟩ | ⟨old, hold, hfile, _⟩
    · exact h.deletions hbefore
    · exact hdropped (hown hmine)
    · exact h.rows old hold hfile

omit [DecidableEq ι] in
/-- A file that nothing names is none of a row that another row backs. -/
theorem Backed.not_mem {r : Media} (hbacked : Backed c i s' p' r) {file : String}
    (h : Unnamed c file) (hown : file ∉ owned (c.phase i)) : file ∉ cleanupKeys r.storageKey := by
  intro hfile
  rcases hbacked.files with ⟨r₀, hr₀, _, hkey, _⟩ | ⟨hfiles, _⟩
  · exact h.rows r₀ hr₀ (by rw [hkey]; exact hfile)
  · exact hown (hfiles file hfile)

omit [DecidableEq ι] in
/-- Rows of different tenants share no files after a step. -/
theorem Move.tenants (h : Sound c) (hmove : Move c i s' p' created) {r r' : Media}
    (hr : r ∈ s'.world.db.media) (hr' : r' ∈ s'.world.db.media)
    (hkey : r.storageKey = r'.storageKey) : r.tenantId = r'.tenantId := by
  have hone : ∀ {old new : Media}, old ∈ c.shared.world.db.media → created = some new →
      old.storageKey = new.storageKey → old.tenantId = new.tenantId := by
    intro old new hold hnew hsame
    rcases (hmove.backed new hnew).files with ⟨r₀, hr₀, _, hkey₀, htenant₀⟩ | ⟨hfiles, _⟩
    · exact (h.tenants old hold r₀ hr₀ (hsame.trans hkey₀.symm)).trans htenant₀
    · have hfile := original_mem_cleanupKeys new.storageKey
      have hrows := (h.owned i _ (hfiles _ hfile)).1.rows old hold
      rw [hsame] at hrows
      exact absurd hfile hrows
  rcases hmove.rows r hr with hold | hnew
  · rcases hmove.rows r' hr' with hold' | hnew'
    · exact h.tenants r hold r' hold' hkey
    · exact hone hold hnew' hkey
  · rcases hmove.rows r' hr' with hold' | hnew'
    · exact (hone hold' hnew hkey.symm).symm
    · rw [hnew] at hnew'
      rw [Option.some.inj hnew']

omit [DecidableEq ι] in
/-- What another call has found and written is still as it needs it. -/
theorem Move.holds_other (h : Sound c) (hmove : Move c i s' p' created) {j : ι} (hj : j ≠ i) :
    (c.phase j).Holds s' := by
  have hkeep : ∀ file ∈ owned (c.phase j), file ∈ c.shared.files → file ∈ s'.files := by
    intro file hown hstored
    rcases h.owned j file hown with ⟨hunnamed, hexclusive⟩
    rcases hmove.files file hstored with hthere | hdoomed | hmine
    · exact hthere
    · exact absurd hdoomed hunnamed.deletions
    · exact absurd hmine (hexclusive i (Ne.symm hj))
  have hnow := h.holds j
  cases hphase : c.phase j with
  | worker stage => trivial
  | upload call stage =>
      rw [hphase] at hnow hkeep
      cases stage with
      | writing found attempt target keys outstanding =>
          rcases hnow with ⟨hnone, hkeys, hwritten⟩
          refine ⟨hnone, hkeys, fun file hfile => ?_⟩
          rcases hwritten file hfile with hout | hstored
          · exact Or.inl hout
          · rw [hkeys] at hfile
            exact Or.inr (hkeep file (storedFiles_subset hfile) hstored)
      | committing found attempt target keys =>
          simp only [Phase.Holds] at hnow ⊢
          cases hreuse : found.existingByChecksum with
          | some row =>
              rw [hreuse] at hnow
              exact hnow
          | none =>
              rw [hreuse] at hnow
              refine ⟨hnow.1, fun file hfile => ?_⟩
              have hstored := hnow.2 file hfile
              rw [hnow.1] at hfile
              refine hkeep file ?_ hstored
              simp only [owned, hreuse]
              exact storedFiles_subset hfile
      | start | hashed | attempting | clearing | committed | finished => trivial
  | removal id tenantId stage =>
      rw [hphase] at hnow
      cases stage with
      | removing row attempt =>
          refine ⟨hnow.1, fun r hr hid => ?_⟩
          rcases hmove.rows r hr with hold | hnew
          · exact hnow.2 r hold hid
          · have hnewId := (hmove.backed r hnew).id j
            rw [hphase] at hnewId
            exact absurd (congrArg some hid.symm) hnewId
      | start | removed | finished => trivial

/-- What a call may do keeps the files sound. -/
theorem Sound.step (h : Sound c) (hmove : Move c i s' p' created) :
    Sound (moved c i s' p') where
  ids := hmove.ids
  kept r hr hready file hfile := by
    rcases hmove.rows r hr with hold | hnew
    · exact hmove.kept_of_row h hold hready hr hready rfl hfile
    · rcases (hmove.backed r hnew).files with ⟨r₀, hr₀, hready₀, hkey, _⟩ | ⟨hfiles, hstored, _⟩
      · exact hmove.kept_of_row h hr₀ hready₀ hr hready hkey hfile
      · rcases hstored file hfile with ⟨hthere, hqueue, hdoomed⟩
        refine ⟨hthere, ?_⟩
        rintro (hqueued | ⟨j, hj⟩)
        · exact hqueue hqueued
        · by_cases hji : j = i
          · subst hji
            rw [moved_phase_self] at hj
            exact hdoomed hj
          · rw [moved_phase_of_ne hji] at hj
            exact (h.owned i file (hfiles file (storedFiles_subset hfile))).1.deletions
              (Or.inr ⟨j, hj⟩)
  tenants r hr r' hr' hkey := hmove.tenants h hr hr' hkey
  owned k file hfile := by
    by_cases hk : k = i
    · subst hk
      rw [moved_phase_self] at hfile
      have hbefore : Unnamed c file ∧ ∀ j, j ≠ k → file ∉ MediaService.owned (c.phase j) := by
        rcases hmove.owns file hfile with hmine | ⟨hunnamed, hfree⟩
        · exact h.owned k file hmine
        · exact ⟨hunnamed, fun j _ => hfree j⟩
      refine ⟨hmove.unnamed hbefore.1 (fun r hnew => ?_) fun _ => hfile, fun j hj => ?_⟩
      · rcases (hmove.backed r hnew).files with ⟨r₀, hr₀, _, hkey, _⟩ | ⟨_, _, hnone⟩
        · rw [← hkey]
          exact hbefore.1.rows r₀ hr₀
        · rw [hnone] at hfile
          cases hfile
      · rw [moved_phase_of_ne hj]
        exact hbefore.2 j hj
    · rw [moved_phase_of_ne hk] at hfile
      rcases h.owned k file hfile with ⟨hunnamed, hexclusive⟩
      have hforeign := hexclusive i (Ne.symm hk)
      refine ⟨hmove.unnamed hunnamed
        (fun r hnew => (hmove.backed r hnew).not_mem hunnamed hforeign)
        fun hmine => absurd hmine hforeign, fun j hj => ?_⟩
      by_cases hji : j = i
      · subst hji
        rw [moved_phase_self]
        intro hmine
        rcases hmove.owns file hmine with hbefore | ⟨_, hfree⟩
        · exact hforeign hbefore
        · exact hfree k hfile
      · rw [moved_phase_of_ne hji]
        exact hexclusive j hj
  holds k := by
    by_cases hk : k = i
    · subst hk
      rw [moved_phase_self]
      exact hmove.holds
    · rw [moved_phase_of_ne hk]
      exact hmove.holds_other h hk

/-! ## What the calls do -/

omit [DecidableEq ι] in
/-- A move that creates no row and gives up none. -/
theorem Move.quiet (h : Sound c) (hrows : s'.world = c.shared.world)
    (hfiles : ∀ file ∈ c.shared.files, file ∈ s'.files ∨ Doomed c file ∨
      file ∈ owned (c.phase i))
    (hdooms : ∀ file, Queued s' file ∨ file ∈ doomed p' → Doomed c file ∨
      (file ∈ owned (c.phase i) ∧ file ∉ owned p'))
    (howns : ∀ file ∈ owned p', file ∈ owned (c.phase i)) (hholds : p'.Holds s') :
    Move c i s' p' none where
  ids := by
    rw [hrows]
    exact h.ids
  rows r hr := by
    rw [hrows] at hr
    exact Or.inl hr
  backed r hr := by cases hr
  files := hfiles
  dooms file hfile := by
    rcases hdooms file hfile with hbefore | hmine
    · exact Or.inl hbefore
    · exact Or.inr (Or.inl hmine)
  owns file hfile := Or.inl (howns file hfile)
  holds := hholds

omit [DecidableEq ι] in
/-- A move that leaves the state and gives up what the call owned. -/
theorem Move.stay (h : Sound c) (hdoomed : doomed p' = []) (howns : owned p' = [])
    (hholds : p'.Holds c.shared) : Move c i c.shared p' none := by
  refine .quiet h rfl (fun file hfile => Or.inl hfile) ?_ ?_ hholds
  · rintro file (hqueued | hmine)
    · exact Or.inl (Or.inl hqueued)
    · rw [hdoomed] at hmine
      cases hmine
  · intro file hfile
    rw [howns] at hfile
    cases hfile

theorem mem_withoutFile {s : MediaState} (file : String) {f : String} (h : f ∈ s.files) :
    f ∈ (s.withoutFile file).files ∨ f = file := by
  by_cases hf : f = file
  · exact Or.inr hf
  · exact Or.inl (List.mem_filter.mpr ⟨h, by simpa using hf⟩)

/-- What a requeued job names. -/
theorem queued_of_requeue {s : MediaState} {now : Timestamp} {job : CleanupJob}
    {keys : List String} {file : String} (h : Queued (requeue now job keys s) file) :
    Queued s file ∨ file ∈ keys := by
  rcases h with ⟨j, hj, hfile⟩
  simp only [requeue] at hj
  split at hj
  · rcases List.mem_append.mp hj with hold | hnew
    · exact Or.inl ⟨j, hold, hfile⟩
    · rw [List.mem_singleton.mp hnew] at hfile
      exact Or.inr hfile
  · exact Or.inl ⟨j, hj, hfile⟩

theorem queued_of_enqueue {s : MediaState} {now : Timestamp} {type : CleanupType}
    {keys : List String} {file : String} (h : Queued (enqueue now type keys s).2 file) :
    Queued s file ∨ file ∈ keys := by
  rcases h with ⟨job, hjob, hfile⟩
  rcases List.mem_append.mp hjob with hold | hnew
  · exact Or.inl ⟨job, hold, hfile⟩
  · rw [List.mem_singleton.mp hnew] at hfile
    exact Or.inr hfile

theorem requeue_files (now : Timestamp) (job : CleanupJob) (keys : List String)
    (s : MediaState) : (requeue now job keys s).files = s.files := by
  simp only [requeue]
  split <;> rfl

/-- The worker deletes files of the job that it works on only. -/
theorem workerStep_files (choice : Choice) (s : MediaState) (stage : WorkerStage) {file : String}
    (h : file ∈ s.files) :
    file ∈ (workerStep choice s stage).1.files ∨ file ∈ doomed (.worker stage) := by
  cases stage with
  | idle =>
      simp only [workerStep]
      left
      split
      · exact h
      · split <;> exact h
  | deleting job outstanding failed =>
      cases outstanding with
      | nil =>
          simp only [workerStep]
          left
          split
          · exact h
          · rw [requeue_files]
            exact h
      | cons next outstanding =>
          simp only [workerStep]
          split
          · rcases mem_withoutFile next h with hthere | rfl
            · exact Or.inl hthere
            · exact Or.inr (by simp [doomed])
          · exact Or.inl h
          · rw [requeue_files]
            exact Or.inl h

/-- A worker that looks for a job puts it back or takes it over. -/
theorem idleStep_dooms (choice : Choice) (s : MediaState) {file : String}
    (h : Queued (workerStep choice s .idle).1 file ∨
      file ∈ doomed (.worker (workerStep choice s .idle).2)) : Queued s file := by
  simp only [workerStep] at h
  split at h
  · rcases h with hqueued | hnone
    · exact hqueued
    · cases hnone
  · next job jobs hqueue =>
      have hhead : job ∈ s.queue := by rw [hqueue]; exact List.mem_cons_self
      have htail : ∀ {j}, j ∈ jobs → j ∈ s.queue := by
        intro j hj
        rw [hqueue]
        exact List.mem_cons_of_mem job hj
      split at h
      · rcases h with ⟨j, hj, hfile⟩ | hnone
        · rcases List.mem_append.mp hj with hold | hnew
          · exact ⟨j, htail hold, hfile⟩
          · rw [List.mem_singleton.mp hnew] at hfile
            exact ⟨job, hhead, hfile⟩
        · cases hnone
      · rcases h with ⟨j, hj, hfile⟩ | hjob
        · exact ⟨j, htail hj, hfile⟩
        · have hfile : file ∈ job.storageKeys := by simpa [doomed] using hjob
          exact ⟨job, hhead, hfile⟩

/-- A worker at the end of its job queues the files that could not be deleted. -/
theorem doneStep_dooms (choice : Choice) (s : MediaState) (job : CleanupJob)
    (failed : List String) {file : String}
    (h : Queued (workerStep choice s (.deleting job [] failed)).1 file ∨
      file ∈ doomed (.worker (workerStep choice s (.deleting job [] failed)).2)) :
    Queued s file ∨ file ∈ failed := by
  simp only [workerStep] at h
  rcases h with hqueued | hnone
  · split at hqueued
    · exact Or.inl hqueued
    · exact queued_of_requeue hqueued
  · cases hnone

/-- What the worker names after a step, the queue or its job has named. -/
theorem workerStep_dooms (choice : Choice) (s : MediaState) (stage : WorkerStage) {file : String}
    (h : Queued (workerStep choice s stage).1 file ∨
      file ∈ doomed (.worker (workerStep choice s stage).2)) :
    Queued s file ∨ file ∈ doomed (.worker stage) := by
  cases stage with
  | idle => exact Or.inl (idleStep_dooms choice s h)
  | deleting job outstanding failed =>
      cases outstanding with
      | nil =>
          rcases doneStep_dooms choice s job failed h with hqueued | hfailed
          · exact Or.inl hqueued
          · exact Or.inr (by simp [doomed, hfailed])
      | cons next outstanding =>
          simp only [workerStep] at h
          split at h
          · refine h.imp_right fun hjob => ?_
            simp only [doomed, List.mem_append, List.mem_cons] at hjob ⊢
            tauto
          · refine h.imp_right fun hjob => ?_
            simp only [doomed, List.mem_append, List.mem_cons, List.not_mem_nil,
              or_false] at hjob ⊢
            tauto
          · rcases h with hqueued | hnone
            · rcases queued_of_requeue hqueued with hold | hkeys
              · exact Or.inl hold
              · exact Or.inr (by simp [doomed, hkeys])
            · cases hnone

omit [DecidableEq ι] in
/-- The worker deletes and queues what is to be deleted anyway. -/
theorem worker_move (h : Sound c) (choice : Choice) {stage : WorkerStage}
    (hphase : c.phase i = .worker stage) :
    Move c i (workerStep choice c.shared stage).1
      (.worker (workerStep choice c.shared stage).2) none := by
  have hmine : ∀ {file}, file ∈ doomed (.worker stage) → Doomed c file := fun hfile =>
    Or.inr ⟨i, by rw [hphase]; exact hfile⟩
  refine .quiet h (workerStep_world stage) (fun f hf => ?_) (fun f hf => Or.inl ?_)
    (fun f hf => absurd hf List.not_mem_nil) trivial
  · rcases workerStep_files choice c.shared stage hf with hthere | hjob
    · exact Or.inl hthere
    · exact Or.inr (Or.inl (hmine hjob))
  · rcases workerStep_dooms choice c.shared stage hf with hqueued | hjob
    · exact Or.inl hqueued
    · exact hmine hjob

/-- The ready rows with a key, in a table that only has rows of one tenant with it. -/
theorem no_references {rows' : List Media} {old : Media} {r : Media}
    (hnone : ((references old.tenantId old.storageKey rows').length == 0) = true)
    (hr : r ∈ rows') (hready : r.status = "ready")
    (htenant : r.storageKey = old.storageKey → r.tenantId = old.tenantId) :
    r.storageKey ≠ old.storageKey := by
  intro hkey
  have hmem : r ∈ references old.tenantId old.storageKey rows' :=
    List.mem_filter.mpr ⟨hr, by simp [hkey, hready, htenant hkey]⟩
  rw [beq_iff_eq] at hnone
  rw [List.eq_nil_of_length_eq_zero hnone] at hmem
  cases hmem

theorem rowOf_eq_some {T id : Id} {rows : List Media} {row : Media}
    (h : rowOf T id rows = some row) :
    row ∈ rows ∧ row.id = id ∧ row.tenantId = T := by
  have hfound := List.find?_some h
  simp only [Bool.and_eq_true, beq_iff_eq] at hfound
  exact ⟨List.mem_of_find?_eq_some h, hfound.1.symm, hfound.2⟩

theorem eq_of_id_eq {rows : List Media} (hids : (rows.map (·.id)).Nodup) {r r' : Media}
    (hr : r ∈ rows) (hr' : r' ∈ rows) (hid : r.id = r'.id) : r = r' :=
  List.inj_on_of_nodup_map hids hr hr' hid

section Removals

variable {id tenantId : Id}

omit [DecidableEq ι] in
/-- A removal looks for its row. -/
theorem removalStart_move (h : Sound c) (choice : Choice) :
    Move c i (removalStep deleteMatching choice id tenantId c.shared .start).1
      (.removal id tenantId (removalStep deleteMatching choice id tenantId c.shared .start).2)
      none := by
  simp only [removalStep]
  rcases afterStatement_read choice c.shared
    (findMedia_readsOnly (choice.inTenant tenantId).toEnv id tenantId)
    (fun e => RemovalStage.finished (.error e)) (removalFound id) with ⟨b, hb, hstep⟩
  rw [hstep]
  rcases hb with ⟨e, rfl⟩ | ⟨found, hrun, rfl⟩
  · exact .stay h rfl rfl trivial
  · cases found with
    | none => exact .stay h rfl rfl trivial
    | some row =>
        refine .stay h rfl rfl ?_
        have hctx : (choice.inTenant tenantId).context.Holds tenantId := by
          rcases sees_of_run_ok (by decide) hrun with ⟨S, hsees⟩
          exact holds_of_sees hsees
        rw [findMedia_run hctx] at hrun
        have hrow : rowOf tenantId id c.shared.world.db.media = some row :=
          Except.ok.inj (congrArg Prod.fst hrun)
        rcases rowOf_eq_some hrow with ⟨hmem, hid, _⟩
        refine ⟨hid, fun r hr hsame => ?_⟩
        rw [eq_of_id_eq h.ids hr hmem hsame]

omit [DecidableEq ι] in
/-- The transaction of a removal gives up the files of its row where no ready row shares them. -/
theorem removed_move (h : Sound c) {choice : Choice} {row : Media} {attempt : ℕ}
    {shouldDelete : Bool} {w' : World}
    (hphase : c.phase i = .removal id tenantId (.removing row attempt))
    (hrun : removeTransaction deleteMatching (choice.inTenant tenantId).toEnv id tenantId
      c.shared.world = (.ok shouldDelete, w')) :
    Move c i { c.shared with world := w' }
      (.removal id tenantId (.removed row shouldDelete)) none := by
  have hok := removeTransaction_ok (holds_of_removeTransaction hrun) hrun
  have hnow := h.holds i
  rw [hphase] at hnow
  cases hcurrent : rowOf tenantId id c.shared.world.db.media with
  | none =>
      rw [hcurrent] at hok
      rcases hok with ⟨rfl, rfl⟩
      exact .stay h rfl rfl trivial
  | some current =>
      rw [hcurrent] at hok
      rcases hok with ⟨hrows, hcount⟩
      rcases rowOf_eq_some hcurrent with ⟨hmem, hid, htenant⟩
      have hkey : current.storageKey = row.storageKey :=
        hnow.2 current hmem (hid.trans hnow.1.symm)
      have hsub : w'.db.media.Sublist c.shared.world.db.media := by
        rw [hrows]
        exact List.filter_sublist
      refine ⟨h.ids.sublist (hsub.map _), fun r hr => Or.inl (hsub.subset hr),
        fun _ h => absurd h (by simp), fun file hfile => Or.inl hfile, ?_,
        fun file hfile => absurd hfile List.not_mem_nil, trivial⟩
      rintro file (hqueued | hdoomed)
      · exact Or.inl (Or.inl hqueued)
      · cases shouldDelete with
        | false => cases hdoomed
        | true =>
            refine Or.inr (Or.inr ⟨current, hmem, by rw [hkey]; exact hdoomed, ?_⟩)
            intro r hr hready
            rw [← htenant] at hcount
            exact no_references hcount.symm hr hready fun hsame =>
              h.tenants r (hsub.subset hr) current hmem hsame

omit [DecidableEq ι] in
/-- An attempt of a removal: it fails, or its transaction is committed. -/
theorem removing_move (h : Sound c) (choice : Choice) {row : Media} {attempt : ℕ}
    (hphase : c.phase i = .removal id tenantId (.removing row attempt)) :
    Move c i (removalStep deleteMatching choice id tenantId c.shared (.removing row attempt)).1
      (.removal id tenantId
        (removalStep deleteMatching choice id tenantId c.shared (.removing row attempt)).2)
      none := by
  simp only [removalStep]
  rcases afterTransaction_cases choice c.shared
    (removeTransaction deleteMatching (choice.inTenant tenantId).toEnv id tenantId)
    (retryOr attempt (.removing row) fun e => RemovalStage.finished (.error e))
    (fun e => .finished (.error e)) (.removed row) with
    ⟨b, hb, hstep⟩ | ⟨shouldDelete, w', _, hrun, hstep⟩
  · rw [hstep]
    have hnow := h.holds i
    rw [hphase] at hnow
    rcases hb with rfl | ⟨e, rfl⟩
    · unfold retryOr
      split
      · exact .stay h rfl rfl trivial
      · exact .stay h rfl rfl hnow
    · exact .stay h rfl rfl trivial
  · rw [hstep]
    exact removed_move h hphase hrun

omit [DecidableEq ι] in
/-- The files that a removal has given up are queued. -/
theorem removalEnd_move (h : Sound c) (choice : Choice) {row : Media} {shouldDeleteFiles : Bool}
    (hphase : c.phase i = .removal id tenantId (.removed row shouldDeleteFiles)) :
    Move c i
      (removalStep deleteMatching choice id tenantId c.shared (.removed row shouldDeleteFiles)).1
      (.removal id tenantId
        (removalStep deleteMatching choice id tenantId c.shared (.removed row shouldDeleteFiles)).2)
      none := by
  simp only [removalStep]
  cases shouldDeleteFiles with
  | false => exact .stay h rfl rfl trivial
  | true =>
      refine .quiet h rfl (fun file hfile => Or.inl hfile) ?_
        (fun file hfile => absurd hfile List.not_mem_nil) trivial
      rintro file (hqueued | hnone)
      · rcases queued_of_enqueue hqueued with hold | hkeys
        · exact Or.inl (Or.inl hold)
        · exact Or.inl (Or.inr ⟨i, by rw [hphase]; exact hkeys⟩)
      · cases hnone

omit [DecidableEq ι] in
/-- A removal gives up the files of a row that no ready row shares. -/
theorem removal_move (h : Sound c) (choice : Choice) {stage : RemovalStage}
    (hphase : c.phase i = .removal id tenantId stage) :
    Move c i (removalStep deleteMatching choice id tenantId c.shared stage).1
      (.removal id tenantId (removalStep deleteMatching choice id tenantId c.shared stage).2)
      none := by
  cases stage with
  | finished answer => exact .stay h rfl rfl trivial
  | start => exact removalStart_move h choice
  | removing row attempt => exact removing_move h choice hphase
  | removed row shouldDeleteFiles => exact removalEnd_move h choice hphase

end Removals

/-! ## Conditions on a step -/

/-- Where the step is an attempt that forms a storage key of its own: its files. -/
def newTarget (c : Config ι MediaState Phase) (l : ι × Choice) : Option AttemptFiles :=
  match c.phase l.1 with
  | .upload call (.attempting found _) =>
      match found.existingByChecksum with
      | some _ => none
      | none => (newFiles (l.2.inTenant call.tenantId) call found.mediaType).toOption
  | _ => none

/-- No row, no deletion and no other call names the file. -/
structure Fresh (c : Config ι MediaState Phase) (file : String) : Prop where
  unnamed : Unnamed c file
  unowned : ∀ j, file ∉ owned (c.phase j)

/-- Where an upload that uses the files of another row commits, some ready row of the tenant still
has them; and the id of the new row is none that a removal looks for. -/
structure CommitsInTime (c : Config ι MediaState Phase) (l : ι × Choice) (commit : Commit) :
    Prop where
  referenced : ∀ row ∈ commit.found.existingByChecksum, ∃ r ∈ c.shared.world.db.media,
    r.status = "ready" ∧ r.storageKey = row.storageKey ∧ r.tenantId = commit.call.tenantId
  newId : ∀ j, sought (c.phase j) ≠ some (commit.created l.2).id

/-- The conditions under which a step keeps the files sound. -/
structure InOrder (c : Config ι MediaState Phase) (l : ι × Choice) : Prop where
  newKey : ∀ target ∈ newTarget c l, ∀ file ∈ cleanupKeys target.storageKey, Fresh c file
  commits : ∀ commit ∈ commitOf c l, CommitsInTime c l commit

/-! ## Uploads -/

theorem replaceRow_sublist (created : Media) (current : Option Media) (rows : List Media) :
    (replaceRow created current rows).Sublist (rows ++ [created]) := by
  cases current with
  | none => exact List.Sublist.refl _
  | some old => exact List.filter_sublist

theorem currentOf_eq_some {T : Id} {existing : Option Media} {rows : List Media} {old : Media}
    (h : currentOf T existing rows = some old) : old ∈ rows ∧ old.tenantId = T := by
  rcases Option.bind_eq_some_iff.mp h with ⟨row, _, hfind⟩
  have hfound := List.find?_some hfind
  simp only [Bool.and_eq_true, beq_iff_eq] at hfound
  exact ⟨List.mem_of_find?_eq_some hfind, hfound.2⟩

/-- What a committed upload gives up are the files of the row that it has replaced. -/
theorem doomed_committed {call : UploadCall} {T : Id} {created : Media} {current : Option Media}
    {rows : List Media} {file : String}
    (h : file ∈ doomed (.upload call (.committed (uploadResult T created current rows)))) :
    ∃ old, current = some old ∧ file ∈ cleanupKeys old.storageKey ∧
      ((references T old.storageKey rows).length == 0) = true := by
  cases current with
  | none => cases h
  | some old =>
      have hgiven : doomed (.upload call (.committed (uploadResult T created (some old) rows))) =
          if (uploadResult T created (some old) rows).shouldDeleteOldFiles then
            cleanupKeys old.storageKey else [] := rfl
      rw [hgiven] at h
      split at h
      · next hnone => exact ⟨old, rfl, h, hnone⟩
      · cases h

omit [DecidableEq ι] in
/-- A commit creates a row whose files are backed, and gives up those of the row it replaces. -/
theorem commit_move (h : Sound c) (commit : Commit) {choice : Choice} {attempt : ℕ}
    {keys : List String} {result : UploadResult} {w' : World}
    (hphase : c.phase i = .upload commit.call
      (.committing commit.found attempt commit.target keys))
    (hintime : CommitsInTime c (i, choice) commit)
    (hrun : uploadTransaction deleteMatching (choice.inTenant commit.call.tenantId) commit.call
      commit.found.mediaType commit.target commit.found.existing c.shared.world =
        (.ok result, w')) :
    Move c i { c.shared with world := w' } (.upload commit.call (.committed result))
      (some (commit.created choice)) := by
  have hok := uploadTransaction_ok (holds_of_uploadTransaction hrun) hrun
  rcases hok with ⟨hids, hrows, hresult⟩
  have hcreated : uploadRow (choice.inTenant commit.call.tenantId) commit.call
      commit.found.mediaType commit.target = commit.created choice := rfl
  rw [hcreated] at hids hrows hresult
  have hsub : w'.db.media.Sublist (c.shared.world.db.media ++ [commit.created choice]) := by
    rw [hrows]
    exact replaceRow_sublist _ _ _
  have hmem : ∀ r ∈ w'.db.media, r ∈ c.shared.world.db.media ∨
      some (commit.created choice) = some r := by
    intro r hr
    rcases List.mem_append.mp (hsub.subset hr) with hold | hnew
    · exact Or.inl hold
    · exact Or.inr (congrArg some (List.mem_singleton.mp hnew).symm)
  have hnow := h.holds i
  rw [hphase] at hnow
  -- the files that the call gives up are those of the row it replaces, which no row has any more
  have hdoomed : ∀ file ∈ doomed (.upload commit.call (.committed result)),
      ∃ old ∈ c.shared.world.db.media, file ∈ cleanupKeys old.storageKey ∧
        ∀ r ∈ w'.db.media, r.status = "ready" → r.storageKey ≠ old.storageKey := by
    intro file hfile
    rw [hresult] at hfile
    rcases doomed_committed hfile with ⟨old, hcurrent, hold, hcount⟩
    rcases currentOf_eq_some hcurrent with ⟨holdMem, htenant⟩
    refine ⟨old, holdMem, hold, fun r hr hready => ?_⟩
    rw [← htenant] at hcount
    refine no_references hcount hr hready fun hsame => ?_
    rcases hmem r hr with hbefore | hnew
    · exact h.tenants r hbefore old holdMem hsame
    · rw [← Option.some.inj hnew, htenant]
      rfl
  refine ⟨?_, hmem, ?_, fun file hfile => Or.inl hfile, ?_,
    fun file hfile => absurd hfile List.not_mem_nil, trivial⟩
  · exact hids.sublist (hsub.map _)
  · rintro r hr
    rw [← Option.some.inj hr]
    refine ⟨?_, hintime.newId⟩
    cases hreuse : commit.found.existingByChecksum with
    | some row =>
        left
        rcases hintime.referenced row hreuse with ⟨r₀, hr₀, hready, hkey, htenant⟩
        simp only [Phase.Holds, hreuse] at hnow
        refine ⟨r₀, hr₀, hready, ?_, htenant⟩
        have htarget : (commit.created choice).storageKey = commit.target.storageKey := rfl
        rw [htarget, hnow.2]
        exact hkey
    | none =>
        right
        simp only [Phase.Holds, hreuse] at hnow
        have howned : owned (c.phase i) = cleanupKeys commit.target.storageKey := by
          rw [hphase]
          simp [owned, hreuse]
        refine ⟨fun file hfile => by rw [howned]; exact hfile, fun file hfile => ?_, rfl⟩
        have hmine : file ∈ owned (c.phase i) := by
          rw [howned]
          exact storedFiles_subset hfile
        have hunnamed := (h.owned i file hmine).1
        refine ⟨hnow.2 file (by rw [hnow.1]; exact hfile),
          fun hqueued => hunnamed.deletions (Or.inl hqueued), fun hgiven => ?_⟩
        rcases hdoomed file hgiven with ⟨old, hold, hfileOld, _⟩
        exact hunnamed.rows old hold hfileOld
  · rintro file (hqueued | hgiven)
    · exact Or.inl (Or.inl hqueued)
    · exact Or.inr (Or.inr (hdoomed file hgiven))

omit [DecidableEq ι] in
/-- An attempt with new files takes them as its own. -/
theorem attempt_move (h : Sound c) {call : UploadCall} {found : Lookups} {attempt : ℕ}
    {target : AttemptFiles} {keys : List String}
    (hnone : found.existingByChecksum = none) (hkeys : keys = storedFiles target.storageKey)
    (hnew : ∀ file ∈ cleanupKeys target.storageKey, Fresh c file) :
    Move c i c.shared (.upload call (.writing found attempt target keys keys)) none where
  ids := h.ids
  rows r hr := Or.inl hr
  backed r hr := by cases hr
  files file hfile := Or.inl hfile
  dooms file hfile := by
    rcases hfile with hqueued | hmine
    · exact Or.inl (Or.inl hqueued)
    · cases hmine
  owns file hfile := Or.inr ⟨(hnew file hfile).unnamed, (hnew file hfile).unowned⟩
  holds := ⟨hnone, hkeys, fun file hfile => Or.inl hfile⟩

omit [DecidableEq ι] in
/-- Every file that an attempt has written is there when it commits. -/
theorem writing_move (h : Sound c) (choice : Choice) {call : UploadCall} {found : Lookups}
    {attempt : ℕ} {target : AttemptFiles} {keys outstanding : List String}
    (hphase : c.phase i = .upload call (.writing found attempt target keys outstanding)) :
    Move c i
      (uploadStep deleteMatching choice call c.shared
        (.writing found attempt target keys outstanding)).1
      (.upload call (uploadStep deleteMatching choice call c.shared
        (.writing found attempt target keys outstanding)).2) none := by
  have howned : owned (c.phase i) = cleanupKeys target.storageKey := by
    rw [hphase]
    rfl
  have hnow := h.holds i
  rw [hphase] at hnow
  rcases hnow with ⟨hnone, hkeys, hwritten⟩
  simp only [uploadStep]
  split
  · next hempty =>
      refine .quiet h rfl (fun file hfile => Or.inl hfile) ?_ ?_ ?_
      · rintro file (hqueued | hmine)
        · exact Or.inl (Or.inl hqueued)
        · cases hmine
      · intro file hfile
        rw [howned]
        simpa [owned, hnone] using hfile
      · simp only [Phase.Holds, hnone]
        refine ⟨hkeys, fun file hfile => ?_⟩
        rcases hwritten file hfile with hout | hstored
        · rw [List.isEmpty_iff.mp hempty] at hout
          cases hout
        · exact hstored
  · split
    · exact .stay h rfl rfl trivial
    · split
      · refine .quiet h rfl (fun file hfile => Or.inl (List.mem_cons_of_mem _ hfile)) ?_ ?_ ?_
        · rintro file (hqueued | hmine)
          · exact Or.inl (Or.inl hqueued)
          · cases hmine
        · intro file hfile
          rw [howned]
          exact hfile
        · refine ⟨hnone, hkeys, fun file hfile => ?_⟩
          by_cases hthis : file = choice.file
          · exact Or.inr (by rw [hthis]; exact List.mem_cons_self)
          · rcases hwritten file hfile with hout | hstored
            · exact Or.inl (List.mem_filter.mpr ⟨hout, by simpa using hthis⟩)
            · exact Or.inr (List.mem_cons_of_mem _ hstored)
      · refine .quiet h rfl (fun file hfile => Or.inl hfile) ?_ ?_ ⟨hnone, hkeys, hwritten⟩
        · rintro file (hqueued | hmine)
          · exact Or.inl (Or.inl hqueued)
          · cases hmine
        · intro file hfile
          rw [howned]
          exact hfile

omit [DecidableEq ι] in
/-- An aborted attempt gives up its own files. -/
theorem clearing_move (h : Sound c) (choice : Choice) {call : UploadCall} {found : Lookups}
    {attempt : ℕ} {outstanding failed : List String}
    (hphase : c.phase i = .upload call (.clearing found attempt outstanding failed)) :
    Move c i
      (uploadStep deleteMatching choice call c.shared
        (.clearing found attempt outstanding failed)).1
      (.upload call (uploadStep deleteMatching choice call c.shared
        (.clearing found attempt outstanding failed)).2) none := by
  have howned : owned (c.phase i) = outstanding ++ failed := by
    rw [hphase]
    rfl
  cases outstanding with
  | nil =>
      have hdropped : ∀ next : UploadStage,
          next = retryOr attempt (.attempting found) (fun e => .finished (.error e)) →
            doomed (.upload call next) = [] ∧ owned (.upload call next) = [] ∧
              ∀ s, (Phase.upload call next).Holds s := by
        rintro _ rfl
        unfold retryOr
        split
        · exact ⟨rfl, rfl, fun _ => trivial⟩
        · exact ⟨rfl, rfl, fun _ => trivial⟩
      rcases hdropped _ rfl with ⟨hdoomed, hnone, hholds⟩
      simp only [uploadStep]
      split
      · exact .stay h hdoomed hnone (hholds _)
      · refine .quiet h rfl (fun file hfile => Or.inl hfile) ?_ ?_ (hholds _)
        · rintro file (hqueued | hmine)
          · rcases queued_of_enqueue hqueued with hold | hfailed
            · exact Or.inl (Or.inl hold)
            · refine Or.inr ⟨by rw [howned]; exact hfailed, ?_⟩
              rw [hnone]
              exact List.not_mem_nil
          · rw [hdoomed] at hmine
            cases hmine
        · intro file hfile
          rw [hnone] at hfile
          cases hfile
  | cons file outstanding =>
      simp only [uploadStep]
      split
      · refine .quiet h rfl (fun f hf => ?_) ?_ ?_ trivial
        · rcases mem_withoutFile file hf with hthere | rfl
          · exact Or.inl hthere
          · exact Or.inr (Or.inr (by rw [howned]; exact List.mem_cons_self))
        · rintro f (hqueued | hmine)
          · exact Or.inl (Or.inl hqueued)
          · cases hmine
        · intro f hf
          rw [howned]
          exact List.mem_cons_of_mem _ hf
      · refine .quiet h rfl (fun f hf => Or.inl hf) ?_ ?_ trivial
        · rintro f (hqueued | hmine)
          · exact Or.inl (Or.inl hqueued)
          · cases hmine
        · intro f hf
          rw [howned]
          simp only [owned, List.mem_append, List.mem_cons, List.not_mem_nil, or_false] at hf ⊢
          tauto
      · exact .stay h rfl rfl trivial

omit [DecidableEq ι] in
/-- A transaction that commits makes the commit of the step; one that does not gives up the files
of its attempt. -/
theorem committing_move (h : Sound c) {choice : Choice} (horder : InOrder c (i, choice))
    {call : UploadCall} {found : Lookups} {attempt : ℕ} {target : AttemptFiles}
    {keys : List String}
    (hphase : c.phase i = .upload call (.committing found attempt target keys)) :
    ∃ created, Move c i
      (uploadStep deleteMatching choice call c.shared (.committing found attempt target keys)).1
      (.upload call (uploadStep deleteMatching choice call c.shared
        (.committing found attempt target keys)).2) created := by
  simp only [uploadStep]
  rcases afterTransaction_cases choice c.shared
    (uploadTransaction deleteMatching (choice.inTenant call.tenantId) call found.mediaType target
      found.existing)
    (if keys.isEmpty then retryOr attempt (.attempting found) fun e =>
        UploadStage.finished (.error e)
      else .clearing found attempt keys [])
    (fun e => .finished (.error e)) .committed with
    ⟨b, hb, hstep⟩ | ⟨result, w', hevent, hrun, hstep⟩
  · rw [hstep]
    refine ⟨none, ?_⟩
    rcases hb with rfl | ⟨e, rfl⟩
    · split
      · unfold retryOr
        split
        · exact .stay h rfl rfl trivial
        · exact .stay h rfl rfl trivial
      · next hkeys =>
          have hnow := h.holds i
          rw [hphase] at hnow
          have howned : ∀ file ∈ keys, file ∈ owned (c.phase i) := by
            intro file hfile
            rw [hphase]
            cases hreuse : found.existingByChecksum with
            | some row =>
                simp only [Phase.Holds, hreuse] at hnow
                rw [hnow.1] at hfile
                cases hfile
            | none =>
                simp only [Phase.Holds, hreuse] at hnow
                simp only [owned, hreuse]
                rw [hnow.1] at hfile
                exact storedFiles_subset hfile
          refine .quiet h rfl (fun file hfile => Or.inl hfile) ?_ ?_ trivial
          · rintro file (hqueued | hmine)
            · exact Or.inl (Or.inl hqueued)
            · cases hmine
          · intro file hfile
            refine howned file ?_
            simpa [owned] using hfile
    · exact .stay h rfl rfl trivial
  · rw [hstep]
    have hcommit : commitOf c (i, choice) = some ⟨call, found, target⟩ := by
      unfold commitOf
      rw [hphase]
      simp only
      rw [if_pos ⟨hevent, by rw [hrun]; rfl⟩]
    exact ⟨_, commit_move h ⟨call, found, target⟩ hphase
      (horder.commits _ hcommit) hrun⟩

section Uploads

variable {choice : Choice} {call : UploadCall}

omit [DecidableEq ι] in
/-- The lookups before the first attempt leave the files. -/
theorem lookup_move (h : Sound c) {stage : UploadStage}
    (hstage : stage = .start ∨ ∃ mediaType existingByChecksum,
      stage = .hashed mediaType existingByChecksum) :
    Move c i (uploadStep deleteMatching choice call c.shared stage).1
      (.upload call (uploadStep deleteMatching choice call c.shared stage).2) none := by
  rcases hstage with rfl | ⟨mediaType, existingByChecksum, rfl⟩
  · simp only [uploadStep]
    cases validateUpload call with
    | error e => exact .stay h rfl rfl trivial
    | ok mediaType =>
        simp only
        rcases afterStatement_read choice c.shared
          (findFirst_media_readsOnly (choice.inTenant call.tenantId).toEnv _)
          (fun e => UploadStage.finished (.error e)) (.hashed mediaType) with ⟨b, hb, hstep⟩
        unfold findByChecksum
        rw [hstep]
        rcases hb with ⟨e, rfl⟩ | ⟨existingByChecksum, _, rfl⟩
        · exact .stay h rfl rfl trivial
        · exact .stay h rfl rfl trivial
  · simp only [uploadStep]
    rcases afterStatement_read choice c.shared
      (findFirst_media_readsOnly (choice.inTenant call.tenantId).toEnv _)
      (fun e => UploadStage.finished (.error e))
      (fun existing => .attempting ⟨mediaType, existingByChecksum, existing⟩ 1) with
      ⟨b, hb, hstep⟩
    unfold findActive
    rw [hstep]
    rcases hb with ⟨e, rfl⟩ | ⟨existing, _, rfl⟩
    · exact .stay h rfl rfl trivial
    · exact .stay h rfl rfl trivial

omit [DecidableEq ι] in
/-- An attempt begins: with the files of another row, or with new ones that it takes as its
own. -/
theorem attempting_move (h : Sound c) (horder : InOrder c (i, choice)) {found : Lookups}
    {attempt : ℕ} (hphase : c.phase i = .upload call (.attempting found attempt)) :
    Move c i (uploadStep deleteMatching choice call c.shared (.attempting found attempt)).1
      (.upload call
        (uploadStep deleteMatching choice call c.shared (.attempting found attempt)).2) none := by
  simp only [uploadStep]
  cases hreuse : found.existingByChecksum with
  | some row =>
      refine .stay h rfl ?_ ?_
      · simp [owned, hreuse]
      · simp [Phase.Holds, hreuse]
  | none =>
      simp only
      have hnew := horder.newKey
      unfold newTarget at hnew
      rw [hphase] at hnew
      simp only [hreuse] at hnew
      cases hfiles : newFiles (choice.inTenant call.tenantId) call found.mediaType with
      | error e => exact .stay h rfl rfl trivial
      | ok target =>
          rw [hfiles] at hnew
          exact attempt_move h hreuse (attemptStorageKeys_eq hfiles) (hnew target rfl)

/-- The files of a replaced row are queued where the result says so. -/
theorem queued_of_enqueueReplaced {env : MediaEnv} {result : UploadResult} {s : MediaState}
    {file : String} (h : Queued (enqueueReplaced env result s).2 file) :
    Queued s file ∨ file ∈ doomed (.upload call (.committed result)) := by
  simp only [enqueueReplaced] at h
  cases hold : result.oldStorageKey with
  | none =>
      rw [hold] at h
      exact Or.inl h
  | some oldStorageKey =>
      rw [hold] at h
      simp only at h
      split at h
      · next hdelete =>
          rcases queued_of_enqueue h with hbefore | hkeys
          · exact Or.inl hbefore
          · exact Or.inr (by simpa [doomed, hdelete, hold] using hkeys)
      · exact Or.inl h

omit [DecidableEq ι] in
/-- An upload that has committed queues what it has given up. -/
theorem committed_move (h : Sound c) {result : UploadResult}
    (hphase : c.phase i = .upload call (.committed result)) :
    Move c i (uploadStep deleteMatching choice call c.shared (.committed result)).1
      (.upload call (uploadStep deleteMatching choice call c.shared (.committed result)).2)
      none := by
  refine .quiet h (enqueueReplaced_world _ result c.shared) ?_ ?_
    (fun file hfile => absurd hfile List.not_mem_nil) trivial
  · intro file hfile
    refine Or.inl ?_
    simp only [uploadStep, enqueueReplaced]
    cases result.oldStorageKey with
    | none => exact hfile
    | some oldStorageKey =>
        simp only
        split <;> exact hfile
  · rintro file (hqueued | hmine)
    · rcases @queued_of_enqueueReplaced call _ _ _ _ hqueued with hbefore | hgiven
      · exact Or.inl (Or.inl hbefore)
      · exact Or.inl (Or.inr ⟨i, by rw [hphase]; exact hgiven⟩)
    · cases hmine

omit [DecidableEq ι] in
/-- What an upload may do. -/
theorem upload_move (h : Sound c) (horder : InOrder c (i, choice)) {stage : UploadStage}
    (hphase : c.phase i = .upload call stage) :
    ∃ created, Move c i (uploadStep deleteMatching choice call c.shared stage).1
      (.upload call (uploadStep deleteMatching choice call c.shared stage).2) created := by
  cases stage with
  | start => exact ⟨none, lookup_move h (Or.inl rfl)⟩
  | hashed mediaType existingByChecksum => exact ⟨none, lookup_move h (Or.inr ⟨_, _, rfl⟩)⟩
  | attempting found attempt => exact ⟨none, attempting_move h horder hphase⟩
  | writing found attempt target keys outstanding => exact ⟨none, writing_move h choice hphase⟩
  | committing found attempt target keys => exact committing_move h horder hphase
  | clearing found attempt outstanding failed => exact ⟨none, clearing_move h choice hphase⟩
  | committed result => exact ⟨none, committed_move h hphase⟩
  | finished answer => exact ⟨none, .stay h rfl rfl trivial⟩

end Uploads

/-! ## Runs -/

/-- A step in order keeps the files sound. -/
theorem step_sound (l : ι × Choice) (h : Sound c) (horder : InOrder c l) :
    Sound ((mediaCalls ι deleteMatching).step c l) := by
  cases hphase : c.phase l.1 with
  | upload call stage =>
      rcases upload_move h horder hphase with ⟨created, hmove⟩
      have hsound := h.step hmove
      unfold CallSystem.step
      rw [hphase]
      exact hsound
  | removal id tenantId stage =>
      have hsound := h.step (removal_move h l.2 hphase)
      unfold CallSystem.step
      rw [hphase]
      exact hsound
  | worker stage =>
      have hsound := h.step (worker_move h l.2 hphase)
      unfold CallSystem.step
      rw [hphase]
      exact hsound

/-- Every file of every ready row is in the storage and does not wait for its deletion. -/
def FilesKept (s : MediaState) : Prop :=
  ∀ r ∈ s.world.db.media, r.status = "ready" →
    ∀ file ∈ storedFiles r.storageKey, file ∈ s.files ∧ ¬ Queued s file

/-- A state in which the service can begin: row ids are unique, and a storage key belongs to one
tenant. -/
structure Intact (s : MediaState) : Prop where
  ids : (s.world.db.media.map (·.id)).Nodup
  tenants : ∀ r ∈ s.world.db.media, ∀ r' ∈ s.world.db.media,
    r.storageKey = r'.storageKey → r.tenantId = r'.tenantId
  kept : FilesKept s

omit [DecidableEq ι] in
theorem Phase.Starts.owned_eq {p : Phase} (h : p.Starts) : MediaService.owned p = [] := by
  cases p <;> cases h <;> rfl

omit [DecidableEq ι] in
theorem Phase.Starts.doomed_eq {p : Phase} (h : p.Starts) : doomed p = [] := by
  cases p <;> cases h <;> rfl

omit [DecidableEq ι] in
theorem Phase.Starts.holds {p : Phase} (h : p.Starts) (s : MediaState) : p.Holds s := by
  cases p <;> cases h <;> trivial

omit [DecidableEq ι] in
/-- Before the calls begin the files are sound. -/
theorem Sound.of_intact (hintact : Intact c.shared) (hstarts : ∀ j, (c.phase j).Starts) :
    Sound c where
  ids := hintact.ids
  kept r hr hready file hfile := by
    rcases hintact.kept r hr hready file hfile with ⟨hstored, hqueue⟩
    refine ⟨hstored, ?_⟩
    rintro (hqueued | ⟨j, hj⟩)
    · exact hqueue hqueued
    · rw [(hstarts j).doomed_eq] at hj
      cases hj
  tenants := hintact.tenants
  owned j file hfile := by
    rw [(hstarts j).owned_eq] at hfile
    cases hfile
  holds j := (hstarts j).holds c.shared

omit [DecidableEq ι] in
theorem Sound.filesKept (h : Sound c) : FilesKept c.shared := by
  intro r hr hready file hfile
  rcases h.kept r hr hready file hfile with ⟨hstored, hneeded⟩
  exact ⟨hstored, fun hqueued => hneeded (Or.inl hqueued)⟩

/-- In every state that a run reaches whose steps are in order, the files of the ready rows are
in the storage and do not wait for their deletion. -/
theorem files_kept (hintact : Intact c.shared) (hstarts : ∀ j, (c.phase j).Starts)
    {schedule : List (ι × Choice)}
    (horder : (mediaCalls ι deleteMatching).EachStep InOrder c schedule) :
    ∀ pre, pre <+: schedule →
      FilesKept ((mediaCalls ι deleteMatching).run c pre).shared := by
  rintro pre ⟨suf, rfl⟩
  have hpre := ((mediaCalls ι deleteMatching).eachStep_append InOrder c pre suf).mp horder
  have hsound : Sound ((mediaCalls ι deleteMatching).run c pre) :=
    (mediaCalls ι deleteMatching).run_induction (I := fun c => Sound c)
      (fun _ l h hstep => step_sound l h hstep) (.of_intact hintact hstarts) hpre.1
  exact hsound.filesKept

end Soundness

/-! ## Two orders of three calls -/

instance (s : MediaState) (file : String) : Decidable (Queued s file) :=
  inferInstanceAs (Decidable (∃ job ∈ s.queue, file ∈ job.storageKeys))

instance (s : MediaState) : Decidable (FilesKept s) :=
  inferInstanceAs (Decidable (∀ r ∈ s.world.db.media, _))

section Decisions

variable {ι : Type} [Fintype ι] (c : Config ι MediaState Phase)

instance (file : String) : Decidable (Doomed c file) :=
  inferInstanceAs (Decidable (Queued c.shared file ∨ ∃ i, file ∈ doomed (c.phase i)))

instance (file : String) : Decidable (Unnamed c file) :=
  decidable_of_iff
    ((∀ r ∈ c.shared.world.db.media, file ∉ cleanupKeys r.storageKey) ∧ ¬ Doomed c file)
    ⟨fun h => ⟨h.1, h.2⟩, fun h => ⟨h.rows, h.deletions⟩⟩

instance (file : String) : Decidable (Fresh c file) :=
  decidable_of_iff (Unnamed c file ∧ ∀ j, file ∉ owned (c.phase j))
    ⟨fun h => ⟨h.1, h.2⟩, fun h => ⟨h.unnamed, h.unowned⟩⟩

instance (l : ι × Choice) (commit : Commit) : Decidable (CommitsInTime c l commit) :=
  decidable_of_iff ((∀ row ∈ commit.found.existingByChecksum,
      ∃ r ∈ c.shared.world.db.media, r.status = "ready" ∧ r.storageKey = row.storageKey ∧
        r.tenantId = commit.call.tenantId) ∧
      ∀ j, sought (c.phase j) ≠ some (commit.created l.2).id)
    ⟨fun h => ⟨h.1, h.2⟩, fun h => ⟨h.referenced, h.newId⟩⟩

instance (l : ι × Choice) : Decidable (InOrder c l) :=
  decidable_of_iff ((∀ target ∈ newTarget c l, ∀ file ∈ cleanupKeys target.storageKey,
      Fresh c file) ∧ ∀ commit ∈ commitOf c l, CommitsInTime c l commit)
    ⟨fun h => ⟨h.1, h.2⟩, fun h => ⟨h.newKey, h.commits⟩⟩

end Decisions

/-- Three calls about one logo. -/
inductive LogoCall where
  | first
  | second
  | removal
deriving DecidableEq

instance : Fintype LogoCall :=
  ⟨{.first, .second, .removal}, fun i => by cases i <;> decide⟩

/-- The logo of the restaurant is uploaded, uploaded once more for a second restaurant, and
removed from the first one. -/
def logoCalls : Config LogoCall MediaState Phase where
  shared := bareBistro
  phase
    | .first => .upload firstLogo .start
    | .second => .upload { firstLogo with entityId := "restaurant-2" } .start
    | .removal => .removal "media-1" "tenant-a" .start

/-- Steps of one of the calls. -/
def stepsOf (i : LogoCall) (n : ℕ) : List (LogoCall × Choice) :=
  List.replicate n (i, { env := uploadEnv (i == .second) })

/-- The first upload from its lookups to the end. -/
def firstUploadSteps : List (LogoCall × Choice) :=
  stepsOf .first 3 ++
    (attemptStorageKeys firstLogo .LOGO (uploadEnv false).now).map
      (fun file => (.first, { env := uploadEnv false, file := file })) ++
    stepsOf .first 3

theorem logoCalls_intact : Intact logoCalls.shared where
  ids := List.nodup_nil
  tenants := by simp [logoCalls, bareBistro]
  kept := by simp [FilesKept, logoCalls, bareBistro]

theorem logoCalls_starts : ∀ i, (logoCalls.phase i).Starts := by
  intro i
  cases i <;> rfl

/-- One call after the other: the second upload uses the files of the first one, and the removal
leaves them to it. -/
theorem logo_kept : FilesKept ((mediaCalls LogoCall deleteMatching).run logoCalls
    (firstUploadSteps ++ stepsOf .second 5 ++ stepsOf .removal 3)).shared :=
  files_kept logoCalls_intact logoCalls_starts (by decide +kernel) _ (List.prefix_refl _)

/-- The second upload finds the files of the first one, the removal gives them up, and the second
upload commits a row that has them. -/
theorem logo_lost : ¬ FilesKept ((mediaCalls LogoCall deleteMatching).run logoCalls
    (firstUploadSteps ++ stepsOf .second 3 ++ stepsOf .removal 3 ++ stepsOf .second 1)).shared := by
  decide +kernel

end MediaService
end Eleva
