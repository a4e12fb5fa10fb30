import Eleva.User.UserCalls

/-!
# User - The last owner under interleaving

The guard of the last owner counts under the advisory lock of the tenant, but it runs for a
target only that was an owner when the call read it, before its transaction.

Main results:

- Theorem {lit}`owner_remains`: where each call that commits the deactivation or deletion of an
  active owner has read that its target is an owner, a tenant with an active owner keeps one.
- Theorem {lit}`owners_lost`: a deactivation that has read its target before the promotion of
  the target passes without the guard.
-/

namespace Eleva
namespace UserService

open Foundation Database Auth TableOf

/-! ## Owners -/

/-- An active owner of the tenant. -/
structure ActiveOwner (db : Db) (tenantId : Id) (user : User) : Prop where
  tenant : user.tenantId = some tenantId
  live : user.deletedAt = none
  active : user.isActive = true
  role : holdsOwnerRole db tenantId user = true

instance decidableActiveOwner (db : Db) (tenantId : Id) (user : User) :
    Decidable (ActiveOwner db tenantId user) :=
  decidable_of_iff (user.tenantId = some tenantId ∧ user.deletedAt = none ∧
      user.isActive = true ∧ holdsOwnerRole db tenantId user = true)
    ⟨fun h => ⟨h.1, h.2.1, h.2.2.1, h.2.2.2⟩, fun h => ⟨h.tenant, h.live, h.active, h.role⟩⟩

/-- The tenant has an active owner. -/
def HasOwner (db : Db) (tenantId : Id) : Prop :=
  ∃ user ∈ db.users, ActiveOwner db tenantId user

instance decidableHasOwner (db : Db) (tenantId : Id) : Decidable (HasOwner db tenantId) :=
  inferInstanceAs (Decidable (∃ user ∈ db.users, ActiveOwner db tenantId user))

/-- The users of a database count for ownership through its roles only. -/
theorem ActiveOwner.congr {db db' : Db} {tenantId : Id} {user : User}
    (hroles : db'.roles = db.roles) (h : ActiveOwner db tenantId user) :
    ActiveOwner db' tenantId user where
  tenant := h.tenant
  live := h.live
  active := h.active
  role := by
    unfold holdsOwnerRole
    rw [hroles]
    exact h.role

/-- The update leaves an active owner an active owner of the same tenant. -/
def UserData.keepsOwners (db : Db) (data : UserData) : Prop :=
  ∀ tenantId user, ActiveOwner db tenantId user → ActiveOwner db tenantId (data.assign user)

/-- The update does not change ids. -/
def UserData.keepsIds (data : UserData) : Prop :=
  ∀ user, (data.assign user).id = user.id

/-- The request deactivates or deletes its target. -/
def UserRequest.deactivates : UserRequest → Bool
  | .create _ => false
  | .update _ dto => dto.isActive == some false
  | .delete _ => true

/-- The context of the call has the tenant of the caller, or none. -/
def UserCall.bound (call : UserCall) : Prop :=
  ∀ tenantId, call.tenantId = some tenantId →
    call.env.context.Sees (some tenantId) ∨ call.env.context.Sees none

/-! ## What the statements write -/

/-- The update keeps owners, or it is one of a request with guards that deactivates its target
or has read that the target is an owner. -/
def UserData.guarded (db : Db) (call : UserCall) (target : UserResponse) (data : UserData) :
    Prop :=
  data.keepsOwners db ∨ call.request.guards ≠ [] ∧
    (call.request.deactivates = true ∨ target.roles.contains "RESTAURANT_OWNER" = true)

/-- A write that a transaction may make: an insertion, or a guarded update of its target. -/
inductive Allowed (db : Db) (call : UserCall) (target : Option UserResponse) : UserWrite → Prop
  | create (tenantId : Id) (data : UserData) : Allowed db call target (.create tenantId data)
  | update {current : UserResponse} {data : UserData} (read : target = some current)
      (ids : data.keepsIds) (owners : data.guarded db call current) :
      Allowed db call target (.update current.id data)

theorem Allowed.congr {db db' : Db} {call : UserCall} {target : Option UserResponse}
    {write : UserWrite} (hroles : db'.roles = db.roles) (h : Allowed db call target write) :
    Allowed db' call target write := by
  cases h with
  | create tenantId data => exact .create tenantId data
  | update read ids owners =>
      refine .update read ids ?_
      rcases owners with hkeeps | hguarded
      · left
        intro tenantId user howner
        exact (hkeeps tenantId user (howner.congr hroles.symm)).congr hroles
      · exact Or.inr hguarded

/-- Writes change the users only. -/
theorem runWrites_roles (env : UserEnv) (writes : List UserWrite) (w : World) :
    (runWrites env writes w).2.db.roles = w.db.roles := by
  induction writes generalizing w with
  | nil => rfl
  | cons write writes ih =>
      have hwrite : (write.run env w).2.db.roles = w.db.roles := by
        cases write with
        | create tenantId data =>
            simp only [UserWrite.run, TableOf.run]
            split
            · rfl
            · split <;> rfl
        | update id data =>
            simp only [UserWrite.run, TableOf.run]
            split
            · rfl
            · split <;> rfl
      unfold runWrites
      rw [Fallible.bind_apply]
      rcases hrun : write.run env w with ⟨_ | a, w₁⟩
      · rw [hrun] at hwrite
        exact hwrite
      · rw [hrun] at hwrite
        exact (ih w₁).trans hwrite

section Statements

variable {rt : Runtime} {call : UserCall} {tenantId : Id} {w w' : World}

/-- An update that asks for guards. -/
theorem guards_ne_nil_of_deactivates {request : UserRequest}
    (h : request.deactivates = true) : request.guards ≠ [] := by
  cases request with
  | create dto => cases h
  | update id dto =>
      have hactive : dto.isActive = some false := by simpa [UserRequest.deactivates] using h
      simp [UserRequest.guards, UpdateUserRequestDto.guards, hactive]
  | delete id => simp [UserRequest.guards]

/-- The columns of an update that does not deactivate keep owners. -/
theorem columnsData_allowed {id : Id} {dto : UpdateUserRequestDto} {current : UserResponse}
    {data : UserData} (hrequest : call.request = .update id dto)
    (h : columnsData rt call.env dto = some data) :
    data.keepsIds ∧ data.guarded w.db call current := by
  unfold columnsData at h
  split at h
  · cases h
    refine ⟨fun _ => rfl, ?_⟩
    cases hactive : dto.isActive with
    | none =>
        left
        intro tenantId user howner
        exact ⟨howner.tenant, howner.live, by simpa [hactive] using howner.active, howner.role⟩
    | some active =>
        cases active with
        | true =>
            left
            intro tenantId user howner
            exact ⟨howner.tenant, howner.live, by simp, howner.role⟩
        | false =>
            right
            have hdeactivates : call.request.deactivates = true := by
              rw [hrequest]
              simp [UserRequest.deactivates, hactive]
            exact ⟨guards_ne_nil_of_deactivates hdeactivates, Or.inl hdeactivates⟩
  · cases h

/-- A role replacement that has read no owner role, or asks for it, keeps owners. -/
theorem rolesData_allowed {id : Id} {dto : UpdateUserRequestDto} {current : UserResponse}
    {data : UserData} (hunique : (w.db.roles.map (·.id)).Nodup)
    (hrequest : call.request = .update id dto)
    (h : updateRoles call.env tenantId dto current w = (.ok (some data), w')) :
    data.keepsIds ∧ data.guarded w.db call current := by
  unfold updateRoles at h
  cases hroles : dto.roles with
  | none =>
      rw [hroles] at h
      cases h
  | some names =>
      rw [hroles] at h
      simp only at h
      have hsees : ∃ S, call.env.context.Sees S := by
        rcases Fallible.bind_eq_ok.mp h with ⟨desired, w₁, _, hrest⟩
        rcases Fallible.bind_eq_ok.mp hrest with ⟨rows, w₂, hfind, _⟩
        exact TableOf.sees_of_run_ok (by decide) hfind
      rcases hsees with ⟨S, hctx⟩
      rcases roleReplacement_eq_ok hctx h with hnone | ⟨toRemove, toAdd, hdata, hremove⟩
      · cases hnone
      · cases hdata
        refine ⟨fun _ => rfl, ?_⟩
        by_cases hdemotes : current.roles.contains "RESTAURANT_OWNER" = true ∧
            names.contains "RESTAURANT_OWNER" = false
        · right
          refine ⟨?_, Or.inr hdemotes.1⟩
          rw [hrequest]
          have hmissing : "RESTAURANT_OWNER" ∉ names := by simpa using hdemotes.2
          simp [UserRequest.guards, UpdateUserRequestDto.guards, hroles, hmissing]
        · left
          intro tenantId' user howner
          refine ⟨howner.tenant, howner.live, howner.active, ?_⟩
          have hrole := howner.role
          simp only [holdsOwnerRole, List.any_eq_true, Bool.and_eq_true, beq_iff_eq] at hrole ⊢
          rcases hrole with ⟨roleId, hmem, role, hin, ⟨hid, hname⟩, htenant⟩
          refine ⟨roleId, ?_, role, hin, ⟨hid, hname⟩, htenant⟩
          refine List.mem_append_left _ (List.mem_filter.mpr ⟨hmem, ?_⟩)
          cases hgone : toRemove.contains roleId with
          | false => rfl
          | true =>
              rcases hremove roleId (List.contains_iff_mem.mp hgone) with
                ⟨role', hin', hid', hread, hasked⟩
              have hsame : role' = role :=
                List.inj_on_of_nodup_map hunique hin' hin (hid'.trans hid.symm)
              rw [hsame, hname] at hread hasked
              exact absurd ⟨hread, hasked⟩ hdemotes

/-- A branch replacement does not concern owners. -/
theorem branchesData_allowed {dto : UpdateUserRequestDto} {current : UserResponse}
    {data : UserData}
    (h : updateBranches call.env tenantId dto current w = (.ok (some data), w')) :
    data.keepsIds ∧ data.keepsOwners w.db := by
  unfold updateBranches at h
  cases hbranches : dto.branchIds with
  | none =>
      rw [hbranches] at h
      cases h
  | some ids =>
      rw [hbranches] at h
      rcases Fallible.bind_eq_ok.mp h with ⟨desired, w₁, _, hend⟩
      simp only [Fallible.pure_apply, Prod.mk.injEq, Except.ok.injEq] at hend
      have hdata := hend.1
      split at hdata
      · cases hdata
        exact ⟨fun _ => rfl, fun tenantId user howner =>
          ⟨howner.tenant, howner.live, howner.active, howner.role⟩⟩
      · cases hdata

/-- What a statement writes is allowed. -/
theorem statementWrites_allowed {target : Option UserResponse} {statement : TxStatement}
    {writes : List UserWrite} (hunique : (w.db.roles.map (·.id)).Nodup)
    (htarget : call.request.target = target.map (·.id))
    (h : statementWrites rt call tenantId target statement w = (.ok writes, w')) :
    ∀ write ∈ writes, Allowed w.db call target write := by
  cases hrequest : call.request with
  | create dto =>
      cases statement <;> simp only [statementWrites, hrequest] at h
      case insert =>
        rcases Fallible.bind_eq_ok.mp h with ⟨data, w₁, _, hend⟩
        cases hend
        intro write hwrite
        rw [List.mem_singleton.mp hwrite]
        exact .create tenantId data
      all_goals
        cases h
        intro write hwrite
        cases hwrite
  | update id dto =>
      rw [hrequest] at htarget
      rcases Option.map_eq_some_iff.mp htarget.symm with ⟨current, rfl, rfl⟩
      have hupdates : ∀ {change : Option UserData},
          (∀ data, change = some data → data.keepsIds ∧ data.guarded w.db call current) →
          ∀ write ∈ change.toList.map (UserWrite.update current.id),
            Allowed w.db call (some current) write := by
        intro change hchange write hwrite
        rcases List.mem_map.mp hwrite with ⟨data, hdata, rfl⟩
        rcases hchange data (Option.mem_toList.mp hdata) with ⟨hids, howners⟩
        exact .update rfl hids howners
      cases statement <;> simp only [statementWrites, hrequest] at h
      case emailCheck =>
        rcases Fallible.bind_eq_ok.mp h with ⟨_, w₁, _, hend⟩
        cases hend
        intro write hwrite
        cases hwrite
      case columns =>
        cases h
        exact hupdates fun data hdata => columnsData_allowed hrequest hdata
      case roles =>
        rcases Fallible.bind_eq_ok.mp h with ⟨change, w₁, hchange, hend⟩
        cases hend
        refine hupdates fun data hdata => ?_
        rw [hdata] at hchange
        exact rolesData_allowed hunique hrequest hchange
      case branches =>
        rcases Fallible.bind_eq_ok.mp h with ⟨change, w₁, hchange, hend⟩
        cases hend
        refine hupdates fun data hdata => ?_
        rw [hdata] at hchange
        exact ⟨(branchesData_allowed hchange).1, Or.inl (branchesData_allowed hchange).2⟩
      all_goals
        cases h
        intro write hwrite
        cases hwrite
  | delete id =>
      rw [hrequest] at htarget
      rcases Option.map_eq_some_iff.mp htarget.symm with ⟨current, rfl, rfl⟩
      cases statement <;> simp only [statementWrites, hrequest] at h
      case softDelete =>
        cases h
        intro write hwrite
        rw [List.mem_singleton.mp hwrite]
        have hdeactivates : call.request.deactivates = true := by
          rw [hrequest]
          rfl
        exact .update rfl (fun _ => rfl)
          (Or.inr ⟨guards_ne_nil_of_deactivates hdeactivates, Or.inl hdeactivates⟩)
      all_goals
        cases h
        intro write hwrite
        cases hwrite

end Statements

/-! ## What a transaction does to the users -/

section Writes

variable {call : UserCall} {target : Option UserResponse} {writes : List UserWrite}
  {w w' : World}

/-- A property of users that the updates preserve has a user behind the writes. -/
theorem runWrites_tracks {env : UserEnv} {R : User → Prop}
    (hkeep : ∀ id data, UserWrite.update id data ∈ writes →
      ∀ user, R user → user.id = id → R (data.assign user))
    (h : runWrites env writes w = (.ok (), w')) (hstart : ∃ user ∈ w.db.users, R user) :
    ∃ user ∈ w'.db.users, R user := by
  induction writes generalizing w with
  | nil =>
      cases h
      exact hstart
  | cons write writes ih =>
      rcases Fallible.bind_eq_ok.mp h with ⟨a, w₁, hwrite, hrest⟩
      rcases UserWrite.run_ok hwrite with ⟨S, _, rfl⟩
      refine ih (fun id data hmem => hkeep id data (List.mem_cons_of_mem _ hmem)) hrest ?_
      rcases hstart with ⟨user, hmem, huser⟩
      cases write with
      | create tenantId data => exact ⟨user, List.mem_append_left _ hmem, huser⟩
      | update id data =>
          refine ⟨_, List.mem_map_of_mem hmem, ?_⟩
          split
          · rename_i hown
            simp only [ownRow, Bool.and_eq_true, beq_iff_eq] at hown
            exact hkeep id data (List.mem_cons_self ..) user huser hown.1.symm
          · exact huser

/-- The ids stay distinct. -/
theorem runWrites_nodup {db : Db} (hallowed : ∀ write ∈ writes, Allowed db call target write)
    (h : runWrites call.env writes w = (.ok (), w'))
    (hstart : (w.db.users.map (·.id)).Nodup) : (w'.db.users.map (·.id)).Nodup := by
  induction writes generalizing w with
  | nil =>
      cases h
      exact hstart
  | cons write writes ih =>
      rcases Fallible.bind_eq_ok.mp h with ⟨a, w₁, hwrite, hrest⟩
      refine ih (fun write' hmem => hallowed write' (List.mem_cons_of_mem _ hmem)) hrest ?_
      cases hallowed write (List.mem_cons_self ..) with
      | create tenantId data => exact UserWrite.run_create_nodup hwrite
      | @update current data read ids owners =>
          rcases UserWrite.run_ok hwrite with ⟨S, _, rfl⟩
          have hids : (UserWrite.applied call.env S w.db.users (.update current.id data)).map
              (·.id) = w.db.users.map (·.id) := by
            simp only [UserWrite.applied, List.map_map]
            apply List.map_congr_left
            intro user _
            simp only [Function.comp_apply]
            split
            · exact ids user
            · rfl
          rw [hids]
          exact hstart

/-- A user stays a user of its tenant. -/
theorem runWrites_rows {db : Db} (hallowed : ∀ write ∈ writes, Allowed db call target write)
    (h : runWrites call.env writes w = (.ok (), w')) {user : User} (hmem : user ∈ w.db.users) :
    ∃ user' ∈ w'.db.users, user'.id = user.id ∧ user'.tenantId = user.tenantId := by
  refine runWrites_tracks (R := fun u => u.id = user.id ∧ u.tenantId = user.tenantId) ?_ h
    ⟨user, hmem, rfl, rfl⟩
  intro id data hwrite u hu _
  cases hallowed _ hwrite with
  | update read ids owners => exact ⟨(ids u).trans hu.1, (data.assign_tenantId u).trans hu.2⟩

/-- An active owner stays one, unless it is the target of a request with guards that
deactivates it or has read that it is an owner. -/
theorem runWrites_owner {tenantId : Id}
    (hallowed : ∀ write ∈ writes, Allowed w.db call target write)
    (h : runWrites call.env writes w = (.ok (), w')) {user : User} (hmem : user ∈ w.db.users)
    (howner : ActiveOwner w.db tenantId user) :
    (∃ user' ∈ w'.db.users, user'.id = user.id ∧ ActiveOwner w'.db tenantId user') ∨
      ∃ current, target = some current ∧ user.id = current.id ∧ call.request.guards ≠ [] ∧
        (call.request.deactivates = true ∨
          current.roles.contains "RESTAURANT_OWNER" = true) := by
  by_cases hguarded : ∃ current, target = some current ∧ user.id = current.id ∧
      call.request.guards ≠ [] ∧ (call.request.deactivates = true ∨
        current.roles.contains "RESTAURANT_OWNER" = true)
  · exact Or.inr hguarded
  · left
    have hroles : w'.db.roles = w.db.roles := by
      have h' := runWrites_roles call.env writes w
      rw [h] at h'
      exact h'
    have htracked := runWrites_tracks
      (R := fun u => u.id = user.id ∧ ActiveOwner w.db tenantId u) ?_ h ⟨user, hmem, rfl, howner⟩
    · rcases htracked with ⟨user', hmem', hid, howner'⟩
      exact ⟨user', hmem', hid, howner'.congr hroles⟩
    · intro id data hwrite u hu hid
      cases hallowed _ hwrite with
      | @update current data read ids owners =>
          rcases owners with hkeeps | hwrites
          · exact ⟨(ids u).trans hu.1, hkeeps tenantId u hu.2⟩
          · exact absurd ⟨current, read, hu.1.symm.trans hid, hwrites⟩ hguarded

end Writes

/-! ## The invariant of a run -/

section Runs

variable {ι : Type} [DecidableEq ι]

/-- A user of the caller's tenant has the id. -/
def UserCall.knows (call : UserCall) (db : Db) (id : Id) : Prop :=
  ∃ user ∈ db.users, user.id = id ∧ user.tenantId = call.tenantId

/-- The call holds the lock of its tenant, and another user is an active owner there. -/
def Secured (call : UserCall) (i : ι) (s : UserState ι) (targetId : Id) : Prop :=
  ∀ tenantId, call.tenantId = some tenantId → s.holder tenantId = some i ∧
    ∃ user ∈ s.committed.db.users, user.id ≠ targetId ∧
      ActiveOwner s.committed.db tenantId user

/-- What holds in the phase of a call: once the guards are through, a target that was read as
an owner leaves another owner. -/
def PhaseInv (call : UserCall) (i : ι) (s : UserState ι) : UserPhase → Prop
  | .guarding target actions =>
      call.request.target = some target.id ∧ call.knows s.committed.db target.id ∧
        (actions = call.request.guards ∨
          (target.roles.contains "RESTAURANT_OWNER" = true → Secured call i s target.id))
  | .counting target _ _ =>
      call.request.target = some target.id ∧ call.knows s.committed.db target.id ∧
        ∀ tenantId, call.tenantId = some tenantId → s.holder tenantId = some i
  | .working target _ writes =>
      call.request.target = target.map (·.id) ∧
        (∀ current, target = some current → call.knows s.committed.db current.id ∧
          (call.request.guards ≠ [] → current.roles.contains "RESTAURANT_OWNER" = true →
            Secured call i s current.id)) ∧
        ∀ write ∈ writes, Allowed s.committed.db call target write
  | _ => True

/-- What a step leaves to a call that does not make it. -/
structure Frame (i : ι) (s s' : UserState ι) : Prop where
  holders : ∀ tenantId, s.holder tenantId = some i → s'.holder tenantId = some i
  roles : s'.committed.db.roles = s.committed.db.roles
  rows : ∀ user ∈ s.committed.db.users, ∃ user' ∈ s'.committed.db.users,
    user'.id = user.id ∧ user'.tenantId = user.tenantId
  owners : ∀ tenantId, s.holder tenantId = some i → ∀ user ∈ s.committed.db.users,
    ActiveOwner s.committed.db tenantId user → ∃ user' ∈ s'.committed.db.users,
      user'.id = user.id ∧ ActiveOwner s'.committed.db tenantId user'

variable {call : UserCall} {i : ι} {s s' : UserState ι}

omit [DecidableEq ι] in
/-- A step that commits nothing and takes no lock away leaves everything. -/
theorem Frame.of_committed (hcommitted : s'.committed = s.committed)
    (hholders : ∀ tenantId, s.holder tenantId = some i → s'.holder tenantId = some i) :
    Frame i s s' where
  holders := hholders
  roles := by rw [hcommitted]
  rows user hmem := ⟨user, by rw [hcommitted]; exact hmem, rfl, rfl⟩
  owners tenantId _ user hmem howner := by
    rw [hcommitted]
    exact ⟨user, hmem, rfl, howner⟩

omit [DecidableEq ι] in
theorem Frame.knows (hframe : Frame i s s') {id : Id} (h : call.knows s.committed.db id) :
    call.knows s'.committed.db id := by
  rcases h with ⟨user, hmem, hid, htenant⟩
  rcases hframe.rows user hmem with ⟨user', hmem', hid', htenant'⟩
  exact ⟨user', hmem', hid'.trans hid, htenant'.trans htenant⟩

omit [DecidableEq ι] in
theorem Frame.secured (hframe : Frame i s s') {targetId : Id}
    (h : Secured call i s targetId) : Secured call i s' targetId := by
  intro tenantId htenant
  rcases h tenantId htenant with ⟨hheld, user, hmem, hne, howner⟩
  rcases hframe.owners tenantId hheld user hmem howner with ⟨user', hmem', hid, howner'⟩
  exact ⟨hframe.holders tenantId hheld, user', hmem', by rw [hid]; exact hne, howner'⟩

omit [DecidableEq ι] in
/-- What holds in a phase survives the steps of other calls. -/
theorem PhaseInv.frame (hframe : Frame i s s') {phase : UserPhase}
    (h : PhaseInv call i s phase) : PhaseInv call i s' phase := by
  cases phase with
  | guarding target actions =>
      rcases h with ⟨htarget, hknows, hguards⟩
      exact ⟨htarget, hframe.knows hknows, hguards.imp_right fun hsecured hread =>
        hframe.secured (hsecured hread)⟩
  | counting target action actions =>
      rcases h with ⟨htarget, hknows, hheld⟩
      exact ⟨htarget, hframe.knows hknows, fun tenantId htenant =>
        hframe.holders tenantId (hheld tenantId htenant)⟩
  | working target statements writes =>
      rcases h with ⟨htarget, hcurrent, hallowed⟩
      refine ⟨htarget, fun current hread => ?_, fun write hmem =>
        (hallowed write hmem).congr hframe.roles⟩
      rcases hcurrent current hread with ⟨hknows, hsecured⟩
      exact ⟨hframe.knows hknows, fun hguards howner =>
        hframe.secured (hsecured hguards howner)⟩
  | start => trivial
  | granted => trivial
  | committed => trivial
  | failed e => trivial

/-! ## The steps that commit nothing -/

/-- A step that commits nothing, takes no lock from another call and keeps its invariant. -/
structure Quiet (call : UserCall) (i : ι) (s : UserState ι) (r : UserState ι × UserPhase) :
    Prop where
  committed : r.1.committed = s.committed
  holders : ∀ j, j ≠ i → ∀ tenantId, s.holder tenantId = some j → r.1.holder tenantId = some j
  phase : PhaseInv call i r.1 r.2

omit [DecidableEq ι] in
/-- A step that only changes its phase. -/
theorem Quiet.stay {phase : UserPhase} (h : PhaseInv call i s phase) :
    Quiet call i s (s, phase) :=
  ⟨rfl, fun _ _ _ hheld => hheld, h⟩

theorem release_of_ne {j : ι} (hj : j ≠ i) {tenantId : Id}
    (hheld : s.holder tenantId = some j) : (s.release i).holder tenantId = some j := by
  have hother : s.holder tenantId ≠ some i := by
    rw [hheld]
    simpa using hj
  simpa [UserState.release, hother] using hheld

theorem failStep_quiet (e : AppError) : Quiet call i s (failStep s i e) :=
  ⟨rfl, fun _ hj _ hheld => release_of_ne hj hheld, trivial⟩

theorem checkStep_quiet (tenantId : Id) : Quiet call i s (checkStep call tenantId s i) := by
  unfold checkStep
  cases hrequest : call.request with
  | create dto =>
      simp only
      split
      · refine .stay ⟨by rw [hrequest]; rfl, fun current hread => ?_, fun write hmem => ?_⟩
        · cases hread
        · cases hmem
      · exact failStep_quiet _
  | update id dto =>
      simp only
      split
      · exact .stay trivial
      · exact failStep_quiet _
  | delete id =>
      simp only
      split
      · exact failStep_quiet _
      · exact .stay trivial

/-- In a bound call a scope is the tenant of the caller, or none. -/
theorem UserCall.bound.getD_eq (hbound : call.bound) {tenantId : Id}
    (htenant : call.tenantId = some tenantId) {S : Option Id} (hctx : call.env.context.Sees S) :
    S.getD tenantId = tenantId := by
  rcases hbound tenantId htenant with hsees | hsees
  · rw [hctx.unique hsees]
    rfl
  · rw [hctx.unique hsees]
    rfl

theorem readStep_quiet {tenantId : Id} (hbound : call.bound)
    (htenant : call.tenantId = some tenantId) : Quiet call i s (readStep call tenantId s i) := by
  unfold readStep
  split
  · exact .stay trivial
  · rename_i id htarget
    rcases hread : findOne call.env id tenantId s.committed with ⟨e | target, w'⟩
    · exact failStep_quiet e
    · rcases findOne_eq_ok hread with ⟨S, user, hctx, hmem, hid, huser, _, rfl, _⟩
      rw [hbound.getD_eq htenant hctx] at huser
      exact .stay ⟨htarget.trans (congrArg some hid.symm),
        ⟨user, hmem, rfl, huser.trans htenant.symm⟩, Or.inl rfl⟩

theorem guardStep_quiet {tenantId : Id} (htenant : call.tenantId = some tenantId)
    {target : UserResponse} {actions : List String}
    (h : PhaseInv call i s (.guarding target actions)) :
    Quiet call i s (guardStep call tenantId s i target actions) := by
  rcases h with ⟨htarget, hknows, hguards⟩
  cases actions with
  | nil =>
      refine .stay ⟨htarget, fun current hread => ?_, fun write hmem => ?_⟩
      · cases hread
        refine ⟨hknows, fun hsome howner => ?_⟩
        rcases hguards with hnone | hsecured
        · exact absurd hnone.symm hsome
        · exact hsecured howner
      · cases hmem
  | cons action actions =>
      simp only [guardStep]
      split
      · split
        · exact .stay ⟨htarget, hknows, hguards⟩
        · rename_i hfree
          refine ⟨rfl, fun j hj T hheld => ?_, htarget, hknows, fun T hT => ?_⟩
          · by_cases hsame : T = tenantId
            · subst hsame
              simp [UserState.taken, hheld, hj] at hfree
            · simpa [UserState.acquire, hsame] using hheld
          · rw [htenant] at hT
            cases hT
            simp [UserState.acquire]
      · rename_i hread
        exact .stay ⟨htarget, hknows, Or.inr fun howner => absurd howner hread⟩

theorem countStep_quiet {tenantId : Id} (hbound : call.bound)
    (htenant : call.tenantId = some tenantId) {target : UserResponse} {action : String}
    {actions : List String} (h : PhaseInv call i s (.counting target action actions)) :
    Quiet call i s (countStep call tenantId s i target action actions) := by
  rcases h with ⟨htarget, hknows, hheld⟩
  unfold countStep
  rcases hcount : assertOwnerRemains call.env tenantId target.id action s.committed with
    ⟨e | _, w'⟩
  · exact failStep_quiet e
  · refine .stay ⟨htarget, hknows, Or.inr fun _ T hT => ⟨hheld T hT, ?_⟩⟩
    rw [htenant] at hT
    cases hT
    rcases assertOwnerRemains_eq_ok hcount with ⟨n, hn, hcounted⟩
    rcases countOwners_pos hcounted hn with
      ⟨S, user, hctx, hmem, huser, hlive, hactive, hne, hrole⟩
    rw [hbound.getD_eq htenant hctx] at huser
    exact ⟨user, hmem, hne, huser, hlive, hactive, hrole⟩

theorem revokeStep_quiet {next : UserPhase} (h : PhaseInv call i s next) :
    Quiet call i s (revokeStep call s i next) := by
  unfold revokeStep
  split
  · cases next <;> exact ⟨rfl, fun _ _ _ hheld => hheld, h⟩
  · exact ⟨rfl, fun _ hj _ hheld => release_of_ne hj hheld, trivial⟩

/-- A transaction sees the committed roles. -/
theorem viewOf_roles (env : UserEnv) (committed : World) (writes : List UserWrite) :
    (viewOf env committed writes).db.roles = committed.db.roles :=
  runWrites_roles env writes committed

/-- A statement that writes adds allowed writes. -/
theorem writingStep_quiet {rt : Runtime} {tenantId : Id} {target : Option UserResponse}
    {writes : List UserWrite} {statement : TxStatement} {statements : List TxStatement}
    (hwriting : statement ≠ .revoke) (hroles : (s.committed.db.roles.map (·.id)).Nodup)
    (h : PhaseInv call i s (.working target (statement :: statements) writes)) :
    Quiet call i s (workStep rt call tenantId s i target writes (statement :: statements)) := by
  rcases h with ⟨htarget, hcurrent, hallowed⟩
  unfold workStep
  split
  · rename_i heq
    cases heq
  · rename_i heq
    cases heq
    exact absurd rfl hwriting
  · rename_i statement' statements' _ heq
    cases heq
    have hview := viewOf_roles call.env s.committed writes
    simp only
    rcases hrun : statementWrites rt call tenantId target statement
      (viewOf call.env s.committed writes) with ⟨e | added, w'⟩
    · exact failStep_quiet e
    · have hadded := statementWrites_allowed (by rw [hview]; exact hroles) htarget hrun
      simp only
      split
      · exact failStep_quiet _
      · refine .stay ⟨htarget, hcurrent, fun write hmem => ?_⟩
        rcases List.mem_append.mp hmem with hold | hnew
        · exact hallowed write hold
        · exact (hadded write hnew).congr hview.symm

theorem workStep_quiet {rt : Runtime} {tenantId : Id} {target : Option UserResponse}
    {writes : List UserWrite} {statements : List TxStatement}
    (hroles : (s.committed.db.roles.map (·.id)).Nodup) (hmore : statements ≠ [])
    (h : PhaseInv call i s (.working target statements writes)) :
    Quiet call i s (workStep rt call tenantId s i target writes statements) := by
  cases statements with
  | nil => exact absurd rfl hmore
  | cons statement statements =>
      by_cases hrevoke : statement = .revoke
      · subst hrevoke
        exact revokeStep_quiet h
      · exact writingStep_quiet hrevoke hroles h

/-- A step of a call commits nothing, or commits the writes of its transaction. -/
theorem userStep_cases {phase : UserPhase} (rt : Runtime) (hbound : call.bound)
    (hroles : (s.committed.db.roles.map (·.id)).Nodup) (h : PhaseInv call i s phase) :
    Quiet call i s (userStep rt call i s phase) ∨
      ∃ target writes w', phase = .working target [] writes ∧
        runWrites call.env writes s.committed = (.ok (), w') ∧
        userStep rt call i s phase = ({ s with committed := w' }.release i, .committed) := by
  rcases hassert : assertTenant call.tenantId s with ⟨e | tenantId, s₁⟩
  · left
    cases phase with
    | committed => exact .stay trivial
    | failed e' => exact .stay trivial
    | _ =>
        simp only [userStep, hassert]
        exact failStep_quiet e
  · have htenant : call.tenantId = some tenantId := (assertTenant_eq_ok.mp hassert).1
    cases phase with
    | committed => exact Or.inl (.stay trivial)
    | failed e' => exact Or.inl (.stay trivial)
    | start =>
        simp only [userStep, hassert]
        exact Or.inl (checkStep_quiet tenantId)
    | granted =>
        simp only [userStep, hassert]
        exact Or.inl (readStep_quiet hbound htenant)
    | guarding target actions =>
        simp only [userStep, hassert]
        exact Or.inl (guardStep_quiet htenant h)
    | counting target action actions =>
        simp only [userStep, hassert]
        exact Or.inl (countStep_quiet hbound htenant h)
    | working target statements writes =>
        simp only [userStep, hassert]
        by_cases hmore : statements = []
        · subst hmore
          simp only [workStep, commitStep]
          split
          · exact Or.inl (failStep_quiet _)
          · rcases hrun : runWrites call.env writes s.committed with ⟨e | _, w'⟩
            · exact Or.inl (failStep_quiet e)
            · exact Or.inr ⟨target, writes, w', rfl, hrun, rfl⟩
        · exact Or.inl (workStep_quiet hroles hmore h)

/-! ## Runs -/

/-- A call that commits the deactivation or deletion of a user who is an active owner by then
has read that the user is an owner. -/
def ReadsOwner (calls : ι → UserCall) (c : UserConfig ι) (l : ι × UserTick) : Prop :=
  l.2.rollback = false → ∀ target writes, c.phase l.1 = .working (some target) [] writes →
    (calls l.1).request.deactivates = true →
      ∀ tenantId, ∀ user ∈ c.shared.committed.db.users, user.id = target.id →
        ActiveOwner c.shared.committed.db tenantId user →
          target.roles.contains "RESTAURANT_OWNER" = true

/-- What every reached configuration keeps. -/
structure OwnersInv (calls : ι → UserCall) (tenantId : Id) (c : UserConfig ι) : Prop where
  users : (c.shared.committed.db.users.map (·.id)).Nodup
  roles : (c.shared.committed.db.roles.map (·.id)).Nodup
  phases : ∀ i, PhaseInv (calls i) i c.shared (c.phase i)
  owner : HasOwner c.shared.committed.db tenantId

omit [DecidableEq ι] in
/-- A commit leaves each active owner, or the call holds the lock of the tenant and another
owner stays. -/
theorem commit_owner {target : Option UserResponse} {writes : List UserWrite} {w' : World}
    (husers : (s.committed.db.users.map (·.id)).Nodup)
    (hphase : PhaseInv call i s (.working target [] writes))
    (hread : ∀ current, target = some current → call.request.deactivates = true →
      ∀ tenantId, ∀ user ∈ s.committed.db.users, user.id = current.id →
        ActiveOwner s.committed.db tenantId user →
          current.roles.contains "RESTAURANT_OWNER" = true)
    (hrun : runWrites call.env writes s.committed = (.ok (), w')) {tenantId : Id} {user : User}
    (hmem : user ∈ s.committed.db.users) (howner : ActiveOwner s.committed.db tenantId user) :
    (∃ user' ∈ w'.db.users, user'.id = user.id ∧ ActiveOwner w'.db tenantId user') ∨
      s.holder tenantId = some i ∧ HasOwner w'.db tenantId := by
  rcases hphase with ⟨_, hcurrent, hallowed⟩
  rcases runWrites_owner hallowed hrun hmem howner with hstays | ⟨current, rfl, hid, hsome, htakes⟩
  · exact Or.inl hstays
  · right
    rcases hcurrent current rfl with ⟨⟨known, hknown, hknownId, hknownTenant⟩, hsecured⟩
    have hsame : known = user :=
      List.inj_on_of_nodup_map husers hknown hmem (hknownId.trans hid.symm)
    subst hsame
    have hroles : current.roles.contains "RESTAURANT_OWNER" = true := by
      rcases htakes with hdeactivates | hroles
      · exact hread current rfl hdeactivates tenantId known hmem hid howner
      · exact hroles
    rcases hsecured hsome hroles tenantId (hknownTenant.symm.trans howner.tenant) with
      ⟨hheld, other, hother, hne, hotherOwner⟩
    -- The other owner is not the target, so no write concerns that row.
    rcases runWrites_owner hallowed hrun hother hotherOwner with
      ⟨other', hother', _, howner'⟩ | ⟨current', hcurrent', hid', _⟩
    · exact ⟨hheld, other', hother', howner'⟩
    · cases hcurrent'
      exact absurd hid' hne

/-- A commit frames every other call. -/
theorem commit_frame {target : Option UserResponse} {writes : List UserWrite} {w' : World}
    (husers : (s.committed.db.users.map (·.id)).Nodup)
    (hphase : PhaseInv call i s (.working target [] writes))
    (hread : ∀ current, target = some current → call.request.deactivates = true →
      ∀ tenantId, ∀ user ∈ s.committed.db.users, user.id = current.id →
        ActiveOwner s.committed.db tenantId user →
          current.roles.contains "RESTAURANT_OWNER" = true)
    (hrun : runWrites call.env writes s.committed = (.ok (), w')) {j : ι} (hj : j ≠ i) :
    Frame j s ({ s with committed := w' }.release i) where
  holders tenantId hheld := release_of_ne (s := { s with committed := w' }) hj hheld
  roles := by
    have h := runWrites_roles call.env writes s.committed
    rw [hrun] at h
    exact h
  rows user hmem := runWrites_rows hphase.2.2 hrun hmem
  owners tenantId hheld user hmem howner := by
    rcases commit_owner husers hphase hread hrun hmem howner with hstays | ⟨hheld', _⟩
    · exact hstays
    · rw [hheld] at hheld'
      exact absurd (Option.some.inj hheld') hj

variable {calls : ι → UserCall} {tenantId : Id} {c : UserConfig ι}

/-- A step that commits nothing keeps the invariant. -/
theorem OwnersInv.quiet {r : UserState ι × UserPhase} (hinv : OwnersInv calls tenantId c)
    (h : Quiet (calls i) i c.shared r) :
    OwnersInv calls tenantId ⟨r.1, Function.update c.phase i r.2⟩ where
  users := by
    simp only [h.committed]
    exact hinv.users
  roles := by
    simp only [h.committed]
    exact hinv.roles
  phases j := by
    by_cases hj : j = i
    · subst hj
      simpa using h.phase
    · simp only [Function.update_of_ne hj]
      exact (hinv.phases j).frame (Frame.of_committed h.committed (h.holders j hj))
  owner := by
    simp only [h.committed]
    exact hinv.owner

/-- A commit keeps the invariant. -/
theorem OwnersInv.commit {target : Option UserResponse} {writes : List UserWrite} {w' : World}
    (hinv : OwnersInv calls tenantId c)
    {elapsed : ℕ} (hread : ReadsOwner calls c (i, { elapsed := elapsed }))
    (hphase : c.phase i = .working target [] writes)
    (hrun : runWrites (calls i).env writes c.shared.committed = (.ok (), w')) :
    OwnersInv calls tenantId
      ⟨{ c.shared with
          sessions := c.shared.sessions.advance elapsed
          committed := w' }.release i, Function.update c.phase i .committed⟩ := by
  have hmover := hinv.phases i
  rw [hphase] at hmover
  have hreads : ∀ current, target = some current → (calls i).request.deactivates = true →
      ∀ T, ∀ user ∈ c.shared.committed.db.users, user.id = current.id →
        ActiveOwner c.shared.committed.db T user →
          current.roles.contains "RESTAURANT_OWNER" = true := by
    rintro current rfl
    exact hread rfl current writes hphase
  refine ⟨runWrites_nodup hmover.2.2 hrun hinv.users, ?_, fun j => ?_, ?_⟩
  · have hroles := runWrites_roles (calls i).env writes c.shared.committed
    rw [hrun] at hroles
    simp only [UserState.release]
    rw [hroles]
    exact hinv.roles
  · by_cases hj : j = i
    · subst hj
      simp only [Function.update_self]
      trivial
    · simp only [Function.update_of_ne hj]
      have hframe := commit_frame hinv.users hmover hreads hrun hj
      exact (hinv.phases j).frame ⟨hframe.holders, hframe.roles, hframe.rows, hframe.owners⟩
  · rcases hinv.owner with ⟨user, hmem, howner⟩
    rcases commit_owner hinv.users hmover hreads hrun hmem howner with
      ⟨user', hmem', _, howner'⟩ | ⟨_, hother⟩
    · exact ⟨user', hmem', howner'⟩
    · exact hother

/-- A step keeps the invariant. -/
theorem OwnersInv.step {rt : Runtime} (hbound : ∀ i, (calls i).bound) {l : ι × UserTick}
    (hinv : OwnersInv calls tenantId c) (hread : ReadsOwner calls c l) :
    OwnersInv calls tenantId ((userCalls rt calls).step c l) := by
  rcases l with ⟨i, ⟨elapsed, rollback⟩⟩
  simp only [CallSystem.step, userCalls]
  have hphase := hinv.phases i
  split
  · have hquiet : Quiet (calls i) i c.shared (failStep c.shared i .failure) := failStep_quiet _
    exact hinv.quiet ⟨rfl, hquiet.holders, trivial⟩
  · rename_i hgoes
    have hmoves := userStep_cases (i := i)
      (s := { c.shared with sessions := c.shared.sessions.advance elapsed }) rt (hbound i)
      hinv.roles (hphase.frame (Frame.of_committed rfl fun _ hheld => hheld))
    rcases hmoves with hquiet | ⟨target, writes, w', hworking, hrun, hstep⟩
    · exact hinv.quiet ⟨hquiet.committed, hquiet.holders, hquiet.phase⟩
    · rw [hworking] at hgoes
      have hforward : rollback = false := by simpa [UserPhase.inFlight] using hgoes
      subst hforward
      rw [hstep]
      exact hinv.commit hread hworking hrun

/-- No call has begun, no lock is taken, and ids are distinct. -/
structure UserConfig.Starts (c : UserConfig ι) : Prop where
  phases : ∀ i, c.phase i = .start
  users : (c.shared.committed.db.users.map (·.id)).Nodup
  roles : (c.shared.committed.db.roles.map (·.id)).Nodup

end Runs

/-! ## Two sample runs -/

/-- A restaurant with two users, of whom the first is an owner. -/
def sampleDb (second : Id) : Db where
  tenants := [{ id := "t", name := "Trattoria" }]
  roles :=
    [{ id := "owner", tenantId := some "t", name := "RESTAURANT_OWNER", displayName := "Owner" },
      { id := "staff", tenantId := some "t", name := "STAFF", displayName := "Staff" }]
  users :=
    [{ id := "ada", tenantId := some "t", firstName := "Ada", lastName := "A"
       email := "ada@example.com", passwordHash := "", roleIds := ["owner"] },
      { id := "bea", tenantId := some "t", firstName := "Bea", lastName := "B"
        email := "bea@example.com", passwordHash := "", roleIds := [second] }]

/-- The start of the sample runs. -/
def sampleConfig {ι : Type} (db : Db) : UserConfig ι where
  shared :=
    { committed := { db := db }
      sessions := { cache := { redis := { now := 1700000000000, entry := fun _ => none } } } }
  phase _ := .start

/-- What the sample calls draw from their surroundings. -/
def sampleEnv : UserEnv where
  context := { tenantId := some "t", isPlatformOwner := false }
  uuid _ := "new"
  now := 1700000000000

/-- A call of an owner in the restaurant. -/
def ownerCall (actorId : Id) (request : UserRequest) : UserCall where
  env := sampleEnv
  tenantId := some "t"
  actor := { id := actorId, roles := ["RESTAURANT_OWNER"], permissions := [] }
  request := request

/-- Ada deactivates Bea and makes her an owner; Bea removes Ada. -/
def sampleCalls : Fin 3 → UserCall
  | 0 => ownerCall "ada" (.update "bea" { isActive := some false })
  | 1 => ownerCall "ada" (.assignRoles "bea" ["RESTAURANT_OWNER"])
  | 2 => ownerCall "bea" (.delete "ada")

/-- Steps of one call. -/
def moves {ι : Type} (n : ℕ) (i : ι) : List (ι × UserTick) :=
  List.replicate n (i, { elapsed := 0 })

/-- The deactivation reads Bea, who is no owner yet; the promotion and the removal are committed
before it goes on. -/
def sampleSchedule : List (Fin 3 × UserTick) :=
  moves 2 0 ++ moves 9 1 ++ moves 8 2 ++ moves 8 0

theorem ownerCall_bound (actorId : Id) (request : UserRequest) :
    (ownerCall actorId request).bound := by
  rintro tenantId ⟨⟩
  exact Or.inl ⟨rfl, by decide⟩

/-- The owners remove one another. -/
def mutualCalls : Bool → UserCall
  | true => ownerCall "ada" (.delete "bea")
  | false => ownerCall "bea" (.delete "ada")

/-- Both removals have read their targets before one of them takes the lock. -/
def mutualSchedule : List (Bool × UserTick) :=
  moves 2 true ++ moves 3 false ++ moves 1 true ++ moves 5 false ++ moves 2 true

theorem sampleCalls_bound : ∀ i, (sampleCalls i).bound
  | 0 => ownerCall_bound _ _
  | 1 => ownerCall_bound _ _
  | 2 => ownerCall_bound _ _

theorem mutualCalls_bound : ∀ i, (mutualCalls i).bound
  | true => ownerCall_bound _ _
  | false => ownerCall_bound _ _

theorem sampleConfig_starts (second : Id) {ι : Type} :
    (sampleConfig (sampleDb second) : UserConfig ι).Starts :=
  ⟨fun _ => rfl, by simp [sampleConfig, sampleDb], by simp [sampleConfig, sampleDb]⟩

/-- The call commits for a target that it has read as an owner, or does not commit. -/
def hasRead {ι : Type} (c : UserConfig ι) (l : ι × UserTick) : Bool :=
  match c.phase l.1 with
  | .working (some target) [] _ => target.roles.contains "RESTAURANT_OWNER"
  | _ => true

theorem readsOwner_of_read {ι : Type} {calls : ι → UserCall} {c : UserConfig ι}
    {l : ι × UserTick} (h : hasRead c l = true) : ReadsOwner calls c l := by
  intro _ target writes hphase _ tenantId user _ _ _
  unfold hasRead at h
  rw [hphase] at h
  exact h

/-! ## The last owner -/

/-- A tenant with an active owner keeps one, in runs where each call that commits the
deactivation or deletion of an active owner has read that its target is an owner. -/
theorem owner_remains {ι : Type} [DecidableEq ι] {calls : ι → UserCall} {tenantId : Id}
    {c : UserConfig ι} (rt : Runtime) (hbound : ∀ i, (calls i).bound)
    {schedule : List (ι × UserTick)} (hstart : c.Starts)
    (howner : HasOwner c.shared.committed.db tenantId)
    (hread : (userCalls rt calls).EachStep (ReadsOwner calls) c schedule) :
    HasOwner ((userCalls rt calls).run c schedule).shared.committed.db tenantId := by
  have hbegin : OwnersInv calls tenantId c := by
    refine ⟨hstart.users, hstart.roles, fun i => ?_, howner⟩
    rw [hstart.phases i]
    trivial
  have hend := CallSystem.run_induction (I := fun c => OwnersInv calls tenantId c)
    (userCalls rt calls) (fun c l hinv hreads => hinv.step hbound hreads) hbegin hread
  exact hend.owner

/-- Two owners who remove one another: the second removal counts no other owner. -/
theorem one_owner_remains :
    HasOwner ((userCalls plainRuntime mutualCalls).run (sampleConfig (sampleDb "owner"))
      mutualSchedule).shared.committed.db "t" :=
  owner_remains plainRuntime mutualCalls_bound (sampleConfig_starts "owner")
    (by decide +kernel) (CallSystem.EachStep.mono (fun _ _ => readsOwner_of_read)
      (by decide +kernel : (userCalls plainRuntime mutualCalls).EachStep
        (fun c l => hasRead c l = true) (sampleConfig (sampleDb "owner")) mutualSchedule))

/-- A deactivation that has read its target before the promotion of the target skips the guard
and takes the last owner. -/
theorem owners_lost :
    ¬∀ (calls : Fin 3 → UserCall) (tenantId : Id) (c : UserConfig (Fin 3))
      (schedule : List (Fin 3 × UserTick)), (∀ i, (calls i).bound) → c.Starts →
        HasOwner c.shared.committed.db tenantId →
          HasOwner ((userCalls plainRuntime calls).run c schedule).shared.committed.db
            tenantId := by
  have howner : HasOwner (sampleDb "staff") "t" := by decide +kernel
  have hlost : ¬HasOwner ((userCalls plainRuntime sampleCalls).run
      (sampleConfig (sampleDb "staff")) sampleSchedule).shared.committed.db "t" := by decide +kernel
  intro hall
  exact hlost (hall sampleCalls "t" (sampleConfig (sampleDb "staff")) sampleSchedule
    sampleCalls_bound (sampleConfig_starts "staff") howner)

end UserService
end Eleva
