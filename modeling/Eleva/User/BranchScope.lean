import Eleva.Foundation.ListRelations
import Eleva.Foundation.Machine
import Eleva.Branch.BranchService
import Eleva.User.UserCalls

/-!
# User - The branches that a user was assigned

A user keeps its links to deleted branches: what is reported of a user are the links whose
branch is live.  An assignment replaces the links that are visible at that moment, so a link
that is hidden then stays, and shows again when its branch is restored.

The users and branches of all tenants change by one call after the other.  Beside the stores
the state keeps, for each user, the branches of its last assignment.

Main results:

- Theorem {lit}`createUser_cases` and {lit}`updateUser_cases`: what the calls on users do to the
  links.
- Theorem {lit}`within_assigned_iff`: the reported branches stay within the assigned ones
  exactly when no branch is restored to which a user has kept a link that its last assignment
  left out.
- Theorem {lit}`cook_regains_branch`: a cook that was taken off all branches works at a
  restored branch again.
-/

namespace Eleva
namespace UserService

open Foundation Database Auth TableOf

/-! ## The calls -/

/-- A call on users or branches. -/
inductive ScopeAction where
  | createUser (env : UserEnv) (dto : CreateUserRequestDto) (tenantId : Option Id)
      (actor : ActorContext)
  | updateUser (env : UserEnv) (id : Id) (dto : UpdateUserRequestDto) (tenantId : Option Id)
      (actor : ActorContext)
  | assignBranches (env : UserEnv) (id : Id) (branchIds : List Id) (tenantId : Option Id)
      (actor : ActorContext)
  | createBranch (env : LifecycleEnv) (dto : BranchService.CreateBranchRequestDto)
  | deleteBranch (env : LifecycleEnv) (id : Id)
  | restoreBranch (env : LifecycleEnv) (id : Id)

/-- The stores, and the branches of the last assignment of each user. -/
structure Staff where
  app : AppState
  assigned : Id → Option (List Id) := fun _ => none

/-- The assignments after one to a user. -/
def assignTo (assigned : Id → Option (List Id)) (userId : Id) (ids : List Id) (id : Id) :
    Option (List Id) :=
  if id = userId then some ids else assigned id

theorem assignTo_self (assigned : Id → Option (List Id)) (userId : Id) (ids : List Id) :
    assignTo assigned userId ids userId = some ids :=
  if_pos rfl

theorem assignTo_of_ne (assigned : Id → Option (List Id)) {userId id : Id} (ids : List Id)
    (hne : id ≠ userId) : assignTo assigned userId ids id = assigned id :=
  if_neg hne

/-- The assignments after a call that names branches. -/
def recordAssigned (answer : Except AppError UserResponse) (branchIds : Option (List Id))
    (assigned : Id → Option (List Id)) : Id → Option (List Id) :=
  match answer, branchIds with
  | .ok user, some ids => assignTo assigned user.id ids
  | .ok _, none => assigned
  | .error _, _ => assigned

/-- A call on users. -/
def afterUserCall (call : AppService UserResponse) (branchIds : Option (List Id)) (s : Staff) :
    Staff where
  app := (call s.app).2
  assigned := recordAssigned (call s.app).1 branchIds s.assigned

/-- A call on branches. -/
def afterBranchCall {α : Type} (call : Service α) (s : Staff) : Staff :=
  { s with app := { s.app with world := (call s.app.world).2 } }

/-- The calls over the stores, one after the other. -/
def staff (rt : Runtime) : Machine ScopeAction Staff Unit where
  step a s :=
    match a with
    | .createUser env dto tenantId actor =>
        ((), afterUserCall (UserService.createUser rt env dto tenantId actor)
          (some (dto.branchIds.getD [])) s)
    | .updateUser env id dto tenantId actor =>
        ((), afterUserCall (UserService.updateUser rt env id dto tenantId actor) dto.branchIds s)
    | .assignBranches env id branchIds tenantId actor =>
        ((), afterUserCall (UserService.assignBranches rt env id branchIds tenantId actor)
          (some branchIds) s)
    | .createBranch env dto => ((), afterBranchCall (BranchService.createBranch env dto) s)
    | .deleteBranch env id => ((), afterBranchCall (BranchService.deleteBranch env id) s)
    | .restoreBranch env id => ((), afterBranchCall (BranchService.restoreBranch env id) s)

/-- The branches that are reported for a user are among those of its last assignment. -/
def WithinAssigned (s : Staff) : Prop :=
  ∀ user ∈ s.app.world.db.users, ∀ ids ∈ s.assigned user.id,
    ∀ id ∈ (toResponse s.app.world.db user).branchIds, id ∈ ids

instance (s : Staff) : Decidable (WithinAssigned s) :=
  inferInstanceAs (Decidable (∀ user ∈ s.app.world.db.users, ∀ ids ∈ s.assigned user.id,
    ∀ id ∈ (toResponse s.app.world.db user).branchIds, id ∈ ids))

/-- No user has a link to the restored branch that its last assignment has left out. -/
def RestoresAssigned (a : ScopeAction) (s : Staff) : Prop :=
  match a with
  | .restoreBranch env id =>
      (BranchService.restoreBranch env id s.app.world).1.isOk = true →
        ∀ user ∈ s.app.world.db.users, ∀ ids ∈ s.assigned user.id,
          id ∈ user.branchIds → id ∈ ids
  | .createUser _ _ _ _ => True
  | .updateUser _ _ _ _ _ => True
  | .assignBranches _ _ _ _ _ => True
  | .createBranch _ _ => True
  | .deleteBranch _ _ => True

instance (env : LifecycleEnv) (id : Id) (s : Staff) :
    Decidable (RestoresAssigned (.restoreBranch env id) s) :=
  inferInstanceAs (Decidable
    ((BranchService.restoreBranch env id s.app.world).1.isOk = true →
      ∀ user ∈ s.app.world.db.users, ∀ ids ∈ s.assigned user.id,
        id ∈ user.branchIds → id ∈ ids))

/-! ## The reported branches -/

/-- A live branch with the id is stored. -/
def IsLive (db : Db) (id : Id) : Prop :=
  ∃ b ∈ db.branches, b.id = id ∧ b.deletedAt = none

theorem mem_liveBranchIds {db : Db} {user : User} {id : Id} :
    id ∈ liveBranchIds db user ↔ id ∈ user.branchIds ∧ IsLive db id := by
  simp [liveBranchIds, IsLive]

/-! ## Writes on one user -/

/-- The rows of a scope with the id are rewritten. -/
def OwnWrite (S : Option Id) (id : Id) (f : User → User) (w w' : World) : Prop :=
  w' = { w with db :=
    { w.db with users := w.db.users.map fun u => if ownRow S id u then f u else u } }

/-- A rewrite that keeps which user a row is. -/
structure KeepsPlace (f : User → User) : Prop where
  id : ∀ u, (f u).id = u.id
  tenantId : ∀ u, (f u).tenantId = u.tenantId
  deletedAt : ∀ u, (f u).deletedAt = u.deletedAt

theorem KeepsPlace.none : KeepsPlace (fun u => u) :=
  ⟨fun _ => rfl, fun _ => rfl, fun _ => rfl⟩

theorem KeepsPlace.comp {f g : User → User} (hg : KeepsPlace g) (hf : KeepsPlace f) :
    KeepsPlace fun u => g (f u) :=
  ⟨fun u => (hg.id _).trans (hf.id u), fun u => (hg.tenantId _).trans (hf.tenantId u),
    fun u => (hg.deletedAt _).trans (hf.deletedAt u)⟩

theorem KeepsPlace.ownRow {f : User → User} (hf : KeepsPlace f) (S : Option Id) (id : Id)
    (u : User) : ownRow S id (f u) = TableOf.ownRow S id u := by
  simp only [TableOf.ownRow, visible, owned, TenantRow.id, TenantRow.tenantId, hf.id, hf.tenantId]

theorem OwnWrite.trans {S : Option Id} {id : Id} {f g : User → User} {w w' w'' : World}
    (hf : KeepsPlace f) (h : OwnWrite S id f w w') (h' : OwnWrite S id g w' w'') :
    OwnWrite S id (fun u => g (f u)) w w'' := by
  unfold OwnWrite at *
  rw [h', h]
  simp only [List.map_map]
  congr 3
  funext u
  simp only [Function.comp_apply]
  by_cases hown : ownRow S id u = true
  · rw [if_pos hown, hf.ownRow, if_pos hown, if_pos hown]
  · rw [if_neg hown, if_neg hown, if_neg hown]

/-- What a {lit}`data` object does to a row, if there is one. -/
def assignOf (data : Option UserData) (u : User) : User :=
  match data with
  | some data => data.assign u
  | none => u

/-- An update that returned has rewritten the user. -/
theorem writeUser_ok {env : UserEnv} {S : Option Id} (hctx : env.context.Sees S) {id : Id}
    {data : Option UserData} {w w' : World} (h : writeUser env id data w = (.ok (), w')) :
    OwnWrite S id (assignOf data) w w' := by
  cases data with
  | none =>
      cases h
      simp [OwnWrite, assignOf]
  | some data =>
      rcases Fallible.bind_eq_ok.mp h with ⟨_, w₁, hrun, hpure⟩
      cases hpure
      rcases UserWrite.run_ok hrun with ⟨S', hctx', hw⟩
      rw [hctx'.unique hctx] at hw
      exact hw

/-! ## The replacement of the links -/

/-- The links of a user after an update that names branches; {lit}`current` are those that were
visible. -/
def replacedLinks (current : List Id) (branchIds : Option (List Id)) (links : List Id) :
    List Id :=
  match branchIds with
  | none => links
  | some ids =>
      links.filter (fun id => !(current.filter fun id => !ids.eraseDups.contains id).contains id) ++
        ids.eraseDups.filter fun id => !current.contains id

/-- The branches that were checked are stored. -/
theorem assertBranchesInTenant_ok {env : UserEnv} {tenantId : Id} {branchIds ids : List Id}
    {w w' : World} (h : assertBranchesInTenant env tenantId branchIds w = (.ok ids, w')) :
    ids = branchIds.eraseDups ∧ ∀ id ∈ ids, id ∈ w.db.branches.map (·.id) := by
  unfold assertBranchesInTenant at h
  split at h
  · rename_i hempty
    cases h
    exact ⟨hempty.symm, fun id hid => absurd hid List.not_mem_nil⟩
  · rcases Fallible.bind_eq_ok.mp h with ⟨found, w₁, hfind, hrest⟩
    rcases Fallible.throwIf_bind_eq_ok.mp hrest with ⟨hmissing, hpure⟩
    cases hpure
    rcases TableOf.sees_of_run_ok (by decide) hfind with ⟨S, hctx⟩
    have hrun := hfind.symm.trans (TableOf.run_client_findMany hctx (by decide) rfl w)
    simp only [Prod.mk.injEq, Except.ok.injEq] at hrun
    refine ⟨rfl, fun id hid => ?_⟩
    have hempty : (branchIds.eraseDups.filter fun id => !found.any fun b => b.id == id) = [] := by
      simpa using hmissing
    have hany := List.filter_eq_nil_iff.mp hempty id hid
    simp only [Bool.not_eq_true, Bool.not_eq_false', List.any_eq_true, beq_iff_eq] at hany
    rcases hany with ⟨b, hb, hsame⟩
    rw [hrun.1] at hb
    exact List.mem_map.mpr ⟨b, (List.mem_filter.mp hb).1, hsame⟩

/-- The branch replacement of an update rewrites the links only. -/
theorem updateBranches_ok {env : UserEnv} {tenantId : Id} {dto : UpdateUserRequestDto}
    {current : UserResponse} {data : Option UserData} {w w' : World}
    (h : updateBranches env tenantId dto current w = (.ok data, w')) :
    KeepsPlace (assignOf data) ∧
      (∀ u, (assignOf data u).branchIds =
        replacedLinks current.branchIds dto.branchIds u.branchIds) ∧
      ∀ ids ∈ dto.branchIds, ∀ id ∈ ids.eraseDups, id ∈ w.db.branches.map (·.id) := by
  unfold updateBranches at h
  cases hids : dto.branchIds with
  | none =>
      rw [hids] at h
      cases h
      exact ⟨KeepsPlace.none, fun _ => rfl, fun _ h => by cases h⟩
  | some ids =>
      rw [hids] at h
      rcases Fallible.bind_eq_ok.mp h with ⟨desired, w₁, hcheck, hpure⟩
      rcases assertBranchesInTenant_ok hcheck with ⟨rfl, hstored⟩
      cases hpure
      refine ⟨?_, fun u => ?_, ?_⟩
      · split
        · exact ⟨fun _ => rfl, fun _ => rfl, fun _ => rfl⟩
        · exact KeepsPlace.none
      · split
        · rfl
        · rename_i hnothing
          simp only [Bool.or_eq_true, bne_iff_ne, ne_eq, not_or, not_not] at hnothing
          simp only [assignOf, replacedLinks]
          rw [hnothing.1, hnothing.2]
          simp
      · rintro ids' ⟨⟩
        exact hstored

/-- The columns of an update leave the links. -/
theorem columnsData_keeps (rt : Runtime) (env : UserEnv) (dto : UpdateUserRequestDto) :
    KeepsPlace (assignOf (columnsData rt env dto)) ∧
      ∀ u, (assignOf (columnsData rt env dto) u).branchIds = u.branchIds := by
  unfold columnsData
  split
  · exact ⟨⟨fun _ => rfl, fun _ => rfl, fun _ => rfl⟩, fun _ => rfl⟩
  · exact ⟨KeepsPlace.none, fun _ => rfl⟩

/-- The role replacement of an update leaves the links. -/
theorem updateRoles_ok {env : UserEnv} {tenantId : Id} {dto : UpdateUserRequestDto}
    {current : UserResponse} {data : Option UserData} {w w' : World}
    (h : updateRoles env tenantId dto current w = (.ok data, w')) :
    KeepsPlace (assignOf data) ∧ ∀ u, (assignOf data u).branchIds = u.branchIds := by
  unfold updateRoles at h
  cases hroles : dto.roles with
  | none =>
      rw [hroles] at h
      cases h
      exact ⟨KeepsPlace.none, fun _ => rfl⟩
  | some names =>
      rw [hroles] at h
      rcases Fallible.bind_eq_ok.mp h with ⟨desired, w₁, _, hrest⟩
      rcases Fallible.bind_eq_ok.mp hrest with ⟨rows, w₂, _, hpure⟩
      cases hpure
      split
      · exact ⟨⟨fun _ => rfl, fun _ => rfl, fun _ => rfl⟩, fun _ => rfl⟩
      · exact ⟨KeepsPlace.none, fun _ => rfl⟩

/-! ## An update -/

/-- The statements of an update rewrite the user: its columns, then its roles, then its links. -/
theorem updateStatements_parts {rt : Runtime} {env : UserEnv} {S : Option Id}
    (hctx : env.context.Sees S) {tenantId id : Id} {dto : UpdateUserRequestDto}
    {current : UserResponse} {w w' : World}
    (h : updateStatements rt env tenantId id dto current w = (.ok (), w')) :
    ∃ newRoles newBranches w₂ w₄,
      updateRoles env tenantId dto current w₂ = (.ok newRoles, w₂) ∧
      w₂.db.roles = w.db.roles ∧
      updateBranches env tenantId dto current w₄ = (.ok newBranches, w₄) ∧
      w₄.db.branches = w.db.branches ∧
      OwnWrite S id (fun u => assignOf newBranches (assignOf newRoles
        (assignOf (columnsData rt env dto) u))) w w' := by
  rcases Fallible.bind_eq_ok.mp h with ⟨_, w₁, hemail, hrest₁⟩
  have hw₁ : w₁ = w := by
    have hkeep := Fallible.Keeps.state_eq (s := w)
      (assertNewEmailFree_keeps env tenantId (I := fun s => s = w) rt id dto)
    rw [hemail] at hkeep
    exact hkeep
  rw [hw₁] at hrest₁
  rcases Fallible.bind_eq_ok.mp hrest₁ with ⟨_, w₂, hcolumns, hrest₂⟩
  rcases Fallible.bind_eq_ok.mp hrest₂ with ⟨newRoles, w₃, hroles, hrest₃⟩
  have hw₃ : w₃ = w₂ := by
    have hkeep := Fallible.Keeps.state_eq (s := w₂)
      (updateRoles_keeps env tenantId (I := fun s => s = w₂) dto current)
    rw [hroles] at hkeep
    exact hkeep
  rw [hw₃] at hroles hrest₃
  rcases Fallible.bind_eq_ok.mp hrest₃ with ⟨_, w₄, hwriteRoles, hrest₄⟩
  rcases Fallible.bind_eq_ok.mp hrest₄ with ⟨newBranches, w₅, hbranches, hwriteBranches⟩
  have hw₅ : w₅ = w₄ := by
    have hkeep := Fallible.Keeps.state_eq (s := w₄)
      (updateBranches_keeps env tenantId (I := fun s => s = w₄) dto current)
    rw [hbranches] at hkeep
    exact hkeep
  rw [hw₅] at hbranches hwriteBranches
  have hplace₁ := (columnsData_keeps rt env dto).1
  have hplace₂ := (updateRoles_ok hroles).1
  have hfirst := writeUser_ok hctx hcolumns
  have hsecond := hfirst.trans hplace₁ (writeUser_ok hctx hwriteRoles)
  refine ⟨newRoles, newBranches, w₂, w₄, hroles, ?_, hbranches, ?_,
    hsecond.trans (hplace₂.comp hplace₁) (writeUser_ok hctx hwriteBranches)⟩
  · rw [show w₂ = _ from hfirst]
  · rw [show w₄ = _ from hsecond]

/-- The statements of an update rewrite the user, and its links as the update says. -/
theorem updateStatements_ok {rt : Runtime} {env : UserEnv} {S : Option Id}
    (hctx : env.context.Sees S) {tenantId id : Id} {dto : UpdateUserRequestDto}
    {current : UserResponse} {w w' : World}
    (h : updateStatements rt env tenantId id dto current w = (.ok (), w')) :
    ∃ f, KeepsPlace f ∧ OwnWrite S id f w w' ∧
      (∀ u, (f u).branchIds = replacedLinks current.branchIds dto.branchIds u.branchIds) ∧
      ∀ ids ∈ dto.branchIds, ∀ b ∈ ids.eraseDups, b ∈ w.db.branches.map (·.id) := by
  rcases updateStatements_parts hctx h with
    ⟨newRoles, newBranches, w₂, w₄, hroles, _, hbranches, hsame, hwrite⟩
  rcases columnsData_keeps rt env dto with ⟨hplace₁, hlinks₁⟩
  rcases updateRoles_ok hroles with ⟨hplace₂, hlinks₂⟩
  rcases updateBranches_ok hbranches with ⟨hplace₃, hlinks₃, hstored⟩
  refine ⟨_, hplace₃.comp (hplace₂.comp hplace₁), hwrite, fun u => ?_, ?_⟩
  · rw [hlinks₃, hlinks₂, hlinks₁]
  · rwa [hsame] at hstored

/-- A transaction that threw has left the database. -/
theorem inTransaction_cases {α : Type} (env : UserEnv) (x : AppService α) (s : AppState) :
    (∃ e s', inTransaction env x s = (.error e, s') ∧ s'.world = s.world) ∨
      ∃ a s', x s = (.ok a, s') ∧ inTransaction env x s = (.ok a, s') := by
  unfold inTransaction
  rcases x s with ⟨e | a, s'⟩
  · exact Or.inl ⟨e, _, rfl, rfl⟩
  · cases env.commitFails with
    | true => exact Or.inl ⟨_, _, rfl, rfl⟩
    | false => exact Or.inr ⟨a, s', rfl, rfl⟩

theorem updateTransaction_ok {rt : Runtime} {env : UserEnv} {tenantId id : Id}
    {dto : UpdateUserRequestDto} {current : UserResponse} {s s' : AppState}
    (h : updateTransaction rt env tenantId id dto current s = (.ok (), s')) :
    updateStatements rt env tenantId id dto current s.world = (.ok (), s'.world) := by
  rcases Fallible.bind_eq_ok.mp h with ⟨_, s₁, hguards, hrest⟩
  have hs₁ : s₁ = s := by
    have hkeep := inDatabase_of_keeps
      (fun {_} => runGuards_keeps env tenantId id current.roles dto.guards) s
    rw [hguards] at hkeep
    exact congrArg Prod.snd hkeep
  rw [hs₁] at hrest
  rcases Fallible.bind_eq_ok.mp hrest with ⟨_, s₂, hstatements, hrevoke⟩
  have hworld : s'.world = s₂.world := by
    split at hrevoke
    · unfold revokeSessions at hrevoke
      split at hrevoke
      · cases hrevoke
      · exact (inSessions_eq_ok.mp hrevoke).2
    · cases hrevoke
      rfl
  rw [hworld]
  exact (inDatabase_eq_ok.mp hstatements).1

/-- A live user of a tenant. -/
def liveUserWhere (id tenantId : Id) : Where User where
  id := some id
  tenantId := ofTenant tenantId
  deletedAt := .filter fun d => d == none

/-- A live user in its place is found. -/
theorem findOne_returns {env : UserEnv} {S : Option Id} (hctx : env.context.Sees S)
    {id tenantId : Id} {user : User} {w : World} (huser : user ∈ w.db.users) (hid : user.id = id)
    (htenant : user.tenantId = some (S.getD tenantId)) (hlive : user.deletedAt = none) :
    ∃ found ∈ w.db.users, found.id = id ∧
      findOne env id tenantId w = (.ok (toResponse w.db found), w) := by
  have hrun := TableOf.run_client_findFirst (t := users) (m := prisma.user)
    (f := liveUserWhere id tenantId) hctx (by decide) rfl w
  rw [inScope_ofTenant S rfl] at hrun
  have hsome : (w.db.users.find? (({ liveUserWhere id tenantId with
      tenantId := ofTenant (S.getD tenantId) } : Where User).admits prisma.user)).isSome :=
    List.find?_isSome.mpr ⟨user, huser, by
      simp [liveUserWhere, Where.admits, ofTenant, ColumnKey.admits, prisma.user, TenantRow.id,
        TenantRow.tenantId, hid, htenant, hlive]⟩
  rcases Option.isSome_iff_exists.mp hsome with ⟨found, hfound⟩
  have hmatch := List.find?_some hfound
  simp only [liveUserWhere, Where.admits, Bool.and_eq_true, beq_iff_eq, Option.all_some] at hmatch
  refine ⟨found, List.mem_of_find?_eq_some hfound, hmatch.1.1.1.2.symm, ?_⟩
  have hread : users.run (prisma.user.findFirst env.toEnv (liveUserWhere id tenantId)) w =
      (.ok (some found), w) := by
    rw [hrun, ← hfound]
    rfl
  unfold findOne
  exact Fallible.bind_of_ok hread

/-- A user of the tenant in scope is its own row. -/
theorem ownRow_of_place {S : Option Id} {tenantId id : Id} {user : User} (hid : user.id = id)
    (hplace : user.tenantId = some (S.getD tenantId)) : ownRow S id user = true := by
  cases S with
  | none => simp [ownRow, visible, TenantRow.id, hid]
  | some T => simpa [ownRow, visible, owned, TenantRow.id, TenantRow.tenantId, hid] using hplace

/-- What an update that answered has done: it has rewritten the user, and its links as it was
asked to. -/
structure Updated (id : Id) (branchIds : Option (List Id)) (w w' : World) (answer : UserResponse) :
    Prop where
  answered : answer.id = id
  effect : ∃ S f user, user ∈ w.db.users ∧ ownRow S id user = true ∧ KeepsPlace f ∧
    OwnWrite S id f w w' ∧
      ∀ u, (f u).branchIds = replacedLinks (liveBranchIds w.db user) branchIds u.branchIds
  stored : ∀ ids ∈ branchIds, ∀ id ∈ ids.eraseDups, id ∈ w.db.branches.map (·.id)

/-- An update throws and leaves the database, or answers and has run its statements on a live
user of the tenant. -/
theorem updateUser_runs (rt : Runtime) (env : UserEnv) (id : Id) (dto : UpdateUserRequestDto)
    (tenantIdInput : Option Id) (actor : ActorContext) (s : AppState) :
    (∃ e s', updateUser rt env id dto tenantIdInput actor s = (.error e, s') ∧
      s'.world = s.world) ∨
    ∃ r s' tenantId S user, updateUser rt env id dto tenantIdInput actor s = (.ok r, s') ∧
      r.id = id ∧ tenantIdInput = some tenantId ∧ env.context.Sees S ∧
      user ∈ s.world.db.users ∧ user.id = id ∧ user.tenantId = some (S.getD tenantId) ∧
      user.deletedAt = none ∧ (assertCanGrant env tenantId dto.roles actor s.world).1 = .ok () ∧
      updateTransaction rt env tenantId id dto (toResponse s.world.db user) s = (.ok (), s') := by
  unfold updateUser
  rcases htenant : assertTenant tenantIdInput s with ⟨e | tenantId, s₁⟩
  · have hs₁ := (assertTenant_error htenant s).symm.trans htenant
    cases hs₁
    exact Or.inl ⟨e, s, Fallible.bind_of_error htenant, rfl⟩
  have hinput := (assertTenant_eq_ok.mp htenant).1
  rw [Fallible.bind_of_ok htenant, (assertTenant_eq_ok.mp htenant).2.2]
  have hgrant := inDatabase_of_keeps
    (fun {_} => assertCanGrant_keeps env tenantId dto.roles actor) s
  rcases hgranted : (assertCanGrant env tenantId dto.roles actor s.world).1 with e | _
  · rw [hgranted] at hgrant
    exact Or.inl ⟨e, s, Fallible.bind_of_error hgrant, rfl⟩
  rw [hgranted] at hgrant
  rw [Fallible.bind_of_ok hgrant]
  have hfind := inDatabase_of_keeps (fun {_} => findOne_keeps env tenantId id) s
  rcases hfound : (findOne env id tenantId s.world).1 with e | current
  · rw [hfound] at hfind
    exact Or.inl ⟨e, s, Fallible.bind_of_error hfind, rfl⟩
  rw [hfound] at hfind
  rw [Fallible.bind_of_ok hfind]
  have hone : findOne env id tenantId s.world = (.ok current, s.world) :=
    (inDatabase_eq_ok.mp hfind).1
  rcases findOne_eq_ok hone with
    ⟨S, user, hctx, huser, hid, hplace, hlive, rfl, _⟩
  rcases inTransaction_cases env (updateTransaction rt env tenantId id dto
    (toResponse s.world.db user)) s with ⟨e, s₂, herror, hworld⟩ | ⟨_, s₂, htx, hok⟩
  · exact Or.inl ⟨e, s₂, Fallible.bind_of_error herror, hworld⟩
  rw [Fallible.bind_of_ok hok]
  rcases updateStatements_ok hctx (updateTransaction_ok htx) with ⟨f, hkeeps, hwrite, _, _⟩
  have hrewritten : f user ∈ s₂.world.db.users := by
    rw [show s₂.world = _ from hwrite]
    exact List.mem_map.mpr ⟨user, huser, if_pos (ownRow_of_place hid hplace)⟩
  rcases findOne_returns hctx hrewritten ((hkeeps.id user).trans hid)
    ((hkeeps.tenantId user).trans hplace) ((hkeeps.deletedAt user).trans hlive) with
    ⟨found, _, hfoundId, hagain⟩
  exact Or.inr ⟨toResponse s₂.world.db found, s₂, tenantId, S, user,
    inDatabase_eq_ok.mpr ⟨hagain, rfl⟩, hfoundId, hinput, hctx, huser, hid, hplace, hlive,
    hgranted, htx⟩

/-- An update throws and leaves the database, or answers and has rewritten the user. -/
theorem updateUser_cases (rt : Runtime) (env : UserEnv) (id : Id) (dto : UpdateUserRequestDto)
    (tenantIdInput : Option Id) (actor : ActorContext) (s : AppState) :
    (∃ e s', updateUser rt env id dto tenantIdInput actor s = (.error e, s') ∧
      s'.world = s.world) ∨
    ∃ r s', updateUser rt env id dto tenantIdInput actor s = (.ok r, s') ∧
      Updated id dto.branchIds s.world s'.world r := by
  rcases updateUser_runs rt env id dto tenantIdInput actor s with
    hthrew | ⟨r, s', tenantId, S, user, hrun, hanswered, _, hctx, huser, hid, hplace, _, _, htx⟩
  · exact Or.inl hthrew
  rcases updateStatements_ok hctx (updateTransaction_ok htx) with
    ⟨f, hkeeps, hwrite, hlinks, hstored⟩
  exact Or.inr ⟨r, s', hrun, hanswered,
    ⟨S, f, user, huser, ownRow_of_place hid hplace, hkeeps, hwrite, hlinks⟩, hstored⟩

/-! ## A creation -/

/-- What a creation that committed has done: it has appended a user with the links. -/
structure Created (branchIds : List Id) (w w' : World) (created : User) : Prop where
  world : w' = { w with db := { w.db with users := w.db.users ++ [created] } }
  ids : ((w.db.users ++ [created]).map (·.id)).Nodup
  links : created.branchIds = branchIds.eraseDups
  stored : ∀ id ∈ created.branchIds, id ∈ w.db.branches.map (·.id)

/-- A creation that commits has passed its checks and appended the user that they describe. -/
theorem insertUser_eq_ok {rt : Runtime} {env : UserEnv} {dto : CreateUserRequestDto}
    {tenantId : Id} {a : Option User} {w w' : World}
    (h : insertUser rt env dto tenantId w = (.ok a, w')) :
    ∃ S roleIds branchIds created, env.context.Sees S ∧ a = some created ∧
      created = createdUser env (S.getD tenantId) (newUserData dto (rt.normalizedEmail dto.email)
        (rt.hashPassword dto.password env.salt) roleIds branchIds) ∧
      assertEmailFree env tenantId (rt.normalizedEmail dto.email) none w = (.ok (), w) ∧
      resolveRoleIds env tenantId (dto.roles.getD []) w = (.ok roleIds, w) ∧
      assertBranchesInTenant env tenantId (dto.branchIds.getD []) w = (.ok branchIds, w) ∧
      w' = { w with db := { w.db with users := w.db.users ++ [created] } } ∧
      ((w.db.users ++ [created]).map (·.id)).Nodup := by
  have hcommitted := Fallible.transaction_eq_ok.mp h
  rcases Fallible.bind_eq_ok.mp hcommitted with ⟨data, w₁, hprepare, hrest⟩
  have hw₁ : w₁ = w := by
    have hkeep := Fallible.Keeps.state_eq (s := w)
      (prepareUser_keeps env tenantId (I := fun s => s = w) rt dto)
    rw [hprepare] at hkeep
    exact hkeep
  rw [hw₁] at hrest
  -- The checks leave the database.
  rcases Fallible.bind_eq_ok.mp hprepare with ⟨_, w₂, hemail, hrest₂⟩
  have hw₂ : w₂ = w := by
    have hkeep := Fallible.Keeps.state_eq (s := w) (assertEmailFree_keeps env tenantId
      (I := fun s => s = w) (rt.normalizedEmail dto.email) none)
    rw [hemail] at hkeep
    exact hkeep
  rw [hw₂] at hemail hrest₂
  rcases Fallible.bind_eq_ok.mp hrest₂ with ⟨roleIds, w₃, hroles, hrest₃⟩
  have hw₃ : w₃ = w := by
    have hkeep := Fallible.Keeps.state_eq (s := w) (resolveRoleIds_keeps env tenantId
      (I := fun s => s = w) (dto.roles.getD []))
    rw [hroles] at hkeep
    exact hkeep
  rw [hw₃] at hroles hrest₃
  rcases Fallible.bind_eq_ok.mp hrest₃ with ⟨branchIds, w₄, hbranches, hpure⟩
  have hw₄ : w₄ = w := by
    have hkeep := Fallible.Keeps.state_eq (s := w) (assertBranchesInTenant_keeps env tenantId
      (I := fun s => s = w) (dto.branchIds.getD []))
    rw [hbranches] at hkeep
    exact hkeep
  rw [hw₄] at hbranches
  cases hpure
  -- The row is the one that they describe.
  rcases Fallible.bind_eq_ok.mp hrest with ⟨row, w₅, hrun, hcommit⟩
  have hreturned := (attempt_eq_ok.mp hcommit).2
  cases hreturned
  have hids := UserWrite.run_create_nodup hrun
  rcases TableOf.sees_of_run_ok (by decide) hrun with ⟨S, hctx⟩
  rcases TableOf.run_create_ok hctx (by decide) rfl hrun with ⟨_, hrow, _, _, hworld⟩
  rw [hworld] at hids
  refine ⟨S, roleIds, branchIds, _, hctx, hrow, ?_, hemail, hroles, hbranches, hworld, hids⟩
  cases S <;> rfl

theorem insertUser_ok {rt : Runtime} {env : UserEnv} {dto : CreateUserRequestDto}
    {tenantId : Id} {a : Option User} {w w' : World}
    (h : insertUser rt env dto tenantId w = (.ok a, w')) :
    ∃ created, a = some created ∧ Created (dto.branchIds.getD []) w w' created := by
  rcases insertUser_eq_ok h with
    ⟨S, roleIds, branchIds, created, _, hrow, hdata, _, _, hbranches, hworld, hids⟩
  rcases assertBranchesInTenant_ok hbranches with ⟨hlinks, hstored⟩
  have hsame : created.branchIds = branchIds := by rw [hdata]; rfl
  refine ⟨created, hrow, hworld, hids, hsame.trans hlinks, ?_⟩
  rw [hsame]
  exact hstored

/-- A creation leaves the database, or has inserted a user and reads it. -/
theorem createUser_runs (rt : Runtime) (env : UserEnv) (dto : CreateUserRequestDto)
    (tenantIdInput : Option Id) (actor : ActorContext) (s : AppState) :
    (∃ e s', createUser rt env dto tenantIdInput actor s = (.error e, s') ∧
      s'.world = s.world) ∨
    ∃ tenantId created s', tenantIdInput = some tenantId ∧
      (assertCanGrantRoles env tenantId (dto.roles.getD []) actor s.world).1 = .ok () ∧
      insertUser rt env dto tenantId s.world = (.ok (some created), s'.world) ∧
      createUser rt env dto tenantIdInput actor s =
        ((findOne env created.id tenantId s'.world).1, s') := by
  unfold createUser
  rcases htenant : assertTenant tenantIdInput s with ⟨e | tenantId, s₁⟩
  · have hs₁ := (assertTenant_error htenant s).symm.trans htenant
    cases hs₁
    exact Or.inl ⟨e, s, Fallible.bind_of_error htenant, rfl⟩
  have hinput := (assertTenant_eq_ok.mp htenant).1
  rw [Fallible.bind_of_ok htenant, (assertTenant_eq_ok.mp htenant).2.2]
  have hgrant := inDatabase_of_keeps
    (fun {_} => assertCanGrantRoles_keeps env tenantId (dto.roles.getD []) actor) s
  rcases hgranted : (assertCanGrantRoles env tenantId (dto.roles.getD []) actor s.world).1 with
    e | _
  · rw [hgranted] at hgrant
    exact Or.inl ⟨e, s, Fallible.bind_of_error hgrant, rfl⟩
  rw [hgranted] at hgrant
  rw [Fallible.bind_of_ok hgrant]
  rcases hinsert : inDatabase (insertUser rt env dto tenantId) s with ⟨e | row, s₂⟩
  · have hkept : (insertUser rt env dto tenantId s.world).2 = s.world := by
      have herror : (insertUser rt env dto tenantId s.world).1 = .error e :=
        congrArg Prod.fst hinsert
      exact Fallible.transaction_error (Prod.ext herror rfl)
    have hs₂ : s₂.world = s.world :=
      (congrArg (fun result => result.2.world) hinsert).symm.trans hkept
    exact Or.inl ⟨e, s₂, Fallible.bind_of_error hinsert, hs₂⟩
  rw [Fallible.bind_of_ok hinsert]
  have hdone := (inDatabase_eq_ok.mp hinsert).1
  rcases insertUser_ok hdone with ⟨created, rfl, _⟩
  exact Or.inr ⟨tenantId, created, s₂, hinput, hgranted, hdone,
    inDatabase_of_keeps (fun {_} => findOne_keeps env tenantId created.id) s₂⟩

/-- A creation leaves the database, or has appended a user with the links; only then it
answers. -/
theorem createUser_cases (rt : Runtime) (env : UserEnv) (dto : CreateUserRequestDto)
    (tenantIdInput : Option Id) (actor : ActorContext) (s : AppState) :
    (∃ e s', createUser rt env dto tenantIdInput actor s = (.error e, s') ∧
      s'.world = s.world) ∨
    ∃ created, Created (dto.branchIds.getD []) s.world
        (createUser rt env dto tenantIdInput actor s).2.world created ∧
      ∀ r, (createUser rt env dto tenantIdInput actor s).1 = .ok r → r.id = created.id := by
  rcases createUser_runs rt env dto tenantIdInput actor s with
    hthrew | ⟨tenantId, created, s', _, _, hinsert, hrun⟩
  · exact Or.inl hthrew
  rcases insertUser_ok hinsert with ⟨created', hsame, hcreated⟩
  cases hsame
  rw [hrun]
  refine Or.inr ⟨created, hcreated, fun r hr => ?_⟩
  have hone : findOne env created.id tenantId s'.world = (.ok r, s'.world) := by
    have hkeep := Fallible.Keeps.state_eq (s := s'.world)
      (findOne_keeps env tenantId (I := fun w => w = s'.world) created.id)
    exact Prod.ext hr hkeep
  rcases findOne_eq_ok hone with ⟨_, user, _, _, hid, _, _, rfl, _⟩
  exact hid

/-! ## The invariant -/

/-- What the calls keep: the reported branches are within the assigned ones, the assignments
are of stored users, and every link names a stored branch. -/
structure ScopeSound (s : Staff) : Prop where
  within : WithinAssigned s
  userIds : (s.app.world.db.users.map (·.id)).Nodup
  tableIds : (s.app.world.db.tables.map (·.id)).Nodup
  known : ∀ id ids, s.assigned id = some ids → id ∈ s.app.world.db.users.map (·.id)
  linked : ∀ user ∈ s.app.world.db.users, ∀ id ∈ user.branchIds,
    id ∈ s.app.world.db.branches.map (·.id)

section Invariant

variable {s s' : Staff}

/-- The session store takes no part. -/
theorem ScopeSound.of_world (h : ScopeSound s) (hworld : s'.app.world = s.app.world)
    (hassigned : s'.assigned = s.assigned) : ScopeSound s' := by
  refine ⟨?_, ?_, ?_, ?_, ?_⟩
  · unfold WithinAssigned
    rw [hworld, hassigned]
    exact h.within
  · rw [hworld]
    exact h.userIds
  · rw [hworld]
    exact h.tableIds
  · rw [hworld, hassigned]
    exact h.known
  · rw [hworld]
    exact h.linked

/-- A creation assigns to the new user the branches that it is linked to. -/
theorem ScopeSound.created (h : ScopeSound s) {branchIds : List Id} {created : User}
    (hcreated : Created branchIds s.app.world s'.app.world created)
    (hassigned : s'.assigned = s.assigned ∨
      s'.assigned = assignTo s.assigned created.id branchIds) :
    ScopeSound s' := by
  have husers : s'.app.world.db.users = s.app.world.db.users ++ [created] := by
    rw [hcreated.world]
  have hbranches : s'.app.world.db.branches = s.app.world.db.branches := by
    rw [hcreated.world]
  have hfresh : created.id ∉ s.app.world.db.users.map (·.id) := by
    have hids := hcreated.ids
    rw [List.map_append, List.map_singleton] at hids
    exact fun hmem => (List.nodup_append.mp hids).2.2 _ hmem _ List.mem_cons_self rfl
  have hold : ∀ user ∈ s.app.world.db.users, s'.assigned user.id = s.assigned user.id := by
    intro user huser
    rcases hassigned with hsame | hnew
    · rw [hsame]
    · rw [hnew]
      refine assignTo_of_ne _ _ fun heq => hfresh ?_
      rw [← heq]
      exact List.mem_map_of_mem huser
  refine ⟨fun user huser ids hids id hid => ?_, ?_, ?_, fun id ids hids => ?_, ?_⟩
  · rw [husers] at huser
    have hreported := mem_liveBranchIds.mp hid
    rcases List.mem_append.mp huser with hmem | hlast
    · refine h.within user hmem ids (by rw [← hold user hmem]; exact hids) id ?_
      refine mem_liveBranchIds.mpr ⟨hreported.1, ?_⟩
      unfold IsLive
      rw [← hbranches]
      exact hreported.2
    · rw [List.mem_singleton.mp hlast] at hids hreported
      rcases hassigned with hsame | hnew
      · rw [hsame] at hids
        exact absurd (h.known _ _ hids) hfresh
      · rw [hnew, assignTo_self] at hids
        cases hids
        rw [hcreated.links] at hreported
        exact List.mem_eraseDups.mp hreported.1
  · rw [husers]
    exact hcreated.ids
  · rw [hcreated.world]
    exact h.tableIds
  · rw [husers, List.map_append]
    rcases hassigned with hsame | hnew
    · rw [hsame] at hids
      exact List.mem_append_left _ (h.known id ids hids)
    · rw [hnew] at hids
      by_cases heq : id = created.id
      · rw [heq]
        exact List.mem_append_right _ List.mem_cons_self
      · rw [assignTo_of_ne _ _ heq] at hids
        exact List.mem_append_left _ (h.known id ids hids)
  · rw [husers, hbranches]
    intro user huser id hid
    rcases List.mem_append.mp huser with hmem | hlast
    · exact h.linked user hmem id hid
    · rw [List.mem_singleton.mp hlast] at hid
      exact hcreated.stored id hid

/-- The live branches among the links after a replacement are those that are asked for. -/
theorem mem_replacedLinks_iff {db : Db} {user : User} {ids : List Id} {id : Id}
    (hlive : IsLive db id) :
    id ∈ replacedLinks (liveBranchIds db user) (some ids) user.branchIds ↔ id ∈ ids := by
  have hvisible : ∀ x ∈ user.branchIds, IsLive db x → x ∈ liveBranchIds db user :=
    fun x hx hxlive => mem_liveBranchIds.mpr ⟨hx, hxlive⟩
  have hknown : ∀ x ∈ ids.eraseDups, x ∈ liveBranchIds db user → x ∈ user.branchIds :=
    fun x _ hx => (mem_liveBranchIds.mp hx).1
  exact (mem_exchange hvisible hknown hlive).trans List.mem_eraseDups

/-- The links after a replacement are old ones or stored ones. -/
theorem mem_replacedLinks {current links : List Id} {branchIds : Option (List Id)} {id : Id}
    (hid : id ∈ replacedLinks current branchIds links) :
    id ∈ links ∨ ∃ ids ∈ branchIds, id ∈ ids.eraseDups := by
  cases branchIds with
  | none => exact Or.inl hid
  | some ids =>
      simp only [replacedLinks, List.mem_append, List.mem_filter] at hid
      rcases hid with ⟨hlink, _⟩ | ⟨hadded, _⟩
      · exact Or.inl hlink
      · exact Or.inr ⟨ids, rfl, hadded⟩

/-- An update of a user keeps the reported branches within the assigned ones. -/
theorem ScopeSound.updated (h : ScopeSound s) {id : Id} {branchIds : Option (List Id)}
    {answer : UserResponse}
    (hupdated : Updated id branchIds s.app.world s'.app.world answer)
    (hassigned : s'.assigned = recordAssigned (.ok answer) branchIds s.assigned) :
    ScopeSound s' := by
  rcases hupdated.effect with ⟨S, f, user, huser, hown, hkeeps, hwrite, hlinks⟩
  have husers : s'.app.world.db.users =
      s.app.world.db.users.map fun u => if ownRow S id u then f u else u := by
    rw [show s'.app.world = _ from hwrite]
  have hbranches : s'.app.world.db.branches = s.app.world.db.branches := by
    rw [show s'.app.world = _ from hwrite]
  have hrowId : ∀ u : User, (if ownRow S id u = true then f u else u).id = u.id := by
    intro u
    split
    · exact hkeeps.id u
    · rfl
  have hids : s'.app.world.db.users.map (·.id) = s.app.world.db.users.map (·.id) := by
    rw [husers, List.map_map]
    exact List.map_congr_left fun u _ => hrowId u
  have huserId : user.id = id := by
    simp only [ownRow, Bool.and_eq_true, beq_iff_eq] at hown
    exact hown.1.symm
  have hlive : ∀ b, IsLive s'.app.world.db b ↔ IsLive s.app.world.db b := by
    intro b
    unfold IsLive
    rw [hbranches]
  refine ⟨fun row hrow ids hassign b hb => ?_, hids ▸ h.userIds, ?_, fun u ids hassign => ?_, ?_⟩
  · rcases mem_liveBranchIds.mp hb with ⟨hlink, hshown⟩
    rw [hlive] at hshown
    rw [husers] at hrow
    rcases List.mem_map.mp hrow with ⟨old, hold, rfl⟩
    rw [hrowId] at hassign
    by_cases hsame : ownRow S id old = true
    · -- the rewritten row is the user that was read
      have holdId : old.id = id := by
        simp only [ownRow, Bool.and_eq_true, beq_iff_eq] at hsame
        exact hsame.1.symm
      have hread : old = user :=
        List.inj_on_of_nodup_map h.userIds hold huser (holdId.trans huserId.symm)
      rw [if_pos hsame, hlinks, hread] at hlink
      cases branchIds with
      | none =>
          rw [hassigned] at hassign
          exact h.within old hold ids hassign b
            (mem_liveBranchIds.mpr ⟨hread ▸ hlink, hshown⟩)
      | some asked =>
          rw [hassigned, recordAssigned, hupdated.answered, holdId, assignTo_self] at hassign
          cases hassign
          exact (mem_replacedLinks_iff hshown).mp hlink
    · have hother : s.assigned old.id = some ids := by
        rw [hassigned] at hassign
        cases branchIds with
        | none => exact hassign
        | some asked =>
            by_cases holdId : old.id = id
            · have hread : old = user :=
                List.inj_on_of_nodup_map h.userIds hold huser (holdId.trans huserId.symm)
              exact absurd (hread ▸ hown) hsame
            · rw [recordAssigned, hupdated.answered, assignTo_of_ne _ _ holdId] at hassign
              exact hassign
      rw [if_neg hsame] at hlink
      exact h.within old hold ids hother b (mem_liveBranchIds.mpr ⟨hlink, hshown⟩)
  · rw [show s'.app.world = _ from hwrite]
    exact h.tableIds
  · rw [hids]
    rw [hassigned] at hassign
    cases branchIds with
    | none => exact h.known u ids hassign
    | some asked =>
        by_cases hsame : u = id
        · rw [hsame, ← huserId]
          exact List.mem_map_of_mem huser
        · rw [recordAssigned, hupdated.answered, assignTo_of_ne _ _ hsame] at hassign
          exact h.known u ids hassign
  · rw [husers, hbranches]
    intro row hrow b hb
    rcases List.mem_map.mp hrow with ⟨old, hold, rfl⟩
    by_cases hsame : ownRow S id old = true
    · rw [if_pos hsame, hlinks] at hb
      rcases mem_replacedLinks hb with hlink | ⟨ids, hasked, hadded⟩
      · exact h.linked old hold b hlink
      · exact hupdated.stored ids hasked b hadded
    · rw [if_neg hsame] at hb
      exact h.linked old hold b hb

/-! ## The calls on branches -/

/-- A call on branches that shows no link outside the assignments keeps the invariant. -/
theorem ScopeSound.of_branches (h : ScopeSound s)
    (husers : s'.app.world.db.users = s.app.world.db.users)
    (hassigned : s'.assigned = s.assigned)
    (htables : (s'.app.world.db.tables.map (·.id)).Nodup)
    (hstored : ∀ id ∈ s.app.world.db.branches.map (·.id),
      id ∈ s'.app.world.db.branches.map (·.id))
    (hshown : ∀ user ∈ s.app.world.db.users, ∀ ids, s.assigned user.id = some ids →
      ∀ id ∈ user.branchIds, IsLive s'.app.world.db id → id ∈ ids) : ScopeSound s' := by
  refine ⟨fun user huser ids hids id hid => ?_, husers ▸ h.userIds, htables, ?_, ?_⟩
  · rw [husers] at huser
    rw [hassigned] at hids
    rcases mem_liveBranchIds.mp hid with ⟨hlink, hlive⟩
    exact hshown user huser ids hids id hlink hlive
  · rw [husers, hassigned]
    exact h.known
  · rw [husers]
    exact fun user huser id hid => hstored id (h.linked user huser id hid)

/-- A link to a live branch is within the assignment. -/
theorem ScopeSound.mem (h : ScopeSound s) {user : User} (huser : user ∈ s.app.world.db.users)
    {ids : List Id} (hids : s.assigned user.id = some ids) {id : Id} (hlink : id ∈ user.branchIds)
    (hlive : IsLive s.app.world.db id) : id ∈ ids :=
  h.within user huser ids hids id (mem_liveBranchIds.mpr ⟨hlink, hlive⟩)

/-- A call that throws changes nothing. -/
theorem afterBranchCall_error {α : Type} {call : Service α} (hatomic : Fallible.Atomic call)
    {e : AppError} {w' : World} (hrun : call s.app.world = (.error e, w')) :
    afterBranchCall call s = s := by
  unfold afterBranchCall
  rw [hrun, hatomic _ _ _ hrun]

/-- A new branch is not linked yet. -/
theorem ScopeSound.createBranch (h : ScopeSound s) (env : LifecycleEnv)
    (dto : BranchService.CreateBranchRequestDto) :
    ScopeSound (afterBranchCall (BranchService.createBranch env dto) s) := by
  rcases hrun : BranchService.createBranch env dto s.app.world with ⟨e | a, w'⟩
  · rw [afterBranchCall_error (BranchService.createBranch_atomic env dto) hrun]
    exact h
  · rcases BranchService.createBranch_ok hrun with ⟨S, latitude, longitude, hctx, hw', haccepted⟩
    generalize branchRepository.created env.toEnv S
      (BranchService.newBranch dto latitude longitude) = created at hw' haccepted
    have hworld : (afterBranchCall (BranchService.createBranch env dto) s).app.world = w' :=
      congrArg Prod.snd hrun
    have hids : ((s.app.world.db.branches ++ [created]).map (·.id)).Nodup := by
      simp only [Store.accepts, Bool.and_eq_true, List.all_eq_true] at haccepted
      have hkey := haccepted.1 (fun r => some r.id) (by simp [branches])
      rw [← List.filterMap_eq_map]
      exact of_decide_eq_true hkey
    refine h.of_branches ?_ rfl ?_ ?_ ?_
    · rw [hworld, hw']
      rfl
    · rw [hworld, hw']
      exact h.tableIds
    · rw [hworld, hw']
      intro id hid
      change id ∈ (s.app.world.db.branches ++ [created]).map (·.id)
      rw [List.map_append]
      exact List.mem_append_left _ hid
    · rw [hworld, hw']
      rintro user huser ids hassigned id hlink ⟨b, hb, hbid, hlive⟩
      rcases List.mem_append.mp hb with hold | hnew
      · exact h.mem huser hassigned hlink ⟨b, hold, hbid, hlive⟩
      · -- the id of the new branch is not that of a stored one, and every link is stored
        rw [List.mem_singleton.mp hnew] at hbid
        have hstored := h.linked user huser id hlink
        rw [List.map_append, List.map_singleton] at hids
        exact absurd hbid.symm
          ((List.nodup_append.mp hids).2.2 _ hstored _ List.mem_cons_self)

/-- A deletion hides links. -/
theorem ScopeSound.deleteBranch (h : ScopeSound s) (env : LifecycleEnv) (id : Id) :
    ScopeSound (afterBranchCall (BranchService.deleteBranch env id) s) := by
  rcases hrun : BranchService.deleteBranch env id s.app.world with ⟨e | a, w'⟩
  · rw [afterBranchCall_error (BranchService.deleteBranch_atomic env id) hrun]
    exact h
  · rcases BranchService.deleteBranch_ok h.tableIds hrun with ⟨S, b, hctx, hbid, hfound, hw'⟩
    have hworld : (afterBranchCall (BranchService.deleteBranch env id) s).app.world = w' :=
      congrArg Prod.snd hrun
    have hrows : w'.db.branches = rewriteWhere (ownRow S b.id)
        (BranchService.branchTombstone env.now).apply s.app.world.db.branches := by
      rw [hw']
      rfl
    refine h.of_branches ?_ rfl ?_ ?_ ?_
    · rw [hworld, hw']
      rfl
    · have htables : w'.db.tables.map (·.id) = s.app.world.db.tables.map (·.id) := by
        rw [hw']
        refine map_rewriteWhere ?_ _
        exact fun _ => rfl
      rw [hworld, htables]
      exact h.tableIds
    · have hbranches : w'.db.branches.map (·.id) = s.app.world.db.branches.map (·.id) := by
        rw [hrows]
        refine map_rewriteWhere ?_ _
        exact fun _ => rfl
      rw [hworld, hbranches]
      exact fun _ hid => hid
    · rw [hworld]
      rintro user huser ids hassigned id' hlink ⟨r, hr, hrid, hlive⟩
      rw [hrows] at hr
      rcases List.mem_map.mp hr with ⟨old, hold, rfl⟩
      by_cases hown : ownRow S b.id old = true
      · rw [if_pos hown] at hlive
        cases hlive
      · rw [if_neg hown] at hrid hlive
        exact h.mem huser hassigned hlink ⟨old, hold, hrid, hlive⟩

/-- A restoration shows the links to its branch, and no others. -/
theorem isLive_restored {env : LifecycleEnv} {id : Id} {a : BranchService.RestoreResult}
    {w w' : World} (h : BranchService.restoreBranch env id w = (.ok a, w')) :
    (∀ b, IsLive w'.db b ↔ b = id ∨ IsLive w.db b) ∧ w'.db.users = w.db.users ∧
      w'.db.tables = w.db.tables ∧
      w'.db.branches.map (·.id) = w.db.branches.map (·.id) := by
  rcases BranchService.restoreBranch_ok h with ⟨S, b, hctx, hfound, heffect⟩
  have hmem := List.mem_of_find?_eq_some hfound
  have hown := List.find?_some hfound
  have hbid : b.id = id := by
    simp only [ownRow, Bool.and_eq_true, beq_iff_eq] at hown
    exact hown.1.symm
  split at heffect
  · rename_i hlive
    rw [heffect]
    refine ⟨fun c => ⟨Or.inr, ?_⟩, rfl, rfl, rfl⟩
    rintro (rfl | hc)
    · exact ⟨b, hmem, hbid, Option.isNone_iff_eq_none.mp hlive⟩
    · exact hc
  · have hrows : w'.db.branches =
        rewriteWhere (ownRow S id) BranchService.branchRestored.apply w.db.branches := by
      rw [heffect.world]
      rfl
    refine ⟨fun c => ⟨?_, ?_⟩, by rw [heffect.world]; rfl, by rw [heffect.world]; rfl, ?_⟩
    · rintro ⟨r, hr, hrid, hlive⟩
      rw [hrows] at hr
      rcases List.mem_map.mp hr with ⟨old, hold, rfl⟩
      by_cases hsame : ownRow S id old = true
      · rw [if_pos hsame] at hrid
        simp only [ownRow, Bool.and_eq_true, beq_iff_eq] at hsame
        exact Or.inl (hrid.symm.trans hsame.1.symm)
      · rw [if_neg hsame] at hrid hlive
        exact Or.inr ⟨old, hold, hrid, hlive⟩
    · rintro (rfl | ⟨r, hr, hrid, hlive⟩)
      · exact ⟨BranchService.branchRestored.apply b, by
          rw [hrows]; exact List.mem_map.mpr ⟨b, hmem, if_pos hown⟩, hbid, rfl⟩
      · rw [IsLive, hrows]
        refine ⟨_, List.mem_map_of_mem hr, ?_, ?_⟩
        · split
          · exact hrid
          · exact hrid
        · split
          · rfl
          · exact hlive
    · rw [hrows]
      refine map_rewriteWhere ?_ _
      exact fun _ => rfl

/-- A restoration keeps the reported branches within the assigned ones exactly when no user
has kept a link that was left out. -/
theorem restoreBranch_step (h : ScopeSound s) (env : LifecycleEnv) (id : Id) :
    (WithinAssigned (afterBranchCall (BranchService.restoreBranch env id) s) ↔
        RestoresAssigned (.restoreBranch env id) s) ∧
      (RestoresAssigned (.restoreBranch env id) s →
        ScopeSound (afterBranchCall (BranchService.restoreBranch env id) s)) := by
  rcases hrun : BranchService.restoreBranch env id s.app.world with ⟨e | a, w'⟩
  · rw [afterBranchCall_error (BranchService.restoreBranch_atomic env id) hrun]
    refine ⟨iff_of_true h.within fun hok => ?_, fun _ => h⟩
    rw [hrun] at hok
    cases hok
  · have hworld : (afterBranchCall (BranchService.restoreBranch env id) s).app.world = w' :=
      congrArg Prod.snd hrun
    have hok : (BranchService.restoreBranch env id s.app.world).1.isOk = true := by
      rw [hrun]
      rfl
    rcases isLive_restored hrun with ⟨hlive, husers, htables, hstored⟩
    have hkeeps : RestoresAssigned (.restoreBranch env id) s →
        ScopeSound (afterBranchCall (BranchService.restoreBranch env id) s) := by
      intro hrestores
      refine h.of_branches (hworld ▸ husers) rfl ?_ ?_ ?_
      · rw [hworld, htables]
        exact h.tableIds
      · rw [hworld, hstored]
        exact fun _ hid => hid
      · rw [hworld]
        intro user huser ids hassigned b hlink hshown
        rcases (hlive b).mp hshown with rfl | hbefore
        · exact hrestores hok user huser ids hassigned hlink
        · exact h.mem huser hassigned hlink hbefore
    refine ⟨⟨fun hwithin _ user huser ids hassigned hlink => ?_,
      fun hrestores => (hkeeps hrestores).within⟩, hkeeps⟩
    refine hwithin user ?_ ids hassigned id (mem_liveBranchIds.mpr ⟨hlink, ?_⟩)
    · rw [hworld, husers]
      exact huser
    · rw [hworld]
      exact (hlive id).mpr (Or.inl rfl)

/-! ## The run -/

theorem ScopeSound.createUser (h : ScopeSound s) (rt : Runtime) (env : UserEnv)
    (dto : CreateUserRequestDto) (tenantId : Option Id) (actor : ActorContext) :
    ScopeSound (afterUserCall (UserService.createUser rt env dto tenantId actor)
      (some (dto.branchIds.getD [])) s) := by
  rcases createUser_cases rt env dto tenantId actor s.app with
    ⟨e, app', herror, hworld⟩ | ⟨created, hcreated, hanswer⟩
  · refine h.of_world ?_ ?_
    · rw [afterUserCall, herror]
      exact hworld
    · rw [afterUserCall, herror]
      rfl
  · refine h.created hcreated ?_
    unfold afterUserCall
    cases hresult : (UserService.createUser rt env dto tenantId actor s.app).1 with
    | error e => exact Or.inl rfl
    | ok r =>
        right
        simp only [recordAssigned]
        rw [hanswer r hresult]

theorem ScopeSound.updateUser (h : ScopeSound s) (rt : Runtime) (env : UserEnv) (id : Id)
    (dto : UpdateUserRequestDto) (tenantId : Option Id) (actor : ActorContext) :
    ScopeSound (afterUserCall (UserService.updateUser rt env id dto tenantId actor)
      dto.branchIds s) := by
  rcases updateUser_cases rt env id dto tenantId actor s.app with
    ⟨e, app', herror, hworld⟩ | ⟨r, app', hok, hupdated⟩
  · refine h.of_world ?_ ?_
    · rw [afterUserCall, herror]
      exact hworld
    · rw [afterUserCall, herror]
      rfl
  · refine @ScopeSound.updated s _ h id dto.branchIds r ?_ ?_
    · rw [afterUserCall, hok]
      exact hupdated
    · rw [afterUserCall, hok]

/-- What one call does: only a restoration can show a link outside the assignments. -/
theorem staff_step (rt : Runtime) (h : ScopeSound s) (a : ScopeAction) :
    (WithinAssigned ((staff rt).step a s).2 ↔ RestoresAssigned a s) ∧
      (RestoresAssigned a s → ScopeSound ((staff rt).step a s).2) := by
  cases a with
  | createUser env dto tenantId actor =>
      have hnext := h.createUser rt env dto tenantId actor
      exact ⟨iff_of_true hnext.within trivial, fun _ => hnext⟩
  | updateUser env id dto tenantId actor =>
      have hnext := h.updateUser rt env id dto tenantId actor
      exact ⟨iff_of_true hnext.within trivial, fun _ => hnext⟩
  | assignBranches env id branchIds tenantId actor =>
      have hnext := h.updateUser rt env id { branchIds := some branchIds } tenantId actor
      exact ⟨iff_of_true hnext.within trivial, fun _ => hnext⟩
  | createBranch env dto =>
      have hnext := h.createBranch env dto
      exact ⟨iff_of_true hnext.within trivial, fun _ => hnext⟩
  | deleteBranch env id =>
      have hnext := h.deleteBranch env id
      exact ⟨iff_of_true hnext.within trivial, fun _ => hnext⟩
  | restoreBranch env id => exact restoreBranch_step h env id

/-- The reported branches of all users stay within the assigned ones throughout a run exactly
when no branch is restored to which a user has kept a link that its last assignment left out. -/
theorem within_assigned_iff (rt : Runtime) {app : AppState}
    (huserIds : (app.world.db.users.map (·.id)).Nodup)
    (htableIds : (app.world.db.tables.map (·.id)).Nodup)
    (hlinked : ∀ user ∈ app.world.db.users, ∀ id ∈ user.branchIds,
      id ∈ app.world.db.branches.map (·.id)) (actions : List ScopeAction) :
    (∀ pre, pre <+: actions → WithinAssigned ((staff rt).exec pre { app })) ↔
      (staff rt).EachStep RestoresAssigned actions { app } :=
  (staff rt).prefix_iff_eachStep (I := ScopeSound) (fun _ h => h.within)
    (fun a _ _ h => staff_step rt h a)
    { within := fun _ _ _ hids => absurd hids (by simp)
      userIds := huserIds
      tableIds := htableIds
      known := fun _ _ hids => absurd hids (by simp)
      linked := hlinked }

end Invariant

/-! ## A cook and two branches -/

theorem tenPercent_fits : (1000 : ℕ) < 10 ^ 5 := by
  decide

/-- A cook of the first of two branches. -/
def cookStaff : AppState where
  world := {
    db := {
      tenants := [{ id := "tenant-a", name := "Soups" }]
      restaurants := [{
        id := "restaurant-1", tenantId := "tenant-a", name := "Soups", currency := "EGP"
        taxPercentage := ⟨1000, tenPercent_fits⟩ }]
      branches := ["branch-1", "branch-2"].map fun id =>
        { id, tenantId := "tenant-a", restaurantId := "restaurant-1", name := "Main" }
      users := [
        { id := "cook", tenantId := some "tenant-a", firstName := "Ada", lastName := "Cook"
          email := "cook@soups.example", passwordHash := "h", isActive := true
          branchIds := ["branch-1"] }] } }
  sessions := { cache := { redis := { now := 1767225600000, entry := fun _ => none } } }

def managerEnv : LifecycleEnv where
  context := { tenantId := some "tenant-a" }
  uuid _ := "branch-3"
  now := 1767225600000

/-- The cook is assigned to branches of the tenant. -/
def assignCook (branchIds : List Id) : ScopeAction :=
  .assignBranches { toEnv := managerEnv.toEnv } "cook" branchIds (some "tenant-a")
    { id := "owner", roles := ["RESTAURANT_OWNER"], permissions := [] }

/-- The branch closes while the cook is moved. -/
def closedWhile (branchIds : List Id) : List ScopeAction :=
  [assignCook ["branch-1"], .deleteBranch managerEnv "branch-1", assignCook branchIds,
    .restoreBranch managerEnv "branch-1"]

/-- Where no link is kept the cook stays at the new branch. -/
theorem cook_moves :
    WithinAssigned ((staff plainRuntime).exec
      [assignCook ["branch-2"], .deleteBranch managerEnv "branch-1",
        .restoreBranch managerEnv "branch-1"] { app := cookStaff }) :=
  (@within_assigned_iff plainRuntime cookStaff (by decide) (by decide) (by decide)
    [assignCook ["branch-2"], .deleteBranch managerEnv "branch-1",
      .restoreBranch managerEnv "branch-1"]).mpr
    ⟨trivial, trivial, by decide +kernel, trivial⟩ _ (List.prefix_refl _)

/-- A cook that was taken off all branches while its branch was closed works there again when
the branch is restored. -/
theorem cook_regains_branch :
    ¬ WithinAssigned ((staff plainRuntime).exec (closedWhile []) { app := cookStaff }) := by
  decide +kernel

end UserService
end Eleva
