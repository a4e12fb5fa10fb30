import Eleva.Foundation.Interleaving
import Eleva.User.UserService

/-!
# User - The calls of the user service, step by step

Concurrent calls under READ COMMITTED.  The reads before a transaction, the advisory lock, the
count of the guard and the statements of the transaction are different steps; a statement sees
the committed users with the transaction's own writes, and the lock is held until the
transaction ends.  Row locks only make statements wait, so they are left out: a statement that
would wait runs at the end of its wait.

Main results:

- Definition {lit}`userCalls`: the interleaved calls.
- Theorem {lit}`call_alone`: the steps of a call that nothing comes between end in the state of
  its method.
-/

namespace Eleva
namespace UserService

open Foundation Database Auth TableOf

/-! ## Calls and their steps -/

/-- What a call does. -/
inductive UserRequest where
  | create (dto : CreateUserRequestDto)
  | update (id : Id) (dto : UpdateUserRequestDto)
  | delete (id : Id)
deriving DecidableEq, Repr

/-- The request of {lit}`assignRoles`. -/
def UserRequest.assignRoles (id : Id) (roleNames : List String) : UserRequest :=
  .update id { roles := some roleNames }

/-- The request of {lit}`assignBranches`. -/
def UserRequest.assignBranches (id : Id) (branchIds : List Id) : UserRequest :=
  .update id { branchIds := some branchIds }

/-- A call of the user service. -/
structure UserCall where
  env : UserEnv
  tenantId : Option Id
  actor : ActorContext
  request : UserRequest

/-- The statements of a transaction behind its guards. -/
inductive TxStatement where
  | insert
  | emailCheck
  | columns
  | roles
  | branches
  | softDelete
  | revoke
deriving DecidableEq, Repr

/-- The statements of the transaction of a request. -/
def UserRequest.statements : UserRequest → List TxStatement
  | .create _ => [.insert]
  | .update _ dto =>
      [.emailCheck, .columns, .roles, .branches] ++ if dto.securityRelevant then [.revoke] else []
  | .delete _ => [.softDelete, .revoke]

/-- The guards of the transaction of a request. -/
def UserRequest.guards : UserRequest → List String
  | .create _ => []
  | .update _ dto => dto.guards
  | .delete _ => ["remove"]

/-- The user that a request is about. -/
def UserRequest.target : UserRequest → Option Id
  | .create _ => none
  | .update id _ => some id
  | .delete id => some id

/-- How far a call has come: before its transaction, with the guards that are left, behind the
lock of the first of them, or with the statements that are left and its own writes.  The target
is what the call has read of it before the transaction. -/
inductive UserPhase where
  | start
  | granted
  | guarding (target : UserResponse) (actions : List String)
  | counting (target : UserResponse) (action : String) (actions : List String)
  | working (target : Option UserResponse) (statements : List TxStatement)
      (writes : List UserWrite)
  | committed
  | failed (e : AppError)

/-- Whether the call can still fail. -/
def UserPhase.inFlight : UserPhase → Bool
  | .committed => false
  | .failed _ => false
  | _ => true

/-- The committed database, the session store, and who holds the lock of a tenant. -/
structure UserState (ι : Type) where
  committed : World
  sessions : Sessions
  holder : Id → Option ι := fun _ => none

/-- Run writes one after the other. -/
def runWrites (env : UserEnv) : List UserWrite → Service Unit
  | [] => pure ()
  | write :: writes => do
      let _ ← write.run env
      runWrites env writes

/-- What a transaction sees: the committed users with its own writes. -/
def viewOf (env : UserEnv) (committed : World) (writes : List UserWrite) : World :=
  (runWrites env writes committed).2

/-- The writes that a statement adds to those of its transaction. -/
def statementWrites (rt : Runtime) (call : UserCall) (tenantId : Id)
    (target : Option UserResponse) : TxStatement → Service (List UserWrite)
  | .insert =>
      match call.request with
      | .create dto => do
          let data ← prepareUser rt call.env dto tenantId
          pure [.create tenantId data]
      | _ => pure []
  | .emailCheck =>
      match call.request with
      | .update id dto => do
          assertNewEmailFree rt call.env tenantId id dto
          pure []
      | _ => pure []
  | .columns =>
      match call.request with
      | .update id dto => pure ((columnsData rt call.env dto).toList.map (.update id))
      | _ => pure []
  | .roles =>
      match call.request, target with
      | .update id dto, some current => do
          let change ← updateRoles call.env tenantId dto current
          pure (change.toList.map (.update id))
      | _, _ => pure []
  | .branches =>
      match call.request, target with
      | .update id dto, some current => do
          let change ← updateBranches call.env tenantId dto current
          pure (change.toList.map (.update id))
      | _, _ => pure []
  | .softDelete =>
      match call.request with
      | .delete id => pure [.update id (softDeleteData call.env.now)]
      | _ => pure []
  | .revoke => pure []

namespace UserState

variable {ι : Type} [DecidableEq ι]

/-- Another call holds the lock of the tenant. -/
def taken (s : UserState ι) (i : ι) (tenantId : Id) : Bool :=
  (s.holder tenantId).any fun j => decide (j ≠ i)

def acquire (s : UserState ι) (i : ι) (tenantId : Id) : UserState ι :=
  { s with holder := Function.update s.holder tenantId (some i) }

/-- The locks when a call has ended. -/
def release (s : UserState ι) (i : ι) : UserState ι :=
  { s with holder := fun t => if s.holder t = some i then none else s.holder t }

end UserState

section Steps

variable {ι : Type} [DecidableEq ι]

/-- The call fails and its transaction is rolled back. -/
def failStep (s : UserState ι) (i : ι) (e : AppError) : UserState ι × UserPhase :=
  (s.release i, .failed e)

/-- Before the transaction: the checks of the request. -/
def checkStep (call : UserCall) (tenantId : Id) (s : UserState ι) (i : ι) :
    UserState ι × UserPhase :=
  match call.request with
  | .create dto =>
      match (assertCanGrantRoles call.env tenantId (dto.roles.getD []) call.actor
          s.committed).1 with
      | .ok _ => (s, .working none call.request.statements [])
      | .error e => failStep s i e
  | .update _ dto =>
      match (assertCanGrant call.env tenantId dto.roles call.actor s.committed).1 with
      | .ok _ => (s, .granted)
      | .error e => failStep s i e
  | .delete id =>
      if call.env.spelling id = call.actor.id then
        failStep s i (.badRequest "You cannot delete your own account.")
      else (s, .granted)

/-- Before the transaction: the read of the target. -/
def readStep (call : UserCall) (tenantId : Id) (s : UserState ι) (i : ι) :
    UserState ι × UserPhase :=
  match call.request.target with
  | none => (s, .granted)
  | some id =>
      match (findOne call.env id tenantId s.committed).1 with
      | .ok target => (s, .guarding target call.request.guards)
      | .error e => failStep s i e

/-- The next guard takes the lock of the tenant, unless the target is no owner. -/
def guardStep (call : UserCall) (tenantId : Id) (s : UserState ι) (i : ι)
    (target : UserResponse) : List String → UserState ι × UserPhase
  | [] => (s, .working (some target) call.request.statements [])
  | action :: actions =>
      if target.roles.contains "RESTAURANT_OWNER" then
        if s.taken i tenantId then (s, .guarding target (action :: actions))
        else (s.acquire i tenantId, .counting target action actions)
      else (s, .guarding target actions)

/-- The count of a guard, under the lock. -/
def countStep (call : UserCall) (tenantId : Id) (s : UserState ι) (i : ι)
    (target : UserResponse) (action : String) (actions : List String) :
    UserState ι × UserPhase :=
  match (assertOwnerRemains call.env tenantId target.id action s.committed).1 with
  | .ok _ => (s, .guarding target actions)
  | .error e => failStep s i e

/-- Commit the writes of a transaction. -/
def commitStep (call : UserCall) (s : UserState ι) (i : ι) (writes : List UserWrite) :
    UserState ι × UserPhase :=
  if call.env.commitFails then failStep s i .failure
  else
    match runWrites call.env writes s.committed with
    | (.ok _, w) => ({ s with committed := w }.release i, .committed)
    | (.error e, _) => failStep s i e

/-- Revoke the sessions of the target. -/
def revokeStep (call : UserCall) (s : UserState ι) (i : ι) (next : UserPhase) :
    UserState ι × UserPhase :=
  match revokeSessions call.env (call.request.target.getD "")
      { world := s.committed, sessions := s.sessions } with
  | (.ok _, app) => ({ s with sessions := app.sessions }, next)
  | (.error e, app) => failStep { s with sessions := app.sessions } i e

/-- The next statement of a transaction. -/
def workStep (rt : Runtime) (call : UserCall) (tenantId : Id) (s : UserState ι) (i : ι)
    (target : Option UserResponse) (writes : List UserWrite) :
    List TxStatement → UserState ι × UserPhase
  | [] => commitStep call s i writes
  | .revoke :: statements => revokeStep call s i (.working target statements writes)
  | statement :: statements =>
      let view := viewOf call.env s.committed writes
      match (statementWrites rt call tenantId target statement view).1 with
      | .error e => failStep s i e
      | .ok added =>
          match (runWrites call.env added view).1 with
          | .error e => failStep s i e
          | .ok _ => (s, .working target statements (writes ++ added))

/-- The next step of a call. -/
def userStep (rt : Runtime) (call : UserCall) (i : ι) (s : UserState ι) :
    UserPhase → UserState ι × UserPhase
  | .committed => (s, .committed)
  | .failed e => (s, .failed e)
  | phase =>
      match assertTenant call.tenantId s with
      | (.error e, _) => failStep s i e
      | (.ok tenantId, _) =>
          match phase with
          | .start => checkStep call tenantId s i
          | .granted => readStep call tenantId s i
          | .guarding target actions => guardStep call tenantId s i target actions
          | .counting target action actions => countStep call tenantId s i target action actions
          | .working target statements writes =>
              workStep rt call tenantId s i target writes statements
          | phase => (s, phase)

/-- What the surroundings add to a step: the time that has passed, and whether the call is
rolled back instead. -/
structure UserTick where
  elapsed : ℕ := 0
  rollback : Bool := false
deriving DecidableEq, Repr

/-- Any number of calls on one database and one session store. -/
def userCalls (rt : Runtime) (calls : ι → UserCall) :
    CallSystem ι UserTick (UserState ι) UserPhase where
  next i tick s phase :=
    if tick.rollback && phase.inFlight then
      failStep { s with sessions := s.sessions.advance tick.elapsed } i .failure
    else userStep rt (calls i) i { s with sessions := s.sessions.advance tick.elapsed } phase

/-- A configuration of a run. -/
abbrev UserConfig (ι : Type) := Config ι (UserState ι) UserPhase

end Steps

/-! ## A call that nothing comes between -/

/-- The state that the method of a call leaves. -/
def UserCall.leaves (rt : Runtime) (call : UserCall) (app : AppState) : AppState :=
  match call.request with
  | .create dto => (createUser rt call.env dto call.tenantId call.actor app).2
  | .update id dto => (updateUser rt call.env id dto call.tenantId call.actor app).2
  | .delete id => (deleteUser call.env id call.tenantId call.actor app).2

/-- The statements of a transaction one after the other. -/
def runStatements (rt : Runtime) (call : UserCall) (tenantId : Id)
    (target : Option UserResponse) : List TxStatement → AppService Unit
  | [] => pure ()
  | .revoke :: statements => do
      revokeSessions call.env (call.request.target.getD "")
      runStatements rt call tenantId target statements
  | statement :: statements => do
      let added ← inDatabase (statementWrites rt call tenantId target statement)
      inDatabase (runWrites call.env added)
      runStatements rt call tenantId target statements

/-- The state behind a transaction that began on a world. -/
def endedOn (env : UserEnv) (w : World) : Except AppError Unit × AppState → AppState
  | (.ok _, app) => if env.commitFails then { app with world := w } else app
  | (.error _, app) => { app with world := w }

theorem inTransaction_state (env : UserEnv) (x : AppService Unit) (app : AppState) :
    (inTransaction env x app).2 = endedOn env app.world (x app) := by
  unfold inTransaction endedOn
  rcases x app with ⟨e | _, app'⟩
  · rfl
  · simp only
    split <;> rfl

section Alone

variable {ι : Type} [DecidableEq ι] {rt : Runtime} {call : UserCall} {i : ι} {tenantId : Id}

/-- Steps of a call that nothing comes between. -/
def moveAlone (rt : Runtime) (call : UserCall) (i : ι) :
    ℕ → UserState ι × UserPhase → UserState ι × UserPhase
  | 0, x => x
  | n + 1, x => moveAlone rt call i n (userStep rt call i x.1 x.2)

def UserState.app (s : UserState ι) : AppState :=
  { world := s.committed, sessions := s.sessions }

/-- Alone the call ends, with that database and session store. -/
def Ends (rt : Runtime) (call : UserCall) (i : ι) (x : UserState ι × UserPhase)
    (app : AppState) : Prop :=
  ∃ n, (moveAlone rt call i n x).2.inFlight = false ∧ (moveAlone rt call i n x).1.app = app

theorem Ends.head {s : UserState ι} {phase : UserPhase} {app : AppState}
    (h : Ends rt call i (userStep rt call i s phase) app) : Ends rt call i (s, phase) app := by
  rcases h with ⟨n, hended, happ⟩
  exact ⟨n + 1, hended, happ⟩

theorem Ends.failed (s : UserState ι) (e : AppError) :
    Ends rt call i (failStep s i e) s.app :=
  ⟨0, rfl, rfl⟩

theorem runWrites_append (env : UserEnv) (writes added : List UserWrite) (w : World) :
    runWrites env (writes ++ added) w =
      (do runWrites env writes; runWrites env added) w := by
  induction writes generalizing w with
  | nil => rfl
  | cons write writes ih =>
      simp only [List.cons_append, runWrites, Fallible.bind_apply] at ih ⊢
      rcases write.run env w with ⟨e | a, w₁⟩
      · rfl
      · exact ih w₁

/-- What a statement writes is computed from reads. -/
theorem statementWrites_keeps {I : World → Prop} (target : Option UserResponse)
    (statement : TxStatement) :
    Fallible.Keeps I (statementWrites rt call tenantId target statement) := by
  unfold statementWrites
  cases statement with
  | insert =>
      cases call.request with
      | create dto => exact .bind (prepareUser_keeps call.env tenantId rt dto) fun _ => .pure _
      | update id dto => exact .pure _
      | delete id => exact .pure _
  | emailCheck =>
      cases call.request with
      | create dto => exact .pure _
      | update id dto =>
          exact .bind (assertNewEmailFree_keeps call.env tenantId rt id dto) fun _ => .pure _
      | delete id => exact .pure _
  | columns => cases call.request <;> exact .pure _
  | roles =>
      cases call.request with
      | create dto => exact .pure _
      | update id dto =>
          cases target with
          | none => exact .pure _
          | some current =>
              exact .bind (updateRoles_keeps call.env tenantId dto current) fun _ => .pure _
      | delete id => exact .pure _
  | branches =>
      cases call.request with
      | create dto => exact .pure _
      | update id dto =>
          cases target with
          | none => exact .pure _
          | some current =>
              exact .bind (updateBranches_keeps call.env tenantId dto current) fun _ => .pure _
      | delete id => exact .pure _
  | softDelete => cases call.request <;> exact .pure _
  | revoke => exact .pure _

theorem revokeSessions_apply (env : UserEnv) (id : Id) (w : World) (app : AppState) :
    revokeSessions env id { app with world := w } =
      ((revokeSessions env id app).1, { (revokeSessions env id app).2 with world := w }) := by
  unfold revokeSessions
  split <;> rfl

/-- A method that only reads hands on the state. -/
theorem inDatabase_of_keeps {α : Type} {x : Service α}
    (hx : ∀ {I : World → Prop}, Fallible.Keeps I x) (app : AppState) :
    inDatabase x app = ((x app.world).1, app) := by
  have hstate : (x app.world).2 = app.world :=
    Fallible.Keeps.state_eq (hx (I := fun w => w = app.world))
  unfold inDatabase
  rw [hstate]

/-- A statement that writes, and the rest of its transaction. -/
theorem runStatements_of_writing {target : Option UserResponse} {statement : TxStatement}
    (hwriting : statement ≠ .revoke) (statements : List TxStatement) :
    runStatements rt call tenantId target (statement :: statements) = (do
      let added ← inDatabase (statementWrites rt call tenantId target statement)
      inDatabase (runWrites call.env added)
      runStatements rt call tenantId target statements) := by
  cases statement with
  | revoke => exact absurd rfl hwriting
  | _ => rfl

theorem workStep_of_writing {target : Option UserResponse} {writes : List UserWrite}
    {statement : TxStatement} (hwriting : statement ≠ .revoke) (statements : List TxStatement)
    (s : UserState ι) :
    workStep rt call tenantId s i target writes (statement :: statements) =
      match (statementWrites rt call tenantId target statement
          (viewOf call.env s.committed writes)).1 with
      | .error e => failStep s i e
      | .ok added =>
          match (runWrites call.env added (viewOf call.env s.committed writes)).1 with
          | .error e => failStep s i e
          | .ok _ => (s, .working target statements (writes ++ added)) := by
  cases statement with
  | revoke => exact absurd rfl hwriting
  | _ => rfl

/-- The statements of a transaction and its commit. -/
theorem working_ends (htenant : call.tenantId = some tenantId) (hne : tenantId ≠ "")
    {target : Option UserResponse} (statements : List TxStatement) (writes : List UserWrite)
    (s : UserState ι) {view : World} (hview : runWrites call.env writes s.committed =
      (.ok (), view)) :
    Ends rt call i (s, .working target statements writes)
      (endedOn call.env s.committed (runStatements rt call tenantId target statements
        { s.app with world := view })) := by
  have hassert : ∀ s : UserState ι, assertTenant call.tenantId s = (.ok tenantId, s) :=
    fun s => assertTenant_eq_ok.mpr ⟨htenant, hne, rfl⟩
  induction statements generalizing writes s view with
  | nil =>
      refine Ends.head ?_
      simp only [userStep, hassert, workStep, commitStep, hview, runStatements,
        Fallible.pure_apply, endedOn]
      split
      · exact Ends.failed s .failure
      · exact ⟨0, rfl, rfl⟩
  | cons statement statements ih =>
      refine Ends.head ?_
      have hviewOf : viewOf call.env s.committed writes = view := by
        unfold viewOf
        rw [hview]
      by_cases hrevoke : statement = .revoke
      · subst hrevoke
        have hrevoked := revokeSessions_apply call.env (call.request.target.getD "") view s.app
        simp only [userStep, hassert, workStep, revokeStep, runStatements,
          Fallible.bind_apply, hrevoked]
        rcases hrun : revokeSessions call.env (call.request.target.getD "") s.app with
          ⟨e | _, app⟩
        · rw [show revokeSessions call.env (call.request.target.getD "")
            { world := s.committed, sessions := s.sessions } = _ from hrun]
          exact Ends.failed { s with sessions := app.sessions } e
        · rw [show revokeSessions call.env (call.request.target.getD "")
            { world := s.committed, sessions := s.sessions } = _ from hrun]
          exact ih writes { s with sessions := app.sessions } hview
      · simp only [userStep, hassert, workStep_of_writing hrevoke,
          runStatements_of_writing hrevoke, hviewOf, Fallible.bind_apply,
          inDatabase_of_keeps fun {_} => statementWrites_keeps target statement]
        rcases (statementWrites rt call tenantId target statement view).1 with e | added
        · exact Ends.failed s e
        · simp only [inDatabase]
          rcases hrun : runWrites call.env added view with ⟨e | _, view'⟩
          · exact Ends.failed s e
          · refine ih (writes ++ added) s ?_
            rw [runWrites_append, Fallible.bind_of_ok hview]
            exact hrun

/-- The guards of a transaction and its statements, where no other call holds a lock. -/
theorem guarding_ends (rt : Runtime) (htenant : call.tenantId = some tenantId) (hne : tenantId ≠ "")
    (target : UserResponse) (actions : List String) (s : UserState ι)
    (hfree : ∀ T j, s.holder T = some j → j = i) :
    Ends rt call i (s, .guarding target actions)
      (endedOn call.env s.committed ((do
        inDatabase (runGuards call.env tenantId target.id target.roles actions)
        runStatements rt call tenantId (some target) call.request.statements) s.app)) := by
  have hassert : ∀ s : UserState ι, assertTenant call.tenantId s = (.ok tenantId, s) :=
    fun s => assertTenant_eq_ok.mpr ⟨htenant, hne, rfl⟩
  induction actions generalizing s with
  | nil =>
      refine Ends.head ?_
      simp only [userStep, hassert, guardStep]
      exact working_ends htenant hne call.request.statements [] s rfl
  | cons action actions ih =>
      refine Ends.head ?_
      simp only [userStep, hassert, guardStep, Fallible.bind_apply,
        inDatabase_of_keeps fun {_} => runGuards_keeps call.env tenantId target.id target.roles _]
      by_cases howner : target.roles.contains "RESTAURANT_OWNER" = true
      · have hopen : s.taken i tenantId = false := by
          unfold UserState.taken
          cases hheld : s.holder tenantId with
          | none => rfl
          | some j => simp [hfree tenantId j hheld]
        have hfree' : ∀ T j, (s.acquire i tenantId).holder T = some j → j = i := by
          intro T j hheld
          by_cases hsame : T = tenantId
          · subst hsame
            simpa [UserState.acquire, eq_comm] using hheld
          · exact hfree T j (by simpa [UserState.acquire, hsame] using hheld)
        simp only [if_pos howner, hopen, Bool.false_eq_true, if_false]
        refine Ends.head ?_
        simp only [userStep, hassert, countStep]
        have hnext := ih (s.acquire i tenantId) hfree'
        simp only [Fallible.bind_apply, inDatabase_of_keeps
          fun {_} => runGuards_keeps call.env tenantId target.id target.roles _] at hnext
        have hstate := (assertOwnerRemains_keeps (I := fun w => w = s.committed) call.env tenantId
          target.id action).state_eq
        have hcommitted : (s.acquire i tenantId).committed = s.committed := rfl
        have hworld : s.app.world = s.committed := rfl
        simp only [hcommitted, hworld, runGuards, assertNotLastOwner, if_pos howner,
          Fallible.bind_apply]
        rcases hrun : assertOwnerRemains call.env tenantId target.id action s.committed with
          ⟨e | _, w₁⟩
        · exact Ends.failed (s.acquire i tenantId) e
        · rw [hrun] at hstate
          have hsame : w₁ = s.committed := hstate
          subst hsame
          exact hnext
      · have hnext := ih s hfree
        simp only [if_neg howner, Fallible.bind_apply, runGuards, assertNotLastOwner,
          Fallible.pure_apply, inDatabase_of_keeps
          fun {_} => runGuards_keeps call.env tenantId target.id target.roles _] at hnext ⊢
        exact hnext

/-- A call without a tenant. -/
theorem assertTenant_error {σ τ : Type} {tenantIdInput : Option Id} {e : AppError} {s s' : σ}
    (h : assertTenant tenantIdInput s = (.error e, s')) (t : τ) :
    assertTenant tenantIdInput t = (.error e, t) := by
  unfold assertTenant at h ⊢
  split at h
  · cases h
  · cases h
    rename_i hfalse
    rw [if_neg hfalse]
    rfl

/-- The transaction of a creation as statements. -/
theorem insertUser_state {dto : CreateUserRequestDto} (hrequest : call.request = .create dto)
    (app : AppState) :
    (inDatabase (insertUser rt call.env dto tenantId) app).2 =
      endedOn call.env app.world (runStatements rt call tenantId none [.insert] app) := by
  simp only [inDatabase, insertUser, Fallible.transaction, runStatements, statementWrites,
    hrequest, Fallible.bind_apply]
  have hstate := (prepareUser_keeps (I := fun w => w = app.world) call.env tenantId rt dto).state_eq
  rcases hprepare : prepareUser rt call.env dto tenantId app.world with ⟨e | data, w₁⟩
  · rfl
  · rw [hprepare] at hstate
    have hsame : w₁ = app.world := hstate
    subst hsame
    simp only [Fallible.pure_apply, runWrites, Fallible.bind_apply]
    rcases UserWrite.run call.env (.create tenantId data) app.world with ⟨e | created, w₂⟩
    · rfl
    · cases hcommit : call.env.commitFails with
      | true => simp [attempt, endedOn, hcommit, Fallible.bind_apply, Fallible.throwIf]
      | false => simp [endedOn, hcommit]

theorem writeUser_eq (env : UserEnv) (id : Id) (change : Option UserData) :
    writeUser env id change = runWrites env (change.toList.map (.update id)) := by
  cases change <;> rfl

theorem inDatabase_bind {α β : Type} (x : Service α) (f : α → Service β) (app : AppState) :
    inDatabase (x >>= f) app = (inDatabase x >>= fun a => inDatabase (f a)) app := by
  simp only [inDatabase, Fallible.bind_apply]
  rcases x app.world with ⟨e | a, w₁⟩ <;> rfl

theorem inDatabase_pure {α : Type} (a : α) (app : AppState) :
    inDatabase (pure a) app = (.ok a, app) :=
  rfl

/-- The statements of an update before its revocation. -/
theorem updateStatements_apply {dto : UpdateUserRequestDto} {current : UserResponse}
    (hrequest : call.request = .update current.id dto) (statements : List TxStatement)
    (app : AppState) :
    runStatements rt call tenantId (some current)
        ([.emailCheck, .columns, .roles, .branches] ++ statements) app =
      (do
        inDatabase (updateStatements rt call.env tenantId current.id dto current)
        runStatements rt call tenantId (some current) statements) app := by
  simp only [List.cons_append, List.nil_append, runStatements, statementWrites, hrequest,
    updateStatements, writeUser_eq, Fallible.bind_apply, inDatabase_bind, inDatabase_pure]
  rcases inDatabase (assertNewEmailFree rt call.env tenantId current.id dto) app with
    ⟨e | _, app₁⟩
  · rfl
  simp only [runWrites, inDatabase_pure]
  rcases inDatabase (runWrites call.env
    ((columnsData rt call.env dto).toList.map (.update current.id))) app₁ with ⟨e | _, app₂⟩
  · rfl
  simp only
  rcases inDatabase (updateRoles call.env tenantId dto current) app₂ with ⟨e | newRoles, app₃⟩
  · rfl
  simp only
  rcases inDatabase (runWrites call.env (newRoles.toList.map (.update current.id))) app₃ with
    ⟨e | _, app₄⟩
  · rfl
  simp only
  rcases inDatabase (updateBranches call.env tenantId dto current) app₄ with
    ⟨e | newBranches, app₅⟩
  · rfl
  rfl

/-- The revocation at the end of a transaction. -/
theorem runStatements_revoke (rt : Runtime) (call : UserCall) (tenantId : Id)
    (target : Option UserResponse) (app : AppState) :
    runStatements rt call tenantId target [.revoke] app =
      revokeSessions call.env (call.request.target.getD "") app := by
  simp only [runStatements, Fallible.bind_apply]
  rcases revokeSessions call.env (call.request.target.getD "") app with ⟨e | _, app₁⟩ <;> rfl

/-- The transaction of an update as statements behind guards. -/
theorem updateTransaction_apply {dto : UpdateUserRequestDto} {current : UserResponse}
    (hrequest : call.request = .update current.id dto) (app : AppState) :
    updateTransaction rt call.env tenantId current.id dto current app =
      (do
        inDatabase (runGuards call.env tenantId current.id current.roles call.request.guards)
        runStatements rt call tenantId (some current) call.request.statements) app := by
  have htarget : call.request.target.getD "" = current.id := by
    rw [hrequest]
    rfl
  have hguards : call.request.guards = dto.guards := by
    rw [hrequest]
    rfl
  have hstatements : call.request.statements = [.emailCheck, .columns, .roles, .branches] ++
      if dto.securityRelevant then [.revoke] else [] := by
    rw [hrequest]
    rfl
  unfold updateTransaction
  rw [hguards, hstatements, Fallible.bind_apply, Fallible.bind_apply]
  rcases inDatabase (runGuards call.env tenantId current.id current.roles dto.guards) app with
    ⟨e | _, app₁⟩
  · rfl
  · simp only
    rw [updateStatements_apply hrequest, Fallible.bind_apply, Fallible.bind_apply]
    rcases inDatabase (updateStatements rt call.env tenantId current.id dto current) app₁ with
      ⟨e | _, app₂⟩
    · rfl
    · cases hrelevant : dto.securityRelevant with
      | false => rfl
      | true =>
          have hrevoke := runStatements_revoke rt call tenantId (some current) app₂
          rw [htarget] at hrevoke
          exact hrevoke.symm

/-- The transaction of a deletion as statements behind its guard. -/
theorem deleteTransaction_apply {target : UserResponse}
    (hrequest : call.request = .delete target.id) (app : AppState) :
    deleteTransaction call.env tenantId target.id target app =
      (do
        inDatabase (runGuards call.env tenantId target.id target.roles call.request.guards)
        runStatements rt call tenantId (some target) call.request.statements) app := by
  have htarget : call.request.target.getD "" = target.id := by
    rw [hrequest]
    rfl
  have hguards : call.request.guards = ["remove"] := by
    rw [hrequest]
    rfl
  have hstatements : call.request.statements = [.softDelete, .revoke] := by
    rw [hrequest]
    rfl
  unfold deleteTransaction
  rw [hguards, hstatements, Fallible.bind_apply, Fallible.bind_apply]
  rcases inDatabase (runGuards call.env tenantId target.id target.roles ["remove"]) app with
    ⟨e | _, app₁⟩
  · rfl
  · simp only
    rw [runStatements_of_writing (by decide), Fallible.bind_apply, Fallible.bind_apply]
    simp only [statementWrites, hrequest, inDatabase_pure, writeUser_eq, Option.toList_some,
      List.map_cons, List.map_nil, Fallible.bind_apply]
    rcases inDatabase (runWrites call.env [.update target.id (softDeleteData call.env.now)])
      app₁ with ⟨e | _, app₂⟩
    · rfl
    · have hrevoke := runStatements_revoke rt call tenantId (some target) app₂
      rw [htarget] at hrevoke
      exact hrevoke.symm

/-- A read at the end of a method leaves the state. -/
theorem bind_read_state {α β : Type} (x : AppService α) {f : α → Service β}
    (hf : ∀ a, ∀ {I : World → Prop}, Fallible.Keeps I (f a)) (app : AppState) :
    ((x >>= fun a => inDatabase (f a)) app).2 = (x app).2 := by
  rw [Fallible.bind_apply]
  rcases x app with ⟨e | a, app₁⟩
  · rfl
  · simp only [inDatabase_of_keeps (hf a)]

/-- A creation, an update or a deletion that nothing comes between is its method. -/
theorem call_alone (s : UserState ι) (hfree : ∀ T j, s.holder T = some j → j = i) :
    Ends rt call i (s, .start) (call.leaves rt s.app) := by
  rcases hassert : assertTenant call.tenantId s with ⟨e | tenantId, s₁⟩
  · have happ := assertTenant_error hassert s.app
    have hleaves : call.leaves rt s.app = s.app := by
      unfold UserCall.leaves
      cases call.request <;>
        simp [createUser, updateUser, deleteUser, Fallible.bind_apply, happ]
    rw [hleaves]
    refine Ends.head ?_
    simp only [userStep, hassert]
    exact Ends.failed s e
  · rcases assertTenant_eq_ok.mp hassert with ⟨htenant, hne, _⟩
    have happ : assertTenant call.tenantId s.app = (.ok tenantId, s.app) :=
      assertTenant_eq_ok.mpr ⟨htenant, hne, rfl⟩
    have hworld : s.app.world = s.committed := rfl
    refine Ends.head ?_
    simp only [userStep, hassert, checkStep, UserCall.leaves]
    cases hrequest : call.request with
    | create dto =>
        simp only [createUser, Fallible.bind_of_ok happ]
        rw [Fallible.bind_apply, inDatabase_of_keeps
          fun {_} => assertCanGrantRoles_keeps call.env tenantId (dto.roles.getD []) call.actor,
          hworld]
        rcases (assertCanGrantRoles call.env tenantId (dto.roles.getD []) call.actor
          s.committed).1 with e | _
        · exact Ends.failed s e
        · simp only
          rw [bind_read_state _ fun _ {_} => findOne_keeps call.env tenantId _,
            insertUser_state hrequest]
          exact working_ends htenant hne _ [] s rfl
    | update id dto =>
        simp only [updateUser, Fallible.bind_of_ok happ]
        rw [Fallible.bind_apply, inDatabase_of_keeps
          fun {_} => assertCanGrant_keeps call.env tenantId dto.roles call.actor, hworld]
        rcases (assertCanGrant call.env tenantId dto.roles call.actor s.committed).1 with e | _
        · exact Ends.failed s e
        · simp only
          refine Ends.head ?_
          simp only [userStep, hassert, readStep, hrequest, UserRequest.target]
          rw [Fallible.bind_apply, inDatabase_of_keeps
            fun {_} => findOne_keeps call.env tenantId id, hworld]
          rcases hread : findOne call.env id tenantId s.committed with ⟨e | current, w₁⟩
          · exact Ends.failed s e
          · have hid : current.id = id := by
              rcases findOne_eq_ok hread with ⟨_, user, _, _, hid, _, _, rfl, _⟩
              exact hid
            subst hid
            simp only
            rw [bind_read_state _ fun _ {_} => findOne_keeps call.env tenantId _,
              inTransaction_state, updateTransaction_apply hrequest]
            have hends := guarding_ends (i := i) rt htenant hne current
              call.request.guards s hfree
            rw [hrequest] at hends ⊢
            exact hends
    | delete id =>
        simp only [deleteUser, Fallible.bind_of_ok happ]
        by_cases hself : call.env.spelling id = call.actor.id
        · rw [if_pos hself, Fallible.bind_apply]
          simp only [Fallible.throwIf, beq_iff_eq, hself, if_true]
          exact Ends.failed s _
        · rw [if_neg hself, Fallible.bind_apply]
          simp only [Fallible.throwIf, beq_iff_eq, hself, if_false]
          refine Ends.head ?_
          simp only [userStep, hassert, readStep, hrequest, UserRequest.target]
          rw [Fallible.bind_apply, inDatabase_of_keeps
            fun {_} => findOne_keeps call.env tenantId id, hworld]
          rcases hread : findOne call.env id tenantId s.committed with ⟨e | target, w₁⟩
          · exact Ends.failed s e
          · have hid : target.id = id := by
              rcases findOne_eq_ok hread with ⟨_, user, _, _, hid, _, _, rfl, _⟩
              exact hid
            subst hid
            have hleft := bind_read_state (inTransaction call.env
              (deleteTransaction call.env tenantId target.id target))
              (f := fun _ => pure (call.env.spelling target.id)) (fun _ {_} => .pure _) s.app
            rw [inTransaction_state, deleteTransaction_apply hrequest] at hleft
            have hends := guarding_ends (i := i) rt htenant hne target
              call.request.guards s hfree
            rw [← hworld, ← hleft, hrequest] at hends
            exact hends

end Alone

end UserService
end Eleva
