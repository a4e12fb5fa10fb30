import Eleva.Service
import Eleva.Foundation.Batches

/-!
# Database - Rows with tombstones

What the repositories of soft-deletable models do to their tables: partial updates, tombstones
and their removal, and the loop that marks the children of a row in batches.

Main results:

- Theorems {lit}`run_update_live`, {lit}`run_softDelete_ok` and {lit}`run_restore_ok`: the rows
  that these operations leave.
- Theorem {lit}`markBatch_ok`: a page that was marked has its tombstones.
-/

namespace Eleva

open Foundation Database

/-! ## Partial bodies -/

/-- A key of a partial body: missing, null, or with a value. -/
inductive Field (α : Type) where
  | undefined
  | null
  | value (a : α)
deriving DecidableEq, Repr

namespace Field

variable {α β : Type}

/-- {lit}`definedFields` keeps the key. -/
def isDefined : Field α → Bool
  | undefined => false
  | _ => true

def isNull : Field α → Bool
  | null => true
  | _ => false

/-- The column that requires a value, after the update. -/
def getD : Field α → α → α
  | value a, _ => a
  | _, old => old

/-- The nullable column, after the update. -/
def write : Field α → Option α → Option α
  | undefined, old => old
  | null, _ => none
  | value a, _ => some a

/-- The key with its value converted, unless the conversion fails. -/
def convert (f : α → Option β) : Field α → Option (Field β)
  | undefined => some undefined
  | null => some null
  | value a => (f a).map value

end Field

/-- A number of a body in the column that stores it; an overflow is refused. -/
def storeNumber (precision scale : ℕ) (x : Field ℚ) :
    Service (Field (Decimal precision scale)) :=
  match x.convert (Decimal.ofNumber precision scale) with
  | none => Fallible.throw (.client .constraintViolation)
  | some stored => pure stored

/-- The row that was found, or an exception. -/
def orThrow {α : Type} (e : AppError) : Option α → Service α
  | none => Fallible.throw e
  | some a => pure a

/-- The exception about a row that a request names. -/
def requestedNotFound (resource : String) (id : Id) : AppError :=
  .notFound ("The requested " ++ resource ++ " with ID [" ++ id ++ "] was not found.")

theorem storeNumber_readsOnly (precision scale : ℕ) (x : Field ℚ) :
    Fallible.ReadsOnly (storeNumber precision scale x) := by
  unfold storeNumber
  cases x.convert (Decimal.ofNumber precision scale) with
  | none => exact .throw _
  | some stored => exact .pure _

theorem orThrow_readsOnly {α : Type} (e : AppError) (found : Option α) :
    Fallible.ReadsOnly (orThrow e found) := by
  cases found with
  | none => exact .throw _
  | some a => exact .pure _

theorem orThrow_eq_ok {α : Type} {e : AppError} {found : Option α} {a : α} {w w' : World} :
    orThrow e found w = (.ok a, w') ↔ found = some a ∧ w' = w := by
  cases found <;> simp [orThrow, eq_comm, Prod.ext_iff]

/-- The statements of an operation that may fail. -/
inductive Statement where
  | parentRead
  | read
  | count
  | uniqueRead
  | write
  | batchRead (round : ℕ)
  | childWrite (id : Id)
  | parentWrite
  | commit
deriving DecidableEq, Repr

/-- What an operation draws from its surroundings: also which of its statements fail, and the
text by which the request names the row of an id. A column of ids holds uuids, which it finds
whatever the case of their digits in the text. -/
structure LifecycleEnv extends Env where
  fails : Statement → Bool := fun _ => false
  spelling : Id → String := fun id => id

/-! ## Statements that write all or nothing -/

namespace Database

variable {Row : Type} [TenantRow Row] {env : Env} {m : Delegate Row}
  {repo : BaseTenantRepository Row}

/-- Whatever the context, an operation that is refused leaves the rows. -/
theorem invoke_atomic (op : Operation) (args : Args Row) :
    Fallible.Atomic (invoke env m op args) := by
  intro s e s' h
  unfold invoke at h
  split at h <;> cases h
  rfl

theorem Delegate.update_atomic (f : Where Row) (d : Payload Row) :
    Fallible.Atomic (m.update env f d) :=
  (invoke_atomic _ _).bind_pure

theorem Delegate.create_atomic (d : Payload Row) : Fallible.Atomic (m.create env d) :=
  (invoke_atomic _ _).bind_pure

namespace BaseTenantRepository

theorem findFirst_readsOnly (f : Where Row) : Fallible.ReadsOnly (repo.findFirst env f) :=
  .bind (.reads _) fun _ _ => Delegate.findFirst_state _

theorem findMany_readsOnly (f : Where Row) (options : FindManyOptions Row) :
    Fallible.ReadsOnly (repo.findMany env f options) :=
  .bind (.reads _) fun _ s =>
    (state_of_answer .findMany _ Result.found).trans (invoke_read_state (by decide) _)

theorem create_atomic (d : Payload Row) : Fallible.Atomic (repo.create env d) :=
  .bind (.reads _) fun _ => .bind (.throwIf _ _) fun _ => Delegate.create_atomic _

theorem update_atomic (id : Id) (d : Payload Row) : Fallible.Atomic (repo.update env id d) := by
  refine .bind (findFirst_readsOnly _) fun entity => ?_
  cases entity with
  | none => exact (Fallible.ReadsOnly.throw _).atomic
  | some entity => exact (invoke_atomic _ _).bind_pure

theorem setDeletedAt_atomic (id : Id) (extraData : Payload Row)
    (unchanged : Option Timestamp → Bool) (t : Option Timestamp) :
    Fallible.Atomic (repo.setDeletedAt env id extraData unchanged t) := by
  refine .bind (findFirst_readsOnly _) fun entity => ?_
  cases entity with
  | none => exact (Fallible.ReadsOnly.throw _).atomic
  | some entity =>
      simp only
      split
      · exact (Fallible.ReadsOnly.pure _).atomic
      · split
        · exact (Fallible.ReadsOnly.throw _).atomic
        · exact Delegate.update_atomic _ _

end BaseTenantRepository

end Database

namespace TableOf

variable {Row α : Type} [DecidableEq Row] {t : TableOf Row}

theorem run_atomic {x : Fallible (Store Row) ClientError α} (hx : Fallible.Atomic x) :
    Fallible.Atomic (t.run x) := by
  intro w e w' h
  exact run_error (fun e' s hrun => by rw [hx _ _ _ hrun]) h

theorem run_readsOnly {x : Fallible (Store Row) ClientError α} (hx : Fallible.ReadsOnly x) :
    Fallible.ReadsOnly (t.run x) := by
  intro w
  rcases hrun : t.run x w with ⟨_ | a, w'⟩
  · exact run_atomic hx.atomic _ _ _ hrun
  · rcases run_eq_ok hrun with ⟨s, hs, _, rfl⟩
    rw [hx.state_eq hs]
    simp only [t.set_get]

/-- A statement that only reads, and then another one on the same rows. -/
theorem run_bind {β : Type} {x : Fallible (Store Row) ClientError α}
    (hx : Fallible.ReadsOnly x) (f : α → Fallible (Store Row) ClientError β) :
    t.run (x >>= f) = t.run x >>= fun a => t.run (f a) := by
  funext w
  rcases hread : x { rows := t.get w.db, uniqueKeys := t.uniqueKeys } with ⟨e | a, s⟩
  · have herror : t.run x w = (.error (.client e), w) := by
      refine run_refused ?_
      rw [hread, hx.state_eq hread]
    rw [Fallible.bind_of_error herror]
    refine run_refused ?_
    rw [Fallible.bind_of_error hread, hx.state_eq hread]
  · rw [hx.state_eq hread] at hread
    rw [Fallible.bind_of_ok (run_of_read hread)]
    exact run_congr (Fallible.bind_of_ok hread)

end TableOf

theorem attempt_readsOnly {α : Type} {fails : Bool} {x : Service α}
    (hx : Fallible.ReadsOnly x) : Fallible.ReadsOnly (attempt fails x) :=
  .bind (.throwIf _ _) fun _ => hx

theorem attempt_atomic {α : Type} {fails : Bool} {x : Service α} (hx : Fallible.Atomic x) :
    Fallible.Atomic (attempt fails x) :=
  .bind (.throwIf _ _) fun _ => hx

/-! ## Soft-deletable models -/

namespace TableOf

variable {Row : Type} [TenantRow Row] [DecidableEq Row] {t : TableOf Row}
  {repo : BaseTenantRepository Row} {column : DeletedAtColumn Row} {env : Env} {S : Option Id}

/-- A repository of a scoped model with tombstones. -/
structure SoftDeletes (repo : BaseTenantRepository Row) (column : DeletedAtColumn Row) :
    Prop where
  isScoped : repo.delegate.model ∉ unscopedModels
  softDeletable : repo.softDeletable = true
  deletedAt : repo.delegate.deletedAt = some column
  isRow : ∀ r, repo.delegate.isRow r = true

/-- The row with the id, in scope and without a tombstone. -/
def liveRow (column : DeletedAtColumn Row) (S : Option Id) (id : Id) (r : Row) : Bool :=
  ownRow S id r && (column.get r).isNone

omit [DecidableEq Row] in
/-- The filter on a primary key, in scope. -/
theorem admits_ownRow {m : Delegate Row} (hrow : ∀ r, m.isRow r = true) (id : Id) :
    (({ id := some id } : Where Row).inScope S).admits m = ownRow S id := by
  funext r
  rw [Where.admits_inScope _ _ rfl]
  unfold ownRow
  simp only [Where.admits, hrow, ColumnKey.admits, Option.all_some, Bool.true_and, Bool.and_true]
  split <;> simp

omit [DecidableEq Row] in
theorem visible_some {T : Id} {r : Row} :
    visible (some T) r = true ↔ TenantRow.tenantId r = some T := by
  simp [visible, owned]

omit [DecidableEq Row] in
theorem id_of_ownRow {id : Id} {r : Row} (h : ownRow S id r = true) : TenantRow.id r = id := by
  simp only [ownRow, Bool.and_eq_true, beq_iff_eq] at h
  exact h.1.symm

/-- From {lit}`w` to {lit}`w'` the rows of the table that {lit}`p` selects are rewritten by
{lit}`f`, and the constraints of the table accept the result. -/
structure Rewrites (t : TableOf Row) (p : Row → Bool) (f : Row → Row) (w w' : World) :
    Prop where
  world : w' = { w with db := t.set (rewriteWhere p f (t.get w.db)) w.db }
  accepted : ({ rows := t.get w.db, uniqueKeys := t.uniqueKeys } : Store Row).accepts
    (rewriteWhere p f (t.get w.db)) = true
  referenced : ∀ r ∈ rewriteWhere p f (t.get w.db),
    r ∈ t.get w.db ∨ t.references w.db r = true

/-- A client update that returned has rewritten the rows in scope that the filter admits. -/
theorem run_update_rewrites {m : Delegate Row} {f : Where Row} {d : Payload Row}
    {a : Option Row} {w w' : World} (hctx : env.context.Sees S) (hm : m.model ∉ unscopedModels)
    (hknown : ({ whereArg := f, data := d } : Args Row).unknownColumn m = false)
    (hnested : d.nested = {}) (h : t.run (m.update env f d) w = (.ok a, w')) :
    t.Rewrites ((f.inScope S).admits m) d.apply w w' := by
  rcases run_eq_ok h with ⟨s, hrun, hrefs, rfl⟩
  rw [Delegate.update_apply hctx hm hknown hnested] at hrun
  split at hrun
  · cases hrun
  · split at hrun <;> rename_i haccepts
    · cases hrun
      exact ⟨rfl, haccepts, hrefs⟩
    · cases hrun

/-- A creation through a repository appends a row in scope, unless a constraint refuses it. -/
theorem run_create {d : Payload Row} (hctx : env.context.Sees S)
    (hm : repo.delegate.model ∉ unscopedModels) (htenant : d.tenantId = none)
    (hnested : d.nested = {}) (w : World) :
    t.run (repo.create env d) w =
      if ({ rows := t.get w.db, uniqueKeys := t.uniqueKeys } : Store Row).accepts
            (t.get w.db ++ [repo.created env S d]) &&
          ((t.get w.db).contains (repo.created env S d) ||
            t.references w.db (repo.created env S d)) then
        (.ok (some (repo.created env S d)),
          { w with db := t.set (t.get w.db ++ [repo.created env S d]) w.db })
      else (.error (.client .constraintViolation), w) := by
  have hsame : (truthy d.tenantId.join && d.tenantId.join != S) = false := by
    rw [htenant]
    rfl
  exact run_insert (BaseTenantRepository.create_apply repo hctx hm hnested hsame _)

/-- A creation that no constraint refuses returns. -/
theorem run_create_of_accepts {d : Payload Row} {w : World} (hctx : env.context.Sees S)
    (hm : repo.delegate.model ∉ unscopedModels) (htenant : d.tenantId = none)
    (hnested : d.nested = {})
    (haccepted : ({ rows := t.get w.db, uniqueKeys := t.uniqueKeys } : Store Row).accepts
      (t.get w.db ++ [repo.created env S d]) = true)
    (hrefs : t.references w.db (repo.created env S d) = true) :
    t.run (repo.create env d) w = (.ok (some (repo.created env S d)),
      { w with db := t.set (t.get w.db ++ [repo.created env S d]) w.db }) := by
  rw [run_create hctx hm htenant hnested, if_pos]
  simp [haccepted, hrefs]

/-- A creation through a repository that returned has appended a row, in scope. -/
theorem run_create_appends {d : Payload Row} {a : Option Row} {w w' : World}
    (hctx : env.context.Sees S) (hm : repo.delegate.model ∉ unscopedModels)
    (htenant : d.tenantId = none) (hnested : d.nested = {})
    (h : t.run (repo.create env d) w = (.ok a, w')) :
    w' = { w with db := t.set (t.get w.db ++ [repo.created env S d]) w.db } ∧
      ({ rows := t.get w.db, uniqueKeys := t.uniqueKeys } : Store Row).accepts
        (t.get w.db ++ [repo.created env S d]) = true ∧
      (repo.created env S d ∈ t.get w.db ∨
        t.references w.db (repo.created env S d) = true) := by
  rw [run_create hctx hm htenant hnested] at h
  split at h <;> rename_i hpass
  · cases h
    rw [Bool.and_eq_true] at hpass
    exact ⟨rfl, hpass.1, by simpa using hpass.2⟩
  · cases h

/-- A context in which the tenant is resolved sees a scope. -/
theorem sees_of_getTenantId {context : TenantContext} {tenantId : Option Id}
    (h : BaseTenantRepository.getTenantId context = .ok tenantId) :
    context.Sees tenantId := by
  unfold BaseTenantRepository.getTenantId at h
  split at h
  · rename_i howner
    simp only [Bool.and_eq_true, Bool.not_eq_true'] at howner
    cases h
    exact ⟨howner.2, howner.1⟩
  · split at h
    · rename_i htruthy
      cases h
      cases htenant : context.tenantId with
      | none =>
          rw [htenant] at htruthy
          cases htruthy
      | some T =>
          rw [htenant] at htruthy
          exact ⟨htenant, by simpa [truthy] using htruthy⟩
    · cases h

/-- A lookup through a repository returns in a scope only. -/
theorem sees_of_findFirst {Row : Type} [TenantRow Row] [DecidableEq Row] {t : TableOf Row}
    {repo : BaseTenantRepository Row} {env : Env} {f : Where Row} {a : Option Row} {w w' : World}
    (h : t.run (repo.findFirst env f) w = (.ok a, w')) : ∃ S, env.context.Sees S := by
  rcases run_eq_ok h with ⟨s, hrun, _, _⟩
  rcases Fallible.bind_eq_ok.mp hrun with ⟨tenantId, s', hread, _⟩
  exact ⟨tenantId, sees_of_getTenantId (Fallible.reads_eq_ok.mp hread).1⟩

section Repository

variable (h : SoftDeletes repo column) (hctx : env.context.Sees S)
include h hctx

omit [DecidableEq Row] in
/-- A lookup finds the live row with the id. -/
theorem findById_apply (id : Id) (db : Store Row) :
    repo.findById env id db = (.ok (db.rows.find? (liveRow column S id)), db) := by
  have hknown : repo.Known { id := some id } S :=
    BaseTenantRepository.known_of_absent S (fun _ => by rw [h.deletedAt]; rfl) rfl
  have hadmits : (repo.scopedWhere { id := some id } S).admits repo.delegate =
      liveRow column S id := by
    funext r
    rw [BaseTenantRepository.scopedWhere_admits_scope
      (BaseTenantRepository.truthy_of_sees hctx), admits_ownRow h.isRow, h.softDeletable,
      h.deletedAt]
    rfl
  unfold BaseTenantRepository.findById
  rw [BaseTenantRepository.findFirst_apply hctx h.isScoped hknown, hadmits]

omit [DecidableEq Row] in
/-- A lookup that includes deleted rows finds the row with the id. -/
theorem findByIdIncludingDeleted_apply (id : Id) (db : Store Row) :
    repo.findByIdIncludingDeleted env id db = (.ok (db.rows.find? (ownRow S id)), db) := by
  have hknown : repo.Known { id := some id, deletedAt := .undefined } S := by
    unfold BaseTenantRepository.Known
    rw [BaseTenantRepository.scopedWhere_eq (BaseTenantRepository.truthy_of_sees hctx)]
    cases S <;> simp [Args.unknownColumn, Where.inScope, Where.withTenant, h.deletedAt]
  have hadmits : (repo.scopedWhere { id := some id, deletedAt := .undefined } S).admits
      repo.delegate = ownRow S id := by
    funext r
    rw [BaseTenantRepository.scopedWhere_admits_scope
      (BaseTenantRepository.truthy_of_sees hctx), Where.admits_inScope _ _ rfl]
    simp [Where.admits, h.isRow, h.deletedAt, ColumnKey.admits, ownRow]
  unfold BaseTenantRepository.findByIdIncludingDeleted
  rw [BaseTenantRepository.findFirst_apply hctx h.isScoped hknown, hadmits]

theorem run_findById_live (id : Id) (w : World) :
    t.run (repo.findById env id) w = (.ok ((t.get w.db).find? (liveRow column S id)), w) :=
  run_of_read (findById_apply h hctx id _)

theorem run_findByIdIncludingDeleted (id : Id) (w : World) :
    t.run (repo.findByIdIncludingDeleted env id) w =
      (.ok ((t.get w.db).find? (ownRow S id)), w) :=
  run_of_read (findByIdIncludingDeleted_apply h hctx id _)

/-- A count counts the live rows in scope. -/
theorem run_count_live (w : World) :
    t.run (repo.count env {}) w =
      (.ok ((t.get w.db).countP fun r => visible S r && (column.get r).isNone), w) := by
  have hknown : repo.Known {} S :=
    BaseTenantRepository.known_of_absent S (fun _ => by rw [h.deletedAt]; rfl) rfl
  have hadmits : (repo.scopedWhere {} S).admits repo.delegate =
      fun r => visible S r && (column.get r).isNone := by
    funext r
    rw [BaseTenantRepository.scopedWhere_admits_scope
      (BaseTenantRepository.truthy_of_sees hctx), Where.admits_inScope _ _ rfl, h.softDeletable,
      h.deletedAt]
    simp [Where.admits, h.isRow, h.deletedAt, ColumnKey.admits]
  refine run_of_read ?_
  unfold BaseTenantRepository.count
  rw [BaseTenantRepository.getTenantId_of_sees hctx, Fallible.reads_ok_bind,
    Fallible.bind_of_ok (invoke_read hctx h.isScoped (by simp) hknown rfl rfl rfl rfl),
    Fallible.pure_apply, Args.inScope_where (by simp [filteredOperations]),
    BaseTenantRepository.scopedWhere_inScope (BaseTenantRepository.truthy_of_sees hctx), hadmits]
  simp [Result.number, Root.outcome, Args.arrange, List.countP_eq_length_filter]

/-- An update of the row with an id that returned. -/
theorem run_update_id {id : Id} {d : Payload Row} {a : Option Row} {w w' : World}
    (hnested : d.nested = {})
    (hrun : t.run (repo.delegate.update env { id := some id } d) w = (.ok a, w')) :
    t.Rewrites (ownRow S id) d.apply w w' := by
  have hrewrites := run_update_rewrites hctx h.isScoped (by simp [Args.unknownColumn]) hnested hrun
  rw [admits_ownRow h.isRow] at hrewrites
  exact hrewrites

/-- An update through the repository that returned has found a live row and rewritten it. -/
theorem run_update_live {id : Id} {d : Payload Row} {a : Option Row} {w w' : World}
    (hnested : d.nested = {}) (hrun : t.run (repo.update env id d) w = (.ok a, w')) :
    (∃ target, (t.get w.db).find? (liveRow column S id) = some target) ∧
      t.Rewrites (ownRow S id) d.apply w w' := by
  have hlookup := findById_apply h hctx id { rows := t.get w.db, uniqueKeys := t.uniqueKeys }
  cases hfind : (t.get w.db).find? (liveRow column S id) with
  | none =>
      rw [hfind] at hlookup
      have hrefused : t.run (repo.update env id d) w = (.error (.client (notFoundError id)), w) :=
        run_refused (Fallible.bind_of_ok hlookup)
      rw [hrefused] at hrun
      cases hrun
  | some target =>
      rw [hfind] at hlookup
      have hid : TenantRow.id target = id := by
        have hlive := List.find?_some hfind
        rw [liveRow, Bool.and_eq_true] at hlive
        exact id_of_ownRow hlive.1
      have hupdate : repo.update env id d { rows := t.get w.db, uniqueKeys := t.uniqueKeys } =
          repo.delegate.update env { id := some id } d
            { rows := t.get w.db, uniqueKeys := t.uniqueKeys } := by
        refine (Fallible.bind_of_ok hlookup).trans ?_
        simp only [hid]
        rfl
      rw [run_congr hupdate] at hrun
      exact ⟨⟨target, rfl⟩, run_update_id h hctx hnested hrun⟩

/-- A tombstone written or removed through the repository: a row that has the state asked for
stays, and another one is rewritten. -/
theorem run_setDeletedAt {id : Id} {extraData : Payload Row} {a : Option Row} {w w' : World}
    {unchanged : Option Timestamp → Bool} {deletedAt : Option Timestamp}
    (hnested : extraData.nested = {})
    (hrun : t.run (repo.setDeletedAt env id extraData unchanged deletedAt) w = (.ok a, w')) :
    ∃ target, (t.get w.db).find? (ownRow S id) = some target ∧
      if unchanged (column.get target) then w' = w
      else t.Rewrites (ownRow S id)
        (BaseTenantRepository.withDeletedAt column extraData deletedAt).apply w w' := by
  have hlookup := findByIdIncludingDeleted_apply h hctx id
    { rows := t.get w.db, uniqueKeys := t.uniqueKeys }
  cases hfind : (t.get w.db).find? (ownRow S id) with
  | none =>
      rw [hfind] at hlookup
      have hrefused : t.run (repo.setDeletedAt env id extraData unchanged deletedAt) w =
          (.error (.client (notFoundError id)), w) :=
        run_refused (Fallible.bind_of_ok hlookup)
      rw [hrefused] at hrun
      cases hrun
  | some target =>
      rw [hfind] at hlookup
      have hid : TenantRow.id target = id := id_of_ownRow (List.find?_some hfind)
      refine ⟨target, rfl, ?_⟩
      cases hsame : unchanged (column.get target) with
      | true =>
          have hkept : t.run (repo.setDeletedAt env id extraData unchanged deletedAt) w =
              (.ok (some target), w) := by
            refine run_of_read ((Fallible.bind_of_ok hlookup).trans ?_)
            simp only [h.deletedAt, Option.bind_some, hsame, if_true]
            rfl
          rw [hkept] at hrun
          cases hrun
          rfl
      | false =>
          have hupdate : repo.setDeletedAt env id extraData unchanged deletedAt
              { rows := t.get w.db, uniqueKeys := t.uniqueKeys } =
                repo.delegate.update env { id := some id }
                  (BaseTenantRepository.withDeletedAt column extraData deletedAt)
                    { rows := t.get w.db, uniqueKeys := t.uniqueKeys } := by
            refine (Fallible.bind_of_ok hlookup).trans ?_
            simp only [h.deletedAt, Option.bind_some, hsame, Bool.false_eq_true, if_false, hid]
          rw [run_congr hupdate] at hrun
          rw [if_neg Bool.false_ne_true]
          exact run_update_id h hctx hnested hrun

end Repository

/-! ## Lookups of a method -/

/-- A live row with an id in the context's tenant, or an exception. -/
def fetch (t : TableOf Row) (repo : BaseTenantRepository Row) (env : LifecycleEnv)
    (statement : Statement) (id : Id) (e : AppError) : Service Row := do
  let existing ← attempt (env.fails statement) (t.run (repo.findById env.toEnv id))
  orThrow e existing

/-- A row with an id in the context's tenant, deleted or not, or an exception. -/
def fetchIncludingDeleted (t : TableOf Row) (repo : BaseTenantRepository Row)
    (env : LifecycleEnv) (statement : Statement) (id : Id) (e : AppError) : Service Row := do
  let existing ← attempt (env.fails statement) (t.run (repo.findByIdIncludingDeleted env.toEnv id))
  orThrow e existing

section Fetch

variable {env : LifecycleEnv} {statement : Statement} {id : Id} {e : AppError} {r : Row}
  {w w' : World}

theorem fetch_readsOnly : Fallible.ReadsOnly (fetch t repo env statement id e) :=
  .bind (attempt_readsOnly (run_readsOnly (BaseTenantRepository.findFirst_readsOnly _)))
    fun _ => orThrow_readsOnly _ _

theorem fetchIncludingDeleted_readsOnly :
    Fallible.ReadsOnly (fetchIncludingDeleted t repo env statement id e) :=
  .bind (attempt_readsOnly (run_readsOnly (BaseTenantRepository.findFirst_readsOnly _)))
    fun _ => orThrow_readsOnly _ _

/-- A row that was fetched is live and in scope. -/
theorem fetch_ok (h : SoftDeletes repo column)
    (hrun : fetch t repo env statement id e w = (.ok r, w')) :
    w' = w ∧ env.fails statement = false ∧ ∃ S, env.context.Sees S ∧
      (t.get w.db).find? (liveRow column S id) = some r := by
  rcases Fallible.bind_eq_ok.mp hrun with ⟨found, w₁, hread, hthrow⟩
  rcases attempt_eq_ok.mp hread with ⟨hattempted, hlookup⟩
  rcases sees_of_findFirst hlookup with ⟨S, hctx⟩
  rw [run_findById_live h hctx] at hlookup
  cases hlookup
  rcases orThrow_eq_ok.mp hthrow with ⟨hfound, rfl⟩
  exact ⟨rfl, hattempted, S, hctx, hfound⟩

/-- A row that was fetched, deleted or not, is in scope. -/
theorem fetchIncludingDeleted_ok (h : SoftDeletes repo column)
    (hrun : fetchIncludingDeleted t repo env statement id e w = (.ok r, w')) :
    w' = w ∧ env.fails statement = false ∧ ∃ S, env.context.Sees S ∧
      (t.get w.db).find? (ownRow S id) = some r := by
  rcases Fallible.bind_eq_ok.mp hrun with ⟨found, w₁, hread, hthrow⟩
  rcases attempt_eq_ok.mp hread with ⟨hattempted, hlookup⟩
  rcases sees_of_findFirst hlookup with ⟨S, hctx⟩
  rw [run_findByIdIncludingDeleted h hctx] at hlookup
  cases hlookup
  rcases orThrow_eq_ok.mp hthrow with ⟨hfound, rfl⟩
  exact ⟨rfl, hattempted, S, hctx, hfound⟩

omit [DecidableEq Row] in
/-- What a live row in scope is. -/
theorem liveRow_iff {id : Id} {r : Row} :
    liveRow column S id r = true ↔
      TenantRow.id r = id ∧ visible S r = true ∧ column.get r = none := by
  simp only [liveRow, ownRow, Bool.and_eq_true, beq_iff_eq, Option.isNone_iff_eq_none, and_assoc]
  exact and_congr_left fun _ => eq_comm

/-- The row that was fetched in a scope. -/
theorem fetch_mem (h : SoftDeletes repo column) (hctx : env.context.Sees S)
    (hrun : fetch t repo env statement id e w = (.ok r, w')) :
    w' = w ∧ r ∈ t.get w.db ∧ TenantRow.id r = id ∧ visible S r = true ∧ column.get r = none := by
  rcases fetch_ok h hrun with ⟨hw, _, S', hctx', hfound⟩
  cases hctx.unique hctx'
  exact ⟨hw, List.mem_of_find?_eq_some hfound, liveRow_iff.mp (List.find?_some hfound)⟩

end Fetch

/-! ## The loop over the children of a row -/

/-- Page size of the cascades. -/
def CASCADE_BATCH_SIZE : ℕ := 200

section Loop

variable (t : TableOf Row) (m : Delegate Row) (env : LifecycleEnv) (f : Where Row)
  (data : Payload Row)

/-- The next page of live children. -/
def nextBatch (round : ℕ) : Service (List Row) :=
  attempt (env.fails (.batchRead round)) (t.run do
    let result ← invoke env.toEnv m .findMany (.page f CASCADE_BATCH_SIZE)
    return result.found)

/-- Mark the children of a page, one statement for each. -/
def markBatch : List Row → Service Unit
  | [] => pure ()
  | child :: rest => do
      let _ ← attempt (env.fails (.childWrite (TenantRow.id child)))
        (t.run (m.update env.toEnv { id := some (TenantRow.id child) } data))
      markBatch rest

/-- Page after page, up to a number of rounds. -/
def cascadeRounds : ℕ → Service Unit
  | 0 => pure ()
  | rounds + 1 => do
      let batch ← nextBatch t m env f rounds
      if batch.length = 0 then pure ()
      else do
        markBatch t m env data batch
        if batch.length < CASCADE_BATCH_SIZE then pure () else cascadeRounds rounds

/-- The loop.  A page that does not end it marks a child, so it has no more rounds than there
are rows. -/
def cascade : Service Unit := fun w =>
  cascadeRounds t m env f data ((t.get w.db).length + 1) w

end Loop

section Loop

variable {m : Delegate Row} {env : LifecycleEnv} {f : Where Row} {data : Payload Row}

/-- A page of the rows in scope that a filter admits. -/
theorem run_page {size : ℕ} (hctx : env.context.Sees S) (hm : m.model ∉ unscopedModels)
    (hknown : ({ whereArg := f } : Args Row).unknownColumn m = false) (w : World) :
    t.run (do
      let result ← invoke env.toEnv m .findMany (.page f size)
      return result.found) w =
        (.ok (((t.get w.db).filter ((f.inScope S).admits m)).take size), w) := by
  have hpage : (Args.page f size).unknownColumn m = false := hknown
  refine run_of_read ?_
  rw [Fallible.bind_of_ok (invoke_read hctx hm (by simp) hpage rfl rfl rfl rfl),
    Fallible.pure_apply, Root.found_outcome rfl,
    Args.inScope_where (by simp [filteredOperations])]
  simp [findRoot, Args.arrange, Args.page]

/-- The loop over a table: its rows have keys of their own, a marked row is no live child, and
marking leaves the id. -/
structure Marks (t : TableOf Row) (m : Delegate Row) (p : Row → Bool) (data : Payload Row)
    (S : Option Id) : Prop where
  isScoped : m.model ∉ unscopedModels
  isRow : ∀ r, m.isRow r = true
  nested : data.nested = {}
  id_apply : ∀ r, TenantRow.id (data.apply r) = TenantRow.id r
  done : ∀ r, p (data.apply r) = false
  inScope : ∀ r, p r = true → visible S r = true
  set_set : ∀ rows rows' db, t.set rows (t.set rows' db) = t.set rows db

/-- Marking a page that returned has marked its children. -/
theorem markBatch_ok {p : Row → Bool} (h : Marks t m p data S) (hctx : env.context.Sees S)
    {batch : List Row} {w w' : World} {u : Unit}
    (hids : ((t.get w.db).map TenantRow.id).Nodup) (hnodup : batch.Nodup)
    (hsub : ∀ r ∈ batch, r ∈ t.get w.db) (hp : ∀ r ∈ batch, p r = true)
    (hrun : markBatch t m env data batch w = (.ok u, w')) :
    w' = { w with db := t.set (rewriteMembers batch data.apply (t.get w.db)) w.db } := by
  induction batch generalizing w with
  | nil =>
      have hnone : rewriteMembers [] data.apply (t.get w.db) = t.get w.db :=
        rewriteWhere_of_none fun _ _ => rfl
      rw [hnone, t.set_get]
      cases hrun
      rfl
  | cons child rest ih =>
      rcases Fallible.bind_eq_ok.mp hrun with ⟨a, w₁, hupdate, hrest⟩
      have hrewrites := run_update_rewrites hctx h.isScoped (by simp [Args.unknownColumn])
        h.nested (attempt_eq_ok.mp hupdate).2
      rw [admits_ownRow h.isRow] at hrewrites
      have hmem := hsub child List.mem_cons_self
      have hchild : rewriteWhere (ownRow S (TenantRow.id child)) data.apply (t.get w.db) =
          rewriteWhere (fun r => decide (r = child)) data.apply (t.get w.db) := by
        refine rewriteWhere_congr fun r hr => ?_
        by_cases hrc : r = child
        · rw [hrc]
          simp [ownRow, h.inScope child (hp child List.mem_cons_self)]
        · have hid : TenantRow.id child ≠ TenantRow.id r := fun hid =>
            hrc (List.inj_on_of_nodup_map hids hr hmem hid.symm)
          simp [ownRow, hid, hrc]
      have hrows : t.get w₁.db =
          rewriteWhere (fun r => decide (r = child)) data.apply (t.get w.db) := by
        rw [hrewrites.world, t.get_set, hchild]
      have hlater := ih (w := w₁)
        (by rw [hrows, map_rewriteWhere h.id_apply]; exact hids)
        (List.nodup_cons.mp hnodup).2
        (fun r hr => by
          rw [hrows]
          refine mem_rewriteWhere_of_not (hsub r (List.mem_cons_of_mem _ hr)) ?_
          simp only [decide_eq_false_iff_not]
          rintro rfl
          exact (List.nodup_cons.mp hnodup).1 hr)
        (fun r hr => hp r (List.mem_cons_of_mem _ hr)) hrest
      rw [hlater, hrows, rewriteMembers_cons
        (fun r hr => hp r (List.mem_cons_of_mem _ hr)) (h.done child), hrewrites.world]
      simp only [h.set_set]

end Loop

end TableOf

/-! ## The soft-deletable models -/

open TableOf

theorem restaurants_softDelete : SoftDeletes restaurantRepository restaurantDeletedAt where
  isScoped := by decide
  softDeletable := rfl
  deletedAt := rfl
  isRow _ := rfl

theorem branches_softDelete : SoftDeletes branchRepository branchDeletedAt where
  isScoped := by decide
  softDeletable := rfl
  deletedAt := rfl
  isRow _ := rfl

theorem tables_softDelete : SoftDeletes tableRepository tableDeletedAt where
  isScoped := by decide
  softDeletable := rfl
  deletedAt := rfl
  isRow _ := rfl

theorem categories_softDelete : SoftDeletes categoryRepository categoryDeletedAt where
  isScoped := by decide
  softDeletable := rfl
  deletedAt := rfl
  isRow _ := rfl

theorem products_softDelete : SoftDeletes productRepository productDeletedAt where
  isScoped := by decide
  softDeletable := rfl
  deletedAt := rfl
  isRow _ := rfl

end Eleva
