import Eleva.Database.Repository
import Eleva.Foundation.Keys

/-!
# Service - Statements of the application

The state the services work on, the errors they throw, and how a statement on one
table runs on the whole database.

Main results:

- Definition {lit}`TableOf.run`: run statements on a table, refusing rows whose
  foreign keys name nothing.
- Theorem {lit}`TableOf.run_findFirst`: a repository lookup finds the first row of the
  table that the merged filter admits and changes nothing.
-/

namespace Eleva

open Foundation Database

/-- A line of a kitchen ticket. -/
structure TicketItem where
  orderItemId : Id
  name : String
  quantity : ℕ
  size : Option String
  addons : List String
  cookingStatus : CookingStatus
deriving DecidableEq, Repr

/-- What a broadcast carries. -/
inductive BroadcastPayload where
  | ticket (ticketId : Id) (ticketNumber priority : String) (items : List TicketItem)
  | order (order : Order)
  | priorityChanged (ticketId : Id) (oldPriority newPriority : String)
  | itemUpdated (orderId orderItemId : Id) (status : Option CookingStatus)
      (cookingStatus : CookingStatus)
deriving DecidableEq, Repr

/-- An event sent to the kitchen displays of a branch. -/
structure Broadcast where
  tenantId : Id
  branchId : Id
  event : String
  payload : BroadcastPayload
deriving DecidableEq, Repr

/-- The database, and the broadcasts sent so far. -/
structure World where
  db : Db
  broadcasts : List Broadcast := []

/-- The exceptions of the services. -/
inductive AppError where
  | notFound (message : String)
  | badRequest (message : String)
  | forbidden (message : String)
  | unauthorized (message : String)
  | serviceUnavailable (message : String)
  | conflict (message : String)
  | error (message : String)
  | client (error : ClientError)
  | failure
deriving DecidableEq, Repr

/-- A service method. -/
abbrev Service (α : Type) := Fallible World AppError α

/-- Run a step unless it fails. -/
def attempt {α : Type} (fails : Bool) (x : Service α) : Service α := do
  Fallible.throwIf fails .failure
  x

/-- A step that does not fail is its statement. -/
@[simp]
theorem attempt_false {α : Type} (x : Service α) : attempt false x = x := by
  funext w
  rfl

theorem attempt_eq_ok {α : Type} {fails : Bool} {x : Service α} {a : α} {w w' : World} :
    attempt fails x w = (.ok a, w') ↔ fails = false ∧ x w = (.ok a, w') := by
  unfold attempt
  rw [Fallible.bind_eq_ok]
  constructor
  · rintro ⟨_, s, hthrow, hx⟩
    rcases Fallible.throwIf_eq_ok.mp hthrow with ⟨hfails, rfl⟩
    exact ⟨hfails, hx⟩
  · rintro ⟨hfails, hx⟩
    exact ⟨(), w, Fallible.throwIf_eq_ok.mpr ⟨hfails, rfl⟩, hx⟩

/-- A step throws where it failed or where its statement throws. -/
theorem attempt_error {α : Type} {fails : Bool} {x : Service α} {e : AppError} {w w' : World}
    (h : attempt fails x w = (.error e, w')) : w' = w ∨ x w = (.error e, w') := by
  rcases Fallible.bind_eq_error.mp h with hfail | ⟨_, s, hpass, hrun⟩
  · exact Or.inl (Fallible.throwIf_error hfail)
  · rcases Fallible.throwIf_eq_ok.mp hpass with ⟨_, rfl⟩
    exact Or.inr hrun

theorem attempt_keeps {α : Type} {I : World → Prop} (fails : Bool) {x : Service α}
    (hx : Fallible.Keeps I x) : Fallible.Keeps I (attempt fails x) :=
  Fallible.Keeps.bind (Fallible.Keeps.throwIf _ _) fun _ => hx

/-- A table of the database with its unique keys and foreign keys. -/
structure TableOf (Row : Type) where
  get : Db → List Row
  set : List Row → Db → Db
  uniqueKeys : List (Row → Option String)
  references : Db → Row → Bool := fun _ _ => true
  get_set : ∀ rows db, get (set rows db) = rows
  set_get : ∀ db, set (get db) db = db

namespace TableOf

variable {Row α : Type} [DecidableEq Row]

/-- Run statements on a table.  New rows whose foreign keys name nothing are refused. -/
def run (t : TableOf Row) (x : Fallible (Store Row) ClientError α) : Service α := fun w =>
  match x { rows := t.get w.db, uniqueKeys := t.uniqueKeys } with
  | (.error e, s) => (.error (.client e), { w with db := t.set s.rows w.db })
  | (.ok a, s) =>
      if s.rows.all (fun r => (t.get w.db).contains r || t.references w.db r) then
        (.ok a, { w with db := t.set s.rows w.db })
      else (.error (.client .constraintViolation), w)

/-- A statement on a table keeps what every write of the table keeps. -/
theorem run_keeps {t : TableOf Row} {I : World → Prop}
    (hI : ∀ rows w, I w → I { w with db := t.set rows w.db })
    (x : Fallible (Store Row) ClientError α) : Fallible.Keeps I (t.run x) := by
  intro w hw
  unfold run
  split
  · exact hI _ _ hw
  · split
    · exact hI _ _ hw
    · exact hw

/-- Statements that do the same on the table's rows do the same on the database. -/
theorem run_congr {t : TableOf Row} {x y : Fallible (Store Row) ClientError α} {w : World}
    (hxy : x { rows := t.get w.db, uniqueKeys := t.uniqueKeys } =
      y { rows := t.get w.db, uniqueKeys := t.uniqueKeys }) : t.run x w = t.run y w := by
  unfold run
  rw [hxy]

/-- A statement that returns and leaves the rows returns and leaves the world. -/
theorem run_of_read {t : TableOf Row} {x : Fallible (Store Row) ClientError α} {a : α}
    {w : World}
    (hx : x { rows := t.get w.db, uniqueKeys := t.uniqueKeys } =
      (.ok a, { rows := t.get w.db, uniqueKeys := t.uniqueKeys })) :
    t.run x w = (.ok a, w) := by
  have hall : (t.get w.db).all
      (fun r => (t.get w.db).contains r || t.references w.db r) = true := by
    rw [List.all_eq_true]
    intro r hr
    simp [hr]
  unfold run
  rw [hx]
  simp only [hall, if_true, t.set_get]

/-- What running a statement on a table that returned has done. -/
theorem run_eq_ok {t : TableOf Row} {x : Fallible (Store Row) ClientError α} {a : α}
    {w w' : World} (h : t.run x w = (.ok a, w')) :
    ∃ s, x { rows := t.get w.db, uniqueKeys := t.uniqueKeys } = (.ok a, s) ∧
      (∀ r ∈ s.rows, r ∈ t.get w.db ∨ t.references w.db r = true) ∧
      w' = { w with db := t.set s.rows w.db } := by
  unfold run at h
  split at h <;> rename_i hx
  · cases h
  · split at h <;> rename_i hall
    · cases h
      refine ⟨_, hx, ?_, rfl⟩
      intro r hr
      have hr' := List.all_eq_true.mp hall r hr
      simpa using hr'
    · cases h

/-- A statement that leaves the rows when it throws leaves the world when it is
refused. -/
theorem run_error {t : TableOf Row} {x : Fallible (Store Row) ClientError α} {e : AppError}
    {w w' : World}
    (hx : ∀ e' s, x { rows := t.get w.db, uniqueKeys := t.uniqueKeys } = (.error e', s) →
      s.rows = t.get w.db)
    (h : t.run x w = (.error e, w')) : w' = w := by
  unfold run at h
  split at h <;> rename_i hrun
  · cases h
    rw [hx _ _ hrun, t.set_get]
  · split at h
    · cases h
    · cases h
      rfl

/-- A statement that throws and leaves the rows. -/
theorem run_refused {t : TableOf Row} {x : Fallible (Store Row) ClientError α}
    {e : ClientError} {w : World}
    (hx : x { rows := t.get w.db, uniqueKeys := t.uniqueKeys } =
      (.error e, { rows := t.get w.db, uniqueKeys := t.uniqueKeys })) :
    t.run x w = (.error (.client e), w) := by
  unfold run
  rw [hx]
  simp only [t.set_get]

/-- A statement that appends a row unless a unique key refuses it appends it unless a
constraint refuses it. -/
theorem run_insert {t : TableOf Row} {x : Fallible (Store Row) ClientError (Option Row)}
    {r : Row} {w : World}
    (hx : x { rows := t.get w.db, uniqueKeys := t.uniqueKeys } =
      if ({ rows := t.get w.db, uniqueKeys := t.uniqueKeys } : Store Row).accepts
          (t.get w.db ++ [r]) then
        (.ok (some r), { rows := t.get w.db ++ [r], uniqueKeys := t.uniqueKeys })
      else (.error .constraintViolation,
        { rows := t.get w.db, uniqueKeys := t.uniqueKeys })) :
    t.run x w =
      if ({ rows := t.get w.db, uniqueKeys := t.uniqueKeys } : Store Row).accepts
            (t.get w.db ++ [r]) &&
          ((t.get w.db).contains r || t.references w.db r) then
        (.ok (some r), { w with db := t.set (t.get w.db ++ [r]) w.db })
      else (.error (.client .constraintViolation), w) := by
  cases haccepts : ({ rows := t.get w.db, uniqueKeys := t.uniqueKeys } : Store Row).accepts
      (t.get w.db ++ [r]) with
  | false =>
      rw [haccepts, if_neg Bool.false_ne_true] at hx
      rw [run_refused hx]
      rfl
  | true =>
      rw [haccepts, if_pos rfl] at hx
      have hall : ((t.get w.db ++ [r]).all
          fun r' => (t.get w.db).contains r' || t.references w.db r') =
            ((t.get w.db).contains r || t.references w.db r) := by
        rw [List.all_append]
        have hold : ((t.get w.db).all
            fun r' => (t.get w.db).contains r' || t.references w.db r') = true := by
          rw [List.all_eq_true]
          intro r' hr'
          simp [hr']
        rw [hold]
        simp
      unfold run
      rw [hx]
      simp only [hall, Bool.true_and]

/-- A statement that returns rows whose foreign keys all name something. -/
theorem run_of_ok {t : TableOf Row} {x : Fallible (Store Row) ClientError α} {a : α}
    {w : World} {s : Store Row}
    (hx : x { rows := t.get w.db, uniqueKeys := t.uniqueKeys } = (.ok a, s))
    (hall : ∀ r ∈ s.rows, r ∈ t.get w.db ∨ t.references w.db r = true) :
    t.run x w = (.ok a, { w with db := t.set s.rows w.db }) := by
  have hall' : s.rows.all
      (fun r => (t.get w.db).contains r || t.references w.db r) = true := by
    rw [List.all_eq_true]
    intro r hr
    simpa using hall r hr
  unfold run
  rw [hx]
  simp only [hall', if_true]

/-- The rows of a table keep to its constraints. -/
def Valid (t : TableOf Row) (db : Db) : Prop :=
  ({ rows := t.get db, uniqueKeys := t.uniqueKeys } : Store Row).accepts (t.get db) = true ∧
    ∀ r ∈ t.get db, t.references db r = true

omit [DecidableEq Row] in
/-- Rewriting rows without touching their unique keys keeps them unique. -/
theorem accepts_map {t : TableOf Row} {db : Db} (hvalid : t.Valid db) {f : Row → Row}
    (hkeys : ∀ key ∈ t.uniqueKeys, ∀ r, key (f r) = key r) :
    ({ rows := t.get db, uniqueKeys := t.uniqueKeys } : Store Row).accepts
      ((t.get db).map f) = true := by
  have haccepts := hvalid.1
  unfold Store.accepts at haccepts ⊢
  simp only [List.all_nil, Bool.and_true, List.all_eq_true, decide_eq_true_eq] at haccepts ⊢
  intro key hkey
  have hsame : ((t.get db).map f).filterMap key = (t.get db).filterMap key := by
    rw [List.filterMap_map]
    congr 1
    funext r
    exact hkeys key hkey r
  rw [hsame]
  exact haccepts key hkey

/-- A statement that rewrites some rows, or none, and then may throw, does that to the
table. -/
theorem run_rewrites {t : TableOf Row} {x : Fallible (Store Row) ClientError α} {f : Row → Row}
    {w : World}
    (hx : ∃ p : Row → Bool, (x { rows := t.get w.db, uniqueKeys := t.uniqueKeys }).2.rows =
      (t.get w.db).map fun r => if p r then f r else r) :
    ∃ p : Row → Bool, (t.run x w).2 =
      { w with db := t.set ((t.get w.db).map fun r => if p r then f r else r) w.db } := by
  rcases hx with ⟨p, hrows⟩
  have hnone : w = { w with db := t.set ((t.get w.db).map fun r =>
      if (fun _ => false) r = true then f r else r) w.db } := by
    simp [t.set_get]
  unfold run
  rcases hrun : x { rows := t.get w.db, uniqueKeys := t.uniqueKeys } with ⟨_ | a, s⟩
  · rw [hrun] at hrows
    simp only at hrows ⊢
    exact ⟨p, by rw [hrows]⟩
  · rw [hrun] at hrows
    simp only at hrows ⊢
    split
    · exact ⟨p, by rw [hrows]⟩
    · exact ⟨fun _ => false, hnone⟩

variable [TenantRow Row]

/-! ## The client's own statements -/

section Client

variable {t : TableOf Row} {m : Delegate Row} {env : Env}

/-- A client lookup in a scope finds the first row that the filter admits. -/
theorem run_client_findFirst {S : Option Id} {f : Where Row} (hctx : env.context.Sees S)
    (hm : m.model ∉ unscopedModels)
    (hknown : ({ whereArg := f } : Args Row).unknownColumn m = false) (w : World) :
    t.run (m.findFirst env f) w = (.ok ((t.get w.db).find? ((f.inScope S).admits m)), w) :=
  run_of_read (Delegate.findFirst_apply hctx hm hknown _)

theorem run_client_findMany {S : Option Id} {f : Where Row} (hctx : env.context.Sees S)
    (hm : m.model ∉ unscopedModels)
    (hknown : ({ whereArg := f } : Args Row).unknownColumn m = false) (w : World) :
    t.run (m.findMany env f) w = (.ok ((t.get w.db).filter ((f.inScope S).admits m)), w) :=
  run_of_read (Delegate.findMany_apply hctx hm hknown _)

theorem run_client_count {S : Option Id} {f : Where Row} (hctx : env.context.Sees S)
    (hm : m.model ∉ unscopedModels)
    (hknown : ({ whereArg := f } : Args Row).unknownColumn m = false) (w : World) :
    t.run (m.count env f) w = (.ok ((t.get w.db).filter ((f.inScope S).admits m)).length, w) :=
  run_of_read (Delegate.count_apply hctx hm hknown _)

/-- A part of a statement's answer on a scoped model is given in a scope only. -/
theorem sees_of_run_ok {op : Operation} {args : Args Row} {f : Result Row → α} {a : α}
    {w w' : World} (hm : m.model ∉ unscopedModels)
    (h : t.run (do let result ← invoke env m op args; return f result) w = (.ok a, w')) :
    ∃ S, env.context.Sees S := by
  rcases run_eq_ok h with ⟨s, hrun, _, _⟩
  rcases Fallible.bind_eq_ok.mp hrun with ⟨result, s', hinvoke, _⟩
  exact sees_of_invoke_ok hm hinvoke

end Client

/-- Whatever the context, a statement that only reads leaves the world. -/
theorem run_read_state {t : TableOf Row} {m : Delegate Row} {env : Env} {op : Operation}
    (hop : op ∈ readOperations) (args : Args Row) (f : Result Row → α) (w : World) :
    (t.run (do let result ← invoke env m op args; return f result) w).2 = w := by
  have hstate : ((do let result ← invoke env m op args; return f result :
      Fallible (Store Row) ClientError α)
        { rows := t.get w.db, uniqueKeys := t.uniqueKeys }).2 =
          { rows := t.get w.db, uniqueKeys := t.uniqueKeys } :=
    (state_of_answer op args f).trans (invoke_read_state hop args)
  unfold run
  rcases hrun : (do let result ← invoke env m op args; return f result :
    Fallible (Store Row) ClientError α) { rows := t.get w.db, uniqueKeys := t.uniqueKeys } with
    ⟨_ | a, s⟩
  all_goals
    rw [hrun] at hstate
    simp only at hstate
    rw [hstate]
    simp only [t.set_get]
  split <;> rfl

/-- A statement that only reads keeps whatever holds. -/
theorem run_read_keeps {t : TableOf Row} {m : Delegate Row} {env : Env} {op : Operation}
    {I : World → Prop} (hop : op ∈ readOperations) (args : Args Row) (f : Result Row → α) :
    Fallible.Keeps I (t.run (do let result ← invoke env m op args; return f result)) :=
  Fallible.Keeps.of_unchanged (run_read_state hop args f)

/-- Whatever the context, a client lookup on a table leaves the world. -/
theorem run_findFirst_state {t : TableOf Row} {m : Delegate Row} {env : Env} (f : Where Row)
    (w : World) : (t.run (m.findFirst env f) w).2 = w :=
  run_read_state (by decide) _ _ w

section Lookups

variable {t : TableOf Row} {repo : BaseTenantRepository Row} {env : Env} {S : Option Id}

/-- A repository lookup finds the first row the merged filter admits. -/
theorem run_findFirst {f : Where Row} (hctx : env.context.Sees S)
    (hm : repo.delegate.model ∉ unscopedModels) (hknown : repo.Known f S) (w : World) :
    t.run (repo.findFirst env f) w =
      (.ok ((t.get w.db).find? ((repo.scopedWhere f S).admits repo.delegate)), w) :=
  run_of_read (BaseTenantRepository.findFirst_apply hctx hm hknown _)

/-- A lookup by primary key on a soft-deletable model finds the live row in scope. -/
theorem run_findById {column : DeletedAtColumn Row} (hctx : env.context.Sees S)
    (hm : repo.delegate.model ∉ unscopedModels) (hsoft : repo.softDeletable = true)
    (hcolumn : repo.delegate.deletedAt = some column) (id : Id) (w : World) :
    t.run (repo.findById env id) w =
      (.ok ((t.get w.db).find? fun r => repo.delegate.isRow r && id == TenantRow.id r &&
        visible S r && (column.get r).isNone), w) := by
  have hknown : repo.Known { id := some id } S :=
    BaseTenantRepository.known_of_absent S (fun _ => by rw [hcolumn]; rfl) rfl
  have hadmits : (repo.scopedWhere { id := some id } S).admits repo.delegate =
      fun r => repo.delegate.isRow r && id == TenantRow.id r && visible S r &&
        (column.get r).isNone := by
    funext r
    rw [BaseTenantRepository.scopedWhere_admits_scope (BaseTenantRepository.truthy_of_sees hctx),
      Where.admits_inScope _ _ rfl, hsoft, hcolumn]
    simp [Where.admits, ColumnKey.admits, hcolumn]
  unfold BaseTenantRepository.findById
  rw [run_findFirst hctx hm hknown, hadmits]

/-- A lookup by primary key on a model without tombstones finds the row in scope. -/
theorem run_findById_plain (hctx : env.context.Sees S)
    (hm : repo.delegate.model ∉ unscopedModels) (hsoft : repo.softDeletable = false) (id : Id)
    (w : World) :
    t.run (repo.findById env id) w =
      (.ok ((t.get w.db).find? fun r => repo.delegate.isRow r && id == TenantRow.id r &&
        visible S r), w) := by
  have hknown : repo.Known { id := some id } S :=
    BaseTenantRepository.known_of_absent S (fun h => by rw [hsoft] at h; cases h) rfl
  have hadmits : (repo.scopedWhere { id := some id } S).admits repo.delegate =
      fun r => repo.delegate.isRow r && id == TenantRow.id r && visible S r := by
    funext r
    rw [BaseTenantRepository.scopedWhere_admits_scope (BaseTenantRepository.truthy_of_sees hctx),
      Where.admits_inScope _ _ rfl, hsoft]
    simp [Where.admits, ColumnKey.admits]
    cases repo.delegate.deletedAt <;> simp
  unfold BaseTenantRepository.findById
  rw [run_findFirst hctx hm hknown, hadmits]

/-- A list read with a condition beside the primary key, on a model without tombstones,
starts with the first such row in scope. -/
theorem run_findMany_head {f : Where Row} (hctx : env.context.Sees S)
    (hm : repo.delegate.model ∉ unscopedModels) (hsoft : repo.softDeletable = false)
    (hf : f.deletedAt = .absent) (w : World) :
    ∃ found, t.run (repo.findMany env f {}) w = (.ok found, w) ∧
      found.head? = (t.get w.db).find? ((f.inScope S).admits repo.delegate) := by
  have hknown : repo.Known f S :=
    BaseTenantRepository.known_of_absent S (fun h => by rw [hsoft] at h; cases h) hf
  have hadmits : (repo.scopedWhere f S).admits repo.delegate =
      (f.inScope S).admits repo.delegate := by
    funext r
    rw [BaseTenantRepository.scopedWhere_admits_scope (BaseTenantRepository.truthy_of_sees hctx),
      hsoft]
    simp
  refine ⟨_, run_of_read (BaseTenantRepository.findMany_apply hctx hm hknown _), ?_⟩
  rw [hadmits, List.head?_take, if_neg (by decide), List.head?_filter]

/-- The client's own lookup by a unique key. -/
theorem run_delegate_findUnique {m : Delegate Row} {f : Where Row}
    (hctx : env.context.Sees S) (hm : m.model ∉ unscopedModels)
    (hknown : ({ whereArg := f } : Args Row).unknownColumn m = false) (w : World) :
    t.run (m.findUnique env f) w = (.ok ((t.get w.db).find? (f.admits m)), w) :=
  run_of_read (Delegate.findUnique_apply hctx hm hknown _)

end Lookups

/-! ## Writes inside a scope -/

section Writes

variable {t : TableOf Row} {repo : BaseTenantRepository Row} {env : Env} {S : Option Id}

/-- A client update on a table rewrites the rows in scope that the filter admits. -/
theorem run_update_ok {m : Delegate Row} {f : Where Row} {d : Payload Row}
    {a : Option Row} {w w' : World} (hctx : env.context.Sees S) (hm : m.model ∉ unscopedModels)
    (hknown : ({ whereArg := f, data := d } : Args Row).unknownColumn m = false)
    (hnested : d.nested = {}) (h : t.run (m.update env f d) w = (.ok a, w')) :
    ∃ target, (t.get w.db).find? ((f.inScope S).admits m) = some target ∧
      a = some (d.apply target) ∧
      w' = { w with db := t.set ((t.get w.db).map fun r =>
        if (f.inScope S).admits m r then d.apply r else r) w.db } := by
  rcases run_eq_ok h with ⟨s, hrun, _, rfl⟩
  rw [Delegate.update_apply hctx hm hknown hnested] at hrun
  split at hrun
  · cases hrun
  · rename_i target htarget
    split at hrun
    · cases hrun
      exact ⟨target, htarget, rfl, rfl⟩
    · cases hrun

/-- A client creation on a table appends one row, in scope. -/
theorem run_create_ok {m : Delegate Row} {d : Payload Row} {a : Option Row} {w w' : World}
    (hctx : env.context.Sees S) (hm : m.model ∉ unscopedModels)
    (hnested : d.nested = {}) (h : t.run (m.create env d) w = (.ok a, w')) :
    d.outside S = false ∧ a = some ((d.inScope S).apply (m.blank (env.uuid 0))) ∧
      ((d.inScope S).apply (m.blank (env.uuid 0)) ∈ t.get w.db ∨
        t.references w.db ((d.inScope S).apply (m.blank (env.uuid 0))) = true) ∧
      ({ rows := t.get w.db, uniqueKeys := t.uniqueKeys } : Store Row).accepts
        (t.get w.db ++ [(d.inScope S).apply (m.blank (env.uuid 0))]) = true ∧
      w' = { w with db := t.set (t.get w.db ++
        [(d.inScope S).apply (m.blank (env.uuid 0))]) w.db } := by
  rcases run_eq_ok h with ⟨s, hrun, hrefs, rfl⟩
  rw [Delegate.create_apply hctx hm hnested] at hrun
  split at hrun
  · cases hrun
  · rename_i hcross
    split at hrun <;> rename_i haccepts
    · cases hrun
      exact ⟨by simpa using hcross, rfl, hrefs _ (by simp), haccepts, rfl⟩
    · cases hrun

/-- The row with the id, as a scope sees it. -/
def ownRow (S : Option Id) (id : Id) (r : Row) : Bool :=
  id == TenantRow.id r && visible S r

omit [DecidableEq Row] in
/-- The statements of an update through a repository without tombstones. -/
theorem repository_update_eq (id : Id) (d : Payload Row) (hctx : env.context.Sees S)
    (hm : repo.delegate.model ∉ unscopedModels) (hsoft : repo.softDeletable = false)
    (hrow : ∀ r, repo.delegate.isRow r = true) (hnested : d.nested = {}) (s : Store Row) :
    repo.update env id d s =
      match s.rows.find? (ownRow S id) with
      | none => (.error (notFoundError id), s)
      | some target =>
          if s.accepts (s.rows.map fun r => if ownRow S id r then d.apply r else r) then
            (.ok (some (d.apply target)),
              { s with rows := s.rows.map fun r => if ownRow S id r then d.apply r else r })
          else (.error .constraintViolation, s) := by
  have hadmits : ∀ i, (({ id := some i } : Where Row).inScope S).admits repo.delegate =
      ownRow S i := by
    intro i
    funext r
    rw [Where.admits_inScope _ _ rfl]
    unfold ownRow
    simp only [Where.admits, hrow, ColumnKey.admits, Option.all_some, Bool.true_and,
      Bool.and_true]
    split <;> simp
  have hknown : repo.Known { id := some id } S :=
    BaseTenantRepository.known_of_absent S (fun h => by rw [hsoft] at h; cases h) rfl
  have hfind : (repo.scopedWhere { id := some id } S).admits repo.delegate = ownRow S id := by
    funext r
    rw [BaseTenantRepository.scopedWhere_admits_scope
      (BaseTenantRepository.truthy_of_sees hctx), hadmits, hsoft]
    simp
  have hlookup := BaseTenantRepository.findFirst_apply hctx hm hknown s
  rw [hfind] at hlookup
  cases hentity : s.rows.find? (ownRow S id) with
  | none =>
      rw [hentity] at hlookup
      unfold BaseTenantRepository.update BaseTenantRepository.onOwned
      rw [Fallible.bind_of_ok hlookup]
      rfl
  | some entity =>
      rw [hentity] at hlookup
      have hid : TenantRow.id entity = id := by
        have h := List.find?_some hentity
        simp only [ownRow, Bool.and_eq_true, beq_iff_eq] at h
        exact h.1.symm
      have hupdate : repo.update env id d s = repo.delegate.update env { id := some id } d s := by
        unfold BaseTenantRepository.update BaseTenantRepository.onOwned
        rw [Fallible.bind_of_ok hlookup]
        simp only [hid]
        rfl
      rw [hupdate, Delegate.update_apply hctx hm rfl hnested, hadmits, hentity]

omit [DecidableEq Row] in
/-- They rewrite the row with the id, in scope, or throw and leave the rows. -/
theorem repository_update_apply (id : Id) (d : Payload Row) (hctx : env.context.Sees S)
    (hm : repo.delegate.model ∉ unscopedModels) (hsoft : repo.softDeletable = false)
    (hrow : ∀ r, repo.delegate.isRow r = true) (hnested : d.nested = {}) (s : Store Row) :
    (∃ e, repo.update env id d s = (.error e, s)) ∨
      ∃ target, s.rows.find? (ownRow S id) = some target ∧
        repo.update env id d s = (.ok (some (d.apply target)),
          { s with rows := s.rows.map fun r => if ownRow S id r then d.apply r else r }) := by
  rw [repository_update_eq id d hctx hm hsoft hrow hnested s]
  cases s.rows.find? (ownRow S id) with
  | none => exact Or.inl ⟨_, rfl⟩
  | some target =>
      dsimp only
      split
      · exact Or.inr ⟨target, rfl, rfl⟩
      · exact Or.inl ⟨_, rfl⟩

/-- On a valid table an update that touches neither unique nor foreign keys goes through. -/
theorem run_repository_update_returns {d : Payload Row} {target : Row} {w : World} (id : Id)
    (hctx : env.context.Sees S) (hm : repo.delegate.model ∉ unscopedModels)
    (hsoft : repo.softDeletable = false) (hrow : ∀ r, repo.delegate.isRow r = true)
    (hnested : d.nested = {}) (hvalid : t.Valid w.db)
    (hkeys : ∀ key ∈ t.uniqueKeys, ∀ r, key (d.apply r) = key r)
    (hrefs : ∀ r, t.references w.db (d.apply r) = t.references w.db r)
    (hfind : (t.get w.db).find? (ownRow S id) = some target) :
    t.run (repo.update env id d) w = (.ok (some (d.apply target)),
      { w with db := t.set ((t.get w.db).map fun r =>
        if ownRow S id r then d.apply r else r) w.db }) := by
  have haccepts := accepts_map hvalid (f := fun r => if ownRow S id r then d.apply r else r)
    fun key hkey r => by
      split
      · exact hkeys key hkey r
      · rfl
  have hupdate := repository_update_eq id d hctx hm hsoft hrow hnested
    { rows := t.get w.db, uniqueKeys := t.uniqueKeys }
  simp only [hfind, haccepts, if_true] at hupdate
  refine run_of_ok hupdate fun r hr => Or.inr ?_
  rcases List.mem_map.mp hr with ⟨old, hold, rfl⟩
  split
  · rw [hrefs]
    exact hvalid.2 old hold
  · exact hvalid.2 old hold

/-- An update through a repository without tombstones rewrites the row with the id, in
scope, or throws and leaves the table. -/
theorem run_repository_update (id : Id) (d : Payload Row) (hctx : env.context.Sees S)
    (hm : repo.delegate.model ∉ unscopedModels) (hsoft : repo.softDeletable = false)
    (hrow : ∀ r, repo.delegate.isRow r = true) (hnested : d.nested = {}) (w : World) :
    (∃ e, t.run (repo.update env id d) w = (.error e, w)) ∨
      ∃ target, (t.get w.db).find? (ownRow S id) = some target ∧
        t.run (repo.update env id d) w = (.ok (some (d.apply target)),
          { w with db := t.set ((t.get w.db).map fun r =>
            if ownRow S id r then d.apply r else r) w.db }) := by
  rcases repository_update_apply id d hctx hm hsoft hrow hnested
    { rows := t.get w.db, uniqueKeys := t.uniqueKeys } with ⟨e, herror⟩ | ⟨target, hfind, hok⟩
  · exact Or.inl ⟨_, run_refused herror⟩
  · rcases hrun : t.run (repo.update env id d) w with ⟨e | a, w'⟩
    · refine Or.inl ⟨e, ?_⟩
      rw [run_error (fun e' s hx => ?_) hrun]
      rw [hok] at hx
      cases hx
    · rcases run_eq_ok hrun with ⟨s, hx, _, rfl⟩
      rw [hok] at hx
      cases hx
      exact Or.inr ⟨target, hfind, rfl⟩

/-- A creation through a repository appends one row, in scope, or throws and leaves the
table. -/
theorem run_repository_create (d : Payload Row) (hctx : env.context.Sees S)
    (hm : repo.delegate.model ∉ unscopedModels) (htenant : d.tenantId = none)
    (hnested : d.nested = {}) (w : World) :
    (∃ e, t.run (repo.create env d) w = (.error e, w)) ∨
      t.run (repo.create env d) w = (.ok (some (repo.created env S d)),
        { w with db := t.set (t.get w.db ++ [repo.created env S d]) w.db }) := by
  have hsame : (truthy d.tenantId.join && d.tenantId.join != S) = false := by
    rw [htenant]
    rfl
  have hcreate := BaseTenantRepository.create_apply repo hctx hm hnested hsame
    { rows := t.get w.db, uniqueKeys := t.uniqueKeys }
  rw [run_insert hcreate]
  split
  · exact Or.inr rfl
  · exact Or.inl ⟨_, rfl⟩

end Writes

end TableOf

/-! ## The tables and their repositories -/

def restaurants : TableOf Restaurant where
  get db := db.restaurants
  set rows db := { db with restaurants := rows }
  uniqueKeys := [fun r => some r.id]
  get_set _ _ := rfl
  set_get _ := rfl

def branches : TableOf Branch where
  get db := db.branches
  set rows db := { db with branches := rows }
  uniqueKeys := [fun r => some r.id]
  references db b := db.restaurants.any fun r => r.id == b.restaurantId
  get_set _ _ := rfl
  set_get _ := rfl

/-- The unique index on the token of a table leaves out deleted rows. -/
def tables : TableOf Table where
  get db := db.tables
  set rows db := { db with tables := rows }
  uniqueKeys := [fun r => some r.id, fun r =>
    if r.deletedAt.isNone then some r.qrCodeToken else none]
  references db r := db.branches.any fun b => b.id == r.branchId
  get_set _ _ := rfl
  set_get _ := rfl

def categories : TableOf Category where
  get db := db.categories
  set rows db := { db with categories := rows }
  uniqueKeys := [fun r => some r.id]
  references db c := db.restaurants.any fun r => r.id == c.restaurantId
  get_set _ _ := rfl
  set_get _ := rfl

def products : TableOf Product where
  get db := db.products
  set rows db := { db with products := rows }
  uniqueKeys := [fun r => some r.id]
  references db p := db.categories.any fun c => c.id == p.categoryId
  get_set _ _ := rfl
  set_get _ := rfl

def productSizes : TableOf ProductSize where
  get db := db.productSizes
  set rows db := { db with productSizes := rows }
  uniqueKeys := [fun r => some r.id]
  get_set _ _ := rfl
  set_get _ := rfl

def productVariants : TableOf ProductVariant where
  get db := db.productVariants
  set rows db := { db with productVariants := rows }
  uniqueKeys := [fun r => some r.id]
  get_set _ _ := rfl
  set_get _ := rfl

def addonItems : TableOf AddonItem where
  get db := db.addonItems
  set rows db := { db with addonItems := rows }
  uniqueKeys := [fun r => some r.id]
  get_set _ _ := rfl
  set_get _ := rfl

def discounts : TableOf Discount where
  get db := db.discounts
  set rows db := { db with discounts := rows }
  uniqueKeys := [fun r => some r.id, fun r => some (r.tenantId ++ " " ++ r.code)]
  get_set _ _ := rfl
  set_get _ := rfl

def orders : TableOf Order where
  get db := db.orders
  set rows db := { db with orders := rows }
  uniqueKeys := [fun r => some r.id]
  references db o := o.references db
  get_set _ _ := rfl
  set_get _ := rfl

def kitchenQueues : TableOf KitchenQueue where
  get db := db.kitchenQueues
  set rows db := { db with kitchenQueues := rows }
  uniqueKeys := [fun r => some r.id]
  references db q := db.orders.any fun o => o.id == q.orderId
  get_set _ _ := rfl
  set_get _ := rfl

def invoices : TableOf Invoice where
  get db := db.invoices
  set rows db := { db with invoices := rows }
  uniqueKeys := [fun r => some r.id, fun r => some r.orderId, fun r => some r.invoiceNumber]
  references db i := db.orders.any fun o => o.id == i.orderId
  get_set _ _ := rfl
  set_get _ := rfl

/-- The unique index on the email within a tenant leaves out deleted customers. -/
def liveEmailKey (r : Customer) : Option String :=
  if r.deletedAt.isNone then some (pairKey r.email r.tenantId) else none

def customers : TableOf Customer where
  get db := db.customers
  set rows db := { db with customers := rows }
  uniqueKeys := [fun r => some r.id, liveEmailKey]
  get_set _ _ := rfl
  set_get _ := rfl

def payments : TableOf Payment where
  get db := db.payments
  set rows db := { db with payments := rows }
  uniqueKeys := [fun r => some r.id]
  references db p := db.orders.any fun o => o.id == p.orderId
  get_set _ _ := rfl
  set_get _ := rfl

def subscriptions : TableOf Subscription where
  get db := db.subscriptions
  set rows db := { db with subscriptions := rows }
  uniqueKeys := [fun r => some r.id, fun r => some r.tenantId]
  references db s := db.tenants.any fun t => t.id == s.tenantId
  get_set _ _ := rfl
  set_get _ := rfl

def media : TableOf Media where
  get db := db.media
  set rows db := { db with media := rows }
  uniqueKeys := [fun r => some r.id]
  references db r := db.tenants.any fun t => t.id == r.tenantId
  get_set _ _ := rfl
  set_get _ := rfl

def roles : TableOf Role where
  get db := db.roles
  set rows db := { db with roles := rows }
  uniqueKeys := [fun r => some r.id, fun r => r.tenantId.map fun t => pairKey t r.name]
  references db r := r.tenantId.all (fun t => db.tenants.any fun tenant => tenant.id == t) &&
    r.permissionIds.Nodup &&
    r.permissionIds.all fun id => db.permissions.any fun p => p.id == id
  get_set _ _ := rfl
  set_get _ := rfl

/-- The unique index on the email within a tenant leaves out deleted rows. -/
def users : TableOf User where
  get db := db.users
  set rows db := { db with users := rows }
  uniqueKeys := [fun r => some r.id, fun r =>
    if r.deletedAt.isNone then r.tenantId.map fun t => pairKey t r.email else none]
  references db u := u.tenantId.all (fun t => db.tenants.any fun tenant => tenant.id == t) &&
    u.roleIds.Nodup && u.roleIds.all (fun id => db.roles.any fun r => r.id == id) &&
    u.branchIds.Nodup && u.branchIds.all fun id => db.branches.any fun b => b.id == id
  get_set _ _ := rfl
  set_get _ := rfl

def branchRepository : BaseTenantRepository Branch :=
  { delegate := prisma.branch, softDeletable := true }

def restaurantRepository : BaseTenantRepository Restaurant :=
  { delegate := prisma.restaurant, softDeletable := true }

def tableRepository : BaseTenantRepository Table :=
  { delegate := prisma.table, softDeletable := true }

/-- {lit}`TenantTableRepository.findByQrCodeToken`: the live table of the tenant that holds the
token.  Without a tenant the filter is a null, which the column does not have. -/
def findByQrCodeToken (env : Env) (qrCodeToken : String) :
    Fallible (Store Table) ClientError (Option Table) := do
  let tenantId ← Fallible.reads fun _ => BaseTenantRepository.getTenantId env.context
  match tenantId with
  | none => Fallible.throw (.unknownArgument "tenantId")
  | some T =>
      tableRepository.delegate.findFirst env
        { tenantId := .filter fun t => t == some T
          deletedAt := .filter fun d => d == none
          rest := fun r => r.qrCodeToken == qrCodeToken }

def productRepository : BaseTenantRepository Product :=
  { delegate := prisma.product, softDeletable := true }

def categoryRepository : BaseTenantRepository Category :=
  { delegate := prisma.category, softDeletable := true }

def customerRepository : BaseTenantRepository Customer :=
  { delegate := prisma.customer, softDeletable := true }

def userRepository : BaseTenantRepository User :=
  { delegate := prisma.user, softDeletable := true }

def sizeRepository : BaseTenantRepository ProductSize :=
  { delegate := prisma.productSize }

def addonItemRepository : BaseTenantRepository AddonItem :=
  { delegate := prisma.addonItem }

def orderRepository : BaseTenantRepository Order :=
  { delegate := prisma.order }

def invoiceRepository : BaseTenantRepository Invoice :=
  { delegate := prisma.invoice }

def paymentRepository : BaseTenantRepository Payment :=
  { delegate := prisma.payment }

end Eleva
