import Eleva.Database.TenantScope
import Eleva.Foundation.Fallible

/-!
# Database - Tenant repositories

The base class of the repositories: every operation resolves the tenant of the
context, merges it into the caller's filter or payload, and goes through the
extended client.

Main results:

- Definitions {lit}`findById`, {lit}`findMany`, {lit}`create`, {lit}`update`, {lit}`delete`,
  {lit}`findByIdIncludingDeleted`, {lit}`softDelete`, {lit}`restore` and {lit}`count`.
- Theorem {lit}`scopedWhere_admits`: which rows the merged filter admits.
-/

namespace Eleva
namespace Database

open Foundation

variable {Row : Type} [TenantRow Row]

/-- What a call draws from its surroundings: the tenant context, the ids the
database generates and the clock. -/
structure Env where
  context : TenantContext
  uuid : ℕ → Id
  now : Timestamp

/-! ## What a context reaches -/

/-- The scope of a context: one tenant, or every tenant for a platform owner without
one. -/
def TenantContext.Sees (context : TenantContext) : Option Id → Prop
  | some T => context.Holds T
  | none => truthy context.tenantId = false ∧ context.isPlatformOwner = true

/-- A context sees one scope. -/
theorem TenantContext.Sees.unique {context : TenantContext} {S S' : Option Id}
    (hctx : context.Sees S) (hctx' : context.Sees S') : S = S' := by
  have hnone : ∀ T', context.Holds T' → truthy context.tenantId = true := fun T' h => by
    rw [h.tenantId]
    simp [truthy, h.nonempty]
  cases S with
  | none =>
      cases S' with
      | none => rfl
      | some T' => exact absurd (hnone T' hctx') (by rw [hctx.1]; exact Bool.false_ne_true)
  | some T =>
      cases S' with
      | none => exact absurd (hnone T hctx) (by rw [hctx'.1]; exact Bool.false_ne_true)
      | some T' => exact hctx.tenantId.symm.trans hctx'.tenantId

/-- A {lit}`where` object as the extension hands it on inside a scope. -/
def Where.inScope (w : Where Row) (S : Option Id) : Where Row :=
  S.elim w w.withTenant

/-- A {lit}`data` object as the extension hands it on inside a scope. -/
def Payload.inScope (d : Payload Row) (S : Option Id) : Payload Row :=
  S.elim d d.withTenant

/-- The arguments as the extension hands them on inside a scope. -/
def Args.inScope (args : Args Row) (S : Option Id) (op : Operation) : Args Row :=
  S.elim args fun T => args.forTenant T op

/-- Whether the extension itself throws inside a scope. -/
def Args.refused (args : Args Row) (S : Option Id) (op : Operation) : Prop :=
  ∃ T ∈ S, args.blocked T op

/-- Whether a {lit}`data` object names a tenant outside a scope. -/
def Payload.outside (d : Payload Row) (S : Option Id) : Bool :=
  S.any d.crossTenant

/-- The row is in scope. -/
def visible (S : Option Id) (r : Row) : Bool :=
  S.all fun T => owned T r

section Scopes

variable {context : TenantContext} {m : Delegate Row} {S : Option Id}

/-- A call that the extension does not refuse runs with the arguments of the scope. -/
theorem call_of_sees (hctx : context.Sees S) (hm : m.model ∉ unscopedModels)
    {op : Operation} {args : Args Row} (hopen : ¬args.refused S op)
    (uuid : ℕ → Id) (db : Store Row) :
    call context m uuid op args db = exec m uuid op (args.inScope S op) db := by
  cases S with
  | some T => exact call_of_not_blocked hctx hm (fun hblocked => hopen ⟨T, rfl, hblocked⟩) uuid db
  | none =>
      rcases hctx with ⟨htenant, howner⟩
      unfold call scope
      simp only [List.contains_eq_mem, hm, decide_false, Bool.false_eq_true, if_false, htenant,
        howner, if_true]
      cases context.tenantId <;> rfl

@[simp]
theorem Args.unknownColumn_inScope (args : Args Row) (S : Option Id) (op : Operation) :
    (args.inScope S op).unknownColumn m = args.unknownColumn m := by
  cases S with
  | none => rfl
  | some T => exact Args.unknownColumn_forTenant args T op

/-- The rows that a filter admits inside a scope. -/
theorem Where.admits_inScope (w : Where Row) (S : Option Id) (hw : w.tenantId = .absent)
    (r : Row) :
    (w.inScope S).admits m r =
      (w.admits m r && visible S r) := by
  unfold visible
  cases S with
  | none => simp [Where.inScope]
  | some T =>
      simp only [Where.inScope, Option.elim_some, Where.withTenant, Where.admits, hw,
        ColumnKey.admits, Option.all_some, Bool.and_true, owned]
      cases m.isRow r <;> cases w.id.all (fun i => i == TenantRow.id r) <;>
        cases (TenantRow.tenantId r == some T) <;> simp

theorem Args.inScope_where {args : Args Row} {S : Option Id} {op : Operation}
    (hop : op ∈ filteredOperations) :
    args.inScope S op = { args with whereArg := args.whereArg.inScope S } := by
  cases S with
  | none => rfl
  | some T => simp [Args.inScope, Where.inScope, Args.forTenant, hop]

theorem Args.inScope_create {args : Args Row} {S : Option Id} :
    args.inScope S .create = { args with data := args.data.inScope S } := by
  cases S with
  | none => rfl
  | some T => simp [Args.inScope, Payload.inScope, Args.forTenant, filteredOperations]

theorem Args.inScope_findUnique {args : Args Row} {S : Option Id} :
    args.inScope S .findUnique = args := by
  cases S with
  | none => rfl
  | some T => simp [Args.inScope, Args.forTenant, filteredOperations]

end Scopes

/-! ## Statements -/

/-- The rows of a result. -/
def Result.found {Row : Type} (result : Result Row) : List Row :=
  match result with
  | .rows found => found.map Prod.fst
  | .count _ => []

/-- The rows of the result are the rows the operation handed back. -/
theorem Root.found_outcome {t : Root Row} (ht : t.counted = none) (args : Args Row) :
    (t.outcome args).result.found = t.returned := by
  simp [Root.outcome, ht, Result.found, Function.comp_def]

/-- The number of a result. -/
def Result.number {Row : Type} (result : Result Row) : ℕ :=
  match result with
  | .rows _ => 0
  | .count n => n

section Client

variable {σ : Type} [Engine σ Row]

/-- One statement of the extended client: it replaces the rows, or throws and
leaves them. -/
def invoke (env : Env) (m : Delegate Row) (op : Operation) (args : Args Row) :
    Fallible σ ClientError (Result Row) := fun db =>
  match call env.context m env.uuid op args db with
  | .ok out => (.ok out.result, Engine.leave m db out.rows)
  | .error e => (.error e, db)

/-- The client's own {lit}`findFirst`. -/
def Delegate.findFirst (m : Delegate Row) (env : Env) (w : Where Row) :
    Fallible σ ClientError (Option Row) := do
  let result ← invoke env m .findFirst { whereArg := w }
  return result.found.head?

/-- The argument object that names a row by its id. -/
def Args.ofId (id : Id) : Args Row :=
  { whereArg := { id := some id } }

/-- The argument object of a creation. -/
def Args.ofData (data : Payload Row) : Args Row :=
  { data := data }

/-- The argument object of a page of rows. -/
def Args.page (w : Where Row) (take : ℕ) (orderBy : Option (Row → Row → Bool) := none) :
    Args Row where
  whereArg := w
  orderBy := orderBy
  take := some take

/-- The client's own {lit}`findUnique`. -/
def Delegate.findUnique (m : Delegate Row) (env : Env) (w : Where Row) :
    Fallible σ ClientError (Option Row) := do
  let result ← invoke env m .findUnique { whereArg := w }
  return result.found.head?

/-- The client's own {lit}`findMany`. -/
def Delegate.findMany (m : Delegate Row) (env : Env) (w : Where Row) :
    Fallible σ ClientError (List Row) := do
  let result ← invoke env m .findMany { whereArg := w }
  return result.found

/-- The client's own {lit}`count`. -/
def Delegate.count (m : Delegate Row) (env : Env) (w : Where Row) :
    Fallible σ ClientError ℕ := do
  let result ← invoke env m .count { whereArg := w }
  return result.number

/-- The client's own {lit}`create`. -/
def Delegate.create (m : Delegate Row) (env : Env) (data : Payload Row) :
    Fallible σ ClientError (Option Row) := do
  let result ← invoke env m .create { data := data }
  return result.found.head?

/-- The client's own {lit}`update`. -/
def Delegate.update (m : Delegate Row) (env : Env) (w : Where Row) (data : Payload Row) :
    Fallible σ ClientError (Option Row) := do
  let result ← invoke env m .update { whereArg := w, data := data }
  return result.found.head?

/-- The client's own {lit}`updateMany`. -/
def Delegate.updateMany (m : Delegate Row) (env : Env) (w : Where Row) (data : Payload Row) :
    Fallible σ ClientError ℕ := do
  let result ← invoke env m .updateMany { whereArg := w, data := data }
  return result.number

/-- The client's own {lit}`deleteMany`. -/
def Delegate.deleteMany (m : Delegate Row) (env : Env) (w : Where Row) :
    Fallible σ ClientError ℕ := do
  let result ← invoke env m .deleteMany { whereArg := w }
  return result.number

end Client

/-! ## Statements on a scoped model -/

section Statements

variable {m : Delegate Row} {env : Env} {S : Option Id} {db : Store Row}

theorem not_blocked {args : Args Row} {op : Operation} {T : Id}
    (hop : op ∈ [.findUnique, .findFirst, .findMany, .count, .update, .delete]) :
    ¬args.blocked T op := by
  simp only [List.mem_cons, List.not_mem_nil, or_false] at hop
  rcases hop with rfl | rfl | rfl | rfl | rfl | rfl <;>
    simp [Args.blocked, unsupportedOperations]

theorem not_refused {args : Args Row} {op : Operation}
    (hop : op ∈ [.findUnique, .findFirst, .findMany, .count, .update, .delete]) :
    ¬args.refused S op := by
  rintro ⟨T, _, hblocked⟩
  exact not_blocked hop hblocked

/-- A statement that only reads hands back what it found and leaves the rows. -/
theorem invoke_read {op : Operation} {args : Args Row} {t : Root Row}
    (hctx : env.context.Sees S) (hm : m.model ∉ unscopedModels)
    (hop : op ∈ [.findUnique, .findFirst, .findMany, .count, .update, .delete])
    (hknown : args.unknownColumn m = false)
    (ht : root m env.uuid op (args.inScope S op) db.rows = .ok t)
    (hread : t.changes = []) (hrows : t.rows = db.rows) (hnested : t.nested = {}) :
    invoke env m op args db = (.ok (t.outcome (args.inScope S op)).result, db) := by
  have hnestedChanges : t.nestedChanges = [] := by
    unfold Root.nestedChanges
    rw [hnested]
    split
    · simp [Nested.changes]
    · rfl
  have hafter : t.after = db.rows := (Root.after_of_no_nested hnested).trans hrows
  unfold invoke
  rw [call_of_sees hctx hm (not_refused hop), exec_of_knownColumn (by simpa using hknown), ht]
  simp [Root.outcome, hread, hnestedChanges, hafter]

/-- The extension lets a call on a scoped model through in a scope only. -/
theorem sees_of_scope_ok {context : TenantContext} {op : Operation} {args args' : Args Row}
    (hm : m.model ∉ unscopedModels) (h : scope context m op args = .ok args') :
    ∃ S, context.Sees S := by
  unfold scope at h
  simp only [List.contains_eq_mem, hm, decide_false, Bool.false_eq_true, if_false] at h
  cases htenant : truthy context.tenantId with
  | true =>
      cases hT : context.tenantId with
      | none =>
          rw [hT] at htenant
          cases htenant
      | some T =>
          rw [hT] at htenant
          exact ⟨some T, ⟨hT, by simpa [truthy] using htenant⟩⟩
  | false =>
      cases howner : context.isPlatformOwner with
      | true => exact ⟨none, htenant, howner⟩
      | false =>
          rw [htenant, howner] at h
          split at h
          · rename_i hfalse
            cases hfalse
          · cases h

/-- A statement on a scoped model answers in a scope only. -/
theorem sees_of_invoke_ok {op : Operation} {args : Args Row} {result : Result Row}
    {db' : Store Row} (hm : m.model ∉ unscopedModels)
    (h : invoke env m op args db = (.ok result, db')) : ∃ S, env.context.Sees S := by
  unfold invoke call at h
  cases hscope : scope env.context m op args with
  | error e =>
      rw [hscope] at h
      cases h
  | ok args' => exact sees_of_scope_ok hm hscope

/-- {lit}`findFirst`: the first row in scope that the filter admits. -/
theorem Delegate.findFirst_apply {w : Where Row} (hctx : env.context.Sees S)
    (hm : m.model ∉ unscopedModels)
    (hknown : ({ whereArg := w } : Args Row).unknownColumn m = false) (db : Store Row) :
    m.findFirst env w db = (.ok (db.rows.find? ((w.inScope S).admits m)), db) := by
  unfold Delegate.findFirst
  rw [Fallible.bind_of_ok (invoke_read hctx hm (by simp) hknown rfl rfl rfl rfl),
    Fallible.pure_apply, Root.found_outcome rfl, Args.inScope_where (by simp [filteredOperations])]
  simp [findRoot, Args.arrange, List.head?_take]

/-- {lit}`findMany`: the rows in scope that the filter admits. -/
theorem Delegate.findMany_apply {w : Where Row} (hctx : env.context.Sees S)
    (hm : m.model ∉ unscopedModels)
    (hknown : ({ whereArg := w } : Args Row).unknownColumn m = false) (db : Store Row) :
    m.findMany env w db = (.ok (db.rows.filter ((w.inScope S).admits m)), db) := by
  unfold Delegate.findMany
  rw [Fallible.bind_of_ok (invoke_read hctx hm (by simp) hknown rfl rfl rfl rfl),
    Fallible.pure_apply, Root.found_outcome rfl, Args.inScope_where (by simp [filteredOperations])]
  simp [findRoot, Args.arrange]

/-- {lit}`count`: the number of rows in scope that the filter admits. -/
theorem Delegate.count_apply {w : Where Row} (hctx : env.context.Sees S)
    (hm : m.model ∉ unscopedModels)
    (hknown : ({ whereArg := w } : Args Row).unknownColumn m = false) (db : Store Row) :
    m.count env w db = (.ok (db.rows.filter ((w.inScope S).admits m)).length, db) := by
  unfold Delegate.count
  rw [Fallible.bind_of_ok (invoke_read hctx hm (by simp) hknown rfl rfl rfl rfl),
    Fallible.pure_apply, Args.inScope_where (by simp [filteredOperations])]
  simp [Result.number, Root.outcome, Args.arrange]

/-- {lit}`findUnique`: the first row that the filter admits, in any tenant. -/
theorem Delegate.findUnique_apply {w : Where Row} (hctx : env.context.Sees S)
    (hm : m.model ∉ unscopedModels)
    (hknown : ({ whereArg := w } : Args Row).unknownColumn m = false) (db : Store Row) :
    m.findUnique env w db = (.ok (db.rows.find? (w.admits m)), db) := by
  unfold Delegate.findUnique
  rw [Fallible.bind_of_ok (invoke_read hctx hm (by simp) hknown rfl rfl rfl rfl),
    Fallible.pure_apply, Root.found_outcome rfl, Args.inScope_findUnique]
  simp [findRoot, List.head?_take]

/-- A statement that writes the addressed model only leaves its new rows, unless a
constraint refuses them. -/
theorem invoke_write {op : Operation} {args : Args Row} {t : Root Row}
    (hctx : env.context.Sees S) (hm : m.model ∉ unscopedModels)
    (hopen : ¬args.refused S op) (hknown : args.unknownColumn m = false)
    (ht : root m env.uuid op (args.inScope S op) db.rows = .ok t)
    (hwrite : t.changes ≠ []) (hnested : t.nested = {}) :
    invoke env m op args db =
      if db.accepts t.rows then
        (.ok (t.outcome (args.inScope S op)).result, { db with rows := t.rows })
      else (.error .constraintViolation, db) := by
  have hafter : t.after = t.rows := Root.after_of_no_nested hnested
  unfold invoke
  rw [call_of_sees hctx hm hopen, exec_of_knownColumn (by simpa using hknown), ht]
  cases haccepts : db.accepts t.rows with
  | true => simp [Root.outcome, hafter, haccepts]
  | false => simp [Root.outcome, hafter, haccepts, hwrite]

/-- A statement that writes the addressed model only, and keeps to the constraints. -/
theorem invoke_accepted {op : Operation} {args : Args Row} {t : Root Row}
    (hctx : env.context.Sees S) (hm : m.model ∉ unscopedModels)
    (hopen : ¬args.refused S op) (hknown : args.unknownColumn m = false)
    (ht : root m env.uuid op (args.inScope S op) db.rows = .ok t)
    (haccepts : db.accepts t.rows = true) (hnested : t.nested = {}) :
    invoke env m op args db =
      (.ok (t.outcome (args.inScope S op)).result, { db with rows := t.rows }) := by
  have hafter : t.after = t.rows := Root.after_of_no_nested hnested
  unfold invoke
  rw [call_of_sees hctx hm hopen, exec_of_knownColumn (by simpa using hknown), ht]
  simp [Root.outcome, hafter, haccepts]

/-- A statement that the client refuses leaves the rows. -/
theorem invoke_refused {op : Operation} {args : Args Row} {e : ClientError}
    (hctx : env.context.Sees S) (hm : m.model ∉ unscopedModels)
    (hopen : ¬args.refused S op) (hknown : args.unknownColumn m = false)
    (ht : root m env.uuid op (args.inScope S op) db.rows = .error e) :
    invoke env m op args db = (.error e, db) := by
  unfold invoke
  rw [call_of_sees hctx hm hopen, exec_of_knownColumn (by simpa using hknown), ht]

/-- {lit}`create` without nested writes: the new row, in scope, unless the payload names
a tenant outside it or a constraint refuses it. -/
theorem Delegate.create_apply {d : Payload Row} (hctx : env.context.Sees S)
    (hm : m.model ∉ unscopedModels) (hnested : d.nested = {}) (db : Store Row) :
    m.create env d db =
      if d.outside S then (.error crossTenantError, db)
      else if db.accepts (db.rows ++ [(d.inScope S).apply (m.blank (env.uuid 0))]) then
        (.ok (some ((d.inScope S).apply (m.blank (env.uuid 0)))),
          { db with rows := db.rows ++ [(d.inScope S).apply (m.blank (env.uuid 0))] })
      else (.error .constraintViolation, db) := by
  unfold Delegate.create
  cases houtside : d.outside S with
  | true =>
      have hinvoke : invoke env m .create { data := d } db = (.error crossTenantError, db) := by
        cases S with
        | none => cases houtside
        | some T =>
            have hcross : d.crossTenant T = true := houtside
            unfold invoke
            rw [call_of_holds hctx hm, hcross]
            rfl
      rw [Fallible.bind_of_error hinvoke, if_pos rfl]
  | false =>
      have hopen : ¬({ data := d } : Args Row).refused S .create := by
        rintro ⟨T, rfl, hop | ⟨_, hcross⟩⟩
        · simp [unsupportedOperations] at hop
        · rw [Payload.outside, Option.any_some, hcross] at houtside
          cases houtside
      have hroot : root m env.uuid .create (({ data := d } : Args Row).inScope S .create)
          db.rows = .ok (createRoot m env.uuid (d.inScope S) db.rows) := by
        rw [Args.inScope_create]
        rfl
      have hnested' : (createRoot m env.uuid (d.inScope S) db.rows).nested = {} := by
        cases S <;> exact hnested
      have hinvoke := invoke_write hctx hm hopen rfl hroot (List.cons_ne_nil _ _) hnested'
      have hrows : (createRoot m env.uuid (d.inScope S) db.rows).rows =
          db.rows ++ [(d.inScope S).apply (m.blank (env.uuid 0))] := rfl
      rw [hrows] at hinvoke
      rw [if_neg Bool.false_ne_true]
      split <;> rename_i haccepts
      · rw [if_pos haccepts] at hinvoke
        rw [Fallible.bind_of_ok hinvoke, Fallible.pure_apply, Root.found_outcome rfl]
        rfl
      · rw [if_neg haccepts] at hinvoke
        rw [Fallible.bind_of_error hinvoke]

/-- {lit}`update` without nested writes: the rows in scope that the filter admits are
rewritten, unless there are none or a constraint refuses it. -/
theorem Delegate.update_apply {w : Where Row} {d : Payload Row} (hctx : env.context.Sees S)
    (hm : m.model ∉ unscopedModels)
    (hknown : ({ whereArg := w, data := d } : Args Row).unknownColumn m = false)
    (hnested : d.nested = {}) (db : Store Row) :
    m.update env w d db =
      match db.rows.find? ((w.inScope S).admits m) with
      | none => (.error .recordNotFound, db)
      | some target =>
          if db.accepts (db.rows.map fun r =>
              if (w.inScope S).admits m r then d.apply r else r) then
            (.ok (some (d.apply target)),
              { db with rows := db.rows.map fun r =>
                  if (w.inScope S).admits m r then d.apply r else r })
          else (.error .constraintViolation, db) := by
  have hopen : ¬({ whereArg := w, data := d } : Args Row).refused S .update :=
    not_refused (by simp)
  have hargs : ({ whereArg := w, data := d } : Args Row).inScope S .update =
      { whereArg := w.inScope S, data := d } :=
    Args.inScope_where (by simp [filteredOperations])
  unfold Delegate.update
  cases hfind : db.rows.find? ((w.inScope S).admits m) with
  | none =>
      have hnone : db.rows.filter ((w.inScope S).admits m) = [] := by
        rw [List.filter_eq_nil_iff]
        exact List.find?_eq_none.mp hfind
      have hroot : root m env.uuid .update
          (({ whereArg := w, data := d } : Args Row).inScope S .update) db.rows =
            .error .recordNotFound := by
        rw [hargs]
        simp [root, hnone]
      rw [Fallible.bind_of_error (invoke_refused hctx hm hopen hknown hroot)]
  | some target =>
      have hhead : (db.rows.filter ((w.inScope S).admits m)).head? = some target := by
        rw [List.head?_filter, hfind]
      rcases List.head?_eq_some_iff.mp hhead with ⟨rest, hfilter⟩
      have hroot : root m env.uuid .update
          (({ whereArg := w, data := d } : Args Row).inScope S .update) db.rows =
            .ok (updateRoot ((w.inScope S).admits m) d target db.rows) := by
        rw [hargs]
        simp [root, hfilter]
      have hwrite : (updateRoot ((w.inScope S).admits m) d target db.rows).changes ≠ [] := by
        simp [updateRoot, hfilter]
      have hrows : (updateRoot ((w.inScope S).admits m) d target db.rows).rows =
          db.rows.map fun r => if (w.inScope S).admits m r then d.apply r else r := rfl
      have hinvoke := invoke_write hctx hm hopen hknown hroot hwrite hnested
      rw [hrows] at hinvoke
      simp only
      split <;> rename_i haccepts
      · rw [if_pos haccepts] at hinvoke
        rw [Fallible.bind_of_ok hinvoke, Fallible.pure_apply, Root.found_outcome rfl]
        rfl
      · rw [if_neg haccepts] at hinvoke
        rw [Fallible.bind_of_error hinvoke]

/-- What {lit}`updateMany` does to the addressed model. -/
def updateManyRoot (matching : Row → Bool) (d : Payload Row) (rows : List Row) : Root Row where
  returned := []
  seen := rows.filter matching
  changes := (rows.filter matching).map fun r => (some r, some (d.apply r))
  rows := rows.map fun r => if matching r then d.apply r else r
  counted := some (rows.filter matching).length

/-- {lit}`updateMany` in the scope of every tenant: the rows that the filter admits are
rewritten, when the constraints accept it. -/
theorem Delegate.updateMany_apply {w : Where Row} {d : Payload Row}
    (hctx : env.context.Sees none) (hm : m.model ∉ unscopedModels)
    (hknown : ({ whereArg := w, data := d } : Args Row).unknownColumn m = false)
    (db : Store Row)
    (haccepts : db.accepts (db.rows.map fun r => if w.admits m r then d.apply r else r) = true) :
    ∃ n, m.updateMany env w d db =
      (.ok n, { db with rows := db.rows.map fun r => if w.admits m r then d.apply r else r }) := by
  have hopen : ¬({ whereArg := w, data := d } : Args Row).refused none .updateMany := by
    rintro ⟨T, hT, _⟩
    cases hT
  have hinvoke := invoke_accepted (t := updateManyRoot (w.admits m) d db.rows) hctx hm hopen
    hknown rfl haccepts rfl
  exact ⟨_, Fallible.bind_of_ok hinvoke⟩

/-- In any other scope, and without a context, {lit}`updateMany` is refused. -/
theorem Delegate.updateMany_refused {w : Where Row} {d : Payload Row}
    (hctx : ¬env.context.Sees none) (hm : m.model ∉ unscopedModels) (db : Store Row) :
    ∃ e, m.updateMany env w d db = (.error e, db) := by
  have hscope : ∃ e, scope env.context m .updateMany { whereArg := w, data := d } = .error e := by
    unfold scope
    simp only [List.contains_eq_mem, hm, decide_false, Bool.false_eq_true, if_false]
    cases htenant : truthy env.context.tenantId with
    | true =>
        cases hT : env.context.tenantId with
        | none =>
            rw [hT] at htenant
            cases htenant
        | some T => exact ⟨_, rfl⟩
    | false =>
        have howner : env.context.isPlatformOwner = false := by
          cases howner : env.context.isPlatformOwner with
          | false => rfl
          | true => exact absurd ⟨htenant, howner⟩ hctx
        rw [howner]
        refine ⟨missingContextError m.model, ?_⟩
        cases env.context.tenantId <;> rfl
  rcases hscope with ⟨e, hscope⟩
  refine ⟨e, ?_⟩
  unfold Delegate.updateMany
  refine Fallible.bind_of_error ?_
  unfold invoke call
  rw [hscope]

/-- Whatever the context, an operation that only reads leaves the rows. -/
theorem invoke_read_state {op : Operation} (hop : op ∈ readOperations) (args : Args Row) :
    (invoke env m op args db).2 = db := by
  unfold invoke call
  cases hscope : scope env.context m op args with
  | error e => rfl
  | ok args' =>
      simp only [Engine.exec_store, Engine.leave_store]
      cases hexec : exec m env.uuid op args' db with
      | error e => rfl
      | ok out =>
          have hrows : out.rows = db.rows := by
            unfold exec at hexec
            split at hexec
            · cases hexec
            · split at hexec
              · cases hexec
              · rename_i t ht
                have hroot : t.rows = db.rows ∧ t.nested = {} := by
                  simp only [readOperations, List.mem_cons, List.not_mem_nil, or_false] at hop
                  rcases hop with rfl | rfl | rfl | rfl | rfl | rfl | rfl | rfl <;>
                    simp only [root] at ht
                  case inr.inl =>
                    split at ht <;> cases ht
                    exact ⟨rfl, rfl⟩
                  case inr.inr.inr.inl =>
                    split at ht <;> cases ht
                    exact ⟨rfl, rfl⟩
                  all_goals
                    cases ht
                    exact ⟨rfl, rfl⟩
                split at hexec
                · cases hexec
                  exact (Root.after_of_no_nested hroot.2).trans hroot.1
                · cases hexec
          simp only [hrows]

/-- The extension hands the {lit}`data` object of an update on as it is. -/
theorem scope_data {context : TenantContext} {op : Operation} {args args' : Args Row}
    (hop : op = .update ∨ op = .updateMany) (h : scope context m op args = .ok args') :
    args'.data = args.data := by
  unfold scope at h
  split at h
  · cases h
    rfl
  · split at h
    · split at h
      · cases h
      · split at h
        · cases h
          rfl
        · split at h
          · rename_i hcreate
            rcases hop with rfl | rfl <;> cases hcreate
          · cases h
            rfl
    · split at h
      · cases h
        rfl
      · cases h

/-- Whatever the context, an update without nested writes rewrites some rows with its
{lit}`data` object and leaves the others. -/
theorem invoke_rewrites {op : Operation} {args : Args Row}
    (hop : op = .update ∨ op = .updateMany) (hnested : args.data.nested = {}) :
    ∃ p : Row → Bool, (invoke env m op args db).2.rows =
      db.rows.map fun r => if p r then args.data.apply r else r := by
  have hnone : db.rows = db.rows.map fun r => if false = true then args.data.apply r else r := by
    simp
  unfold invoke call
  cases hscope : scope env.context m op args with
  | error e => exact ⟨fun _ => false, hnone⟩
  | ok args' =>
      have hdata := scope_data hop hscope
      simp only [Engine.exec_store, Engine.leave_store]
      cases hexec : exec m env.uuid op args' db with
      | error e => exact ⟨fun _ => false, hnone⟩
      | ok out =>
          refine ⟨args'.whereArg.admits m, ?_⟩
          unfold exec at hexec
          rw [← hdata]
          split at hexec
          · cases hexec
          · split at hexec
            · cases hexec
            · rename_i t ht
              split at hexec
              · cases hexec
                rw [← hdata] at hnested
                rcases hop with rfl | rfl
                · simp only [root] at ht
                  split at ht
                  · cases ht
                  · rename_i target rest _
                    cases ht
                    exact Root.after_of_no_nested (t := updateRoot (args'.whereArg.admits m)
                      args'.data target db.rows) hnested
                · cases ht
                  exact Root.after_of_no_nested (t := updateManyRoot (args'.whereArg.admits m)
                    args'.data db.rows) rfl
              · cases hexec

/-- Handing on a part of a statement's answer leaves what the statement left. -/
theorem state_of_answer {α : Type} (op : Operation) (args : Args Row) (f : Result Row → α) :
    ((do let result ← invoke env m op args; return f result :
      Fallible (Store Row) ClientError α) db).2 = (invoke env m op args db).2 := by
  rw [Fallible.bind_apply]
  rcases invoke env m op args db with ⟨_ | result, db'⟩ <;> rfl

/-- Whatever the context, a lookup leaves the rows. -/
theorem Delegate.findFirst_state (w : Where Row) : (m.findFirst env w db).2 = db := by
  unfold Delegate.findFirst
  rw [state_of_answer]
  exact invoke_read_state (by decide) _

theorem Delegate.update_rewrites (w : Where Row) {d : Payload Row} (hnested : d.nested = {}) :
    ∃ p : Row → Bool, (m.update env w d db).2.rows =
      db.rows.map fun r => if p r then d.apply r else r := by
  unfold Delegate.update
  rw [state_of_answer]
  exact invoke_rewrites (Or.inl rfl) hnested

theorem Delegate.updateMany_rewrites (w : Where Row) {d : Payload Row} (hnested : d.nested = {}) :
    ∃ p : Row → Bool, (m.updateMany env w d db).2.rows =
      db.rows.map fun r => if p r then d.apply r else r := by
  unfold Delegate.updateMany
  rw [state_of_answer]
  exact invoke_rewrites (Or.inr rfl) hnested

end Statements

/-- A repository: its delegate, and whether its reads filter the soft-deleted. -/
structure BaseTenantRepository (Row : Type) [TenantRow Row] where
  delegate : Delegate Row
  softDeletable : Bool := false

/-- The page window of a list read. -/
structure FindManyOptions (Row : Type) where
  take : Option ℕ := none
  skip : Option ℕ := none
  orderBy : Option (Row → Row → Bool) := none

def missingTenantError : ClientError :=
  .failSafe "Fail-Safe Block: Access denied due to missing or unresolved tenant context."

def notFoundError (id : Id) : ClientError :=
  .failSafe ("Fail-Safe Block: The requested resource with ID [" ++ id ++
    "] was not found or is inaccessible under this tenant context.")

namespace BaseTenantRepository

/-- Default safety cap for list reads. -/
def DEFAULT_MAX_ROWS : ℕ := 500

/-- The active tenant of the context; platform owners have none. -/
def getTenantId (context : TenantContext) : Except ClientError (Option Id) :=
  if context.isPlatformOwner && !truthy context.tenantId then .ok none
  else if truthy context.tenantId then .ok context.tenantId
  else .error missingTenantError

section Operations

variable {σ : Type} [Engine σ Row] (repo : BaseTenantRepository Row) (env : Env)

/-- The caller's filter with the tenant spread over it and, unless the caller
supplied the key, the predicate that hides the soft-deleted. -/
def scopedWhere (w : Where Row) (tenantId : Option Id) : Where Row :=
  let base := match tenantId, truthy tenantId with
    | some T, true => w.withTenant T
    | _, _ => w
  match repo.softDeletable, base.deletedAt with
  | true, .absent => { base with deletedAt := .filter (fun d => d == none) }
  | _, _ => base

/-- The first row under the merged filter. -/
def findFirst (w : Where Row) : Fallible σ ClientError (Option Row) := do
  let tenantId ← Fallible.reads fun _ => getTenantId env.context
  repo.delegate.findFirst env (repo.scopedWhere w tenantId)

/-- Safe lookup by primary key. -/
def findById (id : Id) : Fallible σ ClientError (Option Row) :=
  repo.findFirst env { id := some id }

/-- Safe lookup of lists, bounded unless the caller asks for a window. -/
def findMany (w : Where Row) (options : FindManyOptions Row) :
    Fallible σ ClientError (List Row) := do
  let tenantId ← Fallible.reads fun _ => getTenantId env.context
  let result ← invoke env repo.delegate .findMany
    { whereArg := repo.scopedWhere w tenantId
      take := some (options.take.getD DEFAULT_MAX_ROWS)
      skip := options.skip.getD 0
      orderBy := options.orderBy }
  return result.found

/-- Safe creation, verifying and injecting the tenant. -/
def create (data : Payload Row) : Fallible σ ClientError (Option Row) := do
  let tenantId ← Fallible.reads fun _ => getTenantId env.context
  Fallible.throwIf (truthy data.tenantId.join && data.tenantId.join != tenantId)
    crossTenantError
  repo.delegate.create env { data with tenantId := some tenantId }

/-- Look the record up inside the tenant and run {lit}`op` on its id. -/
def onOwned (id : Id) (op : Operation) (data : Payload Row) :
    Fallible σ ClientError (Option Row) := do
  let entity ← repo.findFirst env { id := some id }
  match entity with
  | none => Fallible.throw (notFoundError id)
  | some entity =>
      let result ← invoke env repo.delegate op
        { whereArg := { id := some (TenantRow.id entity) }, data := data }
      return result.found.head?

/-- Safe update: the ownership of the record is validated first. -/
def update (id : Id) (data : Payload Row) : Fallible σ ClientError (Option Row) :=
  repo.onOwned env id .update data

/-- Safe deletion: the ownership of the record is validated first. -/
def delete (id : Id) : Fallible σ ClientError (Option Row) :=
  repo.onOwned env id .delete {}

/-- Lookup that includes soft-deleted rows: the {lit}`deletedAt` key is present with
the value {lit}`undefined`. -/
def findByIdIncludingDeleted (id : Id) : Fallible σ ClientError (Option Row) :=
  repo.findFirst env { id := some id, deletedAt := .undefined }

/-- {lit}`extraData` with {lit}`deletedAt` spread over it. -/
def withDeletedAt (column : DeletedAtColumn Row) (extraData : Payload Row)
    (t : Option Timestamp) : Payload Row where
  tenantId := extraData.tenantId
  assign r := column.set t (extraData.assign r)
  assign_tenantId r := by rw [column.tenantId_set, extraData.assign_tenantId]
  nested := extraData.nested

/-- Write {lit}`deletedAt` unless {lit}`unchanged` says that the record already has the
state asked for. -/
def setDeletedAt (id : Id) (extraData : Payload Row) (unchanged : Option Timestamp → Bool)
    (t : Option Timestamp) : Fallible σ ClientError (Option Row) := do
  let entity ← repo.findByIdIncludingDeleted env id
  match entity with
  | none => Fallible.throw (notFoundError id)
  | some entity =>
      let current := repo.delegate.deletedAt.bind fun column => column.get entity
      if unchanged current then return some entity
      else
        match repo.delegate.deletedAt with
        | none => Fallible.throw (.unknownArgument "deletedAt")
        | some column =>
            repo.delegate.update env { id := some (TenantRow.id entity) }
              (withDeletedAt column extraData t)

/-- Mark a record as soft-deleted; a record that is deleted already is returned. -/
def softDelete (id : Id) (extraData : Payload Row) :
    Fallible σ ClientError (Option Row) :=
  repo.setDeletedAt env id extraData Option.isSome (some env.now)

/-- Clear the tombstone; a record that is not deleted is returned. -/
def restore (id : Id) (extraData : Payload Row) :
    Fallible σ ClientError (Option Row) :=
  repo.setDeletedAt env id extraData Option.isNone none

/-- Safe count. -/
def count (w : Where Row) : Fallible σ ClientError ℕ := do
  let tenantId ← Fallible.reads fun _ => getTenantId env.context
  let result ← invoke env repo.delegate .count { whereArg := repo.scopedWhere w tenantId }
  return result.number

end Operations

/-! ## What the merged filter admits -/

theorem getTenantId_of_sees {context : TenantContext} {S : Option Id} (hctx : context.Sees S) :
    getTenantId context = .ok S := by
  unfold getTenantId
  cases S with
  | none => simp [hctx.1, hctx.2]
  | some T =>
      have htruthy : truthy (some T) = true := by
        simp [truthy, hctx.nonempty]
      rw [hctx.tenantId, htruthy]
      simp

theorem getTenantId_of_holds {context : TenantContext} {T : Id} (hctx : context.Holds T) :
    getTenantId context = .ok (some T) :=
  getTenantId_of_sees (S := some T) hctx

/-- The tenant of a scope is not the empty string. -/
theorem truthy_of_sees {context : TenantContext} {S : Option Id} (hctx : context.Sees S) :
    ∀ T ∈ S, T ≠ "" := by
  rintro T rfl
  exact hctx.nonempty

/-- The merged filter asks for the caller's id. -/
theorem scopedWhere_id (repo : BaseTenantRepository Row) (w : Where Row) (tenantId : Option Id) :
    (repo.scopedWhere w tenantId).id = w.id := by
  unfold scopedWhere
  simp only
  split <;> split <;> rfl

/-- The merged filter of a context that has its scope. -/
theorem scopedWhere_eq {repo : BaseTenantRepository Row} {w : Where Row} {S : Option Id}
    (hS : ∀ T ∈ S, T ≠ "") :
    repo.scopedWhere w S =
      match repo.softDeletable, (w.inScope S).deletedAt with
      | true, .absent => { w.inScope S with deletedAt := .filter (fun d => d == none) }
      | _, _ => w.inScope S := by
  cases S with
  | none => rfl
  | some T =>
      have htruthy : truthy (some T) = true := by
        simp [truthy, hS T rfl]
      unfold scopedWhere
      simp only [htruthy]
      rfl

/-- The merged filter is the caller's filter inside the scope, without the soft-deleted
where the repository hides them. -/
theorem scopedWhere_admits_scope {repo : BaseTenantRepository Row} {m : Delegate Row}
    {w : Where Row} {S : Option Id} (hS : ∀ T ∈ S, T ≠ "") (r : Row) :
    (repo.scopedWhere w S).admits m r =
      ((w.inScope S).admits m r &&
        match repo.softDeletable, w.deletedAt, m.deletedAt with
        | true, .absent, some column => (column.get r).isNone
        | _, _, _ => true) := by
  have hdeleted : (w.inScope S).deletedAt = w.deletedAt := by
    cases S <;> rfl
  rw [scopedWhere_eq hS]
  cases hs : repo.softDeletable with
  | false => simp
  | true =>
      cases hw : w.deletedAt with
      | undefined => simp [hdeleted, hw]
      | filter holds => simp [hdeleted, hw]
      | absent =>
          cases hm : m.deletedAt with
          | none => simp [Where.admits, hdeleted, hw, hm]
          | some column =>
              simp only [Where.admits, hdeleted, hw, hm, ColumnKey.admits]
              cases column.get r <;> simp

/-- The merged filter is the caller's filter inside the tenant, without the
soft-deleted where the repository hides them. -/
theorem scopedWhere_admits {repo : BaseTenantRepository Row} {m : Delegate Row}
    {w : Where Row} {T : Id} (hT : T ≠ "") (r : Row) :
    (repo.scopedWhere w (some T)).admits m r =
      ((w.withTenant T).admits m r &&
        match repo.softDeletable, w.deletedAt, m.deletedAt with
        | true, .absent, some column => (column.get r).isNone
        | _, _, _ => true) :=
  scopedWhere_admits_scope (by rintro _ ⟨⟩; exact hT) r

/-- The merged filter already holds the tenant that the extension spreads again. -/
@[simp]
theorem scopedWhere_inScope {repo : BaseTenantRepository Row} {w : Where Row} {S : Option Id}
    (hS : ∀ T ∈ S, T ≠ "") : (repo.scopedWhere w S).inScope S = repo.scopedWhere w S := by
  cases S with
  | none => rfl
  | some T =>
      have htruthy : truthy (some T) = true := by
        simp [truthy, hS T rfl]
      unfold scopedWhere Where.inScope
      simp only [htruthy, Option.elim_some]
      split <;> rfl

/-! ## Lookups inside a scope -/

section Lookups

variable {repo : BaseTenantRepository Row} {env : Env} {S : Option Id} {w : Where Row}

/-- The columns a merged filter names exist in the model. -/
def Known (repo : BaseTenantRepository Row) (w : Where Row) (S : Option Id) : Prop :=
  ({ whereArg := repo.scopedWhere w S } : Args Row).unknownColumn repo.delegate = false

/-- A merged filter names only columns of the model when the repository is marked
soft-deletable only for models that have the column. -/
theorem known_of_absent (S : Option Id)
    (hsoft : repo.softDeletable = true → repo.delegate.deletedAt.isSome = true)
    (hw : w.deletedAt = .absent) : repo.Known w S := by
  unfold Known scopedWhere Args.unknownColumn
  cases hs : repo.softDeletable with
  | false =>
      cases S with
      | none => simp [hw]
      | some T => cases truthy (some T) <;> simp [hw, Where.withTenant]
  | true =>
      rcases Option.isSome_iff_exists.mp (hsoft hs) with ⟨column, hcolumn⟩
      cases S with
      | none => simp [hw, hcolumn]
      | some T => cases truthy (some T) <;> simp [hw, Where.withTenant, hcolumn]

/-- A lookup inside a scope: the first row the merged filter admits. -/
theorem findFirst_apply (hctx : env.context.Sees S)
    (hm : repo.delegate.model ∉ unscopedModels) (hknown : repo.Known w S) (db : Store Row) :
    repo.findFirst env w db =
      (.ok (db.rows.find? ((repo.scopedWhere w S).admits repo.delegate)), db) := by
  unfold findFirst
  rw [getTenantId_of_sees hctx, Fallible.reads_ok_bind,
    Delegate.findFirst_apply hctx hm hknown, scopedWhere_inScope (truthy_of_sees hctx)]

/-- A list read without options: the rows the merged filter admits, up to the cap. -/
theorem findMany_apply (hctx : env.context.Sees S)
    (hm : repo.delegate.model ∉ unscopedModels) (hknown : repo.Known w S) (db : Store Row) :
    repo.findMany env w {} db =
      (.ok ((db.rows.filter ((repo.scopedWhere w S).admits repo.delegate)).take
        DEFAULT_MAX_ROWS), db) := by
  unfold findMany
  rw [getTenantId_of_sees hctx, Fallible.reads_ok_bind,
    Fallible.bind_of_ok (invoke_read hctx hm (by simp) ?_ rfl rfl rfl rfl),
    Fallible.pure_apply, Root.found_outcome rfl, Args.inScope_where (by simp [filteredOperations])]
  · simp [findRoot, Args.arrange, scopedWhere_inScope (truthy_of_sees hctx)]
  · exact hknown

end Lookups

/-! ## Creations inside a scope -/

section Creations

variable (repo : BaseTenantRepository Row) {env : Env} {S : Option Id} {d : Payload Row}
  {db db' : Store Row}

/-- The row that a repository creates inside a scope. -/
def created (env : Env) (S : Option Id) (d : Payload Row) : Row :=
  (({ d with tenantId := some S } : Payload Row).inScope S).apply
    (repo.delegate.blank (env.uuid 0))

/-- A creation without nested writes that is not refused for its tenant. -/
theorem create_apply (hctx : env.context.Sees S) (hm : repo.delegate.model ∉ unscopedModels)
    (hnested : d.nested = {})
    (hsame : (truthy d.tenantId.join && d.tenantId.join != S) = false) (db : Store Row) :
    repo.create env d db =
      if db.accepts (db.rows ++ [repo.created env S d]) then
        (.ok (some (repo.created env S d)),
          { db with rows := db.rows ++ [repo.created env S d] })
      else (.error .constraintViolation, db) := by
  have houtside : ({ d with tenantId := some S } : Payload Row).outside S = false := by
    cases S with
    | none => rfl
    | some T => simp [Payload.outside, Payload.crossTenant]
  have hpass : (Fallible.throwIf (truthy d.tenantId.join && d.tenantId.join != S)
      crossTenantError : Fallible (Store Row) ClientError Unit) db = (.ok (), db) :=
    Fallible.throwIf_eq_ok.mpr ⟨hsame, rfl⟩
  have hcreate := Delegate.create_apply (d := { d with tenantId := some S }) hctx hm hnested db
  rw [houtside, if_neg Bool.false_ne_true] at hcreate
  unfold create
  rw [getTenantId_of_sees hctx, Fallible.reads_ok_bind, Fallible.bind_of_ok hpass]
  exact hcreate

/-- A creation whose payload names a tenant outside the scope is refused. -/
theorem create_refused (hctx : env.context.Sees S)
    (hother : (truthy d.tenantId.join && d.tenantId.join != S) = true) (db : Store Row) :
    repo.create env d db = (.error crossTenantError, db) := by
  have hstop : (Fallible.throwIf (truthy d.tenantId.join && d.tenantId.join != S)
      crossTenantError : Fallible (Store Row) ClientError Unit) db =
        (.error crossTenantError, db) := by
    unfold Fallible.throwIf
    rw [hother]
    rfl
  unfold create
  rw [getTenantId_of_sees hctx, Fallible.reads_ok_bind, Fallible.bind_of_error hstop]

end Creations

end BaseTenantRepository

end Database
end Eleva
