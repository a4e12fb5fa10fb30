import Mathlib.Data.List.Perm.Subperm
import Eleva.Database.Repository
import Eleva.Database.Isolation
import Eleva.Foundation.Batches
import Eleva.Foundation.Machine

/-!
# Database - Noninterference of the repositories

Runs of repository calls in one tenant's context, over two databases that agree on
the tenant's rows.  The unique keys of the schema are global and its foreign keys act
across tenants, so the rows of other tenants are apart from the footprint of the run: they
refer to no key that it may take away, and hold the same of the keys that it gives.

Main results:

- Theorem {lit}`RepositoryCall.blindAt`: a call of any repository answers the same on
  both databases and leaves the rows of other tenants alone.
- Theorem {lit}`repository_noninterference`: so does every run of calls.
-/

namespace Eleva
namespace Database

open Foundation

variable {Row : Type} [TenantRow Row]

/-! ## Databases that a tenant cannot tell apart -/

/-- Two databases whose rows of {lit}`T` are the same and in the footprint, with the rows of other
tenants as given. -/
structure Agree {schema : Schema Row} (T : Id) (fp : Footprint Row) (rest rest' : List Row)
    (db db' : Tables schema) : Prop where
  outside : Outside schema fp rest rest'
  closed : fp.Closed schema
  stored : ∀ r ∈ own T db.rows, fp.rows r
  own : own T db.rows = own T db'.rows
  frame : others T db.rows = rest
  frame' : others T db'.rows = rest'

theorem Engine.leave_tables {schema : Schema Row} (m : Delegate Row) (db : Tables schema)
    {rows : List Row} (h : schema.accepts rows = true) :
    Engine.leave m db rows = (⟨rows, h⟩ : Tables schema) :=
  dif_pos h

/-! ## One statement -/

section Statement

variable {schema : Schema Row} {fp : Footprint Row} {T : Id} {rest rest' : List Row}
  {db db' : Tables schema} {env : Env} {m : Delegate Row} {op : Operation} {args sent : Args Row}

/-- A contained statement answers the same on agreeing databases, and they still
agree after it. -/
theorem invoke_blindAt (hop : op ∉ unsupportedOperations)
    (hcall : ∀ s : Tables schema,
      call env.context m env.uuid op args s = execute m env.uuid op sent s)
    (hc : Contained T sent db.rows (root m env.uuid op sent db.rows)
      (root m env.uuid op sent (own T db.rows)))
    (hc' : Contained T sent db'.rows (root m env.uuid op sent db'.rows)
      (root m env.uuid op sent (own T db'.rows)))
    (hcovers : fp.Covers schema m env.uuid sent op) (h : Agree T fp rest rest' db db') :
    Fallible.BlindAt (Agree T fp rest rest') (invoke env m op args) db db' := by
  have hout' : Outside schema fp (others T db.rows) (others T db'.rows) := by
    rw [h.frame, h.frame']
    exact h.outside
  unfold Fallible.BlindAt invoke
  rw [hcall, hcall]
  rcases execute_contained hop hc hc' h.own h.stored hcovers h.closed hout' with
    ⟨e, he, he'⟩ | ⟨out, out', hrun, hrun', _, halike⟩
  · rw [he, he']
    exact ⟨rfl, h⟩
  · rcases execute_eq_ok hrun with ⟨_, _, _, haccepted⟩
    rcases execute_eq_ok hrun' with ⟨_, _, _, haccepted'⟩
    rw [hrun, hrun']
    refine ⟨congrArg Except.ok halike.result, ?_⟩
    simp only
    rw [Engine.leave_tables m db haccepted, Engine.leave_tables m db' haccepted']
    exact ⟨h.outside, h.closed, halike.stored, halike.own, halike.frame.trans h.frame,
      halike.frame'.trans h.frame'⟩

end Statement

/-! ## One repository call -/

/-- The arguments that reach the client in the context of {lit}`T`. -/
def Args.sent (args : Args Row) (m : Delegate Row) (T : Id) (op : Operation) : Args Row :=
  if m.model ∈ unscopedModels then args else args.forTenant T op

theorem call_sent {schema : Schema Row} {context : TenantContext} {T : Id}
    (hctx : context.Holds T) {m : Delegate Row} {op : Operation} {args : Args Row}
    (hblocked : ¬args.blocked T op) (uuid : ℕ → Id) (db : Tables schema) :
    call context m uuid op args db = execute m uuid op (args.sent m T op) db := by
  unfold Args.sent
  by_cases hm : m.model ∈ unscopedModels
  · rw [if_pos hm]
    unfold call scope
    simp only [List.contains_eq_mem, hm, decide_true, if_true]
    rfl
  · rw [if_neg hm]
    exact call_of_not_blocked hctx hm hblocked uuid db

/-- The relation arguments reach the client as the caller wrote them. -/
@[simp]
theorem Args.includes_sent (args : Args Row) (m : Delegate Row) (T : Id) (op : Operation) :
    (args.sent m T op).includes = args.includes := by
  unfold Args.sent Args.forTenant
  split
  · rfl
  · split
    · rfl
    · split <;> rfl

@[simp]
theorem Args.data_sent (args : Args Row) (m : Delegate Row) (T : Id) {op : Operation}
    (hop : op ≠ .create) : (args.sent m T op).data = args.data := by
  unfold Args.sent Args.forTenant
  split
  · rfl
  · split
    · rfl
    · rfl

@[simp]
theorem Args.dataMany_sent (args : Args Row) (m : Delegate Row) (T : Id) (op : Operation) :
    (args.sent m T op).dataMany = args.dataMany := by
  unfold Args.sent Args.forTenant
  split
  · rfl
  · split
    · rfl
    · split <;> rfl

/-- The client receives the caller's filter or, on a scoped model, that filter inside
the tenant. -/
theorem Args.whereArg_sent (args : Args Row) (m : Delegate Row) (T : Id) {op : Operation}
    (hop : op ∈ filteredOperations) :
    (args.sent m T op).whereArg =
      if m.model ∈ unscopedModels then args.whereArg else args.whereArg.withTenant T := by
  unfold Args.sent Args.forTenant
  split
  · rfl
  · rfl

/-- The filter a repository merges admits only rows of the tenant. -/
theorem sent_scopedWhere_owned {repo : BaseTenantRepository Row} {m : Delegate Row}
    {args : Args Row} {w : Where Row} {T : Id} {op : Operation} (hT : T ≠ "")
    (hop : op ∈ filteredOperations) (hargs : args.whereArg = repo.scopedWhere w (some T))
    {r : Row} (hr : (args.sent m T op).whereArg.admits m r = true) : owned T r = true := by
  rw [Args.whereArg_sent args m T hop] at hr
  split at hr
  · rw [hargs, BaseTenantRepository.scopedWhere_admits hT, Bool.and_eq_true] at hr
    have hw : ({ whereArg := w } : Args Row).admitsOwn m T r = true := hr.1
    exact Args.owned_of_admitsOwn hw
  · have hadmits : args.admitsOwn m T r = true := hr
    exact Args.owned_of_admitsOwn hadmits

/-- A payload that leaves the tenant of the row alone and whose nested writes stay in
the tenant. -/
structure Payload.StaysIn (d : Payload Row) (T : Id) : Prop where
  tenantId : d.tenantId = none ∨ d.tenantId = some (some T)
  nested : ∀ parent, owned T parent = true →
    d.nested.WritesOwn T (fun _ => True) parent

/-- Such a payload makes rows of the tenant from rows of the tenant. -/
theorem Payload.StaysIn.owned_apply {d : Payload Row} {T : Id} (hd : d.StaysIn T) {r : Row}
    (hr : owned T r = true) : owned T (d.apply r) = true := by
  have hassign : TenantRow.tenantId (d.assign r) = some T := by
    rw [d.assign_tenantId]
    simpa [owned] using hr
  unfold Payload.apply owned
  rcases hd.tenantId with ht | ht <;> rw [ht]
  · simp [hassign]
  · simp [TenantRow.tenantId_setTenantId]

theorem Nested.WritesOwn.mono {n : Nested Row} {T : Id} {parent : Row}
    (hn : n.WritesOwn T (fun _ => True) parent) (stored : Row → Prop) :
    n.WritesOwn T stored parent :=
  ⟨hn.creates, hn.touches, fun c c' _ => hn.change c c' trivial⟩

section Calls

variable {schema : Schema Row} {fp : Footprint Row} {T : Id} {rest rest' : List Row}
  {db db' : Tables schema} {env : Env} {repo : BaseTenantRepository Row}

theorem Args.readsOwn_of_no_includes {args : Args Row}
    (h : args.includes = fun _ _ => false) (T : Id) (r : Row) : args.ReadsOwn T r := by
  intro c hc
  rw [h] at hc
  cases hc

/-- A read under a merged filter is contained. -/
theorem contained_scopedRead {args : Args Row} {w : Where Row} {op : Operation}
    (hT : T ≠ "") (hop : op ∈ [.findFirst, .findMany])
    (hargs : args.whereArg = repo.scopedWhere w (some T))
    (hincludes : args.includes = fun _ _ => false) (uuid : ℕ → Id) (rows : List Row) :
    Contained T (args.sent repo.delegate T op) rows
      (root repo.delegate uuid op (args.sent repo.delegate T op) rows)
      (root repo.delegate uuid op (args.sent repo.delegate T op) (own T rows)) := by
  simp only [List.mem_cons, List.not_mem_nil, or_false] at hop
  refine contained_of_read ?_ ?_ (Or.inr ?_) uuid
  · rcases hop with rfl | rfl <;> simp
  · intro r _ hr
    refine sent_scopedWhere_owned hT ?_ hargs hr
    rcases hop with rfl | rfl <;> simp [filteredOperations]
  · intro r _ _
    exact Args.readsOwn_of_no_includes (by simp [hincludes]) T r

/-- A lookup answers the same on agreeing databases. -/
theorem findFirst_blindAt (hctx : env.context.Holds T) (w : Where Row)
    (h : Agree T fp rest rest' db db') :
    Fallible.BlindAt (Agree T fp rest rest') (repo.findFirst env w) db db' := by
  unfold BaseTenantRepository.findFirst
  rw [BaseTenantRepository.getTenantId_of_holds hctx]
  refine (Fallible.BlindAt.reads h _).bind ?_
  rintro tenantId s s' hs hs' hss
  rcases (Fallible.reads_eq_ok.mp hs).1 with ⟨⟩
  refine Fallible.BlindAt.bind ?_ fun result s t _ _ hst => Fallible.BlindAt.pure hst _
  exact invoke_blindAt (by simp [unsupportedOperations])
    (call_sent hctx (not_blocked (by simp)) env.uuid)
    (contained_scopedRead hctx.nonempty (by simp) rfl rfl env.uuid _)
    (contained_scopedRead hctx.nonempty (by simp) rfl rfl env.uuid _) trivial hss

/-- The row a lookup hands back is a stored row that the filter admits. -/
theorem invoke_findFirst_ok {m : Delegate Row} {args : Args Row} {result : Result Row}
    {s : Tables schema} {r : Row} (hctx : env.context.Holds T)
    (hrun : invoke env m .findFirst args db = (.ok result, s)) (hr : r ∈ result.found) :
    s = db ∧ r ∈ db.rows ∧ (args.sent m T .findFirst).whereArg.admits m r = true := by
  unfold invoke at hrun
  split at hrun
  · rename_i out hout
    rw [call_sent hctx (not_blocked (by simp))] at hout
    rcases execute_eq_ok hout with ⟨t, ht, rfl, haccepted⟩
    cases ht
    cases hrun
    have hmem : r ∈ ({ args.sent m T .findFirst with take := some 1 } : Args Row).arrange
        (db.rows.filter ((args.sent m T .findFirst).whereArg.admits m)) := by
      simpa [Result.found, Root.settled, findRoot] using hr
    have hfound := List.mem_filter.mp (Args.mem_arrange hmem)
    refine ⟨?_, hfound.1, hfound.2⟩
    rw [Engine.leave_tables m db haccepted]
    have hunchanged : ∀ found sent,
        ((findRoot found db.rows).settled schema .findFirst sent db.rows).rows = db.rows :=
      fun _ sent => Root.settled_rows_of_unchanged (Root.after_of_no_nested rfl) _ sent
    cases db
    rw [Tables.mk.injEq]
    exact hunchanged _ _
  · cases hrun

/-- A lookup by id hands back the tenant's row with the id and leaves the database. -/
theorem findFirst_ok (hctx : env.context.Holds T) {w : Where Row} {id : Id} {entity : Row}
    {s : Tables schema} (hid : w.id = some id)
    (hrun : repo.findFirst env w db = (.ok (some entity), s)) :
    s = db ∧ entity ∈ db.rows ∧ owned T entity = true ∧
      repo.delegate.isRow entity = true ∧ TenantRow.id entity = id := by
  unfold BaseTenantRepository.findFirst at hrun
  rw [BaseTenantRepository.getTenantId_of_holds hctx] at hrun
  rcases Fallible.bind_eq_ok.mp hrun with ⟨tenantId, s₁, hread, hrest⟩
  rcases Fallible.reads_eq_ok.mp hread with ⟨⟨⟩, rfl⟩
  rcases Fallible.bind_eq_ok.mp hrest with ⟨result, s₂, hinvoke, hpure⟩
  rw [Fallible.pure_apply, Prod.mk.injEq, Except.ok.injEq] at hpure
  rcases hpure with ⟨hhead, rfl⟩
  rcases invoke_findFirst_ok hctx hinvoke (List.mem_of_head? hhead) with
    ⟨rfl, hmem, hadmits⟩
  have howned := sent_scopedWhere_owned hctx.nonempty (by simp [filteredOperations]) rfl hadmits
  have hsent : ((({ whereArg := repo.scopedWhere w (some T) } : Args Row).sent repo.delegate T
      .findFirst).whereArg).id = some id := by
    rw [Args.whereArg_sent _ _ _ (by simp [filteredOperations]), ← hid]
    split <;> exact BaseTenantRepository.scopedWhere_id repo w _
  unfold Where.admits at hadmits
  rw [hsent] at hadmits
  simp only [Option.all_some, Bool.and_eq_true, beq_iff_eq] at hadmits
  exact ⟨rfl, hmem, howned, hadmits.1.1.1.1, hadmits.1.1.1.2.symm⟩

/-- A list read answers the same on agreeing databases. -/
theorem findMany_blindAt (hctx : env.context.Holds T) (w : Where Row)
    (options : FindManyOptions Row) (h : Agree T fp rest rest' db db') :
    Fallible.BlindAt (Agree T fp rest rest') (repo.findMany env w options) db db' := by
  unfold BaseTenantRepository.findMany
  rw [BaseTenantRepository.getTenantId_of_holds hctx]
  refine (Fallible.BlindAt.reads h _).bind ?_
  rintro tenantId s s' hs hs' hss
  rcases (Fallible.reads_eq_ok.mp hs).1 with ⟨⟩
  refine Fallible.BlindAt.bind ?_ fun result s t _ _ hst => Fallible.BlindAt.pure hst _
  exact invoke_blindAt (by simp [unsupportedOperations])
    (call_sent hctx (not_blocked (by simp)) env.uuid)
    (contained_scopedRead hctx.nonempty (by simp) rfl rfl env.uuid _)
    (contained_scopedRead hctx.nonempty (by simp) rfl rfl env.uuid _) trivial hss

/-- A count answers the same on agreeing databases. -/
theorem count_blindAt (hctx : env.context.Holds T) (w : Where Row)
    (h : Agree T fp rest rest' db db') :
    Fallible.BlindAt (Agree T fp rest rest') (repo.count env w) db db' := by
  unfold BaseTenantRepository.count
  rw [BaseTenantRepository.getTenantId_of_holds hctx]
  refine (Fallible.BlindAt.reads h _).bind ?_
  rintro tenantId s s' hs hs' hss
  rcases (Fallible.reads_eq_ok.mp hs).1 with ⟨⟩
  refine Fallible.BlindAt.bind ?_ fun result s t _ _ hst => Fallible.BlindAt.pure hst _
  have hc : ∀ rows : List Row,
      let sent := ({ whereArg := repo.scopedWhere w (some T) } : Args Row).sent
        repo.delegate T .count
      Contained T sent rows (root repo.delegate env.uuid .count sent rows)
        (root repo.delegate env.uuid .count sent (own T rows)) := by
    intro rows
    refine contained_count ?_ env.uuid
    intro r _ hr
    exact sent_scopedWhere_owned hctx.nonempty (by simp [filteredOperations]) rfl hr
  exact invoke_blindAt (by simp [unsupportedOperations])
    (call_sent hctx (not_blocked (by simp)) env.uuid) (hc _) (hc _) trivial hss

/-- A creation answers the same on agreeing databases. -/
theorem create_blindAt (hctx : env.context.Holds T) {data : Payload Row}
    (hdata : ∀ parent, owned T parent = true →
      data.nested.WritesOwn T (fun _ => True) parent)
    (hcovers : fp.Covers schema repo.delegate env.uuid
      { data := { data with tenantId := some (some T) } } .create)
    (h : Agree T fp rest rest' db db') :
    Fallible.BlindAt (Agree T fp rest rest') (repo.create env data) db db' := by
  unfold BaseTenantRepository.create
  rw [BaseTenantRepository.getTenantId_of_holds hctx]
  refine (Fallible.BlindAt.reads h _).bind ?_
  rintro tenantId s s' hs hs' hss
  rcases (Fallible.reads_eq_ok.mp hs).1 with ⟨⟩
  refine (Fallible.BlindAt.throwIf hss _ _).bind ?_
  rintro _ s₁ s₁' _ _ hss₁
  refine Fallible.BlindAt.bind ?_ fun result s t _ _ hst => Fallible.BlindAt.pure hst _
  have hsent : (({ data := { data with tenantId := some (some T) } } : Args Row).sent
      repo.delegate T .create) = { data := { data with tenantId := some (some T) } } := by
    unfold Args.sent Args.forTenant
    simp [filteredOperations, Payload.withTenant]
  have hnew : ∀ id, owned T (({ data with tenantId := some (some T) } : Payload Row).apply
      (repo.delegate.blank id)) = true := by
    intro id
    simp [owned, Payload.apply, TenantRow.tenantId_setTenantId]
  have hblocked : ¬({ data := { data with tenantId := some (some T) } } : Args Row).blocked
      T .create := by
    simp [Args.blocked, unsupportedOperations, Payload.crossTenant]
  refine invoke_blindAt (by simp [unsupportedOperations]) (call_sent hctx hblocked env.uuid) ?_ ?_
    ?_ hss₁
  · rw [hsent]
    exact contained_create (hnew _) (Args.readsOwn_of_no_includes rfl T _)
      (hdata _ (hnew _)) _
  · rw [hsent]
    exact contained_create (hnew _) (Args.readsOwn_of_no_includes rfl T _)
      (hdata _ (hnew _)) _
  · rw [hsent]
    exact hcovers

theorem Where.admits_id {m : Delegate Row} {id : Id} {r : Row} :
    ({ id := some id } : Where Row).admits m r = true ↔ m.isRow r = true ∧ id = TenantRow.id r := by
  unfold Where.admits
  cases m.deletedAt <;> simp [ColumnKey.admits]

/-- A condition on the id of a row reaches the client, maybe with more conditions. -/
theorem admits_id_of_sent {m : Delegate Row} {op : Operation} {id : Id} {data : Payload Row}
    {r : Row} (hop : op ∈ filteredOperations)
    (hr : (({ whereArg := { id := some id }, data := data } : Args Row).sent m T op).whereArg.admits
      m r = true) : ({ id := some id } : Where Row).admits m r = true := by
  rw [Args.whereArg_sent _ _ _ hop] at hr
  split at hr
  · exact hr
  · rw [Where.admits_id]
    unfold Where.admits Where.withTenant at hr
    simp only [Option.all_some, Bool.and_eq_true, beq_iff_eq] at hr
    exact hr.1.1.1

/-- A write addressed by the primary key of a row of the tenant is contained: no other row has the
key. -/
theorem contained_keyed {rows : List Row} {op : Operation} {entity : Row}
    {data : Payload Row} (hop : op = .update ∨ op = .delete) (hdata : data.StaysIn T)
    (hentity : entity ∈ rows) (howned : owned T entity = true)
    (hrow : repo.delegate.isRow entity = true)
    (hnodup : (rows.filterMap repo.delegate.primaryKey).Nodup) (uuid : ℕ → Id) :
    let sent := ({ whereArg := { id := some (TenantRow.id entity) }, data := data } :
      Args Row).sent repo.delegate T op
    Contained T sent rows (root repo.delegate uuid op sent rows)
      (root repo.delegate uuid op sent (own T rows)) := by
  intro sent
  have hfiltered : op ∈ filteredOperations := by
    rcases hop with rfl | rfl <;> simp [filteredOperations]
  have hincludes : sent.includes = fun _ _ => false := by
    simp [sent]
  have hsentData : sent.data = data := by
    have hne : op ≠ .create := by
      rcases hop with rfl | rfl <;> simp
    simp [sent, hne]
  have hmatch : ∀ r ∈ rows, sent.whereArg.admits repo.delegate r = true →
      owned T r = true := by
    intro r hr hadmits
    rcases Where.admits_id.mp (admits_id_of_sent hfiltered hadmits) with ⟨hisRow, hid⟩
    have hsame : entity = r := by
      apply eq_of_filterMap_nodup hnodup hentity hr
      · exact if_pos hrow
      · exact Delegate.primaryKey_eq_some.mpr ⟨hisRow, hid.symm⟩
    exact hsame ▸ howned
  rcases hop with rfl | rfl
  · refine contained_update hmatch fun r hr hadmits => ?_
    rw [hsentData]
    have hkept := hdata.owned_apply (hmatch r hr hadmits)
    exact ⟨hkept, Args.readsOwn_of_no_includes hincludes T _,
      (hdata.nested _ hkept).mono _⟩
  · exact contained_delete hmatch fun r _ _ => Args.readsOwn_of_no_includes hincludes T r

/-- A write addressed by the key of a row a lookup handed back answers the same on
agreeing databases. -/
theorem keyed_blindAt (hctx : env.context.Holds T) {op : Operation} {entity : Row}
    {data : Payload Row} (hop : op = .update ∨ op = .delete) (hdata : data.StaysIn T)
    (hkey : repo.delegate.primaryKey ∈ schema.uniqueKeys)
    (hentity : entity ∈ db.rows) (hentity' : entity ∈ db'.rows)
    (howned : owned T entity = true) (hrow : repo.delegate.isRow entity = true)
    (hcovers : fp.Covers schema repo.delegate env.uuid
      { whereArg := { id := some (TenantRow.id entity) }, data := data } op)
    (h : Agree T fp rest rest' db db') :
    Fallible.BlindAt (Agree T fp rest rest') (invoke env repo.delegate op
      { whereArg := { id := some (TenantRow.id entity) }, data := data }) db db' := by
  have hblocked : ¬({ whereArg := { id := some (TenantRow.id entity) }, data := data } :
      Args Row).blocked T op := by
    rcases hop with rfl | rfl <;> exact not_blocked (by simp)
  have hfiltered : op ∈ filteredOperations := by
    rcases hop with rfl | rfl <;> simp [filteredOperations]
  have hsupported : op ∉ unsupportedOperations := by
    rcases hop with rfl | rfl <;> simp [unsupportedOperations]
  have hne : op ≠ .create := by
    rcases hop with rfl | rfl <;> simp
  refine invoke_blindAt hsupported (call_sent hctx hblocked env.uuid)
    (contained_keyed hop hdata hentity howned hrow
      (Schema.unique_of_accepts db.accepted hkey) env.uuid)
    (contained_keyed hop hdata hentity' howned hrow
      (Schema.unique_of_accepts db'.accepted hkey) env.uuid) ?_ h
  exact hcovers.narrow (Args.data_sent _ _ _ hne) (Args.dataMany_sent _ _ _ _) fun r hr =>
    admits_id_of_sent hfiltered hr

/-- An update or deletion by id answers the same on agreeing databases. -/
theorem onOwned_blindAt (hctx : env.context.Holds T) (id : Id) {op : Operation}
    {data : Payload Row} (hop : op = .update ∨ op = .delete) (hdata : data.StaysIn T)
    (hkey : repo.delegate.primaryKey ∈ schema.uniqueKeys)
    (hcovers : fp.Covers schema repo.delegate env.uuid
      { whereArg := { id := some id }, data := data } op)
    (h : Agree T fp rest rest' db db') :
    Fallible.BlindAt (Agree T fp rest rest') (repo.onOwned env id op data) db db' := by
  unfold BaseTenantRepository.onOwned
  refine (findFirst_blindAt hctx _ h).bind ?_
  intro found s s' hs hs' hss
  cases found with
  | none => exact Fallible.BlindAt.throw hss _
  | some entity =>
      rcases findFirst_ok hctx rfl hs with ⟨rfl, hmem, howned, hrow, rfl⟩
      rcases findFirst_ok hctx rfl hs' with ⟨rfl, hmem', _, _, _⟩
      refine Fallible.BlindAt.bind ?_ fun result s t _ _ hst => Fallible.BlindAt.pure hst _
      exact keyed_blindAt hctx hop hdata hkey hmem hmem' howned hrow hcovers hss

/-- Writing a tombstone keeps the payload inside the tenant. -/
theorem withDeletedAt_staysIn {column : DeletedAtColumn Row} {extraData : Payload Row}
    (hdata : extraData.StaysIn T) (t : Option Timestamp) :
    (BaseTenantRepository.withDeletedAt column extraData t).StaysIn T :=
  ⟨hdata.tenantId, hdata.nested⟩

/-- A soft deletion or restoration answers the same on agreeing databases. -/
theorem setDeletedAt_blindAt (hctx : env.context.Holds T) (id : Id)
    {extraData : Payload Row} (unchanged : Option Timestamp → Bool) (t : Option Timestamp)
    (hdata : extraData.StaysIn T) (hkey : repo.delegate.primaryKey ∈ schema.uniqueKeys)
    (hcovers : ∀ column, repo.delegate.deletedAt = some column →
      fp.Covers schema repo.delegate env.uuid
        { whereArg := { id := some id }
          data := BaseTenantRepository.withDeletedAt column extraData t } .update)
    (h : Agree T fp rest rest' db db') :
    Fallible.BlindAt (Agree T fp rest rest') (repo.setDeletedAt env id extraData unchanged t)
      db db' := by
  unfold BaseTenantRepository.setDeletedAt BaseTenantRepository.findByIdIncludingDeleted
  refine (findFirst_blindAt hctx _ h).bind ?_
  intro found s s' hs hs' hss
  cases found with
  | none => exact Fallible.BlindAt.throw hss _
  | some entity =>
      rcases findFirst_ok hctx rfl hs with ⟨rfl, hmem, howned, hrow, rfl⟩
      rcases findFirst_ok hctx rfl hs' with ⟨rfl, hmem', _, _, _⟩
      simp only
      split
      · exact Fallible.BlindAt.pure hss _
      · cases hcolumn : repo.delegate.deletedAt with
        | none => exact Fallible.BlindAt.throw hss _
        | some column =>
            refine Fallible.BlindAt.bind ?_
              fun result s t _ _ hst => Fallible.BlindAt.pure hst _
            exact keyed_blindAt hctx (Or.inl rfl) (withDeletedAt_staysIn hdata t) hkey
              hmem hmem' howned hrow (hcovers column hcolumn) hss

end Calls

/-! ## Runs of calls -/

/-- The calls of a repository. -/
inductive RepositoryCall (Row : Type) [TenantRow Row] where
  | findById (id : Id)
  | findByIdIncludingDeleted (id : Id)
  | findMany (whereArg : Where Row) (options : FindManyOptions Row)
  | count (whereArg : Where Row)
  | create (data : Payload Row)
  | update (id : Id) (data : Payload Row)
  | delete (id : Id)
  | softDelete (id : Id) (extraData : Payload Row)
  | restore (id : Id) (extraData : Payload Row)

/-- What a repository call hands back. -/
inductive Reply (Row : Type) where
  | row (found : Option Row)
  | rows (found : List Row)
  | number (n : ℕ)

/-- Run a call on a repository. -/
def RepositoryCall.run {σ : Type} [Engine σ Row] (repo : BaseTenantRepository Row) (env : Env) :
    RepositoryCall Row → Fallible σ ClientError (Reply Row)
  | .findById id => do return .row (← repo.findById env id)
  | .findByIdIncludingDeleted id => do return .row (← repo.findByIdIncludingDeleted env id)
  | .findMany whereArg options => do return .rows (← repo.findMany env whereArg options)
  | .count whereArg => do return .number (← repo.count env whereArg)
  | .create data => do return .row (← repo.create env data)
  | .update id data => do return .row (← repo.update env id data)
  | .delete id => do return .row (← repo.delete env id)
  | .softDelete id extraData => do return .row (← repo.softDelete env id extraData)
  | .restore id extraData => do return .row (← repo.restore env id extraData)

/-- The payload of the call stays in {lit}`T`: nested writes reach only rows of
{lit}`T`, and a payload written over a stored row does not reassign its tenant. -/
def RepositoryCall.StaysIn (T : Id) : RepositoryCall Row → Prop
  | .create data =>
      ∀ parent, owned T parent = true → data.nested.WritesOwn T (fun _ => True) parent
  | .update _ data | .softDelete _ data | .restore _ data => data.StaysIn T
  | .findById _ | .findByIdIncludingDeleted _ | .findMany _ _ | .count _ | .delete _ => True

/-- The call keeps to the footprint on the rows of {lit}`T`. -/
def RepositoryCall.KeepsTo (fp : Footprint Row) (schema : Schema Row) (T : Id)
    (repo : BaseTenantRepository Row) (env : Env) : RepositoryCall Row → Prop
  | .create data =>
      fp.Covers schema repo.delegate env.uuid
        (Args.ofData { data with tenantId := some (some T) }) .create
  | .update id data =>
      fp.Covers schema repo.delegate env.uuid { Args.ofId id with data := data } .update
  | .delete id =>
      fp.Covers schema repo.delegate env.uuid (Args.ofId id) .delete
  | .softDelete id extraData =>
      ∀ column, repo.delegate.deletedAt = some column →
        fp.Covers schema repo.delegate env.uuid
          { Args.ofId id with
            data := BaseTenantRepository.withDeletedAt column extraData (some env.now) } .update
  | .restore id extraData =>
      ∀ column, repo.delegate.deletedAt = some column →
        fp.Covers schema repo.delegate env.uuid
          { Args.ofId id with
            data := BaseTenantRepository.withDeletedAt column extraData none } .update
  | .findById _ | .findByIdIncludingDeleted _ | .findMany _ _ | .count _ => True

/-- The call with the conditions and the ordering of its filter on the rows that are kept. -/
def RepositoryCall.onRows (keep : Row → Bool) : RepositoryCall Row → RepositoryCall Row
  | .findMany whereArg options =>
      .findMany (whereArg.onRows keep)
        { options with orderBy := options.orderBy.map fun le a b => keep a && keep b && le a b }
  | .count whereArg => .count (whereArg.onRows keep)
  | call => call

/-- A call with a repository of some model, and what it draws from its
surroundings. -/
structure RepositoryStep (Row : Type) [TenantRow Row] where
  repo : BaseTenantRepository Row
  env : Env
  call : RepositoryCall Row

/-- The machine that answers repository calls on one table. -/
def repositories (Row : Type) [TenantRow Row] :
    Machine (RepositoryStep Row) (Store Row) (Except ClientError (Reply Row)) where
  step a db := a.call.run a.repo a.env db

/-- A call as the client reads it on the rows that it finds: its filter and its ordering may look
at related rows. -/
structure RepositoryQuery (Row : Type) [TenantRow Row] where
  repo : BaseTenantRepository Row
  env : Env
  call : List Row → RepositoryCall Row

/-- The machine that answers repository calls on the tables of a schema. -/
def repositoriesOn (schema : Schema Row) :
    Machine (RepositoryQuery Row) (Tables schema) (Except ClientError (Reply Row)) where
  step a db := (a.call db.rows).run a.repo a.env db

/-- The filter and the ordering of a call look at the tenant's rows: they say the same of the stored
ones in both databases. -/
def RepositoryQuery.LooksAtOwn {schema : Schema Row} (T : Id) (a : RepositoryQuery Row)
    (db db' : Tables schema) : Prop :=
  ∃ keep : Row → Bool, (∀ r ∈ own T db.rows, keep r = true) ∧
    (a.call db.rows).onRows keep = (a.call db'.rows).onRows keep

theorem staysIn_default (T : Id) : ({} : Payload Row).StaysIn T :=
  ⟨Or.inl rfl, fun parent _ => Nested.writesOwn_default T _ parent⟩

section Runs

variable {schema : Schema Row} {fp : Footprint Row} {T : Id} {rest rest' : List Row}
  {db db' : Tables schema} {env : Env} {repo : BaseTenantRepository Row}
  {call : RepositoryCall Row} {keep : Row → Bool}

/-- One call of any repository answers the same on agreeing databases, and they
still agree after it. -/
theorem RepositoryCall.blindAt (hctx : env.context.Holds T) (hcall : call.StaysIn T)
    (hkeeps : call.KeepsTo fp schema T repo env)
    (hkey : repo.delegate.primaryKey ∈ schema.uniqueKeys) (h : Agree T fp rest rest' db db') :
    Fallible.BlindAt (Agree T fp rest rest') (call.run repo env) db db' := by
  cases call with
  | findById id =>
      exact (findFirst_blindAt hctx _ h).bind fun _ _ _ _ _ hst => .pure hst _
  | findByIdIncludingDeleted id =>
      exact (findFirst_blindAt hctx _ h).bind fun _ _ _ _ _ hst => .pure hst _
  | findMany whereArg options =>
      exact (findMany_blindAt hctx _ _ h).bind fun _ _ _ _ _ hst => .pure hst _
  | count whereArg =>
      exact (count_blindAt hctx _ h).bind fun _ _ _ _ _ hst => .pure hst _
  | create data =>
      exact (create_blindAt hctx hcall hkeeps h).bind fun _ _ _ _ _ hst => .pure hst _
  | update id data =>
      exact (onOwned_blindAt hctx id (Or.inl rfl) hcall hkey hkeeps h).bind
        fun _ _ _ _ _ hst => .pure hst _
  | delete id =>
      exact (onOwned_blindAt hctx id (Or.inr rfl) (staysIn_default T) hkey hkeeps h).bind
        fun _ _ _ _ _ hst => .pure hst _
  | softDelete id extraData =>
      exact (setDeletedAt_blindAt hctx id _ _ hcall hkey hkeeps h).bind
        fun _ _ _ _ _ hst => .pure hst _
  | restore id extraData =>
      exact (setDeletedAt_blindAt hctx id _ _ hcall hkey hkeeps h).bind
        fun _ _ _ _ _ hst => .pure hst _

theorem RepositoryCall.KeepsTo.onRows (h : call.KeepsTo fp schema T repo env) :
    (call.onRows keep).KeepsTo fp schema T repo env := by
  cases call with
  | findMany whereArg options => trivial
  | count whereArg => trivial
  | findById id | findByIdIncludingDeleted id | create data | update id data | delete id
  | softDelete id extraData | restore id extraData => exact h

theorem RepositoryCall.StaysIn.onRows (h : call.StaysIn T) : (call.onRows keep).StaysIn T := by
  cases call with
  | findMany whereArg options => trivial
  | count whereArg => trivial
  | findById id | findByIdIncludingDeleted id | create data | update id data | delete id
  | softDelete id extraData | restore id extraData => exact h

/-- A filter inside the tenant is its conditions on rows that include the tenant's. -/
theorem invoke_onRows {op : Operation} {args : Args Row} {w : Where Row}
    (hctx : env.context.Holds T) (hkeep : ∀ r ∈ own T db.rows, keep r = true)
    (hop : op = .findMany ∨ op = .count) (hargs : args.whereArg = repo.scopedWhere w (some T)) :
    invoke env repo.delegate op (args.onRows keep) db = invoke env repo.delegate op args db := by
  have hopen : ∀ args : Args Row, ¬args.blocked T op := by
    intro args
    rcases hop with rfl | rfl <;> exact not_blocked (by simp)
  have hfiltered : op ∈ filteredOperations := by
    rcases hop with rfl | rfl <;> simp [filteredOperations]
  have hsent : (args.onRows keep).sent repo.delegate T op =
      (args.sent repo.delegate T op).onRows keep := by
    unfold Args.sent
    split
    · rfl
    · exact (Args.forTenant_onRows args T op keep).symm
  have hmatch : ∀ r ∈ db.rows,
      (args.sent repo.delegate T op).whereArg.admits repo.delegate r = true → keep r = true := by
    intro r hr hadmits
    have howned := sent_scopedWhere_owned hctx.nonempty hfiltered hargs hadmits
    exact hkeep r (List.mem_filter.mpr ⟨hr, howned⟩)
  unfold invoke
  rw [call_sent hctx (hopen _), call_sent hctx (hopen _), hsent, execute_onRows hmatch]

/-- A call is itself with the conditions on rows that include the tenant's. -/
theorem RepositoryCall.run_onRows (hctx : env.context.Holds T)
    (hkeep : ∀ r ∈ own T db.rows, keep r = true) :
    (call.onRows keep).run repo env db = call.run repo env db := by
  have hwhere : ∀ w : Where Row,
      repo.scopedWhere (w.onRows keep) (some T) = (repo.scopedWhere w (some T)).onRows keep := by
    intro w
    unfold BaseTenantRepository.scopedWhere Where.onRows Where.withTenant
    cases repo.softDeletable <;> cases truthy (some T) <;> cases hw : w.deletedAt <;> simp [hw]
  cases call with
  | findById id | findByIdIncludingDeleted id | create data | update id data | delete id
  | softDelete id extraData | restore id extraData => rfl
  | findMany whereArg options =>
      refine Fallible.bind_congr_apply ?_ _
      unfold BaseTenantRepository.findMany
      rw [BaseTenantRepository.getTenantId_of_holds hctx, Fallible.reads_ok_bind,
        Fallible.reads_ok_bind, hwhere]
      let args : Args Row :=
        { whereArg := repo.scopedWhere whereArg (some T)
          take := some (options.take.getD BaseTenantRepository.DEFAULT_MAX_ROWS)
          skip := options.skip.getD 0
          orderBy := options.orderBy }
      have hinvoke : invoke env repo.delegate .findMany (args.onRows keep) db =
          invoke env repo.delegate .findMany args db :=
        invoke_onRows hctx hkeep (Or.inl rfl) rfl
      exact Fallible.bind_congr_apply hinvoke _
  | count whereArg =>
      refine Fallible.bind_congr_apply ?_ _
      unfold BaseTenantRepository.count
      rw [BaseTenantRepository.getTenantId_of_holds hctx, Fallible.reads_ok_bind,
        Fallible.reads_ok_bind, hwhere]
      let args : Args Row := { whereArg := repo.scopedWhere whereArg (some T) }
      have hinvoke : invoke env repo.delegate .count (args.onRows keep) db =
          invoke env repo.delegate .count args db := invoke_onRows hctx hkeep (Or.inr rfl) rfl
      exact Fallible.bind_congr_apply hinvoke _

/-- One call answers the same on agreeing databases, and they still agree after it. -/
theorem repositoriesOn_step {a : RepositoryQuery Row} (hctx : a.env.context.Holds T)
    (hcall : ∀ rows, (a.call rows).StaysIn T)
    (hkeeps : ∀ rows, (a.call rows).KeepsTo fp schema T a.repo a.env)
    (hkey : a.repo.delegate.primaryKey ∈ schema.uniqueKeys) (h : Agree T fp rest rest' db db')
    (hlooks : a.LooksAtOwn T db db') :
    ((repositoriesOn schema).step a db).1 = ((repositoriesOn schema).step a db').1 ∧
      Agree T fp rest rest' ((repositoriesOn schema).step a db).2
        ((repositoriesOn schema).step a db').2 := by
  rcases hlooks with ⟨keep, hkeep, hsame⟩
  have hkeep' : ∀ r ∈ own T db'.rows, keep r = true := h.own ▸ hkeep
  have hblind : Fallible.BlindAt (Agree T fp rest rest')
      (((a.call db.rows).onRows keep).run a.repo a.env) db db' :=
    RepositoryCall.blindAt hctx (hcall db.rows).onRows (hkeeps db.rows).onRows hkey h
  unfold Fallible.BlindAt at hblind
  rw [RepositoryCall.run_onRows hctx hkeep, hsame, RepositoryCall.run_onRows hctx hkeep'] at hblind
  exact hblind

end Runs

/-- Every run of repository calls in the context of {lit}`T` answers the same on two databases
that agree on the rows of {lit}`T` and whose other rows are apart from the footprint of the run, and
leaves the rows of every other tenant as they were. -/
theorem repository_noninterference (schema : Schema Row) (T : Id) (fp : Footprint Row)
    (steps : List (RepositoryQuery Row)) (db db' : Tables schema)
    (hctx : ∀ a ∈ steps, a.env.context.Holds T)
    (hcalls : ∀ a ∈ steps, ∀ rows, (a.call rows).StaysIn T)
    (hkeeps : ∀ a ∈ steps, ∀ rows, (a.call rows).KeepsTo fp schema T a.repo a.env)
    (hkeys : ∀ a ∈ steps, a.repo.delegate.primaryKey ∈ schema.uniqueKeys)
    (hlooks : (repositoriesOn schema).EachPair (fun a => a.LooksAtOwn T) steps db db')
    (hapart : Apart T fp db db') (hown : own T db.rows = own T db'.rows) :
    ((repositoriesOn schema).run steps db).1 = ((repositoriesOn schema).run steps db').1 ∧
      others T ((repositoriesOn schema).exec steps db).rows = others T db.rows ∧
      others T ((repositoriesOn schema).exec steps db').rows = others T db'.rows := by
  have hagree : Agree T fp (others T db.rows) (others T db'.rows) db db' :=
    ⟨hapart.outside hown, hapart.closed, hapart.stored, hown, rfl, rfl⟩
  rcases (repositoriesOn schema).unwinding (fun a ha s t hst hlooks =>
    repositoriesOn_step (hctx a ha) (hcalls a ha) (hkeeps a ha) (hkeys a ha) hst hlooks) hagree
      hlooks with ⟨hanswers, hend⟩
  exact ⟨hanswers, hend.frame, hend.frame'⟩

/-! ## Runs over orders and their tickets -/

/-- A call of the order repository in the context of {lit}`tenant-a`. -/
def orderQuery (call : List OrderRow → RepositoryCall OrderRow) : RepositoryQuery OrderRow where
  repo := { delegate := orderRows }
  env := ⟨{ tenantId := some "tenant-a" }, fun _ => "order-c", 0⟩
  call := call

/-- Count the orders that have a ticket. -/
def countTicketed : RepositoryQuery OrderRow :=
  orderQuery fun rows => .count
    { rest := fun order => rows.any fun r => ticketOrder.column r == some (TenantRow.id order) }

/-- Count the orders with a ticket, take an order, note something on it and delete another one. -/
def closingRun : List (RepositoryQuery OrderRow) :=
  [countTicketed,
    orderQuery fun _ => .create {},
    orderQuery fun _ => .update "order-c"
      { assign := Sum.map (fun order => { order with specialNotes := some "to go" }) id
        assign_tenantId := fun r => by cases r <;> rfl },
    orderQuery fun _ => .delete "order-a"]

theorem orderFootprint_update {r r' : OrderRow} (hid : TenantRow.id r' = TenantRow.id r)
    (hcolumn : ticketOrder.column r' = ticketOrder.column r)
    (hkey : orderRows.primaryKey r' = orderRows.primaryKey r) (hr : orderFootprint.rows r) :
    orderFootprint.Allows orderSchema (some r, some r') := by
  refine orderFootprint_allows (fun v hv => Or.inl (hkey.trans hv)) ?_
  rintro _ ⟨⟩
  exact ⟨hid ▸ hr.1, hcolumn ▸ hr.2⟩

/-- The run keeps to the footprint of the tenant's orders. -/
theorem closingRun_keepsTo : ∀ a ∈ closingRun, ∀ rows,
    (a.call rows).KeepsTo orderFootprint orderSchema "tenant-a" a.repo a.env := by
  intro a ha rows
  simp only [closingRun, List.mem_cons, List.not_mem_nil, or_false] at ha
  rcases ha with rfl | rfl | rfl | rfl
  · trivial
  · exact ⟨⟨by decide, by rintro _ ⟨⟩⟩, orderFootprint.coversNested_default _ _⟩
  · intro r hr _
    refine ⟨?_, orderFootprint.coversNested_default _ _⟩
    cases r <;> exact orderFootprint_update rfl rfl rfl hr
  · exact orderFootprint_covers_delete (fun _ => "order-c") _ rfl

/-- Whether one of the tenant's orders has a ticket, the tenant's tickets say. -/
theorem countTicketed_looks : countTicketed.LooksAtOwn "tenant-a" twoOrders oneOrder := by
  refine ⟨fun r => decide (TenantRow.id r ∈ orderIds), by decide, ?_⟩
  refine congrArg RepositoryCall.count ?_
  unfold Where.onRows
  congr 1
  funext order
  cases hid : decide (TenantRow.id order ∈ orderIds) with
  | false => simp only [hid, Bool.false_and]
  | true =>
      have hother : ("order-b" == TenantRow.id order) = false := by
        rw [beq_eq_false_iff_ne]
        rintro h
        rw [← h] at hid
        revert hid
        decide
      simp [twoOrders, oneOrder, orderOf, ticketOf, ticketOrder, hother]

/-- Another tenant's order and its ticket do not show in the run, and are left alone by it. -/
theorem closingRun_noninterference :
    ((repositoriesOn orderSchema).run closingRun twoOrders).1 =
        ((repositoriesOn orderSchema).run closingRun oneOrder).1 ∧
      others "tenant-a" ((repositoriesOn orderSchema).exec closingRun twoOrders).rows =
        others "tenant-a" twoOrders.rows ∧
      others "tenant-a" ((repositoriesOn orderSchema).exec closingRun oneOrder).rows =
        others "tenant-a" oneOrder.rows := by
  refine repository_noninterference orderSchema "tenant-a" orderFootprint closingRun _ _ ?_ ?_
    closingRun_keepsTo ?_ ?_ orderFootprint_apart rfl
  · intro a ha
    simp only [closingRun, List.mem_cons, List.not_mem_nil, or_false] at ha
    rcases ha with rfl | rfl | rfl | rfl <;> exact ⟨rfl, by decide⟩
  · intro a ha rows
    simp only [closingRun, List.mem_cons, List.not_mem_nil, or_false] at ha
    rcases ha with rfl | rfl | rfl | rfl
    · trivial
    · exact fun parent _ => Nested.writesOwn_default "tenant-a" _ parent
    · exact ⟨Or.inl rfl, fun parent _ => Nested.writesOwn_default "tenant-a" _ parent⟩
    · trivial
  · intro a ha
    simp only [closingRun, List.mem_cons, List.not_mem_nil, or_false] at ha
    rcases ha with rfl | rfl | rfl | rfl <;> exact List.mem_cons_self
  · have hall : ∀ rows : List OrderRow, ∀ r ∈ own "tenant-a" rows, (fun _ => true) r = true :=
      fun _ _ _ => rfl
    exact ⟨countTicketed_looks, ⟨_, hall _, rfl⟩, ⟨_, hall _, rfl⟩, ⟨_, hall _, rfl⟩, trivial⟩

/-- A tenant's order without a ticket. -/
def loneOrder : Tables orderSchema where
  rows := [orderOf "tenant-a" "order-a"]
  accepted := rfl

/-- The order with a ticket of another tenant. -/
def foreignTicket : Tables orderSchema where
  rows := [orderOf "tenant-a" "order-a", ticketOf "tenant-b" "ticket-b" "order-a"]
  accepted := rfl

/-- Databases that agree on the rows of a tenant do not answer alike, and calls change rows of
other tenants: a creation finds its id taken by another tenant, a count of the orders with a
ticket counts one whose ticket another tenant has, a deletion takes that ticket along, and an
update that names another tenant hands it the order. -/
theorem tenants_interfere :
    let run := fun q db => (repositoriesOn orderSchema).step q db
    let createTaken := orderQuery fun _ => .create
      { assign := Sum.map (fun order => { order with id := "order-b" }) id
        assign_tenantId := fun r => by cases r <;> rfl }
    let handOver := orderQuery fun _ => .update "order-a" { tenantId := some (some "tenant-b") }
    own "tenant-a" oneOrder.rows = own "tenant-a" twoOrders.rows ∧
      own "tenant-a" loneOrder.rows = own "tenant-a" foreignTicket.rows ∧
      (run createTaken oneOrder).1.isOk = true ∧ (run createTaken twoOrders).1.isOk = false ∧
      (run countTicketed loneOrder).1 = .ok (.number 0) ∧
      (run countTicketed foreignTicket).1 = .ok (.number 1) ∧
      (run (orderQuery fun _ => .delete "order-a") foreignTicket).2.rows = [] ∧
      (others "tenant-a" (run handOver loneOrder).2.rows).length = 1 := by
  refine ⟨rfl, rfl, ?_, ?_, rfl, rfl, ?_, ?_⟩ <;> decide

end Database
end Eleva
