import Eleva.Database.Noninterference
import Eleva.Database.SoftDelete

/-!
# Database - The laws of soft deletion

What the repository of a soft-deletable model promises in the context of one tenant, in every
state that repository calls can reach: which rows its reads see, when a deletion or a
restoration changes nothing, and that a restoration takes a deletion back.

Main results:

- Definition {lit}`SoftDeletableModel.Laws`: the laws, about one state of the rows.
- Theorem {lit}`SoftDeletableModel.laws_of_run`: they hold after every run of calls.
- Theorem {lit}`tenant_keys_break_laws`: a filter on another tenant is overridden, and a
  deletion that rewrites the tenant, the id or related rows is not taken back.
-/

namespace Eleva

open Foundation Database TableOf

variable {Row : Type} [TenantRow Row]

/-! ## Soft-deletable models -/

/-- A soft-deletable model: its repository, and a column that holds nothing but the
tombstone. -/
structure SoftDeletableModel (Row : Type) [TenantRow Row] where
  repo : BaseTenantRepository Row
  column : DeletedAtColumn Row
  softDeletes : SoftDeletes repo column
  set_get : ∀ r, column.set (column.get r) r = r

def restaurantModel : SoftDeletableModel Restaurant where
  repo := restaurantRepository
  column := restaurantDeletedAt
  softDeletes := restaurants_softDelete
  set_get _ := rfl

def branchModel : SoftDeletableModel Branch where
  repo := branchRepository
  column := branchDeletedAt
  softDeletes := branches_softDelete
  set_get _ := rfl

def tableModel : SoftDeletableModel Table where
  repo := tableRepository
  column := tableDeletedAt
  softDeletes := tables_softDelete
  set_get _ := rfl

def categoryModel : SoftDeletableModel Category where
  repo := categoryRepository
  column := categoryDeletedAt
  softDeletes := categories_softDelete
  set_get _ := rfl

def productModel : SoftDeletableModel Product where
  repo := productRepository
  column := productDeletedAt
  softDeletes := products_softDelete
  set_get _ := rfl

theorem customer_deletedAt_set (t : Option Timestamp) (r : Customer) :
    ({ r with deletedAt := t } : Customer).deletedAt = t :=
  rfl

theorem customer_id_setDeletedAt (t : Option Timestamp) (r : Customer) :
    TenantRow.id ({ r with deletedAt := t } : Customer) = TenantRow.id r :=
  rfl

theorem customer_tenantId_setDeletedAt (t : Option Timestamp) (r : Customer) :
    TenantRow.tenantId ({ r with deletedAt := t } : Customer) = TenantRow.tenantId r :=
  rfl

/-- The tombstone column of customers. -/
def customerDeletedAt : DeletedAtColumn Customer :=
  ⟨(·.deletedAt), fun t r => { r with deletedAt := t }, customer_deletedAt_set,
    customer_id_setDeletedAt, customer_tenantId_setDeletedAt⟩

theorem customers_softDelete : SoftDeletes customerRepository customerDeletedAt where
  isScoped := by decide
  softDeletable := rfl
  deletedAt := rfl
  isRow _ := rfl

def customerModel : SoftDeletableModel Customer where
  repo := customerRepository
  column := customerDeletedAt
  softDeletes := customers_softDelete
  set_get _ := rfl

theorem user_deletedAt_set (t : Option Timestamp) (r : User) :
    ({ r with deletedAt := t } : User).deletedAt = t :=
  rfl

theorem user_id_setDeletedAt (t : Option Timestamp) (r : User) :
    TenantRow.id ({ r with deletedAt := t } : User) = TenantRow.id r :=
  rfl

theorem user_tenantId_setDeletedAt (t : Option Timestamp) (r : User) :
    TenantRow.tenantId ({ r with deletedAt := t } : User) = TenantRow.tenantId r :=
  rfl

/-- The tombstone column of users. -/
def userDeletedAt : DeletedAtColumn User :=
  ⟨(·.deletedAt), fun t r => { r with deletedAt := t }, user_deletedAt_set,
    user_id_setDeletedAt, user_tenantId_setDeletedAt⟩

theorem users_softDelete : SoftDeletes userRepository userDeletedAt where
  isScoped := by decide
  softDeletable := rfl
  deletedAt := rfl
  isRow _ := rfl

def userModel : SoftDeletableModel User where
  repo := userRepository
  column := userDeletedAt
  softDeletes := users_softDelete
  set_get _ := rfl

namespace SoftDeletableModel

/-- The live rows of a tenant. -/
def live (M : SoftDeletableModel Row) (T : Id) (r : Row) : Bool :=
  owned T r && (M.column.get r).isNone

/-- The live rows of a tenant that match a filter apart from its {lit}`tenantId` key. -/
def sees (M : SoftDeletableModel Row) (T : Id) (f : Where Row) (r : Row) : Bool :=
  M.live T r && ({ f with tenantId := .absent } : Where Row).admits M.repo.delegate r

/-- Columns that a deletion can write along with the tombstone: neither the id nor the tenant.
A tombstone among them is overwritten. -/
structure Columns (M : SoftDeletableModel Row) where
  Value : Type
  get : Row → Value
  set : Value → Row → Row
  set_get : ∀ r, set (get r) r = r
  set_set : ∀ v u r, set v (set u r) = set v r
  id_set : ∀ v r, TenantRow.id (set v r) = TenantRow.id r
  tenantId_set : ∀ v r, TenantRow.tenantId (set v r) = TenantRow.tenantId r
  overlaid : ∀ v t u r,
    M.column.set t (set v (M.column.set u r)) = M.column.set t (set v r)

/-- The {lit}`extraData` object that holds these values. -/
def Columns.payload {M : SoftDeletableModel Row} (columns : M.Columns) (v : columns.Value) :
    Payload Row where
  assign := columns.set v
  assign_tenantId := columns.tenantId_set v

end SoftDeletableModel

/-- The part of the matching rows that a list read returns, at most the default number. -/
def Database.FindManyOptions.window (options : FindManyOptions Row) (rows : List Row) :
    List Row :=
  ({ Args.page {} (options.take.getD BaseTenantRepository.DEFAULT_MAX_ROWS) options.orderBy with
    skip := options.skip.getD 0 } : Args Row).arrange rows

namespace SoftDeletableModel

/-- The laws of soft deletion in the context of a tenant, over one state of the rows. -/
structure Laws (M : SoftDeletableModel Row) (T : Id) (db : Store Row) : Prop where
  findById : ∀ env id, env.context.Holds T →
    M.repo.findById env id db =
      (.ok (db.rows.find? fun r => TenantRow.id r == id && M.live T r), db)
  findByIdIncludingDeleted : ∀ env id, env.context.Holds T →
    M.repo.findByIdIncludingDeleted env id db =
      (.ok (db.rows.find? fun r => TenantRow.id r == id && owned T r), db)
  findMany : ∀ env f options, env.context.Holds T → f.deletedAt = .absent →
    M.repo.findMany env f options db = (.ok (options.window (db.rows.filter (M.sees T f))), db)
  count : ∀ env f, env.context.Holds T → f.deletedAt = .absent →
    M.repo.count env f db = (.ok (db.rows.countP (M.sees T f)), db)
  softDelete_deleted : ∀ env extraData r, env.context.Holds T → r ∈ db.rows →
    owned T r = true → M.column.get r ≠ none →
    M.repo.softDelete env (TenantRow.id r) extraData db = (.ok (some r), db)
  restore_live : ∀ env extraData r, env.context.Holds T → r ∈ db.rows → M.live T r = true →
    M.repo.restore env (TenantRow.id r) extraData db = (.ok (some r), db)
  restore_softDelete : ∀ env env' (columns : M.Columns) v r a db', env.context.Holds T →
    env'.context.Holds T → r ∈ db.rows → M.live T r = true →
    M.repo.softDelete env (TenantRow.id r) (columns.payload v) db = (.ok a, db') →
    M.repo.restore env' (TenantRow.id r) (columns.payload (columns.get r)) db' =
      (.ok (some r), db)
  softDelete_others : ∀ env id extraData, env.context.Holds T → extraData.nested = {} →
    List.Forall₂ (fun r r' => TenantRow.id r ≠ id → r' = r) db.rows
      (M.repo.softDelete env id extraData db).2.rows
  restore_others : ∀ env id extraData, env.context.Holds T → extraData.nested = {} →
    List.Forall₂ (fun r r' => TenantRow.id r ≠ id → r' = r) db.rows
      (M.repo.restore env id extraData db).2.rows

/-! ## Reads -/

section Reads

variable {M : SoftDeletableModel Row} {T : Id} {env : Env} {f : Where Row}

/-- Without a {lit}`deletedAt` key the merged filter admits the live rows of the tenant that
match. -/
theorem scopedWhere_admits_sees (hT : T ≠ "") (hf : f.deletedAt = .absent) :
    (M.repo.scopedWhere f (some T)).admits M.repo.delegate = M.sees T f := by
  funext r
  have htenant : (f.withTenant T).admits M.repo.delegate r =
      (({ f with tenantId := .absent } : Where Row).admits M.repo.delegate r &&
        visible (some T) r) :=
    Where.admits_inScope { f with tenantId := .absent } (some T) rfl r
  rw [BaseTenantRepository.scopedWhere_admits hT, htenant, M.softDeletes.softDeletable, hf,
    M.softDeletes.deletedAt]
  simp only [sees, live, visible, Option.all_some, hf]
  cases owned T r <;> cases (M.column.get r).isNone <;> simp

/-- The merged filter names only columns of the model. -/
theorem known_of_no_deletedAt (hf : f.deletedAt = .absent) : M.repo.Known f (some T) :=
  BaseTenantRepository.known_of_absent _ (fun _ => by rw [M.softDeletes.deletedAt]; rfl) hf

theorem findById_sees (hctx : env.context.Holds T) (id : Id) (db : Store Row) :
    M.repo.findById env id db =
      (.ok (db.rows.find? fun r => TenantRow.id r == id && M.live T r), db) := by
  have hlive : liveRow M.column (some T) id = fun r => TenantRow.id r == id && M.live T r := by
    funext r
    simp only [liveRow, ownRow, visible, Option.all_some, live, Bool.and_assoc]
    rw [Bool.beq_comm]
  rw [findById_apply M.softDeletes (S := some T) hctx, hlive]

theorem findByIdIncludingDeleted_sees (hctx : env.context.Holds T) (id : Id) (db : Store Row) :
    M.repo.findByIdIncludingDeleted env id db =
      (.ok (db.rows.find? fun r => TenantRow.id r == id && owned T r), db) := by
  have hown : ownRow (some T) id = fun r : Row => TenantRow.id r == id && owned T r := by
    funext r
    simp only [ownRow, visible, Option.all_some]
    rw [Bool.beq_comm]
  rw [findByIdIncludingDeleted_apply M.softDeletes (S := some T) hctx, hown]

/-- A list read returns a window of the live rows of the tenant that match. -/
theorem findMany_sees (hctx : env.context.Holds T) (hf : f.deletedAt = .absent)
    (options : FindManyOptions Row) (db : Store Row) :
    M.repo.findMany env f options db =
      (.ok (options.window (db.rows.filter (M.sees T f))), db) := by
  unfold BaseTenantRepository.findMany
  rw [BaseTenantRepository.getTenantId_of_holds hctx, Fallible.reads_ok_bind,
    Fallible.bind_of_ok (invoke_read (S := some T) hctx M.softDeletes.isScoped (by simp) ?_
      rfl rfl rfl rfl),
    Fallible.pure_apply, Root.found_outcome rfl, Args.inScope_where (by simp [filteredOperations])]
  · simp only [BaseTenantRepository.scopedWhere_inScope (S := some T)
      (BaseTenantRepository.truthy_of_sees hctx), scopedWhere_admits_sees hctx.nonempty hf]
    rfl
  · exact known_of_no_deletedAt hf

/-- A count counts the live rows of the tenant that match. -/
theorem count_sees (hctx : env.context.Holds T) (hf : f.deletedAt = .absent) (db : Store Row) :
    M.repo.count env f db = (.ok (db.rows.countP (M.sees T f)), db) := by
  have hknown : M.repo.Known f (some T) := known_of_no_deletedAt hf
  unfold BaseTenantRepository.count
  rw [BaseTenantRepository.getTenantId_of_holds hctx, Fallible.reads_ok_bind,
    Fallible.bind_of_ok (invoke_read (S := some T) hctx M.softDeletes.isScoped (by simp) hknown
      rfl rfl rfl rfl),
    Fallible.pure_apply, Args.inScope_where (by simp [filteredOperations])]
  simp [Result.number, Root.outcome, Args.arrange, List.countP_eq_length_filter,
    BaseTenantRepository.scopedWhere_inScope (S := some T)
      (BaseTenantRepository.truthy_of_sees hctx), scopedWhere_admits_sees hctx.nonempty hf]

end Reads

/-! ## Writes of the tombstone -/

section Writes

variable {M : SoftDeletableModel Row} {S : Option Id} {env : Env} {db : Store Row} {id : Id}
  {r : Row}
  (extraData : Payload Row) (unchanged : Option Timestamp → Bool) (t : Option Timestamp)

/-- The rows after a tombstone is written to the row with an id, or removed from it. -/
def marked (M : SoftDeletableModel Row) (S : Option Id) (id : Id) (extraData : Payload Row)
    (t : Option Timestamp) (rows : List Row) : List Row :=
  rewriteWhere (ownRow S id)
    (BaseTenantRepository.withDeletedAt M.column extraData t).apply rows

/-- The rows keep to the constraints of the schema, of which the primary key is one. -/
structure Valid (M : SoftDeletableModel Row) (db : Store Row) : Prop where
  accepted : db.accepts db.rows = true
  primaryKey : M.repo.delegate.primaryKey ∈ db.uniqueKeys

/-- Rows of a valid table with the same id are one row. -/
theorem Valid.eq_of_id {s r' : Row} (h : M.Valid db) (hs : s ∈ db.rows) (hr' : r' ∈ db.rows)
    (hid : TenantRow.id s = TenantRow.id r') : s = r' := by
  have haccepted := h.accepted
  unfold Store.accepts at haccepted
  rw [Bool.and_eq_true, List.all_eq_true] at haccepted
  have hnodup : (db.rows.filterMap M.repo.delegate.primaryKey).Nodup :=
    of_decide_eq_true (haccepted.1 _ h.primaryKey)
  have hkey : ∀ x : Row, M.repo.delegate.primaryKey x = some (TenantRow.id x) := fun x =>
    if_pos (M.softDeletes.isRow x)
  exact eq_of_filterMap_nodup hnodup hs hr' (hkey s) ((hkey r').trans (congrArg some hid.symm))

/-- The row in scope with an id. -/
theorem Valid.find?_own (h : M.Valid db) (hr : r ∈ db.rows) (hscope : visible S r = true) :
    db.rows.find? (ownRow S (TenantRow.id r)) = some r := by
  refine (find?_iff_of_unique ?_).mpr ⟨hr, by simp [ownRow, hscope]⟩
  intro x hx y hy hpx hpy
  exact h.eq_of_id hx hy ((id_of_ownRow hpx).trans (id_of_ownRow hpy).symm)

/-- A row that has the state asked for already is returned, and nothing is written. -/
theorem setDeletedAt_unchanged (hctx : env.context.Sees S)
    (hfind : db.rows.find? (ownRow S id) = some r)
    (hsame : unchanged (M.column.get r) = true) :
    M.repo.setDeletedAt env id extraData unchanged t db = (.ok (some r), db) := by
  have hlookup := findByIdIncludingDeleted_apply M.softDeletes hctx id db
  rw [hfind] at hlookup
  refine (Fallible.bind_of_ok hlookup).trans ?_
  simp only [M.softDeletes.deletedAt, Option.bind_some, hsame, if_true]
  rfl

/-- Any other row is rewritten, unless a constraint refuses it. -/
theorem setDeletedAt_writes (hctx : env.context.Sees S) (hnested : extraData.nested = {})
    (hfind : db.rows.find? (ownRow S id) = some r)
    (hother : unchanged (M.column.get r) = false) :
    M.repo.setDeletedAt env id extraData unchanged t db =
      if db.accepts (M.marked S id extraData t db.rows) then
        (.ok (some ((BaseTenantRepository.withDeletedAt M.column extraData t).apply r)),
          { db with rows := M.marked S id extraData t db.rows })
      else (.error .constraintViolation, db) := by
  have hlookup := findByIdIncludingDeleted_apply M.softDeletes hctx id db
  rw [hfind] at hlookup
  have hid : TenantRow.id r = id := id_of_ownRow (List.find?_some hfind)
  have hnested' : (BaseTenantRepository.withDeletedAt M.column extraData t).nested = {} := hnested
  have hupdate := Delegate.update_apply (w := { id := some id }) hctx
    M.softDeletes.isScoped (by simp [Args.unknownColumn]) hnested' db
  rw [admits_ownRow M.softDeletes.isRow, hfind] at hupdate
  refine (Fallible.bind_of_ok hlookup).trans ?_
  simp only [M.softDeletes.deletedAt, Option.bind_some, hother, Bool.false_eq_true, if_false, hid]
  exact hupdate

/-- An update of a live row rewrites it, unless a constraint refuses it. -/
theorem update_writes (h : M.Valid db) (data : Payload Row) (hctx : env.context.Sees S)
    (hnested : data.nested = {}) (hfind : db.rows.find? (liveRow M.column S id) = some r) :
    M.repo.update env id data db =
      if db.accepts (rewriteWhere (ownRow S id) data.apply db.rows) then
        (.ok (some (data.apply r)),
          { db with rows := rewriteWhere (ownRow S id) data.apply db.rows })
      else (.error .constraintViolation, db) := by
  have hlookup := findById_apply M.softDeletes hctx id db
  rw [hfind] at hlookup
  rcases liveRow_iff.mp (List.find?_some hfind) with ⟨hid, hscope, _⟩
  have hown : db.rows.find? (ownRow S id) = some r :=
    hid ▸ h.find?_own (List.mem_of_find?_eq_some hfind) hscope
  have hupdate := Delegate.update_apply (w := { id := some id }) hctx
    M.softDeletes.isScoped (by simp [Args.unknownColumn]) hnested db
  rw [admits_ownRow M.softDeletes.isRow, hown] at hupdate
  refine (Fallible.bind_of_ok hlookup).trans ?_
  simp only [hid]
  exact hupdate

/-- Without a row in scope nothing is written. -/
theorem setDeletedAt_not_found (hctx : env.context.Sees S)
    (hfind : db.rows.find? (ownRow S id) = none) :
    M.repo.setDeletedAt env id extraData unchanged t db = (.error (notFoundError id), db) := by
  have hlookup := findByIdIncludingDeleted_apply M.softDeletes hctx id db
  rw [hfind] at hlookup
  exact Fallible.bind_of_ok hlookup

/-- Marking a row leaves the rows with other ids where they are. -/
theorem forall₂_marked (M : SoftDeletableModel Row) (S : Option Id) (id : Id)
    (extraData : Payload Row) (t : Option Timestamp) (rows : List Row) :
    List.Forall₂ (fun r r' => TenantRow.id r ≠ id → r' = r) rows
      (M.marked S id extraData t rows) := by
  unfold marked rewriteWhere
  rw [List.forall₂_map_right_iff, List.forall₂_same]
  intro r _ hid
  have hnot : ownRow S id r = false := by
    simp [ownRow, Ne.symm hid]
  rw [hnot]
  rfl

/-- Writing a tombstone, or removing one, leaves the rows with other ids. -/
theorem setDeletedAt_others (hctx : env.context.Sees S) (hnested : extraData.nested = {}) :
    List.Forall₂ (fun r r' => TenantRow.id r ≠ id → r' = r) db.rows
      (M.repo.setDeletedAt env id extraData unchanged t db).2.rows := by
  have hsame : List.Forall₂ (fun r r' => TenantRow.id r ≠ id → r' = r) db.rows db.rows :=
    List.forall₂_same.mpr fun _ _ _ => rfl
  cases hfind : db.rows.find? (ownRow S id) with
  | none =>
      rw [setDeletedAt_not_found extraData unchanged t hctx hfind]
      exact hsame
  | some r =>
      cases hstate : unchanged (M.column.get r) with
      | true =>
          rw [setDeletedAt_unchanged extraData unchanged t hctx hfind hstate]
          exact hsame
      | false =>
          rw [setDeletedAt_writes extraData unchanged t hctx hnested hfind hstate]
          split
          · exact forall₂_marked M S id _ _ db.rows
          · exact hsame

end Writes

/-! ## A restoration takes a deletion back -/

section RoundTrip

variable {M : SoftDeletableModel Row} {T : Id} {db : Store Row} {r : Row}

/-- The tombstone and the columns written with it, put back, are the row as it was. -/
theorem apply_restored (columns : M.Columns) (v : columns.Value) (t : Option Timestamp)
    (hr : M.column.get r = none) :
    (BaseTenantRepository.withDeletedAt M.column (columns.payload (columns.get r)) none).apply
      ((BaseTenantRepository.withDeletedAt M.column (columns.payload v) t).apply r) = r := by
  calc M.column.set none (columns.set (columns.get r) (M.column.set t (columns.set v r)))
      = M.column.set none (columns.set (columns.get r) (columns.set v r)) :=
        columns.overlaid _ _ _ _
    _ = M.column.set none r := by rw [columns.set_set, columns.set_get]
    _ = M.column.set (M.column.get r) r := by rw [hr]
    _ = r := M.set_get r

/-- Columns written with a tombstone name neither the id nor the tenant. -/
theorem ownRow_apply (columns : M.Columns) (v : columns.Value) (t : Option Timestamp) (id : Id)
    (s : Row) :
    ownRow (some T) id
        ((BaseTenantRepository.withDeletedAt M.column (columns.payload v) t).apply s) =
      ownRow (some T) id s := by
  have hid : TenantRow.id (M.column.set t (columns.set v s)) = TenantRow.id s :=
    (M.column.id_set _ _).trans (columns.id_set _ _)
  have htenant : TenantRow.tenantId (M.column.set t (columns.set v s)) = TenantRow.tenantId s :=
    (M.column.tenantId_set _ _).trans (columns.tenantId_set _ _)
  calc ownRow (some T) id (M.column.set t (columns.set v s))
      = (id == TenantRow.id (M.column.set t (columns.set v s)) &&
          TenantRow.tenantId (M.column.set t (columns.set v s)) == some T) := rfl
    _ = ownRow (some T) id s := by rw [hid, htenant]; rfl

/-- The row that a lookup finds once the row with its id is marked. -/
theorem find?_marked (columns : M.Columns) (v : columns.Value) (t : Option Timestamp) (id : Id)
    (rows : List Row) :
    (M.marked (some T) id (columns.payload v) t rows).find? (ownRow (some T) id) =
      (rows.find? (ownRow (some T) id)).map
        (BaseTenantRepository.withDeletedAt M.column (columns.payload v) t).apply := by
  induction rows with
  | nil => rfl
  | cons s rows ih =>
      unfold marked rewriteWhere at ih ⊢
      rw [List.map_cons, List.find?_cons, List.find?_cons]
      cases hs : ownRow (some T) id s with
      | true => simp [ownRow_apply, hs]
      | false => simpa [hs] using ih

/-- Marking the row back leaves the rows as they were. -/
theorem marked_marked (h : M.Valid db) (columns : M.Columns) (v : columns.Value)
    (t : Option Timestamp) (hr : r ∈ db.rows) (hlive : M.column.get r = none) :
    M.marked (some T) (TenantRow.id r) (columns.payload (columns.get r)) none
      (M.marked (some T) (TenantRow.id r) (columns.payload v) t db.rows) = db.rows := by
  unfold marked rewriteWhere
  rw [List.map_map]
  conv_rhs => rw [← List.map_id db.rows]
  refine List.map_congr_left fun s hs => ?_
  cases hown : ownRow (some T) (TenantRow.id r) s with
  | true =>
      have hsame : s = r := h.eq_of_id hs hr (id_of_ownRow hown)
      simp only [Function.comp, hown, if_true, ownRow_apply]
      rw [hsame]
      exact apply_restored columns v t hlive
  | false => simp [hown]

/-- A deletion that returned, taken back, leaves the row and every other one as they were. -/
theorem restore_softDelete {env env' : Env} (h : M.Valid db) (hctx : env.context.Holds T)
    (hctx' : env'.context.Holds T) (columns : M.Columns) (v : columns.Value) (hr : r ∈ db.rows)
    (hlive : M.live T r = true) {a : Option Row} {db' : Store Row}
    (hrun : M.repo.softDelete env (TenantRow.id r) (columns.payload v) db = (.ok a, db')) :
    M.repo.restore env' (TenantRow.id r) (columns.payload (columns.get r)) db' =
      (.ok (some r), db) := by
  rw [live, Bool.and_eq_true, Option.isNone_iff_eq_none] at hlive
  have hfind := h.find?_own (S := some T) hr hlive.1
  have hdeleted := setDeletedAt_writes (M := M) (S := some T) (columns.payload v)
    Option.isSome (some env.now) hctx rfl hfind (by rw [hlive.2]; rfl)
  unfold BaseTenantRepository.softDelete at hrun
  rw [hdeleted] at hrun
  split at hrun
  · cases hrun
    have hfind' : (Store.rows { db with
        rows := M.marked (some T) (TenantRow.id r) (columns.payload v) (some env.now)
          db.rows }).find? (ownRow (some T) (TenantRow.id r)) =
        some ((BaseTenantRepository.withDeletedAt M.column (columns.payload v)
          (some env.now)).apply r) :=
      (find?_marked columns v (some env.now) (TenantRow.id r) db.rows).trans
        (congrArg (Option.map _) hfind)
    have hstate : Option.isNone (M.column.get
        ((BaseTenantRepository.withDeletedAt M.column (columns.payload v) (some env.now)).apply r))
          = false := by
      have hget : M.column.get ((BaseTenantRepository.withDeletedAt M.column (columns.payload v)
          (some env.now)).apply r) = some env.now := M.column.get_set _ _
      rw [hget]
      rfl
    have hrestored := setDeletedAt_writes (M := M) (S := some T) (columns.payload (columns.get r))
      Option.isNone none hctx' rfl hfind' hstate
    unfold BaseTenantRepository.restore
    rw [hrestored]
    simp only [marked_marked h columns v (some env.now) hr hlive.2]
    rw [apply_restored columns v (some env.now) hlive.2]
    exact if_pos h.accepted
  · cases hrun

end RoundTrip

/-! ## Runs of calls -/

section Runs

variable {db₀ : Store Row} {env : Env}

/-- Rows that keep to the constraints of a database. -/
structure Sound (db₀ db : Store Row) : Prop where
  accepted : db.accepts db.rows = true
  uniqueKeys : db.uniqueKeys = db₀.uniqueKeys

/-- A statement of any client leaves rows that keep to the constraints. -/
theorem invoke_keeps (m : Delegate Row) (op : Operation) (args : Args Row) :
    Fallible.Keeps (Sound db₀) (invoke env m op args) := by
  intro db h
  unfold invoke call
  cases scope env.context m op args with
  | error e => exact h
  | ok sent =>
      simp only [Engine.exec_store, Engine.leave_store]
      cases hexec : exec m env.uuid op sent db with
      | error e => exact h
      | ok out =>
          have haccepted := exec_valid h.accepted hexec
          exact ⟨haccepted, h.uniqueKeys⟩

theorem findFirst_keeps (repo : BaseTenantRepository Row) (f : Where Row) :
    Fallible.Keeps (Sound db₀) (repo.findFirst env f) :=
  .bind (.reads _) fun _ => .bind (invoke_keeps _ _ _) fun _ => .pure _

theorem create_keeps (repo : BaseTenantRepository Row) (data : Payload Row) :
    Fallible.Keeps (Sound db₀) (repo.create env data) :=
  .bind (.reads _) fun _ => .bind (.throwIf _ _) fun _ =>
    .bind (invoke_keeps _ _ _) fun _ => .pure _

theorem onOwned_keeps (repo : BaseTenantRepository Row) (id : Id) (op : Operation)
    (data : Payload Row) : Fallible.Keeps (Sound db₀) (repo.onOwned env id op data) := by
  refine .bind (findFirst_keeps _ _) fun entity => ?_
  cases entity with
  | none => exact .throw _
  | some entity => exact .bind (invoke_keeps _ _ _) fun _ => .pure _

theorem setDeletedAt_keeps (repo : BaseTenantRepository Row) (id : Id) (extraData : Payload Row)
    (unchanged : Option Timestamp → Bool) (t : Option Timestamp) :
    Fallible.Keeps (Sound db₀) (repo.setDeletedAt env id extraData unchanged t) := by
  refine .bind (findFirst_keeps _ _) fun entity => ?_
  cases entity with
  | none => exact .throw _
  | some entity =>
      simp only
      split
      · exact .pure _
      · cases repo.delegate.deletedAt with
        | none => exact .throw _
        | some column => exact .bind (invoke_keeps _ _ _) fun _ => .pure _

/-- A call of any repository leaves rows that keep to the constraints. -/
theorem run_keeps (repo : BaseTenantRepository Row) (call : RepositoryCall Row) :
    Fallible.Keeps (Sound db₀) (call.run repo env) := by
  cases call with
  | findById id => exact .bind (findFirst_keeps _ _) fun _ => .pure _
  | findByIdIncludingDeleted id => exact .bind (findFirst_keeps _ _) fun _ => .pure _
  | findMany f options =>
      exact .bind (.bind (.reads _) fun _ => .bind (invoke_keeps _ _ _) fun _ => .pure _)
        fun _ => .pure _
  | count f =>
      exact .bind (.bind (.reads _) fun _ => .bind (invoke_keeps _ _ _) fun _ => .pure _)
        fun _ => .pure _
  | create data => exact .bind (create_keeps _ _) fun _ => .pure _
  | update id data => exact .bind (onOwned_keeps _ _ _ _) fun _ => .pure _
  | delete id => exact .bind (onOwned_keeps _ _ _ _) fun _ => .pure _
  | softDelete id extraData => exact .bind (setDeletedAt_keeps _ _ _ _ _) fun _ => .pure _
  | restore id extraData => exact .bind (setDeletedAt_keeps _ _ _ _ _) fun _ => .pure _

end Runs

/-! ## The laws -/

/-- Valid rows meet the laws. -/
theorem Valid.laws {M : SoftDeletableModel Row} {db : Store Row} (h : M.Valid db) (T : Id) :
    M.Laws T db where
  findById _ id hctx := findById_sees hctx id db
  findByIdIncludingDeleted _ id hctx := findByIdIncludingDeleted_sees hctx id db
  findMany _ _ options hctx hf := findMany_sees hctx hf options db
  count _ _ hctx hf := count_sees hctx hf db
  softDelete_deleted env extraData r hctx hr howned hdeleted :=
    setDeletedAt_unchanged (S := some T) extraData Option.isSome (some env.now) hctx
      (h.find?_own hr howned) (Option.isSome_iff_ne_none.mpr hdeleted)
  restore_live _ extraData r hctx hr hlive := by
    rw [live, Bool.and_eq_true] at hlive
    exact setDeletedAt_unchanged (S := some T) extraData Option.isNone none hctx
      (h.find?_own hr hlive.1) hlive.2
  restore_softDelete _ _ columns v _ _ _ hctx hctx' hr hlive hrun :=
    restore_softDelete h hctx hctx' columns v hr hlive hrun
  softDelete_others env _ extraData hctx hnested :=
    setDeletedAt_others (S := some T) extraData Option.isSome (some env.now) hctx hnested
  restore_others _ _ extraData hctx hnested :=
    setDeletedAt_others (S := some T) extraData Option.isNone none hctx hnested

/-- Whatever calls came before, the laws of soft deletion hold in the context of any tenant. -/
theorem laws_of_run (M : SoftDeletableModel Row) (T : Id) {db : Store Row}
    (hdb : db.accepts db.rows = true) (hkey : M.repo.delegate.primaryKey ∈ db.uniqueKeys)
    (steps : List (RepositoryStep Row)) :
    M.Laws T ((repositories Row).exec steps db) := by
  have hsound : Sound db ((repositories Row).exec steps db) :=
    (repositories Row).run_invariant (fun a _ s hs => run_keeps a.repo a.call s hs) ⟨hdb, rfl⟩
  have hvalid : M.Valid ((repositories Row).exec steps db) :=
    ⟨hsound.accepted, hsound.uniqueKeys ▸ hkey⟩
  exact hvalid.laws T

/-- A table of another tenant. -/
def foreignTable (number qrCodeToken : String) : Table where
  id := "table-b"
  tenantId := "tenant-b"
  branchId := "branch-b"
  number := number
  qrCodeToken := qrCodeToken

/-- A table store with the schema's two unique keys. -/
def tableStore (rows : List Table) : Store Table where
  rows := rows
  uniqueKeys := [prisma.table.primaryKey, fun t => some t.qrCodeToken]

/-- The table of the tenant {lit}`tenant-a`. -/
def ownTable : Table where
  id := "table-a"
  tenantId := "tenant-a"
  branchId := "branch-a"
  number := "1"
  qrCodeToken := "token"

/-- What a call in the context of the tenant {lit}`tenant-a` draws from its surroundings. -/
def tenantEnv : Env := ⟨{ tenantId := some "tenant-a" }, fun _ => "table-a", 7⟩

/-- The laws, after a run that renames a table and deletes it. -/
theorem laws_of_rename :
    tableModel.Laws "tenant-a" ((repositories Table).exec
      [⟨tableRepository, tenantEnv,
          .update "table-a" { assign := fun t => { t with number := "2" } }⟩,
        ⟨tableRepository, tenantEnv, .softDelete "table-a" {}⟩] (tableStore [ownTable])) :=
  laws_of_run tableModel "tenant-a" (by decide) List.mem_cons_self _

/-- Keys that address the tenant, the id or related rows break the laws.  A count with a filter
on another tenant counts the rows of the context's tenant.  A deletion that also writes the
tenant or the id leaves a row that the restoration does not find, and one that also writes
related rows changes them. -/
theorem tenant_keys_break_laws :
    let db := tableStore [ownTable]
    let f : Where Table := { tenantId := .filter fun t => t == some "tenant-b" }
    let moved : Payload Table := { tenantId := some (some "tenant-b") }
    let renamed : Payload Table := { assign := fun t => { t with id := "table-c" } }
    let related : Payload Table :=
      { nested := { touches := fun _ r => r.id == "table-b", change := fun _ => none } }
    (tableRepository.count tenantEnv f db).1 = .ok 1 ∧
      db.rows.countP (fun r => tableModel.live "tenant-a" r && f.admits prisma.table r) = 0 ∧
      (∀ extraData ∈ [moved, renamed],
        let deleted := tableRepository.softDelete tenantEnv "table-a" extraData db
        deleted.1.isOk = true ∧
          (tableRepository.restore tenantEnv "table-a" {} deleted.2).1.isOk = false) ∧
      ((tableRepository.softDelete tenantEnv "table-a" related
        (tableStore [ownTable, foreignTable "7" "other"])).2.rows.length) = 1 := by
  refine ⟨rfl, by decide, ?_, by decide⟩
  intro extraData h
  rcases List.mem_pair.mp h with rfl | rfl <;> decide

end SoftDeletableModel

end Eleva
