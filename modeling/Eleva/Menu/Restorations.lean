import Eleva.Branch.BranchService
import Eleva.Menu.MenuService

/-!
# Menu - Restorations after deletions

What a branch, a table, a category or a product is after it was deleted and restored through
the services, by any callers.

Main results:

- Theorem {lit}`restored_row`: the row that a restoration leaves of a marked one.
- Theorem {lit}`restore_after_delete`: the four records, restored.
- Theorem {lit}`restoring_resets_flags`: the flags are not as before.
-/

namespace Eleva
namespace Restorations

open Foundation Database TableOf BranchService MenuService

/-! ## A marked row, restored -/

section Rows

variable {Row : Type} [TenantRow Row] [DecidableEq Row] {t : TableOf Row}
  {repo : BaseTenantRepository Row} {column : DeletedAtColumn Row} {env : Env} {S S' : Option Id}
  {r : Row} {f : Row → Row} {w w' w₁ w₂ : World}

omit [DecidableEq Row] in
/-- Rows with ids of their own: the row in scope with the id of one of them is that one. -/
theorem find?_ownRow {rows : List Row} {target : Row} (hids : (rows.map TenantRow.id).Nodup)
    (hr : r ∈ rows) (hfind : rows.find? (ownRow S (TenantRow.id r)) = some target) :
    target = r :=
  List.inj_on_of_nodup_map hids (List.mem_of_find?_eq_some hfind) hr
    (id_of_ownRow (List.find?_some hfind))

omit [DecidableEq Row] in
/-- The row with an id, after the rows in scope with that id are rewritten. -/
theorem find?_rewriteWhere {rows : List Row} (hids : (rows.map TenantRow.id).Nodup)
    (hr : r ∈ rows) (hscope : visible S r = true)
    (hf : ∀ x, TenantRow.id (f x) = TenantRow.id x) :
    (rewriteWhere (ownRow S (TenantRow.id r)) f rows).find?
      (fun x => TenantRow.id x == TenantRow.id r) = some (f r) := by
  have hids' : ((rewriteWhere (ownRow S (TenantRow.id r)) f rows).map TenantRow.id).Nodup := by
    rw [map_rewriteWhere hf]
    exact hids
  refine (find?_iff_of_unique ?_).mpr ⟨?_, beq_iff_eq.mpr (hf r)⟩
  · intro x hx y hy hpx hpy
    exact List.inj_on_of_nodup_map hids' hx hy
      ((beq_iff_eq.mp hpx).trans (beq_iff_eq.mp hpy).symm)
  · exact List.mem_map.mpr ⟨r, hr, by simp [ownRow, hscope]⟩

/-- A deletion through the repository that returned has marked a live row, which is in scope. -/
theorem softDelete_live {extraData : Payload Row} {a : Option Row} (h : SoftDeletes repo column)
    (hctx : env.context.Sees S) (hids : ((t.get w.db).map TenantRow.id).Nodup)
    (hr : r ∈ t.get w.db) (hlive : column.get r = none) (hnested : extraData.nested = {})
    (hrun : t.run (repo.softDelete env (TenantRow.id r) extraData) w = (.ok a, w')) :
    visible S r = true ∧ t.get w'.db = rewriteWhere (ownRow S (TenantRow.id r))
      (BaseTenantRepository.withDeletedAt column extraData (some env.now)).apply (t.get w.db) := by
  rcases run_setDeletedAt h hctx hnested hrun with ⟨target, hfind, heffect⟩
  cases find?_ownRow hids hr hfind
  rw [hlive, Option.isSome_none, if_neg Bool.false_ne_true] at heffect
  have hown := List.find?_some hfind
  rw [ownRow, Bool.and_eq_true] at hown
  refine ⟨hown.2, ?_⟩
  rw [heffect.world, t.get_set]

/-- What a restoration that returned did: it left a live row, or took the tombstone away. -/
def Restores (t : TableOf Row) (column : DeletedAtColumn Row) (S : Option Id) (id : Id)
    (extraData : Payload Row) (w w' : World) : Prop :=
  ∃ target, (t.get w.db).find? (ownRow S id) = some target ∧
    if (column.get target).isNone then w' = w
    else t.Rewrites (ownRow S id)
      (BaseTenantRepository.withDeletedAt column extraData none).apply w w'

omit [DecidableEq Row] in
/-- The row that a restoration leaves of a marked one. -/
theorem restored_row (column : DeletedAtColumn Row) (extraData : Payload Row)
    (hids : ((t.get w.db).map TenantRow.id).Nodup) (hr : r ∈ t.get w.db)
    (hscope : visible S r = true)
    (hmarked : t.get w₁.db = rewriteWhere (ownRow S (TenantRow.id r)) f (t.get w.db))
    (hf : ∀ x, TenantRow.id (f x) = TenantRow.id x) (hdeleted : column.get (f r) ≠ none)
    (hid : ∀ x, TenantRow.id
      ((BaseTenantRepository.withDeletedAt column extraData none).apply x) = TenantRow.id x)
    (hrestored : Restores t column S' (TenantRow.id r) extraData w₁ w₂) :
    (t.get w₂.db).find? (fun x => TenantRow.id x == TenantRow.id r) =
      some ((BaseTenantRepository.withDeletedAt column extraData none).apply (f r)) := by
  have hids₁ : ((t.get w₁.db).map TenantRow.id).Nodup := by
    rw [hmarked, map_rewriteWhere hf]
    exact hids
  have hmem : f r ∈ t.get w₁.db := by
    rw [hmarked]
    exact List.mem_map.mpr ⟨r, hr, by simp [ownRow, hscope]⟩
  rcases hrestored with ⟨target, hfind, heffect⟩
  rw [← hf r] at hfind heffect
  cases find?_ownRow hids₁ hmem hfind
  rw [Option.isNone_eq_false_iff.mpr (Option.isSome_iff_ne_none.mpr hdeleted),
    if_neg Bool.false_ne_true] at heffect
  have hown := List.find?_some hfind
  rw [ownRow, Bool.and_eq_true] at hown
  rw [heffect.world, t.get_set, ← hf r]
  exact find?_rewriteWhere hids₁ hmem hown.2 hid

theorem markBatch_keeps {I : World → Prop} (hI : ∀ rows w, I w → I { w with db := t.set rows w.db })
    (m : Delegate Row) (env : LifecycleEnv) (data : Payload Row) (batch : List Row) :
    Fallible.Keeps I (markBatch t m env data batch) := by
  induction batch with
  | nil => exact .pure _
  | cons child rest ih => exact .bind (attempt_keeps _ (run_keeps hI _)) fun _ => ih

/-- So does a cascade over the table. -/
theorem cascade_keeps {I : World → Prop} (hI : ∀ rows w, I w → I { w with db := t.set rows w.db })
    (m : Delegate Row) (env : LifecycleEnv) (f : Where Row) (data : Payload Row) :
    Fallible.Keeps I (cascade t m env f data) := by
  have hrounds : ∀ rounds, Fallible.Keeps I (cascadeRounds t m env f data rounds) := by
    intro rounds
    induction rounds with
    | zero => exact .pure _
    | succ rounds ih =>
        refine .bind (attempt_keeps _ (run_keeps hI _)) fun batch => ?_
        refine .ite (fun _ => .pure _) fun _ => ?_
        exact .bind (markBatch_keeps hI m env data batch) fun _ =>
          .ite (fun _ => .pure _) fun _ => ih
  exact fun w hw => hrounds _ w hw

end Rows

/-! ## The four services -/

section Services

variable {env : LifecycleEnv} {id : Id} {w w' : World}

/-- A row that was fetched without a tombstone is a live row in scope. -/
theorem fetched_live {Row : Type} [TenantRow Row] {column : DeletedAtColumn Row} {S : Option Id}
    {rows : List Row} {r : Row} (hfind : rows.find? (liveRow column S id) = some r) :
    r ∈ rows ∧ TenantRow.id r = id ∧ visible S r = true ∧ column.get r = none :=
  ⟨List.mem_of_find?_eq_some hfind, liveRow_iff.mp (List.find?_some hfind)⟩

/-- A deletion of a category that returned has marked it. -/
theorem deleteCategory_marks {a : MenuService.SoftDeleteResult}
    (h : deleteCategory env id w = (.ok a, w')) :
    ∃ S c, w.db.categories.find? (liveRow categoryDeletedAt S id) = some c ∧
      w'.db.categories =
        rewriteWhere (ownRow S id) (categoryTombstone env.now).apply w.db.categories := by
  rcases Fallible.bind_eq_ok.mp h with ⟨c, w₁, hcategory, hrest⟩
  rcases fetch_ok categories_softDelete hcategory with ⟨hw₁, _, S, hctx, hfound⟩
  rcases Fallible.bind_eq_ok.mp hrest with ⟨_, w₂, hclose, hreturn⟩
  cases hreturn
  rw [hw₁] at hclose
  rcases Fallible.bind_eq_ok.mp (Fallible.transaction_eq_ok.mp hclose) with
    ⟨_, w₃, hcascade, hrest₂⟩
  have hkept : Fallible.Keeps (fun v : World => v.db.categories = w.db.categories)
      (cascade products prisma.product env (liveProductsWhere id c.tenantId)
        (MenuService.productTombstone env.now)) :=
    cascade_keeps (fun _ _ hv => hv) _ _ _ _
  have hcategories : w₃.db.categories = w.db.categories := by
    have hafter := hkept w rfl
    rwa [hcascade] at hafter
  rcases Fallible.bind_eq_ok.mp hrest₂ with ⟨_, w₄, hupdate, hcommit⟩
  have hclosed := run_update_id categories_softDelete hctx rfl (attempt_eq_ok.mp hupdate).2
  cases (attempt_eq_ok.mp hcommit).2
  refine ⟨S, c, hfound, ?_⟩
  rw [hclosed.world, ← hcategories]
  rfl

/-- A restoration of a category that returned has restored it. -/
theorem restoreCategory_restores {a : MenuService.RestoreResult}
    (h : restoreCategory env id w = (.ok a, w')) :
    ∃ S, Restores categories categoryDeletedAt S id {} w w' := by
  rcases Fallible.bind_eq_ok.mp h with ⟨_, w₁, hread, hrest⟩
  rcases fetchIncludingDeleted_ok categories_softDelete hread with ⟨hw₁, _, S, hctx, _⟩
  rcases Fallible.bind_eq_ok.mp hrest with ⟨_, w₂, hrestore, hreturn⟩
  cases hreturn
  rw [hw₁] at hrestore
  exact ⟨S, run_setDeletedAt categories_softDelete hctx rfl (attempt_eq_ok.mp hrestore).2⟩

/-- A deletion of a product that returned has deleted it through its repository. -/
theorem deleteProduct_deletes {a : MenuService.SoftDeleteResult}
    (h : deleteProduct env id w = (.ok a, w')) :
    ∃ S b, env.context.Sees S ∧
      products.run (productRepository.softDelete env.toEnv id (availability false)) w =
        (.ok b, w') := by
  rcases Fallible.bind_eq_ok.mp h with ⟨p, w₁, hproduct, hrest⟩
  rcases fetch_ok products_softDelete hproduct with ⟨hw₁, _, S, hctx, _⟩
  rcases Fallible.bind_eq_ok.mp hrest with ⟨b, w₂, hdelete, hreturn⟩
  cases hreturn
  rw [hw₁] at hdelete
  exact ⟨S, b, hctx, (attempt_eq_ok.mp hdelete).2⟩

/-- A restoration of a product that returned has restored it. -/
theorem restoreProduct_restores {a : MenuService.RestoreResult}
    (h : restoreProduct env id w = (.ok a, w')) :
    ∃ S, Restores products productDeletedAt S id (availability true) w w' := by
  rcases Fallible.bind_eq_ok.mp h with ⟨p, w₁, hread, hrest₁⟩
  rcases fetchIncludingDeleted_ok products_softDelete hread with ⟨hw₁, _, S, hctx, _⟩
  rcases Fallible.bind_eq_ok.mp hrest₁ with ⟨c, w₂, hcategory, hrest₂⟩
  have hw₂ : w₂ = w₁ := fetch_readsOnly.state_eq hcategory
  rcases Fallible.bind_eq_ok.mp hrest₂ with ⟨_, w₃, hrestore, hreturn⟩
  cases hreturn
  rw [hw₂, hw₁] at hrestore
  exact ⟨S, run_setDeletedAt products_softDelete hctx rfl (attempt_eq_ok.mp hrestore).2⟩

/-- A deletion of a table that returned has deleted it through its repository. -/
theorem deleteTable_deletes {a : BranchService.SoftDeleteResult}
    (h : deleteTable env id w = (.ok a, w')) :
    ∃ S b, env.context.Sees S ∧
      tables.run (tableRepository.softDelete env.toEnv id {}) w = (.ok b, w') := by
  rcases Fallible.bind_eq_ok.mp h with ⟨r, w₁, htable, hrest⟩
  rcases fetch_ok tables_softDelete htable with ⟨hw₁, _, S, hctx, _⟩
  rcases Fallible.bind_eq_ok.mp hrest with ⟨activeOrders, w₂, hcount, hrest₂⟩
  have hw₂ : w₂ = w₁ := (countActiveOrders_readsOnly _ _ _).state_eq hcount
  rcases Fallible.throwIf_bind_eq_ok.mp hrest₂ with ⟨_, hrest₃⟩
  rcases Fallible.bind_eq_ok.mp hrest₃ with ⟨b, w₃, hremove, hreturn⟩
  cases hreturn
  rw [hw₂, hw₁] at hremove
  exact ⟨S, b, hctx, (attempt_eq_ok.mp hremove).2⟩

/-- A restoration of a table that returned has restored it. -/
theorem restoreTable_restores {a : BranchService.RestoreResult}
    (h : restoreTable env id w = (.ok a, w')) :
    ∃ S, Restores tables tableDeletedAt S id {} w w' := by
  rcases Fallible.bind_eq_ok.mp h with ⟨r, w₁, hread, hrest⟩
  rcases fetchIncludingDeleted_ok tables_softDelete hread with ⟨hw₁, _, S, hctx, _⟩
  rcases Fallible.bind_eq_ok.mp hrest with ⟨b, w₂, hparent, hrest₂⟩
  have hw₂ : w₂ = w₁ := fetch_readsOnly.state_eq hparent
  rcases Fallible.bind_eq_ok.mp hrest₂ with ⟨conflict, w₃, hconflict, hrest₃⟩
  have hw₃ : w₃ = w₂ := (attempt_readsOnly (run_readsOnly findByQrCodeToken_readsOnly)).state_eq
    hconflict
  rcases Fallible.throwIf_bind_eq_ok.mp hrest₃ with ⟨_, hrest₄⟩
  rcases Fallible.bind_eq_ok.mp hrest₄ with ⟨_, w₄, hrestore, hreturn⟩
  cases hreturn
  rw [hw₃, hw₂, hw₁] at hrestore
  exact ⟨S, run_setDeletedAt tables_softDelete hctx rfl (attempt_eq_ok.mp hrestore).2⟩

end Services

/-! ## A deletion and the restoration after it -/

/-- The primary keys of the four tables. -/
structure PrimaryKeys (db : Db) : Prop where
  branches : (db.branches.map (·.id)).Nodup
  tables : (db.tables.map (·.id)).Nodup
  categories : (db.categories.map (·.id)).Nodup
  products : (db.products.map (·.id)).Nodup

section Records

variable {env env' : LifecycleEnv} {w w₁ w₂ : World}

/-- A branch that was deleted and restored is as before, but active. -/
theorem branch_restored {b : Branch} {a : BranchService.SoftDeleteResult}
    {a' : BranchService.RestoreResult} (h : PrimaryKeys w.db) (hb : b ∈ w.db.branches)
    (hlive : b.deletedAt = none) (hdelete : deleteBranch env b.id w = (.ok a, w₁))
    (hrestore : restoreBranch env' b.id w₁ = (.ok a', w₂)) :
    w₂.db.branches.find? (fun x => x.id == b.id) = some { b with isActive := true } := by
  rcases deleteBranch_ok h.tables hdelete with ⟨S, found, _, hid, hfound, hw₁⟩
  rcases fetched_live hfound with ⟨hmem, _, hscope, _⟩
  have hsame : found = b := List.inj_on_of_nodup_map h.branches hmem hb hid
  rcases restoreBranch_ok hrestore with ⟨S', target, _, hfind, heffect⟩
  have hmarked : w₁.db.branches =
      rewriteWhere (ownRow S b.id) (branchTombstone env.now).apply w.db.branches := by
    rw [hw₁, hsame]
    rfl
  have hrow := restored_row (t := branches) branchDeletedAt reopened
    h.branches hb (hsame ▸ hscope) hmarked (fun _ => rfl) (Option.some_ne_none _) (fun _ => rfl)
    ⟨target, hfind, heffect⟩
  rcases b with ⟨⟩
  cases hlive
  exact hrow

/-- A table that was deleted and restored is as before. -/
theorem table_restored {r : Table} {a : BranchService.SoftDeleteResult}
    {a' : BranchService.RestoreResult} (h : PrimaryKeys w.db) (hr : r ∈ w.db.tables)
    (hlive : r.deletedAt = none) (hdelete : deleteTable env r.id w = (.ok a, w₁))
    (hrestore : restoreTable env' r.id w₁ = (.ok a', w₂)) :
    w₂.db.tables.find? (fun x => x.id == r.id) = some r := by
  rcases deleteTable_deletes hdelete with ⟨S, _, hctx, hrun⟩
  rcases softDelete_live tables_softDelete hctx h.tables hr hlive rfl hrun with ⟨hscope, hmarked⟩
  rcases restoreTable_restores hrestore with ⟨S', hrestored⟩
  have hrow := restored_row (t := tables) tableDeletedAt {} h.tables hr hscope hmarked
    (fun _ => rfl) (Option.some_ne_none _) (fun _ => rfl) hrestored
  rcases r with ⟨⟩
  cases hlive
  exact hrow

/-- A category that was deleted and restored is as before, apart from its flag. -/
theorem category_restored {c : Category} {a : MenuService.SoftDeleteResult}
    {a' : MenuService.RestoreResult} (h : PrimaryKeys w.db) (hc : c ∈ w.db.categories)
    (hlive : c.deletedAt = none) (hdelete : deleteCategory env c.id w = (.ok a, w₁))
    (hrestore : restoreCategory env' c.id w₁ = (.ok a', w₂)) :
    ∃ isActive, w₂.db.categories.find? (fun x => x.id == c.id) =
      some { c with isActive := isActive } := by
  rcases deleteCategory_marks hdelete with ⟨S, found, hfound, hmarked⟩
  rcases fetched_live hfound with ⟨hmem, hid, hscope, _⟩
  have hsame : found = c := List.inj_on_of_nodup_map h.categories hmem hc hid
  rcases restoreCategory_restores hrestore with ⟨S', hrestored⟩
  have hrow := restored_row (t := categories) categoryDeletedAt {} h.categories hc
    (hsame ▸ hscope) hmarked (fun _ => rfl) (Option.some_ne_none _) (fun _ => rfl) hrestored
  rcases c with ⟨⟩
  cases hlive
  exact ⟨_, hrow⟩

/-- A product that was deleted and restored is as before, but available. -/
theorem product_restored {p : Product} {a : MenuService.SoftDeleteResult}
    {a' : MenuService.RestoreResult} (h : PrimaryKeys w.db) (hp : p ∈ w.db.products)
    (hlive : p.deletedAt = none) (hdelete : deleteProduct env p.id w = (.ok a, w₁))
    (hrestore : restoreProduct env' p.id w₁ = (.ok a', w₂)) :
    w₂.db.products.find? (fun x => x.id == p.id) = some { p with isAvailable := true } := by
  rcases deleteProduct_deletes hdelete with ⟨S, _, hctx, hrun⟩
  rcases softDelete_live products_softDelete hctx h.products hp hlive rfl hrun with
    ⟨hscope, hmarked⟩
  rcases restoreProduct_restores hrestore with ⟨S', hrestored⟩
  have hrow := restored_row (t := products) productDeletedAt (availability true) h.products hp
    hscope hmarked (fun _ => rfl) (Option.some_ne_none _) (fun _ => rfl) hrestored
  rcases p with ⟨⟩
  cases hlive
  exact hrow

/-- A record that is deleted and then restored, by any callers, is as it was before: a table in
every column, a branch but for being active, a product but for being available, and a category
but for its flag. -/
theorem restore_after_delete (h : PrimaryKeys w.db) :
    (∀ b ∈ w.db.branches, b.deletedAt = none → ∀ a a',
      deleteBranch env b.id w = (.ok a, w₁) → restoreBranch env' b.id w₁ = (.ok a', w₂) →
        w₂.db.branches.find? (fun x => x.id == b.id) = some { b with isActive := true }) ∧
    (∀ r ∈ w.db.tables, r.deletedAt = none → ∀ a a',
      deleteTable env r.id w = (.ok a, w₁) → restoreTable env' r.id w₁ = (.ok a', w₂) →
        w₂.db.tables.find? (fun x => x.id == r.id) = some r) ∧
    (∀ c ∈ w.db.categories, c.deletedAt = none → ∀ a a',
      deleteCategory env c.id w = (.ok a, w₁) → restoreCategory env' c.id w₁ = (.ok a', w₂) →
        ∃ isActive, w₂.db.categories.find? (fun x => x.id == c.id) =
          some { c with isActive := isActive }) ∧
    (∀ p ∈ w.db.products, p.deletedAt = none → ∀ a a',
      deleteProduct env p.id w = (.ok a, w₁) → restoreProduct env' p.id w₁ = (.ok a', w₂) →
        w₂.db.products.find? (fun x => x.id == p.id) = some { p with isAvailable := true }) :=
  ⟨fun _ hb hlive _ _ => branch_restored h hb hlive,
    fun _ hr hlive _ _ => table_restored h hr hlive,
    fun _ hc hlive _ _ => category_restored h hc hlive,
    fun _ hp hlive _ _ => product_restored h hp hlive⟩

end Records

/-! ## A closed restaurant -/

/-- A branch that is closed, with a table, and a product that is sold out. -/
def closedRestaurant : World where
  db :=
    { tenants := [{ id := "t1", name := "Trattoria" }]
      restaurants := [{ (default : Restaurant) with id := "r1", tenantId := "t1" }]
      branches := [{ id := "b1", tenantId := "t1", restaurantId := "r1", name := "Old town"
                     isActive := false }]
      tables := [{ id := "t12", tenantId := "t1", branchId := "b1", number := "12"
                   qrCodeToken := "token" }]
      categories := [{ id := "c1", tenantId := "t1", restaurantId := "r1", name := "Dolci"
                       sortOrder := 1, isActive := true }]
      products := [{ (default : Product) with id := "p1", tenantId := "t1", categoryId := "c1"
                                              isAvailable := false }] }

/-- The context of its tenant. -/
def ownerEnv : LifecycleEnv where
  context := { tenantId := some "t1" }
  uuid _ := "u1"
  now := 1700000000000

/-- A deletion, and the restoration right after it. -/
def takenBack {α β : Type} (delete : Service α) (restore : Service β) : Service β := do
  let _ ← delete
  restore

/-- A run that returns has a value. -/
theorem returned {α : Type} {x : Service α} {w : World} (h : (x w).1.isOk = true) :
    ∃ a, x w = (.ok a, (x w).2) := by
  rcases hrun : x w with ⟨e | a, w'⟩
  · rw [hrun] at h
    cases h
  · exact ⟨a, rfl⟩

theorem closedRestaurant_keys : PrimaryKeys closedRestaurant.db :=
  ⟨by decide, by decide, by decide, by decide⟩

/-- The table {lit}`12`, deleted and restored, is as before. -/
theorem table_comes_back :
    let table : Table := { id := "t12", tenantId := "t1", branchId := "b1", number := "12"
                           qrCodeToken := "token" }
    let deleted := (deleteTable ownerEnv "t12" closedRestaurant).2
    (restoreTable ownerEnv "t12" deleted).2.db.tables.find? (fun x => x.id == "t12") =
      some table := by
  have hdelete : (deleteTable ownerEnv "t12" closedRestaurant).1.isOk = true := by
    decide +kernel
  have hrestore : (restoreTable ownerEnv "t12"
      (deleteTable ownerEnv "t12" closedRestaurant).2).1.isOk = true := by
    decide +kernel
  rcases returned hdelete with ⟨a, hdeleted⟩
  rcases returned hrestore with ⟨a', hrestored⟩
  exact (restore_after_delete closedRestaurant_keys).2.1 _ List.mem_cons_self rfl a a' hdeleted
    hrestored

/-- Deleting and restoring opens a branch that was closed and puts a product on the menu that was
sold out; a category that was active comes back inactive. -/
theorem restoring_resets_flags :
    let branch := takenBack (deleteBranch ownerEnv "b1") (restoreBranch ownerEnv "b1")
      closedRestaurant
    let product := takenBack (deleteProduct ownerEnv "p1") (restoreProduct ownerEnv "p1")
      closedRestaurant
    let category := takenBack (deleteCategory ownerEnv "c1") (restoreCategory ownerEnv "c1")
      closedRestaurant
    (branch.1.isOk = true ∧ product.1.isOk = true ∧ category.1.isOk = true) ∧
      (closedRestaurant.db.branches.map (·.isActive) = [false] ∧
        branch.2.db.branches.map (·.isActive) = [true]) ∧
      (closedRestaurant.db.products.map (·.isAvailable) = [false] ∧
        product.2.db.products.map (·.isAvailable) = [true]) ∧
      (closedRestaurant.db.categories.map (·.isActive) = [true] ∧
        category.2.db.categories.map (·.isActive) = [false]) := by
  decide +kernel

end Restorations
end Eleva
