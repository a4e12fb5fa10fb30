import Eleva.Branch.BranchService
import Eleva.Menu.Catalogue

/-!
# Menu - The loops of the deletions

A deleted branch closes its tables and a deleted category its products, page after page of any
size.  Both loops ask for the live children by the tenant of the parent: a product that another
tenant has listed under the category is none of them.

Main results:

- Theorem {lit}`foreignChild_left`: a live product of another tenant stays under a deleted category.
- Theorem {lit}`deletion_loops`: what both loops do, with pages of any size.
-/

namespace Eleva
namespace DeletionLoops

open Foundation Database TableOf

/-- One round of the loop over the tables of a branch. -/
def tableRound (env : LifecycleEnv) (b : Branch) (size : ℕ) (label : ℕ → ℕ) : ℕ → Service Bool :=
  cascadeRound tables prisma.table env (BranchService.liveTablesWhere b.id b.tenantId)
    (BranchService.tableTombstone env.now) size label

/-- One round of the loop over the products of a category. -/
def productRound (env : LifecycleEnv) (c : Category) (size : ℕ) (label : ℕ → ℕ) :
    ℕ → Service Bool :=
  cascadeRound products prisma.product env (MenuService.liveProductsWhere c.id c.tenantId)
    (MenuService.productTombstone env.now) size label

/-- The tables of a branch. -/
def isTableOf (b : Branch) (r : Table) : Bool :=
  r.branchId == b.id

/-- The products of a category. -/
def isProductOf (c : Category) (p : Product) : Bool :=
  p.categoryId == c.id

/-! ## Another tenant's product -/

/-- The first tenant has listed a product under the category of the second. -/
def gelatoListed : World :=
  (MenuService.createProduct (MenuService.trattoriaEnv "p1")
    { categoryId := "c2", name := "Gelato", basePrice := 4 } MenuService.twoTenants).2

/-- The context of the second tenant. -/
def osteriaEnv : LifecycleEnv where
  context := { tenantId := some "t2" }
  uuid _ := "u9"
  now := 1700000060000

/-- A deletion of a category leaves the live products that other tenants have listed under it. -/
theorem foreignChild_left :
    ¬ ∀ (env : LifecycleEnv) (id : Id) (a : MenuService.SoftDeleteResult) (w w' : World),
      products.Valid w.db → MenuService.deleteCategory env id w = (.ok a, w') →
        ∀ p ∈ w'.db.products, p.categoryId = id → p.deletedAt ≠ none := by
  intro hall
  have hvalid : products.Valid gelatoListed.db := by
    unfold TableOf.Valid
    decide +kernel
  have hdeleted : (MenuService.deleteCategory osteriaEnv "c2" gelatoListed).1 =
      .ok { id := "c2", deleted := true } := by decide +kernel
  have hleft : ∃ p ∈ (MenuService.deleteCategory osteriaEnv "c2" gelatoListed).2.db.products,
      p.categoryId = "c2" ∧ p.deletedAt = none := by decide +kernel
  rcases hleft with ⟨p, hp, hchild, hlive⟩
  exact hall osteriaEnv "c2" _ gelatoListed _ hvalid (Prod.ext hdeleted rfl) p hp hchild hlive

/-! ## Both loops -/

section Loops

variable {env : LifecycleEnv} {S : Option Id} {size : ℕ} {label : ℕ → ℕ} {w : World}

/-- A scope in which a row is visible is none, or its tenant's. -/
theorem scope_of_visible {Row : Type} [TenantRow Row] {r : Row} {T : Id}
    (howner : TenantRow.tenantId r = some T) (hscope : visible S r = true) :
    S = none ∨ S = some T := by
  cases S with
  | none => exact Or.inl rfl
  | some T' => exact Or.inr ((visible_some.mp hscope).symm.trans howner)

theorem tables_unblocked (now : Timestamp) :
    Unblocked tables (BranchService.tableTombstone now) where
  keys key hkey := by
    rcases List.mem_cons.mp hkey with rfl | hkey
    · exact Or.inl fun _ => rfl
    · rw [List.mem_singleton.mp hkey]
      exact Or.inr fun _ => rfl
  references _ _ := rfl
  references_set _ _ _ := rfl

theorem products_unblocked (now : Timestamp) :
    Unblocked products (MenuService.productTombstone now) where
  keys key hkey := by
    rw [List.mem_singleton.mp hkey]
    exact Or.inl fun _ => rfl
  references _ _ := rfl
  references_set _ _ _ := rfl

theorem isLiveChildOf_table (b : Branch) :
    isLiveChildOf tableDeletedAt (isTableOf b) b.tenantId =
      BranchService.isLiveChild b.id b.tenantId := rfl

theorem isLiveChildOf_product (c : Category) :
    isLiveChildOf productDeletedAt (isProductOf c) c.tenantId =
      MenuService.isLiveItem c.id c.tenantId := rfl

/-- The loop over the tables of a branch in scope. -/
theorem tables_close (hctx : env.context.Sees S) (hsize : 1 ≤ size) {b : Branch}
    (hscope : visible S b = true) (hvalid : tables.Valid w.db) :
    tables.ClosesChildren tableDeletedAt env (isTableOf b) b.tenantId
      (fun r => { r with deletedAt := some env.now }) (tableRound env b size label) w := by
  have hmarks := BranchService.tables_marks hscope env.now
  have hadmits := BranchService.liveTables_admits hscope
  rw [← isLiveChildOf_table] at hmarks hadmits
  exact cascadeLoop_closes hctx hmarks hadmits rfl (tables_unblocked env.now)
    (fun _ => Option.some_ne_none _) List.mem_cons_self hsize hvalid

/-- The loop over the products of a category in scope. -/
theorem products_close (hctx : env.context.Sees S) (hsize : 1 ≤ size) {c : Category}
    (hscope : visible S c = true) (hvalid : products.Valid w.db) :
    products.ClosesChildren productDeletedAt env (isProductOf c) c.tenantId
      (fun p => { p with deletedAt := some env.now, isAvailable := false })
      (productRound env c size label) w := by
  have hreaches : S = none ∨ S = some c.tenantId := scope_of_visible rfl hscope
  have hmarks := MenuService.products_marks hreaches c.id env.now
  have hadmits : ((MenuService.liveProductsWhere c.id c.tenantId).inScope S).admits
      prisma.product = MenuService.isLiveItem c.id c.tenantId :=
    MenuService.liveProducts_admits hreaches
  rw [← isLiveChildOf_product] at hmarks hadmits
  exact cascadeLoop_closes hctx hmarks hadmits rfl (products_unblocked env.now)
    (fun _ => Option.some_ne_none _) List.mem_cons_self hsize hvalid

end Loops

/-- With pages of any size the loops over the children of a deleted branch and of a deleted
category close the live children of the parent's tenant and leave every other row; with the page
size of the services they are the cascades of {lit}`deleteBranch` and {lit}`deleteCategory`. -/
theorem deletion_loops {env : LifecycleEnv} {S : Option Id} (hctx : env.context.Sees S) {size : ℕ}
    (hsize : 1 ≤ size) (label : ℕ → ℕ) (w : World) :
    (∀ b : Branch, visible S b = true → tables.Valid w.db →
      tables.ClosesChildren tableDeletedAt env (isTableOf b) b.tenantId
        (fun r => { r with deletedAt := some env.now }) (tableRound env b size label) w ∧
      ∃ label', LoopEnds (tableRound env b CASCADE_BATCH_SIZE label') 0 w
        (cascade tables prisma.table env (BranchService.liveTablesWhere b.id b.tenantId)
          (BranchService.tableTombstone env.now) w)) ∧
    (∀ c : Category, visible S c = true → products.Valid w.db →
      products.ClosesChildren productDeletedAt env (isProductOf c) c.tenantId
        (fun p => { p with deletedAt := some env.now, isAvailable := false })
        (productRound env c size label) w ∧
      ∃ label', LoopEnds (productRound env c CASCADE_BATCH_SIZE label') 0 w
        (cascade products prisma.product env (MenuService.liveProductsWhere c.id c.tenantId)
          (MenuService.productTombstone env.now) w)) := by
  refine ⟨fun b hscope hvalid => ⟨tables_close hctx hsize hscope hvalid, ?_⟩,
    fun c hscope hvalid => ⟨products_close hctx hsize hscope hvalid, ?_⟩⟩
  · exact ⟨_, cascade_loopEnds (BranchService.tables_marks hscope env.now) hctx
      (BranchService.liveTables_admits hscope) rfl (hvalid.nodup_ids List.mem_cons_self)⟩
  · have hreaches : S = none ∨ S = some c.tenantId := scope_of_visible rfl hscope
    exact ⟨_, cascade_loopEnds (MenuService.products_marks hreaches c.id env.now) hctx
      (MenuService.liveProducts_admits hreaches) rfl (hvalid.nodup_ids List.mem_cons_self)⟩

/-- A category of the second tenant. -/
def dolci : Category :=
  { id := "c2", tenantId := "t2", restaurantId := "r2", name := "Dolci", sortOrder := 1
    isActive := true }

/-- A product of the category. -/
def dolce (id tenantId : Id) (deletedAt : Option Timestamp) : Product :=
  { (default : Product) with id, tenantId, categoryId := "c2", deletedAt }

/-- Two live products, a deleted one, and one of the first tenant. -/
def dolciMenu : World where
  db := { categories := [dolci]
          products := [dolce "p1" "t2" none, dolce "p2" "t2" none, dolce "p3" "t2" (some 5),
            dolce "p4" "t1" none] }

theorem osteriaEnv_sees : osteriaEnv.context.Sees (some "t2") :=
  ⟨rfl, by decide⟩

/-- Two live products are one page of two, and the page that follows is empty. -/
theorem dolci_closed : ∃ w', LoopEnds (productRound osteriaEnv dolci 2 id) 0 dolciMenu
      (.ok (), w') ∧
    w'.db.products[1]? = some { dolce "p2" "t2" none with
      deletedAt := some osteriaEnv.now, isAvailable := false } ∧
    w'.db.products[2]? = some (dolce "p3" "t2" (some 5)) ∧
    w'.db.products[3]? = some (dolce "p4" "t1" none) := by
  have hvalid : products.Valid dolciMenu.db := by
    unfold TableOf.Valid
    decide +kernel
  have hcloses := ((deletion_loops osteriaEnv_sees (by decide : 1 ≤ 2) id dolciMenu).2 dolci
    (by decide) hvalid).1
  rcases hcloses.returns fun _ => rfl with ⟨w', hloop⟩
  refine ⟨w', hloop, ?_, ?_, ?_⟩
  · exact hcloses.marked w' 1 _ hloop rfl (by decide) rfl rfl
  · exact hcloses.kept w' 2 _ hloop rfl (Or.inr (Or.inr (Option.some_ne_none _)))
  · exact hcloses.kept w' 3 _ hloop rfl (Or.inr (Or.inl (by decide)))

end DeletionLoops
end Eleva
