import Eleva.Menu.MenuService
import Eleva.Foundation.Machine

/-!
# Menu - The catalogue over whole runs

What the operations on categories and products leave of the rows, and when every live product of
the catalogue lies under a live category of its own tenant.

Main results:

- Definition {lit}`CatalogueStep`: what the operations other than a creation of a product can do.
- Theorem {lit}`Catalogue.step`: each such step keeps the catalogue.
- Theorem {lit}`placed_iff`: the catalogue stays in order through a run exactly when each product
  that is created names a live category of its tenant.
-/

namespace Eleva
namespace MenuService

open Foundation Database TableOf

/-! ## The catalogue -/

/-- The product has a live category of its own tenant. -/
def HasCategory (db : Db) (p : Product) : Prop :=
  ∃ c ∈ db.categories, c.id = p.categoryId ∧ c.tenantId = p.tenantId ∧ c.deletedAt = none

/-- Every live product has a live category of its own tenant. -/
def Placed (db : Db) : Prop :=
  ∀ p ∈ db.products, p.deletedAt = none → HasCategory db p

/-- A catalogue in order: unique ids, as the database enforces them, and every product placed. -/
structure Catalogue (db : Db) : Prop where
  categoryIds : (db.categories.map (·.id)).Nodup
  productIds : (db.products.map (·.id)).Nodup
  placed : Placed db

/-- What an operation other than a creation of a product can do. -/
inductive CatalogueStep (w : World) : World → Prop where
  | same : CatalogueStep w w
  | categoryCreated (c : Category)
      (accepted : ({ rows := w.db.categories, uniqueKeys := categories.uniqueKeys } :
        Store Category).accepts (w.db.categories ++ [c]) = true) :
      CatalogueStep w { w with db := categories.set (w.db.categories ++ [c]) w.db }
  | categoryRewritten {p : Category → Bool} {f : Category → Category} {w' : World}
      (rewrites : categories.Rewrites p f w w') (id : ∀ c, (f c).id = c.id)
      (tenantId : ∀ c, (f c).tenantId = c.tenantId)
      (live : ∀ c, c.deletedAt = none → (f c).deletedAt = none) : CatalogueStep w w'
  | categoryClosed {T : Id} {c : Category} {now : Timestamp} (mem : c ∈ w.db.categories)
      (tenantId : c.tenantId = T) : CatalogueStep w { w with db := withClosed T c now w.db }
  | productRewritten {p : Product → Bool} {f : Product → Product} {w' : World}
      (rewrites : products.Rewrites p f w w') (id : ∀ r, (f r).id = r.id)
      (placed : ∀ r ∈ w.db.products, p r = true → (f r).deletedAt = none →
        (r.deletedAt = none ∧ (f r).categoryId = r.categoryId ∧ (f r).tenantId = r.tenantId) ∨
          HasCategory w.db (f r)) : CatalogueStep w w'

theorem categories_accepts {rows stored : List Category} :
    ({ rows := stored, uniqueKeys := categories.uniqueKeys } : Store Category).accepts rows =
      true ↔ (rows.map (·.id)).Nodup := by
  rw [← List.filterMap_eq_map]
  simp [Store.accepts, categories]

section Steps

variable {w w' : World} {db : Db}

/-- The parent of a product depends on two of its columns. -/
theorem HasCategory.congr {p q : Product} (h : HasCategory db p)
    (hcategory : q.categoryId = p.categoryId) (htenant : q.tenantId = p.tenantId) :
    HasCategory db q := by
  rcases h with ⟨c, hc, hid, hown, hlive⟩
  exact ⟨c, hc, hid.trans hcategory.symm, hown.trans htenant.symm, hlive⟩

/-- More categories. -/
theorem Catalogue.categoryCreated {c : Category} (h : Catalogue db)
    (hids : ((db.categories ++ [c]).map (·.id)).Nodup) :
    Catalogue (categories.set (db.categories ++ [c]) db) where
  categoryIds := hids
  productIds := h.productIds
  placed p hp hlive := by
    rcases h.placed p hp hlive with ⟨d, hd, hparent⟩
    exact ⟨d, List.mem_append_left _ hd, hparent⟩

/-- Categories rewritten, with those of live products live afterwards. -/
theorem Catalogue.categoryRewritten {p : Category → Bool} {f : Category → Category}
    (h : Catalogue db) (hid : ∀ c, (f c).id = c.id) (htenant : ∀ c, (f c).tenantId = c.tenantId)
    (hlive : ∀ r ∈ db.products, r.deletedAt = none → ∀ c ∈ db.categories, p c = true →
      c.id = r.categoryId → c.tenantId = r.tenantId → c.deletedAt = none →
        (f c).deletedAt = none) :
    Catalogue (categories.set (rewriteWhere p f db.categories) db) where
  categoryIds := by
    have hids : (rewriteWhere p f db.categories).map (·.id) = db.categories.map (·.id) :=
      map_rewriteWhere hid _
    exact hids ▸ h.categoryIds
  productIds := h.productIds
  placed r hr hopen := by
    rcases h.placed r hr hopen with ⟨c, hc, hcid, hctenant, hclive⟩
    refine ⟨_, mem_rewriteWhere.mpr ⟨c, hc, rfl⟩, ?_⟩
    split
    · rename_i hselected
      exact ⟨(hid c).trans hcid, (htenant c).trans hctenant,
        hlive r hr hopen c hc hselected hcid hctenant hclive⟩
    · exact ⟨hcid, hctenant, hclive⟩

/-- Products rewritten, with those that are live afterwards placed. -/
theorem Catalogue.productRewritten {p : Product → Bool} {f : Product → Product}
    (h : Catalogue db) (hid : ∀ r, (f r).id = r.id)
    (hplaced : ∀ r ∈ db.products, p r = true → (f r).deletedAt = none → HasCategory db (f r)) :
    Catalogue (products.set (rewriteWhere p f db.products) db) where
  categoryIds := h.categoryIds
  productIds := by
    have hids : (rewriteWhere p f db.products).map (·.id) = db.products.map (·.id) :=
      map_rewriteWhere hid _
    exact hids ▸ h.productIds
  placed q hq hlive := by
    rcases mem_rewriteWhere.mp hq with ⟨r, hr, rfl⟩
    split at hlive
    · rename_i hselected
      rw [if_pos hselected]
      exact hplaced r hr hselected hlive
    · rename_i hnot
      rw [if_neg hnot]
      exact h.placed r hr hlive

/-- A category closed with its live products: a live product that is left has another one. -/
theorem Catalogue.categoryClosed {T : Id} {c : Category} {now : Timestamp} (h : Catalogue db)
    (hc : c ∈ db.categories) (htenant : c.tenantId = T) : Catalogue (withClosed T c now db) := by
  have hmarked : Catalogue (products.set
      (rewriteWhere (isLiveItem c.id T) (productTombstone now).apply db.products) db) :=
    h.productRewritten (fun _ => rfl) fun _ _ _ hlive => by cases hlive
  refine hmarked.categoryRewritten (fun _ => rfl) (fun _ => rfl) ?_
  intro r hr hopen d hd hselected hid hown _
  exfalso
  have hdc : d.id = c.id := id_of_ownRow hselected
  have hsame : d = c := List.inj_on_of_nodup_map h.categoryIds hd hc hdc
  rw [hsame] at hid hown
  rcases mem_rewriteWhere.mp hr with ⟨q, hq, rfl⟩
  split at hopen
  · cases hopen
  · rename_i hnot
    rw [if_neg hnot] at hid hown
    refine hnot ?_
    simp [isLiveItem, ← hid, ← hown, htenant, hopen]

/-- A live product more: the products are placed exactly when it has a category. -/
theorem Placed.productCreated {p : Product} (h : Placed db) (hlive : p.deletedAt = none) :
    Placed (products.set (db.products ++ [p]) db) ↔ HasCategory db p := by
  constructor
  · intro hplaced
    exact hplaced p (List.mem_append_right _ (List.mem_singleton_self p)) hlive
  · intro hparent q hq hopen
    rcases List.mem_append.mp hq with hold | hnew
    · exact h q hold hopen
    · rw [List.mem_singleton.mp hnew]
      exact hparent

/-- A step keeps the catalogue in order. -/
theorem Catalogue.step (h : Catalogue w.db) (hstep : CatalogueStep w w') : Catalogue w'.db := by
  cases hstep with
  | same => exact h
  | categoryCreated c haccepted => exact h.categoryCreated (categories_accepts.mp haccepted)
  | categoryRewritten hrewrites hid htenant hlive =>
      rw [hrewrites.world]
      exact h.categoryRewritten hid htenant fun r _ _ c _ _ _ _ hopen => hlive c hopen
  | categoryClosed hc htenant => exact h.categoryClosed hc htenant
  | productRewritten hrewrites hid hplaced =>
      rw [hrewrites.world]
      refine h.productRewritten hid fun r hr hselected hlive => ?_
      rcases hplaced r hr hselected hlive with ⟨hopen, hcategory, htenant⟩ | hparent
      · exact (h.placed r hr hopen).congr hcategory htenant
      · exact hparent

end Steps

/-! ## What the operations do -/

section Operations

variable {env : LifecycleEnv} {id T : Id} {w w' : World}

theorem createCategory_step {dto : CreateCategoryRequestDto} {a : Option Category}
    (hctx : env.context.Holds T) (h : createCategory env dto w = (.ok a, w')) :
    CatalogueStep w w' := by
  rcases createCategory_ok hctx h with ⟨c, haccepted, rfl⟩
  exact .categoryCreated c haccepted

theorem updateCategory_step {dto : UpdateCategoryRequestDto} {a : Option Category}
    (hctx : env.context.Holds T) (h : updateCategory env id dto w = (.ok a, w')) :
    CatalogueStep w w' := by
  rcases updateCategory_ok hctx h with rfl | hrewrites
  · exact .same
  · exact .categoryRewritten hrewrites (fun _ => rfl) (fun _ => rfl) fun _ hlive => hlive

theorem deleteCategory_step {a : SoftDeleteResult} (hctx : env.context.Holds T)
    (hids : (w.db.products.map (·.id)).Nodup) (h : deleteCategory env id w = (.ok a, w')) :
    CatalogueStep w w' := by
  rcases deleteCategory_ok hctx hids h with ⟨c, hc, _, htenant, rfl⟩
  exact .categoryClosed hc htenant

theorem restoreCategory_step {a : RestoreResult} (hctx : env.context.Holds T)
    (h : restoreCategory env id w = (.ok a, w')) : CatalogueStep w w' := by
  rcases restoreCategory_ok hctx h with rfl | hrewrites
  · exact .same
  · exact .categoryRewritten hrewrites (fun _ => rfl) (fun _ => rfl) fun _ _ => rfl

theorem updateProduct_step {dto : UpdateProductRequestDto} {a : Option Product}
    (hctx : env.context.Holds T) (h : updateProduct env id dto w = (.ok a, w')) :
    CatalogueStep w w' := by
  rcases updateProduct_ok hctx h with rfl | ⟨basePrice, hrewrites, hcategory⟩
  · exact .same
  · refine .productRewritten hrewrites (fun _ => rfl) fun r _ hselected hlive => ?_
    have hopen : r.deletedAt = none := hlive
    have hwritten : ((productFields dto basePrice).apply r).categoryId =
        dto.categoryId.getD r.categoryId := rfl
    rcases hcategory with hundefined | ⟨c, hc, hvalue, htenant, hclive⟩
    · rw [hundefined] at hwritten
      exact Or.inl ⟨hopen, hwritten, rfl⟩
    · rw [hvalue] at hwritten
      have hscope : visible (some T) r = true := (Bool.and_eq_true_iff.mp hselected).2
      have hown : r.tenantId = T := Option.some.inj (visible_some.mp hscope)
      exact Or.inr ⟨c, hc, hwritten.symm, htenant.trans hown.symm, hclive⟩

theorem deleteProduct_step {a : SoftDeleteResult} (hctx : env.context.Holds T)
    (h : deleteProduct env id w = (.ok a, w')) : CatalogueStep w w' := by
  rcases deleteProduct_ok hctx h with rfl | hrewrites
  · exact .same
  · exact .productRewritten hrewrites (fun _ => rfl) fun _ _ _ hlive => by cases hlive

theorem restoreProduct_step {a : RestoreResult} (hctx : env.context.Holds T)
    (hids : (w.db.products.map (·.id)).Nodup) (h : restoreProduct env id w = (.ok a, w')) :
    CatalogueStep w w' := by
  rcases restoreProduct_ok hctx h with rfl | ⟨hrewrites, p, hp, hid, c, hc, hcid, htenant, hlive⟩
  · exact .same
  · refine .productRewritten hrewrites (fun _ => rfl) fun r hr hselected _ => Or.inr ?_
    have hrp : r = p :=
      List.inj_on_of_nodup_map hids hr hp ((id_of_ownRow hselected).trans hid.symm)
    have hscope : visible (some T) r = true := (Bool.and_eq_true_iff.mp hselected).2
    have hown : r.tenantId = T := Option.some.inj (visible_some.mp hscope)
    have hkept : ((BaseTenantRepository.withDeletedAt productDeletedAt (availability true)
        none).apply r).categoryId = r.categoryId := rfl
    rw [← hrp] at hcid
    exact ⟨c, hc, hcid.trans hkept.symm, htenant.trans hown.symm, hlive⟩

end Operations

/-! ## Requests -/

/-- A request to the service, each in a context of its own. -/
inductive MenuRequest where
  | createCategory (env : LifecycleEnv) (dto : CreateCategoryRequestDto)
  | updateCategory (env : LifecycleEnv) (id : Id) (dto : UpdateCategoryRequestDto)
  | deleteCategory (env : LifecycleEnv) (id : Id)
  | restoreCategory (env : LifecycleEnv) (id : Id)
  | createProduct (env : LifecycleEnv) (dto : CreateProductRequestDto)
  | updateProduct (env : LifecycleEnv) (id : Id) (dto : UpdateProductRequestDto)
  | deleteProduct (env : LifecycleEnv) (id : Id)
  | restoreProduct (env : LifecycleEnv) (id : Id)

namespace MenuRequest

/-- What the request draws from its surroundings. -/
def env : MenuRequest → LifecycleEnv
  | createCategory env _ | updateCategory env _ _ | deleteCategory env _
  | restoreCategory env _ | createProduct env _ | updateProduct env _ _
  | deleteProduct env _ | restoreProduct env _ => env

/-- Run a request, without its answer. -/
def run : MenuRequest → Service Unit
  | createCategory env dto => MenuService.createCategory env dto >>= fun _ => pure ()
  | updateCategory env id dto => MenuService.updateCategory env id dto >>= fun _ => pure ()
  | deleteCategory env id => MenuService.deleteCategory env id >>= fun _ => pure ()
  | restoreCategory env id => MenuService.restoreCategory env id >>= fun _ => pure ()
  | createProduct env dto => MenuService.createProduct env dto >>= fun _ => pure ()
  | updateProduct env id dto => MenuService.updateProduct env id dto >>= fun _ => pure ()
  | deleteProduct env id => MenuService.deleteProduct env id >>= fun _ => pure ()
  | restoreProduct env id => MenuService.restoreProduct env id >>= fun _ => pure ()

/-- A creation of a product that goes through names a live category of its tenant. -/
def NamesLiveCategory : MenuRequest → World → Prop
  | createProduct env dto, w => Creates env dto w.db →
      ∃ c ∈ w.db.categories, c.id = dto.categoryId ∧ env.context.tenantId = some c.tenantId ∧
        c.deletedAt = none
  | _, _ => True

/-- A request that throws leaves the database. -/
theorem run_atomic (request : MenuRequest) : Fallible.Atomic request.run := by
  cases request with
  | createCategory env dto => exact (createCategory_atomic env dto).bind_pure
  | updateCategory env id dto => exact (updateCategory_atomic env id dto).bind_pure
  | deleteCategory env id => exact (deleteCategory_atomic env id).bind_pure
  | restoreCategory env id => exact (restoreCategory_atomic env id).bind_pure
  | createProduct env dto => exact (createProduct_atomic env dto).bind_pure
  | updateProduct env id dto => exact (updateProduct_atomic env id dto).bind_pure
  | deleteProduct env id => exact (deleteProduct_atomic env id).bind_pure
  | restoreProduct env id => exact (restoreProduct_atomic env id).bind_pure

variable {request : MenuRequest} {T : Id} {w w' : World}

/-- A request that returned was one step of the catalogue, or the creation of a product. -/
theorem run_step {u : Unit} (hctx : request.env.context.Holds T)
    (hids : (w.db.products.map (·.id)).Nodup) (h : request.run w = (.ok u, w')) :
    (CatalogueStep w w' ∧ request.NamesLiveCategory w) ∨
      ∃ env dto, request = createProduct env dto := by
  cases request with
  | createCategory env dto =>
      rcases Fallible.bind_eq_ok.mp h with ⟨a, _, hrun, hreturn⟩
      cases hreturn
      exact Or.inl ⟨createCategory_step hctx hrun, trivial⟩
  | updateCategory env id dto =>
      rcases Fallible.bind_eq_ok.mp h with ⟨a, _, hrun, hreturn⟩
      cases hreturn
      exact Or.inl ⟨updateCategory_step hctx hrun, trivial⟩
  | deleteCategory env id =>
      rcases Fallible.bind_eq_ok.mp h with ⟨a, _, hrun, hreturn⟩
      cases hreturn
      exact Or.inl ⟨deleteCategory_step hctx hids hrun, trivial⟩
  | restoreCategory env id =>
      rcases Fallible.bind_eq_ok.mp h with ⟨a, _, hrun, hreturn⟩
      cases hreturn
      exact Or.inl ⟨restoreCategory_step hctx hrun, trivial⟩
  | createProduct env dto => exact Or.inr ⟨env, dto, rfl⟩
  | updateProduct env id dto =>
      rcases Fallible.bind_eq_ok.mp h with ⟨a, _, hrun, hreturn⟩
      cases hreturn
      exact Or.inl ⟨updateProduct_step hctx hrun, trivial⟩
  | deleteProduct env id =>
      rcases Fallible.bind_eq_ok.mp h with ⟨a, _, hrun, hreturn⟩
      cases hreturn
      exact Or.inl ⟨deleteProduct_step hctx hrun, trivial⟩
  | restoreProduct env id =>
      rcases Fallible.bind_eq_ok.mp h with ⟨a, _, hrun, hreturn⟩
      cases hreturn
      exact Or.inl ⟨restoreProduct_step hctx hids hrun, trivial⟩

/-- A request leaves the products placed exactly when it names a live category, where it creates
a product; the catalogue is then in order again. -/
theorem placed_step (request : MenuRequest) (hctx : request.env.context.Holds T)
    (h : Catalogue w.db) :
    (Placed (request.run w).2.db ↔ request.NamesLiveCategory w) ∧
      (request.NamesLiveCategory w → Catalogue (request.run w).2.db) := by
  rcases hresult : request.run w with ⟨_ | u, w'⟩
  · have hw' := request.run_atomic _ _ _ hresult
    rw [hw']
    refine ⟨⟨fun _ => ?_, fun _ => h.placed⟩, fun _ => h⟩
    cases request with
    | createProduct env dto =>
        intro hcreates
        rcases (createProduct_iff hctx h.productIds).mpr hcreates with ⟨a, w₁, hrun⟩
        have hreturn : (createProduct env dto).run w = (.ok (), w₁) :=
          Fallible.bind_of_ok hrun
        rw [hresult] at hreturn
        cases hreturn
    | _ => trivial
  · rcases run_step hctx h.productIds hresult with ⟨hstep, hnamed⟩ | ⟨env, dto, rfl⟩
    · have hafter := h.step hstep
      exact ⟨⟨fun _ => hnamed, fun _ => hafter.placed⟩, fun _ => hafter⟩
    · have hctx : env.context.Holds T := hctx
      rcases Fallible.bind_eq_ok.mp hresult with ⟨a, _, hrun, hreturn⟩
      cases hreturn
      have hcreates := (createProduct_iff hctx h.productIds).mp ⟨a, w', hrun⟩
      rcases createProduct_ok hctx hrun with ⟨_, basePrice, _, haccepted, _, rfl⟩
      have hcategory : (createdProduct env T dto basePrice).categoryId = dto.categoryId := rfl
      have htenant : (createdProduct env T dto basePrice).tenantId = T := rfl
      have hnamed : HasCategory w.db (createdProduct env T dto basePrice) ↔
          (createProduct env dto).NamesLiveCategory w := by
        constructor
        · rintro ⟨c, hc, hid, hown, hlive⟩ _
          exact ⟨c, hc, hid.trans hcategory, by rw [hown, htenant]; exact hctx.tenantId, hlive⟩
        · intro hnames
          rcases hnames hcreates with ⟨c, hc, hid, hown, hlive⟩
          rw [hctx.tenantId] at hown
          exact ⟨c, hc, hid.trans hcategory.symm, (Option.some.inj hown).symm.trans htenant.symm,
            hlive⟩
      have hplaced := h.placed.productCreated (p := createdProduct env T dto basePrice) rfl
      exact ⟨hplaced.trans hnamed, fun hnames =>
        ⟨h.categoryIds, products_accepts.mp haccepted, hplaced.mpr (hnamed.mpr hnames)⟩⟩

end MenuRequest

/-! ## Whole runs -/

/-- The requests, one at a time. -/
def menuMachine : Machine MenuRequest World (Except AppError Unit) where
  step request w := request.run w

/-- In every state of a run of requests by tenants every live product has a live category of its
own tenant, exactly when each creation that goes through names a live category of its tenant. -/
theorem placed_iff {requests : List MenuRequest} {w : World} (hstart : Catalogue w.db)
    (htenants : ∀ request ∈ requests, ∃ T, request.env.context.Holds T) :
    (∀ served, served <+: requests → Placed (menuMachine.exec served w).db) ↔
      menuMachine.EachStep MenuRequest.NamesLiveCategory requests w := by
  refine menuMachine.prefix_iff_eachStep (I := fun w => Catalogue w.db)
    (P := fun w => Placed w.db) (fun _ h => h.placed) (fun request hrequest w h => ?_) hstart
  rcases htenants request hrequest with ⟨T, hctx⟩
  exact request.placed_step hctx h

/-! ## Two tenants -/

/-- Two tenants, each with a restaurant; the second has a category. -/
def twoTenants : World where
  db :=
    { tenants := [{ id := "t1", name := "Trattoria" }, { id := "t2", name := "Osteria" }]
      restaurants := [{ (default : Restaurant) with id := "r1", tenantId := "t1" },
        { (default : Restaurant) with id := "r2", tenantId := "t2" }]
      categories := [{ id := "c2", tenantId := "t2", restaurantId := "r2", name := "Dolci"
                       sortOrder := 1, isActive := true }] }

/-- The context of the first tenant, with an id for a new row. -/
def trattoriaEnv (id : Id) : LifecycleEnv where
  context := { tenantId := some "t1" }
  uuid _ := id
  now := 1700000000000

theorem trattoriaEnv_holds (id : Id) : (trattoriaEnv id).context.Holds "t1" :=
  ⟨rfl, by decide⟩

theorem twoTenants_catalogue : Catalogue twoTenants.db :=
  ⟨by decide, by decide, fun _ hp => by cases hp⟩

/-- A product of one tenant under the category of another: it has no category of its own
tenant. -/
theorem foreign_category_accepted :
    ¬ ∀ (requests : List MenuRequest) (w : World), Catalogue w.db →
      (∀ request ∈ requests, ∃ T, request.env.context.Holds T) →
        Placed (menuMachine.exec requests w).db := by
  intro hall
  have hplaced := hall
    [.createProduct (trattoriaEnv "p1") { categoryId := "c2", name := "Gelato", basePrice := 4 }]
    twoTenants twoTenants_catalogue
    (fun request hrequest =>
      ⟨"t1", by rw [List.mem_singleton.mp hrequest]; exact trattoriaEnv_holds _⟩)
  have hstranded : ¬ Placed (menuMachine.exec
      [.createProduct (trattoriaEnv "p1") { categoryId := "c2", name := "Gelato", basePrice := 4 }]
        twoTenants).db := by
    unfold Placed HasCategory
    decide +kernel
  exact hstranded hplaced

/-- A category that is filled, closed and opened again, and the product that comes back. -/
def menuDay : List MenuRequest :=
  [.createCategory (trattoriaEnv "c1") { restaurantId := "r1", name := "Primi", sortOrder := 1 },
    .createProduct (trattoriaEnv "p1") { categoryId := "c1", name := "Lasagne", basePrice := 12 },
    .deleteCategory (trattoriaEnv "") "c1",
    .restoreProduct (trattoriaEnv "") "p1",
    .restoreCategory (trattoriaEnv "") "c1",
    .restoreProduct (trattoriaEnv "") "p1"]

theorem menuDay_context : ∀ request ∈ menuDay, request.env.context.Holds "t1" := by
  simp only [menuDay, List.forall_mem_cons, MenuRequest.env, trattoriaEnv_holds, true_and]
  exact fun _ hnone => by cases hnone

/-- After that day the product is live, and throughout the day each live product was placed. -/
theorem menuDay_placed :
    (∃ p ∈ (menuMachine.exec menuDay twoTenants).db.products, p.deletedAt = none) ∧
      ∀ served, served <+: menuDay → Placed (menuMachine.exec served twoTenants).db := by
  have hnamed : ∃ c ∈ (menuMachine.exec [menuDay.head (by decide)] twoTenants).db.categories,
      c.id = "c1" ∧ some "t1" = some c.tenantId ∧ c.deletedAt = none := by decide +kernel
  exact ⟨by decide +kernel, (placed_iff twoTenants_catalogue
    fun request hrequest => ⟨"t1", menuDay_context request hrequest⟩).mpr
      ⟨trivial, fun _ => hnamed, trivial, trivial, trivial, trivial, trivial⟩⟩

end MenuService
end Eleva
