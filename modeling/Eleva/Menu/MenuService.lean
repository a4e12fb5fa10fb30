import Eleva.Database.CascadeLoops

/-!
# Menu - Categories and products

The menu service: creation, partial update, deletion and restoration of the categories of a
tenant and of their products, with the cascade from a category to its products.

Main results:

- Definitions {lit}`createCategory`, {lit}`updateCategory`, {lit}`deleteCategory`,
  {lit}`restoreCategory`, {lit}`createProduct`, {lit}`updateProduct`, {lit}`deleteProduct` and
  {lit}`restoreProduct`: the methods.
- Theorem {lit}`createProduct_iff`: when a creation of a product goes through.
-/

namespace Eleva
namespace MenuService

open Foundation Database TableOf

/-! ## Requests and answers -/

structure CreateCategoryRequestDto where
  restaurantId : Id
  name : String
  sortOrder : Int
deriving DecidableEq, Repr

structure UpdateCategoryRequestDto where
  name : Field String := .undefined
  sortOrder : Field Int := .undefined
  isActive : Field Bool := .undefined
deriving DecidableEq, Repr

structure CreateProductRequestDto where
  categoryId : Id
  name : String
  description : Field String := .undefined
  imageUrl : Field String := .undefined
  basePrice : ℚ
  calories : Field Int := .undefined
  preparationTime : Field Int := .undefined
deriving DecidableEq, Repr

structure UpdateProductRequestDto where
  categoryId : Field Id := .undefined
  name : Field String := .undefined
  description : Field String := .undefined
  imageUrl : Field String := .undefined
  basePrice : Field ℚ := .undefined
  isAvailable : Field Bool := .undefined
  calories : Field Int := .undefined
  preparationTime : Field Int := .undefined
deriving DecidableEq, Repr

structure SoftDeleteResult where
  id : Id
  deleted : Bool
deriving DecidableEq, Repr

structure RestoreResult where
  id : Id
  restored : Bool := true
deriving DecidableEq, Repr

/-- {lit}`value || null`, where {lit}`falsy` is the value that counts as none. -/
def orNull {α : Type} [DecidableEq α] (falsy : α) (x : Field α) : Option α :=
  (x.write none).filter (· != falsy)

/-! ## Categories -/

/-- A live category of the context's tenant. -/
def findCategory (env : LifecycleEnv) (id : Id) : Service Category :=
  fetch categories categoryRepository env .read id (requestedNotFound "Category" id)

/-- The {lit}`data` object of a new category. -/
def newCategory (dto : CreateCategoryRequestDto) : Payload Category where
  assign c :=
    { c with
      restaurantId := dto.restaurantId
      name := dto.name
      sortOrder := dto.sortOrder
      isActive := true }

def createCategory (env : LifecycleEnv) (dto : CreateCategoryRequestDto) :
    Service (Option Category) := do
  let _ ← fetch restaurants restaurantRepository env .parentRead dto.restaurantId
    (requestedNotFound "Restaurant" dto.restaurantId)
  attempt (env.fails .write)
    (categories.run (categoryRepository.create env.toEnv (newCategory dto)))

/-- The {lit}`data` object of an update. -/
def categoryFields (dto : UpdateCategoryRequestDto) : Payload Category where
  assign c :=
    { c with
      name := dto.name.getD c.name
      sortOrder := dto.sortOrder.getD c.sortOrder
      isActive := dto.isActive.getD c.isActive }

def updateCategory (env : LifecycleEnv) (id : Id) (dto : UpdateCategoryRequestDto) :
    Service (Option Category) := do
  let existing ← findCategory env id
  if !(dto.name.isDefined || dto.sortOrder.isDefined || dto.isActive.isDefined) then
    pure (some existing)
  else do
    Fallible.throwIf (dto.name.isNull || dto.sortOrder.isNull || dto.isActive.isNull)
      (.client .constraintViolation)
    attempt (env.fails .write)
      (categories.run (categoryRepository.update env.toEnv id (categoryFields dto)))

/-- The live products of a category, as the cascade asks for them. -/
def liveProductsWhere (categoryId tenantId : Id) : Where Product where
  tenantId := .filter fun t => t == some tenantId
  deletedAt := .filter fun d => d == none
  rest p := p.categoryId == categoryId

/-- The tombstone of a product. -/
def productTombstone (now : Timestamp) : Payload Product where
  assign p := { p with deletedAt := some now, isAvailable := false }

/-- The tombstone of a category. -/
def categoryTombstone (now : Timestamp) : Payload Category where
  assign c := { c with deletedAt := some now, isActive := false }

/-- The transaction of a deletion: the products of the category, and then the category. -/
def closeCategory (env : LifecycleEnv) (id tenantId : Id) : Service Unit :=
  Fallible.transaction do
    cascade products prisma.product env (liveProductsWhere id tenantId) (productTombstone env.now)
    let _ ← attempt (env.fails .parentWrite)
      (categories.run
        (prisma.category.update env.toEnv { id := some id } (categoryTombstone env.now)))
    attempt (env.fails .commit) (pure ())

def deleteCategory (env : LifecycleEnv) (id : Id) : Service SoftDeleteResult := do
  let existing ← findCategory env id
  closeCategory env id existing.tenantId
  pure { id, deleted := true }

def restoreCategory (env : LifecycleEnv) (id : Id) : Service RestoreResult := do
  let _ ← fetchIncludingDeleted categories categoryRepository env .read id
    (requestedNotFound "Category" id)
  let _ ← attempt (env.fails .write) (categories.run (categoryRepository.restore env.toEnv id {}))
  pure { id }

/-! ## Products -/

/-- A live product of the context's tenant. -/
def findProduct (env : LifecycleEnv) (id : Id) : Service Product :=
  fetch products productRepository env .read id (requestedNotFound "Product" id)

/-- The {lit}`data` object of a new product. -/
def newProduct (dto : CreateProductRequestDto) (basePrice : Money) : Payload Product where
  assign p :=
    { p with
      categoryId := dto.categoryId
      name := dto.name
      description := orNull "" dto.description
      imageUrl := orNull "" dto.imageUrl
      basePrice := basePrice
      isAvailable := true
      calories := orNull 0 dto.calories
      preparationTime := (orNull 0 dto.preparationTime).getD 15 }

/-- The category of the new product is whatever the body names. -/
def createProduct (env : LifecycleEnv) (dto : CreateProductRequestDto) :
    Service (Option Product) := do
  let basePrice ← orThrow (.client .constraintViolation) (Decimal.ofNumber 10 2 dto.basePrice)
  attempt (env.fails .write)
    (products.run (productRepository.create env.toEnv (newProduct dto basePrice)))

/-- A category that a body names is looked up in the context's tenant; a null is no id. -/
def checkCategory (env : LifecycleEnv) : Field Id → Service Unit
  | .undefined => pure ()
  | .null => Fallible.throw (.client (.unknownArgument "id"))
  | .value categoryId => do
      let _ ← fetch categories categoryRepository env .parentRead categoryId
        (requestedNotFound "Category" categoryId)
      pure ()

/-- No key of the body is defined. -/
def UpdateProductRequestDto.isEmpty (dto : UpdateProductRequestDto) : Bool :=
  !(dto.categoryId.isDefined || dto.name.isDefined || dto.description.isDefined ||
    dto.imageUrl.isDefined || dto.basePrice.isDefined || dto.isAvailable.isDefined ||
    dto.calories.isDefined || dto.preparationTime.isDefined)

/-- A required column would be null. -/
def UpdateProductRequestDto.isRefused (dto : UpdateProductRequestDto) : Bool :=
  dto.name.isNull || dto.basePrice.isNull || dto.isAvailable.isNull || dto.preparationTime.isNull

/-- The {lit}`data` object of an update. -/
def productFields (dto : UpdateProductRequestDto) (basePrice : Field Money) : Payload Product where
  assign p :=
    { p with
      categoryId := dto.categoryId.getD p.categoryId
      name := dto.name.getD p.name
      description := dto.description.write p.description
      imageUrl := dto.imageUrl.write p.imageUrl
      basePrice := basePrice.getD p.basePrice
      isAvailable := dto.isAvailable.getD p.isAvailable
      calories := dto.calories.write p.calories
      preparationTime := dto.preparationTime.getD p.preparationTime }

def updateProduct (env : LifecycleEnv) (id : Id) (dto : UpdateProductRequestDto) :
    Service (Option Product) := do
  let existing ← findProduct env id
  checkCategory env dto.categoryId
  if dto.isEmpty then pure (some existing)
  else do
    Fallible.throwIf dto.isRefused (.client .constraintViolation)
    let basePrice ← storeNumber 10 2 dto.basePrice
    attempt (env.fails .write)
      (products.run (productRepository.update env.toEnv id (productFields dto basePrice)))

/-- What a deleted product is set to, and a restored one. -/
def availability (isAvailable : Bool) : Payload Product where
  assign p := { p with isAvailable := isAvailable }

def deleteProduct (env : LifecycleEnv) (id : Id) : Service SoftDeleteResult := do
  let _ ← findProduct env id
  let _ ← attempt (env.fails .write)
    (products.run (productRepository.softDelete env.toEnv id (availability false)))
  pure { id, deleted := true }

def restoreProduct (env : LifecycleEnv) (id : Id) : Service RestoreResult := do
  let existing ← fetchIncludingDeleted products productRepository env .read id
    (requestedNotFound "Product" id)
  let _ ← fetch categories categoryRepository env .parentRead existing.categoryId
    (.conflict ("This product cannot be restored because its category is deleted. " ++
      "Restore the category first."))
  let _ ← attempt (env.fails .write)
    (products.run (productRepository.restore env.toEnv id (availability true)))
  pure { id }

/-! ## What the methods leave -/

section Methods

variable {env : LifecycleEnv} {id T : Id} {w w' : World}

/-- A live product of a category of a tenant. -/
def isLiveItem (categoryId tenantId : Id) (p : Product) : Bool :=
  p.categoryId == categoryId && p.tenantId == tenantId && p.deletedAt.isNone

/-- The database with a category of the tenant deleted, and its live products. -/
def withClosed (T : Id) (c : Category) (now : Timestamp) (db : Db) : Db :=
  categories.set (rewriteWhere (ownRow (some T) c.id) (categoryTombstone now).apply db.categories)
    (products.set (rewriteWhere (isLiveItem c.id T) (productTombstone now).apply db.products) db)

/-- The filter of the cascade selects the live products of the category, in a scope that reaches
the tenant. -/
theorem liveProducts_admits {S : Option Id} {categoryId : Id} (hscope : S = none ∨ S = some T) :
    ((liveProductsWhere categoryId T).inScope S).admits prisma.product =
      isLiveItem categoryId T := by
  funext p
  rcases hscope with rfl | rfl <;> cases hdeleted : p.deletedAt <;>
    simp [Where.inScope, Where.withTenant, Where.admits, liveProductsWhere, isLiveItem,
      prisma.product, ColumnKey.admits, TenantRow.tenantId, hdeleted, Bool.and_comm]

theorem products_marks {S : Option Id} (hscope : S = none ∨ S = some T) (categoryId : Id)
    (now : Timestamp) :
    Marks products prisma.product (isLiveItem categoryId T) (productTombstone now) S where
  isScoped := by decide
  isRow _ := rfl
  nested := rfl
  id_apply _ := rfl
  done p := by simp [isLiveItem, productTombstone, Payload.apply]
  inScope p hp := by
    simp only [isLiveItem, Bool.and_eq_true, beq_iff_eq] at hp
    rcases hscope with rfl | rfl
    · rfl
    · simp [visible, owned, TenantRow.tenantId, hp.1.2]
  set_set _ _ _ := rfl

/-- The transaction of a deletion that returned has marked the category and its live products. -/
theorem closeCategory_ok {c : Category} {u : Unit} (hctx : env.context.Holds T)
    (hids : (w.db.products.map (·.id)).Nodup)
    (h : closeCategory env c.id T w = (.ok u, w')) :
    w' = { w with db := withClosed T c env.now w.db } := by
  have hsees : env.context.Sees (some T) := hctx
  rcases Fallible.bind_eq_ok.mp (Fallible.transaction_eq_ok.mp h) with ⟨_, w₁, hcascade, hrest⟩
  have hmarked := cascade_ok (products_marks (Or.inr rfl) c.id env.now) hsees
    (liveProducts_admits (Or.inr rfl)) rfl hids hcascade
  rcases Fallible.bind_eq_ok.mp hrest with ⟨_, w₂, hupdate, hcommit⟩
  have hclosed := run_update_id categories_softDelete hsees rfl (attempt_eq_ok.mp hupdate).2
  cases (attempt_eq_ok.mp hcommit).2
  rw [hclosed.world, hmarked]
  rfl

/-- A creation of a category that returned has appended it. -/
theorem createCategory_ok {dto : CreateCategoryRequestDto} {a : Option Category}
    (hctx : env.context.Holds T) (h : createCategory env dto w = (.ok a, w')) :
    ∃ c : Category,
      ({ rows := w.db.categories, uniqueKeys := categories.uniqueKeys } : Store Category).accepts
        (w.db.categories ++ [c]) = true ∧
      w' = { w with db := categories.set (w.db.categories ++ [c]) w.db } := by
  have hsees : env.context.Sees (some T) := hctx
  rcases Fallible.bind_eq_ok.mp h with ⟨restaurant, w₁, hrestaurant, hcreate⟩
  rcases fetch_mem restaurants_softDelete hsees hrestaurant with ⟨hw₁, _⟩
  rw [hw₁] at hcreate
  rcases run_create_appends hsees (by decide) rfl rfl (attempt_eq_ok.mp hcreate).2 with
    ⟨hw', haccepted, _⟩
  exact ⟨_, haccepted, hw'⟩

/-- An update of a category that returned has left the database, or rewritten the category. -/
theorem updateCategory_ok {dto : UpdateCategoryRequestDto} {a : Option Category}
    (hctx : env.context.Holds T) (h : updateCategory env id dto w = (.ok a, w')) :
    w' = w ∨ categories.Rewrites (ownRow (some T) id) (categoryFields dto).apply w w' := by
  have hsees : env.context.Sees (some T) := hctx
  rcases Fallible.bind_eq_ok.mp h with ⟨c, w₁, hcategory, hrest⟩
  rcases fetch_mem categories_softDelete hsees hcategory with ⟨hw₁, _⟩
  rw [hw₁] at hrest
  split at hrest
  · cases hrest
    exact Or.inl rfl
  · rcases Fallible.throwIf_bind_eq_ok.mp hrest with ⟨_, hupdate⟩
    exact Or.inr (run_update_live categories_softDelete hsees rfl (attempt_eq_ok.mp hupdate).2).2

/-- A deletion that returned has closed a live category of the tenant. -/
theorem deleteCategory_ok {a : SoftDeleteResult} (hctx : env.context.Holds T)
    (hids : (w.db.products.map (·.id)).Nodup) (h : deleteCategory env id w = (.ok a, w')) :
    ∃ c ∈ w.db.categories, c.id = id ∧ c.tenantId = T ∧
      w' = { w with db := withClosed T c env.now w.db } := by
  have hsees : env.context.Sees (some T) := hctx
  rcases Fallible.bind_eq_ok.mp h with ⟨c, w₁, hcategory, hrest⟩
  rcases fetch_mem categories_softDelete hsees hcategory with ⟨hw₁, hc, hid, hscope, _⟩
  rcases Fallible.bind_eq_ok.mp hrest with ⟨_, w₂, hclose, hreturn⟩
  cases hreturn
  have hcid : c.id = id := hid
  have htenant : c.tenantId = T := Option.some.inj (visible_some.mp hscope)
  rw [hw₁, ← hcid, htenant] at hclose
  exact ⟨c, hc, hcid, htenant, closeCategory_ok hctx hids hclose⟩

/-- A restoration of a category that returned has left it, or taken the tombstone away. -/
theorem restoreCategory_ok {a : RestoreResult} (hctx : env.context.Holds T)
    (h : restoreCategory env id w = (.ok a, w')) :
    w' = w ∨ categories.Rewrites (ownRow (some T) id)
      (BaseTenantRepository.withDeletedAt categoryDeletedAt {} none).apply w w' := by
  have hsees : env.context.Sees (some T) := hctx
  rcases Fallible.bind_eq_ok.mp h with ⟨_, w₁, hread, hrest⟩
  rcases fetchIncludingDeleted_ok categories_softDelete hread with ⟨hw₁, _⟩
  rcases Fallible.bind_eq_ok.mp hrest with ⟨_, w₂, hrestore, hreturn⟩
  cases hreturn
  rw [hw₁] at hrestore
  rcases run_setDeletedAt categories_softDelete hsees rfl (attempt_eq_ok.mp hrestore).2 with
    ⟨c, _, heffect⟩
  split at heffect
  · exact Or.inl heffect
  · exact Or.inr heffect

/-- A category that an update names is a live one of the tenant. -/
theorem checkCategory_ok {categoryId : Field Id} {u : Unit} (hctx : env.context.Holds T)
    (h : checkCategory env categoryId w = (.ok u, w')) :
    w' = w ∧ (categoryId = .undefined ∨ ∃ c ∈ w.db.categories, categoryId = .value c.id ∧
      c.tenantId = T ∧ c.deletedAt = none) := by
  have hsees : env.context.Sees (some T) := hctx
  cases categoryId with
  | undefined =>
      cases h
      exact ⟨rfl, Or.inl rfl⟩
  | null => cases h
  | value categoryId =>
      rcases Fallible.bind_eq_ok.mp h with ⟨c, w₁, hfetch, hreturn⟩
      cases hreturn
      rcases fetch_mem categories_softDelete hsees hfetch with ⟨hw₁, hc, hid, hscope, hlive⟩
      have hcid : c.id = categoryId := hid
      exact ⟨hw₁, Or.inr ⟨c, hc, by rw [hcid], Option.some.inj (visible_some.mp hscope), hlive⟩⟩

/-- An update of a product that returned has left the database, or rewritten the product; a
category that it names is a live one of the tenant. -/
theorem updateProduct_ok {dto : UpdateProductRequestDto} {a : Option Product}
    (hctx : env.context.Holds T) (h : updateProduct env id dto w = (.ok a, w')) :
    w' = w ∨ ∃ basePrice,
      products.Rewrites (ownRow (some T) id) (productFields dto basePrice).apply w w' ∧
        (dto.categoryId = .undefined ∨ ∃ c ∈ w.db.categories, dto.categoryId = .value c.id ∧
          c.tenantId = T ∧ c.deletedAt = none) := by
  have hsees : env.context.Sees (some T) := hctx
  rcases Fallible.bind_eq_ok.mp h with ⟨p, w₁, hproduct, hrest₁⟩
  rcases fetch_mem products_softDelete hsees hproduct with ⟨hw₁, _⟩
  rcases Fallible.bind_eq_ok.mp hrest₁ with ⟨_, w₂, hcheck, hrest₂⟩
  rw [hw₁] at hcheck
  rcases checkCategory_ok hctx hcheck with ⟨hw₂, hcategory⟩
  rw [hw₂] at hrest₂
  split at hrest₂
  · cases hrest₂
    exact Or.inl rfl
  · rcases Fallible.throwIf_bind_eq_ok.mp hrest₂ with ⟨_, hrest₃⟩
    rcases Fallible.bind_eq_ok.mp hrest₃ with ⟨basePrice, w₃, hprice, hupdate⟩
    have hw₃ : w₃ = w := (storeNumber_readsOnly 10 2 _).state_eq hprice
    rw [hw₃] at hupdate
    exact Or.inr ⟨basePrice,
      (run_update_live products_softDelete hsees rfl (attempt_eq_ok.mp hupdate).2).2, hcategory⟩

/-- A deletion of a product that returned has left it, or marked it. -/
theorem deleteProduct_ok {a : SoftDeleteResult} (hctx : env.context.Holds T)
    (h : deleteProduct env id w = (.ok a, w')) :
    w' = w ∨ products.Rewrites (ownRow (some T) id)
      (BaseTenantRepository.withDeletedAt productDeletedAt (availability false)
        (some env.now)).apply w w' := by
  have hsees : env.context.Sees (some T) := hctx
  rcases Fallible.bind_eq_ok.mp h with ⟨p, w₁, hproduct, hrest⟩
  rcases fetch_mem products_softDelete hsees hproduct with ⟨hw₁, _⟩
  rcases Fallible.bind_eq_ok.mp hrest with ⟨_, w₂, hdelete, hreturn⟩
  cases hreturn
  rw [hw₁] at hdelete
  rcases run_setDeletedAt products_softDelete hsees rfl (attempt_eq_ok.mp hdelete).2 with
    ⟨_, _, heffect⟩
  split at heffect
  · exact Or.inl heffect
  · exact Or.inr heffect

/-- A restoration of a product that returned has left it, or taken the tombstone away, under a
live category of the tenant. -/
theorem restoreProduct_ok {a : RestoreResult} (hctx : env.context.Holds T)
    (h : restoreProduct env id w = (.ok a, w')) :
    w' = w ∨ products.Rewrites (ownRow (some T) id)
        (BaseTenantRepository.withDeletedAt productDeletedAt (availability true) none).apply w w' ∧
      ∃ p ∈ w.db.products, p.id = id ∧ ∃ c ∈ w.db.categories, c.id = p.categoryId ∧
        c.tenantId = T ∧ c.deletedAt = none := by
  have hsees : env.context.Sees (some T) := hctx
  rcases Fallible.bind_eq_ok.mp h with ⟨p, w₁, hread, hrest₁⟩
  rcases fetchIncludingDeleted_ok products_softDelete hread with ⟨hw₁, _, S, _, hfound⟩
  rcases Fallible.bind_eq_ok.mp hrest₁ with ⟨c, w₂, hcategory, hrest₂⟩
  rw [hw₁] at hcategory
  rcases fetch_mem categories_softDelete hsees hcategory with ⟨hw₂, hc, hcid, hscope, hlive⟩
  rcases Fallible.bind_eq_ok.mp hrest₂ with ⟨_, w₃, hrestore, hreturn⟩
  cases hreturn
  rw [hw₂] at hrestore
  rcases run_setDeletedAt products_softDelete hsees rfl (attempt_eq_ok.mp hrestore).2 with
    ⟨_, _, heffect⟩
  split at heffect
  · exact Or.inl heffect
  · exact Or.inr ⟨heffect, p, List.mem_of_find?_eq_some hfound,
      id_of_ownRow (List.find?_some hfound), c, hc, hcid,
      Option.some.inj (visible_some.mp hscope), hlive⟩

theorem checkCategory_readsOnly (env : LifecycleEnv) (categoryId : Field Id) :
    Fallible.ReadsOnly (checkCategory env categoryId) := by
  cases categoryId with
  | undefined => exact .pure _
  | null => exact .throw _
  | value categoryId => exact .bind fetch_readsOnly fun _ => .pure _

theorem createCategory_atomic (env : LifecycleEnv) (dto : CreateCategoryRequestDto) :
    Fallible.Atomic (createCategory env dto) :=
  .bind fetch_readsOnly fun _ =>
    attempt_atomic (run_atomic (BaseTenantRepository.create_atomic _))

theorem updateCategory_atomic (env : LifecycleEnv) (id : Id) (dto : UpdateCategoryRequestDto) :
    Fallible.Atomic (updateCategory env id dto) := by
  refine .bind fetch_readsOnly fun existing => ?_
  split
  · exact (Fallible.ReadsOnly.pure _).atomic
  · exact .bind (.throwIf _ _) fun _ =>
      attempt_atomic (run_atomic (BaseTenantRepository.update_atomic _ _))

theorem deleteCategory_atomic (env : LifecycleEnv) (id : Id) :
    Fallible.Atomic (deleteCategory env id) :=
  .bind fetch_readsOnly fun _ => (Fallible.Atomic.transaction _).bind_pure

theorem restoreCategory_atomic (env : LifecycleEnv) (id : Id) :
    Fallible.Atomic (restoreCategory env id) :=
  .bind fetchIncludingDeleted_readsOnly fun _ =>
    (attempt_atomic (run_atomic (BaseTenantRepository.setDeletedAt_atomic _ _ _ _))).bind_pure

theorem createProduct_atomic (env : LifecycleEnv) (dto : CreateProductRequestDto) :
    Fallible.Atomic (createProduct env dto) :=
  .bind (orThrow_readsOnly _ _) fun _ =>
    attempt_atomic (run_atomic (BaseTenantRepository.create_atomic _))

theorem updateProduct_atomic (env : LifecycleEnv) (id : Id) (dto : UpdateProductRequestDto) :
    Fallible.Atomic (updateProduct env id dto) := by
  refine .bind fetch_readsOnly fun existing => .bind (checkCategory_readsOnly _ _) fun _ => ?_
  split
  · exact (Fallible.ReadsOnly.pure _).atomic
  · exact .bind (.throwIf _ _) fun _ => .bind (storeNumber_readsOnly _ _ _) fun _ =>
      attempt_atomic (run_atomic (BaseTenantRepository.update_atomic _ _))

theorem deleteProduct_atomic (env : LifecycleEnv) (id : Id) :
    Fallible.Atomic (deleteProduct env id) :=
  .bind fetch_readsOnly fun _ =>
    (attempt_atomic (run_atomic (BaseTenantRepository.setDeletedAt_atomic _ _ _ _))).bind_pure

theorem restoreProduct_atomic (env : LifecycleEnv) (id : Id) :
    Fallible.Atomic (restoreProduct env id) :=
  .bind fetchIncludingDeleted_readsOnly fun _ => .bind fetch_readsOnly fun _ =>
    (attempt_atomic (run_atomic (BaseTenantRepository.setDeletedAt_atomic _ _ _ _))).bind_pure

/-! ## Creations of products -/

/-- What a creation asks for: nothing about the category but that its id names a row. -/
structure Creates (env : LifecycleEnv) (dto : CreateProductRequestDto) (db : Db) : Prop where
  attempted : env.fails .write = false
  price : (Decimal.ofNumber 10 2 dto.basePrice : Option Money).isSome
  fresh : env.uuid 0 ∉ db.products.map (·.id)
  category : dto.categoryId ∈ db.categories.map (·.id)

/-- The keys of products are their ids. -/
theorem products_accepts {rows stored : List Product} :
    ({ rows := stored, uniqueKeys := products.uniqueKeys } : Store Product).accepts rows = true ↔
      (rows.map (·.id)).Nodup := by
  rw [← List.filterMap_eq_map]
  simp [Store.accepts, products]

/-- The row that a creation appends. -/
def createdProduct (env : LifecycleEnv) (T : Id) (dto : CreateProductRequestDto)
    (basePrice : Money) : Product :=
  productRepository.created env.toEnv (some T) (newProduct dto basePrice)

/-- A creation of a product that returned has appended it. -/
theorem createProduct_ok {dto : CreateProductRequestDto} {a : Option Product}
    (hctx : env.context.Holds T) (h : createProduct env dto w = (.ok a, w')) :
    env.fails .write = false ∧ ∃ basePrice, Decimal.ofNumber 10 2 dto.basePrice = some basePrice ∧
      ({ rows := w.db.products, uniqueKeys := products.uniqueKeys } : Store Product).accepts
        (w.db.products ++ [createdProduct env T dto basePrice]) = true ∧
      (createdProduct env T dto basePrice ∈ w.db.products ∨
        products.references w.db (createdProduct env T dto basePrice) = true) ∧
      w' = { w with
        db := products.set (w.db.products ++ [createdProduct env T dto basePrice]) w.db } := by
  have hsees : env.context.Sees (some T) := hctx
  rcases Fallible.bind_eq_ok.mp h with ⟨basePrice, w₁, hprice, hcreate⟩
  rcases orThrow_eq_ok.mp hprice with ⟨hprice, hw₁⟩
  rw [hw₁] at hcreate
  rcases attempt_eq_ok.mp hcreate with ⟨hattempted, hcreate⟩
  rcases run_create_appends hsees (by decide) rfl rfl hcreate with ⟨hw', haccepted, hrefs⟩
  exact ⟨hattempted, basePrice, hprice, haccepted, hrefs, hw'⟩

/-- When a creation of a product goes through: its category may be any row. -/
theorem createProduct_iff {dto : CreateProductRequestDto} (hctx : env.context.Holds T)
    (hids : (w.db.products.map (·.id)).Nodup) :
    (∃ a w', createProduct env dto w = (.ok a, w')) ↔ Creates env dto w.db := by
  constructor
  · rintro ⟨a, w', h⟩
    rcases createProduct_ok hctx h with ⟨hattempted, basePrice, hprice, haccepted, hrefs, _⟩
    have hnodup := products_accepts.mp haccepted
    rw [List.map_append, List.map_singleton, List.nodup_append] at hnodup
    have hfresh : env.uuid 0 ∉ w.db.products.map (·.id) := fun hmem =>
      hnodup.2.2 _ hmem _ (List.mem_singleton_self _) rfl
    refine ⟨hattempted, by rw [hprice]; rfl, hfresh, ?_⟩
    rcases hrefs with hold | hrefs
    · exact absurd (List.mem_map_of_mem hold) hfresh
    · have hcategory : (createdProduct env T dto basePrice).categoryId = dto.categoryId := rfl
      simpa [products, hcategory] using hrefs
  · intro h
    rcases Option.isSome_iff_exists.mp h.price with ⟨basePrice, hprice⟩
    have hsees : env.context.Sees (some T) := hctx
    have haccepted : ({ rows := w.db.products, uniqueKeys := products.uniqueKeys } :
        Store Product).accepts (w.db.products ++ [createdProduct env T dto basePrice]) = true := by
      refine products_accepts.mpr ?_
      rw [List.map_append, List.map_singleton, List.nodup_append]
      refine ⟨hids, List.nodup_singleton _, fun x hx y hy hxy => h.fresh ?_⟩
      rwa [hxy, List.mem_singleton.mp hy] at hx
    have hrefs : products.references w.db (createdProduct env T dto basePrice) = true := by
      rcases List.mem_map.mp h.category with ⟨c, hc, hid⟩
      exact List.any_eq_true.mpr ⟨c, hc, by rw [hid]; exact beq_self_eq_true _⟩
    have hcreate := run_create_of_accepts (t := products) hsees (by decide) rfl rfl haccepted hrefs
    exact ⟨_, _, Fallible.bind_eq_ok.mpr ⟨basePrice, w, orThrow_eq_ok.mpr ⟨hprice, rfl⟩,
      attempt_eq_ok.mpr ⟨h.attempted, hcreate⟩⟩⟩

end Methods

end MenuService
end Eleva
