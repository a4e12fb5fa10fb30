import Eleva.Order.Totals

/-!
# Order - Modifiers of a line

Which sizes, variants and addons an accepted checkout stores with a line.  A variant is
looked up among those of the product, and so is a size when no variant is chosen; an
addon is looked up in the tenant only, and the selection bounds of an addon group are
not read by the checkout.

Main results:

- Theorem {lit}`createOrder_checks_modifiers`: what an accepted checkout has checked of
  the modifiers of every line.
- Theorem {lit}`createOrder_accepts_foreign_modifiers`: modifiers of another product and
  an unfilled addon group are accepted.
-/

namespace Eleva
namespace OrderService

open Foundation Database DiscountService

/-! ## Modifiers of the line's own product -/

section Belonging

variable (db : Db) (item : OrderItem)

/-- The size of the line, when set, is a size of its product. -/
def SizeOfProduct : Prop :=
  ∀ sizeId ∈ item.sizeId, ∃ size ∈ db.productSizes,
    size.id = sizeId ∧ size.productId = item.productId

/-- The variant of the line, when set, is a variant of its product. -/
def VariantOfProduct : Prop :=
  ∀ variantId ∈ item.variantId, ∃ variant ∈ db.productVariants,
    variant.id = variantId ∧ variant.productId = item.productId

/-- Every addon of the line is in an addon group of its product. -/
def AddonsOfProduct : Prop :=
  ∀ addon ∈ item.orderItemAddons, ∃ addonItem ∈ db.addonItems,
    addonItem.id = addon.addonItemId ∧ ∃ group ∈ db.productAddons,
      group.id = addonItem.addonGroupId ∧ group.productId = item.productId

/-- How many addons of a group the line has. -/
def selectedOf (group : ProductAddon) : ℕ :=
  item.orderItemAddons.countP fun addon =>
    db.addonItems.any fun addonItem =>
      addonItem.id == addon.addonItemId && addonItem.addonGroupId == group.id

/-- Every addon group of the product has as many addons on the line as it asks for. -/
def SelectionsInBounds : Prop :=
  ∀ group ∈ db.productAddons, group.productId = item.productId →
    group.minSelections ≤ selectedOf db item group ∧
      (selectedOf db item group : Int) ≤ group.maxSelections

instance : Decidable (SizeOfProduct db item) :=
  inferInstanceAs (Decidable (∀ sizeId ∈ item.sizeId, ∃ size ∈ db.productSizes,
    size.id = sizeId ∧ size.productId = item.productId))

instance : Decidable (AddonsOfProduct db item) :=
  inferInstanceAs (Decidable (∀ addon ∈ item.orderItemAddons, ∃ addonItem ∈ db.addonItems,
    addonItem.id = addon.addonItemId ∧ ∃ group ∈ db.productAddons,
      group.id = addonItem.addonGroupId ∧ group.productId = item.productId))

instance : Decidable (SelectionsInBounds db item) :=
  inferInstanceAs (Decidable (∀ group ∈ db.productAddons, group.productId = item.productId →
    group.minSelections ≤ selectedOf db item group ∧
      (selectedOf db item group : Int) ≤ group.maxSelections))

end Belonging

/-! ## What the checkout checks -/

/-- What an accepted checkout has checked of a line: the product is offered, a variant
is one of the product, a size without a variant is one of the product, and every addon
is one that the tenant offers, at its own price. -/
structure ModifiersChecked (db : Db) (S : Option Id) (item : OrderItem) : Prop where
  product : ∃ product ∈ db.products, product.id = item.productId ∧ visible S product = true ∧
    product.isAvailable = true
  variant : VariantOfProduct db item
  size : item.variantId = none → SizeOfProduct db item
  addons : ∀ addon ∈ item.orderItemAddons, ∃ addonItem ∈ db.addonItems,
    addonItem.id = addon.addonItemId ∧ visible S addonItem = true ∧
      addonItem.isAvailable = true ∧ addonItem.price = addon.price

section Lines

variable {db : Db} {S : Option Id} {userTenantId : Id} {selection : OrderItemSelectionDto}
  {draft : OrderItemDraft} {item : OrderItem}

/-- The variant of a priced line is a variant of its product. -/
theorem variantOfProduct_of_lineDraft (h : lineDraft db S userTenantId selection = some draft)
    (hstored : StoredAs draft item) : VariantOfProduct db item := by
  rcases lineDraft_eq_some h with ⟨product, unitPrice, rows, _, _, hunit, _, rfl⟩
  intro variantId hvariant
  have hchosen : orNull selection.variantId = some variantId :=
    hstored.variantId.symm.trans hvariant
  unfold unitPriceOf at hunit
  simp only [hchosen, Option.bind_eq_bind, Option.bind_eq_some_iff] at hunit
  rcases hunit with ⟨variant, hfound, _⟩
  rcases ownVariant_spec hfound with ⟨hmem, hid, _, hof⟩
  exact ⟨variant, hmem, hid, hof.trans hstored.productId.symm⟩

/-- The size of a priced line without a variant is a size of its product. -/
theorem sizeOfProduct_of_lineDraft (h : lineDraft db S userTenantId selection = some draft)
    (hstored : StoredAs draft item) (hnone : item.variantId = none) :
    SizeOfProduct db item := by
  rcases lineDraft_eq_some h with ⟨product, unitPrice, rows, _, _, hunit, _, rfl⟩
  intro sizeId hsize
  have hchosen : orNull selection.sizeId = some sizeId := hstored.sizeId.symm.trans hsize
  have hplain : orNull selection.variantId = none := hstored.variantId.symm.trans hnone
  unfold unitPriceOf at hunit
  simp only [hplain, hchosen, Option.bind_eq_bind, Option.bind_eq_some_iff] at hunit
  rcases hunit with ⟨size, hfound, _⟩
  rcases ownSize_spec hfound with ⟨hmem, hid, _, hof⟩
  exact ⟨size, hmem, hid, hof.trans hstored.productId.symm⟩

/-- The addons of a priced line are ones that the tenant offers. -/
theorem addons_of_lineDraft (h : lineDraft db S userTenantId selection = some draft)
    (hstored : StoredAs draft item) :
    ∀ addon ∈ item.orderItemAddons, ∃ addonItem ∈ db.addonItems,
      addonItem.id = addon.addonItemId ∧ visible S addonItem = true ∧
        addonItem.isAvailable = true ∧ addonItem.price = addon.price := by
  rcases lineDraft_eq_some h with ⟨product, unitPrice, rows, _, _, _, hrows, rfl⟩
  intro addon haddon
  rw [hstored.orderItemAddons] at haddon
  rcases exists_of_mem_right (addonRows_forall₂ hrows) haddon with ⟨chosen, _, hrow⟩
  rcases addonRow_eq_some hrow with ⟨addonItem, hfound, havailable, rfl⟩
  rcases ownAddonItem_spec hfound with ⟨hmem, _, hown⟩
  exact ⟨addonItem, hmem, rfl, hown, havailable, rfl⟩

theorem modifiersChecked_of_lineDraft
    (h : lineDraft db S userTenantId selection = some draft) (hstored : StoredAs draft item) :
    ModifiersChecked db S item := by
  refine ⟨?_, variantOfProduct_of_lineDraft h hstored, sizeOfProduct_of_lineDraft h hstored,
    addons_of_lineDraft h hstored⟩
  rcases lineDraft_eq_some h with ⟨product, _, _, hproduct, havailable, _, _, rfl⟩
  rcases liveProduct_spec hproduct with ⟨hmem, _, hown⟩
  exact ⟨product, hmem, hstored.productId.symm, hown, havailable⟩

end Lines

/-- An accepted checkout stores one line for each requested line with the choices of
the request, every addon selection once per mention, and it has checked the modifiers
of every line. -/
theorem createOrder_checks_modifiers (env : CheckoutEnv) (S : Option Id) (userTenantId : Id)
    (dto : CreateOrderRequestDto) (w w' : World) (order : Order)
    (hctx : env.context.Sees S)
    (h : createOrder env dto userTenantId w = (.ok order, w')) :
    List.Forall₂ LineOf dto.items order.orderItems ∧
      ∀ item ∈ order.orderItems, ModifiersChecked w.db S item := by
  rcases createOrder_ok hctx h with ⟨acc, _, _⟩
  have hlines := lineDrafts_forall₂ acc.drafts_eq
  refine ⟨forall₂_trans hlines acc.storedAs fun _ _ _ => lineOf_of_lineDraft, ?_⟩
  intro item hitem
  rcases exists_of_mem_right acc.storedAs hitem with ⟨draft, hdraft, hstored⟩
  rcases exists_of_mem_right hlines hdraft with ⟨selection, _, hpriced⟩
  exact modifiersChecked_of_lineDraft hpriced hstored

theorem soupRequest_checks_modifiers :
    ∃ order w', createOrder guestEnv soupRequest "tenant-a" { db := soupMenu } = (.ok order, w') ∧
      order.orderItems.length = 2 ∧
      ∀ item ∈ order.orderItems, ModifiersChecked soupMenu (some "tenant-a") item := by
  have hok : (createOrder guestEnv soupRequest "tenant-a" { db := soupMenu }).1.toOption.any
      (fun order => order.orderItems.length == 2) = true := by decide +kernel
  rcases Fallible.returned_of_any hok with ⟨order, w', hrun, hlength⟩
  rcases createOrder_checks_modifiers guestEnv (some "tenant-a") "tenant-a" soupRequest
    { db := soupMenu } w' order guestEnv_holds hrun with ⟨_, hchecked⟩
  exact ⟨order, w', hrun, by simpa using hlength, hchecked⟩

/-! ## What it does not check -/

/-- The soup menu with a salad that has a size and an addon group of its own. -/
def soupAndSaladMenu : Db :=
  { soupMenu with
    products := soupMenu.products ++ [{
      id := "salad", tenantId := "tenant-a", categoryId := "category-1", name := "Salad"
      basePrice := ⟨400, by decide⟩, isAvailable := true }]
    productSizes := soupMenu.productSizes ++ [{
      id := "bowl", tenantId := "tenant-a", productId := "salad", name := "Bowl"
      priceAdjustment := ⟨100, by decide⟩ }]
    productAddons := soupMenu.productAddons ++ [{
      id := "toppings", tenantId := "tenant-a", productId := "salad", name := "Toppings"
      minSelections := 0, maxSelections := 2 }]
    addonItems := soupMenu.addonItems ++ [{
      id := "croutons", tenantId := "tenant-a", addonGroupId := "toppings", name := "Croutons"
      price := ⟨75, by decide⟩, isAvailable := true }] }

/-- A spicy soup in the size and with the topping of the salad, and without the bread
that the soup's addon group asks for. -/
def mixedUpRequest : CreateOrderRequestDto where
  branchId := "branch-1"
  type := .DINE_IN
  items := [{
    productId := "soup", variantId := some "spicy", sizeId := some "bowl",
    quantity := ⟨1, Nat.one_pos⟩
    addons := some [⟨"croutons"⟩] }]
  paymentMethod := .CASH

/-- A size next to a variant, an addon of another product and an addon group below its
minimum are all accepted. -/
theorem createOrder_accepts_foreign_modifiers :
    ∃ order w', createOrder guestEnv mixedUpRequest "tenant-a" { db := soupAndSaladMenu } =
        (.ok order, w') ∧
      ∃ item ∈ order.orderItems, ¬SizeOfProduct soupAndSaladMenu item ∧
        ¬AddonsOfProduct soupAndSaladMenu item ∧
        ¬SelectionsInBounds soupAndSaladMenu item := by
  have hok : (createOrder guestEnv mixedUpRequest "tenant-a"
      { db := soupAndSaladMenu }).1.toOption.any (fun order => decide (
        ∃ item ∈ order.orderItems, ¬SizeOfProduct soupAndSaladMenu item ∧
          ¬AddonsOfProduct soupAndSaladMenu item ∧
          ¬SelectionsInBounds soupAndSaladMenu item)) = true := by decide +kernel
  rcases Fallible.returned_of_any hok with ⟨order, w', hrun, hbroken⟩
  exact ⟨order, w', hrun, of_decide_eq_true hbroken⟩

end OrderService
end Eleva
