import Eleva.Foundation.Batches
import Eleva.Foundation.Machine
import Eleva.QrMenu.Pricing

/-!
# QR menu - The page and its cart

The page that a guest sees: the drawer in which a product is configured, the cart, and the
checkout with its answer, as a machine of what the guest can tap and of the answers of the server.

Main results:

- Definition {lit}`browser`: the machine, whose outputs are the payloads that are submitted.
- Theorem {lit}`Configured.addonClick`: taps on addons keep them within the limits of their groups.
- Theorem {lit}`page_ok`: what the drawer and the cart hold after every run are configurations of
  products on the menu.
-/

namespace Eleva
namespace QrMenu

open Foundation Database PublicMenuService

/-! ## The state of the page -/

/-- The part of an answer that the page shows. -/
structure GuestOrderConfirmation where
  id : Id
  orderNumber : String
  status : String
  total : ℚ
deriving DecidableEq, Repr

structure Page where
  activeCartProduct : Option PublicProduct := none
  selectedSize : Option PublicProductSize := none
  selectedVariant : Option PublicProductVariant := none
  selectedAddons : List PublicAddonOption := []
  quantity : ℤ := 1
  cart : List CartItem := []
  cartOpen : Bool := false
  specialNotes : String := ""
  submitting : Bool := false
  checkoutError : Option String := none
  confirmation : Option GuestOrderConfirmation := none
deriving DecidableEq, Repr

/-- The selections in an addon group. -/
def activeGroupSelections (group : PublicAddonGroup) (selectedAddons : List PublicAddonOption) :
    List PublicAddonOption :=
  selectedAddons.filter fun item => group.options.any fun opt => opt.id == item.id

/-- A tap on an addon takes a selection back, or makes it where the limit of the group leaves
room; in a group of one it replaces the other selection. -/
def handleAddonClick (selectedAddons : List PublicAddonOption) (addon : PublicAddonOption)
    (group : PublicAddonGroup) : List PublicAddonOption :=
  let isActive := selectedAddons.any fun item => item.id == addon.id
  if isActive then selectedAddons.filter fun item => item.id != addon.id
  else if ((activeGroupSelections group selectedAddons).length : ℤ) < group.maxSelections then
    selectedAddons ++ [addon]
  else if group.maxSelections = 1 ∧ (activeGroupSelections group selectedAddons).length = 1 then
    let groupOptionIds := group.options.map (·.id)
    (selectedAddons.filter fun item => !groupOptionIds.contains item.id) ++ [addon]
  else selectedAddons

def resetCartModal (page : Page) : Page :=
  { page with
    activeCartProduct := none
    selectedSize := none
    selectedVariant := none
    selectedAddons := []
    quantity := 1 }

def toCartItemAddon (addon : PublicAddonOption) : CartItemAddon where
  id := addon.id
  name := addon.name
  price := addon.price

/-- The cart line of a configured product. -/
def cartLine (product : PublicProduct) (size : Option PublicProductSize)
    (variant : Option PublicProductVariant) (addons : List PublicAddonOption) (quantity : ℤ) :
    CartItem where
  key := cartItemKey product.id (size.map (·.id)) (variant.map (·.id)) (addons.map (·.id))
  productId := product.id
  name := product.name
  sizeId := size.map (·.id)
  sizeName := size.map (·.name)
  variantId := variant.map (·.id)
  variantName := variant.map (·.name)
  addons := addons.map toCartItemAddon
  quantity := quantity
  unitPrice := computeUnitPrice product size variant addons

/-- Add a line to the cart, or its quantity to the line with its key. -/
def addLine (cart : List CartItem) (line : CartItem) : List CartItem :=
  if (cart.find? fun item => item.key == line.key).isSome then
    rewriteWhere (fun item => item.key == line.key)
      (fun item => { item with quantity := item.quantity + line.quantity }) cart
  else cart ++ [line]

/-- The unit price that the drawer shows. -/
def calculatedUnitPrice (page : Page) : ℚ :=
  match page.activeCartProduct with
  | none => 0
  | some product =>
      computeUnitPrice product page.selectedSize page.selectedVariant page.selectedAddons

def addToCart (page : Page) : Page :=
  match page.activeCartProduct with
  | none => page
  | some product =>
      resetCartModal { page with
        cart := addLine page.cart (cartLine product page.selectedSize page.selectedVariant
          page.selectedAddons page.quantity) }

def changeLineQuantity (key : String) (delta : ℤ) (cart : List CartItem) : List CartItem :=
  (rewriteWhere (fun item => item.key == key)
    (fun item => { item with quantity := max 0 (item.quantity + delta) }) cart).filter
      fun item => decide (0 < item.quantity)

def removeLine (key : String) (cart : List CartItem) : List CartItem :=
  cart.filter fun item => item.key != key

/-- The payload of the cart: cash at the counter. -/
def checkoutPayload (menu : PublicMenuResponse) (token : String) (page : Page) :
    CreateGuestOrderPayload :=
  buildCheckoutPayload page.cart
    { qrCodeToken := token
      branchId := menu.branch.id
      paymentMethod := .CASH
      specialNotes := some page.specialNotes }

def placeOrder (menu : PublicMenuResponse) (token : String) (page : Page) :
    Option CreateGuestOrderPayload × Page :=
  if page.cart.length = 0 ∨ page.submitting then (none, page)
  else (some (checkoutPayload menu token page),
    { page with submitting := true, checkoutError := none })

/-- What the answer of the server changes. -/
def answered (page : Page) : Except String GuestOrderConfirmation → Page
  | .ok result =>
      { page with
        confirmation := some result
        cart := []
        cartOpen := false
        specialNotes := ""
        submitting := false }
  | .error message => { page with checkoutError := some message, submitting := false }

/-! ## The machine -/

/-- What the guest taps, and what the server answers. -/
inductive Action where
  | openProduct (product : PublicProduct)
  | closeModal
  | selectSize (size : PublicProductSize)
  | selectVariant (variant : PublicProductVariant)
  | addonClick (addon : PublicAddonOption) (group : PublicAddonGroup)
  | decrease
  | increase
  | addToCart
  | openCart
  | closeCart
  | changeLineQuantity (key : String) (delta : ℤ)
  | removeLine (key : String)
  | changeNotes (notes : String)
  | placeOrder
  | answered (result : Except String GuestOrderConfirmation)
  | startNewOrder

/-- The page of a menu that was loaded for a token. -/
def browser (menu : PublicMenuResponse) (token : String) :
    Machine Action Page (Option CreateGuestOrderPayload) where
  step
    | .openProduct product, page => (none, { page with activeCartProduct := some product })
    | .closeModal, page => (none, resetCartModal page)
    | .selectSize size, page =>
        (none, { page with selectedSize := some size, selectedVariant := none })
    | .selectVariant variant, page =>
        (none, { page with selectedVariant := some variant, selectedSize := none })
    | .addonClick addon group, page =>
        (none, { page with selectedAddons := handleAddonClick page.selectedAddons addon group })
    | .decrease, page => (none, { page with quantity := max 1 (page.quantity - 1) })
    | .increase, page => (none, { page with quantity := page.quantity + 1 })
    | .addToCart, page => (none, QrMenu.addToCart page)
    | .openCart, page => (none, { page with cartOpen := true })
    | .closeCart, page => (none, { page with cartOpen := false })
    | .changeLineQuantity key delta, page =>
        (none, { page with cart := QrMenu.changeLineQuantity key delta page.cart })
    | .removeLine key, page => (none, { page with cart := QrMenu.removeLine key page.cart })
    | .changeNotes notes, page => (none, { page with specialNotes := notes })
    | .placeOrder, page => QrMenu.placeOrder menu token page
    | .answered result, page => (none, QrMenu.answered page result)
    | .startNewOrder, page => (none, { page with confirmation := none, checkoutError := none })

/-- The products that the page can show: those that are available. -/
def Shown (menu : PublicMenuResponse) (product : PublicProduct) : Prop :=
  ∃ category ∈ menu.categories, product ∈ category.products ∧ product.isAvailable = true

/-- What the page offers in a state.  The drawer and the cart cover the products below them, and a
confirmation covers everything. -/
def Offered (menu : PublicMenuResponse) : Action → Page → Prop
  | .openProduct product, page =>
      page.confirmation = none ∧ page.activeCartProduct = none ∧ page.cartOpen = false ∧
        Shown menu product
  | .selectSize size, page =>
      page.confirmation = none ∧ ∃ product ∈ page.activeCartProduct, size ∈ product.sizes
  | .selectVariant variant, page =>
      page.confirmation = none ∧ ∃ product ∈ page.activeCartProduct,
        variant ∈ product.variants ∧ 0 < variant.stockQuantity
  | .addonClick addon group, page =>
      page.confirmation = none ∧ ∃ product ∈ page.activeCartProduct,
        group ∈ product.addons ∧ addon ∈ group.options
  | .closeModal, page | .decrease, page | .increase, page | .addToCart, page =>
      page.confirmation = none ∧ page.activeCartProduct.isSome
  | .openCart, page =>
      page.confirmation = none ∧ 0 < page.cart.length ∧ page.cartOpen = false ∧
        page.activeCartProduct = none
  | .changeLineQuantity key delta, page =>
      page.confirmation = none ∧ page.cartOpen = true ∧ (delta = 1 ∨ delta = -1) ∧
        ∃ item ∈ page.cart, item.key = key
  | .removeLine key, page =>
      page.confirmation = none ∧ page.cartOpen = true ∧ ∃ item ∈ page.cart, item.key = key
  | .closeCart, page | .changeNotes _, page => page.confirmation = none ∧ page.cartOpen = true
  | .placeOrder, page =>
      page.confirmation = none ∧ page.cartOpen = true ∧ 0 < page.cart.length ∧
        page.submitting = false
  | .answered _, page => page.submitting = true
  | .startNewOrder, page => page.confirmation.isSome

/-! ## Configurations -/

/-- A configuration of a product: one of its sizes or one of its variants in stock, and addons of
its groups, within their limits. -/
structure Configured (product : PublicProduct) (size : Option PublicProductSize)
    (variant : Option PublicProductVariant) (addons : List PublicAddonOption) : Prop where
  size_mem : ∀ s ∈ size, s ∈ product.sizes
  variant_mem : ∀ v ∈ variant, v ∈ product.variants ∧ 0 < v.stockQuantity
  exclusive : size = none ∨ variant = none
  addons_mem : ∀ a ∈ addons, ∃ group ∈ product.addons, a ∈ group.options
  distinct : (addons.map (·.id)).Nodup
  limits : ∀ group ∈ product.addons,
    ((activeGroupSelections group addons).length : ℤ) ≤ max 0 group.maxSelections

/-- A configured product of the menu. -/
structure Configuration (menu : PublicMenuResponse) where
  product : PublicProduct
  size : Option PublicProductSize
  variant : Option PublicProductVariant
  addons : List PublicAddonOption
  shown : Shown menu product
  configured : Configured product size variant addons

/-- The line of a configuration. -/
def Configuration.line {menu : PublicMenuResponse} (c : Configuration menu) (quantity : ℤ) :
    CartItem :=
  cartLine c.product c.size c.variant c.addons quantity

/-- The ids of a menu, as the database keeps them: plain, one product under an id, and one size,
variant and option of a product. -/
structure WellNamed (menu : PublicMenuResponse) : Prop where
  plain : ∀ p, Shown menu p → Plain p.id ∧ (∀ s ∈ p.sizes, Plain s.id) ∧
    (∀ v ∈ p.variants, Plain v.id) ∧ ∀ group ∈ p.addons, ∀ o ∈ group.options, Plain o.id
  products : ∀ p q, Shown menu p → Shown menu q → p.id = q.id → p = q
  sizes : ∀ p, Shown menu p → (p.sizes.map (·.id)).Nodup
  variants : ∀ p, Shown menu p → (p.variants.map (·.id)).Nodup
  options : ∀ p, Shown menu p → ((p.addons.flatMap (·.options)).map (·.id)).Nodup

section Selections

variable {addons : List PublicAddonOption} {addon : PublicAddonOption} {group : PublicAddonGroup}

/-- Groups that share an option are one group. -/
theorem group_eq_of_option {groups : List PublicAddonGroup}
    (h : ((groups.flatMap (·.options)).map (·.id)).Nodup) {g g' : PublicAddonGroup}
    (hg : g ∈ groups) (hg' : g' ∈ groups) {o o' : PublicAddonOption} (ho : o ∈ g.options)
    (ho' : o' ∈ g'.options) (hid : o.id = o'.id) : g = g' := by
  rw [List.map_flatMap, List.nodup_flatMap] at h
  by_contra hne
  have hsymm : Std.Symm (Function.onFun List.Disjoint fun g : PublicAddonGroup =>
      g.options.map (·.id)) := ⟨fun _ _ hd => hd.symm⟩
  have hdisjoint := h.2.forall hg hg' hne
  exact hdisjoint (List.mem_map_of_mem ho) (hid ▸ List.mem_map_of_mem ho')

theorem mem_activeGroupSelections {item : PublicAddonOption} :
    item ∈ activeGroupSelections group addons ↔
      item ∈ addons ∧ ∃ opt ∈ group.options, opt.id = item.id := by
  simp [activeGroupSelections]

/-- Fewer selections leave fewer in a group. -/
theorem length_activeGroupSelections_le {others : List PublicAddonOption}
    (h : others.Sublist addons) (g : PublicAddonGroup) :
    (activeGroupSelections g others).length ≤ (activeGroupSelections g addons).length :=
  (h.filter _).length_le

/-- A selection counts in the groups that have it. -/
theorem activeGroupSelections_append (g : PublicAddonGroup) :
    activeGroupSelections g (addons ++ [addon]) = activeGroupSelections g addons ++
      if g.options.any (fun opt => opt.id == addon.id) then [addon] else [] := by
  unfold activeGroupSelections
  rw [List.filter_append, List.filter_singleton, Bool.cond_eq_ite]

/-- A selection that is added within the limit of its group. -/
theorem limits_append {product : PublicProduct}
    (hoptions : ((product.addons.flatMap (·.options)).map (·.id)).Nodup)
    (hgroup : group ∈ product.addons) (haddon : addon ∈ group.options)
    {others : List PublicAddonOption}
    (hlimits : ∀ g ∈ product.addons,
      ((activeGroupSelections g others).length : ℤ) ≤ max 0 g.maxSelections)
    (hroom : ((activeGroupSelections group others).length : ℤ) < group.maxSelections) :
    ∀ g ∈ product.addons,
      ((activeGroupSelections g (others ++ [addon])).length : ℤ) ≤ max 0 g.maxSelections := by
  intro g hg
  rw [activeGroupSelections_append]
  by_cases hin : g.options.any (fun opt => opt.id == addon.id) = true
  · rcases List.any_eq_true.mp hin with ⟨opt, hopt, hid⟩
    have hsame : g = group :=
      group_eq_of_option hoptions hg hgroup hopt haddon (beq_iff_eq.mp hid)
    rw [if_pos hin, hsame, List.length_append, List.length_singleton]
    omega
  · rw [if_neg hin, List.append_nil]
    exact hlimits g hg

variable {product : PublicProduct} {size : Option PublicProductSize}
  {variant : Option PublicProductVariant}

/-- A selection that is added to others of a configuration. -/
theorem Configured.select (h : Configured product size variant addons)
    (hoptions : ((product.addons.flatMap (·.options)).map (·.id)).Nodup)
    (hgroup : group ∈ product.addons) (haddon : addon ∈ group.options)
    (hnew : ∀ item ∈ addons, item.id ≠ addon.id) {others : List PublicAddonOption}
    (hothers : others.Sublist addons)
    (hroom : ((activeGroupSelections group others).length : ℤ) < group.maxSelections) :
    Configured product size variant (others ++ [addon]) where
  size_mem := h.size_mem
  variant_mem := h.variant_mem
  exclusive := h.exclusive
  addons_mem a ha := by
    rcases List.mem_append.mp ha with hold | hlast
    · exact h.addons_mem a (hothers.subset hold)
    · rw [List.mem_singleton.mp hlast]
      exact ⟨group, hgroup, haddon⟩
  distinct := by
    rw [List.map_append, List.map_singleton]
    refine (h.distinct.sublist (hothers.map _)).append (List.nodup_singleton _) ?_
    simp only [List.disjoint_singleton, List.mem_map, not_exists, not_and]
    exact fun item hitem => hnew item (hothers.subset hitem)
  limits := by
    refine limits_append hoptions hgroup haddon (fun g hg => ?_) hroom
    have hle := length_activeGroupSelections_le hothers g
    have hlimit := h.limits g hg
    omega

/-- Fewer addons. -/
theorem Configured.sublist (h : Configured product size variant addons)
    {others : List PublicAddonOption} (hothers : others.Sublist addons) :
    Configured product size variant others where
  size_mem := h.size_mem
  variant_mem := h.variant_mem
  exclusive := h.exclusive
  addons_mem a ha := h.addons_mem a (hothers.subset ha)
  distinct := h.distinct.sublist (hothers.map _)
  limits g hg := by
    have hle := length_activeGroupSelections_le hothers g
    have hlimit := h.limits g hg
    omega

/-- A tap on an addon keeps the addons distinct and within the limits of their groups. -/
theorem Configured.addonClick (h : Configured product size variant addons)
    (hoptions : ((product.addons.flatMap (·.options)).map (·.id)).Nodup)
    (hgroup : group ∈ product.addons) (haddon : addon ∈ group.options) :
    Configured product size variant (handleAddonClick addons addon group) := by
  unfold handleAddonClick
  by_cases hactive : (addons.any fun item => item.id == addon.id) = true
  · rw [if_pos hactive]
    exact h.sublist List.filter_sublist
  · have hnew : ∀ item ∈ addons, item.id ≠ addon.id := by simpa using hactive
    rw [if_neg hactive]
    by_cases hroom : ((activeGroupSelections group addons).length : ℤ) < group.maxSelections
    · rw [if_pos hroom]
      exact h.select hoptions hgroup haddon hnew (List.Sublist.refl _) hroom
    · rw [if_neg hroom]
      by_cases hsingle : group.maxSelections = 1 ∧ (activeGroupSelections group addons).length = 1
      · rw [if_pos hsingle]
        refine h.select hoptions hgroup haddon hnew List.filter_sublist ?_
        have hnone : activeGroupSelections group
            (addons.filter fun item => !(group.options.map (·.id)).contains item.id) = [] := by
          refine List.eq_nil_iff_forall_not_mem.mpr fun item hitem => ?_
          rcases mem_activeGroupSelections.mp hitem with ⟨hkept, opt, hopt, hid⟩
          have hout := (List.mem_filter.mp hkept).2
          simp only [Bool.not_eq_true', List.contains_eq_mem, decide_eq_false_iff_not,
            List.mem_map, not_exists, not_and] at hout
          exact hout opt hopt hid
        rw [hnone, hsingle.1]
        simp
      · rw [if_neg hsingle]
        exact h

end Selections

/-! ## What the page holds -/

/-- The drawer holds a configuration of a product of the menu, and the cart lines of
configurations. -/
structure PageOk (menu : PublicMenuResponse) (page : Page) : Prop where
  drawer : ∀ product ∈ page.activeCartProduct, Shown menu product ∧
    Configured product page.selectedSize page.selectedVariant page.selectedAddons
  closed : page.activeCartProduct = none →
    page.selectedSize = none ∧ page.selectedVariant = none ∧ page.selectedAddons = []
  quantity : 1 ≤ page.quantity
  lines : ∀ item ∈ page.cart, 1 ≤ item.quantity ∧
    ∃ c : Configuration menu, item = c.line item.quantity

section Pages

variable {menu : PublicMenuResponse} {token : String} {page : Page}

theorem configured_none (product : PublicProduct) : Configured product none none [] where
  size_mem := by simp
  variant_mem := by simp
  exclusive := Or.inl rfl
  addons_mem := by simp
  distinct := List.nodup_nil
  limits group _ := by simp [activeGroupSelections]

theorem pageOk_empty : PageOk menu {} where
  drawer := by simp
  closed _ := ⟨rfl, rfl, rfl⟩
  quantity := le_refl _
  lines := by simp

/-- The drawer is closed, and the cart is another one. -/
theorem PageOk.reset {cart : List CartItem} (hcart : ∀ item ∈ cart, 1 ≤ item.quantity ∧
    ∃ c : Configuration menu, item = c.line item.quantity) :
    PageOk menu (resetCartModal { page with cart := cart }) where
  drawer := by simp [resetCartModal]
  closed _ := ⟨rfl, rfl, rfl⟩
  quantity := le_refl _
  lines := hcart

/-- Only the cart changes. -/
theorem PageOk.withCart (h : PageOk menu page) {cart : List CartItem}
    (hcart : ∀ item ∈ cart, 1 ≤ item.quantity ∧
      ∃ c : Configuration menu, item = c.line item.quantity) :
    PageOk menu { page with cart := cart } :=
  ⟨h.drawer, h.closed, h.quantity, hcart⟩

/-- Lines that are added. -/
theorem lines_addLine {cart : List CartItem}
    (h : ∀ item ∈ cart, 1 ≤ item.quantity ∧ ∃ c : Configuration menu, item = c.line item.quantity)
    (c : Configuration menu) {quantity : ℤ} (hquantity : 1 ≤ quantity) :
    ∀ item ∈ addLine cart (c.line quantity), 1 ≤ item.quantity ∧
      ∃ c : Configuration menu, item = c.line item.quantity := by
  intro item hitem
  unfold addLine at hitem
  split at hitem
  · rcases mem_rewriteWhere.mp hitem with ⟨old, hold, rfl⟩
    rcases h old hold with ⟨hpos, d, hline⟩
    split
    · refine ⟨?_, d, ?_⟩
      · show 1 ≤ old.quantity + quantity
        omega
      · conv_lhs => rw [hline]
        rfl
    · exact ⟨hpos, d, hline⟩
  · rcases List.mem_append.mp hitem with hold | hlast
    · exact h item hold
    · rw [List.mem_singleton.mp hlast]
      exact ⟨hquantity, c, rfl⟩

/-- Lines whose quantity is changed. -/
theorem lines_changeLineQuantity {cart : List CartItem}
    (h : ∀ item ∈ cart, 1 ≤ item.quantity ∧ ∃ c : Configuration menu, item = c.line item.quantity)
    (key : String) (delta : ℤ) :
    ∀ item ∈ changeLineQuantity key delta cart, 1 ≤ item.quantity ∧
      ∃ c : Configuration menu, item = c.line item.quantity := by
  intro item hitem
  rcases List.mem_filter.mp hitem with ⟨hmem, hpos⟩
  refine ⟨of_decide_eq_true hpos, ?_⟩
  rcases mem_rewriteWhere.mp hmem with ⟨old, hold, rfl⟩
  rcases h old hold with ⟨_, d, hline⟩
  split
  · refine ⟨d, ?_⟩
    conv_lhs => rw [hline]
    rfl
  · exact ⟨d, hline⟩

/-- What the page offers keeps what it holds. -/
theorem PageOk.step (h : PageOk menu page) (hmenu : WellNamed menu) {a : Action}
    (ha : Offered menu a page) : PageOk menu ((browser menu token).step a page).2 := by
  cases a with
  | openProduct product =>
      rcases h.closed ha.2.1 with ⟨hsize, hvariant, haddons⟩
      refine ⟨fun p hp => ?_, fun hnone => ?_, h.quantity, h.lines⟩
      · cases hp
        simp only [browser, hsize, hvariant, haddons]
        exact ⟨ha.2.2.2, configured_none product⟩
      · cases hnone
  | closeModal => exact PageOk.reset h.lines
  | selectSize size =>
      rcases ha with ⟨_, product, hproduct, hsize⟩
      rcases h.drawer product hproduct with ⟨hshown, hconfigured⟩
      refine ⟨fun p hp => ?_, fun hnone => ?_, h.quantity, h.lines⟩
      · cases hproduct.symm.trans hp
        exact ⟨hshown, by simpa [browser] using hsize, by simp [browser], Or.inr rfl,
          hconfigured.addons_mem, hconfigured.distinct, hconfigured.limits⟩
      · cases hproduct.symm.trans hnone
  | selectVariant variant =>
      rcases ha with ⟨_, product, hproduct, hvariant⟩
      rcases h.drawer product hproduct with ⟨hshown, hconfigured⟩
      refine ⟨fun p hp => ?_, fun hnone => ?_, h.quantity, h.lines⟩
      · cases hproduct.symm.trans hp
        exact ⟨hshown, by simp [browser], by simpa [browser] using hvariant, Or.inl rfl,
          hconfigured.addons_mem, hconfigured.distinct, hconfigured.limits⟩
      · cases hproduct.symm.trans hnone
  | addonClick addon group =>
      rcases ha with ⟨_, product, hproduct, hgroup, haddon⟩
      rcases h.drawer product hproduct with ⟨hshown, hconfigured⟩
      refine ⟨fun p hp => ?_, fun hnone => ?_, h.quantity, h.lines⟩
      · cases hproduct.symm.trans hp
        exact ⟨hshown, hconfigured.addonClick (hmenu.options _ hshown) hgroup haddon⟩
      · cases hproduct.symm.trans hnone
  | decrease => exact ⟨h.drawer, h.closed, le_max_left _ _, h.lines⟩
  | increase =>
      refine ⟨h.drawer, h.closed, ?_, h.lines⟩
      have hquantity := h.quantity
      simp only [browser]
      omega
  | addToCart =>
      simp only [browser, QrMenu.addToCart]
      cases hproduct : page.activeCartProduct with
      | none => exact h
      | some product =>
          rcases h.drawer product hproduct with ⟨hshown, hconfigured⟩
          exact PageOk.reset (lines_addLine h.lines ⟨product, _, _, _, hshown, hconfigured⟩
            h.quantity)
  | openCart | closeCart | changeNotes notes | startNewOrder =>
      exact ⟨h.drawer, h.closed, h.quantity, h.lines⟩
  | changeLineQuantity key delta =>
      exact h.withCart (lines_changeLineQuantity h.lines key delta)
  | removeLine key =>
      exact h.withCart fun item hitem => h.lines item (List.mem_of_mem_filter hitem)
  | placeOrder =>
      simp only [browser, QrMenu.placeOrder]
      split
      · exact h
      · exact ⟨h.drawer, h.closed, h.quantity, h.lines⟩
  | answered result =>
      cases result with
      | ok result => exact ⟨h.drawer, h.closed, h.quantity, by simp [browser, QrMenu.answered]⟩
      | error message => exact ⟨h.drawer, h.closed, h.quantity, h.lines⟩

/-- After every run of what the page offers, the drawer and the cart hold configurations of
products of the menu. -/
theorem page_ok (hmenu : WellNamed menu) {as : List Action}
    (hrun : (browser menu token).EachStep (Offered menu) as {}) :
    PageOk menu ((browser menu token).exec as {}) :=
  Machine.exec_of_eachStep (I := PageOk menu) _ (fun _ _ _ h ha => h.step hmenu ha) pageOk_empty
    hrun

end Pages

/-! ## A guest orders soup -/

def pita : PublicAddonOption where
  id := "00000000-0000-4000-8000-0000000000a1"
  name := "Pita"
  price := 11 / 10
  isAvailable := true

def rye : PublicAddonOption where
  id := "00000000-0000-4000-8000-0000000000a2"
  name := "Rye"
  price := 22 / 10
  isAvailable := true

def bread : PublicAddonGroup where
  id := "00000000-0000-4000-8000-0000000000b1"
  name := "Bread"
  minSelections := 0
  maxSelections := 1
  options := [pita, rye]

def largeBowl : PublicProductSize where
  id := "00000000-0000-4000-8000-0000000000c1"
  name := "Large"
  priceAdjustment := 31 / 10

def lentilSoup : PublicProduct where
  id := "00000000-0000-4000-8000-0000000000d1"
  name := "Lentil soup"
  description := none
  imageUrl := none
  basePrice := 69 / 10
  calories := none
  preparationTime := 15
  isAvailable := true
  sizes := [largeBowl]
  variants := []
  addons := [bread]

def lentilMenu : PublicMenuResponse where
  table := { number := "4" }
  branch := { id := "00000000-0000-4000-8000-0000000000e1", name := "Harbour" }
  restaurant := { name := "Soups", currency := "SAR" }
  tenant :=
    { name := "Soups", logoUrl := none, bannerUrl := none, primaryColor := "#4f46e5"
      secondaryColor := "#f59e0b" }
  categories := [{
    id := "00000000-0000-4000-8000-0000000000f1", name := "Soups", products := [lentilSoup] }]

/-- Two large soups: the guest takes pita first, and then rye instead. -/
def soupRun : List Action :=
  [.openProduct lentilSoup, .selectSize largeBowl, .addonClick pita bread, .addonClick rye bread,
    .increase]

theorem shown_lentilSoup : Shown lentilMenu lentilSoup :=
  ⟨_, List.mem_singleton_self _, List.mem_singleton_self _, rfl⟩

theorem eq_lentilSoup {p : PublicProduct} (h : Shown lentilMenu p) : p = lentilSoup := by
  rcases h with ⟨category, hcategory, hp, _⟩
  rw [List.mem_singleton.mp hcategory] at hp
  exact List.mem_singleton.mp hp

theorem plain_of_decide {id : Id}
    (h : id ≠ "" ∧ id ≠ "-" ∧ '|' ∉ id.toList ∧ '+' ∉ id.toList) : Plain id :=
  ⟨h.1, h.2.1, h.2.2.1, h.2.2.2⟩

theorem lentilMenu_wellNamed : WellNamed lentilMenu where
  plain p hp := by
    rw [eq_lentilSoup hp]
    refine ⟨plain_of_decide (by decide +kernel), fun s hs => ?_, fun v hv => (by cases hv),
      fun group hgroup o ho => ?_⟩
    · rw [List.mem_singleton.mp hs]
      exact plain_of_decide (by decide +kernel)
    · rw [List.mem_singleton.mp hgroup] at ho
      simp only [bread, List.mem_cons, List.not_mem_nil, or_false] at ho
      rcases ho with rfl | rfl <;> exact plain_of_decide (by decide +kernel)
  products p q hp hq _ := by rw [eq_lentilSoup hp, eq_lentilSoup hq]
  sizes p hp := by
    rw [eq_lentilSoup hp]
    decide +kernel
  variants p hp := by
    rw [eq_lentilSoup hp]
    exact List.nodup_nil
  options p hp := by
    rw [eq_lentilSoup hp]
    decide +kernel

/-- The guest can do that. -/
theorem soupRun_offered (token : String) :
    (browser lentilMenu token).EachStep (Offered lentilMenu) soupRun {} := by
  have hbread : bread ∈ lentilSoup.addons := List.mem_singleton_self _
  refine ⟨⟨rfl, rfl, rfl, shown_lentilSoup⟩, ⟨rfl, lentilSoup, rfl, List.mem_singleton_self _⟩,
    ⟨rfl, lentilSoup, rfl, hbread, ?_⟩, ⟨rfl, lentilSoup, rfl, hbread, ?_⟩, ⟨rfl, rfl⟩, trivial⟩
  · exact List.mem_cons_self
  · exact List.mem_cons_of_mem _ (List.mem_singleton_self _)

/-- The guest adds the soups and opens the cart. -/
def checkoutRun : List Action :=
  soupRun ++ [.addToCart, .openCart]

theorem checkoutRun_offered (token : String) :
    (browser lentilMenu token).EachStep (Offered lentilMenu) checkoutRun {} :=
  (Machine.eachStep_append _ _ _ _).mpr ⟨soupRun_offered token,
    ⟨⟨rfl, rfl⟩, ⟨rfl, Nat.zero_lt_one, rfl, rfl⟩, trivial⟩⟩

theorem checkoutRun_ok : PageOk lentilMenu ((browser lentilMenu "qr-4").exec checkoutRun {}) :=
  page_ok lentilMenu_wellNamed (checkoutRun_offered "qr-4")

example : ((browser lentilMenu "qr-4").exec soupRun {}).selectedAddons = [rye] := by decide +kernel

end QrMenu
end Eleva
