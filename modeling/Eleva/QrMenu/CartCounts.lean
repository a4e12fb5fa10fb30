import Eleva.Foundation.KeyedLines
import Eleva.QrMenu.MenuBrowser

/-!
# QR menu - What the cart counts

The cart merges lines by a string.  Whatever the guest does, it counts selections: of a product,
a size, a variant and a multiset of addons there is at most one line, whose quantity is what the
additions and the changes of that selection come to, and every addition costs what its button
says.

Main results:

- Theorem {lit}`Configuration.key_eq_iff`: lines have one key exactly when they are of one
  selection.
- Theorem {lit}`cart_counts`: the cart refines the count of every selection.
- Theorem {lit}`additions_cost`: every addition raises the subtotal by what its button says.
-/

namespace Eleva
namespace QrMenu

open Foundation Database PublicMenuService

/-! ## The count of every selection -/

/-- What a line stands for: the ids of the product, the size, the variant and the addons, in any
order. -/
structure Selection where
  productId : Id
  sizeId : Option Id
  variantId : Option Id
  addonIds : Multiset Id
deriving DecidableEq

def CartItem.selection (item : CartItem) : Selection where
  productId := item.productId
  sizeId := item.sizeId
  variantId := item.variantId
  addonIds := item.addons.map (·.id)

/-- What an action does to the count of the selections. -/
inductive Effect where
  | keep
  | add (selection : Selection) (quantity : ℤ)
  | change (selection : Selection) (delta : ℤ)
  | remove (selection : Selection)
  | clear
deriving DecidableEq

/-- The counts after an effect. -/
def Effect.apply : Effect → (Selection → ℤ) → Selection → ℤ
  | .keep, t => t
  | .add selection quantity, t => Function.update t selection (t selection + quantity)
  | .change selection delta, t =>
      Function.update t selection (if t selection = 0 then 0 else max 0 (t selection + delta))
  | .remove selection, t => Function.update t selection 0
  | .clear, _ => fun _ => 0

/-- The effect of an action on a page. -/
def effect : Action → Page → Effect
  | .addToCart, page =>
      match page.activeCartProduct with
      | none => .keep
      | some product =>
          .add (cartLine product page.selectedSize page.selectedVariant page.selectedAddons
            page.quantity).selection page.quantity
  | .changeLineQuantity key delta, page =>
      match page.cart.find? fun item => item.key == key with
      | none => .keep
      | some item => .change item.selection delta
  | .removeLine key, page =>
      match page.cart.find? fun item => item.key == key with
      | none => .keep
      | some item => .remove item.selection
  | .answered (.ok _), _ => .clear
  | _, _ => .keep

/-- The effects of a run. -/
def effects (menu : PublicMenuResponse) (token : String) : List Action → Page → List Effect
  | [], _ => []
  | a :: as, page => effect a page :: effects menu token as ((browser menu token).step a page).2

/-- The counts after effects. -/
def counted (es : List Effect) : Selection → ℤ :=
  es.foldl (fun t e => e.apply t) fun _ => 0

section Keys

variable {menu : PublicMenuResponse} (hmenu : WellNamed menu)
include hmenu

/-- The ids of a configuration are plain. -/
theorem Configuration.plain (c : Configuration menu) : Plain c.product.id ∧
    (∀ id ∈ c.size.map (·.id), Plain id) ∧ (∀ id ∈ c.variant.map (·.id), Plain id) ∧
      ∀ id ∈ c.addons.map (·.id), Plain id := by
  rcases hmenu.plain c.product c.shown with ⟨hproduct, hsizes, hvariants, hoptions⟩
  refine ⟨hproduct, fun id hid => ?_, fun id hid => ?_, fun id hid => ?_⟩
  · rcases Option.map_eq_some_iff.mp hid with ⟨s, hs, rfl⟩
    exact hsizes s (c.configured.size_mem s hs)
  · rcases Option.map_eq_some_iff.mp hid with ⟨v, hv, rfl⟩
    exact hvariants v (c.configured.variant_mem v hv).1
  · rcases List.mem_map.mp hid with ⟨a, ha, rfl⟩
    rcases c.configured.addons_mem a ha with ⟨group, hgroup, hoption⟩
    exact hoptions group hgroup a hoption

/-- Lines of configurations have the same key exactly when they are of the same selection. -/
theorem Configuration.key_eq_iff (c d : Configuration menu) (m n : ℤ) :
    (c.line m).key = (d.line n).key ↔ (c.line m).selection = (d.line n).selection := by
  rcases c.plain hmenu with ⟨hp, hs, hv, has⟩
  rcases d.plain hmenu with ⟨hp', hs', hv', has'⟩
  have hids : ∀ addons : List PublicAddonOption,
      (addons.map toCartItemAddon).map (·.id) = addons.map (·.id) := fun addons => by
    simp [toCartItemAddon]
  simp only [Configuration.line, cartLine, CartItem.selection, Selection.mk.injEq, hids,
    Multiset.coe_eq_coe]
  exact cartItemKey_eq_iff hp hp' hs hs' hv hv' has has'

omit hmenu in
/-- A choice among rows with different ids is known by its id. -/
theorem eq_of_map_id {α : Type} {id : α → Id} {xs : List α} (hids : (xs.map id).Nodup)
    {a b : Option α} (ha : ∀ x ∈ a, x ∈ xs) (hb : ∀ x ∈ b, x ∈ xs) (h : a.map id = b.map id) :
    a = b := by
  cases a with
  | none => exact (Option.map_eq_none_iff.mp h.symm).symm
  | some x =>
      rcases Option.map_eq_some_iff.mp h.symm with ⟨y, hy, hid⟩
      rw [hy, List.inj_on_of_nodup_map hids (ha x rfl) (hb y hy) hid.symm]

/-- Configurations of one selection have one price. -/
theorem Configuration.unitPrice_eq (c d : Configuration menu) {m n : ℤ}
    (h : (c.line m).selection = (d.line n).selection) :
    (c.line m).unitPrice = (d.line n).unitPrice := by
  rcases c with ⟨product, size, variant, addons, hshown, hconfigured⟩
  rcases d with ⟨product', size', variant', addons', hshown', hconfigured'⟩
  simp only [Configuration.line, cartLine, CartItem.selection, Selection.mk.injEq,
    Multiset.coe_eq_coe] at h
  rcases h with ⟨hproduct, hsize, hvariant, haddons⟩
  have hsame := hmenu.products _ _ hshown hshown' hproduct
  subst hsame
  have hsize' := eq_of_map_id (hmenu.sizes _ hshown) hconfigured.size_mem
    hconfigured'.size_mem hsize
  have hvariant' := eq_of_map_id (hmenu.variants _ hshown)
    (fun v hv => (hconfigured.variant_mem v hv).1)
    (fun v hv => (hconfigured'.variant_mem v hv).1) hvariant
  subst hsize' hvariant'
  -- the price of an addon is a function of its id
  let options := product.addons.flatMap (·.options)
  let priceOf : Id → ℚ := fun id =>
    ((options.find? fun o => o.id == id).map (·.price)).getD 0
  have hprice : ∀ o ∈ options, priceOf o.id = o.price := by
    intro o ho
    have hfound : options.find? (fun x => x.id == o.id) = some o := by
      rw [find?_iff_of_unique fun x hx y hy hpx hpy => List.inj_on_of_nodup_map
        (hmenu.options _ hshown) hx hy ((beq_iff_eq.mp hpx).trans (beq_iff_eq.mp hpy).symm)]
      exact ⟨ho, beq_self_eq_true _⟩
    simp only [priceOf, hfound, Option.map_some, Option.getD_some]
  have hprices : ∀ {variant size} {xs : List PublicAddonOption},
      Configured product size variant xs →
      xs.map (·.price) = ((xs.map toCartItemAddon).map (·.id)).map priceOf := by
    intro _ _ xs hxs
    rw [List.map_map, List.map_map]
    refine List.map_congr_left fun a ha => ?_
    rcases hxs.addons_mem a ha with ⟨group, hgroup, hoption⟩
    exact (hprice a (List.mem_flatMap.mpr ⟨group, hgroup, hoption⟩)).symm
  have hsum : (addons.map (·.price)).sum = (addons'.map (·.price)).sum := by
    rw [hprices hconfigured, hprices hconfigured']
    exact (haddons.map priceOf).sum_eq
  simp only [Configuration.line, cartLine, computeUnitPrice, foldl_add_eq_sum, hsum]

end Keys

section Counting

variable {menu : PublicMenuResponse} {token : String} {page : Page} {t : Selection → ℤ}
  (hmenu : WellNamed menu) (h : PageOk menu page)
  (hcounts : Counts CartItem.selection CartItem.quantity page.cart t)
include hmenu h

/-- The lines of the cart with the key of a configuration are those of its selection. -/
theorem PageOk.beq_key (c : Configuration menu) (n : ℤ) : ∀ item ∈ page.cart,
    (item.key == (c.line n).key) = (item.selection == (c.line n).selection) := by
  intro item hitem
  rcases (h.lines item hitem).2 with ⟨d, hd⟩
  rw [hd, Bool.eq_iff_iff, beq_iff_eq, beq_iff_eq]
  exact d.key_eq_iff hmenu c _ _

/-- The lines of the cart with the key of a line are those of its selection. -/
theorem PageOk.beq_key_of_mem {line : CartItem} (hline : line ∈ page.cart) :
    ∀ item ∈ page.cart, (item.key == line.key) = (item.selection == line.selection) := by
  rcases (h.lines line hline).2 with ⟨c, hc⟩
  rw [hc]
  exact h.beq_key hmenu c _

include hcounts

/-- An addition counts under its selection. -/
theorem PageOk.counts_addLine (c : Configuration menu) {quantity : ℤ} (hquantity : 1 ≤ quantity) :
    Counts CartItem.selection CartItem.quantity (addLine page.cart (c.line quantity))
      (Function.update t (c.line quantity).selection
        (t (c.line quantity).selection + quantity)) := by
  have hbeq := h.beq_key hmenu c quantity
  unfold addLine
  by_cases hexisting : (page.cart.find? fun item => item.key == (c.line quantity).key).isSome = true
  · rw [if_pos hexisting, rewriteWhere_congr hbeq]
    rw [List.find?_isSome] at hexisting
    rcases hexisting with ⟨item, hitem, hkey⟩
    rw [hbeq item hitem] at hkey
    exact hcounts.merge (fun _ => rfl) (fun _ => rfl) (by omega)
      (List.mem_map.mpr ⟨item, hitem, beq_iff_eq.mp hkey⟩)
  · rw [if_neg hexisting]
    refine hcounts.append (fun hmem => hexisting ?_) (by exact hquantity)
    rcases List.mem_map.mp hmem with ⟨item, hitem, hselection⟩
    rw [List.find?_isSome]
    exact ⟨item, hitem, (hbeq item hitem).trans (beq_iff_eq.mpr hselection)⟩

/-- The cart counts what the effect of an action says. -/
theorem PageOk.counts_step (a : Action) :
    Counts CartItem.selection CartItem.quantity ((browser menu token).step a page).2.cart
      ((effect a page).apply t) := by
  cases a with
  | addToCart =>
      simp only [browser, QrMenu.addToCart, effect]
      cases hproduct : page.activeCartProduct with
      | none => exact hcounts
      | some product =>
          rcases h.drawer product hproduct with ⟨hshown, hconfigured⟩
          exact h.counts_addLine hmenu hcounts ⟨product, _, _, _, hshown, hconfigured⟩ h.quantity
  | changeLineQuantity key delta =>
      simp only [browser, effect, QrMenu.changeLineQuantity]
      cases hfind : page.cart.find? fun item => item.key == key with
      | none =>
          have hnone := List.find?_eq_none.mp hfind
          rw [rewriteWhere_of_none fun item hitem => by simpa using hnone item hitem,
            List.filter_eq_self.mpr fun item hitem => decide_eq_true (hcounts.positive item hitem)]
          exact hcounts
      | some line =>
          have hline := List.mem_of_find?_eq_some hfind
          have hkey : line.key = key := by simpa using List.find?_some hfind
          rw [← hkey, rewriteWhere_congr (h.beq_key_of_mem hmenu hline)]
          exact hcounts.change (fun _ => rfl) fun _ => rfl
  | removeLine key =>
      simp only [browser, effect, QrMenu.removeLine]
      cases hfind : page.cart.find? fun item => item.key == key with
      | none =>
          have hnone := List.find?_eq_none.mp hfind
          rw [List.filter_eq_self.mpr fun item hitem => by simpa using hnone item hitem]
          exact hcounts
      | some line =>
          have hline := List.mem_of_find?_eq_some hfind
          have hkey : line.key = key := by simpa using List.find?_some hfind
          have hsame : (page.cart.filter fun item => item.key != key) =
              page.cart.filter fun item => item.selection != line.selection := by
            refine List.filter_congr fun item hitem => ?_
            rw [← hkey]
            exact congrArg not (h.beq_key_of_mem hmenu hline item hitem)
          rw [hsame]
          exact hcounts.remove
  | answered result =>
      cases result with
      | ok result => exact Counts.empty
      | error message => exact hcounts
  | placeOrder =>
      simp only [browser, QrMenu.placeOrder]
      split <;> exact hcounts
  | openProduct _ | closeModal | selectSize _ | selectVariant _ | addonClick _ _ | decrease
  | increase | openCart | closeCart | changeNotes _ | startNewOrder => exact hcounts

end Counting

section Runs

variable {menu : PublicMenuResponse} {token : String} (hmenu : WellNamed menu)
include hmenu

/-- After every run of what the page offers, the cart has at most one line of every selection, and
its quantity is what the additions and changes of that selection come to. -/
theorem cart_counts {as : List Action}
    (hrun : (browser menu token).EachStep (Offered menu) as {}) :
    Counts CartItem.selection CartItem.quantity ((browser menu token).exec as {}).cart
      (counted (effects menu token as {})) := by
  have hgeneral : ∀ (as : List Action) (page : Page) (t : Selection → ℤ), PageOk menu page →
      Counts CartItem.selection CartItem.quantity page.cart t →
      (browser menu token).EachStep (Offered menu) as page →
      Counts CartItem.selection CartItem.quantity ((browser menu token).exec as page).cart
        ((effects menu token as page).foldl (fun t e => e.apply t) t) := by
    intro as
    induction as with
    | nil => exact fun page t _ hcounts _ => hcounts
    | cons a as ih =>
        intro page t hpage hcounts hall
        exact ih _ _ (hpage.step hmenu hall.1) (hpage.counts_step hmenu hcounts a) hall.2
  exact hgeneral as {} _ pageOk_empty Counts.empty hrun

/-- What the cart costs and counts after an addition. -/
structure Adds (page page' : Page) : Prop where
  subtotal : computeCartSubtotal page'.cart =
    computeCartSubtotal page.cart + calculatedUnitPrice page * page.quantity
  itemCount : computeCartItemCount page'.cart = computeCartItemCount page.cart + page.quantity

/-- A line that is added, merged or not. -/
theorem PageOk.sum_addLine {page : Page} (h : PageOk menu page) {t : Selection → ℤ}
    (hcounts : Counts CartItem.selection CartItem.quantity page.cart t) (c : Configuration menu)
    (quantity : ℤ) {M : Type} [AddCommGroup M] {g : CartItem → M}
    (hg : ∀ item ∈ page.cart, item.selection = (c.line quantity).selection →
      g { item with quantity := item.quantity + quantity } = g item + g (c.line quantity)) :
    ((addLine page.cart (c.line quantity)).map g).sum =
      (page.cart.map g).sum + g (c.line quantity) := by
  have hbeq := h.beq_key hmenu c quantity
  unfold addLine
  by_cases hexisting : (page.cart.find? fun item => item.key == (c.line quantity).key).isSome = true
  · rw [if_pos hexisting, rewriteWhere_congr hbeq]
    rw [List.find?_isSome] at hexisting
    rcases hexisting with ⟨item, hitem, hkey⟩
    rw [hbeq item hitem] at hkey
    have hsame := beq_iff_eq.mp hkey
    have hsum := sum_rewriteWhere
      (f := fun item => { item with quantity := item.quantity + quantity }) (g := g)
      hcounts.nodup hitem
    rw [hg item hitem hsame, hsame, ← add_assoc] at hsum
    exact add_right_cancel (hsum.trans (add_right_comm _ _ _))
  · rw [if_neg hexisting]
    simp

/-- After every run of what the page offers, an addition raises the subtotal of the cart by what
its button says, and the number of items by its quantity. -/
theorem additions_cost {as : List Action}
    (hrun : (browser menu token).EachStep (Offered menu) as {})
    (hadd : Offered menu .addToCart ((browser menu token).exec as {})) :
    Adds ((browser menu token).exec as {}) ((browser menu token).exec (as ++ [.addToCart]) {}) := by
  have hpage := page_ok hmenu hrun
  have hcounts := cart_counts hmenu hrun
  rw [Machine.exec_append]
  generalize (browser menu token).exec as {} = page at hadd hpage hcounts
  rcases Option.isSome_iff_exists.mp hadd.2 with ⟨product, hproduct⟩
  rcases hpage.drawer product hproduct with ⟨hshown, hconfigured⟩
  let c : Configuration menu := ⟨product, _, _, _, hshown, hconfigured⟩
  have hcart : ((browser menu token).exec [.addToCart] page).cart =
      addLine page.cart (c.line page.quantity) := by
    simp only [Machine.exec_cons, Machine.exec_nil, browser, QrMenu.addToCart, hproduct]
    rfl
  have hprice : (c.line page.quantity).unitPrice = calculatedUnitPrice page := by
    simp only [calculatedUnitPrice, hproduct]
    rfl
  constructor
  · rw [computeCartSubtotal_eq_sum, computeCartSubtotal_eq_sum, hcart,
      hpage.sum_addLine hmenu hcounts c page.quantity, hprice]
    · rfl
    · intro item hitem hselection
      rcases (hpage.lines item hitem).2 with ⟨d, hd⟩
      have hsame : item.unitPrice = (c.line page.quantity).unitPrice := by
        rw [hd] at hselection ⊢
        exact d.unitPrice_eq hmenu c hselection
      have hquantity : (c.line page.quantity).quantity = page.quantity := rfl
      simp only [hsame, hquantity]
      push_cast
      ring
  · rw [computeCartItemCount_eq_sum, computeCartItemCount_eq_sum, hcart,
      hpage.sum_addLine hmenu hcounts c page.quantity]
    · rfl
    · intro item hitem hselection
      rfl

end Runs

/-- The soups of the guest cost what the button says. -/
theorem soup_cost : Adds ((browser lentilMenu "qr-4").exec soupRun {})
    ((browser lentilMenu "qr-4").exec (soupRun ++ [.addToCart]) {}) :=
  additions_cost lentilMenu_wellNamed (soupRun_offered "qr-4") ⟨rfl, rfl⟩

/-- The guest adds the two soups, one more of the same and a plain one, takes one of the three
back and removes the plain one. -/
def secondThoughts : List Action :=
  soupRun ++ ([.addToCart, .openProduct lentilSoup, .selectSize largeBowl, .addonClick rye bread,
    .addToCart, .openProduct lentilSoup, .addToCart, .openCart,
    .changeLineQuantity (cartItemKey lentilSoup.id (some largeBowl.id) none [rye.id]) (-1),
    .removeLine (cartItemKey lentilSoup.id none none [])] : List Action)

/-- The guest can do that. -/
theorem secondThoughts_offered :
    (browser lentilMenu "qr-4").EachStep (Offered lentilMenu) secondThoughts {} := by
  have hbread : bread ∈ lentilSoup.addons := List.mem_singleton_self _
  have hrye : rye ∈ bread.options := List.mem_cons_of_mem _ (List.mem_singleton_self _)
  refine (Machine.eachStep_append _ _ _ _).mpr ⟨soupRun_offered "qr-4", ⟨rfl, rfl⟩,
    ⟨rfl, rfl, rfl, shown_lentilSoup⟩, ⟨rfl, lentilSoup, rfl, List.mem_singleton_self _⟩,
    ⟨rfl, lentilSoup, rfl, hbread, hrye⟩, ⟨rfl, rfl⟩, ⟨rfl, rfl, rfl, shown_lentilSoup⟩,
    ⟨rfl, rfl⟩, ⟨rfl, ?_, rfl, rfl⟩, ⟨rfl, rfl, .inr rfl, ?_⟩, ⟨rfl, rfl, ?_⟩, trivial⟩
  · decide +kernel
  · decide +kernel
  · decide +kernel

/-- The soups of the guest are counted. -/
theorem soup_counts : Counts CartItem.selection CartItem.quantity
    ((browser lentilMenu "qr-4").exec secondThoughts {}).cart
      (counted (effects lentilMenu "qr-4" secondThoughts {})) :=
  cart_counts lentilMenu_wellNamed secondThoughts_offered

/-- Two large soups with rye are left. -/
example : ((browser lentilMenu "qr-4").exec secondThoughts {}).cart.map (·.quantity) = [2] := by
  decide +kernel

end QrMenu
end Eleva
