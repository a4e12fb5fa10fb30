import Eleva.Foundation.Keys
import Eleva.Menu.PublicMenu
import Eleva.Order.Checkout

/-!
# QR menu - Prices, cart lines and the checkout payload

The library of the guest's page: the price of a configured product, the key under which the cart
keeps it, the sums over the cart, and the payload that the page submits.

Main results:

- Definitions {lit}`computeUnitPrice`, {lit}`cartItemKey`, {lit}`computeCartSubtotal` and
  {lit}`buildCheckoutPayload`.
- Theorem {lit}`cartItemKey_eq_iff`: two keys are equal exactly when the product, the size, the
  variant and the addons, in any order, are.
-/

namespace Eleva
namespace QrMenu

open Foundation Database PublicMenuService

/-! ## Cart lines -/

structure CartItemAddon where
  id : Id
  name : String
  price : ℚ
deriving DecidableEq, Repr

structure CartItem where
  key : String
  productId : Id
  name : String
  sizeId : Option Id
  sizeName : Option String
  variantId : Option Id
  variantName : Option String
  addons : List CartItemAddon
  quantity : ℤ
  unitPrice : ℚ
deriving DecidableEq, Repr

/-! ## Pricing -/

/-- The unit price: a size adjusts the base price, a variant overrides both, and every addon
comes on top.  The sums are exact here; the code adds doubles, whose rounding is left out. -/
def computeUnitPrice (product : PublicProduct) (size : Option PublicProductSize)
    (variant : Option PublicProductVariant) (addons : List PublicAddonOption) : ℚ :=
  let base := product.basePrice
  let base := match size with
    | some size => base + size.priceAdjustment
    | none => base
  let base := match variant with
    | some variant => variant.price
    | none => base
  let addonsTotal := addons.foldl (fun sum addon => sum + addon.price) 0
  base + addonsTotal

/-- The identity of a cart line: equal configurations have equal keys. -/
def cartItemKey (productId : Id) (sizeId variantId : Option Id) (addons : List Id) : String :=
  let addonSig := join '+' (sortStrings addons)
  productId ++ "|" ++ sizeId.getD "-" ++ "|" ++ variantId.getD "-" ++ "|" ++ addonSig

/-- The subtotal of the cart, in exact arithmetic: the code adds and multiplies doubles, whose
rounding is left out. -/
def computeCartSubtotal (cart : List CartItem) : ℚ :=
  cart.foldl (fun sum item => sum + item.unitPrice * item.quantity) 0

def computeCartItemCount (cart : List CartItem) : ℤ :=
  cart.foldl (fun sum item => sum + item.quantity) 0

/-! ## The payload -/

structure GuestOrderAddonSelection where
  addonItemId : Id
deriving DecidableEq, Repr

structure GuestOrderItemSelection where
  productId : Id
  sizeId : Option Id := none
  variantId : Option Id := none
  quantity : ℤ
  addons : Option (List GuestOrderAddonSelection) := none
deriving DecidableEq, Repr

structure CreateGuestOrderPayload where
  branchId : Id
  tableId : Option Id := none
  qrCodeToken : String
  type : Database.OrderType
  specialNotes : Option String := none
  items : List GuestOrderItemSelection
  paymentMethod : PaymentMethodType
deriving DecidableEq, Repr

/-- What the page adds to the cart when it checks out. -/
structure CheckoutContext where
  qrCodeToken : String
  branchId : Id
  paymentMethod : PaymentMethodType
  specialNotes : Option String := none
deriving DecidableEq, Repr

/-- The selection of a line: what was not chosen is left out. -/
def toSelection (item : CartItem) : GuestOrderItemSelection where
  productId := item.productId
  quantity := item.quantity
  variantId := OrderService.orNull item.variantId
  sizeId := OrderService.orNull item.sizeId
  addons := if 0 < item.addons.length then some (item.addons.map fun addon => ⟨addon.id⟩) else none

def buildCheckoutPayload (cart : List CartItem) (context : CheckoutContext) :
    CreateGuestOrderPayload where
  branchId := context.branchId
  qrCodeToken := context.qrCodeToken
  type := .DINE_IN
  paymentMethod := context.paymentMethod
  items := cart.map toSelection
  specialNotes := OrderService.orNull (context.specialNotes.map trim)

/-! ## Sums -/

theorem foldl_add_eq_sum {α M : Type} [AddCommMonoid M] (f : α → M) (xs : List α) (m : M) :
    xs.foldl (fun sum x => sum + f x) m = m + (xs.map f).sum := by
  induction xs generalizing m with
  | nil => simp
  | cons x xs ih => rw [List.foldl_cons, ih, List.map_cons, List.sum_cons, add_assoc]

theorem computeCartSubtotal_eq_sum (cart : List CartItem) :
    computeCartSubtotal cart = (cart.map fun item => item.unitPrice * (item.quantity : ℚ)).sum := by
  unfold computeCartSubtotal
  rw [foldl_add_eq_sum, zero_add]

theorem computeCartItemCount_eq_sum (cart : List CartItem) :
    computeCartItemCount cart = (cart.map fun item => item.quantity).sum := by
  unfold computeCartItemCount
  rw [foldl_add_eq_sum, zero_add]

/-! ## Keys -/

/-- An id that the parts of a key can be told by, as every UUID is. -/
structure Plain (id : Id) : Prop where
  ne_empty : id ≠ ""
  ne_dash : id ≠ "-"
  no_bar : '|' ∉ id.toList
  no_plus : '+' ∉ id.toList

theorem cartItemKey_eq_join (productId : Id) (sizeId variantId : Option Id) (addons : List Id) :
    cartItemKey productId sizeId variantId addons =
      join '|' [productId, sizeId.getD "-", variantId.getD "-", join '+' (sortStrings addons)] := by
  apply String.toList_inj.mp
  simp [cartItemKey, List.intercalate]

/-- A character that is neither the separator nor in a part is not in the joined string. -/
theorem not_mem_join {sep c : Char} (hne : c ≠ sep) {parts : List String}
    (hparts : ∀ s ∈ parts, c ∉ s.toList) : c ∉ (join sep parts).toList := by
  rw [toList_join]
  induction parts with
  | nil => simp [List.intercalate]
  | cons s rest ih =>
      have hrest := ih fun t ht => hparts t (List.mem_cons_of_mem s ht)
      have hs := hparts s List.mem_cons_self
      cases rest with
      | nil => simpa [List.intercalate] using hs
      | cons t rest =>
          simp only [List.map_cons, List.intercalate_cons_cons, List.mem_append,
            List.mem_singleton, not_or] at hrest ⊢
          exact ⟨⟨hs, hne⟩, hrest⟩

/-- An absent part is written as a dash, which no id is. -/
theorem getD_dash_inj {a b : Option Id} (ha : ∀ id ∈ a, Plain id) (hb : ∀ id ∈ b, Plain id) :
    a.getD "-" = b.getD "-" ↔ a = b := by
  constructor
  · intro h
    cases a with
    | none =>
        cases b with
        | none => rfl
        | some id => exact absurd h.symm (hb id rfl).ne_dash
    | some id =>
        cases b with
        | none => exact absurd h (ha id rfl).ne_dash
        | some id' => exact congrArg some h
  · intro h
    rw [h]

/-- The addons of a key are told by their ids, in any order. -/
theorem addonSig_inj {xs ys : List Id} (hxs : ∀ id ∈ xs, Plain id) (hys : ∀ id ∈ ys, Plain id) :
    join '+' (sortStrings xs) = join '+' (sortStrings ys) ↔ xs.Perm ys := by
  have hsorted : ∀ zs : List Id, (∀ id ∈ zs, Plain id) → ∀ id ∈ sortStrings zs, Plain id :=
    fun zs hzs id hid => hzs id ((sortStrings_perm zs).mem_iff.mp hid)
  have hempty : ∀ zs : List Id, (∀ id ∈ zs, Plain id) → join '+' zs = "" → zs = [] := by
    intro zs hzs hjoin
    by_contra hne
    have hsame : zs = [""] := join_injective hne (by simp) (fun z hz => (hzs z hz).no_plus)
      (by simp) (hjoin.trans (by simp [join]))
    rw [hsame] at hzs
    exact (hzs "" List.mem_cons_self).ne_empty rfl
  rw [← sortStrings_eq_iff]
  constructor
  · intro h
    by_cases hx : sortStrings xs = []
    · rw [hx, join_nil] at h
      rw [hx, hempty _ (hsorted ys hys) h.symm]
    · by_cases hy : sortStrings ys = []
      · rw [hy, join_nil] at h
        exact absurd (hempty _ (hsorted xs hxs) h) hx
      · exact join_injective hx hy (fun z hz => (hsorted xs hxs z hz).no_plus)
          (fun z hz => (hsorted ys hys z hz).no_plus) h
  · intro h
    rw [h]

/-- Two keys are equal exactly when the product, the size, the variant and the addons are. -/
theorem cartItemKey_eq_iff {p p' : Id} {s s' v v' : Option Id} {as as' : List Id}
    (hp : Plain p) (hp' : Plain p') (hs : ∀ id ∈ s, Plain id) (hs' : ∀ id ∈ s', Plain id)
    (hv : ∀ id ∈ v, Plain id) (hv' : ∀ id ∈ v', Plain id) (has : ∀ id ∈ as, Plain id)
    (has' : ∀ id ∈ as', Plain id) :
    cartItemKey p s v as = cartItemKey p' s' v' as' ↔ p = p' ∧ s = s' ∧ v = v' ∧ as.Perm as' := by
  have hbar : ∀ o : Option Id, (∀ id ∈ o, Plain id) → '|' ∉ (o.getD "-").toList := by
    intro o ho
    cases o with
    | none => decide
    | some id => exact (ho id rfl).no_bar
  have hsig : ∀ ids : List Id, (∀ id ∈ ids, Plain id) →
      '|' ∉ (join '+' (sortStrings ids)).toList := fun ids hids =>
    not_mem_join (by decide) fun id hid => (hids id ((sortStrings_perm ids).mem_iff.mp hid)).no_bar
  have hparts : ∀ (p : Id) (s v : Option Id) (ids : List Id), Plain p → (∀ id ∈ s, Plain id) →
      (∀ id ∈ v, Plain id) → (∀ id ∈ ids, Plain id) →
      ∀ part ∈ [p, s.getD "-", v.getD "-", join '+' (sortStrings ids)], '|' ∉ part.toList := by
    intro p s v ids hp hs hv hids part hpart
    simp only [List.mem_cons, List.not_mem_nil, or_false] at hpart
    rcases hpart with rfl | rfl | rfl | rfl
    · exact hp.no_bar
    · exact hbar s hs
    · exact hbar v hv
    · exact hsig ids hids
  rw [cartItemKey_eq_join, cartItemKey_eq_join, ← getD_dash_inj hs hs', ← getD_dash_inj hv hv',
    ← addonSig_inj has has']
  constructor
  · intro h
    have hlists := join_injective (by simp) (by simp) (hparts p s v as hp hs hv has)
      (hparts p' s' v' as' hp' hs' hv' has') h
    simpa using hlists
  · rintro ⟨h₁, h₂, h₃, h₄⟩
    rw [h₁, h₂, h₃, h₄]

end QrMenu
end Eleva
