import Eleva.Service

/-!
# Order - The discount engine

The stateless pricing and validation of a discount code.  Every rejection throws one
and the same message.

Main results:

- Theorem {lit}`computeDiscountAmount_bounds`: a discount is between zero and the
  rounded subtotal.
- Theorem {lit}`validateDiscount_eq_ok`: when a discount is accepted, and what for.
-/

namespace Eleva
namespace DiscountService

open Foundation Database

def DISCOUNT_INVALID_MESSAGE : String :=
  "The discount code is invalid or expired."

structure ResolvedDiscount where
  discountId : Id
  code : String
  amount : ℚ
deriving DecidableEq, Repr

/-- {lit}`Number(x.toFixed(2))`. -/
def round2 (x : ℚ) : ℚ :=
  roundTo 2 x

/-- The amount that a discount takes off a subtotal. -/
def computeDiscountAmount (subtotal : ℚ) (type : DiscountType) (value : ℚ) : ℚ :=
  if value ≤ 0 ∨ subtotal ≤ 0 then 0
  else
    let amount := match type with
      | .PERCENTAGE => subtotal * value / 100
      | .FIXED_AMOUNT => value
    round2 (min amount subtotal)

/-- Whether the usage limit leaves room for one more use. -/
def usageLeft (discount : Discount) : Bool :=
  discount.usageLimit.all fun limit => decide (discount.usageCount < limit)

/-- Whether the discount is active and {lit}`now` is in its validity window. -/
def inForce (discount : Discount) (now : Timestamp) : Bool :=
  discount.active &&
    discount.validFrom.all (fun t => decide (t ≤ now)) &&
    discount.validTo.all (fun t => decide (now ≤ t))

/-- Validate a discount row and compute its amount. -/
def validateDiscount (discount : Option Discount) (code : String) (subtotal : ℚ)
    (now : Timestamp) : Except AppError ResolvedDiscount :=
  match discount with
  | none => .error (.badRequest DISCOUNT_INVALID_MESSAGE)
  | some d =>
      if !d.active then .error (.badRequest DISCOUNT_INVALID_MESSAGE)
      else if d.validFrom.any (fun t => decide (now < t)) then
        .error (.badRequest DISCOUNT_INVALID_MESSAGE)
      else if d.validTo.any (fun t => decide (t < now)) then
        .error (.badRequest DISCOUNT_INVALID_MESSAGE)
      else if d.usageLimit.any (fun limit => decide (limit ≤ d.usageCount)) then
        .error (.badRequest DISCOUNT_INVALID_MESSAGE)
      else
        let amount := computeDiscountAmount subtotal d.type d.value.toNumber
        if amount ≤ 0 then .error (.badRequest DISCOUNT_INVALID_MESSAGE)
        else .ok { discountId := d.id, code := code, amount := amount }

/-- A discount never exceeds the rounded subtotal, and never raises the total. -/
theorem computeDiscountAmount_bounds {subtotal : ℚ} (hsubtotal : 0 ≤ subtotal)
    (type : DiscountType) (value : ℚ) :
    0 ≤ computeDiscountAmount subtotal type value ∧
      computeDiscountAmount subtotal type value ≤ round2 subtotal := by
  unfold computeDiscountAmount
  split
  · exact ⟨le_refl 0, roundTo_nonneg 2 hsubtotal⟩
  · rename_i hpos
    have hvalue : 0 < value := lt_of_not_ge fun h => hpos (Or.inl h)
    have hamount : 0 ≤ (match type with
        | .PERCENTAGE => subtotal * value / 100
        | .FIXED_AMOUNT => value) := by
      cases type with
      | PERCENTAGE => exact div_nonneg (mul_nonneg hsubtotal hvalue.le) (by norm_num)
      | FIXED_AMOUNT => exact hvalue.le
    exact ⟨roundTo_nonneg 2 (le_min hamount hsubtotal), roundTo_mono 2 (min_le_right _ _)⟩

/-- A discount is an amount of whole cents. -/
theorem isFixed_computeDiscountAmount (subtotal : ℚ) (type : DiscountType) (value : ℚ) :
    IsFixed 2 (computeDiscountAmount subtotal type value) := by
  unfold computeDiscountAmount
  split
  · exact isFixed_zero 2
  · exact isFixed_roundTo 2 _

/-- When a discount is accepted, and what it resolves to. -/
theorem validateDiscount_eq_ok {discount : Option Discount} {code : String} {subtotal : ℚ}
    {now : Timestamp} {resolved : ResolvedDiscount} :
    validateDiscount discount code subtotal now = .ok resolved ↔
      ∃ d, discount = some d ∧ inForce d now = true ∧ usageLeft d = true ∧
        0 < computeDiscountAmount subtotal d.type d.value.toNumber ∧
        resolved = ⟨d.id, code, computeDiscountAmount subtotal d.type d.value.toNumber⟩ := by
  cases discount with
  | none => simp [validateDiscount]
  | some d =>
      have hfrom : d.validFrom.any (fun t => decide (now < t)) = false ↔
          d.validFrom.all (fun t => decide (t ≤ now)) = true := by
        cases d.validFrom <;> simp
      have hto : d.validTo.any (fun t => decide (t < now)) = false ↔
          d.validTo.all (fun t => decide (now ≤ t)) = true := by
        cases d.validTo <;> simp
      have hlimit : d.usageLimit.any (fun limit => decide (limit ≤ d.usageCount)) = false ↔
          usageLeft d = true := by
        unfold usageLeft
        cases d.usageLimit <;> simp
      unfold validateDiscount inForce
      simp only [Option.some.injEq, exists_eq_left', Bool.and_eq_true, ← hfrom, ← hto,
        ← hlimit]
      cases d.active <;> cases d.validFrom.any (fun t => decide (now < t)) <;>
        cases d.validTo.any (fun t => decide (t < now)) <;>
        cases d.usageLimit.any (fun limit => decide (limit ≤ d.usageCount)) <;>
        simp only [Bool.not_true, Bool.not_false, Bool.false_eq_true, if_true, if_false,
          reduceCtorEq, false_and, and_false, and_self, true_and]
      split <;> rename_i hamount
      · simp [hamount]
      · simp [lt_of_not_ge hamount, eq_comm]

end DiscountService
end Eleva
