import Mathlib.Data.Rat.Floor
import Mathlib.Algebra.Order.Floor.Ring
import Mathlib.Tactic.Linarith
import Mathlib.Tactic.Positivity
import Mathlib.Tactic.FieldSimp
import Mathlib.Tactic.Ring

/-!
# Foundation - Fixed-point decimals

Amounts are exact rationals; a database column of a fixed precision and scale
stores a bounded integer number of units in the last place.  Rounding is to the
nearest unit with ties away from zero, which is both what a numeric column does
when it stores a value and what printing with a fixed number of digits does.

Main results:

- Theorem {lit}`roundTo_mono`: rounding is monotone.
- Theorem {lit}`roundTo_of_isFixed`: a value that already has the digits is kept.
- Theorem {lit}`Decimal.ofNumber_toNumber`: storing a value with the column's digits
  and reading it back returns the value.
-/

namespace Eleva
namespace Foundation

/-- The integer nearest to {lit}`x`, ties away from zero. -/
def roundHalfAway (x : ℚ) : ℤ :=
  if 0 ≤ x then ⌊x + 1 / 2⌋ else -⌊-x + 1 / 2⌋

/-- {lit}`x` rounded to {lit}`digits` decimals, ties away from zero. -/
def roundTo (digits : ℕ) (x : ℚ) : ℚ :=
  (roundHalfAway (x * 10 ^ digits) : ℚ) / 10 ^ digits

/-- {lit}`x` has at most {lit}`digits` decimals. -/
def IsFixed (digits : ℕ) (x : ℚ) : Prop :=
  ∃ n : ℤ, x = (n : ℚ) / 10 ^ digits

/-! ## Rounding -/

@[simp]
theorem roundHalfAway_intCast (n : ℤ) : roundHalfAway (n : ℚ) = n := by
  have hhalf : ∀ m : ℤ, ⌊(m : ℚ) + 1 / 2⌋ = m := by
    intro m
    rw [Int.floor_eq_iff]
    constructor <;> linarith
  unfold roundHalfAway
  split
  · exact hhalf n
  · have hneg : -(n : ℚ) = ((-n : ℤ) : ℚ) := by push_cast; rfl
    rw [hneg, hhalf, neg_neg]

theorem roundHalfAway_nonneg {x : ℚ} (hx : 0 ≤ x) : 0 ≤ roundHalfAway x := by
  unfold roundHalfAway
  rw [if_pos hx]
  apply Int.floor_nonneg.mpr
  linarith

theorem roundHalfAway_nonpos {x : ℚ} (hx : x < 0) : roundHalfAway x ≤ 0 := by
  unfold roundHalfAway
  rw [if_neg (not_le.mpr hx)]
  have hfloor : 0 ≤ ⌊-x + 1 / 2⌋ := Int.floor_nonneg.mpr (by linarith)
  omega

theorem roundHalfAway_mono {x y : ℚ} (hxy : x ≤ y) : roundHalfAway x ≤ roundHalfAway y := by
  by_cases hx : 0 ≤ x
  · have hy : 0 ≤ y := hx.trans hxy
    unfold roundHalfAway
    rw [if_pos hx, if_pos hy]
    exact Int.floor_le_floor (by linarith)
  · have hx' : x < 0 := not_le.mp hx
    by_cases hy : 0 ≤ y
    · exact (roundHalfAway_nonpos hx').trans (roundHalfAway_nonneg hy)
    · unfold roundHalfAway
      rw [if_neg hx, if_neg hy]
      exact neg_le_neg (Int.floor_le_floor (by linarith))

theorem roundTo_mono (digits : ℕ) {x y : ℚ} (hxy : x ≤ y) :
    roundTo digits x ≤ roundTo digits y := by
  unfold roundTo
  have hscale : x * 10 ^ digits ≤ y * 10 ^ digits :=
    mul_le_mul_of_nonneg_right hxy (by positivity)
  have hround : (roundHalfAway (x * 10 ^ digits) : ℚ) ≤ roundHalfAway (y * 10 ^ digits) :=
    by exact_mod_cast roundHalfAway_mono hscale
  exact div_le_div_of_nonneg_right hround (by positivity)

theorem roundTo_nonneg (digits : ℕ) {x : ℚ} (hx : 0 ≤ x) : 0 ≤ roundTo digits x := by
  unfold roundTo
  have hscale : 0 ≤ x * 10 ^ digits := mul_nonneg hx (by positivity)
  have hround : (0 : ℚ) ≤ roundHalfAway (x * 10 ^ digits) :=
    by exact_mod_cast roundHalfAway_nonneg hscale
  exact div_nonneg hround (by positivity)

/-- A rounded value has the digits it was rounded to. -/
theorem isFixed_roundTo (digits : ℕ) (x : ℚ) : IsFixed digits (roundTo digits x) :=
  ⟨roundHalfAway (x * 10 ^ digits), rfl⟩

/-- Rounding keeps a value that already has the digits. -/
theorem roundTo_of_isFixed {digits : ℕ} {x : ℚ} (hx : IsFixed digits x) :
    roundTo digits x = x := by
  rcases hx with ⟨n, rfl⟩
  unfold roundTo
  have hpow : (10 : ℚ) ^ digits ≠ 0 := by positivity
  rw [div_mul_cancel₀ _ hpow, roundHalfAway_intCast]

/-! ## Values with a fixed number of digits -/

theorem isFixed_zero (digits : ℕ) : IsFixed digits 0 :=
  ⟨0, by simp⟩

theorem IsFixed.add {digits : ℕ} {x y : ℚ} (hx : IsFixed digits x) (hy : IsFixed digits y) :
    IsFixed digits (x + y) := by
  rcases hx with ⟨m, rfl⟩
  rcases hy with ⟨n, rfl⟩
  exact ⟨m + n, by push_cast; ring⟩

theorem IsFixed.sub {digits : ℕ} {x y : ℚ} (hx : IsFixed digits x) (hy : IsFixed digits y) :
    IsFixed digits (x - y) := by
  rcases hx with ⟨m, rfl⟩
  rcases hy with ⟨n, rfl⟩
  exact ⟨m - n, by push_cast; ring⟩

theorem IsFixed.mul_nat {digits : ℕ} {x : ℚ} (hx : IsFixed digits x) (k : ℕ) :
    IsFixed digits (x * k) := by
  rcases hx with ⟨n, rfl⟩
  exact ⟨n * k, by push_cast; ring⟩

theorem isFixed_sum {digits : ℕ} {xs : List ℚ} (hxs : ∀ x ∈ xs, IsFixed digits x) :
    IsFixed digits xs.sum := by
  induction xs with
  | nil => exact isFixed_zero digits
  | cons x xs ih =>
      rw [List.sum_cons]
      exact (hxs x (by simp)).add (ih fun y hy => hxs y (by simp [hy]))

/-! ## Numeric columns -/

/-- The value of a numeric column with {lit}`precision` digits, {lit}`scale` of them
after the point, as a number of units in the last place. -/
structure Decimal (precision scale : ℕ) where
  units : ℤ
  inRange : units.natAbs < 10 ^ precision
deriving DecidableEq, Repr

namespace Decimal

variable {precision scale : ℕ}

/-- The exact number a column value stands for. -/
def toNumber (d : Decimal precision scale) : ℚ :=
  (d.units : ℚ) / 10 ^ scale

/-- Store a number: round it to the column's scale and refuse an overflow. -/
def ofNumber (precision scale : ℕ) (x : ℚ) : Option (Decimal precision scale) :=
  if h : (roundHalfAway (x * 10 ^ scale)).natAbs < 10 ^ precision then
    some ⟨roundHalfAway (x * 10 ^ scale), h⟩
  else none

theorem isFixed_toNumber (d : Decimal precision scale) : IsFixed scale d.toNumber :=
  ⟨d.units, rfl⟩

/-- What a column holds after storing a number is the rounded number. -/
theorem toNumber_of_ofNumber {x : ℚ} {d : Decimal precision scale}
    (h : ofNumber precision scale x = some d) : d.toNumber = roundTo scale x := by
  unfold ofNumber at h
  split at h
  · cases h
    rfl
  · contradiction

/-- Storing a number that has the column's digits loses nothing. -/
theorem ofNumber_toNumber {x : ℚ} {d : Decimal precision scale} (hx : IsFixed scale x)
    (h : ofNumber precision scale x = some d) : d.toNumber = x := by
  rw [toNumber_of_ofNumber h, roundTo_of_isFixed hx]

end Decimal

end Foundation
end Eleva
