import Mathlib.Data.List.GetD
import Mathlib.Data.List.Nodup
import Mathlib.Data.Nat.Digits.Defs
import Mathlib.Data.Nat.Digits.Lemmas
import Mathlib.Data.Int.ModEq

/-!
# Foundation - Numbers as texts, texts as numbers

A natural number in base 36, and the hash of a list of code units in a signed register of 32
bits.  The register holds the value of a polynomial, so that two hashes have one size when the
values of the polynomials are congruent up to their sign.

Main results:

- Theorem {lit}`base36_injective`: different numbers have different texts.
- Theorem {lit}`hash32_modEq`: the hash is the polynomial value modulo {lit}`2 ^ 32`.
- Theorem {lit}`natAbs_hash32_eq_iff`: when two hashes have one size.
-/

namespace Eleva
namespace Foundation

/-! ## Base 36 -/

/-- The characters of the digits. -/
def digits36 : List Char :=
  "0123456789abcdefghijklmnopqrstuvwxyz".toList

def digit36 (d : ℕ) : Char :=
  digits36.getD d '0'

/-- {lit}`n.toString(36)`. -/
def base36 (n : ℕ) : String :=
  String.ofList (if n = 0 then ['0'] else ((Nat.digits 36 n).map digit36).reverse)

theorem digits36_nodup : digits36.Nodup := by
  decide

theorem digit36_mem (d : ℕ) : digit36 d ∈ digits36 := by
  unfold digit36
  by_cases h : d < digits36.length
  · rw [List.getD_eq_getElem digits36 '0' h]
    exact List.getElem_mem h
  · rw [List.getD_eq_default digits36 '0' (Nat.not_lt.mp h)]
    exact List.mem_cons_self

theorem digit36_injOn {d e : ℕ} (hd : d < 36) (he : e < 36) (h : digit36 d = digit36 e) :
    d = e := by
  unfold digit36 at h
  rw [List.getD_eq_getElem digits36 '0' hd, List.getD_eq_getElem digits36 '0' he] at h
  exact (List.Nodup.getElem_inj_iff digits36_nodup).mp h

/-- Every character of such a text is a digit. -/
theorem mem_base36 {n : ℕ} {c : Char} (h : c ∈ (base36 n).toList) : c ∈ digits36 := by
  rw [base36, String.toList_ofList] at h
  by_cases hzero : n = 0
  · rw [if_pos hzero, List.mem_singleton] at h
    rw [h]
    exact List.mem_cons_self
  · rw [if_neg hzero, List.mem_reverse] at h
    rcases List.mem_map.mp h with ⟨d, -, rfl⟩
    exact digit36_mem d

/-- The digits of a text, the last one first. -/
theorem digits_of_base36 (n : ℕ) :
    ∃ ds : List ℕ, (∀ d ∈ ds, d < 36) ∧ (base36 n).toList.reverse = ds.map digit36 ∧
      Nat.ofDigits 36 ds = n := by
  rw [base36, String.toList_ofList]
  by_cases hzero : n = 0
  · refine ⟨[0], by decide, ?_, ?_⟩
    · rw [if_pos hzero]
      rfl
    · rw [hzero]
      rfl
  · refine ⟨Nat.digits 36 n, fun d hd => Nat.digits_lt_base (by decide) hd, ?_,
      Nat.ofDigits_digits 36 n⟩
    rw [if_neg hzero, List.reverse_reverse]

/-- Different numbers have different texts. -/
theorem base36_injective : Function.Injective base36 := by
  intro m n h
  rcases digits_of_base36 m with ⟨ds, hds, hm, hvalue⟩
  rcases digits_of_base36 n with ⟨es, hes, hn, hvalue'⟩
  have hmaps : ds.map digit36 = es.map digit36 := by
    rw [← hm, h, hn]
  have hlists : ds = es := by
    refine List.ext_getElem (by simpa using congrArg List.length hmaps) fun i hi hi' => ?_
    refine digit36_injOn (hds _ (List.getElem_mem hi)) (hes _ (List.getElem_mem hi')) ?_
    have hget := List.getElem_of_eq hmaps (by simpa using hi)
    simpa using hget
  rw [← hvalue, ← hvalue', hlists]

/-! ## Hashes -/

/-- A signed register of 32 bits. -/
def toInt32 (x : ℤ) : ℤ :=
  x.bmod (2 ^ 32)

/-- {lit}`((hash << 5) - hash + unit) | 0`. -/
def hashStep (hash : ℤ) (unit : ℕ) : ℤ :=
  toInt32 (toInt32 (hash * 2 ^ 5) - hash + unit)

/-- The hash of code units. -/
def hash32 (units : List ℕ) : ℤ :=
  units.foldl hashStep 0

/-- The value of the polynomial with these coefficients, the leading one first, at 31. -/
def polynomialAt31 (units : List ℕ) : ℤ :=
  units.foldl (fun value unit => 31 * value + unit) 0

theorem toInt32_modEq (x : ℤ) : toInt32 x ≡ x [ZMOD 2 ^ 32] :=
  Int.bmod_emod

theorem hashStep_modEq {hash value : ℤ} (h : hash ≡ value [ZMOD 2 ^ 32]) (unit : ℕ) :
    hashStep hash unit ≡ 31 * value + unit [ZMOD 2 ^ 32] := by
  have hshift : toInt32 (hash * 2 ^ 5) - hash + unit ≡ hash * 2 ^ 5 - hash + unit
      [ZMOD 2 ^ 32] :=
    ((toInt32_modEq _).sub Int.ModEq.rfl).add Int.ModEq.rfl
  have hmul : hash * 2 ^ 5 - hash + unit = 31 * hash + unit := by omega
  rw [hmul] at hshift
  exact ((toInt32_modEq _).trans hshift).trans ((h.mul_left 31).add_right _)

/-- The hash is the polynomial value modulo {lit}`2 ^ 32`. -/
theorem hash32_modEq (units : List ℕ) : hash32 units ≡ polynomialAt31 units [ZMOD 2 ^ 32] := by
  have hfold : ∀ (units : List ℕ) (hash value : ℤ), hash ≡ value [ZMOD 2 ^ 32] →
      units.foldl hashStep hash ≡ units.foldl (fun value unit => 31 * value + unit) value
        [ZMOD 2 ^ 32] := by
    intro units
    induction units with
    | nil => exact fun _ _ h => h
    | cons unit units ih => exact fun hash value h => ih _ _ (hashStep_modEq h unit)
  exact hfold units 0 0 Int.ModEq.rfl

theorem toInt32_bounds (x : ℤ) : -2 ^ 31 ≤ toInt32 x ∧ toInt32 x < 2 ^ 31 :=
  ⟨Int.le_bmod (by decide), Int.bmod_lt (by decide)⟩

theorem hash32_bounds (units : List ℕ) : -2 ^ 31 ≤ hash32 units ∧ hash32 units < 2 ^ 31 := by
  cases hunits : units.reverse with
  | nil =>
      rw [List.reverse_eq_nil_iff.mp hunits]
      decide
  | cons unit rest =>
      rw [← List.reverse_reverse units, hunits, List.reverse_cons, hash32, List.foldl_append]
      exact toInt32_bounds _

/-- Two hashes have one size when the values of the polynomials are congruent up to their
sign. -/
theorem natAbs_hash32_eq_iff (xs ys : List ℕ) :
    (hash32 xs).natAbs = (hash32 ys).natAbs ↔
      polynomialAt31 xs ≡ polynomialAt31 ys [ZMOD 2 ^ 32] ∨
        polynomialAt31 xs ≡ -polynomialAt31 ys [ZMOD 2 ^ 32] := by
  have hx := hash32_bounds xs
  have hy := hash32_bounds ys
  have hequal : polynomialAt31 xs ≡ polynomialAt31 ys [ZMOD 2 ^ 32] ↔
      hash32 xs = hash32 ys := by
    constructor
    · intro h
      have hmod : hash32 xs ≡ hash32 ys [ZMOD 2 ^ 32] :=
        ((hash32_modEq xs).trans h).trans (hash32_modEq ys).symm
      unfold Int.ModEq at hmod
      omega
    · intro h
      exact ((hash32_modEq xs).symm.trans (by rw [h])).trans (hash32_modEq ys)
  have hopposite : polynomialAt31 xs ≡ -polynomialAt31 ys [ZMOD 2 ^ 32] ↔
      hash32 xs ≡ -hash32 ys [ZMOD 2 ^ 32] := by
    constructor
    · exact fun h => ((hash32_modEq xs).trans h).trans (hash32_modEq ys).symm.neg
    · exact fun h => ((hash32_modEq xs).symm.trans h).trans (hash32_modEq ys).neg
  rw [hequal, hopposite, Int.natAbs_eq_natAbs_iff]
  unfold Int.ModEq
  omega

end Foundation
end Eleva
