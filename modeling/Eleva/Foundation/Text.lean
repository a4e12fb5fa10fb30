import Mathlib.Data.List.Basic
import Mathlib.Data.List.TakeWhile

/-!
# Foundation - Text as the runtime treats it

White space that {lit}`trim` removes, trimming, suffixes and the first part of a text
that is split at a separator.

Main results:

- Theorems {lit}`firstPart_separator` and {lit}`afterFirst_separator`: the parts of a text before
  and behind its first separator.
-/

namespace Eleva
namespace Foundation

/-- White space as the runtime trims it. -/
def isJsWhitespace (c : Char) : Bool :=
  let n := c.toNat
  (9 ≤ n && n ≤ 13) || n == 0x20 || n == 0xA0 || n == 0x1680 || (0x2000 ≤ n && n ≤ 0x200A) ||
    n == 0x2028 || n == 0x2029 || n == 0x202F || n == 0x205F || n == 0x3000 || n == 0xFEFF

/-- {lit}`s.trim()`. -/
def trim (s : String) : String :=
  String.ofList
    (((s.toList.dropWhile isJsWhitespace).reverse.dropWhile isJsWhitespace).reverse)

/-- {lit}`s.endsWith(suffix)`. -/
def endsWith (s suffix : String) : Bool :=
  suffix.toList.isSuffixOf s.toList

/-- {lit}`s.includes(pattern)`. -/
def includes (s pattern : String) : Bool :=
  s.toList.tails.any fun rest => pattern.toList.isPrefixOf rest

/-- {lit}`s.split(sep)[0]`. -/
def firstPart (sep : Char) (s : String) : String :=
  String.ofList (s.toList.takeWhile (· != sep))

/-- Characters without the first occurrence of a pattern. -/
def dropOccurrence (pattern : List Char) : List Char → List Char
  | [] => []
  | c :: cs =>
      if pattern.isPrefixOf (c :: cs) then (c :: cs).drop pattern.length
      else c :: dropOccurrence pattern cs

/-- {lit}`s.replace(pattern, '')`, for a pattern that is a text. -/
def removeFirst (pattern s : String) : String :=
  String.ofList (dropOccurrence pattern.toList s.toList)

/-- What follows the first separator. -/
def afterFirst (sep : Char) (s : String) : String :=
  String.ofList ((s.toList.dropWhile (· != sep)).drop 1)

/-- Upper case, for the letters that have one in ASCII. -/
def asciiUpperCase (s : String) : String :=
  String.ofList (s.toList.map Char.toUpper)

/-- Lower case, for the letters that have one in ASCII. -/
def asciiLowerCase (s : String) : String :=
  String.ofList (s.toList.map Char.toLower)

/-- The code of a lower-case character. -/
theorem toNat_toLower (c : Char) :
    c.toLower.toNat = if 65 ≤ c.toNat ∧ c.toNat ≤ 90 then c.toNat + 32 else c.toNat := by
  unfold Char.toLower
  split
  · rename_i hupper
    have hlow : 65 ≤ c.val.toNat := hupper.1
    have hhigh : c.val.toNat ≤ 90 := hupper.2
    have hshift : ('a'.val - 'A'.val).toNat = 32 := by decide
    have hsum : (c.val + ('a'.val - 'A'.val)).toNat = c.val.toNat + 32 := by
      rw [UInt32.toNat_add, hshift]
      omega
    rw [if_pos ⟨hlow, hhigh⟩]
    exact hsum
  · rename_i hother
    have hnot : ¬(65 ≤ c.toNat ∧ c.toNat ≤ 90) := hother
    rw [if_neg hnot]

/-- A text with a separator is its first part, the separator and what follows. -/
theorem eq_firstPart_append {s : String} {sep : Char} (h : sep ∈ s.toList) :
    s = firstPart sep s ++ String.singleton sep ++ afterFirst sep s := by
  have hdrop : s.toList.dropWhile (· != sep) =
      sep :: (s.toList.dropWhile (· != sep)).drop 1 := by
    cases hrest : s.toList.dropWhile (· != sep) with
    | nil =>
        rw [List.dropWhile_eq_nil_iff] at hrest
        simpa using hrest sep h
    | cons c cs =>
        have hhead := List.head?_dropWhile_not (· != sep) s.toList
        simp only [hrest, List.head?_cons, bne_eq_false_iff_eq] at hhead
        rw [hhead]
        rfl
  apply String.toList_inj.mp
  rw [firstPart, afterFirst]
  simp only [String.toList_append, String.toList_ofList, String.toList_singleton]
  rw [List.append_assoc, List.singleton_append, ← hdrop, List.takeWhile_append_dropWhile]

/-- What follows the first separator of a text of two parts, the first without it. -/
theorem afterFirst_separator {sep : Char} {a : String} (ha : sep ∉ a.toList) (b : String) :
    afterFirst sep (a ++ String.singleton sep ++ b) = b := by
  have hpass : ∀ c ∈ a.toList, (c != sep) = true := by
    intro c hc
    simp only [bne_iff_ne, ne_eq]
    rintro rfl
    exact ha hc
  have hdrop : (a ++ String.singleton sep ++ b).toList.dropWhile (· != sep) =
      sep :: b.toList := by
    simp [List.dropWhile_append_of_pos hpass]
  unfold afterFirst
  rw [hdrop]
  exact String.ofList_toList

/-- The first part of a text of two parts, the first without the separator. -/
theorem firstPart_separator {sep : Char} {a : String} (ha : sep ∉ a.toList) (b : String) :
    firstPart sep (a ++ String.singleton sep ++ b) = a := by
  have hpass : ∀ c ∈ a.toList, (c != sep) = true := by
    intro c hc
    simp only [bne_iff_ne, ne_eq]
    rintro rfl
    exact ha hc
  have htake : (a ++ String.singleton sep ++ b).toList.takeWhile (· != sep) = a.toList := by
    simp [List.takeWhile_append_of_pos hpass]
  unfold firstPart
  rw [htake]
  exact String.ofList_toList

end Foundation
end Eleva
