import Mathlib.Data.List.Infix

/-!
# Foundation - Patterns of a database

The patterns of {lit}`LIKE`: a percent sign stands for any text, an underscore for any character,
and a backslash takes the character behind it as it is.

Main results:

- Theorem {lit}`like_suffix_iff`: a pattern that begins with a percent sign and a separator fits a
  text exactly when the rest of it fits what is behind one of the separators.
- Theorem {lit}`like_separator_iff`: a part without the separator makes no difference before it.
-/

namespace Eleva
namespace Foundation

/-- What a pattern asks for next. -/
inductive LikeSymbol where
  | anyText
  | anyChar
  | literal (c : Char)
  | cut
deriving DecidableEq, Repr

namespace LikeSymbol

/-- The symbol of a character: behind a last backslash there is nothing left to take, and the
database gives up where it gets there. -/
def ofChar (c : Char) : LikeSymbol :=
  if c = '%' then .anyText
  else if c = '_' then .anyChar
  else if c = '\\' then .cut
  else .literal c

/-- The symbols of a pattern. -/
def parse : List Char → List LikeSymbol
  | [] => []
  | [c] => [ofChar c]
  | c :: d :: cs => if c = '\\' then .literal d :: parse cs else ofChar c :: parse (d :: cs)

/-- The text is what the symbols ask for. -/
def fits : List LikeSymbol → List Char → Bool
  | [], text => text.isEmpty
  | .anyText :: symbols, text => text.tails.any fun rest => fits symbols rest
  | .anyChar :: symbols, text => text.head?.isSome && fits symbols text.tail
  | .literal c :: symbols, text => text.head? == some c && fits symbols text.tail
  | .cut :: _, _ => false

theorem parse_cons {c : Char} (h : c ≠ '\\') (cs : List Char) :
    parse (c :: cs) = ofChar c :: parse cs := by
  cases cs with
  | nil => rfl
  | cons d cs => rw [parse, if_neg h]

theorem parse_percent (cs : List Char) : parse ('%' :: cs) = .anyText :: parse cs :=
  parse_cons (by decide) cs

/-- Most characters stand for themselves. -/
theorem parse_literal {c : Char} (h : c ∉ ['%', '_', '\\']) (cs : List Char) :
    parse (c :: cs) = .literal c :: parse cs := by
  simp only [List.mem_cons, List.not_mem_nil, or_false, not_or] at h
  rw [parse_cons h.2.2, ofChar, if_neg h.1, if_neg h.2.1, if_neg h.2.2]

theorem fits_anyText {symbols : List LikeSymbol} {text : List Char} :
    fits (.anyText :: symbols) text = true ↔ ∃ rest, rest <:+ text ∧ fits symbols rest = true := by
  rw [fits, List.any_eq_true]
  simp only [List.mem_tails]

theorem fits_literal {c : Char} {symbols : List LikeSymbol} {text : List Char} :
    fits (.literal c :: symbols) text = true ↔
      ∃ rest, text = c :: rest ∧ fits symbols rest = true := by
  rw [fits, Bool.and_eq_true, beq_iff_eq]
  cases text with
  | nil => simp
  | cons d rest => simp

end LikeSymbol

/-- {lit}`text LIKE pattern`. -/
def like (pattern text : String) : Bool :=
  LikeSymbol.fits (LikeSymbol.parse pattern.toList) text.toList

section Separators

variable {sep : Char} (hsep : sep ∉ ['%', '_', '\\'])
include hsep

/-- A pattern that begins with a percent sign and a separator fits what ends with a separator and a
text that fits the rest. -/
theorem like_suffix_iff (x text : String) :
    like ("%" ++ String.singleton sep ++ x) text = true ↔
      ∃ rest, sep :: rest <:+ text.toList ∧
        LikeSymbol.fits (LikeSymbol.parse x.toList) rest = true := by
  have hpattern : ("%" ++ String.singleton sep ++ x).toList = '%' :: sep :: x.toList := by
    simp
  unfold like
  rw [hpattern, LikeSymbol.parse_percent, LikeSymbol.parse_literal hsep, LikeSymbol.fits_anyText]
  constructor
  · rintro ⟨found, hfound, hfits⟩
    rcases LikeSymbol.fits_literal.mp hfits with ⟨rest, rfl, hrest⟩
    exact ⟨rest, hfound, hrest⟩
  · rintro ⟨rest, hrest, hfits⟩
    exact ⟨sep :: rest, hrest, LikeSymbol.fits_literal.mpr ⟨rest, rfl, hfits⟩⟩

/-- Before the first separator there is nothing to fit. -/
theorem like_separator_iff {a : String} (ha : sep ∉ a.toList) (x text : String) :
    like ("%" ++ String.singleton sep ++ x) (a ++ text) =
      like ("%" ++ String.singleton sep ++ x) text := by
  have hsuffix : ∀ (front back rest : List Char), sep ∉ front →
      (sep :: rest <:+ front ++ back ↔ sep :: rest <:+ back) := by
    intro front back rest hfront
    induction front with
    | nil => rfl
    | cons c front ih =>
        have hc : sep ≠ c := fun h => hfront (h ▸ List.mem_cons_self)
        rw [List.cons_append, List.suffix_cons_iff,
          ih fun h => hfront (List.mem_cons_of_mem _ h)]
        simp [hc]
  rw [Bool.eq_iff_iff, like_suffix_iff hsep, like_suffix_iff hsep, String.toList_append]
  simp only [hsuffix _ _ _ ha]

end Separators

end Foundation
end Eleva
