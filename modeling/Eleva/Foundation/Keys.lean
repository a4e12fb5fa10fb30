import Mathlib.Data.List.Lex
import Mathlib.Data.List.Sort

/-!
# Foundation - Strings as keys

Keys are built by joining strings with a separator and by sorting strings in the order
of their UTF-16 code units.  Such a key stands for its parts when the separator occurs
in none of them, and a sorted list stands for the multiset of its entries.

Main results:

- Theorem {lit}`join_injective`: joined lists of strings without the separator are equal
  when their results are.
- Theorem {lit}`pairKey_injective`: a key for a pair stands for the pair.
- Theorem {lit}`utf16_injective`: different strings have different code units.
- Theorem {lit}`sortStrings_eq_iff`: sorted lists are equal when the lists are
  permutations of each other.
-/

namespace Eleva
namespace Foundation

/-! ## Joined strings -/

/-- {lit}`parts.join(sep)`. -/
def join (sep : Char) (parts : List String) : String :=
  String.ofList ([sep].intercalate (parts.map String.toList))

@[simp]
theorem toList_join (sep : Char) (parts : List String) :
    (join sep parts).toList = [sep].intercalate (parts.map String.toList) :=
  String.toList_ofList

@[simp]
theorem join_nil (sep : Char) : join sep [] = "" :=
  rfl

/-- Nonempty joined lists without the separator are equal when their results are. -/
theorem join_injective {sep : Char} {xs ys : List String} (hxs : xs ≠ []) (hys : ys ≠ [])
    (hx : ∀ x ∈ xs, sep ∉ x.toList) (hy : ∀ y ∈ ys, sep ∉ y.toList)
    (h : join sep xs = join sep ys) : xs = ys := by
  have hsplit : ∀ zs : List String, zs ≠ [] → (∀ z ∈ zs, sep ∉ z.toList) →
      List.splitOn sep (join sep zs).toList = zs.map String.toList := by
    intro zs hne hz
    rw [toList_join]
    refine List.splitOn_intercalate sep (fun l hl => ?_) (by simpa using hne)
    rcases List.mem_map.mp hl with ⟨z, hmem, rfl⟩
    exact hz z hmem
  have hlists : xs.map String.toList = ys.map String.toList := by
    rw [← hsplit xs hxs hx, ← hsplit ys hys hy, h]
  exact List.map_injective_iff.mpr (fun _ _ => String.toList_inj.mp) hlists

/-! ## Pairs of strings -/

/-- A string that stands for a pair of strings: the length of the first, in unary, tells
where it ends. -/
def pairKey (a b : String) : String :=
  String.ofList (List.replicate a.toList.length '1' ++ '.' :: (a.toList ++ b.toList))

theorem pairKey_injective {a b a' b' : String} (h : pairKey a b = pairKey a' b') :
    a = a' ∧ b = b' := by
  have hlist : List.replicate a.toList.length '1' ++ '.' :: (a.toList ++ b.toList) =
      List.replicate a'.toList.length '1' ++ '.' :: (a'.toList ++ b'.toList) := by
    simpa [pairKey] using congrArg String.toList h
  have hones : ∀ (n : ℕ) (l : List Char),
      (List.replicate n '1' ++ '.' :: l).takeWhile (fun c => c = '1') =
        List.replicate n '1' := by
    intro n l
    rw [List.takeWhile_append_of_pos (by simp)]
    simp
  have hlength : a.toList.length = a'.toList.length := by
    have hprefix := congrArg (List.takeWhile fun c => decide (c = '1')) hlist
    rw [hones, hones] at hprefix
    simpa using congrArg List.length hprefix
  rw [hlength, List.append_cancel_left_eq, List.cons.injEq] at hlist
  rcases List.append_inj hlist.2 hlength with ⟨ha, hb⟩
  exact ⟨String.toList_inj.mp ha, String.toList_inj.mp hb⟩

@[simp]
theorem pairKey_inj {a b a' b' : String} : pairKey a b = pairKey a' b' ↔ a = a' ∧ b = b' :=
  ⟨pairKey_injective, by rintro ⟨rfl, rfl⟩; rfl⟩

/-! ## The order of code units -/

/-- The UTF-16 code units of a character. -/
def codeUnits (c : Char) : List ℕ :=
  if c.toNat < 0x10000 then [c.toNat]
  else [0xD800 + (c.toNat - 0x10000) / 0x400, 0xDC00 + (c.toNat - 0x10000) % 0x400]

/-- The UTF-16 code units of a string. -/
def utf16 (s : String) : List ℕ :=
  s.toList.flatMap codeUnits

/-- A character is a code point, and no surrogate. -/
theorem toNat_valid (c : Char) :
    c.toNat < 0xD800 ∨ (0xDFFF < c.toNat ∧ c.toNat < 0x110000) := by
  have hvalid := c.valid
  simp only [UInt32.isValidChar, Nat.isValidChar] at hvalid
  have hval : c.toNat = c.val.toNat := rfl
  omega

/-- The code units of a character tell it apart, and where it ends. -/
theorem codeUnits_append_inj {c d : Char} {xs ys : List ℕ}
    (h : codeUnits c ++ xs = codeUnits d ++ ys) : c = d ∧ xs = ys := by
  have hc := toNat_valid c
  have hd := toNat_valid d
  unfold codeUnits at h
  split at h <;> split at h <;>
    simp only [List.cons_append, List.nil_append, List.cons.injEq] at h
  · exact ⟨Char.toNat_inj.mp h.1, h.2⟩
  · omega
  · omega
  · exact ⟨Char.toNat_inj.mp (by omega), h.2.2⟩

theorem codeUnits_of_lt {c : Char} (h : c.toNat < 0x10000) : codeUnits c = [c.toNat] :=
  if_pos h

theorem codeUnits_ne_nil (c : Char) : codeUnits c ≠ [] := by
  unfold codeUnits
  split <;> simp

/-- Different strings have different code units. -/
theorem utf16_injective : Function.Injective utf16 := by
  have hlists : ∀ cs ds : List Char, cs.flatMap codeUnits = ds.flatMap codeUnits →
      cs = ds := by
    intro cs
    induction cs with
    | nil =>
        intro ds h
        cases ds with
        | nil => rfl
        | cons d ds =>
            have hnil := List.append_eq_nil_iff.mp h.symm
            exact absurd hnil.1 (codeUnits_ne_nil d)
    | cons c cs ih =>
        intro ds h
        cases ds with
        | nil =>
            have hnil := List.append_eq_nil_iff.mp h
            exact absurd hnil.1 (codeUnits_ne_nil c)
        | cons d ds =>
            rw [List.flatMap_cons, List.flatMap_cons] at h
            rcases codeUnits_append_inj h with ⟨rfl, hrest⟩
            rw [ih ds hrest]
  intro s t h
  exact String.toList_inj.mp (hlists s.toList t.toList h)

/-- The order in which {lit}`sort` puts strings. -/
def codeUnitLe (s t : String) : Prop :=
  utf16 s ≤ utf16 t

instance : DecidableRel codeUnitLe := fun s t =>
  inferInstanceAs (Decidable (utf16 s ≤ utf16 t))

instance : Std.Total codeUnitLe :=
  ⟨fun s t => le_total (utf16 s) (utf16 t)⟩

instance : IsTrans String codeUnitLe :=
  ⟨fun _ _ _ => le_trans⟩

theorem codeUnitLe_antisymm {s t : String} (hst : codeUnitLe s t) (hts : codeUnitLe t s) :
    s = t :=
  utf16_injective (le_antisymm hst hts)

/-- {lit}`parts.sort()`. -/
def sortStrings (parts : List String) : List String :=
  parts.insertionSort codeUnitLe

theorem sortStrings_perm (parts : List String) : (sortStrings parts).Perm parts :=
  List.perm_insertionSort codeUnitLe parts

/-- Sorting keeps exactly the multiset of the entries. -/
theorem sortStrings_eq_iff {xs ys : List String} :
    sortStrings xs = sortStrings ys ↔ xs.Perm ys := by
  constructor
  · intro h
    exact (sortStrings_perm xs).symm.trans (h ▸ sortStrings_perm ys)
  · intro h
    have hperm : (sortStrings xs).Perm (sortStrings ys) :=
      (sortStrings_perm xs).trans (h.trans (sortStrings_perm ys).symm)
    exact hperm.eq_of_pairwise (fun _ _ _ _ => codeUnitLe_antisymm)
      (List.pairwise_insertionSort codeUnitLe xs) (List.pairwise_insertionSort codeUnitLe ys)

example : join '+' (sortStrings ["b", "a", "b"]) = "a+b+b" := by decide +kernel

end Foundation
end Eleva
