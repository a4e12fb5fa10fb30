import Eleva.Foundation.Keys
import Mathlib.Data.List.GetD
import Mathlib.Data.List.Nodup

/-!
# Foundation - Hexadecimal text

Bytes as lower-case hexadecimal text, and the lenient reading of such text from its UTF-16 code
units: of every unit only the low byte is looked at, two of these make a byte, as digits in either
case, and the first pair that is not hexadecimal ends the reading.

Main results:

- Theorem {lit}`Hex.decode_eq_iff`: the code units that are read as given bytes.
- Theorem {lit}`Hex.decode_encode`: the text of bytes is read as these bytes.
-/

namespace Eleva
namespace Foundation
namespace Hex

def digits : List Char :=
  "0123456789abcdef".toList

def digit (n : ℕ) : Char :=
  digits.getD n '0'

def encodeByte (b : UInt8) : List Char :=
  [digit (b.toNat / 16), digit (b.toNat % 16)]

/-- The text of bytes. -/
def encode (bytes : List UInt8) : List Char :=
  bytes.flatMap encodeByte

/-- The character that a code unit is taken for: that of its low byte, in lower case. -/
def letter (unit : ℕ) : Char :=
  (Char.ofNat (unit % 256)).toLower

/-- The value of a digit. -/
def unhex (unit : ℕ) : Option ℕ :=
  digits.idxOf? (letter unit)

/-- Read code units pair by pair, up to the first pair that is not hexadecimal. -/
def decode : List ℕ → List UInt8
  | a :: b :: rest =>
      match unhex a, unhex b with
      | some high, some low => UInt8.ofNat (16 * high + low) :: decode rest
      | _, _ => []
  | _ => []

/-- The code units go on with two digits. -/
def startsWithPair : List ℕ → Bool
  | a :: b :: _ => (unhex a).isSome && (unhex b).isSome
  | _ => false

/-! ## Digits -/

theorem digits_nodup : digits.Nodup := by
  decide

theorem unhex_eq_some {unit n : ℕ} : unhex unit = some n ↔ n < 16 ∧ letter unit = digit n := by
  have hgetD : ∀ h : n < digits.length, digit n = digits[n] :=
    fun h => List.getD_eq_getElem digits '0' h
  unfold unhex
  rw [List.idxOf?_eq_some_iff]
  constructor
  · rintro ⟨hlength, hget, -⟩
    exact ⟨hlength, by rw [hgetD hlength, hget]⟩
  · rintro ⟨hlength, hc⟩
    refine ⟨hlength, by rw [hc, hgetD hlength], fun m hm hget => ?_⟩
    have hsame := hget.trans (hc.trans (hgetD hlength))
    have := (List.Nodup.getElem_inj_iff digits_nodup).mp hsame
    omega

theorem letter_digit {n : ℕ} (h : n < 16) : letter (digit n).toNat = digit n := by
  have hall : ∀ k : Fin 16, letter (digit k).toNat = digit k := by decide
  exact hall ⟨n, h⟩

theorem digit_lt {n : ℕ} (h : n < 16) : (digit n).toNat < 0x10000 := by
  have hall : ∀ k : Fin 16, (digit k).toNat < 0x10000 := by decide
  exact hall ⟨n, h⟩

/-- Two digits make a byte. -/
theorem ofNat_eq_iff {high low : ℕ} (hhigh : high < 16) (hlow : low < 16) (b : UInt8) :
    UInt8.ofNat (16 * high + low) = b ↔ high = b.toNat / 16 ∧ low = b.toNat % 16 := by
  have hsmall : (UInt8.ofNat (16 * high + low)).toNat = 16 * high + low :=
    UInt8.toNat_ofNat_of_lt' (by rw [UInt8.size]; omega)
  constructor
  · rintro rfl
    rw [hsmall]
    omega
  · rintro ⟨rfl, rfl⟩
    exact UInt8.toNat_inj.mp (hsmall.trans (by omega))

/-! ## Reading -/

theorem decode_cons_cons (a b : ℕ) (rest : List ℕ) :
    decode (a :: b :: rest) =
      match unhex a, unhex b with
      | some high, some low => UInt8.ofNat (16 * high + low) :: decode rest
      | _, _ => [] := by
  exact rfl

theorem decode_pair {a b high low : ℕ} (ha : unhex a = some high) (hb : unhex b = some low)
    (rest : List ℕ) :
    decode (a :: b :: rest) = UInt8.ofNat (16 * high + low) :: decode rest := by
  rw [decode_cons_cons, ha, hb]

theorem decode_eq_nil_iff (units : List ℕ) :
    decode units = [] ↔ startsWithPair units = false := by
  match units with
  | [] => exact ⟨fun _ => rfl, fun _ => rfl⟩
  | [a] => exact ⟨fun _ => rfl, fun _ => rfl⟩
  | a :: b :: rest =>
      rw [decode_cons_cons, startsWithPair]
      cases unhex a <;> cases unhex b <;> simp

theorem encode_cons (b : UInt8) (bytes : List UInt8) :
    encode (b :: bytes) = digit (b.toNat / 16) :: digit (b.toNat % 16) :: encode bytes :=
  rfl

/-- Code units that are read as a first byte begin with its digits. -/
theorem decode_eq_cons {units : List ℕ} {b : UInt8} {bytes : List UInt8} :
    decode units = b :: bytes ↔
      ∃ x y rest, units = x :: y :: rest ∧ letter x = digit (b.toNat / 16) ∧
        letter y = digit (b.toNat % 16) ∧ decode rest = bytes := by
  have hbyte := b.toNat_lt
  constructor
  · intro h
    match units with
    | [] => cases h
    | [_] => cases h
    | x :: y :: rest =>
        cases hx : unhex x with
        | none =>
            rw [decode_cons_cons, hx] at h
            cases h
        | some high =>
            cases hy : unhex y with
            | none =>
                rw [decode_cons_cons, hx, hy] at h
                cases h
            | some low =>
                rw [decode_pair hx hy] at h
                rcases List.cons.inj h with ⟨hb, hrest⟩
                rcases unhex_eq_some.mp hx with ⟨hhigh, hxlow⟩
                rcases unhex_eq_some.mp hy with ⟨hlow, hylow⟩
                rcases (ofNat_eq_iff hhigh hlow b).mp hb with ⟨rfl, rfl⟩
                exact ⟨x, y, rest, rfl, hxlow, hylow, hrest⟩
  · rintro ⟨x, y, rest, rfl, hx, hy, rfl⟩
    have hhigh : b.toNat / 16 < 16 := by omega
    have hlow : b.toNat % 16 < 16 := by omega
    rw [decode_pair (unhex_eq_some.mpr ⟨hhigh, hx⟩) (unhex_eq_some.mpr ⟨hlow, hy⟩),
      (ofNat_eq_iff hhigh hlow b).mpr ⟨rfl, rfl⟩]

/-- The code units that are read as given bytes: they are taken for the digits of the bytes, and
then there is no further pair of digits. -/
theorem decode_eq_iff (units : List ℕ) (bytes : List UInt8) :
    decode units = bytes ↔
      ∃ spelled rest, units = spelled ++ rest ∧ spelled.map letter = encode bytes ∧
        startsWithPair rest = false := by
  induction bytes generalizing units with
  | nil =>
      rw [decode_eq_nil_iff]
      constructor
      · exact fun h => ⟨[], units, rfl, rfl, h⟩
      · rintro ⟨spelled, rest, rfl, hspelled, hrest⟩
        rw [List.map_eq_nil_iff.mp hspelled]
        exact hrest
  | cons b bytes ih =>
      rw [decode_eq_cons]
      constructor
      · rintro ⟨x, y, units, rfl, hx, hy, hunits⟩
        rcases (ih units).mp hunits with ⟨spelled, rest, rfl, hspelled, hrest⟩
        refine ⟨x :: y :: spelled, rest, rfl, ?_, hrest⟩
        rw [List.map_cons, List.map_cons, hx, hy, hspelled, encode_cons]
      · rintro ⟨spelled, rest, rfl, hspelled, hrest⟩
        rw [encode_cons] at hspelled
        match spelled with
        | [] => exact absurd (congrArg List.length hspelled) (by simp)
        | [_] => exact absurd (congrArg List.length hspelled) (by simp)
        | x :: y :: spelled =>
            rcases List.cons.inj hspelled with ⟨hx, htail⟩
            rcases List.cons.inj htail with ⟨hy, hspelled⟩
            have hunits := (ih (spelled ++ rest)).mpr ⟨spelled, rest, rfl, hspelled, hrest⟩
            exact ⟨x, y, spelled ++ rest, rfl, hx, hy, hunits⟩

/-! ## The text of bytes -/

theorem letters_encode (bytes : List UInt8) :
    ((encode bytes).flatMap codeUnits).map letter = encode bytes := by
  induction bytes with
  | nil => rfl
  | cons b bytes ih =>
      have hbyte := b.toNat_lt
      have hhigh : b.toNat / 16 < 16 := by omega
      have hlow : b.toNat % 16 < 16 := by omega
      rw [encode_cons, List.flatMap_cons, List.flatMap_cons, codeUnits_of_lt (digit_lt hhigh),
        codeUnits_of_lt (digit_lt hlow)]
      simp only [List.cons_append, List.nil_append, List.map_cons, ih, letter_digit hhigh,
        letter_digit hlow]

/-- The text of bytes is read as these bytes. -/
theorem decode_encode (bytes : List UInt8) :
    decode (utf16 (String.ofList (encode bytes))) = bytes := by
  unfold utf16
  rw [String.toList_ofList, decode_eq_iff]
  exact ⟨_, [], (List.append_nil _).symm, letters_encode bytes, rfl⟩

end Hex

end Foundation
end Eleva
