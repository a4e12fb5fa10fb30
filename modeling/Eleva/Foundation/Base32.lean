import Mathlib.Data.List.GetD
import Mathlib.Data.List.Nodup
import Mathlib.Tactic.Ring

/-!
# Foundation - Unpadded base 32

The bits of a word, the highest first, and the reading of text in the base 32 alphabet: each
character stands for five bits, the bits are cut into octets, and what is left must be fewer than
five bits that are all zero.

Main results:

- Theorem {lit}`Base32.lowBits_add`: the bits of a word split where a shift splits it.
- Theorem {lit}`Base32.decode_of_textBits`: a text whose bits are those of given bytes, followed by
  fewer than five zeros, is read as these bytes.
- Theorem {lit}`Base32.length_of_textBits`: the length of such a text.
-/

namespace Eleva
namespace Foundation
namespace Base32

def alphabet : List Char :=
  "ABCDEFGHIJKLMNOPQRSTUVWXYZ234567".toList

/-! ## Bits of words -/

/-- The lowest bits of a word, the highest first. -/
def lowBits {w : ℕ} (v : BitVec w) : ℕ → List Bool
  | 0 => []
  | k + 1 => v.getLsbD k :: lowBits v k

/-- The number that bits spell, the highest first. -/
def ofBits (bits : List Bool) : ℕ :=
  bits.foldl (fun n b => 2 * n + b.toNat) 0

section Words

variable {w : ℕ} (v : BitVec w)

@[simp]
theorem length_lowBits (k : ℕ) : (lowBits v k).length = k := by
  induction k with
  | zero => rfl
  | succ k ih => simp [lowBits, ih]

/-- The bits of a word are given by its bits. -/
theorem lowBits_congr {w' k : ℕ} {v : BitVec w} {u : BitVec w'}
    (h : ∀ i < k, v.getLsbD i = u.getLsbD i) : lowBits v k = lowBits u k := by
  induction k with
  | zero => rfl
  | succ k ih =>
      have hrest : lowBits v k = lowBits u k := ih fun i hi => h i (by omega)
      simp [lowBits, hrest, h k (by omega)]

/-- A shift to the right drops the lowest bits. -/
theorem lowBits_add (a b : ℕ) : lowBits v (a + b) = lowBits (v >>> b) a ++ lowBits v b := by
  induction a with
  | zero => simp [lowBits]
  | succ a ih =>
      have hindex : a + 1 + b = (a + b) + 1 := by omega
      rw [hindex]
      simp [lowBits, ih, BitVec.getLsbD_ushiftRight, Nat.add_comm b a]

/-- The bits that a shift to the left adds are zeros. -/
theorem lowBits_shiftLeft_low {b k : ℕ} (h : k ≤ b) :
    lowBits (v <<< b) k = List.replicate k false := by
  induction k with
  | zero => rfl
  | succ k ih =>
      have hlow : k < b := by omega
      have hbit : (v <<< b).getLsbD k = false := by
        rw [BitVec.getLsbD_shiftLeft]
        simp [hlow]
      rw [lowBits, hbit, ih (by omega), List.replicate_succ]

/-- A shift to the left adds zeros, where the word has room for them. -/
theorem lowBits_shiftLeft {a b : ℕ} (h : a + b ≤ w) :
    lowBits (v <<< b) (a + b) = lowBits v a ++ List.replicate b false := by
  induction a with
  | zero =>
      rw [Nat.zero_add, lowBits_shiftLeft_low v (Nat.le_refl b)]
      rfl
  | succ a ih =>
      have hindex : a + 1 + b = (a + b) + 1 := by omega
      have hroom : a + b < w := by omega
      have hbit : (v <<< b).getLsbD (a + b) = v.getLsbD a := by
        rw [BitVec.getLsbD_shiftLeft]
        simp only [hroom, decide_true, Bool.true_and, Nat.add_sub_cancel]
        simp
      rw [hindex, lowBits, hbit, ih (by omega)]
      rfl

/-- Reading the bits of a word gives back what the word is below them. -/
theorem ofBits_lowBits (k : ℕ) : ofBits (lowBits v k) = v.toNat % 2 ^ k := by
  have hfold : ∀ k n, (lowBits v k).foldl (fun n b => 2 * n + b.toNat) n =
      n * 2 ^ k + v.toNat % 2 ^ k := by
    intro k
    induction k with
    | zero =>
        intro n
        simp [lowBits, Nat.mod_one]
    | succ k ih =>
        intro n
        have hbit : (v.getLsbD k).toNat = v.toNat / 2 ^ k % 2 :=
          Nat.toNat_testBit v.toNat k
        rw [lowBits, List.foldl_cons, ih, hbit, Nat.mod_pow_succ]
        ring
  have hstart := hfold k 0
  rw [Nat.zero_mul, Nat.zero_add] at hstart
  exact hstart

end Words

/-! ## Octets -/

def byteBits (byte : UInt8) : List Bool :=
  lowBits byte.toBitVec 8

/-- Cut bits into octets. -/
def octets : ℕ → List Bool → List UInt8
  | 0, _ => []
  | n + 1, bits => UInt8.ofNat (ofBits (bits.take 8)) :: octets n (bits.drop 8)

@[simp]
theorem length_byteBits (byte : UInt8) : (byteBits byte).length = 8 :=
  length_lowBits _ 8

theorem length_bytesBits (bytes : List UInt8) :
    (bytes.flatMap byteBits).length = 8 * bytes.length := by
  induction bytes with
  | nil => rfl
  | cons byte bytes ih =>
      simp only [List.flatMap_cons, List.length_append, length_byteBits, ih, List.length_cons]
      omega

theorem ofBits_byteBits (byte : UInt8) : UInt8.ofNat (ofBits (byteBits byte)) = byte := by
  have hlt : byte.toNat < 2 ^ 8 := byte.toNat_lt
  have hbits : ofBits (byteBits byte) = byte.toNat := by
    unfold byteBits
    rw [ofBits_lowBits]
    exact Nat.mod_eq_of_lt hlt
  rw [hbits, UInt8.ofNat_toNat]

/-- The octets of the bits of bytes are the bytes. -/
theorem octets_bytesBits (bytes : List UInt8) (rest : List Bool) :
    octets bytes.length (bytes.flatMap byteBits ++ rest) = bytes := by
  induction bytes with
  | nil => rfl
  | cons byte bytes ih =>
      have htake : (byteBits byte ++ (bytes.flatMap byteBits ++ rest)).take 8 = byteBits byte :=
        List.take_left' (length_byteBits byte)
      have hdrop : (byteBits byte ++ (bytes.flatMap byteBits ++ rest)).drop 8 =
          bytes.flatMap byteBits ++ rest :=
        List.drop_left' (length_byteBits byte)
      simp only [List.flatMap_cons, List.append_assoc, List.length_cons, octets, htake, hdrop,
        ofBits_byteBits, ih]

/-! ## Text -/

/-- The bits that a character stands for. -/
def charBits (c : Char) : Option (List Bool) :=
  (alphabet.idxOf? c).map fun n => lowBits (BitVec.ofNat 5 n) 5

/-- The bits that a text stands for. -/
def textBits : List Char → Option (List Bool)
  | [] => some []
  | c :: cs => (charBits c).bind fun bits => (textBits cs).map fun rest => bits ++ rest

/-- Read a text without padding. -/
def decode (text : List Char) : Option (List UInt8) :=
  (textBits text).bind fun bits =>
    let count := bits.length / 8
    let rest := bits.drop (8 * count)
    if rest.length < 5 && rest.all (fun b => !b) then some (octets count bits) else none

/-- The character of a number below 32. -/
def digit (n : ℕ) : Char :=
  alphabet.getD n 'A'

theorem charBits_digit {n : ℕ} (h : n < 32) :
    charBits (digit n) = some (lowBits (BitVec.ofNat 5 n) 5) := by
  have hall : ∀ k : Fin 32, alphabet.idxOf? (digit k) = some k.val := by decide
  unfold charBits
  rw [hall ⟨n, h⟩]
  rfl

theorem mem_alphabet_of_charBits {c : Char} {bits : List Bool} (h : charBits c = some bits) :
    c ∈ alphabet ∧ bits.length = 5 := by
  rcases Option.map_eq_some_iff.mp h with ⟨n, hindex, rfl⟩
  refine ⟨?_, length_lowBits _ 5⟩
  rcases List.idxOf?_eq_some_iff.mp hindex with ⟨hn, hget, -⟩
  rw [← hget]
  exact List.getElem_mem hn

theorem textBits_append {cs ds : List Char} {bits rest : List Bool}
    (hcs : textBits cs = some bits) (hds : textBits ds = some rest) :
    textBits (cs ++ ds) = some (bits ++ rest) := by
  induction cs generalizing bits with
  | nil =>
      cases hcs
      exact hds
  | cons c cs ih =>
      rcases Option.bind_eq_some_iff.mp hcs with ⟨first, hfirst, hmap⟩
      rcases Option.map_eq_some_iff.mp hmap with ⟨later, hlater, rfl⟩
      simp [textBits, hfirst, ih hlater]

theorem textBits_singleton {c : Char} {bits : List Bool} (h : charBits c = some bits) :
    textBits [c] = some bits := by
  simp [textBits, h]

/-- A text that stands for bits is written in the alphabet, five bits a character. -/
theorem mem_alphabet_of_textBits {cs : List Char} {bits : List Bool}
    (h : textBits cs = some bits) : (∀ c ∈ cs, c ∈ alphabet) ∧ bits.length = 5 * cs.length := by
  induction cs generalizing bits with
  | nil =>
      cases h
      simp
  | cons c cs ih =>
      rcases Option.bind_eq_some_iff.mp h with ⟨first, hfirst, hmap⟩
      rcases Option.map_eq_some_iff.mp hmap with ⟨later, hlater, rfl⟩
      rcases mem_alphabet_of_charBits hfirst with ⟨hc, hlength⟩
      rcases ih hlater with ⟨hcs, hlengths⟩
      constructor
      · intro d hd
        rcases List.mem_cons.mp hd with rfl | hd
        · exact hc
        · exact hcs d hd
      · simp only [List.length_append, List.length_cons]
        omega

section Bytes

variable {text : List Char} {bytes : List UInt8} {padding : ℕ}

/-- The bits of bytes and fewer than five zeros are read as the bytes. -/
theorem decode_of_textBits (hpadding : padding < 5)
    (h : textBits text = some (bytes.flatMap byteBits ++ List.replicate padding false)) :
    decode text = some bytes := by
  have hlength : (bytes.flatMap byteBits ++ List.replicate padding false).length =
      8 * bytes.length + padding := by
    rw [List.length_append, length_bytesBits, List.length_replicate]
  have hcount : (8 * bytes.length + padding) / 8 = bytes.length := by omega
  have hrest : (bytes.flatMap byteBits ++ List.replicate padding false).drop (8 * bytes.length) =
      List.replicate padding false :=
    List.drop_left' (length_bytesBits bytes)
  unfold decode
  rw [h]
  simp [hlength, hcount, hrest, hpadding, octets_bytesBits]

/-- Such a text has no more characters than its bits need. -/
theorem length_of_textBits (hpadding : padding < 5)
    (h : textBits text = some (bytes.flatMap byteBits ++ List.replicate padding false)) :
    text.length = (8 * bytes.length + 4) / 5 := by
  have hlength := (mem_alphabet_of_textBits h).2
  simp only [List.length_append, length_bytesBits, List.length_replicate] at hlength
  omega

end Bytes

end Base32
end Foundation
end Eleva
