import Eleva.Foundation.Base32
import Eleva.Auth.SecondFactor

/-!
# Auth - The fallback of the MFA secret

Where the library that draws a secret is missing, the service draws bytes itself and writes them in
base 32.  The loop shifts every byte into a register of 32 bits and never clears it, so that old
bits leave the register at the top; the bits that still wait for a character are the lowest ones.

Main results:

- Definition {lit}`encodeSecret`: the loop.
- Theorem {lit}`pushByte_holds`: a byte keeps the bits that wait, and there are fewer than five.
- Theorem {lit}`encodeSecret_faithful`: the text has no more characters than the bytes need, and is
  read as the bytes.
-/

namespace Eleva
namespace Auth

open Foundation

/-! ## The loop -/

/-- {lit}`value << count` on 32 bits. -/
def shiftLeft32 (value : BitVec 32) (count : ℕ) : BitVec 32 :=
  value <<< (count % 32)

/-- {lit}`value >>> count` on 32 bits. -/
def shiftRight32 (value : BitVec 32) (count : ℕ) : BitVec 32 :=
  value >>> (count % 32)

/-- {lit}`alphabet[value & 31]`. -/
def secretChar (value : BitVec 32) : Char :=
  Base32.digit (value &&& 31).toNat

/-- The variables of the loop. -/
structure SecretEncoder where
  bits : ℕ := 0
  value : BitVec 32 := 0
  output : List Char := []

/-- The inner loop: a character for every five bits that wait. -/
def emitChars (value : BitVec 32) : ℕ → List Char → ℕ × List Char
  | bits + 5, output => emitChars value bits (output ++ [secretChar (shiftRight32 value bits)])
  | bits, output => (bits, output)

/-- The outer loop: one byte. -/
def pushByte (s : SecretEncoder) (byte : UInt8) : SecretEncoder :=
  let value := shiftLeft32 s.value 8 ||| byte.toBitVec.setWidth 32
  let (bits, output) := emitChars value (s.bits + 8) s.output
  { bits, value, output }

/-- The secret of drawn bytes. -/
def encodeSecret (bytes : List UInt8) : String :=
  let s := bytes.foldl pushByte {}
  String.ofList
    (if 0 < s.bits then s.output ++ [secretChar (shiftLeft32 s.value (5 - s.bits))] else s.output)

/-! ## The bits that wait -/

/-- The characters so far and the bits that wait are the bits of the bytes so far. -/
structure SecretEncoder.Holds (s : SecretEncoder) (bytes : List UInt8) : Prop where
  few : s.bits < 5
  written : ∃ done, Base32.textBits s.output = some done ∧
    done ++ Base32.lowBits s.value s.bits = bytes.flatMap Base32.byteBits

/-- A character stands for the five lowest bits. -/
theorem charBits_secretChar (value : BitVec 32) :
    Base32.charBits (secretChar value) = some (Base32.lowBits value 5) := by
  have hnat : (value &&& 31).toNat = value.toNat % 2 ^ 5 := by
    rw [BitVec.toNat_and]
    exact Nat.and_two_pow_sub_one_eq_mod value.toNat 5
  have hlt : (value &&& 31).toNat < 32 := by
    rw [hnat]
    exact Nat.mod_lt _ (by decide)
  unfold secretChar
  rw [Base32.charBits_digit hlt]
  refine congrArg some (Base32.lowBits_congr fun i hi => ?_)
  have hbit : (value.toNat % 2 ^ 5 % 2 ^ 5).testBit i = value.toNat.testBit i := by
    rw [Nat.mod_mod, Nat.testBit_mod_two_pow]
    simp [hi]
  rw [hnat]
  exact hbit

theorem emitChars_add (value : BitVec 32) (bits : ℕ) (output : List Char) :
    emitChars value (bits + 5) output =
      emitChars value bits (output ++ [secretChar (shiftRight32 value bits)]) :=
  rfl

theorem emitChars_of_lt {bits : ℕ} (h : bits < 5) (value : BitVec 32) (output : List Char) :
    emitChars value bits output = (bits, output) := by
  unfold emitChars
  split
  · omega
  · rfl

/-- The inner loop moves the bits that wait into characters, until fewer than five are left. -/
theorem emitChars_written (value : BitVec 32) (bits : ℕ) (hbits : bits ≤ 32) (output : List Char)
    (done : List Bool) (hdone : Base32.textBits output = some done) :
    (emitChars value bits output).1 < 5 ∧
      ∃ done', Base32.textBits (emitChars value bits output).2 = some done' ∧
        done' ++ Base32.lowBits value (emitChars value bits output).1 =
          done ++ Base32.lowBits value bits := by
  induction bits using Nat.strong_induction_on generalizing output done with
  | _ bits ih =>
      by_cases hfew : bits < 5
      · rw [emitChars_of_lt hfew]
        exact ⟨hfew, done, hdone, rfl⟩
      · rcases Nat.exists_eq_add_of_le (Nat.not_lt.mp hfew) with ⟨left, hleft⟩
        rw [Nat.add_comm] at hleft
        subst hleft
        have hcount : left % 32 = left := Nat.mod_eq_of_lt (by omega)
        have hchar := charBits_secretChar (shiftRight32 value left)
        have hnext := Base32.textBits_append hdone (Base32.textBits_singleton hchar)
        have hsplit : Base32.lowBits value (left + 5) =
            Base32.lowBits (shiftRight32 value left) 5 ++ Base32.lowBits value left := by
          unfold shiftRight32
          rw [Nat.add_comm left 5, Base32.lowBits_add, hcount]
        rw [emitChars_add, hsplit, ← List.append_assoc]
        exact ih left (by omega) (by omega) _ _ hnext

/-- A byte goes below the bits that wait. -/
theorem lowBits_pushed (value : BitVec 32) (byte : UInt8) {bits : ℕ} (hbits : bits + 8 ≤ 32) :
    Base32.lowBits (shiftLeft32 value 8 ||| byte.toBitVec.setWidth 32) (bits + 8) =
      Base32.lowBits value bits ++ Base32.byteBits byte := by
  rw [Base32.lowBits_add]
  congr 1
  · refine Base32.lowBits_congr fun i hi => ?_
    have hroom : 8 + i < 32 := by omega
    rw [BitVec.getLsbD_ushiftRight, BitVec.getLsbD_or, shiftLeft32, BitVec.getLsbD_shiftLeft,
      BitVec.getLsbD_setWidth, BitVec.getLsbD_of_ge byte.toBitVec _ (by omega)]
    simp only [hroom, decide_true, Bool.true_and, Bool.and_false, Bool.or_false]
    simp
  · refine Base32.lowBits_congr fun i hi => ?_
    have hroom : i < 32 := by omega
    rw [BitVec.getLsbD_or, shiftLeft32, BitVec.getLsbD_shiftLeft, BitVec.getLsbD_setWidth]
    simp [hi, hroom]

theorem pushByte_holds {s : SecretEncoder} {bytes : List UInt8} (h : s.Holds bytes)
    (byte : UInt8) : (pushByte s byte).Holds (bytes ++ [byte]) := by
  rcases h.written with ⟨done, hdone, hbits⟩
  have hfew := h.few
  rcases emitChars_written (shiftLeft32 s.value 8 ||| byte.toBitVec.setWidth 32) (s.bits + 8)
    (by omega) s.output done hdone with ⟨hleft, done', hdone', hsame⟩
  refine ⟨hleft, done', hdone', ?_⟩
  calc done' ++ Base32.lowBits _ _
      = done ++ Base32.lowBits (shiftLeft32 s.value 8 ||| byte.toBitVec.setWidth 32)
          (s.bits + 8) := hsame
    _ = done ++ Base32.lowBits s.value s.bits ++ Base32.byteBits byte := by
        rw [lowBits_pushed s.value byte (by omega), List.append_assoc]
    _ = (bytes ++ [byte]).flatMap Base32.byteBits := by
        rw [hbits]
        simp

/-- After all bytes, the characters and the bits that wait are theirs. -/
theorem pushBytes_holds {s : SecretEncoder} {before : List UInt8} (h : s.Holds before)
    (bytes : List UInt8) : (bytes.foldl pushByte s).Holds (before ++ bytes) := by
  induction bytes generalizing s before with
  | nil =>
      rw [List.append_nil]
      exact h
  | cons byte bytes ih =>
      have hnext := ih (pushByte_holds h byte)
      rwa [List.append_assoc] at hnext

theorem emptyEncoder_holds : ({} : SecretEncoder).Holds [] :=
  ⟨by decide, [], rfl, rfl⟩

/-- The last character takes the bits that wait and zeros below them. -/
theorem textBits_encodeSecret (bytes : List UInt8) :
    ∃ padding < 5, Base32.textBits (encodeSecret bytes).toList =
      some (bytes.flatMap Base32.byteBits ++ List.replicate padding false) := by
  have hholds := pushBytes_holds emptyEncoder_holds bytes
  rw [List.nil_append] at hholds
  rcases hholds.written with ⟨done, hdone, hbits⟩
  have hfew := hholds.few
  unfold encodeSecret
  dsimp only
  rw [String.toList_ofList]
  by_cases hwait : 0 < (bytes.foldl pushByte {}).bits
  · rw [if_pos hwait]
    refine ⟨5 - (bytes.foldl pushByte {}).bits, by omega, ?_⟩
    have hchar := charBits_secretChar
      (shiftLeft32 (bytes.foldl pushByte {}).value (5 - (bytes.foldl pushByte {}).bits))
    have hlast : Base32.lowBits (shiftLeft32 (bytes.foldl pushByte {}).value
        (5 - (bytes.foldl pushByte {}).bits)) 5 =
        Base32.lowBits (bytes.foldl pushByte {}).value (bytes.foldl pushByte {}).bits ++
          List.replicate (5 - (bytes.foldl pushByte {}).bits) false := by
      have hcount : (5 - (bytes.foldl pushByte {}).bits) % 32 =
          5 - (bytes.foldl pushByte {}).bits := Nat.mod_eq_of_lt (by omega)
      have hfive : (bytes.foldl pushByte {}).bits + (5 - (bytes.foldl pushByte {}).bits) = 5 := by
        omega
      have hshift := Base32.lowBits_shiftLeft (bytes.foldl pushByte {}).value
        (show (bytes.foldl pushByte {}).bits + (5 - (bytes.foldl pushByte {}).bits) ≤ 32 by omega)
      rw [hfive] at hshift
      unfold shiftLeft32
      rw [hcount]
      exact hshift
    rw [Base32.textBits_append hdone (Base32.textBits_singleton hchar), hlast, ← List.append_assoc,
      hbits]
  · rw [if_neg hwait]
    have hnone : (bytes.foldl pushByte {}).bits = 0 := by omega
    rw [hnone] at hbits
    refine ⟨0, by decide, ?_⟩
    rw [hdone, ← hbits]
    simp [Base32.lowBits]

/-- The secret of any bytes has as many characters as their bits need, all of the alphabet, and is
read as the bytes. -/
theorem encodeSecret_faithful (bytes : List UInt8) :
    (encodeSecret bytes).toList.length = (8 * bytes.length + 4) / 5 ∧
      (∀ c ∈ (encodeSecret bytes).toList, c ∈ Base32.alphabet) ∧
      Base32.decode (encodeSecret bytes).toList = some bytes := by
  rcases textBits_encodeSecret bytes with ⟨padding, hpadding, htext⟩
  exact ⟨Base32.length_of_textBits hpadding htext, (Base32.mem_alphabet_of_textBits htext).1,
    Base32.decode_of_textBits hpadding htext⟩

example : encodeSecret [102, 111, 111, 98, 97, 114] = "MZXW6YTBOI" := by
  decide +kernel

end Auth
end Eleva
