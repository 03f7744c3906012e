import Mathlib.Tactic.NormNum.Prime
import ThreadCommissioner.Primitives

namespace ThreadCommissioner.Residues

open ByteStrings Primitives

def padTo (n : ℕ) (bs : Bytes) : ByteVector n := ⟨(bs ++ List.replicate n 0).take n, by simp⟩

def encodeResidue (p : ZMod 7) : Bytes := if p = 0 then [0] else 4 :: beBytes 64 p.val

def decodeResidue (bs : Bytes) : Option (ZMod 7) :=
  if bs = [0] then some 0 else if bs.length = 65 then some (beNat bs.tail : ZMod 7) else none

def tag : Bytes := List.replicate 8 0

theorem decodeResidue_encodeResidue (p : ZMod 7) : decodeResidue (encodeResidue p) = some p := by
  have hp : p.val < 256 ^ 64 := Nat.lt_of_lt_of_le (ZMod.val_lt p) (by decide)
  rw [decodeResidue, encodeResidue]
  by_cases h : p = 0
  · simp [h]
  · simp [h, beNat_beBytes_of_lt hp]

/-- The residues modulo seven with invertible but entirely insecure
companions: the laws asked of a suite can be met. -/
@[reducible] def residues : Suite where
  Point := ZMod 7
  pointGroup := inferInstance
  pointDecEq := inferInstance
  order := 7
  orderPrime := ⟨by norm_num⟩
  order_le := by decide
  pointModule := inferInstance
  generator := 1
  generator_ne_zero := by decide
  isEncodedPoint _ := true
  fromEncodedPoint := decodeResidue
  toEncodedPoint := encodeResidue
  xCoordinate bs := if bs.length = 65 then some (bs.drop 33) else none
  isEncodedPoint_toEncodedPoint _ := rfl
  fromEncodedPoint_toEncodedPoint := decodeResidue_encodeResidue
  length_toEncodedPoint p hp := by simp [encodeResidue, hp]
  xCoordinate_toEncodedPoint p hp := by simp [encodeResidue, hp]
  sha256 := padTo 32
  hmacSha256 _ := padTo 32
  ccmEncrypt _ _ _ plaintext := some (plaintext ++ tag)
  ccmDecrypt _ _ _ ciphertext :=
    if tag.isSuffixOf ciphertext then some (ciphertext.take (ciphertext.length - 8)) else none
  ccmEncrypt_isSome _ _ _ _ _ := rfl
  length_ccmEncrypt _ _ _ plaintext ciphertext h := by
    rw [← Option.some.inj h]
    simp [tag]
  ccmDecrypt_ccmEncrypt _ _ _ plaintext ciphertext h := by
    rw [← Option.some.inj h, if_pos (by simp)]
    simp [tag]

/-- A source that delivers the listed scalars and then ones. -/
def residueRng (scalars : List (ZMod 7)) : @Rng residues :=
  letI := residues
  { bytes := fun i => padTo 32 [UInt8.ofNat i]
    scalars := fun i => scalars.getD i 1
    nonzero := fun n => ⟨scalars.length, by
      have h : scalars.getD (n + scalars.length) 1 = 1 := by simp
      change scalars.getD (n + scalars.length) 1 ≠ 0
      rw [h]
      decide⟩ }

end ThreadCommissioner.Residues
