import ThreadCommissioner.BitPolynomials
import ThreadCommissioner.Steering

namespace ThreadCommissioner.Checksums

open BitPolynomials ByteStrings List Polynomial Steering

section Register

variable (poly crc : UInt16)

theorem top_bit : crc &&& 0x8000 ≠ 0 ↔ crc.toNat.testBit 15 = true := by
  have hand : (crc &&& 0x8000).toNat = crc.toNat &&& 2 ^ 15 := UInt16.toNat_and crc 0x8000
  rw [Ne, ← UInt16.toNat_inj, hand, Nat.and_two_pow]
  cases crc.toNat.testBit 15 <;> simp

theorem bitPoly_shift :
    bitPoly (crc <<< (1 : UInt16)).toNat = bitPoly crc.toNat * X + if crc.toNat.testBit 15 then X ^ 16 else 0 := by
  have hshift : (crc <<< (1 : UInt16)).toNat = (crc.toNat <<< 1) % 2 ^ 16 := UInt16.toNat_shiftLeft crc 1
  have hlt : crc.toNat <<< 1 < 2 ^ 17 := by
    have := crc.toNat_lt
    rw [Nat.shiftLeft_eq]
    omega
  have hbit : (crc.toNat <<< 1).testBit 16 = crc.toNat.testBit 15 := by simp [Nat.testBit_shiftLeft]
  rw [hshift, bitPoly_mod_two_pow hlt, bitPoly_shiftLeft, hbit, pow_one]

theorem bitPoly_crcShift : bitPoly (crcShift poly crc).toNat = (bitPoly crc.toNat * X) %ₘ generator 16 poly.toNat := by
  rw [bitPoly_eq_modByMonic_iff poly.toNat_lt (crcShift poly crc).toNat_lt, crcShift]
  by_cases htop : crc.toNat.testBit 15 = true
  · rw [if_pos ((top_bit crc).mpr htop), UInt16.toNat_xor, bitPoly_xor, bitPoly_shift, if_pos htop]
    exact ⟨1, by rw [generator]; ring⟩
  · rw [if_neg (mt (top_bit crc).mp htop), bitPoly_shift, if_neg htop]
    exact ⟨0, by ring⟩

theorem bitPoly_iterate_crcShift (k : ℕ) :
    bitPoly ((crcShift poly)^[k] crc).toNat = (bitPoly crc.toNat * X ^ k) %ₘ generator 16 poly.toNat := by
  induction k with
  | zero => rw [pow_zero, mul_one, bitPoly_modByMonic poly.toNat_lt crc.toNat_lt, Function.iterate_zero, id]
  | succ k ih =>
    rw [Function.iterate_succ_apply', bitPoly_crcShift, ih,
      modByMonic_mul_modByMonic (generator_monic poly.toNat_lt), pow_succ, mul_assoc]

theorem bitPoly_xor_byte (byte : UInt8) :
    bitPoly (crc ^^^ (byte.toUInt16 <<< (8 : UInt16))).toNat = bitPoly crc.toNat + bitPoly byte.toNat * X ^ 8 := by
  have hshift : (byte.toUInt16 <<< (8 : UInt16)).toNat = (byte.toNat <<< 8) % 2 ^ 16 := UInt16.toNat_shiftLeft _ 8
  have hlt : byte.toNat <<< 8 < 2 ^ 16 := by
    have := byte.toNat_lt
    rw [Nat.shiftLeft_eq]
    omega
  rw [UInt16.toNat_xor, bitPoly_xor, hshift, Nat.mod_eq_of_lt hlt, bitPoly_shiftLeft]

end Register

section Messages

/-- The polynomial of a message, its first bit the highest coefficient. -/
noncomputable def messagePoly (bytes : Bytes) : (ZMod 2)[X] := bitPoly (beNat bytes)

theorem messagePoly_cons (byte : UInt8) (bytes : Bytes) :
    messagePoly (byte :: bytes) = bitPoly byte.toNat * X ^ (8 * bytes.length) + messagePoly bytes := by
  have hlt := beNat_lt bytes
  rw [show 256 = 2 ^ 8 by rfl, ← pow_mul] at hlt
  rw [messagePoly, beNat, show 256 = 2 ^ 8 by rfl, ← pow_mul, bitPoly_append _ hlt]
  rfl

theorem messagePoly_append_byte (bytes : Bytes) (byte : UInt8) :
    messagePoly (bytes ++ [byte]) = messagePoly bytes * X ^ 8 + bitPoly byte.toNat := by
  induction bytes with
  | nil => simp [messagePoly, beNat]
  | cons first bytes ih =>
    rw [cons_append, messagePoly_cons, ih, messagePoly_cons, length_append, length_singleton]
    ring

theorem messagePoly_xor {a b : Bytes} (h : a.length = b.length) :
    messagePoly (List.zipWith (· ^^^ ·) a b) = messagePoly a + messagePoly b := by
  induction a generalizing b with
  | nil =>
    obtain rfl := length_eq_zero_iff.mp h.symm
    simp [messagePoly, beNat]
  | cons x a ih =>
    cases b with
    | nil => cases h
    | cons y b =>
      have hlength : a.length = b.length := Nat.succ.inj h
      rw [zipWith_cons_cons, messagePoly_cons, messagePoly_cons, messagePoly_cons, ih hlength,
        length_zipWith, ← hlength, Nat.min_self, UInt8.toNat_xor, bitPoly_xor]
      ring

/-- The register holds the remainder of what was read; by induction on the
bytes, the last of them read last. -/
theorem bitPoly_crc16 (poly : UInt16) (bytes : Bytes) :
    bitPoly (crc16 poly bytes).toNat = (messagePoly bytes * X ^ 16) %ₘ generator 16 poly.toNat := by
  have hmonic := generator_monic (k := 16) poly.toNat_lt
  induction bytes using List.reverseRecOn with
  | nil => simp [messagePoly, beNat, crc16]
  | append_singleton bytes byte ih =>
    have hstep : crc16 poly (bytes ++ [byte]) =
        (crcShift poly)^[8] (crc16 poly bytes ^^^ (byte.toUInt16 <<< (8 : UInt16))) := by
      rw [crc16, foldl_append]
      rfl
    rw [hstep, bitPoly_iterate_crcShift, bitPoly_xor_byte, ih, add_mul, add_modByMonic,
      modByMonic_mul_modByMonic hmonic, ← add_modByMonic, messagePoly_append_byte]
    congr 1
    ring

/-- The checksum is the remainder of the division by its generator, and so it
is linear. -/
theorem crc16_is_the_remainder (poly : UInt16) :
    (∀ m : Bytes, bitPoly (crc16 poly m).toNat = (messagePoly m * X ^ 16) %ₘ (X ^ 16 + bitPoly poly.toNat)) ∧
      ∀ a b : Bytes, a.length = b.length →
        crc16 poly (List.zipWith (· ^^^ ·) a b) = crc16 poly a ^^^ crc16 poly b := by
  refine ⟨bitPoly_crc16 poly, fun a b h => ?_⟩
  have hpoly : bitPoly (crc16 poly (List.zipWith (· ^^^ ·) a b)).toNat =
      bitPoly (crc16 poly a ^^^ crc16 poly b).toNat := by
    rw [UInt16.toNat_xor, bitPoly_xor, bitPoly_crc16, bitPoly_crc16, bitPoly_crc16, messagePoly_xor h, add_mul,
      add_modByMonic]
  exact UInt16.toNat_inj.mp (bitPoly_injective hpoly)

/-- The generator of the CCITT checksum. -/
theorem crc16_is_the_remainder_ccitt :
    crc16 0x1021 (List.zipWith (· ^^^ ·) [0x31, 0x32] [0xff, 0x01]) = crc16 0x1021 [0x31, 0x32] ^^^ crc16 0x1021 [0xff, 0x01] :=
  (crc16_is_the_remainder 0x1021).2 [0x31, 0x32] [0xff, 0x01] rfl

end Messages

end ThreadCommissioner.Checksums
