import Mathlib.Data.Vector.Basic
import Mathlib.Tactic.Positivity
import Mathlib.Tactic.Ring

namespace ThreadCommissioner.ByteStrings

open List

abbrev Bytes := List UInt8

abbrev ByteVector (n : ℕ) := List.Vector UInt8 n

def ascii (s : String) : Bytes := s.toUTF8.data.toList

/-- The big-endian bytes of the low `8 * width` bits of a number. -/
def beBytes : ℕ → ℕ → Bytes
  | 0, _ => []
  | width + 1, n => UInt8.ofNat (n / 256 ^ width) :: beBytes width n

def beNat : Bytes → ℕ
  | [] => 0
  | b :: bs => b.toNat * 256 ^ bs.length + beNat bs

@[simp] theorem length_beBytes (width n : ℕ) : (beBytes width n).length = width := by
  induction width with
  | zero => rfl
  | succ width ih => simp [beBytes, ih]

theorem beNat_beBytes (width n : ℕ) : beNat (beBytes width n) = n % 256 ^ width := by
  induction width with
  | zero => simp [beBytes, beNat, Nat.mod_one]
  | succ width ih =>
    have hs : n % 256 ^ (width + 1) = n % 256 ^ width + 256 ^ width * (n / 256 ^ width % 256) := by
      rw [pow_succ, Nat.mod_mul]
    rw [beBytes, beNat, length_beBytes, ih, UInt8.toNat_ofNat', hs]
    ring

theorem beNat_beBytes_of_lt {width n : ℕ} (h : n < 256 ^ width) : beNat (beBytes width n) = n := by
  rw [beNat_beBytes, Nat.mod_eq_of_lt h]

theorem beNat_lt (bs : Bytes) : beNat bs < 256 ^ bs.length := by
  induction bs with
  | nil => simp [beNat]
  | cons b bs ih =>
    have hb : b.toNat ≤ 255 := by have := b.toNat_lt; omega
    have hm := Nat.mul_le_mul_right (256 ^ bs.length) hb
    rw [beNat, length_cons, pow_succ]
    omega

theorem beBytes_add_mul (width n k : ℕ) : beBytes width (k * 256 ^ width + n) = beBytes width n := by
  induction width generalizing k with
  | zero => rfl
  | succ width ih =>
    have hp : 0 < 256 ^ width := by positivity
    have hd : (k * 256 ^ (width + 1) + n) / 256 ^ width = k * 256 + n / 256 ^ width := by
      rw [pow_succ, show k * (256 ^ width * 256) + n = n + 256 ^ width * (k * 256) by ring,
        Nat.add_mul_div_left _ _ hp, Nat.add_comm]
    rw [beBytes, beBytes, hd, pow_succ, show k * (256 ^ width * 256) = k * 256 * 256 ^ width by ring, ih]
    congr 1
    apply UInt8.toNat_inj.mp
    simp [UInt8.toNat_ofNat']

theorem beBytes_beNat (bs : Bytes) : beBytes bs.length (beNat bs) = bs := by
  induction bs with
  | nil => rfl
  | cons b bs ih =>
    have hd : (b.toNat * 256 ^ bs.length + beNat bs) / 256 ^ bs.length = b.toNat := by
      rw [Nat.add_comm, Nat.add_mul_div_right _ _ (by positivity), Nat.div_eq_of_lt (beNat_lt bs), Nat.zero_add]
    rw [length_cons, beBytes, beNat, hd, beBytes_add_mul, ih, UInt8.ofNat_toNat]

theorem beBytes_inj {width m n : ℕ} (hm : m < 256 ^ width) (hn : n < 256 ^ width) :
    beBytes width m = beBytes width n ↔ m = n := by
  refine ⟨fun h => ?_, fun h => h ▸ rfl⟩
  rw [← beNat_beBytes_of_lt hm, h, beNat_beBytes_of_lt hn]

@[simp] theorem uint16_ofNat_beBytes (x : UInt16) : UInt16.ofNat (beNat (beBytes 2 x.toNat)) = x := by
  rw [beNat_beBytes_of_lt x.toNat_lt, UInt16.ofNat_toNat]

def slice {n : ℕ} (v : ByteVector n) (start len : ℕ) (h : start + len ≤ n) : ByteVector len :=
  ⟨(v.toList.drop start).take len, by simp only [List.length_take, List.length_drop, v.toList_length]; omega⟩

section Fields

variable {start width : ℕ} {bytes : Bytes}

def fieldAt (start width : ℕ) (bytes : Bytes) : Bytes := (bytes.drop start).take width

theorem fieldAt_append (start width : ℕ) (bytes : Bytes) :
    fieldAt start width bytes ++ bytes.drop (start + width) = bytes.drop start := by
  rw [fieldAt, ← drop_drop, take_append_drop]

theorem length_fieldAt (h : start + width ≤ bytes.length) : (fieldAt start width bytes).length = width := by
  rw [fieldAt, length_take, length_drop]
  omega

theorem beNat_fieldAt_lt (h : start + width ≤ bytes.length) : beNat (fieldAt start width bytes) < 256 ^ width := by
  have hlt := beNat_lt (fieldAt start width bytes)
  rwa [length_fieldAt h] at hlt

theorem beBytes_fieldAt (h : start + width ≤ bytes.length) :
    beBytes width (beNat (fieldAt start width bytes)) = fieldAt start width bytes := by
  have hbytes := beBytes_beNat (fieldAt start width bytes)
  rwa [length_fieldAt h] at hbytes

theorem beBytes_fieldAt_uint16 (h : start + 2 ≤ bytes.length) :
    beBytes 2 (UInt16.ofNat (beNat (fieldAt start 2 bytes))).toNat = fieldAt start 2 bytes := by
  rw [UInt16.toNat_ofNat_of_lt' (beNat_fieldAt_lt h), beBytes_fieldAt h]

theorem headD_cons_drop (h : bytes ≠ []) : bytes.headD 0 :: bytes.drop 1 = bytes := by
  cases bytes with
  | nil => exact absurd rfl h
  | cons b bytes => rfl

end Fields

end ThreadCommissioner.ByteStrings
