import Mathlib.Algebra.Field.ZMod
import Mathlib.Algebra.Polynomial.Monic
import Mathlib.Algebra.Polynomial.RingDivision
import Mathlib.Data.Nat.Bitwise
import Mathlib.Tactic.LinearCombination

namespace ThreadCommissioner.BitPolynomials

open Polynomial

section Bits

/-- The polynomial over GF(2) whose coefficients are the bits of a number. -/
noncomputable def bitPoly (n : ℕ) : (ZMod 2)[X] := ∑ i ∈ Finset.range n, if n.testBit i then X ^ i else 0

theorem coeff_bitPoly (n i : ℕ) : (bitPoly n).coeff i = if n.testBit i then 1 else 0 := by
  have hterm : ∀ j, (if n.testBit j then (X : (ZMod 2)[X]) ^ j else 0).coeff i =
      if j = i then (if n.testBit i then 1 else 0) else 0 := by
    intro j
    by_cases hj : j = i
    · subst hj
      by_cases hbit : n.testBit j <;> simp [hbit]
    · by_cases hbit : n.testBit j <;> simp [hbit, hj, coeff_X_pow, Ne.symm hj]
  rw [bitPoly, finsetSum_coeff, Finset.sum_congr rfl fun j _ => hterm j, Finset.sum_ite_eq']
  split
  · rfl
  · next hi =>
    have hlt : n < 2 ^ i := Nat.lt_of_le_of_lt (by simpa using hi) Nat.lt_two_pow_self
    rw [Nat.testBit_lt_two_pow hlt]
    rfl

theorem bitPoly_injective : Function.Injective bitPoly := by
  intro m n h
  refine Nat.eq_of_testBit_eq fun i => ?_
  have hi := congrArg (fun p => p.coeff i) h
  simp only [coeff_bitPoly] at hi
  cases hm : m.testBit i <;> cases hn : n.testBit i <;> simp_all

@[simp] theorem bitPoly_zero : bitPoly 0 = 0 := rfl

theorem bitPoly_xor (m n : ℕ) : bitPoly (m ^^^ n) = bitPoly m + bitPoly n := by
  have htwo : (1 : ZMod 2) + 1 = 0 := by decide
  ext i
  rw [coeff_add, coeff_bitPoly, coeff_bitPoly, coeff_bitPoly, Nat.testBit_xor]
  cases m.testBit i <;> cases n.testBit i <;> simp [htwo]

theorem bitPoly_shiftLeft (n k : ℕ) : bitPoly (n <<< k) = bitPoly n * X ^ k := by
  ext i
  rw [coeff_mul_X_pow', coeff_bitPoly, coeff_bitPoly, Nat.testBit_shiftLeft]
  by_cases h : k ≤ i <;> simp [h]

theorem degree_bitPoly_lt {n k : ℕ} (h : n < 2 ^ k) : (bitPoly n).degree < k := by
  rw [degree_lt_iff_coeff_zero]
  intro i hi
  have hlt : n < 2 ^ i := Nat.lt_of_lt_of_le h (Nat.pow_le_pow_right (by omega) hi)
  rw [coeff_bitPoly, Nat.testBit_lt_two_pow hlt]
  rfl

theorem bitPoly_append {n k : ℕ} (m : ℕ) (h : n < 2 ^ k) : bitPoly (m * 2 ^ k + n) = bitPoly m * X ^ k + bitPoly n := by
  have hor : m * 2 ^ k + n = m <<< k ^^^ n := by
    refine Nat.eq_of_testBit_eq fun i => ?_
    rw [Nat.mul_comm, Nat.testBit_two_pow_mul_add _ h, Nat.testBit_xor, Nat.testBit_shiftLeft]
    by_cases hi : i < k
    · simp [hi, Nat.not_le.mpr hi]
    · have hlt : n < 2 ^ i := Nat.lt_of_lt_of_le h (Nat.pow_le_pow_right (by omega) (Nat.le_of_not_lt hi))
      simp [hi, Nat.le_of_not_lt hi, Nat.testBit_lt_two_pow hlt]
  rw [hor, bitPoly_xor, bitPoly_shiftLeft]

/-- The bit that a register of `k` bits loses. -/
theorem bitPoly_mod_two_pow {n k : ℕ} (h : n < 2 ^ (k + 1)) :
    bitPoly (n % 2 ^ k) = bitPoly n + if n.testBit k then X ^ k else 0 := by
  have htwo : (1 : ZMod 2) + 1 = 0 := by decide
  ext i
  rw [coeff_add, coeff_bitPoly, coeff_bitPoly, Nat.testBit_mod_two_pow]
  rcases Nat.lt_trichotomy i k with hi | rfl | hi
  · cases n.testBit k <;> simp [hi, coeff_X_pow, hi.ne]
  · cases n.testBit i <;> simp [htwo]
  · have hlt : n < 2 ^ i := Nat.lt_of_lt_of_le h (Nat.pow_le_pow_right (by omega) hi)
    cases n.testBit k <;> simp [Nat.testBit_lt_two_pow hlt, coeff_X_pow, hi.ne']

end Bits

section Division

variable {R : Type} [CommRing R] {g : R[X]}

theorem modByMonic_mul_modByMonic (hg : g.Monic) (p q : R[X]) : (p %ₘ g * q) %ₘ g = (p * q) %ₘ g := by
  refine modByMonic_eq_of_dvd_sub hg ?_
  have hdivision := modByMonic_add_div p g
  refine ⟨-(p /ₘ g * q), ?_⟩
  linear_combination q * hdivision

variable {poly : ℕ} {k : ℕ}

/-- A generator of degree `k`, of which `poly` holds the other coefficients. -/
noncomputable def generator (k poly : ℕ) : (ZMod 2)[X] := X ^ k + bitPoly poly

variable (h : poly < 2 ^ k)

include h

theorem generator_monic : (generator k poly).Monic := monic_X_pow_add (degree_bitPoly_lt h)

theorem degree_generator : (generator k poly).degree = k := by
  rw [generator, degree_add_eq_left_of_degree_lt (by rw [degree_X_pow]; exact degree_bitPoly_lt h), degree_X_pow]

theorem bitPoly_modByMonic {n : ℕ} (hn : n < 2 ^ k) : bitPoly n %ₘ generator k poly = bitPoly n := by
  rw [modByMonic_eq_self_iff (generator_monic h), degree_generator h]
  exact degree_bitPoly_lt hn

theorem bitPoly_eq_modByMonic_iff {n : ℕ} (hn : n < 2 ^ k) {p : (ZMod 2)[X]} :
    bitPoly n = p %ₘ generator k poly ↔ generator k poly ∣ bitPoly n - p := by
  rw [← modByMonic_eq_zero_iff_dvd (generator_monic h), sub_modByMonic, bitPoly_modByMonic h hn, sub_eq_zero]

end Division

end ThreadCommissioner.BitPolynomials
