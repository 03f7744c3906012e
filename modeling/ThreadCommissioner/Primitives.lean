import Mathlib.Algebra.Field.ZMod
import Mathlib.Algebra.Module.Torsion.Field
import Mathlib.Data.Nat.Find
import ThreadCommissioner.ByteStrings

namespace ThreadCommissioner.Primitives

open ByteStrings

/-- What the program takes from its cryptographic crates: a group of prime
order with its SEC1 encodings, SHA-256, HMAC-SHA-256 and AES-128-CCM-8. The
laws say that SEC1 encoding is invertible and that AES-CCM opens what it
sealed; nothing is assumed about secrecy. -/
class Suite where
  Point : Type
  pointGroup : AddCommGroup Point
  pointDecEq : DecidableEq Point
  order : ℕ
  orderPrime : Fact order.Prime
  order_le : order ≤ 256 ^ 32
  pointModule : Module (ZMod order) Point
  generator : Point
  generator_ne_zero : generator ≠ 0
  isEncodedPoint : Bytes → Bool
  fromEncodedPoint : Bytes → Option Point
  toEncodedPoint : Point → Bytes
  xCoordinate : Bytes → Option Bytes
  isEncodedPoint_toEncodedPoint : ∀ p, isEncodedPoint (toEncodedPoint p) = true
  fromEncodedPoint_toEncodedPoint : ∀ p, fromEncodedPoint (toEncodedPoint p) = some p
  length_toEncodedPoint : ∀ p, p ≠ 0 → (toEncodedPoint p).length = 65
  xCoordinate_toEncodedPoint : ∀ p, p ≠ 0 → (xCoordinate (toEncodedPoint p)).isSome
  sha256 : Bytes → ByteVector 32
  hmacSha256 : Bytes → Bytes → ByteVector 32
  ccmEncrypt : ByteVector 16 → ByteVector 12 → Bytes → Bytes → Option Bytes
  ccmDecrypt : ByteVector 16 → ByteVector 12 → Bytes → Bytes → Option Bytes
  ccmEncrypt_isSome : ∀ key nonce aad plaintext, plaintext.length ≤ 65535 →
    (ccmEncrypt key nonce aad plaintext).isSome
  length_ccmEncrypt : ∀ key nonce aad plaintext ciphertext,
    ccmEncrypt key nonce aad plaintext = some ciphertext → ciphertext.length = plaintext.length + 8
  ccmDecrypt_ccmEncrypt : ∀ key nonce aad plaintext ciphertext,
    ccmEncrypt key nonce aad plaintext = some ciphertext →
      ccmDecrypt key nonce aad ciphertext = some plaintext

export Suite (Point generator generator_ne_zero sha256 hmacSha256)

attribute [reducible, instance] Suite.pointGroup Suite.pointDecEq Suite.pointModule

attribute [instance] Suite.orderPrime

abbrev Scalar [Suite] := ZMod Suite.order

variable [Suite]

/-- A random source as the draws it will deliver. The last field says that
drawing a nonzero scalar by rejection ends. -/
structure Rng where
  bytes : ℕ → ByteVector 32
  scalars : ℕ → Scalar
  nonzero : ∀ n, ∃ k, scalars (n + k) ≠ 0

def fillBytes (rng : Rng) : ByteVector 32 × Rng :=
  (rng.bytes 0, { rng with bytes := fun i => rng.bytes (i + 1) })

def Rng.skip (rng : Rng) (n : ℕ) : Rng where
  bytes := rng.bytes
  scalars i := rng.scalars (n + i)
  nonzero i := by simpa only [Nat.add_assoc] using rng.nonzero (n + i)

def Rng.firstNonzero (rng : Rng) : ℕ := Nat.find (rng.nonzero 0)

/-- The loop draws until a nonzero scalar appears, unless zero is allowed. -/
def randomScalar (rng : Rng) (allowZero : Bool) : Scalar × Rng :=
  if allowZero then (rng.scalars 0, rng.skip 1)
  else (rng.scalars rng.firstNonzero, rng.skip (rng.firstNonzero + 1))

theorem randomScalar_ne_zero (rng : Rng) : (randomScalar rng false).1 ≠ 0 := by
  have h := Nat.find_spec (rng.nonzero 0)
  simpa only [randomScalar, Rng.firstNonzero, Nat.zero_add, Bool.false_eq_true, if_false] using h

end ThreadCommissioner.Primitives
