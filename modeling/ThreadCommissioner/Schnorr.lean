import ThreadCommissioner.Computations
import ThreadCommissioner.Errors
import ThreadCommissioner.Residues

namespace ThreadCommissioner.Schnorr

open ByteStrings Computations Errors Primitives Residues

section Proofs

variable [Suite]

def scalarBytes (k : Scalar) : ByteVector 32 := ⟨beBytes 32 k.val, length_beBytes 32 _⟩

def scalarFromRepr (bytes : ByteVector 32) : Except DtlsError Scalar :=
  if beNat bytes.toList < Suite.order then .ok (beNat bytes.toList : Scalar)
  else .error (.crypto "invalid scalar representation")

def reduceBytes (bytes : ByteVector 32) : Scalar := (beNat bytes.toList : Scalar)

/-- Secrets of up to 32 bytes are right-aligned, longer ones are hashed. -/
def secretBytes (secret : Bytes) : ByteVector 32 :=
  if h : secret.length ≤ 32 then ⟨List.replicate (32 - secret.length) 0 ++ secret, by simp; omega⟩
  else sha256 secret

def scalarFromSecret (secret : Bytes) : Scalar :=
  let scalar := reduceBytes (secretBytes secret)
  if scalar = 0 then 1 else scalar

def pointFromBytes (bytes : Bytes) : Except DtlsError Point :=
  if !Suite.isEncodedPoint bytes then .error (.crypto "invalid SEC1 point encoding")
  else
    match Suite.fromEncodedPoint bytes with
    | none => .error (.crypto "point is not on P-256")
    | some point => if point = 0 then .error (.crypto "identity point is not allowed") else .ok point

def pointToBytes (point : Point) : Bytes := Suite.toEncodedPoint point

def hashItem (item : Bytes) : Bytes := beBytes 4 item.length ++ item

def challengeScalar (base v publicPoint : Point) (proverId otherInfo : Bytes) : Scalar :=
  reduceBytes (sha256 (hashItem (pointToBytes base) ++ hashItem (pointToBytes v) ++
    hashItem (pointToBytes publicPoint) ++ hashItem proverId ++
    if otherInfo.isEmpty then [] else hashItem otherInfo))

structure SchnorrProof where
  v : Bytes
  r : ByteVector 32
  proverId : Bytes
  deriving DecidableEq

def SchnorrProof.generate (base : Point) (privateScalar : Scalar) (publicPoint : Point)
    (proverId otherInfo : Bytes) (rng : Rng) : SchnorrProof × Rng :=
  let (vScalar, rng) := randomScalar rng false
  let vPoint := vScalar • base
  let challenge := challengeScalar base vPoint publicPoint proverId otherInfo
  ({ v := pointToBytes vPoint, r := scalarBytes (vScalar - privateScalar * challenge), proverId }, rng)

def SchnorrProof.verify (proof : SchnorrProof) (base publicPoint : Point) (expectedProverId otherInfo : Bytes) :
    Except DtlsError Unit :=
  if proof.proverId ≠ expectedProverId then .error (.crypto "Schnorr proof identity mismatch")
  else if publicPoint = 0 then .error (.crypto "Schnorr public point is identity")
  else do
    let vPoint ← pointFromBytes proof.v
    let r ← scalarFromRepr proof.r
    let challenge := challengeScalar base vPoint publicPoint expectedProverId otherInfo
    let expected := r • base + challenge • publicPoint
    if pointToBytes expected ≠ proof.v then .error (.crypto "Schnorr proof verification failed")
    else return ()

theorem scalarFromRepr_scalarBytes (k : Scalar) : scalarFromRepr (scalarBytes k) = .ok k := by
  have hk : k.val < Suite.order := ZMod.val_lt k
  have hb : beNat (scalarBytes k).toList = k.val := beNat_beBytes_of_lt (Nat.lt_of_lt_of_le hk Suite.order_le)
  rw [scalarFromRepr, hb, if_pos hk, ZMod.natCast_zmod_val]

theorem scalarFromSecret_ne_zero (secret : Bytes) : scalarFromSecret secret ≠ 0 := by
  rw [scalarFromSecret]
  split
  · exact one_ne_zero
  · assumption

theorem pointFromBytes_pointToBytes {p : Point} (hp : p ≠ 0) : pointFromBytes (pointToBytes p) = .ok p := by
  rw [pointFromBytes, pointToBytes, Suite.isEncodedPoint_toEncodedPoint, Suite.fromEncodedPoint_toEncodedPoint]
  simp [hp]

theorem eq_of_pointFromBytes {p q : Point} (h : pointFromBytes (pointToBytes p) = .ok q) : q = p ∧ p ≠ 0 := by
  rw [pointFromBytes, pointToBytes, Suite.isEncodedPoint_toEncodedPoint, Suite.fromEncodedPoint_toEncodedPoint] at h
  simp only [Bool.not_true, Bool.false_eq_true, if_false] at h
  split at h
  · cases h
  · next hp => exact ⟨(Except.ok.inj h).symm, hp⟩

theorem response_equation (base : Point) (x v c : Scalar) : (v - x * c) • base + c • (x • base) = v • base := by
  rw [smul_smul, ← add_smul]
  congr 1
  ring

theorem eq_scalarBytes_of_scalarFromRepr {bytes : ByteVector 32} {k : Scalar} (h : scalarFromRepr bytes = .ok k) :
    bytes = scalarBytes k := by
  rw [scalarFromRepr] at h
  split at h
  · next hlt =>
    have hval : k.val = beNat bytes.toList := by
      rw [← Except.ok.inj h]
      exact ZMod.val_cast_of_lt hlt
    apply List.Vector.eq
    change bytes.toList = beBytes 32 k.val
    have hbytes := beBytes_beNat bytes.toList
    rw [bytes.toList_length] at hbytes
    rw [hval, hbytes]
  · cases h

theorem pointToBytes_injective : Function.Injective pointToBytes := by
  intro p q h
  have hdecoded := congrArg Suite.fromEncodedPoint h
  rw [pointToBytes, pointToBytes, Suite.fromEncodedPoint_toEncodedPoint, Suite.fromEncodedPoint_toEncodedPoint] at hdecoded
  exact Option.some.inj hdecoded

/-- Every nonzero scalar is drawn by some source. -/
theorem exists_randomScalar {v : Scalar} (hv : v ≠ 0) : ∃ rng : Rng, (randomScalar rng false).1 = v :=
  ⟨⟨fun _ => padTo 32 [], fun _ => v, fun _ => ⟨0, hv⟩⟩, rfl⟩

section Responses

variable {base : Point} (hbase : base ≠ 0)

include hbase

theorem response_unique {x v c r : Scalar} (h : r • base + c • (x • base) = v • base) : r = v - x * c := by
  rw [← response_equation base x v c] at h
  exact smul_left_injective Scalar hbase (add_right_cancel h)

theorem SchnorrProof.verify_eq_ok {x v : Scalar} (hx : x • base ≠ 0) (hv : v ≠ 0)
    {r : ByteVector 32} {proverId otherInfo : Bytes} :
    (SchnorrProof.mk (pointToBytes (v • base)) r proverId).verify base (x • base) proverId otherInfo = .ok () ↔
      r = scalarBytes (v - x * challengeScalar base (v • base) (x • base) proverId otherInfo) := by
  dsimp only [SchnorrProof.verify]
  rw [if_neg (not_not_intro rfl), if_neg hx, pointFromBytes_pointToBytes (smul_ne_zero hv hbase), ok_bind]
  constructor
  · intro h
    obtain ⟨k, hk, h⟩ := bind_ok.mp h
    split at h
    · cases h
    · next hbytes =>
      have heq := pointToBytes_injective (not_not.mp hbytes)
      rw [eq_scalarBytes_of_scalarFromRepr hk, response_unique hbase heq]
  · rintro rfl
    rw [scalarFromRepr_scalarBytes, ok_bind, response_equation, if_neg (not_not_intro rfl)]
    rfl

theorem SchnorrProof.verify_generate {x : Scalar} (hx : x • base ≠ 0) (proverId otherInfo : Bytes) (rng : Rng) :
    (SchnorrProof.generate base x (x • base) proverId otherInfo rng).1.verify base (x • base)
      proverId otherInfo = .ok () := (verify_eq_ok hbase hx (randomScalar_ne_zero rng)).mpr rfl

end Responses

/-- The proof that is generated over a commitment is the only one that verifies. -/
theorem schnorr_response_is_unique {base : Point} {x v : Scalar} (hbase : base ≠ 0) (hx : x ≠ 0) (hv : v ≠ 0)
    (proverId otherInfo : Bytes) :
    (∃ rng : Rng, (randomScalar rng false).1 = v) ∧
      (∀ rng : Rng, (randomScalar rng false).1 = v →
        (SchnorrProof.generate base x (x • base) proverId otherInfo rng).1.v = pointToBytes (v • base) ∧
        (SchnorrProof.generate base x (x • base) proverId otherInfo rng).1.verify base (x • base)
          proverId otherInfo = .ok ()) ∧
      (∀ r : ByteVector 32,
        (SchnorrProof.mk (pointToBytes (v • base)) r proverId).verify base (x • base) proverId otherInfo = .ok () ↔
          r = scalarBytes (v - x * challengeScalar base (v • base) (x • base) proverId otherInfo)) ∧
      ∀ (proof : SchnorrProof) (base publicPoint : Point) (expectedProverId otherInfo : Bytes),
        proof.proverId ≠ expectedProverId →
        proof.verify base publicPoint expectedProverId otherInfo =
          .error (.crypto "Schnorr proof identity mismatch") := by
  have hpoint := smul_ne_zero hx hbase
  refine ⟨exists_randomScalar hv, fun rng hrng => ⟨?_, SchnorrProof.verify_generate hbase hpoint _ _ rng⟩,
    fun r => SchnorrProof.verify_eq_ok hbase hpoint hv, fun proof base publicPoint expectedProverId otherInfo hid => ?_⟩
  · rw [← hrng]
    rfl
  · rw [SchnorrProof.verify, if_pos hid]

end Proofs

section Witness

attribute [local instance] residues

theorem schnorr_response_is_unique_residues :
    (SchnorrProof.mk (pointToBytes ((3 : Scalar) • generator))
      (scalarBytes (3 - 2 * challengeScalar generator ((3 : Scalar) • generator) ((2 : Scalar) • generator) [1] [])) [1]).verify
        generator ((2 : Scalar) • generator) [1] [] = .ok () ∧
    (SchnorrProof.mk (pointToBytes ((3 : Scalar) • generator)) (scalarBytes 3) [1]).verify
      generator ((2 : Scalar) • generator) [2] [] = .error (.crypto "Schnorr proof identity mismatch") := by
  obtain ⟨-, -, hunique, hidentity⟩ :=
    schnorr_response_is_unique (x := 2) (v := 3) generator_ne_zero (by decide) (by decide) [1] []
  exact ⟨(hunique _).mpr rfl, hidentity _ _ _ _ _ (by decide)⟩

end Witness

end ThreadCommissioner.Schnorr
