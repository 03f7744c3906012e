import ThreadCommissioner.Schnorr

namespace ThreadCommissioner.EcJpake

open ByteStrings Computations Errors Primitives Schnorr

variable [Suite]

inductive EcJpakeRole
  | client
  | server
  deriving DecidableEq, Repr

def threadClientId : Bytes := ascii "client"

def threadServerId : Bytes := ascii "server"

def EcJpakeRole.threadParticipantId : EcJpakeRole → Bytes
  | .client => threadClientId
  | .server => threadServerId

def EcJpakeRole.peerRole : EcJpakeRole → EcJpakeRole
  | .client => .server
  | .server => .client

structure RoundOne where
  g1 : Bytes
  g2 : Bytes
  proof1 : SchnorrProof
  proof2 : SchnorrProof
  participantId : Bytes
  deriving DecidableEq

structure RoundTwo where
  point : Bytes
  proof : SchnorrProof
  deriving DecidableEq

structure EcJpakeParty where
  role : EcJpakeRole
  participantId : Bytes
  secret : Scalar
  x1 : Scalar
  x2 : Scalar

def EcJpakeParty.newWithRng (rng : Rng) (role : EcJpakeRole) (participantId sharedSecret : Bytes) :
    EcJpakeParty × Rng :=
  let (x1, rng) := randomScalar rng false
  let (x2, rng) := randomScalar rng false
  ({ role, participantId, secret := scalarFromSecret sharedSecret, x1, x2 }, rng)

def EcJpakeParty.newThreadWithRng (rng : Rng) (role : EcJpakeRole) (sharedSecret : Bytes) :
    EcJpakeParty × Rng :=
  EcJpakeParty.newWithRng rng role role.threadParticipantId sharedSecret

/-- The deterministic constructor, whose ephemeral keys the caller supplies. -/
def EcJpakeParty.newWithScalars (role : EcJpakeRole) (participantId sharedSecret : Bytes) (x1 x2 : ByteVector 32) :
    Except DtlsError EcJpakeParty := do
  let x1 ← scalarFromRepr x1
  let x2 ← scalarFromRepr x2
  if x1 = 0 then .error (.crypto "x1/x3 must be nonzero")
  else if x2 = 0 then .error (.crypto "x2/x4 must be nonzero")
  else return { role, participantId, secret := scalarFromSecret sharedSecret, x1, x2 }

def EcJpakeParty.roundOne (party : EcJpakeParty) (rng : Rng) : RoundOne × Rng :=
  let g1 := party.x1 • generator
  let g2 := party.x2 • generator
  let (proof1, rng) := SchnorrProof.generate generator party.x1 g1 party.participantId [] rng
  let (proof2, rng) := SchnorrProof.generate generator party.x2 g2 party.participantId [] rng
  ({ g1 := pointToBytes g1, g2 := pointToBytes g2, proof1, proof2, participantId := party.participantId }, rng)

def verifyRoundOne (peer : RoundOne) : Except DtlsError Unit := do
  let g1 ← pointFromBytes peer.g1
  let g2 ← pointFromBytes peer.g2
  if g2 = 0 then .error (.crypto "peer x2/x4 point must not be identity")
  else
    peer.proof1.verify generator g1 peer.participantId []
    peer.proof2.verify generator g2 peer.participantId []

def EcJpakeParty.secondRoundBase (party : EcJpakeParty) (own peer : RoundOne) (senderRole : EcJpakeRole) :
    Except DtlsError Point := do
  let ownG1 ← pointFromBytes own.g1
  let ownG2 ← pointFromBytes own.g2
  let peerG1 ← pointFromBytes peer.g1
  let peerG2 ← pointFromBytes peer.g2
  return match party.role, senderRole with
    | .client, .client => ownG1 + peerG1 + peerG2
    | .client, .server => ownG1 + ownG2 + peerG1
    | .server, .server => peerG1 + peerG2 + ownG1
    | .server, .client => peerG1 + ownG1 + ownG2

/-- The message sent once the second-round generator is known. -/
def EcJpakeParty.secondRound (party : EcJpakeParty) (base : Point) (rng : Rng) : RoundTwo × Rng :=
  let exponent := party.x2 * party.secret
  let point := exponent • base
  let (proof, rng) := SchnorrProof.generate base exponent point party.participantId [] rng
  ({ point := pointToBytes point, proof }, rng)

def EcJpakeParty.roundTwo (party : EcJpakeParty) (own peer : RoundOne) (rng : Rng) :
    Except DtlsError (RoundTwo × Rng) := do
  verifyRoundOne peer
  let base ← party.secondRoundBase own peer party.role
  if base = 0 then .error (.crypto "second-round generator is identity")
  else return party.secondRound base rng

/-- The shared point of `finish`, before the check that it is not the identity. -/
def EcJpakeParty.sharedPoint (party : EcJpakeParty) (own peer : RoundOne) (peerTwo : RoundTwo) :
    Except DtlsError Point := do
  verifyRoundOne peer
  let peerBase ← party.secondRoundBase own peer party.role.peerRole
  let peerPoint ← pointFromBytes peerTwo.point
  peerTwo.proof.verify peerBase peerPoint peer.participantId []
  let peerX2Point ← pointFromBytes peer.g2
  let exponent := party.x2 * party.secret
  return party.x2 • (peerPoint - exponent • peerX2Point)

def pointXBytes (point : Point) : Except DtlsError Bytes :=
  if !Suite.isEncodedPoint (pointToBytes point) then .error (.crypto "invalid SEC1 point encoding")
  else
    match Suite.xCoordinate (pointToBytes point) with
    | none => .error (.crypto "SEC1 point has no X coordinate")
    | some x => .ok x

def EcJpakeParty.finish (party : EcJpakeParty) (own peer : RoundOne) (peerTwo : RoundTwo) :
    Except DtlsError (ByteVector 32) := do
  let shared ← party.sharedPoint own peer peerTwo
  if shared = 0 then .error (.crypto "derived J-PAKE point is identity")
  else return sha256 (← pointXBytes shared)

def EcJpakeParty.Constructed (party : EcJpakeParty) : Prop :=
  (∃ rng role participantId sharedSecret,
      party = (EcJpakeParty.newWithRng rng role participantId sharedSecret).1) ∨
    ∃ role participantId sharedSecret x1 x2,
      EcJpakeParty.newWithScalars role participantId sharedSecret x1 x2 = .ok party

variable {party : EcJpakeParty} {k : Scalar} {own peer : RoundOne}

theorem EcJpakeParty.Constructed.ne_zero (h : party.Constructed) : party.x1 ≠ 0 ∧ party.x2 ≠ 0 ∧ party.secret ≠ 0 := by
  rcases h with ⟨rng, role, participantId, sharedSecret, rfl⟩ | ⟨role, participantId, sharedSecret, b1, b2, h⟩
  · exact ⟨randomScalar_ne_zero _, randomScalar_ne_zero _, scalarFromSecret_ne_zero _⟩
  · obtain ⟨x1, h1, h⟩ := bind_ok.mp h
    obtain ⟨x2, h2, h⟩ := bind_ok.mp h
    split at h
    · cases h
    · split at h
      · cases h
      · next hx1 hx2 =>
        cases h
        exact ⟨hx1, hx2, scalarFromSecret_ne_zero _⟩

/-- The first-round message publishes the two ephemeral keys `a` and `b`. -/
def RoundOne.Discloses (message : RoundOne) (a b : Scalar) : Prop :=
  message.g1 = pointToBytes (a • generator) ∧ message.g2 = pointToBytes (b • generator)

def baseScalar (role senderRole : EcJpakeRole) (ownX1 ownX2 peerX1 peerX2 : Scalar) : Scalar :=
  match role, senderRole with
  | .client, .client => ownX1 + peerX1 + peerX2
  | .client, .server => ownX1 + ownX2 + peerX1
  | .server, .server => peerX1 + peerX2 + ownX1
  | .server, .client => peerX1 + ownX1 + ownX2

theorem roundOne_discloses (party : EcJpakeParty) (rng : Rng) :
    (party.roundOne rng).1.Discloses party.x1 party.x2 := ⟨rfl, rfl⟩

theorem smul_generator_ne_zero (hk : k ≠ 0) : k • (generator : Point) ≠ 0 := smul_ne_zero hk generator_ne_zero

theorem smul_generator_inj {l : Scalar} : k • (generator : Point) = l • generator ↔ k = l := by
  constructor
  · intro h
    rw [← sub_eq_zero, ← sub_smul] at h
    by_contra hkl
    exact smul_generator_ne_zero (sub_ne_zero.mpr hkl) h
  · intro h
    rw [h]

theorem eq_of_disclosed {p : Point} (h : pointFromBytes (pointToBytes (k • generator)) = .ok p) :
    p = k • generator := (eq_of_pointFromBytes h).1

theorem secondRoundBase_eq {a b c d : Scalar} {senderRole : EcJpakeRole} {base : Point} (ho : own.Discloses a b)
    (hp : peer.Discloses c d) (h : party.secondRoundBase own peer senderRole = .ok base) :
    base = baseScalar party.role senderRole a b c d • generator := by
  obtain ⟨ownG1, h1, h⟩ := bind_ok.mp h
  obtain ⟨ownG2, h2, h⟩ := bind_ok.mp h
  obtain ⟨peerG1, h3, h⟩ := bind_ok.mp h
  obtain ⟨peerG2, h4, h⟩ := bind_ok.mp h
  rw [ho.1] at h1
  rw [ho.2] at h2
  rw [hp.1] at h3
  rw [hp.2] at h4
  cases eq_of_disclosed h1
  cases eq_of_disclosed h2
  cases eq_of_disclosed h3
  cases eq_of_disclosed h4
  rw [← Except.ok.inj h]
  cases party.role <;> cases senderRole <;> simp only [baseScalar, add_smul]

theorem secondRoundBase_of_ne_zero (party : EcJpakeParty) {a b c d : Scalar} (ho : own.Discloses a b)
    (hp : peer.Discloses c d) (ha : a ≠ 0) (hb : b ≠ 0) (hc : c ≠ 0) (hd : d ≠ 0) (senderRole : EcJpakeRole) :
    party.secondRoundBase own peer senderRole = .ok (baseScalar party.role senderRole a b c d • generator) := by
  rw [EcJpakeParty.secondRoundBase, ho.1, ho.2, hp.1, hp.2, pointFromBytes_pointToBytes (smul_generator_ne_zero ha), ok_bind,
    pointFromBytes_pointToBytes (smul_generator_ne_zero hb), ok_bind,
    pointFromBytes_pointToBytes (smul_generator_ne_zero hc), ok_bind,
    pointFromBytes_pointToBytes (smul_generator_ne_zero hd), ok_bind]
  cases party.role <;> cases senderRole <;> simp only [baseScalar, add_smul] <;> rfl

theorem verifyRoundOne_roundOne (h1 : party.x1 ≠ 0) (h2 : party.x2 ≠ 0) (rng : Rng) :
    verifyRoundOne (party.roundOne rng).1 = .ok () := by
  have hg1 := smul_generator_ne_zero h1
  have hg2 := smul_generator_ne_zero h2
  rw [verifyRoundOne]
  dsimp only [EcJpakeParty.roundOne]
  rw [pointFromBytes_pointToBytes hg1, ok_bind, pointFromBytes_pointToBytes hg2, ok_bind,
    if_neg hg2, SchnorrProof.verify_generate generator_ne_zero hg1, ok_bind,
    SchnorrProof.verify_generate generator_ne_zero hg2]

theorem roundTwo_eq_ok {rng rng' : Rng} {two : RoundTwo} (h : party.roundTwo own peer rng = .ok (two, rng')) :
    ∃ base, verifyRoundOne peer = .ok () ∧ party.secondRoundBase own peer party.role = .ok base ∧
      base ≠ 0 ∧ party.secondRound base rng = (two, rng') := by
  obtain ⟨⟨⟩, hv, h⟩ := bind_ok.mp h
  obtain ⟨base, hb, h⟩ := bind_ok.mp h
  split at h
  · cases h
  · next hne => exact ⟨base, hv, hb, hne, Except.ok.inj h⟩

theorem roundTwo_of_ok {base : Point} (hv : verifyRoundOne peer = .ok ())
    (hb : party.secondRoundBase own peer party.role = .ok base) (hne : base ≠ 0) (rng : Rng) :
    party.roundTwo own peer rng = .ok (party.secondRound base rng) := by
  rw [EcJpakeParty.roundTwo, hv, ok_bind, hb, ok_bind, if_neg hne]
  rfl

theorem sharedPoint_eq_ok {two : RoundTwo} {shared : Point} : party.sharedPoint own peer two = .ok shared ↔
      ∃ base point peerX2, verifyRoundOne peer = .ok () ∧
        party.secondRoundBase own peer party.role.peerRole = .ok base ∧ pointFromBytes two.point = .ok point ∧
        two.proof.verify base point peer.participantId [] = .ok () ∧ pointFromBytes peer.g2 = .ok peerX2 ∧
        shared = party.x2 • (point - (party.x2 * party.secret) • peerX2) := by
  constructor
  · intro h
    obtain ⟨⟨⟩, hv, h⟩ := bind_ok.mp h
    obtain ⟨base, hb, h⟩ := bind_ok.mp h
    obtain ⟨point, hp, h⟩ := bind_ok.mp h
    obtain ⟨⟨⟩, hz, h⟩ := bind_ok.mp h
    obtain ⟨peerX2, hx, h⟩ := bind_ok.mp h
    exact ⟨base, point, peerX2, hv, hb, hp, hz, hx, (Except.ok.inj h).symm⟩
  · rintro ⟨base, point, peerX2, hv, hb, hp, hz, hx, rfl⟩
    rw [EcJpakeParty.sharedPoint, hv, ok_bind, hb, ok_bind, hp, ok_bind, hz, ok_bind, hx, ok_bind]
    rfl

end ThreadCommissioner.EcJpake
