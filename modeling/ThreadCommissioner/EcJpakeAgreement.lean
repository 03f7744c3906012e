import Mathlib.Tactic.LinearCombination
import ThreadCommissioner.EcJpake

namespace ThreadCommissioner.EcJpakeAgreement

open EcJpake Primitives Residues Schnorr

section Agreement

variable [Suite]

theorem sharedPoint_of_roundTwo {party peer : EcJpakeParty} {own peerOne : RoundOne} {two : RoundTwo}
    {rng rng' : Rng} {shared : Point} (ho : own.Discloses party.x1 party.x2)
    (hp : peerOne.Discloses peer.x1 peer.x2) (htwo : peer.roundTwo peerOne own rng = .ok (two, rng'))
    (h : party.sharedPoint own peerOne two = .ok shared) : shared = (party.x2 * peer.x2 *
      (baseScalar peer.role peer.role peer.x1 peer.x2 party.x1 party.x2 * peer.secret -
        party.x2 * party.secret)) • generator := by
  obtain ⟨base, -, hb, -, hsecond⟩ := roundTwo_eq_ok htwo
  obtain ⟨peerBase, point, peerX2, -, -, hpoint, -, hx2, rfl⟩ := sharedPoint_eq_ok.mp h
  cases secondRoundBase_eq hp ho hb
  have htwo : two.point = pointToBytes ((peer.x2 * peer.secret) •
      (baseScalar peer.role peer.role peer.x1 peer.x2 party.x1 party.x2 • generator)) :=
    (congrArg (fun m => m.1.point) hsecond).symm
  rw [htwo] at hpoint
  rw [hp.2] at hx2
  rw [(eq_of_pointFromBytes hpoint).1, eq_of_disclosed hx2, smul_smul, smul_smul, ← sub_smul, smul_smul]
  congr 1
  ring

theorem baseScalar_peerRole (role : EcJpakeRole) (a b c d : Scalar) :
    baseScalar role role.peerRole a b c d = baseScalar role.peerRole role.peerRole c d a b := by
  cases role <;> simp only [baseScalar, EcJpakeRole.peerRole]

section Honest

variable (party : EcJpakeParty) {peer : EcJpakeParty} {own peerOne : RoundOne} {rngOne : Rng}

theorem roundTwo_honest (hx1 : party.x1 ≠ 0) (hx2 : party.x2 ≠ 0) (hy1 : peer.x1 ≠ 0) (hy2 : peer.x2 ≠ 0)
    (ho : own.Discloses party.x1 party.x2) (hp : peerOne = (peer.roundOne rngOne).1)
    (hb : baseScalar party.role party.role party.x1 party.x2 peer.x1 peer.x2 ≠ 0) (rng : Rng) :
    party.roundTwo own peerOne rng = .ok (party.secondRound
      (baseScalar party.role party.role party.x1 party.x2 peer.x1 peer.x2 • generator) rng) := by
  subst hp
  exact roundTwo_of_ok (verifyRoundOne_roundOne hy1 hy2 rngOne)
    (secondRoundBase_of_ne_zero party ho (roundOne_discloses peer rngOne) hx1 hx2 hy1 hy2 party.role)
    (smul_generator_ne_zero hb) rng

theorem sharedPoint_honest (hx1 : party.x1 ≠ 0) (hx2 : party.x2 ≠ 0) (hy1 : peer.x1 ≠ 0) (hy2 : peer.x2 ≠ 0)
    (ho : own.Discloses party.x1 party.x2) (hp : peerOne = (peer.roundOne rngOne).1)
    (hrole : peer.role = party.role.peerRole) (hsecret : peer.secret ≠ 0)
    (hb : baseScalar peer.role peer.role peer.x1 peer.x2 party.x1 party.x2 ≠ 0) (rng : Rng) :
    party.sharedPoint own peerOne (peer.secondRound
        (baseScalar peer.role peer.role peer.x1 peer.x2 party.x1 party.x2 • generator) rng).1 = .ok ((party.x2 * peer.x2 *
        (baseScalar peer.role peer.role peer.x1 peer.x2 party.x1 party.x2 * peer.secret -
          party.x2 * party.secret)) • generator) := by
  subst hp
  have hbase := smul_generator_ne_zero hb
  have hpoint := smul_ne_zero (mul_ne_zero hy2 hsecret) hbase
  refine sharedPoint_eq_ok.mpr ⟨_, _, peer.x2 • generator, verifyRoundOne_roundOne hy1 hy2 rngOne,
    secondRoundBase_of_ne_zero party ho (roundOne_discloses peer rngOne) hx1 hx2 hy1 hy2 _,
    pointFromBytes_pointToBytes hpoint, ?_, pointFromBytes_pointToBytes (smul_generator_ne_zero hy2), ?_⟩
  · rw [baseScalar_peerRole, ← hrole]
    exact SchnorrProof.verify_generate hbase hpoint peer.participantId [] rng
  · rw [smul_smul, smul_smul, ← sub_smul, smul_smul]
    congr 1
    ring

end Honest

theorem sharedPoints_agree_iff {client server : EcJpakeParty} {clientOne serverOne : RoundOne}
    {clientTwo serverTwo : RoundTwo} {rngC rngC' rngS rngS' rng1 rng2 : Rng} {clientPoint serverPoint : Point}
    (hc : client.role = .client) (hs : server.role = .server)
    (hx2 : client.x2 ≠ 0) (hx4 : server.x2 ≠ 0)
    (hc1 : clientOne = (client.roundOne rng1).1) (hs1 : serverOne = (server.roundOne rng2).1)
    (hc2 : client.roundTwo clientOne serverOne rngC = .ok (clientTwo, rngC'))
    (hs2 : server.roundTwo serverOne clientOne rngS = .ok (serverTwo, rngS'))
    (hcp : client.sharedPoint clientOne serverOne serverTwo = .ok clientPoint)
    (hsp : server.sharedPoint serverOne clientOne clientTwo = .ok serverPoint) :
    clientPoint = (client.x2 * server.x2 *
        ((client.x1 + client.x2 + server.x1) * server.secret - client.x2 * client.secret)) • generator ∧
      serverPoint = (client.x2 * server.x2 *
        ((client.x1 + server.x1 + server.x2) * client.secret - server.x2 * server.secret)) • generator ∧
      (clientPoint = serverPoint ↔
        client.secret = server.secret ∨ client.x1 + client.x2 + server.x1 + server.x2 = 0) := by
  have hdc : clientOne.Discloses client.x1 client.x2 := hc1 ▸ roundOne_discloses client rng1
  have hds : serverOne.Discloses server.x1 server.x2 := hs1 ▸ roundOne_discloses server rng2
  have h1 := sharedPoint_of_roundTwo hdc hds hs2 hcp
  have h2 := sharedPoint_of_roundTwo hds hdc hc2 hsp
  rw [hs] at h1
  rw [hc] at h2
  simp only [baseScalar] at h1 h2
  rw [mul_comm server.x2 client.x2] at h2
  refine ⟨h1, h2, ?_⟩
  rw [h1, h2, smul_generator_inj, mul_right_inj' (mul_ne_zero hx2 hx4)]
  have hsum : (client.x1 + client.x2 + server.x1) * server.secret - client.x2 * client.secret =
        (client.x1 + server.x1 + server.x2) * client.secret - server.x2 * server.secret ↔
      (client.x1 + client.x2 + server.x1 + server.x2) * (client.secret - server.secret) = 0 := by
    constructor
    · intro h
      linear_combination -h
    · intro h
      linear_combination -h
  rw [hsum, mul_eq_zero, sub_eq_zero, or_comm]

end Agreement

section Witness

attribute [local instance] residues

def residueParty (role : EcJpakeRole) (secret : ZMod 7) : EcJpakeParty := ⟨role, [], secret, 1, 1⟩

def residueRoundOne (role : EcJpakeRole) (secret : ZMod 7) : RoundOne :=
  ((residueParty role secret).roundOne (residueRng [])).1

def residueRoundTwo (role : EcJpakeRole) (secret : ZMod 7) : RoundTwo × Rng :=
  (residueParty role secret).secondRound ((3 : ZMod 7) • (1 : ZMod 7)) (residueRng [])

theorem sharedPoints_disagree_residues : ∃ clientPoint serverPoint : Point,
    (residueParty .client 2).sharedPoint (residueRoundOne .client 2) (residueRoundOne .server 3)
      (residueRoundTwo .server 3).1 = .ok clientPoint ∧
    (residueParty .server 3).sharedPoint (residueRoundOne .server 3) (residueRoundOne .client 2)
      (residueRoundTwo .client 2).1 = .ok serverPoint ∧ clientPoint ≠ serverPoint := by
  have h1 : (1 : ZMod 7) ≠ 0 := by decide
  have h2 : (2 : ZMod 7) ≠ 0 := by decide
  have h3 : (3 : ZMod 7) ≠ 0 := by decide
  have hdc : (residueRoundOne .client 2).Discloses 1 1 := roundOne_discloses _ _
  have hds : (residueRoundOne .server 3).Discloses 1 1 := roundOne_discloses _ _
  have hc1 : residueRoundOne .client 2 = ((residueParty .client 2).roundOne (residueRng [])).1 := rfl
  have hs1 : residueRoundOne .server 3 = ((residueParty .server 3).roundOne (residueRng [])).1 := rfl
  have hc := sharedPoint_honest (residueParty .client 2) h1 h1 h1 h1 hdc hs1 rfl h3 h3 (residueRng [])
  have hs := sharedPoint_honest (residueParty .server 3) h1 h1 h1 h1 hds hc1 rfl h2 h3 (residueRng [])
  have hct := roundTwo_honest (residueParty .client 2) h1 h1 h1 h1 hdc hs1 h3 (residueRng [])
  have hst := roundTwo_honest (residueParty .server 3) h1 h1 h1 h1 hds hc1 h3 (residueRng [])
  refine ⟨_, _, hc, hs, fun h => ?_⟩
  obtain ⟨-, -, hiff⟩ := sharedPoints_agree_iff rfl rfl h1 h1 hc1 hs1 hct hst hc hs
  exact absurd (hiff.mp h) (by decide)

end Witness

end ThreadCommissioner.EcJpakeAgreement
