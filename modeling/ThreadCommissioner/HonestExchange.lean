import ThreadCommissioner.ClientHandshake
import ThreadCommissioner.EcJpakeAgreement
import ThreadCommissioner.ServerHandshake

namespace ThreadCommissioner.HonestExchange

open ByteStrings ClientHandshake Computations EcJpake EcJpakeAgreement EcJpakeCodec HandshakeMessages List
  Hellos KeySchedule Primitives Schnorr ServerHandshake

theorem keyExchange_short {payload : Bytes} (h : payload.length ≤ 168) (messageType : HandshakeType)
    (seq : UInt16) : (HandshakeMessage.mk messageType seq payload).Short := Nat.le_trans h (by decide)

variable [Suite]

/-- A party and the first message it sends, as the constructors make them. -/
structure Honest (party : EcJpakeParty) (one : RoundOne) (role : EcJpakeRole) (sharedSecret : Bytes) : Prop where
  plays : party.role = role
  participant : party.participantId = role.threadParticipantId
  secret : party.secret = scalarFromSecret sharedSecret
  x1 : party.x1 ≠ 0
  x2 : party.x2 ≠ 0
  one : ∃ rng, one = (party.roundOne rng).1

theorem honest_client (pskc : Bytes) (rng : Rng) :
    Honest (ThreadDtlsHandshake.new pskc rng).1.ecjpake (ThreadDtlsHandshake.new pskc rng).1.clientRoundOne
      .client pskc := ⟨rfl, rfl, rfl, randomScalar_ne_zero _, randomScalar_ne_zero _, _, rfl⟩

theorem honest_server (secret : Bytes) (rng : Rng) : Honest (ThreadDtlsServerHandshake.new secret rng).1.ecjpake
      (ThreadDtlsServerHandshake.new secret rng).1.serverRoundOne .server secret :=
  ⟨rfl, rfl, rfl, randomScalar_ne_zero _, randomScalar_ne_zero _, _, rfl⟩

/-- The draws for which no base point and no shared point is the identity. -/
structure Matched (client server : EcJpakeParty) : Prop where
  shared : client.x1 + server.x1 ≠ 0
  serverBase : client.x1 + client.x2 + server.x1 ≠ 0
  clientBase : client.x1 + server.x1 + server.x2 ≠ 0

def baseOf (party peer : EcJpakeParty) : Point :=
  baseScalar party.role party.role party.x1 party.x2 peer.x1 peer.x2 • generator

def roundTwoOf (party peer : EcJpakeParty) (rng : Rng) : RoundTwo × Rng :=
  party.secondRound (baseOf party peer) rng

section FirstRound

variable {party : EcJpakeParty} {one : RoundOne} {role : EcJpakeRole} {secret : Bytes}
  (h : Honest party one role secret)

include h

theorem Honest.discloses : one.Discloses party.x1 party.x2 := by
  obtain ⟨rng, rfl⟩ := h.one
  exact roundOne_discloses party rng

theorem Honest.wellFormed : WellFormed one := by
  obtain ⟨rng, rfl⟩ := h.one
  exact roundOne_wellFormed h.x1 h.x2 rng

theorem Honest.encodeTlsKkpp : encodeTlsKkpp one = .ok (kkppBytes one) := (encodeTlsKkpp_of_wellFormed h.wellFormed).1

theorem Honest.length_kkpp : (kkppBytes one).length ≤ 330 := (encodeTlsKkpp_of_wellFormed h.wellFormed).2

theorem Honest.decodeTlsKkpp : decodeTlsKkpp (kkppBytes one) role.threadParticipantId = .ok one := by
  have hw := h.wellFormed
  obtain ⟨rng, rfl⟩ := h.one
  have hid : (party.roundOne rng).1.participantId = role.threadParticipantId := h.participant
  rw [← hid]
  exact decodeTlsKkpp_of_verified hw (verifyRoundOne_roundOne h.x1 h.x2 rng)

theorem Honest.exponent_ne_zero : party.x2 * party.secret ≠ 0 := by
  rw [h.secret]
  exact mul_ne_zero h.x2 (scalarFromSecret_ne_zero _)

end FirstRound

section SecondRound

theorem finish_of_sharedPoint {party : EcJpakeParty} {own peer : RoundOne} {two : RoundTwo} {shared : Point}
    (h : party.sharedPoint own peer two = .ok shared) (hne : shared ≠ 0) :
    party.finish own peer two = (pointXBytes shared).map sha256 := by
  rw [EcJpakeParty.finish, h, ok_bind, if_neg hne]
  cases pointXBytes shared <;> rfl

theorem exists_pointXBytes {p : Point} (h : p ≠ 0) : ∃ x, pointXBytes p = .ok x := by
  obtain ⟨x, hx⟩ := Option.isSome_iff_exists.mp (Suite.xCoordinate_toEncodedPoint p h)
  refine ⟨x, ?_⟩
  rw [pointXBytes, pointToBytes, Suite.isEncodedPoint_toEncodedPoint, if_neg (by simp), hx]

variable {client server : EcJpakeParty} {clientOne serverOne : RoundOne} {secret : Bytes} (hm : Matched client server)

include hm

theorem Matched.clientBase_ne_zero (hc : Honest client clientOne .client secret) : baseOf client server ≠ 0 := by
  rw [baseOf, hc.plays]
  exact smul_generator_ne_zero hm.clientBase

theorem Matched.serverBase_ne_zero (hs : Honest server serverOne .server secret) : baseOf server client ≠ 0 := by
  rw [baseOf, hs.plays]
  exact smul_generator_ne_zero hm.serverBase

theorem Matched.client_roundTwo (hc : Honest client clientOne .client secret)
    (hs : Honest server serverOne .server secret) (rng : Rng) :
    client.roundTwo clientOne serverOne rng = .ok (roundTwoOf client server rng) := by
  obtain ⟨rngOne, hone⟩ := hs.one
  refine roundTwo_honest client hc.x1 hc.x2 hs.x1 hs.x2 hc.discloses hone ?_ rng
  rw [hc.plays]
  exact hm.clientBase

theorem Matched.server_roundTwo (hc : Honest client clientOne .client secret)
    (hs : Honest server serverOne .server secret) (rng : Rng) :
    server.roundTwo serverOne clientOne rng = .ok (roundTwoOf server client rng) := by
  obtain ⟨rngOne, hone⟩ := hc.one
  refine roundTwo_honest server hs.x1 hs.x2 hc.x1 hc.x2 hs.discloses hone ?_ rng
  rw [hs.plays]
  exact hm.serverBase

theorem Matched.exists_preMasterSecret
    (hc : Honest client clientOne .client secret) (hs : Honest server serverOne .server secret) :
    ∃ secret : ByteVector 32, (∀ rng, client.finish clientOne serverOne (roundTwoOf server client rng).1 = .ok secret) ∧
      ∀ rng, server.finish serverOne clientOne (roundTwoOf client server rng).1 = .ok secret := by
  let shared : Point := (client.x2 * server.x2 * ((client.x1 + server.x1) * client.secret)) • generator
  have hsecret : client.secret ≠ 0 := hc.secret ▸ scalarFromSecret_ne_zero _
  have hsame : server.secret = client.secret := hs.secret.trans hc.secret.symm
  have hne : shared ≠ 0 := smul_generator_ne_zero (mul_ne_zero (mul_ne_zero hc.x2 hs.x2) (mul_ne_zero hm.shared hsecret))
  obtain ⟨rngC, hone⟩ := hc.one
  obtain ⟨rngS, hone'⟩ := hs.one
  have hclient (rng : Rng) :
      client.sharedPoint clientOne serverOne (roundTwoOf server client rng).1 = .ok shared := by
    refine (sharedPoint_honest client hc.x1 hc.x2 hs.x1 hs.x2 hc.discloses hone'
      (by rw [hs.plays, hc.plays]; rfl) (hsame ▸ hsecret) (by rw [hs.plays]; exact hm.serverBase) rng).trans ?_
    rw [hs.plays, baseScalar, hsame]
    congr 2
    ring
  have hserver (rng : Rng) :
      server.sharedPoint serverOne clientOne (roundTwoOf client server rng).1 = .ok shared := by
    refine (sharedPoint_honest server hs.x1 hs.x2 hc.x1 hc.x2 hs.discloses hone
      (by rw [hs.plays, hc.plays]; rfl) hsecret (by rw [hc.plays]; exact hm.clientBase) rng).trans ?_
    rw [hc.plays, baseScalar, hsame]
    congr 2
    ring
  obtain ⟨x, hx⟩ := exists_pointXBytes hne
  refine ⟨sha256 x, fun rng => ?_, fun rng => ?_⟩
  · rw [finish_of_sharedPoint (hclient rng) hne, hx]
    rfl
  · rw [finish_of_sharedPoint (hserver rng) hne, hx]
    rfl

end SecondRound

/-- Two handshakes over one secret whose draws match. Recording messages and
learning from the peer change neither the parties nor their first messages. -/
structure Pair (client : ThreadDtlsHandshake) (server : ThreadDtlsServerHandshake) (sharedSecret : Bytes) :
    Prop where
  honestClient : Honest client.ecjpake client.clientRoundOne .client sharedSecret
  honestServer : Honest server.ecjpake server.serverRoundOne .server sharedSecret
  matched : Matched client.ecjpake server.ecjpake

def helloMessage (client : ThreadDtlsHandshake) (messageSeq : UInt16) (cookie : Bytes) : HandshakeMessage :=
  ⟨.clientHello, messageSeq, (ClientHello.threadProfileWithEcjpake client.clientRandom cookie
    (kkppBytes client.clientRoundOne)).bytes⟩

def serverHelloMessage (server : ThreadDtlsServerHandshake) : HandshakeMessage :=
  ⟨.serverHello, 1, (server.serverHello (kkppBytes server.serverRoundOne)).bytes⟩

def serverKeyExchangeMessage (client server : EcJpakeParty) (rng : Rng) : HandshakeMessage :=
  ⟨.serverKeyExchange, 2, keyExchangeBytes (roundTwoOf server client rng).1 true⟩

def serverHelloDoneMessage : HandshakeMessage := ⟨.serverHelloDone, 3, []⟩

def clientKeyExchangeMessage (client server : EcJpakeParty) (messageSeq : UInt16) (rng : Rng) : HandshakeMessage :=
  ⟨.clientKeyExchange, messageSeq, keyExchangeBytes (roundTwoOf client server rng).1 false⟩

section Messages

variable {client : ThreadDtlsHandshake} {server : ThreadDtlsServerHandshake} {secret : Bytes}

theorem Honest.helloMessage_short (hc : Honest client.ecjpake client.clientRoundOne .client secret)
    {cookie : Bytes} (hcookie : cookie.length ≤ 255) (seq : UInt16) : (helloMessage client seq cookie).Short := by
  have hk := hc.length_kkpp
  rw [HandshakeMessage.Short, helloMessage, length_threadProfileWithEcjpake]
  omega

theorem Honest.handleClientHello (hc : Honest client.ecjpake client.clientRoundOne .client secret)
    {cookie : Bytes} (hcookie : cookie.length ≤ 255) (seq : UInt16) (server : ThreadDtlsServerHandshake) :
    (handleClientHello (helloMessage client seq cookie)).run server =
      .ok (.threadProfileWithEcjpake client.clientRandom cookie (kkppBytes client.clientRoundOne))
        (ThreadDtlsServerHandshake.record { server with
          clientRoundOne := some client.clientRoundOne
          clientRandom := some client.clientRandom } (helloMessage client seq cookie)) := by
  have hfits : (ClientHello.threadProfileWithEcjpake client.clientRandom cookie
      (kkppBytes client.clientRoundOne)).Fits := threadProfileWithEcjpake_fits hcookie (hc.length_kkpp.trans (by decide))
  exact handleClientHello_eq_ok.mpr ⟨rfl, ClientHello.decode_bytes hfits, .head _, .head _, _, _, rfl,
    hc.decodeTlsKkpp, (hc.helloMessage_short hcookie seq).fits, rfl⟩

section ServerHello

variable (hs : Honest server.ecjpake server.serverRoundOne .server secret)

include hs

theorem Honest.serverHello_fits : ExtensionsFit (server.serverHello (kkppBytes server.serverRoundOne)).extensions := by
  have hk := hs.length_kkpp
  refine ⟨?_, ?_⟩
  · simp only [ThreadDtlsServerHandshake.serverHello, ecPointFormatsExtension, forall_mem_cons, length_cons, length_nil]
    exact ⟨by omega, by decide, forall_mem_nil _⟩
  · simp only [ThreadDtlsServerHandshake.serverHello, ecPointFormatsExtension, TlsExtension.bytes,
      flatMap_cons, flatMap_nil, length_append, length_beBytes, length_cons, length_nil]
    omega

theorem Honest.serverHelloMessage_short : (serverHelloMessage server).Short := by
  have hk := hs.length_kkpp
  simp only [HandshakeMessage.Short, serverHelloMessage, ServerHello.bytes,
    ThreadDtlsServerHandshake.serverHello, ecPointFormatsExtension, extensionBlock, TlsExtension.bytes,
    flatMap_cons, flatMap_nil, length_append, length_beBytes, length_cons, length_nil, List.Vector.toList_length]
  omega

theorem Honest.buildServerHello (hr : server.clientRandom.isSome) : (buildServerHello 1).run server =
      .ok (serverHelloMessage server) (server.record (serverHelloMessage server)) :=
  buildServerHello_eq_ok.mpr ⟨hr, _, _, hs.encodeTlsKkpp,
    ServerHello.encode_of_fits (Nat.zero_le _) hs.serverHello_fits, rfl, hs.serverHelloMessage_short.fits, rfl⟩

theorem Honest.handleServerHello (client : ThreadDtlsHandshake) :
    (handleServerHello (serverHelloMessage server)).run client =
      .ok (server.serverHello (kkppBytes server.serverRoundOne)) (ThreadDtlsHandshake.record { client with
          serverRoundOne := some server.serverRoundOne
          serverRandom := some server.serverRandom } (serverHelloMessage server)) :=
  handleServerHello_eq_ok.mpr ⟨rfl, ServerHello.decode_bytes (Nat.zero_le _) hs.serverHello_fits, rfl, _, _, rfl,
    hs.decodeTlsKkpp, hs.serverHelloMessage_short.fits, rfl⟩

end ServerHello

namespace Pair

variable (h : Pair client server secret)

include h

theorem serverKeyExchange_short (rng : Rng) : (serverKeyExchangeMessage client.ecjpake server.ecjpake rng).Short :=
  keyExchange_short (encodeTlsKeyExchange_secondRound (h.matched.serverBase_ne_zero h.honestServer)
    h.honestServer.exponent_ne_zero rng true).2 _ _

theorem clientKeyExchange_short (seq : UInt16) (rng : Rng) :
    (clientKeyExchangeMessage client.ecjpake server.ecjpake seq rng).Short :=
  keyExchange_short (encodeTlsKeyExchange_secondRound (h.matched.clientBase_ne_zero h.honestClient)
    h.honestClient.exponent_ne_zero rng false).2 _ _

theorem buildServerKeyExchange (ho : server.clientRoundOne = some client.clientRoundOne) (rng : Rng) :
    (buildServerKeyExchange 2).run (server, rng) = .ok (serverKeyExchangeMessage client.ecjpake server.ecjpake rng)
        (server.record (serverKeyExchangeMessage client.ecjpake server.ecjpake rng),
          (roundTwoOf server.ecjpake client.ecjpake rng).2) :=
  buildServerKeyExchange_eq_ok.mpr ⟨_, _, _, ho, h.matched.server_roundTwo h.honestClient h.honestServer rng,
    (encodeTlsKeyExchange_secondRound (h.matched.serverBase_ne_zero h.honestServer)
      h.honestServer.exponent_ne_zero rng true).1, rfl, (h.serverKeyExchange_short rng).fits, rfl⟩

theorem handleServerKeyExchange (rng : Rng) (client' : ThreadDtlsHandshake) :
    (handleServerKeyExchange (serverKeyExchangeMessage client.ecjpake server.ecjpake rng)).run client' =
      .ok (roundTwoOf server.ecjpake client.ecjpake rng).1 (ThreadDtlsHandshake.record { client' with
          serverRoundTwo := some (roundTwoOf server.ecjpake client.ecjpake rng).1 }
          (serverKeyExchangeMessage client.ecjpake server.ecjpake rng)) := by
  have hd := decodeTlsKeyExchange_secondRound (h.matched.serverBase_ne_zero h.honestServer)
    h.honestServer.exponent_ne_zero rng true
  rw [h.honestServer.participant] at hd
  exact handleServerKeyExchange_eq_ok.mpr ⟨rfl, hd, (h.serverKeyExchange_short rng).fits, rfl⟩

theorem buildClientKeyExchange (ho : client.serverRoundOne = some server.serverRoundOne) (seq : UInt16) (rng : Rng) :
    (buildClientKeyExchange seq).run (client, rng) = .ok (clientKeyExchangeMessage client.ecjpake server.ecjpake seq rng)
        (client.record (clientKeyExchangeMessage client.ecjpake server.ecjpake seq rng),
          (roundTwoOf client.ecjpake server.ecjpake rng).2) :=
  buildClientKeyExchange_eq_ok.mpr ⟨_, _, _, ho, h.matched.client_roundTwo h.honestClient h.honestServer rng,
    (encodeTlsKeyExchange_secondRound (h.matched.clientBase_ne_zero h.honestClient)
      h.honestClient.exponent_ne_zero rng false).1, rfl, (h.clientKeyExchange_short seq rng).fits, rfl⟩

theorem handleClientKeyExchange (seq : UInt16) (rng : Rng) (server' : ThreadDtlsServerHandshake) :
    (handleClientKeyExchange (clientKeyExchangeMessage client.ecjpake server.ecjpake seq rng)).run server' =
      .ok () (ThreadDtlsServerHandshake.record { server' with
          clientRoundTwo := some (roundTwoOf client.ecjpake server.ecjpake rng).1 }
          (clientKeyExchangeMessage client.ecjpake server.ecjpake seq rng)) := by
  have hd := decodeTlsKeyExchange_secondRound (h.matched.clientBase_ne_zero h.honestClient)
    h.honestClient.exponent_ne_zero rng false
  rw [h.honestClient.participant] at hd
  exact handleClientKeyExchange_eq_ok.mpr ⟨rfl, _, hd, (h.clientKeyExchange_short seq rng).fits, rfl⟩

theorem exists_keyMaterial : ∃ keys : ThreadDtlsKeyMaterial, (∀ rng, client.serverRoundOne = some server.serverRoundOne →
      client.serverRoundTwo = some (roundTwoOf server.ecjpake client.ecjpake rng).1 →
      client.serverRandom = some server.serverRandom → client.deriveKeyMaterial = .ok keys) ∧
    ∀ rng, server.clientRoundOne = some client.clientRoundOne →
      server.clientRoundTwo = some (roundTwoOf client.ecjpake server.ecjpake rng).1 →
      server.clientRandom = some client.clientRandom → server.deriveKeyMaterial = .ok keys := by
  obtain ⟨secret, hc, hs⟩ := h.matched.exists_preMasterSecret h.honestClient h.honestServer
  refine ⟨keyMaterialOf secret client.clientRandom server.serverRandom, ?_, ?_⟩
  · intro rng hone htwo hrandom
    exact clientKeyMaterial_eq_ok.mpr ⟨_, _, _, _, hone, htwo, hrandom, hc rng, rfl⟩
  · intro rng hone htwo hrandom
    exact deriveKeyMaterial_eq_ok.mpr ⟨_, _, _, _, hone, htwo, hrandom, hs rng, rfl⟩

end Pair

end Messages

end ThreadCommissioner.HonestExchange
