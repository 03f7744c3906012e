import ThreadCommissioner.EcJpakeCodec
import ThreadCommissioner.Hellos
import ThreadCommissioner.KeySchedule

namespace ThreadCommissioner.ServerHandshake

open ByteStrings Computations EcJpake EcJpakeCodec Errors HandshakeMessages Hellos KeySchedule Primitives

theorem cookie_fits : 0 + 16 ≤ 32 := by omega

variable [Suite]

structure DtlsCookieGenerator where
  key : ByteVector 32

def DtlsCookieGenerator.new (rng : Rng) : DtlsCookieGenerator × Rng :=
  let (key, rng) := fillBytes rng
  (⟨key⟩, rng)

def DtlsCookieGenerator.cookie (generator : DtlsCookieGenerator) (clientRandom : ByteVector 32) : ByteVector 16 :=
  slice (hmacSha256 generator.key.toList clientRandom.toList) 0 16 cookie_fits

def DtlsCookieGenerator.verify (generator : DtlsCookieGenerator) (clientRandom : ByteVector 32)
    (cookie : Bytes) : Bool :=
  (generator.cookie clientRandom).toList == cookie

structure ThreadDtlsServerHandshake where
  ecjpake : EcJpakeParty
  serverRoundOne : RoundOne
  clientRoundOne : Option RoundOne
  clientRoundTwo : Option RoundTwo
  serverRandom : ByteVector 32
  clientRandom : Option (ByteVector 32)
  transcript : HandshakeTranscript

def ThreadDtlsServerHandshake.new (sharedSecret : Bytes) (rng : Rng) : ThreadDtlsServerHandshake × Rng :=
  let (serverRandom, rng) := fillBytes rng
  let (ecjpake, rng) := EcJpakeParty.newThreadWithRng rng .server sharedSecret
  let (serverRoundOne, rng) := ecjpake.roundOne rng
  ({ ecjpake
     serverRoundOne
     clientRoundOne := none
     clientRoundTwo := none
     serverRandom
     clientRandom := none
     transcript := .new }, rng)

abbrev ServerM (α : Type) := EStateM DtlsError ThreadDtlsServerHandshake α

def pushTranscript (message : HandshakeMessage) : ServerM Unit := do
  let transcript ← (← get).transcript.push message
  modify fun hs => { hs with transcript }

def handleClientHello (message : HandshakeMessage) : ServerM ClientHello := do
  ensure (message.messageType = .clientHello) (DtlsError.crypto "expected ClientHello message")
  let hello ← ClientHello.decode message.payload
  ensure (tlsEcjpakeWithAes128Ccm8 ∈ hello.cipherSuites)
    (DtlsError.crypto "ClientHello does not offer TLS_ECJPAKE_WITH_AES_128_CCM_8")
  ensure (tlsCompressionNull ∈ hello.compressionMethods)
    (DtlsError.crypto "ClientHello does not offer null compression")
  let kkpp ← okOr hello.ecjpakeKkpp (DtlsError.crypto "ClientHello missing ECJPAKE KKPP")
  let clientRoundOne ← decodeTlsKkpp kkpp threadClientId
  modify fun hs => { hs with clientRoundOne := some clientRoundOne, clientRandom := some hello.random }
  pushTranscript message
  return hello

def ThreadDtlsServerHandshake.serverHello (hs : ThreadDtlsServerHandshake) (kkpp : Bytes) : ServerHello where
  random := hs.serverRandom
  sessionId := []
  cipherSuite := tlsEcjpakeWithAes128Ccm8
  compressionMethod := tlsCompressionNull
  extensions := [⟨extensionEcjpakeKkpp, kkpp⟩, ecPointFormatsExtension]

def buildServerHello (messageSeq : UInt16) : ServerM HandshakeMessage := do
  let hs ← get
  ensure hs.clientRandom.isSome (DtlsError.invalidState "ClientHello has not been accepted")
  let kkpp ← encodeTlsKkpp hs.serverRoundOne
  let payload ← (hs.serverHello kkpp).encode
  let message : HandshakeMessage := ⟨.serverHello, messageSeq, payload⟩
  pushTranscript message
  return message

/-- The random source travels in the state: it stays advanced when a later
step fails. -/
def buildServerKeyExchange (messageSeq : UInt16) :
    EStateM DtlsError (ThreadDtlsServerHandshake × Rng) HandshakeMessage := do
  let (hs, rng) ← get
  let clientRoundOne ← okOr hs.clientRoundOne (DtlsError.invalidState "client ECJPAKE round one is missing")
  let (serverRoundTwo, rng) ← hs.ecjpake.roundTwo hs.serverRoundOne clientRoundOne rng
  set (hs, rng)
  let payload ← encodeTlsKeyExchange serverRoundTwo true
  let message : HandshakeMessage := ⟨.serverKeyExchange, messageSeq, payload⟩
  zoom Prod.fst (fun hs s => (hs, s.2)) id (pushTranscript message)
  return message

def buildServerHelloDone (messageSeq : UInt16) : ServerM HandshakeMessage := do
  let message : HandshakeMessage := ⟨.serverHelloDone, messageSeq, []⟩
  pushTranscript message
  return message

def handleClientKeyExchange (message : HandshakeMessage) : ServerM Unit := do
  ensure (message.messageType = .clientKeyExchange) (DtlsError.crypto "expected ClientKeyExchange message")
  let clientRoundTwo ← decodeTlsKeyExchange message.payload threadClientId false
  modify fun hs => { hs with clientRoundTwo := some clientRoundTwo }
  pushTranscript message

def ThreadDtlsServerHandshake.deriveKeyMaterial (hs : ThreadDtlsServerHandshake) :
    Except DtlsError ThreadDtlsKeyMaterial := do
  let clientRoundOne ← okOr hs.clientRoundOne (DtlsError.invalidState "client ECJPAKE round one is missing")
  let clientRoundTwo ← okOr hs.clientRoundTwo (DtlsError.invalidState "client ECJPAKE round two is missing")
  let clientRandom ← okOr hs.clientRandom (DtlsError.invalidState "client random is missing")
  let preMasterSecret ← hs.ecjpake.finish hs.serverRoundOne clientRoundOne clientRoundTwo
  return keyMaterialOf preMasterSecret clientRandom hs.serverRandom

def verifyClientFinished (message : HandshakeMessage) (keyMaterial : ThreadDtlsKeyMaterial) : ServerM Unit := do
  ensure (message.messageType = .finished) (DtlsError.crypto "expected Finished message")
  let expected := (← get).transcript.finishedVerifyData keyMaterial.masterSecret .client
  ensure (expected.toList = message.payload) (DtlsError.crypto "client Finished verify_data mismatch")
  pushTranscript message

def buildServerFinished (messageSeq : UInt16) (keyMaterial : ThreadDtlsKeyMaterial) :
    ServerM HandshakeMessage := do
  let verifyData := (← get).transcript.finishedVerifyData keyMaterial.masterSecret .server
  let message : HandshakeMessage := ⟨.finished, messageSeq, verifyData.toList⟩
  pushTranscript message
  return message

def ThreadDtlsServerHandshake.deriveJoinerRouterKek (hs : ThreadDtlsServerHandshake)
    (keyMaterial : ThreadDtlsKeyMaterial) : Except DtlsError (ByteVector 16) := do
  let clientRandom ← okOr hs.clientRandom (DtlsError.invalidState "client random is missing")
  return KeySchedule.deriveJoinerRouterKek keyMaterial.masterSecret clientRandom hs.serverRandom

def ThreadDtlsServerHandshake.record (hs : ThreadDtlsServerHandshake) (message : HandshakeMessage) :
    ThreadDtlsServerHandshake :=
  { hs with transcript := ⟨hs.transcript.bytes ++ message.bytes⟩ }

section Specification

variable {hs hs' : ThreadDtlsServerHandshake} {message : HandshakeMessage}
  {u : Unit} {seq : UInt16} {keys : ThreadDtlsKeyMaterial}

theorem pushTranscript_eq_ok : (pushTranscript message).run hs = .ok u hs' ↔ message.Fits ∧ hs' = hs.record message := by
  simp only [pushTranscript, get_bind, lift_bind_ok, HandshakeTranscript.push_eq_ok, run_modify,
    EStateM.Result.ok.injEq, true_and]
  constructor
  · rintro ⟨_, ⟨hm, rfl⟩, h⟩
    exact ⟨hm, h.symm⟩
  · rintro ⟨hm, h⟩
    exact ⟨_, ⟨hm, rfl⟩, h.symm⟩

theorem pushTranscript_bind_eq_ok {α : Type} {f : Unit → ServerM α} {a : α} :
    (pushTranscript message >>= f).run hs = .ok a hs' ↔ message.Fits ∧ (f ()).run (hs.record message) = .ok a hs' := by
  simp only [bind_eq_ok, pushTranscript_eq_ok]
  constructor
  · rintro ⟨_, _, ⟨hm, rfl⟩, h⟩
    exact ⟨hm, h⟩
  · rintro ⟨hm, h⟩
    exact ⟨(), _, ⟨hm, rfl⟩, h⟩

theorem handleClientHello_eq_ok {hello : ClientHello} : (handleClientHello message).run hs = .ok hello hs' ↔
      message.messageType = .clientHello ∧ ClientHello.decode message.payload = .ok hello ∧
      tlsEcjpakeWithAes128Ccm8 ∈ hello.cipherSuites ∧ tlsCompressionNull ∈ hello.compressionMethods ∧
      ∃ kkpp clientRoundOne, hello.ecjpakeKkpp = some kkpp ∧
        decodeTlsKkpp kkpp threadClientId = .ok clientRoundOne ∧ message.Fits ∧
        hs' = ThreadDtlsServerHandshake.record { hs with
          clientRoundOne := some clientRoundOne
          clientRandom := some hello.random } message := by
  simp only [handleClientHello, lift_bind_ok, ensure_eq_ok, exists_const, okOr_eq_ok, modify_bind,
    pushTranscript_bind_eq_ok, run_pure, EStateM.Result.ok.injEq]
  constructor
  · rintro ⟨ht, _, hd, hsuite, hcomp, kkpp, hk, one, ho, hm, rfl, rfl⟩
    exact ⟨ht, hd, hsuite, hcomp, kkpp, one, hk, ho, hm, rfl⟩
  · rintro ⟨ht, hd, hsuite, hcomp, kkpp, one, hk, ho, hm, rfl⟩
    exact ⟨ht, hello, hd, hsuite, hcomp, kkpp, hk, one, ho, hm, rfl, rfl⟩

theorem buildServerHello_eq_ok : (buildServerHello seq).run hs = .ok message hs' ↔
      hs.clientRandom.isSome ∧ ∃ kkpp payload, encodeTlsKkpp hs.serverRoundOne = .ok kkpp ∧
        (hs.serverHello kkpp).encode = .ok payload ∧ message = ⟨.serverHello, seq, payload⟩ ∧
        message.Fits ∧ hs' = hs.record message := by
  simp only [buildServerHello, get_bind, lift_bind_ok, ensure_eq_ok, exists_const, pushTranscript_bind_eq_ok,
    run_pure, EStateM.Result.ok.injEq]
  constructor
  · rintro ⟨hr, kkpp, hk, payload, hp, hm, rfl, rfl⟩
    exact ⟨hr, kkpp, payload, hk, hp, rfl, hm, rfl⟩
  · rintro ⟨hr, kkpp, payload, hk, hp, rfl, hm, rfl⟩
    exact ⟨hr, kkpp, hk, payload, hp, hm, rfl, rfl⟩

theorem buildServerKeyExchange_eq_ok {rng rng' : Rng} :
    (buildServerKeyExchange seq).run (hs, rng) = .ok message (hs', rng') ↔
      ∃ clientRoundOne serverRoundTwo payload, hs.clientRoundOne = some clientRoundOne ∧
        hs.ecjpake.roundTwo hs.serverRoundOne clientRoundOne rng = .ok (serverRoundTwo, rng') ∧
        encodeTlsKeyExchange serverRoundTwo true = .ok payload ∧
        message = ⟨.serverKeyExchange, seq, payload⟩ ∧ message.Fits ∧ hs' = hs.record message := by
  simp only [buildServerKeyExchange, get_bind, set_bind, lift_bind_ok, okOr_eq_ok, zoom_bind_ok,
    pushTranscript_eq_ok, run_pure, EStateM.Result.ok.injEq, Prod.mk.injEq]
  constructor
  · rintro ⟨one, ho, ⟨two, _⟩, htwo, payload, hp, _, _, ⟨hm, rfl⟩, rfl, rfl, rfl⟩
    exact ⟨one, two, payload, ho, htwo, hp, rfl, hm, rfl⟩
  · rintro ⟨one, two, payload, ho, htwo, hp, rfl, hm, rfl⟩
    exact ⟨one, ho, (two, rng'), htwo, payload, hp, (), _, ⟨hm, rfl⟩, rfl, rfl, rfl⟩

theorem buildServerHelloDone_eq_ok : (buildServerHelloDone seq).run hs = .ok message hs' ↔
      message = ⟨.serverHelloDone, seq, []⟩ ∧ hs' = hs.record message := by
  have hm : (HandshakeMessage.mk .serverHelloDone seq []).Fits := Nat.zero_le _
  simp only [buildServerHelloDone, pushTranscript_bind_eq_ok, hm, run_pure, EStateM.Result.ok.injEq, true_and]
  constructor
  · rintro ⟨rfl, rfl⟩
    exact ⟨rfl, rfl⟩
  · rintro ⟨rfl, rfl⟩
    exact ⟨rfl, rfl⟩

theorem handleClientKeyExchange_eq_ok : (handleClientKeyExchange message).run hs = .ok u hs' ↔
      message.messageType = .clientKeyExchange ∧ ∃ clientRoundTwo,
        decodeTlsKeyExchange message.payload threadClientId false = .ok clientRoundTwo ∧ message.Fits ∧
        hs' = ThreadDtlsServerHandshake.record { hs with clientRoundTwo := some clientRoundTwo } message := by
  simp only [handleClientKeyExchange, lift_bind_ok, ensure_eq_ok, exists_const, modify_bind, pushTranscript_eq_ok]

theorem deriveKeyMaterial_eq_ok : hs.deriveKeyMaterial = .ok keys ↔
      ∃ clientRoundOne clientRoundTwo clientRandom preMasterSecret,
        hs.clientRoundOne = some clientRoundOne ∧ hs.clientRoundTwo = some clientRoundTwo ∧
        hs.clientRandom = some clientRandom ∧
        hs.ecjpake.finish hs.serverRoundOne clientRoundOne clientRoundTwo = .ok preMasterSecret ∧
        keys = keyMaterialOf preMasterSecret clientRandom hs.serverRandom := by
  simp only [ThreadDtlsServerHandshake.deriveKeyMaterial, bind_ok, okOr_eq_ok, pure_eq_ok]
  constructor
  · rintro ⟨one, ho, two, ht, random, hr, secret, hs, rfl⟩
    exact ⟨one, two, random, secret, ho, ht, hr, hs, rfl⟩
  · rintro ⟨one, two, random, secret, ho, ht, hr, hs, rfl⟩
    exact ⟨one, ho, two, ht, random, hr, secret, hs, rfl⟩

theorem verifyClientFinished_eq_ok : (verifyClientFinished message keys).run hs = .ok u hs' ↔
      message.messageType = .finished ∧
      (hs.transcript.finishedVerifyData keys.masterSecret .client).toList = message.payload ∧
      message.Fits ∧ hs' = hs.record message := by
  simp only [verifyClientFinished, lift_bind_ok, ensure_eq_ok, exists_const, get_bind, pushTranscript_eq_ok]

theorem buildServerFinished_eq_ok : (buildServerFinished seq keys).run hs = .ok message hs' ↔ message = ⟨.finished, seq,
        (hs.transcript.finishedVerifyData keys.masterSecret .server).toList⟩ ∧ hs' = hs.record message := by
  simp only [buildServerFinished, get_bind, pushTranscript_bind_eq_ok, finished_fits, run_pure, EStateM.Result.ok.injEq,
    true_and]
  constructor
  · rintro ⟨rfl, rfl⟩
    exact ⟨rfl, rfl⟩
  · rintro ⟨rfl, rfl⟩
    exact ⟨rfl, rfl⟩

end Specification

/-- The methods of the handshake, named by the message they record. -/
inductive ServerCall
  | handleClientHello (message : HandshakeMessage)
  | buildServerHello (messageSeq : UInt16)
  | buildServerKeyExchange (messageSeq : UInt16)
  | buildServerHelloDone (messageSeq : UInt16)
  | handleClientKeyExchange (message : HandshakeMessage)
  | verifyClientFinished (message : HandshakeMessage) (keyMaterial : ThreadDtlsKeyMaterial)
  | buildServerFinished (messageSeq : UInt16) (keyMaterial : ThreadDtlsKeyMaterial)

def onHandshake {α : Type} (x : ServerM α) : EStateM DtlsError (ThreadDtlsServerHandshake × Rng) α :=
  zoom Prod.fst (fun hs s => (hs, s.2)) id x

def ServerCall.run : ServerCall → EStateM DtlsError (ThreadDtlsServerHandshake × Rng) HandshakeMessage
  | .handleClientHello message => do
      let _ ← onHandshake (ServerHandshake.handleClientHello message)
      return message
  | .buildServerHello messageSeq => onHandshake (ServerHandshake.buildServerHello messageSeq)
  | .buildServerKeyExchange messageSeq => ServerHandshake.buildServerKeyExchange messageSeq
  | .buildServerHelloDone messageSeq => onHandshake (ServerHandshake.buildServerHelloDone messageSeq)
  | .handleClientKeyExchange message => do
      onHandshake (ServerHandshake.handleClientKeyExchange message)
      return message
  | .verifyClientFinished message keyMaterial => do
      onHandshake (ServerHandshake.verifyClientFinished message keyMaterial)
      return message
  | .buildServerFinished messageSeq keyMaterial =>
      onHandshake (ServerHandshake.buildServerFinished messageSeq keyMaterial)

end ThreadCommissioner.ServerHandshake
