import ThreadCommissioner.EcJpakeCodec
import ThreadCommissioner.Hellos
import ThreadCommissioner.KeySchedule

namespace ThreadCommissioner.ClientHandshake

open ByteStrings Computations EcJpake EcJpakeCodec Errors HandshakeMessages Hellos KeySchedule Primitives

variable [Suite]

structure ThreadDtlsHandshake where
  ecjpake : EcJpakeParty
  clientRoundOne : RoundOne
  serverRoundOne : Option RoundOne
  serverRoundTwo : Option RoundTwo
  clientRandom : ByteVector 32
  serverRandom : Option (ByteVector 32)
  transcript : HandshakeTranscript

def ThreadDtlsHandshake.new (pskc : Bytes) (rng : Rng) : ThreadDtlsHandshake × Rng :=
  let (clientRandom, rng) := fillBytes rng
  let (ecjpake, rng) := EcJpakeParty.newThreadWithRng rng .client pskc
  let (clientRoundOne, rng) := ecjpake.roundOne rng
  ({ ecjpake
     clientRoundOne
     serverRoundOne := none
     serverRoundTwo := none
     clientRandom
     serverRandom := none
     transcript := .new }, rng)

def ThreadDtlsHandshake.clientHelloState (hs : ThreadDtlsHandshake) : Except DtlsError DtlsClientHelloState := do
  return .withEcjpakeKkpp hs.clientRandom (← encodeTlsKkpp hs.clientRoundOne)

abbrev ClientM (α : Type) := EStateM DtlsError ThreadDtlsHandshake α

def recordTranscript (message : HandshakeMessage) : ClientM Unit := do
  let transcript ← (← get).transcript.push message
  modify fun hs => { hs with transcript }

def recordClientHello (message : HandshakeMessage) : ClientM Unit := do
  ensure (message.messageType = .clientHello) (DtlsError.crypto "expected ClientHello message")
  recordTranscript message

def handleServerHello (message : HandshakeMessage) : ClientM ServerHello := do
  ensure (message.messageType = .serverHello) (DtlsError.crypto "expected ServerHello message")
  let hello ← ServerHello.decode message.payload
  hello.validateThreadProfile
  let kkpp ← okOr hello.ecjpakeKkpp (DtlsError.crypto "ServerHello missing ECJPAKE KKPP")
  let serverRoundOne ← decodeTlsKkpp kkpp threadServerId
  modify fun hs => { hs with serverRoundOne := some serverRoundOne, serverRandom := some hello.random }
  recordTranscript message
  return hello

def handleServerKeyExchange (message : HandshakeMessage) : ClientM RoundTwo := do
  ensure (message.messageType = .serverKeyExchange) (DtlsError.crypto "expected ServerKeyExchange message")
  let serverRoundTwo ← decodeTlsKeyExchange message.payload threadServerId true
  modify fun hs => { hs with serverRoundTwo := some serverRoundTwo }
  recordTranscript message
  return serverRoundTwo

def handleServerHelloDone (message : HandshakeMessage) : ClientM Unit := do
  ensure (message.messageType = .serverHelloDone ∧ message.payload = [])
    (DtlsError.crypto "expected empty ServerHelloDone message")
  recordTranscript message

def buildClientKeyExchange (messageSeq : UInt16) :
    EStateM DtlsError (ThreadDtlsHandshake × Rng) HandshakeMessage := do
  let (hs, rng) ← get
  let serverRoundOne ← okOr hs.serverRoundOne (DtlsError.invalidState "server ECJPAKE round one is missing")
  let (clientRoundTwo, rng) ← hs.ecjpake.roundTwo hs.clientRoundOne serverRoundOne rng
  set (hs, rng)
  let payload ← encodeTlsKeyExchange clientRoundTwo false
  let message : HandshakeMessage := ⟨.clientKeyExchange, messageSeq, payload⟩
  zoom Prod.fst (fun hs s => (hs, s.2)) id (recordTranscript message)
  return message

def ThreadDtlsHandshake.deriveKeyMaterial (hs : ThreadDtlsHandshake) :
    Except DtlsError ThreadDtlsKeyMaterial := do
  let serverRoundOne ← okOr hs.serverRoundOne (DtlsError.invalidState "server ECJPAKE round one is missing")
  let serverRoundTwo ← okOr hs.serverRoundTwo (DtlsError.invalidState "server ECJPAKE round two is missing")
  let serverRandom ← okOr hs.serverRandom (DtlsError.invalidState "server random is missing")
  let preMasterSecret ← hs.ecjpake.finish hs.clientRoundOne serverRoundOne serverRoundTwo
  return keyMaterialOf preMasterSecret hs.clientRandom serverRandom

def ThreadDtlsHandshake.clientFinishedVerifyData (hs : ThreadDtlsHandshake) :
    Except DtlsError (ByteVector 12) := do
  let keyMaterial ← hs.deriveKeyMaterial
  return hs.transcript.finishedVerifyData keyMaterial.masterSecret .client

def buildClientFinished (messageSeq : UInt16) : ClientM HandshakeMessage := do
  let verifyData ← (← get).clientFinishedVerifyData
  let message : HandshakeMessage := ⟨.finished, messageSeq, verifyData.toList⟩
  recordTranscript message
  return message

def verifyServerFinished (message : HandshakeMessage) (keyMaterial : ThreadDtlsKeyMaterial) : ClientM Unit := do
  ensure (message.messageType = .finished) (DtlsError.crypto "expected Finished message")
  let expected := (← get).transcript.finishedVerifyData keyMaterial.masterSecret .server
  ensure (expected.toList = message.payload) (DtlsError.crypto "server Finished verify_data mismatch")
  recordTranscript message

def ThreadDtlsHandshake.record (hs : ThreadDtlsHandshake) (message : HandshakeMessage) : ThreadDtlsHandshake :=
  { hs with transcript := ⟨hs.transcript.bytes ++ message.bytes⟩ }

section Specification

variable {hs hs' : ThreadDtlsHandshake} {message : HandshakeMessage}

variable {u : Unit}

theorem recordTranscript_eq_ok : (recordTranscript message).run hs = .ok u hs' ↔ message.Fits ∧ hs' = hs.record message := by
  simp only [recordTranscript, get_bind, lift_bind_ok, HandshakeTranscript.push_eq_ok, run_modify,
    EStateM.Result.ok.injEq, true_and]
  constructor
  · rintro ⟨_, ⟨hm, rfl⟩, h⟩
    exact ⟨hm, h.symm⟩
  · rintro ⟨hm, h⟩
    exact ⟨_, ⟨hm, rfl⟩, h.symm⟩

theorem recordTranscript_bind_eq_ok {α : Type} {f : Unit → ClientM α} {a : α} :
    (recordTranscript message >>= f).run hs = .ok a hs' ↔ message.Fits ∧ (f ()).run (hs.record message) = .ok a hs' := by
  simp only [bind_eq_ok, recordTranscript_eq_ok]
  constructor
  · rintro ⟨_, _, ⟨hm, rfl⟩, h⟩
    exact ⟨hm, h⟩
  · rintro ⟨hm, h⟩
    exact ⟨(), _, ⟨hm, rfl⟩, h⟩

theorem recordClientHello_eq_ok : (recordClientHello message).run hs = .ok u hs' ↔
      message.messageType = .clientHello ∧ message.Fits ∧ hs' = hs.record message := by
  simp only [recordClientHello, lift_bind_ok, ensure_eq_ok, exists_const, recordTranscript_eq_ok]

theorem handleServerHello_eq_ok {hello : ServerHello} : (handleServerHello message).run hs = .ok hello hs' ↔
      message.messageType = .serverHello ∧ ServerHello.decode message.payload = .ok hello ∧
      hello.validateThreadProfile = .ok () ∧ ∃ kkpp serverRoundOne, hello.ecjpakeKkpp = some kkpp ∧
        decodeTlsKkpp kkpp threadServerId = .ok serverRoundOne ∧ message.Fits ∧ hs' = ThreadDtlsHandshake.record { hs with
          serverRoundOne := some serverRoundOne
          serverRandom := some hello.random } message := by
  simp only [handleServerHello, lift_bind_ok, ensure_eq_ok, exists_const, okOr_eq_ok, modify_bind,
    recordTranscript_bind_eq_ok, run_pure, EStateM.Result.ok.injEq]
  constructor
  · rintro ⟨ht, _, hd, ⟨⟩, hv, kkpp, hk, one, ho, hm, rfl, rfl⟩
    exact ⟨ht, hd, hv, kkpp, one, hk, ho, hm, rfl⟩
  · rintro ⟨ht, hd, hv, kkpp, one, hk, ho, hm, rfl⟩
    exact ⟨ht, hello, hd, (), hv, kkpp, hk, one, ho, hm, rfl, rfl⟩

theorem handleServerKeyExchange_eq_ok {two : RoundTwo} : (handleServerKeyExchange message).run hs = .ok two hs' ↔
      message.messageType = .serverKeyExchange ∧
      decodeTlsKeyExchange message.payload threadServerId true = .ok two ∧ message.Fits ∧
      hs' = ThreadDtlsHandshake.record { hs with serverRoundTwo := some two } message := by
  simp only [handleServerKeyExchange, lift_bind_ok, ensure_eq_ok, exists_const, modify_bind,
    recordTranscript_bind_eq_ok, run_pure, EStateM.Result.ok.injEq]
  constructor
  · rintro ⟨ht, _, hd, hm, rfl, rfl⟩
    exact ⟨ht, hd, hm, rfl⟩
  · rintro ⟨ht, hd, hm, rfl⟩
    exact ⟨ht, two, hd, hm, rfl, rfl⟩

theorem handleServerHelloDone_eq_ok : (handleServerHelloDone message).run hs = .ok u hs' ↔
      (message.messageType = .serverHelloDone ∧ message.payload = []) ∧ message.Fits ∧ hs' = hs.record message := by
  simp only [handleServerHelloDone, lift_bind_ok, ensure_eq_ok, exists_const, recordTranscript_eq_ok]

theorem buildClientKeyExchange_eq_ok {seq : UInt16} {rng rng' : Rng} :
    (buildClientKeyExchange seq).run (hs, rng) = .ok message (hs', rng') ↔
      ∃ serverRoundOne clientRoundTwo payload, hs.serverRoundOne = some serverRoundOne ∧
        hs.ecjpake.roundTwo hs.clientRoundOne serverRoundOne rng = .ok (clientRoundTwo, rng') ∧
        encodeTlsKeyExchange clientRoundTwo false = .ok payload ∧
        message = ⟨.clientKeyExchange, seq, payload⟩ ∧ message.Fits ∧ hs' = hs.record message := by
  simp only [buildClientKeyExchange, get_bind, set_bind, lift_bind_ok, okOr_eq_ok, zoom_bind_ok,
    recordTranscript_eq_ok, run_pure, EStateM.Result.ok.injEq, Prod.mk.injEq]
  constructor
  · rintro ⟨one, ho, ⟨two, _⟩, htwo, payload, hp, _, _, ⟨hm, rfl⟩, rfl, rfl, rfl⟩
    exact ⟨one, two, payload, ho, htwo, hp, rfl, hm, rfl⟩
  · rintro ⟨one, two, payload, ho, htwo, hp, rfl, hm, rfl⟩
    exact ⟨one, ho, (two, rng'), htwo, payload, hp, (), _, ⟨hm, rfl⟩, rfl, rfl, rfl⟩

theorem clientKeyMaterial_eq_ok {keys : ThreadDtlsKeyMaterial} : hs.deriveKeyMaterial = .ok keys ↔
      ∃ serverRoundOne serverRoundTwo serverRandom preMasterSecret,
        hs.serverRoundOne = some serverRoundOne ∧ hs.serverRoundTwo = some serverRoundTwo ∧
        hs.serverRandom = some serverRandom ∧
        hs.ecjpake.finish hs.clientRoundOne serverRoundOne serverRoundTwo = .ok preMasterSecret ∧
        keys = keyMaterialOf preMasterSecret hs.clientRandom serverRandom := by
  simp only [ThreadDtlsHandshake.deriveKeyMaterial, bind_ok, okOr_eq_ok, pure_eq_ok]
  constructor
  · rintro ⟨one, ho, two, ht, random, hr, secret, hs, rfl⟩
    exact ⟨one, two, random, secret, ho, ht, hr, hs, rfl⟩
  · rintro ⟨one, two, random, secret, ho, ht, hr, hs, rfl⟩
    exact ⟨one, ho, two, ht, random, hr, secret, hs, rfl⟩

theorem buildClientFinished_eq_ok {seq : UInt16} : (buildClientFinished seq).run hs = .ok message hs' ↔
      ∃ keys, hs.deriveKeyMaterial = .ok keys ∧ message = ⟨.finished, seq,
          (hs.transcript.finishedVerifyData keys.masterSecret .client).toList⟩ ∧ hs' = hs.record message := by
  simp only [buildClientFinished, get_bind, lift_bind_ok, ThreadDtlsHandshake.clientFinishedVerifyData,
    bind_ok, pure_eq_ok, recordTranscript_bind_eq_ok, finished_fits, run_pure, EStateM.Result.ok.injEq, true_and]
  constructor
  · rintro ⟨_, ⟨keys, hk, rfl⟩, rfl, rfl⟩
    exact ⟨keys, hk, rfl, rfl⟩
  · rintro ⟨keys, hk, rfl, rfl⟩
    exact ⟨_, ⟨keys, hk, rfl⟩, rfl, rfl⟩

theorem verifyServerFinished_eq_ok {keys : ThreadDtlsKeyMaterial} :
    (verifyServerFinished message keys).run hs = .ok u hs' ↔ message.messageType = .finished ∧
      (hs.transcript.finishedVerifyData keys.masterSecret .server).toList = message.payload ∧
      message.Fits ∧ hs' = hs.record message := by
  simp only [verifyServerFinished, lift_bind_ok, ensure_eq_ok, exists_const, get_bind, recordTranscript_eq_ok]

end Specification

/-- The methods of the handshake, named by the message they record. -/
inductive ClientCall
  | recordClientHello (message : HandshakeMessage)
  | handleServerHello (message : HandshakeMessage)
  | handleServerKeyExchange (message : HandshakeMessage)
  | handleServerHelloDone (message : HandshakeMessage)
  | buildClientKeyExchange (messageSeq : UInt16)
  | buildClientFinished (messageSeq : UInt16)
  | verifyServerFinished (message : HandshakeMessage) (keyMaterial : ThreadDtlsKeyMaterial)

def onHandshake {α : Type} (x : ClientM α) : EStateM DtlsError (ThreadDtlsHandshake × Rng) α :=
  zoom Prod.fst (fun hs s => (hs, s.2)) id x

def ClientCall.run : ClientCall → EStateM DtlsError (ThreadDtlsHandshake × Rng) HandshakeMessage
  | .recordClientHello message => do
      onHandshake (ClientHandshake.recordClientHello message)
      return message
  | .handleServerHello message => do
      let _ ← onHandshake (ClientHandshake.handleServerHello message)
      return message
  | .handleServerKeyExchange message => do
      let _ ← onHandshake (ClientHandshake.handleServerKeyExchange message)
      return message
  | .handleServerHelloDone message => do
      onHandshake (ClientHandshake.handleServerHelloDone message)
      return message
  | .buildClientKeyExchange messageSeq => ClientHandshake.buildClientKeyExchange messageSeq
  | .buildClientFinished messageSeq => onHandshake (ClientHandshake.buildClientFinished messageSeq)
  | .verifyServerFinished message keyMaterial => do
      onHandshake (ClientHandshake.verifyServerFinished message keyMaterial)
      return message

end ThreadCommissioner.ClientHandshake
