import ThreadCommissioner.ClientHandshake
import ThreadCommissioner.Drivers
import ThreadCommissioner.Sessions

namespace ThreadCommissioner.ClientDriver

open ByteStrings ClientHandshake Computations Drivers Errors HandshakeMessages Hellos KeySchedule Primitives
  RecordProtection Records Sessions

variable [Suite] {Addr TransportError : Type}

def helloVerifyRecord (record : DtlsRecord) : EStateM DtlsError DtlsClientHelloState (Option Unit) :=
  match record.header.contentType with
  | .handshake => do
    let messages ← parseUnfragmentedHandshakeMessages record
    if messages.any (·.messageType = .helloVerifyRequest) then
      let _ ← handleHelloVerifyRequest record
      return some ()
    else return none
  | .alert => throw (decodeAlertError record)
  | _ => return none

def serverFlightMessage (message : HandshakeMessage) : ClientM (Option Unit) :=
  match message.messageType with
  | .serverHello => do
    let _ ← handleServerHello message
    return none
  | .serverKeyExchange => do
    let _ ← handleServerKeyExchange message
    return none
  | .serverHelloDone => do
    handleServerHelloDone message
    return some ()
  | .helloVerifyRequest => throw (.crypto "received unexpected second HelloVerifyRequest")
  | other => throw (.crypto ("unexpected DTLS handshake message " ++ other.debug))

def serverFlightRecord (record : DtlsRecord) : ClientM (Option Unit) :=
  match record.header.contentType with
  | .handshake => do
    let messages ← parseUnfragmentedHandshakeMessages record
    forEach serverFlightMessage messages
  | .alert => throw (decodeAlertError record)
  | _ => return none

/-- The state of the wait for the server's Finished: the handshake and
whether a ChangeCipherSpec was seen. -/
abbrev FinishedM (α : Type) := EStateM DtlsError (ThreadDtlsHandshake × Bool) α

def serverFinishedMessage (keyMaterial : ThreadDtlsKeyMaterial) (message : HandshakeMessage) :
    FinishedM (Option Unit) :=
  if message.messageType = .finished then do
    zoom Prod.fst (fun hs s => (hs, s.2)) id (verifyServerFinished message keyMaterial)
    return some ()
  else return none

def serverFinishedRecord (keyMaterial : ThreadDtlsKeyMaterial) (record : DtlsRecord) : FinishedM (Option Unit) :=
  match record.header.contentType with
  | .changeCipherSpec => do
    ensure (record.payload = [1]) (DtlsError.crypto "invalid ChangeCipherSpec payload")
    modify fun s => (s.1, true)
    return none
  | .handshake =>
    if record.header.epoch = 1 then do
      let s ← get
      ensure s.2 (DtlsError.crypto "received encrypted Finished before ChangeCipherSpec")
      let plaintext ← openAes128Ccm8Record record keyMaterial.keyBlock.serverWriteKey
        keyMaterial.keyBlock.serverWriteIv
      let plainRecord ← DtlsRecord.new .handshake 1 0 plaintext
      let messages ← parseUnfragmentedHandshakeMessages plainRecord
      forEach (serverFinishedMessage keyMaterial) messages
    else return none
  | .alert => throw (decodeAlertError record)
  | .applicationData => return none

/-- Where `connect_with_rng` waits. The handshake is kept to the end, where
the source drops it. -/
inductive ConnectStage (TransportError : Type)
  | helloVerify (handshake : ThreadDtlsHandshake) (helloState : DtlsClientHelloState)
  | serverFlight (handshake : ThreadDtlsHandshake) (helloState : DtlsClientHelloState)
  | serverFinished (handshake : ThreadDtlsHandshake) (keyMaterial : ThreadDtlsKeyMaterial)
      (sawChangeCipherSpec : Bool)
  | connected (handshake : ThreadDtlsHandshake) (session : SessionState)
  | failed (error : DriverError TransportError)

/-- A stage to go on in, the random source and the datagrams sent on the way. -/
structure Progress (TransportError : Type) where
  stage : ConnectStage TransportError
  rng : Rng
  sent : List Bytes

def begin (pskc : Bytes) (rng : Rng) : Except DtlsError (Progress TransportError) := do
  let (handshake, rng) := ThreadDtlsHandshake.new pskc rng
  let helloState ← handshake.clientHelloState
  let (firstClientHello, helloState) ← exec nextClientHelloRecord helloState
  let datagram ← encodeRecords [firstClientHello]
  return ⟨.helloVerify handshake helloState, rng, [datagram]⟩

def afterHelloVerify (handshake : ThreadDtlsHandshake) (helloState : DtlsClientHelloState) (rng : Rng) :
    Except DtlsError (Progress TransportError) := do
  let (secondClientHello, helloState) ← exec nextClientHelloRecord helloState
  let clientHelloMessage ← parseUnfragmentedHandshakeRecord secondClientHello .clientHello
  let (_, handshake) ← exec (recordClientHello clientHelloMessage) handshake
  let datagram ← encodeRecords [secondClientHello]
  return ⟨.serverFlight handshake helloState, rng, [datagram]⟩

def afterServerFlight (handshake : ThreadDtlsHandshake) (helloState : DtlsClientHelloState) (rng : Rng) :
    Except DtlsError (Progress TransportError) := do
  let keyExchangeSeq := helloState.nextMessageSequence
  let (clientKeyExchange, handshake, rng) ← exec (buildClientKeyExchange keyExchangeSeq) (handshake, rng)
  let keyMaterial ← handshake.deriveKeyMaterial
  let (clientFinished, handshake) ← exec (buildClientFinished (keyExchangeSeq + 1)) handshake
  let nextEpochZeroRecord := helloState.nextRecordSequence
  let keyExchangeBytes ← clientKeyExchange.encode
  let clientKeyExchangeRecord ← DtlsRecord.new .handshake 0 nextEpochZeroRecord keyExchangeBytes
  let changeCipherSpec ← DtlsRecord.new .changeCipherSpec 0 (nextEpochZeroRecord + 1) [1]
  let finishedBytes ← clientFinished.encode
  let clientFinishedRecord ← protectAes128Ccm8Record .handshake 1 0 keyMaterial.keyBlock.clientWriteKey
    keyMaterial.keyBlock.clientWriteIv finishedBytes
  let datagram ← encodeRecords [clientKeyExchangeRecord, changeCipherSpec, clientFinishedRecord]
  return ⟨.serverFinished handshake keyMaterial false, rng, [datagram]⟩

/-- One datagram of the peer, record by record; what follows the record that
ends a wait is dropped. -/
def process (rng : Rng) (records : List DtlsRecord) :
    ConnectStage TransportError → Except DtlsError (Progress TransportError)
  | .helloVerify handshake helloState => do
    let (done, helloState) ← exec (forEach helloVerifyRecord records) helloState
    match done with
    | some () => afterHelloVerify handshake helloState rng
    | none => return ⟨.helloVerify handshake helloState, rng, []⟩
  | .serverFlight handshake helloState => do
    let (done, handshake) ← exec (forEach serverFlightRecord records) handshake
    match done with
    | some () => afterServerFlight handshake helloState rng
    | none => return ⟨.serverFlight handshake helloState, rng, []⟩
  | .serverFinished handshake keyMaterial saw => do
    let (done, handshake, saw) ← exec (forEach (serverFinishedRecord keyMaterial) records) (handshake, saw)
    match done with
    | some () => return ⟨.connected handshake (.new keyMaterial .client), rng, []⟩
    | none => return ⟨.serverFinished handshake keyMaterial saw, rng, []⟩
  | stage => return ⟨stage, rng, []⟩

structure Client (Addr TransportError : Type) where
  peer : Addr
  rng : Rng
  stage : ConnectStage TransportError
  outbox : List Bytes

def Client.settle (client : Client Addr TransportError) :
    Except DtlsError (Progress TransportError) → Client Addr TransportError
  | .ok progress =>
    { client with rng := progress.rng, stage := progress.stage, outbox := client.outbox ++ progress.sent }
  | .error e => { client with stage := .failed (.protocol e) }

def ConnectStage.isWaiting : ConnectStage TransportError → Bool
  | .connected _ _ => false
  | .failed _ => false
  | _ => true

def Client.start (peer : Addr) (pskc : Bytes) (rng : Rng) : Client Addr TransportError :=
  match begin pskc rng with
  | .ok progress => ⟨peer, progress.rng, progress.stage, progress.sent⟩
  | .error e => ⟨peer, rng, .failed (.protocol e), []⟩

def Client.step [DecidableEq Addr] (client : Client Addr TransportError)
    (arrival : Arrival Addr TransportError) :
    Client Addr TransportError :=
  if client.stage.isWaiting then
    match recvRecords arrival with
    | .error e => { client with stage := .failed e }
    | .ok (records, _, source) =>
      if source = client.peer then client.settle (process client.rng records client.stage) else client
  else client

def Client.run [DecidableEq Addr] (client : Client Addr TransportError)
    (arrivals : List (Arrival Addr TransportError)) :
    Client Addr TransportError := arrivals.foldl Client.step client

section Specification

variable {hs hs' : ThreadDtlsHandshake} {message : HandshakeMessage} {record : DtlsRecord} {r : Option Unit}
  {helloState : DtlsClientHelloState} {rng : Rng} {keys : ThreadDtlsKeyMaterial} {saw saw' : Bool}

theorem serverFlightMessage_hello {hello : ServerHello} (h : (handleServerHello message).run hs = .ok hello hs') :
    (serverFlightMessage message).run hs = .ok none hs' := by
  have ht := (handleServerHello_eq_ok.mp h).1
  simp only [serverFlightMessage, ht]
  exact bind_of_ok h

theorem serverFlightMessage_keyExchange {two : EcJpake.RoundTwo}
    (h : (handleServerKeyExchange message).run hs = .ok two hs') : (serverFlightMessage message).run hs = .ok none hs' := by
  have ht := (handleServerKeyExchange_eq_ok.mp h).1
  simp only [serverFlightMessage, ht]
  exact bind_of_ok h

theorem serverFlightMessage_done (h : (handleServerHelloDone message).run hs = .ok () hs') :
    (serverFlightMessage message).run hs = .ok (some ()) hs' := by
  have ht := (handleServerHelloDone_eq_ok.mp h).1.1
  simp only [serverFlightMessage, ht]
  exact bind_of_ok h

/-- A message that the wait for the server's flight takes is a hello, a key
exchange or the hello done that ends the wait. -/
theorem serverFlightMessage_cases (h : (serverFlightMessage message).run hs = .ok r hs') :
    (r = none ∧ ∃ hello, (handleServerHello message).run hs = .ok hello hs') ∨
    (r = none ∧ ∃ two, (handleServerKeyExchange message).run hs = .ok two hs') ∨
    (r = some () ∧ (handleServerHelloDone message).run hs = .ok () hs') := by
  rw [serverFlightMessage] at h
  split at h
  · obtain ⟨hello, _, hrun, h⟩ := bind_eq_ok.mp h
    cases h
    exact .inl ⟨rfl, hello, hrun⟩
  · obtain ⟨two, _, hrun, h⟩ := bind_eq_ok.mp h
    cases h
    exact .inr (.inl ⟨rfl, two, hrun⟩)
  · obtain ⟨⟨⟩, _, hrun, h⟩ := bind_eq_ok.mp h
    cases h
    exact .inr (.inr ⟨rfl, hrun⟩)
  · cases h
  · cases h

theorem serverFlightRecord_cases (h : (serverFlightRecord record).run hs = .ok r hs') :
    (record.header.contentType = .handshake ∧ ∃ ms, parseUnfragmentedHandshakeMessages record = .ok ms ∧
      (forEach serverFlightMessage ms).run hs = .ok r hs') ∨ (r = none ∧ hs' = hs) := by
  rw [serverFlightRecord] at h
  split at h
  · next ht =>
    obtain ⟨ms, hp, h⟩ := lift_bind_ok.mp h
    exact .inl ⟨ht, ms, hp, h⟩
  · cases h
  · cases h
    exact .inr ⟨rfl, rfl⟩

theorem serverFlightRecord_of_short (hm : message.Short) (epoch : UInt16) (seq : UInt64)
    (h : (serverFlightMessage message).run hs = .ok r hs') :
    (serverFlightRecord (message.record epoch seq)).run hs = .ok r hs' := by
  change (do
    let messages ← parseUnfragmentedHandshakeMessages (message.record epoch seq)
    forEach serverFlightMessage messages : ClientM (Option Unit)).run hs = _
  rw [lift_bind_of_ok (hm.parse_records epoch seq)]
  cases r with
  | some u => exact forEach_cons_some h
  | none => exact forEach_cons_none h

theorem serverFinishedRecord_changeCipherSpec (ht : record.header.contentType = .changeCipherSpec)
    (hp : record.payload = [1]) : (serverFinishedRecord keys record).run (hs, saw) = .ok none (hs, true) := by
  simp only [serverFinishedRecord, ht]
  rw [lift_bind_of_ok (ensure_true hp _), modify_bind]
  rfl

theorem serverFinishedRecord_finished {plain : Bytes} (ht : record.header.contentType = .handshake)
    (he : record.header.epoch = 1)
    (hopen : openAes128Ccm8Record record keys.keyBlock.serverWriteKey keys.keyBlock.serverWriteIv = .ok plain)
    {plainRec : DtlsRecord} (hnew : DtlsRecord.new .handshake 1 0 plain = .ok plainRec)
    (hparse : parseUnfragmentedHandshakeMessages plainRec = .ok [message])
    (hverify : (verifyServerFinished message keys).run hs = .ok () hs') :
    (serverFinishedRecord keys record).run (hs, true) = .ok (some ()) (hs', true) := by
  have hmessage : (serverFinishedMessage keys message).run (hs, true) = .ok (some ()) (hs', true) := by
    rw [serverFinishedMessage, if_pos (verifyServerFinished_eq_ok.mp hverify).1, bind_of_ok (zoom_of_ok hverify)]
    rfl
  simp only [serverFinishedRecord, ht, if_pos he]
  rw [get_bind, lift_bind_of_ok (ensure_true rfl _), lift_bind_of_ok hopen, lift_bind_of_ok hnew, lift_bind_of_ok hparse]
  exact forEach_cons_some hmessage

theorem serverFinishedMessage_cases {s s' : ThreadDtlsHandshake × Bool}
    (h : (serverFinishedMessage keys message).run s = .ok r s') : (r = none ∧ s' = s) ∨ (r = some () ∧ s'.2 = s.2 ∧
      (verifyServerFinished message keys).run s.1 = .ok () s'.1) := by
  rw [serverFinishedMessage] at h
  split at h
  · obtain ⟨⟨⟩, hs', hrun, h⟩ := zoom_bind_ok.mp h
    cases h
    exact .inr ⟨rfl, rfl, hrun⟩
  · cases h
    exact .inl ⟨rfl, rfl⟩

/-- What the wait for the server's Finished does with a record: it notes a
ChangeCipherSpec, or it ends with a Finished that verified. -/
theorem serverFinishedRecord_cases (h : (serverFinishedRecord keys record).run (hs, saw) = .ok r (hs', saw')) :
    (r = none ∧ hs' = hs ∧ saw' = saw) ∨
    (r = none ∧ hs' = hs ∧ record.header.contentType = .changeCipherSpec ∧ record.payload = [1]) ∨
    (r = some () ∧ saw = true ∧ record.header.contentType = .handshake ∧ record.header.epoch = 1 ∧
      ∃ plain plainRec ms message,
        openAes128Ccm8Record record keys.keyBlock.serverWriteKey keys.keyBlock.serverWriteIv = .ok plain ∧
        DtlsRecord.new .handshake 1 0 plain = .ok plainRec ∧
        parseUnfragmentedHandshakeMessages plainRec = .ok ms ∧ message ∈ ms ∧
        (verifyServerFinished message keys).run hs = .ok () hs') := by
  rw [serverFinishedRecord] at h
  split at h
  · next ht =>
    obtain ⟨_, hp, h⟩ := lift_bind_ok.mp h
    cases h
    exact .inr (.inl ⟨rfl, rfl, ht, ensure_eq_ok.mp hp⟩)
  · next ht =>
    split at h
    · next he =>
      rw [get_bind] at h
      obtain ⟨_, hsaw, h⟩ := lift_bind_ok.mp h
      obtain ⟨plain, hopen, h⟩ := lift_bind_ok.mp h
      obtain ⟨plainRec, hnew, h⟩ := lift_bind_ok.mp h
      obtain ⟨ms, hparse, h⟩ := lift_bind_ok.mp h
      -- messages that are not a Finished are passed over
      have hpass : ∀ (passed : List HandshakeMessage) m s t, m ∈ ms → s = (hs, saw) →
          (serverFinishedMessage keys m).run s = .ok none t → t = (hs, saw) := by
        rintro passed m s t - rfl hm
        rcases serverFinishedMessage_cases hm with ⟨-, rfl⟩ | ⟨hr, -⟩
        · rfl
        · cases hr
      cases r with
      | none =>
        cases forEach_eq_none (P := fun _ s => s = (hs, saw)) hpass [] rfl h
        exact .inl ⟨rfl, rfl, rfl⟩
      | some u =>
        obtain ⟨before, m, after, s, rfl, rfl, hm⟩ := forEach_eq_some (P := fun _ s => s = (hs, saw)) hpass [] rfl h
        rcases serverFinishedMessage_cases hm with ⟨hr, -⟩ | ⟨-, -, hverify⟩
        · cases hr
        · exact .inr (.inr ⟨rfl, ensure_eq_ok.mp hsaw, ht, he, plain, plainRec, _, m, hopen, hnew, hparse, by simp, hverify⟩)
    · cases h
      exact .inl ⟨rfl, rfl, rfl⟩
  · cases h
  · cases h
    exact .inl ⟨rfl, rfl, rfl⟩

theorem afterHelloVerify_stage {progress : Progress TransportError} (h : afterHelloVerify hs helloState rng = .ok progress) :
    ∃ chello helloState', progress.stage = .serverFlight (hs.record chello) helloState' := by
  obtain ⟨⟨record, helloState'⟩, -, h⟩ := bind_ok.mp h
  obtain ⟨chello, -, h⟩ := bind_ok.mp h
  obtain ⟨⟨_, hs'⟩, hr, h⟩ := bind_ok.mp h
  obtain ⟨dgram, -, h⟩ := bind_ok.mp h
  cases h
  obtain ⟨-, -, rfl⟩ := recordClientHello_eq_ok.mp (exec_eq_ok.mp hr)
  exact ⟨chello, helloState', rfl⟩

theorem afterServerFlight_eq_ok {progress : Progress TransportError} : afterServerFlight hs helloState rng = .ok progress ↔
      ∃ clientKeyExchange keyed rng' keys cfin handshake keyExchangeBytes clientKeyExchangeRecord
        changeCipherSpec finishedBytes clientFinishedRecord datagram,
        (buildClientKeyExchange helloState.nextMessageSequence).run (hs, rng) = .ok clientKeyExchange (keyed, rng') ∧
        keyed.deriveKeyMaterial = .ok keys ∧
        (buildClientFinished (helloState.nextMessageSequence + 1)).run keyed = .ok cfin handshake ∧
        clientKeyExchange.encode = .ok keyExchangeBytes ∧
        DtlsRecord.new .handshake 0 helloState.nextRecordSequence keyExchangeBytes = .ok clientKeyExchangeRecord ∧
        DtlsRecord.new .changeCipherSpec 0 (helloState.nextRecordSequence + 1) [1] = .ok changeCipherSpec ∧
        cfin.encode = .ok finishedBytes ∧ protectAes128Ccm8Record .handshake 1 0 keys.keyBlock.clientWriteKey
          keys.keyBlock.clientWriteIv finishedBytes = .ok clientFinishedRecord ∧
        encodeRecords [clientKeyExchangeRecord, changeCipherSpec, clientFinishedRecord] = .ok datagram ∧
        progress = ⟨.serverFinished handshake keys false, rng', [datagram]⟩ := by
  simp only [afterServerFlight, bind_ok, exec_eq_ok, pure_eq_ok]
  constructor
  · rintro ⟨⟨cke, keyed, rng'⟩, hk, km, hkm, ⟨fin, hs'⟩, hf, bs, hb, kr, hr, ccs, hc, fbs, hfb, fr, hp, dg, hd, rfl⟩
    exact ⟨cke, keyed, rng', km, fin, hs', bs, kr, ccs, fbs, fr, dg, hk, hkm, hf, hb, hr, hc, hfb, hp, hd, rfl⟩
  · rintro ⟨cke, keyed, rng', km, fin, hs', bs, kr, ccs, fbs, fr, dg, hk, hkm, hf, hb, hr, hc, hfb, hp, hd, rfl⟩
    exact ⟨(cke, keyed, rng'), hk, km, hkm, (fin, hs'), hf, bs, hb, kr, hr, ccs, hc, fbs, hfb, fr, hp, dg, hd, rfl⟩

end Specification

end ThreadCommissioner.ClientDriver
