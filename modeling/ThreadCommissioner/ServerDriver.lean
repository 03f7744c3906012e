import ThreadCommissioner.Drivers
import ThreadCommissioner.RecordProtection
import ThreadCommissioner.ServerHandshake

namespace ThreadCommissioner.ServerDriver

open ByteStrings Computations Drivers Errors HandshakeMessages Hellos KeySchedule Primitives RecordProtection
  Records ServerHandshake

/-- What both loops of the acceptor write: the next sequence number of epoch
zero and the datagrams sent, each with its destination. -/
structure Outbound (Addr : Type) where
  nextEpochZeroRecord : UInt64
  sent : List (Addr × Bytes)

variable {Addr TransportError : Type}

abbrev OutboundM (Addr α : Type) := EStateM DtlsError (Outbound Addr) α

def sendRecords (peer : Addr) (records : List DtlsRecord) : OutboundM Addr Unit := do
  let datagram ← encodeRecords records
  modify fun out => { out with sent := out.sent ++ [(peer, datagram)] }

def sendFatalHandshakeAlert (peer : Addr) : OutboundM Addr Unit := do
  let out ← get
  let alert ← DtlsRecord.new .alert 0 out.nextEpochZeroRecord [2, 40]
  sendRecords peer [alert]

def flightRecord (message : HandshakeMessage) : OutboundM Addr DtlsRecord := do
  let out ← get
  let encoded ← message.encode
  let record ← DtlsRecord.new .handshake 0 out.nextEpochZeroRecord encoded
  modify fun out => { out with nextEpochZeroRecord := out.nextEpochZeroRecord + 1 }
  return record

theorem sendRecords_of_length {peer : Addr} {out : Outbound Addr} {rs : List DtlsRecord}
    (h : ∀ r ∈ rs, r.payload.length = r.header.length.toNat) : (sendRecords peer rs).run out =
      .ok () { out with sent := out.sent ++ [(peer, datagramOf rs)] } := by
  rw [sendRecords, lift_bind_of_ok (encodeRecords_of_length h)]
  rfl

theorem sendRecords_of_wellFormed {peer : Addr} {out : Outbound Addr} {rs : List DtlsRecord} (h : ∀ r ∈ rs, r.WellFormed) :
    (sendRecords peer rs).run out = .ok () { out with sent := out.sent ++ [(peer, datagramOf rs)] } :=
  sendRecords_of_length fun r hr => (h r hr).1

theorem flightRecord_of_short {m : HandshakeMessage} (hm : m.Short) (out : Outbound Addr) : (flightRecord m).run out =
      .ok (m.record 0 out.nextEpochZeroRecord) { out with nextEpochZeroRecord := out.nextEpochZeroRecord + 1 } := by
  rw [flightRecord, get_bind, lift_bind_of_ok (HandshakeMessage.encode_of_fits hm.fits),
    lift_bind_of_ok (hm.new_record _ _), modify_bind]
  rfl

variable [Suite]

def clientHelloMessage (cookies : DtlsCookieGenerator) (peer : Addr) (message : HandshakeMessage) :
    OutboundM Addr (Option HandshakeMessage) :=
  if message.messageType = .clientHello then do
    let hello ← ClientHello.decode message.payload
    if cookies.verify hello.random hello.cookie then return some message
    else
      let payload ← HelloVerifyRequest.encode ⟨dtls12Version, (cookies.cookie hello.random).toList⟩
      let verify : HandshakeMessage := ⟨.helloVerifyRequest, message.messageSeq, payload⟩
      let encoded ← verify.encode
      let out ← get
      let verifyRecord ← DtlsRecord.new .handshake 0 out.nextEpochZeroRecord encoded
      modify fun out => { out with nextEpochZeroRecord := out.nextEpochZeroRecord + 1 }
      sendRecords peer [verifyRecord]
      return none
  else return none

def clientHelloRecord (cookies : DtlsCookieGenerator) (peer : Addr) (record : DtlsRecord) :
    OutboundM Addr (Option HandshakeMessage) :=
  if record.header.epoch = 0 ∧ record.header.contentType = .handshake then do
    let messages ← parseUnfragmentedHandshakeMessages record
    forEach (clientHelloMessage cookies peer) messages
  else return none

/-- The messages of the server's flight, in the order they are built. -/
def buildServerFlight (clientHello : HandshakeMessage) :
    EStateM DtlsError (ThreadDtlsServerHandshake × Rng) (HandshakeMessage × HandshakeMessage × HandshakeMessage) := do
  let _ ← onHandshake (handleClientHello clientHello)
  let serverHello ← onHandshake (buildServerHello 1)
  let serverKeyExchange ← buildServerKeyExchange 2
  let serverHelloDone ← onHandshake (buildServerHelloDone 3)
  return (serverHello, serverKeyExchange, serverHelloDone)

structure Flight (Addr : Type) where
  handshake : ThreadDtlsServerHandshake
  sawChangeCipherSpec : Bool
  keyMaterial : Option ThreadDtlsKeyMaterial
  out : Outbound Addr

abbrev FlightM (Addr α : Type) := EStateM DtlsError (Flight Addr) α

def onOut {α : Type} (x : OutboundM Addr α) : FlightM Addr α :=
  zoom Flight.out (fun out s => { s with out }) id x

def inHandshake {α : Type} (x : ServerM α) : FlightM Addr α :=
  zoom Flight.handshake (fun handshake s => { s with handshake }) id x

def clientKeyExchangeMessage (message : HandshakeMessage) : FlightM Addr (Option Unit) := do
  ensure (message.messageType = .clientKeyExchange)
    (DtlsError.crypto ("unexpected DTLS handshake message " ++ message.messageType.debug))
  inHandshake (handleClientKeyExchange message)
  let s ← get
  let keyMaterial ← s.handshake.deriveKeyMaterial
  modify fun s => { s with keyMaterial := some keyMaterial }
  return none

/-- A failed check is answered with an alert before its error is returned. -/
def orAlert {α : Type} (peer : Addr) : Except DtlsError α → FlightM Addr α
  | .ok a => pure a
  | .error e => do
    onOut (sendFatalHandshakeAlert peer)
    throw e

def clientFinishedRecord (peer : Addr) (record : DtlsRecord) : FlightM Addr (Option Unit) := do
  let s ← get
  ensure s.sawChangeCipherSpec (DtlsError.crypto "client Finished before ChangeCipherSpec")
  let keys ← okOr s.keyMaterial (DtlsError.invalidState "client key material is missing")
  let plaintext ← orAlert peer (openAes128Ccm8Record record keys.keyBlock.clientWriteKey keys.keyBlock.clientWriteIv)
  let plainRecord ← DtlsRecord.new .handshake 1 0 plaintext
  let finished ← parseUnfragmentedHandshakeRecord plainRecord .finished
  let (_, handshake) ← orAlert peer (exec (verifyClientFinished finished keys) s.handshake)
  modify fun s => { s with handshake }
  let serverFinished ← inHandshake (buildServerFinished 4 keys)
  let changeCipherSpec ← DtlsRecord.new .changeCipherSpec 0 s.out.nextEpochZeroRecord [1]
  let encoded ← serverFinished.encode
  let protectedFinished ← protectAes128Ccm8Record .handshake 1 0 keys.keyBlock.serverWriteKey
    keys.keyBlock.serverWriteIv encoded
  onOut (sendRecords peer [changeCipherSpec, protectedFinished])
  return some ()

def clientFlightRecord (peer : Addr) (record : DtlsRecord) : FlightM Addr (Option Unit) :=
  match record.header.contentType with
  | .handshake =>
    if record.header.epoch = 0 then do
      let messages ← parseUnfragmentedHandshakeMessages record
      forEach clientKeyExchangeMessage messages
    else if record.header.epoch = 1 then clientFinishedRecord peer record
    else return none
  | .changeCipherSpec =>
    if record.header.epoch = 0 then do
      ensure (record.payload = [1]) (DtlsError.crypto "invalid ChangeCipherSpec payload")
      modify fun s => { s with sawChangeCipherSpec := true }
      return none
    else return none
  | .alert => throw (decodeAlertError record)
  | .applicationData => return none

/-- Where `accept_with_rng` waits. As in the client the handshake is kept to
the end. -/
inductive AcceptStage (Addr TransportError : Type)
  | clientHello (cookies : DtlsCookieGenerator)
  | clientFlight (localAddr peer : Addr) (handshake : ThreadDtlsServerHandshake) (sawChangeCipherSpec : Bool)
      (keyMaterial : Option ThreadDtlsKeyMaterial)
  | accepted (localAddr peer : Addr) (handshake : ThreadDtlsServerHandshake) (keyMaterial : ThreadDtlsKeyMaterial)
  | failed (error : DriverError TransportError)

structure Server (Addr TransportError : Type) where
  pskc : Bytes
  rng : Rng
  stage : AcceptStage Addr TransportError
  out : Outbound Addr

def Server.start (pskc : Bytes) (rng : Rng) : Server Addr TransportError :=
  let (cookies, rng) := DtlsCookieGenerator.new rng
  ⟨pskc, rng, .clientHello cookies, ⟨0, []⟩⟩

def Server.fail (server : Server Addr TransportError) (e : DriverError TransportError) :
    Server Addr TransportError := { server with stage := .failed e }

def Server.commit (server : Server Addr TransportError) (localAddr peer : Addr) (clientHello : HandshakeMessage) :
    Server Addr TransportError :=
  let start := ThreadDtlsServerHandshake.new server.pskc server.rng
  match exec (buildServerFlight clientHello) start with
  | .error e => server.fail (.protocol e)
  | .ok ((serverHello, serverKeyExchange, serverHelloDone), handshake, rng) =>
    let send : OutboundM Addr Unit := do
      let first ← flightRecord serverHello
      let second ← flightRecord serverKeyExchange
      let third ← flightRecord serverHelloDone
      sendRecords peer [first, second, third]
    match send.run server.out with
    | .error e out => Server.fail { server with rng, out } (.protocol e)
    | .ok () out => { server with rng, out, stage := .clientFlight localAddr peer handshake false none }

def Server.step [DecidableEq Addr] (server : Server Addr TransportError) (arrival : Arrival Addr TransportError) :
    Server Addr TransportError :=
  match server.stage with
  | .clientHello cookies =>
    match recvRecords arrival with
    | .error e => server.fail e
    | .ok (records, localAddr, peer) =>
      match (forEach (clientHelloRecord cookies peer) records).run server.out with
      | .error e out => Server.fail { server with out } (.protocol e)
      | .ok none out => { server with out }
      | .ok (some message) out => Server.commit { server with out } localAddr peer message
  | .clientFlight localAddr peer handshake saw keyMaterial =>
    match recvRecords arrival with
    | .error e => server.fail e
    | .ok (records, _, source) =>
      if source = peer then
        match (forEach (clientFlightRecord peer) records).run ⟨handshake, saw, keyMaterial, server.out⟩ with
        | .error e s => Server.fail { server with out := s.out } (.protocol e)
        | .ok none s =>
          { server with out := s.out, stage := .clientFlight localAddr peer s.handshake s.sawChangeCipherSpec s.keyMaterial }
        | .ok (some ()) s =>
          match s.keyMaterial with
          | some keyMaterial => { server with out := s.out, stage := .accepted localAddr peer s.handshake keyMaterial }
          | none => Server.fail { server with out := s.out } (.protocol (.invalidState "client key material is missing"))
      else server
  | _ => server

def Server.run [DecidableEq Addr] (server : Server Addr TransportError) (arrivals : List (Arrival Addr TransportError)) :
    Server Addr TransportError := arrivals.foldl Server.step server

section Hello

variable {peer : Addr} {out : Outbound Addr} {cookies : DtlsCookieGenerator} {m : HandshakeMessage}
  {hello : ClientHello}

theorem clientHelloMessage_accept (ht : m.messageType = .clientHello)
    (hd : ClientHello.decode m.payload = .ok hello) (hv : cookies.verify hello.random hello.cookie = true) :
    (clientHelloMessage cookies peer m).run out = .ok (some m) out := by
  rw [clientHelloMessage, if_pos ht, lift_bind_of_ok hd, if_pos hv]
  rfl

theorem clientHelloMessage_challenge (ht : m.messageType = .clientHello)
    (hd : ClientHello.decode m.payload = .ok hello) (hv : ¬ cookies.verify hello.random hello.cookie = true) :
    (clientHelloMessage cookies peer m).run out =
      .ok none { nextEpochZeroRecord := out.nextEpochZeroRecord + 1
                 sent := out.sent ++ [(peer, datagramOf [(verifyRequestMessage m.messageSeq
                   (cookies.cookie hello.random).toList).record 0 out.nextEpochZeroRecord])] } := by
  have hcookie : (cookies.cookie hello.random).toList.length ≤ 255 := by
    rw [List.Vector.toList_length]
    decide
  have hshort := verifyRequest_short hcookie m.messageSeq
  have hencode : (verifyRequestMessage m.messageSeq (cookies.cookie hello.random).toList).encode =
      .ok (verifyRequestMessage m.messageSeq (cookies.cookie hello.random).toList).bytes :=
    HandshakeMessage.encode_of_fits hshort.fits
  rw [clientHelloMessage, if_pos ht, lift_bind_of_ok hd, if_neg hv,
    lift_bind_of_ok (HelloVerifyRequest.encode_of_le hcookie)]
  change (do
    let encoded ← (verifyRequestMessage m.messageSeq (cookies.cookie hello.random).toList).encode
    let out ← get
    let verifyRecord ← DtlsRecord.new .handshake 0 out.nextEpochZeroRecord encoded
    modify fun out => { out with nextEpochZeroRecord := out.nextEpochZeroRecord + 1 }
    sendRecords peer [verifyRecord]
    return none : OutboundM Addr (Option HandshakeMessage)).run out = _
  rw [lift_bind_of_ok hencode, get_bind, lift_bind_of_ok (hshort.new_record _ _), modify_bind,
    bind_of_ok (sendRecords_of_length (by simpa using hshort.record_length 0 _))]
  rfl

end Hello

section Specification

variable {peer : Addr} {message : HandshakeMessage} {record : DtlsRecord}

theorem clientHelloMessage_eq_some {cookies : DtlsCookieGenerator} {out out' : Outbound Addr}
    {acc : HandshakeMessage} (h : (clientHelloMessage cookies peer message).run out = .ok (some acc) out') :
    acc = message ∧ message.messageType = .clientHello ∧
      ∃ hello, ClientHello.decode message.payload = .ok hello ∧ cookies.verify hello.random hello.cookie = true := by
  rw [clientHelloMessage] at h
  split at h
  · next ht =>
    obtain ⟨hello, hd, h⟩ := lift_bind_ok.mp h
    split at h
    · next hv =>
      cases h
      exact ⟨rfl, ht, hello, hd, hv⟩
    · -- a challenge never ends the wait
      obtain ⟨_, -, h⟩ := lift_bind_ok.mp h
      obtain ⟨_, -, h⟩ := lift_bind_ok.mp h
      rw [get_bind] at h
      obtain ⟨_, -, h⟩ := lift_bind_ok.mp h
      rw [modify_bind] at h
      obtain ⟨_, _, -, h⟩ := bind_eq_ok.mp h
      cases h
  · cases h

/-- The hello that ends the wait is carried by a record of epoch zero and
returns a cookie of this generator. -/
theorem clientHelloRecord_eq_some {cookies : DtlsCookieGenerator} {rs : List DtlsRecord} {out out' : Outbound Addr}
    (h : (forEach (clientHelloRecord cookies peer) rs).run out = .ok (some message) out') :
    ∃ record ∈ rs, record.header.epoch = 0 ∧ record.header.contentType = .handshake ∧
      (∃ ms, parseUnfragmentedHandshakeMessages record = .ok ms ∧ message ∈ ms) ∧ message.messageType = .clientHello ∧
      ∃ hello, ClientHello.decode message.payload = .ok hello ∧ cookies.verify hello.random hello.cookie = true := by
  obtain ⟨before, record, after, u, rfl, -, h⟩ :=
    forEach_eq_some (P := fun _ _ => True) (fun _ _ _ _ _ _ _ => trivial) [] trivial h
  rw [clientHelloRecord] at h
  split at h
  · next hr =>
    obtain ⟨ms, hp, h⟩ := lift_bind_ok.mp h
    obtain ⟨before', m, after', v, rfl, -, h⟩ :=
      forEach_eq_some (P := fun _ _ => True) (fun _ _ _ _ _ _ _ => trivial) [] trivial h
    obtain ⟨rfl, ht, hello⟩ := clientHelloMessage_eq_some h
    exact ⟨record, by simp, hr.1, hr.2, ⟨_, hp, by simp⟩, ht, hello⟩
  · cases h

theorem buildServerFlight_eq_ok {hs hs' : ThreadDtlsServerHandshake} {rng rng' : Rng}
    {shello serverKeyExchange serverHelloDone : HandshakeMessage} :
    (buildServerFlight message).run (hs, rng) = .ok (shello, serverKeyExchange, serverHelloDone) (hs', rng') ↔
      ∃ hello hs₁ hs₂ hs₃, (handleClientHello message).run hs = .ok hello hs₁ ∧
        (buildServerHello 1).run hs₁ = .ok shello hs₂ ∧
        (buildServerKeyExchange 2).run (hs₂, rng) = .ok serverKeyExchange (hs₃, rng') ∧
        (buildServerHelloDone 3).run hs₃ = .ok serverHelloDone hs' := by
  constructor
  · intro h
    obtain ⟨hello, hs₁, h₁, h⟩ := zoom_bind_ok.mp h
    obtain ⟨sh, hs₂, h₂, h⟩ := zoom_bind_ok.mp h
    obtain ⟨ske, ⟨hs₃, _⟩, h₃, h⟩ := bind_eq_ok.mp h
    obtain ⟨shd, hs₄, h₄, h⟩ := zoom_bind_ok.mp h
    cases h
    exact ⟨hello, hs₁, hs₂, hs₃, h₁, h₂, h₃, h₄⟩
  · rintro ⟨hello, hs₁, hs₂, hs₃, h₁, h₂, h₃, h₄⟩
    refine zoom_bind_ok.mpr ⟨hello, hs₁, h₁, zoom_bind_ok.mpr ⟨_, hs₂, h₂, bind_eq_ok.mpr ⟨_, _, h₃, ?_⟩⟩⟩
    exact zoom_bind_ok.mpr ⟨_, hs', h₄, rfl⟩

theorem Server.commit_cases (server : Server Addr TransportError) (addr peer : Addr)
    (chello : HandshakeMessage) : (∃ e, (server.commit addr peer chello).stage = .failed e) ∨
    ∃ flight hs rng, (buildServerFlight chello).run (ThreadDtlsServerHandshake.new server.pskc server.rng) =
        .ok flight (hs, rng) ∧ (server.commit addr peer chello).stage = .clientFlight addr peer hs false none := by
  rw [Server.commit]
  dsimp only
  split
  · next e _ => exact .inl ⟨_, rfl⟩
  · next hrun =>
    split
    · exact .inl ⟨_, rfl⟩
    · exact .inr ⟨_, _, _, exec_eq_ok.mp hrun, rfl⟩

variable {s s' : Flight Addr} {r : Option Unit}

theorem clientKeyExchangeMessage_eq_ok : (clientKeyExchangeMessage message).run s = .ok r s' ↔
      r = none ∧ ∃ handshake keyMaterial, (handleClientKeyExchange message).run s.handshake = .ok () handshake ∧
        handshake.deriveKeyMaterial = .ok keyMaterial ∧ s' = { s with handshake, keyMaterial := some keyMaterial } := by
  constructor
  · intro h
    obtain ⟨_, -, h⟩ := lift_bind_ok.mp h
    obtain ⟨⟨⟩, handshake, hrun, h⟩ := zoom_bind_ok.mp h
    rw [get_bind] at h
    obtain ⟨keyMaterial, hkey, h⟩ := lift_bind_ok.mp h
    cases h
    exact ⟨rfl, handshake, keyMaterial, hrun, hkey, rfl⟩
  · rintro ⟨rfl, handshake, keyMaterial, hrun, hkey, rfl⟩
    have ht := (handleClientKeyExchange_eq_ok.mp hrun).1
    refine lift_bind_ok.mpr ⟨(), ensure_eq_ok.mpr ht, zoom_bind_ok.mpr ⟨(), handshake, hrun, ?_⟩⟩
    rw [get_bind]
    exact lift_bind_ok.mpr ⟨keyMaterial, hkey, rfl⟩

theorem orAlert_bind_eq_ok {α β : Type} {x : Except DtlsError α} {f : α → FlightM Addr β} {b : β} :
    (orAlert peer x >>= f).run s = .ok b s' ↔ ∃ a, x = .ok a ∧ (f a).run s = .ok b s' := by
  cases x with
  | ok a =>
    rw [orAlert, bind_of_ok (run_pure a s)]
    simp
  | error e =>
    constructor
    · intro h
      obtain ⟨a, u, h, -⟩ := bind_eq_ok.mp h
      obtain ⟨_, _, -, h⟩ := bind_eq_ok.mp h
      cases h
    · rintro ⟨a, h, -⟩
      cases h

theorem clientFinishedRecord_eq_ok : (clientFinishedRecord peer record).run s = .ok r s' ↔
      r = some () ∧ s.sawChangeCipherSpec = true ∧
      ∃ keys plaintext plainRec finished verified sfin handshake changeCipherSpec encoded
        protectedFinished out, s.keyMaterial = some keys ∧
        openAes128Ccm8Record record keys.keyBlock.clientWriteKey keys.keyBlock.clientWriteIv = .ok plaintext ∧
        DtlsRecord.new .handshake 1 0 plaintext = .ok plainRec ∧
        parseUnfragmentedHandshakeRecord plainRec .finished = .ok finished ∧
        (verifyClientFinished finished keys).run s.handshake = .ok () verified ∧
        (buildServerFinished 4 keys).run verified = .ok sfin handshake ∧
        DtlsRecord.new .changeCipherSpec 0 s.out.nextEpochZeroRecord [1] = .ok changeCipherSpec ∧ sfin.encode = .ok encoded ∧
        protectAes128Ccm8Record .handshake 1 0 keys.keyBlock.serverWriteKey keys.keyBlock.serverWriteIv encoded =
          .ok protectedFinished ∧ (sendRecords peer [changeCipherSpec, protectedFinished]).run s.out = .ok () out ∧
        s' = { s with handshake, out } := by
  constructor
  · intro h
    rw [clientFinishedRecord, get_bind] at h
    obtain ⟨_, hsaw, h⟩ := lift_bind_ok.mp h
    obtain ⟨keys, hkeys, h⟩ := lift_bind_ok.mp h
    obtain ⟨plaintext, hopen, h⟩ := orAlert_bind_eq_ok.mp h
    obtain ⟨plainRec, hnew, h⟩ := lift_bind_ok.mp h
    obtain ⟨finished, hparse, h⟩ := lift_bind_ok.mp h
    obtain ⟨⟨⟨⟩, verified⟩, hverify, h⟩ := orAlert_bind_eq_ok.mp h
    rw [modify_bind] at h
    obtain ⟨sfin, handshake, hbuild, h⟩ := zoom_bind_ok.mp h
    obtain ⟨changeCipherSpec, hccs, h⟩ := lift_bind_ok.mp h
    obtain ⟨encoded, henc, h⟩ := lift_bind_ok.mp h
    obtain ⟨protectedFinished, hprot, h⟩ := lift_bind_ok.mp h
    obtain ⟨⟨⟩, out, hsend, h⟩ := zoom_bind_ok.mp h
    cases h
    exact ⟨rfl, ensure_eq_ok.mp hsaw, keys, plaintext, plainRec, finished, verified, sfin, handshake,
      changeCipherSpec, encoded, protectedFinished, out, okOr_eq_ok.mp hkeys, hopen, hnew, hparse,
      exec_eq_ok.mp hverify, hbuild, hccs, henc, hprot, hsend, rfl⟩
  · rintro ⟨rfl, hsaw, keys, plaintext, plainRec, finished, verified, sfin, handshake,
      changeCipherSpec, encoded, protectedFinished, out, hkeys, hopen, hnew, hparse, hverify, hbuild, hccs, henc,
      hprot, hsend, rfl⟩
    rw [clientFinishedRecord, get_bind]
    refine lift_bind_ok.mpr ⟨(), ensure_eq_ok.mpr hsaw, lift_bind_ok.mpr ⟨keys, okOr_eq_ok.mpr hkeys, ?_⟩⟩
    refine orAlert_bind_eq_ok.mpr ⟨plaintext, hopen, lift_bind_ok.mpr ⟨plainRec, hnew, ?_⟩⟩
    refine lift_bind_ok.mpr ⟨finished, hparse, orAlert_bind_eq_ok.mpr ⟨((), verified), exec_of_ok hverify, ?_⟩⟩
    dsimp only
    rw [modify_bind]
    refine zoom_bind_ok.mpr ⟨sfin, handshake, hbuild, lift_bind_ok.mpr ⟨_, hccs, ?_⟩⟩
    refine lift_bind_ok.mpr ⟨encoded, henc, lift_bind_ok.mpr ⟨protectedFinished, hprot, ?_⟩⟩
    exact zoom_bind_ok.mpr ⟨(), out, hsend, rfl⟩

theorem clientFlightRecord_cases (h : (clientFlightRecord peer record).run s = .ok r s') : (r = none ∧ s' = s) ∨
    (record.header.contentType = .handshake ∧ record.header.epoch = 0 ∧
      ∃ ms, parseUnfragmentedHandshakeMessages record = .ok ms ∧ (forEach clientKeyExchangeMessage ms).run s = .ok r s') ∨
    (record.header.contentType = .changeCipherSpec ∧ record.header.epoch = 0 ∧ record.payload = [1] ∧ r = none ∧
      s' = { s with sawChangeCipherSpec := true }) ∨ (record.header.contentType = .handshake ∧ record.header.epoch = 1 ∧
      (clientFinishedRecord peer record).run s = .ok r s') := by
  rw [clientFlightRecord] at h
  split at h
  · next ht =>
    by_cases h0 : record.header.epoch = 0
    · rw [if_pos h0] at h
      obtain ⟨ms, hp, h⟩ := lift_bind_ok.mp h
      exact .inr (.inl ⟨ht, h0, ms, hp, h⟩)
    · rw [if_neg h0] at h
      by_cases h1 : record.header.epoch = 1
      · rw [if_pos h1] at h
        exact .inr (.inr (.inr ⟨ht, h1, h⟩))
      · rw [if_neg h1] at h
        cases h
        exact .inl ⟨rfl, rfl⟩
  · next ht =>
    by_cases h0 : record.header.epoch = 0
    · rw [if_pos h0] at h
      obtain ⟨_, hp, h⟩ := lift_bind_ok.mp h
      cases h
      exact .inr (.inr (.inl ⟨ht, h0, ensure_eq_ok.mp hp, rfl, rfl⟩))
    · rw [if_neg h0] at h
      cases h
      exact .inl ⟨rfl, rfl⟩
  · cases h
  · cases h
    exact .inl ⟨rfl, rfl⟩

theorem clientFlightRecord_keyExchange (hm : message.Short) (seq : UInt64)
    (h : (clientKeyExchangeMessage message).run s = .ok none s') :
    (clientFlightRecord peer (message.record 0 seq)).run s = .ok none s' := by
  change (do
    let messages ← parseUnfragmentedHandshakeMessages (message.record 0 seq)
    forEach clientKeyExchangeMessage messages : FlightM Addr (Option Unit)).run s = _
  rw [lift_bind_of_ok (hm.parse_records 0 seq)]
  exact forEach_cons_none h

theorem clientFlightRecord_changeCipherSpec (seq : UInt64) (s : Flight Addr) :
    (clientFlightRecord peer (changeCipherSpecRecord seq)).run s = .ok none { s with sawChangeCipherSpec := true } := rfl

theorem clientFlightRecord_finished (ht : record.header.contentType = .handshake) (he : record.header.epoch = 1)
    (s : Flight Addr) : (clientFlightRecord peer record).run s = (clientFinishedRecord peer record).run s := by
  simp only [clientFlightRecord, ht, he]
  rfl

end Specification

end ThreadCommissioner.ServerDriver
