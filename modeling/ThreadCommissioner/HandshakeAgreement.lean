import Mathlib.Logic.Relation
import ThreadCommissioner.ClientDriver
import ThreadCommissioner.HonestExchange
import ThreadCommissioner.ServerDriver

namespace ThreadCommissioner.HandshakeAgreement

open ByteStrings ClientDriver ClientHandshake Computations Drivers EcJpakeCodec Errors HandshakeMessages List
  Hellos HonestExchange KeySchedule Primitives RecordProtection Records Residues ServerDriver ServerHandshake
  Sessions

section Carried

variable {records : List DtlsRecord} {m : HandshakeMessage} {seq : UInt64}

theorem Draws.finished_short (mseq : UInt16) (verifyData : ByteVector 12) :
    (HandshakeMessage.mk .finished mseq verifyData.toList).Short := by
  rw [HandshakeMessage.Short, List.Vector.toList_length]
  decide

theorem datagram_le_of_length (hcount : records.length ≤ 3)
    (h : ∀ r ∈ records, r.bytes.length ≤ 1065) : (datagramOf records).length ≤ maxDatagramSize := by
  have hsum : (datagramOf records).length ≤ records.length * 1065 := by
    induction records with
    | nil => rfl
    | cons r records ih =>
      have hr := h r (by simp)
      have hrest := ih (by simp at hcount; omega) fun r' hr' => h r' (by simp [hr'])
      rw [datagramOf] at hrest ⊢
      rw [flatMap_cons, length_append, length_cons]
      omega
  rw [maxDatagramSize]
  omega

theorem serverHelloDone_short : serverHelloDoneMessage.Short := Nat.zero_le _

/-- The records survive the encoding and fit the receiver's buffer. -/
def Carried (records : List DtlsRecord) : Prop :=
  (∀ r ∈ records, r.WellFormed) ∧ (datagramOf records).length ≤ maxDatagramSize

theorem carried_of_forall (hcount : records.length ≤ 3)
    (h : ∀ r ∈ records, r.WellFormed ∧ r.bytes.length ≤ 1065) : Carried records :=
  ⟨fun r hr => (h r hr).1, datagram_le_of_length hcount fun r hr => (h r hr).2⟩

theorem carried_record (hm : m.Short) (hs : seq.toNat < 2 ^ 48) :
    (m.record 0 seq).WellFormed ∧ (m.record 0 seq).bytes.length ≤ 1065 :=
  ⟨hm.record_wellFormed 0 hs, (length_bytes_le hm 0 seq).trans (by decide)⟩

theorem carried_message (hm : m.Short) (hs : seq.toNat < 2 ^ 48) : Carried [m.record 0 seq] :=
  carried_of_forall (by simp) (by simpa using carried_record hm hs)

theorem carried_changeCipherSpec (hs : seq.toNat < 2 ^ 48) :
    (changeCipherSpecRecord seq).WellFormed ∧ (changeCipherSpecRecord seq).bytes.length ≤ 1065 := by
  refine ⟨changeCipherSpec_wellFormed hs, ?_⟩
  rw [DtlsRecord.bytes, length_append, RecordHeader.length_encode]
  exact show 13 + 1 ≤ 1065 by decide

end Carried

section Flows

variable [Suite] {Addr TransportError : Type}

def helloStateOf (client : ThreadDtlsHandshake) : DtlsClientHelloState :=
  .withEcjpakeKkpp client.clientRandom (kkppBytes client.clientRoundOne)

/-- The state after the first hello, with the server's cookie. -/
def cookieStateOf (client : ThreadDtlsHandshake) (cookie : Bytes) : DtlsClientHelloState :=
  { (helloStateOf client).advance with cookie }

section ClientSteps

variable {client : ThreadDtlsHandshake} {server : ThreadDtlsServerHandshake} {secret : Bytes} {rng rng' : Rng}
  (hc : Honest client.ecjpake client.clientRoundOne .client secret) {cookie : Bytes}

include hc

theorem nextClientHelloRecord_of_honest (hcookie : cookie.length ≤ 255) {state : DtlsClientHelloState}
    (hstate : state.clientHello = .threadProfileWithEcjpake client.clientRandom cookie
      (kkppBytes client.clientRoundOne)) : nextClientHelloRecord.run state =
      .ok ((helloMessage client state.nextMessageSequence cookie).record 0 state.nextRecordSequence)
        state.advance := by
  have hm : state.message = helloMessage client state.nextMessageSequence cookie := by
    rw [DtlsClientHelloState.message, hstate, helloMessage]
  have hfits : state.clientHello.Fits := by
    rw [hstate]
    exact threadProfileWithEcjpake_fits hcookie (hc.length_kkpp.trans (by decide))
  rw [← hm]
  refine nextClientHelloRecord_of_fits hfits ?_
  rw [hm]
  exact hc.helloMessage_short hcookie _

theorem begin_eq (hnew : ThreadDtlsHandshake.new secret rng = (client, rng')) :
    begin secret rng = .ok (⟨.helloVerify client (helloStateOf client).advance, rng',
      [datagramOf [(helloMessage client 0 []).record 0 0]]⟩ : Progress TransportError) := by
  have hrun : nextClientHelloRecord.run (helloStateOf client) =
      .ok ((helloMessage client 0 []).record 0 0) (helloStateOf client).advance :=
    nextClientHelloRecord_of_honest hc (Nat.zero_le _) rfl
  have hshort : (helloMessage client 0 []).Short :=
    hc.helloMessage_short (show ([] : Bytes).length ≤ 255 from Nat.zero_le _) 0
  rw [begin, hnew]
  dsimp only
  have hstate : client.clientHelloState = .ok (helloStateOf client) := by
    rw [ThreadDtlsHandshake.clientHelloState, hc.encodeTlsKkpp, ok_bind]
    rfl
  rw [hstate, ok_bind, exec_of_ok hrun, ok_bind]
  dsimp only
  rw [encode_record hshort (by decide), ok_bind]
  rfl

theorem afterHelloVerify_eq (hcookie : cookie.length ≤ 255) : afterHelloVerify client (cookieStateOf client cookie) rng =
      .ok (⟨.serverFlight (client.record (helloMessage client 1 cookie)) (cookieStateOf client cookie).advance,
        rng, [datagramOf [(helloMessage client 1 cookie).record 0 1]]⟩ : Progress TransportError) := by
  have hrun : nextClientHelloRecord.run (cookieStateOf client cookie) =
      .ok ((helloMessage client 1 cookie).record 0 1) (cookieStateOf client cookie).advance :=
    nextClientHelloRecord_of_honest hc hcookie rfl
  have hshort := hc.helloMessage_short hcookie 1
  have hparse : parseUnfragmentedHandshakeRecord ((helloMessage client 1 cookie).record 0 1) .clientHello =
      .ok (helloMessage client 1 cookie) := hshort.parse_record 0 1
  have hrecord : (recordClientHello (helloMessage client 1 cookie)).run client =
      .ok () (client.record (helloMessage client 1 cookie)) := recordClientHello_eq_ok.mpr ⟨rfl, hshort.fits, rfl⟩
  rw [afterHelloVerify, exec_of_ok hrun, ok_bind]
  dsimp only
  rw [hparse, ok_bind, exec_of_ok hrecord, ok_bind]
  dsimp only
  rw [encode_record hshort (by decide), ok_bind]
  rfl

theorem process_verifyRequest (hcookie : cookie.length ≤ 255) (seq : UInt64) :
    process rng [(verifyRequestMessage 0 cookie).record 0 seq] (.helloVerify client (helloStateOf client).advance) =
      .ok (⟨.serverFlight (client.record (helloMessage client 1 cookie)) (cookieStateOf client cookie).advance,
        rng, [datagramOf [(helloMessage client 1 cookie).record 0 1]]⟩ : Progress TransportError) := by
  have hbody : (helloVerifyRecord ((verifyRequestMessage 0 cookie).record 0 seq)).run
      (helloStateOf client).advance = .ok (some ()) (cookieStateOf client cookie) := by
    have hhandle : (handleHelloVerifyRequest ((verifyRequestMessage 0 cookie).record 0 seq)).run
        (helloStateOf client).advance = .ok ⟨dtls12Version, cookie⟩ (cookieStateOf client cookie) :=
      handleHelloVerifyRequest_of_bytes rfl hcookie seq
    have hany : [verifyRequestMessage 0 cookie].any (·.messageType = .helloVerifyRequest) = true := rfl
    change (do
      let messages ← parseUnfragmentedHandshakeMessages ((verifyRequestMessage 0 cookie).record 0 seq)
      if messages.any (·.messageType = .helloVerifyRequest) then
        let _ ← handleHelloVerifyRequest ((verifyRequestMessage 0 cookie).record 0 seq)
        return some ()
      else return none : EStateM DtlsError DtlsClientHelloState (Option Unit)).run _ = _
    rw [lift_bind_of_ok ((verifyRequest_short hcookie 0).parse_records 0 seq), if_pos hany, bind_of_ok hhandle]
    rfl
  rw [process, exec_of_ok (forEach_cons_some hbody), ok_bind]
  exact afterHelloVerify_eq hc hcookie

end ClientSteps

/-- What the two ends draw before they meet. -/
structure Draws where
  client : ThreadDtlsHandshake
  clientRng : Rng
  cookies : DtlsCookieGenerator
  server : ThreadDtlsServerHandshake
  serverRng : Rng

def drawsOf (sharedSecret : Bytes) (clientRng serverRng : Rng) : Draws :=
  let (client, clientRng) := ThreadDtlsHandshake.new sharedSecret clientRng
  let (cookies, serverRng) := DtlsCookieGenerator.new serverRng
  let (server, serverRng) := ThreadDtlsServerHandshake.new sharedSecret serverRng
  ⟨client, clientRng, cookies, server, serverRng⟩

namespace Draws

variable (d : Draws) (keys : ThreadDtlsKeyMaterial)

def cookie : Bytes := (d.cookies.cookie d.client.clientRandom).toList

def hello : HandshakeMessage := helloMessage d.client 1 d.cookie

def serverKeyExchange : HandshakeMessage := serverKeyExchangeMessage d.client.ecjpake d.server.ecjpake d.serverRng

def clientKeyExchange : HandshakeMessage :=
  HonestExchange.clientKeyExchangeMessage d.client.ecjpake d.server.ecjpake 2 d.clientRng

def beforeFinished : List HandshakeMessage :=
  [d.hello, serverHelloMessage d.server, d.serverKeyExchange, serverHelloDoneMessage, d.clientKeyExchange]

def clientFinished : HandshakeMessage :=
  ⟨.finished, 3, ((HandshakeTranscript.ofMessages d.beforeFinished).finishedVerifyData
    keys.masterSecret .client).toList⟩

def serverFinished : HandshakeMessage :=
  ⟨.finished, 4, ((HandshakeTranscript.ofMessages (d.beforeFinished ++ [d.clientFinished keys])).finishedVerifyData
    keys.masterSecret .server).toList⟩

def taughtClient (messages : List HandshakeMessage) : ThreadDtlsHandshake :=
  { d.client with
    serverRoundOne := some d.server.serverRoundOne
    serverRoundTwo := some (roundTwoOf d.server.ecjpake d.client.ecjpake d.serverRng).1
    serverRandom := some d.server.serverRandom
    transcript := .ofMessages messages }

def taughtServer (messages : List HandshakeMessage) : ThreadDtlsServerHandshake :=
  { d.server with
    clientRoundOne := some d.client.clientRoundOne
    clientRandom := some d.client.clientRandom
    transcript := .ofMessages messages }

def keyedServer (messages : List HandshakeMessage) : ThreadDtlsServerHandshake :=
  { d.taughtServer messages with
    clientRoundTwo := some (roundTwoOf d.client.ecjpake d.server.ecjpake d.clientRng).1 }

abbrev opening : List HandshakeMessage :=
  [d.hello, serverHelloMessage d.server, d.serverKeyExchange, serverHelloDoneMessage]

abbrev flightRecords : List DtlsRecord :=
  [(serverHelloMessage d.server).record 0 1, d.serverKeyExchange.record 0 2, serverHelloDoneMessage.record 0 3]

abbrev keyRecords (sealedRecord : DtlsRecord) : List DtlsRecord :=
  [d.clientKeyExchange.record 0 2, changeCipherSpecRecord 3, sealedRecord]

abbrev clientMessages : List HandshakeMessage := d.beforeFinished ++ [d.clientFinished keys]

abbrev allMessages : List HandshakeMessage := d.beforeFinished ++ [d.clientFinished keys] ++ [d.serverFinished keys]

abbrev SealsClient (sealedRecord : DtlsRecord) : Prop :=
  protectAes128Ccm8Record .handshake 1 0 keys.keyBlock.clientWriteKey keys.keyBlock.clientWriteIv
    (d.clientFinished keys).bytes = .ok sealedRecord

abbrev SealsServer (sealedRecord : DtlsRecord) : Prop :=
  protectAes128Ccm8Record .handshake 1 0 keys.keyBlock.serverWriteKey keys.keyBlock.serverWriteIv
    (d.serverFinished keys).bytes = .ok sealedRecord

variable {d keys} (ms : List HandshakeMessage) (m : HandshakeMessage)

theorem record_taughtClient : (d.taughtClient ms).record m = d.taughtClient (ms ++ [m]) := by
  simp [taughtClient, ThreadDtlsHandshake.record, HandshakeTranscript.ofMessages]

theorem record_taughtServer : (d.taughtServer ms).record m = d.taughtServer (ms ++ [m]) := by
  simp [taughtServer, ThreadDtlsServerHandshake.record, HandshakeTranscript.ofMessages]

theorem record_keyedServer : (d.keyedServer ms).record m = d.keyedServer (ms ++ [m]) := by
  simp [keyedServer, taughtServer, ThreadDtlsServerHandshake.record, HandshakeTranscript.ofMessages]

theorem cookie_length : d.cookie.length = 16 := List.Vector.toList_length _

theorem cookie_le : d.cookie.length ≤ 255 := by
  rw [d.cookie_length]
  decide

end Draws

/-- The draws are those of two honest ends over one secret, and nothing has
been said yet. -/
structure Ready (d : Draws) (sharedSecret : Bytes) : Prop where
  pair : Pair d.client d.server sharedSecret
  clientFresh : d.client.transcript = .new
  serverFresh : d.server.transcript = .new

theorem drawsOf_ready {secret : Bytes} {crng srng : Rng} (h : Matched (drawsOf secret crng srng).client.ecjpake
      (drawsOf secret crng srng).server.ecjpake) : Ready (drawsOf secret crng srng) secret :=
  ⟨⟨honest_client _ _, honest_server _ _, h⟩, rfl, rfl⟩

section Steps

variable {d : Draws} {keys : ThreadDtlsKeyMaterial} {secret : Bytes} {caddr saddr : Addr}
  {rs : List DtlsRecord}

variable {m : HandshakeMessage} {seq : UInt64}

theorem clientHelloRecord_of_message {m : HandshakeMessage} {cookies : DtlsCookieGenerator} {peer : Addr} (hm : m.Short) (seq : UInt64)
    {out out' : Outbound Addr} {r : Option HandshakeMessage} (h : (clientHelloMessage cookies peer m).run out = .ok r out') :
    (forEach (clientHelloRecord cookies peer) [m.record 0 seq]).run out = .ok r out' := by
  have hrecord : (clientHelloRecord cookies peer (m.record 0 seq)).run out =
      (forEach (clientHelloMessage cookies peer) [m]).run out := by
    rw [clientHelloRecord, if_pos ⟨rfl, rfl⟩, lift_bind_of_ok (hm.parse_records 0 seq)]
  cases r with
  | some m' => exact forEach_cons_some (hrecord.trans (forEach_cons_some h))
  | none => exact forEach_cons_none (hrecord.trans (forEach_cons_none h))

theorem carried_sealed (hm : m.Short) {key : ByteVector 16} {fixedIv : ByteVector 4} {sealedRecord : DtlsRecord}
    (h : protectAes128Ccm8Record .handshake 1 0 key fixedIv m.bytes = .ok sealedRecord) :
    sealedRecord.WellFormed ∧ sealedRecord.bytes.length ≤ 1065 := by
  refine ⟨protect_wellFormed h, ?_⟩
  rw [(header_of_protect h).2.2]
  exact Nat.add_le_add_right hm.length_bytes 29

theorem Ready.flight_carried (h : Ready d secret) : Carried d.flightRecords := by
  refine carried_of_forall (by simp) ?_
  simp only [forall_mem_cons]
  exact ⟨carried_record h.pair.honestServer.serverHelloMessage_short (by decide),
    carried_record (h.pair.serverKeyExchange_short d.serverRng) (by decide),
    carried_record serverHelloDone_short (by decide), fun _ hr => nomatch hr⟩

theorem Ready.keys_carried (h : Ready d secret) {sealedClient : DtlsRecord}
    (hclient : d.SealsClient keys sealedClient) : Carried (d.keyRecords sealedClient) := by
  refine carried_of_forall (by simp) ?_
  simp only [forall_mem_cons]
  exact ⟨carried_record (h.pair.clientKeyExchange_short 2 d.clientRng) (by decide),
    carried_changeCipherSpec (by decide), carried_sealed (Draws.finished_short _ _) hclient, fun _ hr => nomatch hr⟩

theorem finished_carried {sealedServer : DtlsRecord} (hserver : d.SealsServer keys sealedServer) :
    Carried [changeCipherSpecRecord 4, sealedServer] := by
  refine carried_of_forall (by simp) ?_
  simp only [forall_mem_cons]
  exact ⟨carried_changeCipherSpec (by decide), carried_sealed (Draws.finished_short _ _) hserver, fun _ hr => nomatch hr⟩

theorem verifyClientFinished_keyedServer (d : Draws) (keys : ThreadDtlsKeyMaterial) :
    (verifyClientFinished (d.clientFinished keys) keys).run (d.keyedServer d.beforeFinished) =
      .ok () (d.keyedServer (d.clientMessages keys)) := by
  have hfit : (d.clientFinished keys).Short := Draws.finished_short _ _
  exact verifyClientFinished_eq_ok.mpr ⟨rfl, rfl, hfit.fits, (Draws.record_keyedServer _ _).symm⟩

theorem buildServerFinished_keyedServer (d : Draws) (keys : ThreadDtlsKeyMaterial) :
    (buildServerFinished 4 keys).run (d.keyedServer (d.clientMessages keys)) = .ok (d.serverFinished keys)
        (d.keyedServer (d.allMessages keys)) := buildServerFinished_eq_ok.mpr ⟨rfl, (Draws.record_keyedServer _ _).symm⟩

section Exchange

variable (h : Ready d secret)

include h

theorem Ready.buildServerFlight : (ServerDriver.buildServerFlight d.hello).run (d.server, d.serverRng) =
      .ok (serverHelloMessage d.server, d.serverKeyExchange, serverHelloDoneMessage) (d.taughtServer d.opening,
          (roundTwoOf d.server.ecjpake d.client.ecjpake d.serverRng).2) := by
  have hpair (messages) : Pair d.client (d.taughtServer messages) secret :=
    ⟨h.pair.honestClient, h.pair.honestServer, h.pair.matched⟩
  have hcookie : d.cookie.length ≤ 255 := Draws.cookie_le
  have h₁ := h.pair.honestClient.handleClientHello hcookie 1 d.server
  have hfirst : ThreadDtlsServerHandshake.record { d.server with
      clientRoundOne := some d.client.clientRoundOne
      clientRandom := some d.client.clientRandom } (helloMessage d.client 1 d.cookie) = d.taughtServer [d.hello] := by
    simp [Draws.taughtServer, ThreadDtlsServerHandshake.record, HandshakeTranscript.ofMessages, h.serverFresh,
      HandshakeTranscript.new, Draws.hello]
  rw [hfirst] at h₁
  have h₂ : (buildServerHello 1).run (d.taughtServer [d.hello]) =
      .ok (serverHelloMessage d.server) (d.taughtServer [d.hello, serverHelloMessage d.server]) := by
    refine ((hpair [d.hello]).honestServer.buildServerHello rfl).trans ?_
    rw [Draws.record_taughtServer]
    rfl
  have h₃ : (buildServerKeyExchange 2).run (d.taughtServer [d.hello, serverHelloMessage d.server], d.serverRng) =
      .ok d.serverKeyExchange
        (d.taughtServer [d.hello, serverHelloMessage d.server, d.serverKeyExchange],
          (roundTwoOf d.server.ecjpake d.client.ecjpake d.serverRng).2) := by
    refine ((hpair _).buildServerKeyExchange rfl d.serverRng).trans ?_
    rw [Draws.record_taughtServer]
    rfl
  have h₄ : (buildServerHelloDone 3).run
      (d.taughtServer [d.hello, serverHelloMessage d.server, d.serverKeyExchange]) =
      .ok serverHelloDoneMessage (d.taughtServer d.opening) := by
    refine buildServerHelloDone_eq_ok.mpr ⟨rfl, ?_⟩
    rw [Draws.record_taughtServer]
    rfl
  exact buildServerFlight_eq_ok.mpr ⟨_, _, _, _, h₁, h₂, h₃, h₄⟩

theorem Ready.exists_keys : ∃ keys : ThreadDtlsKeyMaterial, (∀ ms, (d.taughtClient ms).deriveKeyMaterial = .ok keys) ∧
    ∀ ms, (d.keyedServer ms).deriveKeyMaterial = .ok keys := by
  have hpair : Pair (d.taughtClient []) (d.keyedServer []) secret :=
    ⟨h.pair.honestClient, h.pair.honestServer, h.pair.matched⟩
  obtain ⟨keys, hc, hs⟩ := hpair.exists_keyMaterial
  exact ⟨keys, fun _ => hc d.serverRng rfl rfl rfl, fun _ => hs d.clientRng rfl rfl rfl⟩

theorem Ready.takeFlight : (forEach serverFlightRecord d.flightRecords).run (d.client.record d.hello) =
      .ok (some ()) (d.taughtClient d.opening) := by
  have hhello := h.pair.honestServer.serverHelloMessage_short
  have hkey : d.serverKeyExchange.Short := h.pair.serverKeyExchange_short d.serverRng
  refine (forEach_cons_none (serverFlightRecord_of_short hhello 0 1
    (serverFlightMessage_hello (h.pair.honestServer.handleServerHello _)))).trans ?_
  refine (forEach_cons_none (serverFlightRecord_of_short hkey 0 2
    (serverFlightMessage_keyExchange (h.pair.handleServerKeyExchange d.serverRng _)))).trans ?_
  refine forEach_cons_some (serverFlightRecord_of_short serverHelloDone_short 0 3 (serverFlightMessage_done ?_))
  refine handleServerHelloDone_eq_ok.mpr ⟨⟨rfl, rfl⟩, serverHelloDone_short.fits, ?_⟩
  simp [Draws.taughtClient, ThreadDtlsHandshake.record, HandshakeTranscript.ofMessages, h.clientFresh,
    HandshakeTranscript.new, Draws.serverKeyExchange]

theorem Ready.afterServerFlight
    (hkeys : ∀ ms, (d.taughtClient ms).deriveKeyMaterial = .ok keys) {sealedFinished : DtlsRecord}
    (hseal : d.SealsClient keys sealedFinished) :
    ClientDriver.afterServerFlight (d.taughtClient d.opening) (cookieStateOf d.client d.cookie).advance d.clientRng =
      .ok (⟨.serverFinished (d.taughtClient (d.clientMessages keys)) keys false,
        (roundTwoOf d.client.ecjpake d.server.ecjpake d.clientRng).2, [datagramOf (d.keyRecords sealedFinished)]⟩ :
          Progress TransportError) := by
  have hpair : Pair (d.taughtClient d.opening) d.server secret := ⟨h.pair.honestClient, h.pair.honestServer, h.pair.matched⟩
  have hshort : d.clientKeyExchange.Short := h.pair.clientKeyExchange_short 2 d.clientRng
  have hexchange : (buildClientKeyExchange 2).run (d.taughtClient d.opening, d.clientRng) =
      .ok d.clientKeyExchange (d.taughtClient d.beforeFinished,
        (roundTwoOf d.client.ecjpake d.server.ecjpake d.clientRng).2) := by
    refine (hpair.buildClientKeyExchange rfl 2 d.clientRng).trans ?_
    rw [Draws.record_taughtClient]
    rfl
  have hfinished : (buildClientFinished 3).run (d.taughtClient d.beforeFinished) =
      .ok (d.clientFinished keys) (d.taughtClient (d.clientMessages keys)) :=
    buildClientFinished_eq_ok.mpr ⟨keys, hkeys _, rfl, (Draws.record_taughtClient _ _).symm⟩
  have hfit : (d.clientFinished keys).Short := Draws.finished_short _ _
  exact afterServerFlight_eq_ok.mpr ⟨_, _, _, keys, _, _, _, _, _, _, sealedFinished, _, hexchange, hkeys _,
    hfinished, HandshakeMessage.encode_of_fits hshort.fits, hshort.new_record _ _, changeCipherSpec_new _,
    HandshakeMessage.encode_of_fits hfit.fits, hseal, encodeRecords_of_wellFormed (h.keys_carried hseal).1, rfl⟩

theorem Ready.process_flight (hkeys : ∀ ms, (d.taughtClient ms).deriveKeyMaterial = .ok keys) {sealedClient : DtlsRecord}
    (hseal : d.SealsClient keys sealedClient) : process d.clientRng d.flightRecords
        (.serverFlight (d.client.record d.hello) (cookieStateOf d.client d.cookie).advance) =
      .ok (⟨.serverFinished (d.taughtClient (d.clientMessages keys)) keys false,
        (roundTwoOf d.client.ecjpake d.server.ecjpake d.clientRng).2, [datagramOf (d.keyRecords sealedClient)]⟩ :
          Progress TransportError) := by
  rw [process, exec_of_ok h.takeFlight, ok_bind]
  exact h.afterServerFlight hkeys hseal

theorem Ready.exchange :
    (handleClientKeyExchange d.clientKeyExchange).run (d.taughtServer d.opening) = .ok () (d.keyedServer d.beforeFinished) := by
  refine (h.pair.handleClientKeyExchange 2 d.clientRng _).trans ?_
  exact congrArg (EStateM.Result.ok ()) (d.record_keyedServer d.opening d.clientKeyExchange)

end Exchange

section Finished

variable {sealedClient sealedServer : DtlsRecord}
  (hclient : d.SealsClient keys sealedClient)
  (hserver : d.SealsServer keys sealedServer)

include hclient hserver in
theorem Ready.takeClientFinished (sent : List (Addr × Bytes)) : (clientFlightRecord caddr sealedClient).run
        ⟨d.keyedServer d.beforeFinished, true, some keys, ⟨4, sent⟩⟩ =
      .ok (some ()) ⟨d.keyedServer (d.allMessages keys), true,
        some keys, ⟨4, sent ++ [(caddr, datagramOf [changeCipherSpecRecord 4, sealedServer])]⟩⟩ := by
  obtain ⟨ht, he, -⟩ := header_of_protect hclient
  have hfit : (d.clientFinished keys).Short := Draws.finished_short _ _
  have hfit' : (d.serverFinished keys).Short := Draws.finished_short _ _
  have hparse : parseUnfragmentedHandshakeRecord ((d.clientFinished keys).record 1 0) .finished =
      .ok (d.clientFinished keys) := hfit.parse_record 1 0
  rw [clientFlightRecord_finished ht he]
  exact clientFinishedRecord_eq_ok.mpr ⟨rfl, rfl, keys, _, _, d.clientFinished keys, _, d.serverFinished keys, _, _, _,
    sealedServer, _, rfl, open_protect hclient, hfit.new_record 1 0, hparse, verifyClientFinished_keyedServer d keys,
    buildServerFinished_keyedServer d keys,
    changeCipherSpec_new _, HandshakeMessage.encode_of_fits hfit'.fits, hserver,
    sendRecords_of_wellFormed (finished_carried hserver).1, rfl⟩

include hclient hserver in
theorem Ready.takeClientFlight (h : Ready d secret)
    (hkeys : ∀ messages, (d.keyedServer messages).deriveKeyMaterial = .ok keys) (sent : List (Addr × Bytes)) :
    (forEach (clientFlightRecord caddr) (d.keyRecords sealedClient)).run
        ⟨d.taughtServer d.opening, false, none, ⟨4, sent⟩⟩ = .ok (some ()) ⟨d.keyedServer (d.allMessages keys), true,
        some keys, ⟨4, sent ++ [(caddr, datagramOf [changeCipherSpecRecord 4, sealedServer])]⟩⟩ := by
  have hshort : d.clientKeyExchange.Short := h.pair.clientKeyExchange_short 2 d.clientRng
  have hmessage : (ServerDriver.clientKeyExchangeMessage d.clientKeyExchange).run (⟨d.taughtServer d.opening, false, none, ⟨4, sent⟩⟩ :
        Flight Addr) = .ok none ⟨d.keyedServer d.beforeFinished, false, some keys, ⟨4, sent⟩⟩ :=
    clientKeyExchangeMessage_eq_ok.mpr ⟨rfl, _, keys, h.exchange, hkeys _, rfl⟩
  refine (forEach_cons_none (clientFlightRecord_keyExchange hshort 2 hmessage)).trans ?_
  refine (forEach_cons_none (clientFlightRecord_changeCipherSpec 3 _)).trans ?_
  exact forEach_cons_some (Ready.takeClientFinished hclient hserver sent)

include hserver in
theorem Ready.takeServerFinished (rng : Rng) : process rng [changeCipherSpecRecord 4, sealedServer]
        (.serverFinished (d.taughtClient (d.clientMessages keys)) keys false) =
      .ok (⟨.connected (d.taughtClient (d.allMessages keys))
        (.new keys .client), rng, []⟩ : Progress TransportError) := by
  obtain ⟨ht, he, -⟩ := header_of_protect hserver
  have hfit : (d.serverFinished keys).Short := Draws.finished_short _ _
  have hverify : (verifyServerFinished (d.serverFinished keys) keys).run
      (d.taughtClient (d.clientMessages keys)) =
      .ok () (d.taughtClient (d.allMessages keys)) :=
    verifyServerFinished_eq_ok.mpr ⟨rfl, rfl, hfit.fits, (Draws.record_taughtClient _ _).symm⟩
  have hrun : (forEach (serverFinishedRecord keys) [changeCipherSpecRecord 4, sealedServer]).run
      (d.taughtClient (d.clientMessages keys), false) = .ok (some ())
        (d.taughtClient (d.allMessages keys), true) := by
    refine (forEach_cons_none (serverFinishedRecord_changeCipherSpec rfl rfl)).trans ?_
    exact forEach_cons_some (serverFinishedRecord_finished ht he (open_protect hserver) (hfit.new_record 1 0)
      (hfit.parse_records 1 0) hverify)
  rw [process, exec_of_ok hrun]
  rfl

end Finished

variable [DecidableEq Addr]

theorem step_of_process {rng : Rng} {stage : ConnectStage TransportError}
    {progress : Progress TransportError} (hwait : stage.isWaiting = true) (hcarried : Carried rs)
    (h : process rng rs stage = .ok progress) (peer addr : Addr) (outbox : List Bytes) :
    (⟨peer, rng, stage, outbox⟩ : Client Addr TransportError).step (.datagram (datagramOf rs) addr peer) =
      ⟨peer, progress.rng, progress.stage, outbox ++ progress.sent⟩ := by
  rw [Client.step, if_pos hwait, recvRecords_of_wellFormed hcarried.1 hcarried.2]
  dsimp only
  rw [if_pos rfl, h]
  rfl

section Server

variable {pskc : Bytes} {rng : Rng} {out out' : Outbound Addr} {cookies : DtlsCookieGenerator}
  {rs : List DtlsRecord} {addr peer : Addr} (hcarried : Carried rs)

include hcarried

theorem step_accepted {hs handshake' : ThreadDtlsServerHandshake} {saw saw' : Bool}
    {keyMaterial : Option ThreadDtlsKeyMaterial} {atAddr : Addr}
    (h : (forEach (clientFlightRecord peer) rs).run ⟨hs, saw, keyMaterial, out⟩ =
      .ok (some ()) ⟨handshake', saw', some keys, out'⟩) :
    (⟨pskc, rng, .clientFlight addr peer hs saw keyMaterial, out⟩ : Server Addr TransportError).step
        (.datagram (datagramOf rs) atAddr peer) = ⟨pskc, rng, .accepted addr peer handshake' keys, out'⟩ := by
  simp only [Server.step, recvRecords_of_wellFormed hcarried.1 hcarried.2, h, if_true]

end Server

theorem Ready.challenge (h : Ready d secret) (rng : Rng) (sent : List (Addr × Bytes)) :
    (⟨secret, rng, .clientHello d.cookies, ⟨0, sent⟩⟩ : Server Addr TransportError).step
        (.datagram (datagramOf [(helloMessage d.client 0 []).record 0 0]) saddr caddr) =
      ⟨secret, rng, .clientHello d.cookies,
        ⟨1, sent ++ [(caddr, datagramOf [(verifyRequestMessage 0 d.cookie).record 0 0])]⟩⟩ := by
  have hempty : ([] : Bytes).length ≤ 255 := Nat.zero_le _
  have hshort := h.pair.honestClient.helloMessage_short hempty 0
  have hfits : (ClientHello.threadProfileWithEcjpake d.client.clientRandom []
      (kkppBytes d.client.clientRoundOne)).Fits :=
    threadProfileWithEcjpake_fits hempty (h.pair.honestClient.length_kkpp.trans (by decide))
  -- the first hello carries no cookie, and a cookie is never empty
  have hcookie : ¬ d.cookies.verify d.client.clientRandom [] = true := by
    intro hv
    have hnil : d.cookie = [] := eq_of_beq hv
    have hlength := d.cookie_length
    rw [hnil] at hlength
    cases hlength
  have hdecode : ClientHello.decode (helloMessage d.client 0 []).payload =
      .ok (.threadProfileWithEcjpake d.client.clientRandom [] (kkppBytes d.client.clientRoundOne)) :=
    ClientHello.decode_bytes hfits
  have hmessage : (clientHelloMessage d.cookies caddr (helloMessage d.client 0 [])).run ⟨0, sent⟩ =
      .ok none ⟨1, sent ++ [(caddr, datagramOf [(verifyRequestMessage 0 d.cookie).record 0 0])]⟩ := by
    rw [clientHelloMessage_challenge rfl hdecode hcookie]
    rfl
  have hcarried : Carried [(helloMessage d.client 0 []).record 0 0] := carried_message hshort (by decide)
  simp only [Server.step, recvRecords_of_wellFormed hcarried.1 hcarried.2, clientHelloRecord_of_message hshort 0 hmessage]

theorem Ready.commit (h : Ready d secret) {rng : Rng}
    (hnew : ThreadDtlsServerHandshake.new secret rng = (d.server, d.serverRng)) (sent : List (Addr × Bytes)) :
    (⟨secret, rng, .clientHello d.cookies, ⟨1, sent⟩⟩ : Server Addr TransportError).step
        (.datagram (datagramOf [d.hello.record 0 1]) saddr caddr) =
      ⟨secret, (roundTwoOf d.server.ecjpake d.client.ecjpake d.serverRng).2,
        .clientFlight saddr caddr (d.taughtServer d.opening) false none,
        ⟨4, sent ++ [(caddr, datagramOf d.flightRecords)]⟩⟩ := by
  have hshort : d.hello.Short := h.pair.honestClient.helloMessage_short Draws.cookie_le 1
  have hfits : (ClientHello.threadProfileWithEcjpake d.client.clientRandom d.cookie
      (kkppBytes d.client.clientRoundOne)).Fits :=
    threadProfileWithEcjpake_fits Draws.cookie_le (h.pair.honestClient.length_kkpp.trans (by decide))
  have hdecode : ClientHello.decode d.hello.payload =
      .ok (.threadProfileWithEcjpake d.client.clientRandom d.cookie (kkppBytes d.client.clientRoundOne)) :=
    ClientHello.decode_bytes hfits
  have hmessage : (clientHelloMessage d.cookies caddr d.hello).run ⟨1, sent⟩ = .ok (some d.hello) ⟨1, sent⟩ :=
    clientHelloMessage_accept rfl hdecode (beq_self_eq_true d.cookie)
  have hcarried : Carried [d.hello.record 0 1] := carried_message hshort (by decide)
  simp only [Server.step, recvRecords_of_wellFormed hcarried.1 hcarried.2, clientHelloRecord_of_message hshort 1 hmessage,
    Server.commit]
  rw [hnew, exec_of_ok h.buildServerFlight]
  dsimp only
  have hs := h.pair.honestServer.serverHelloMessage_short
  have hk : d.serverKeyExchange.Short := h.pair.serverKeyExchange_short d.serverRng
  rw [bind_of_ok (flightRecord_of_short hs _), bind_of_ok (flightRecord_of_short hk _),
    bind_of_ok (flightRecord_of_short serverHelloDone_short _)]
  erw [sendRecords_of_wellFormed h.flight_carried.1]
  rfl

end Steps

theorem Ready.start_client {secret : Bytes} {crng srng : Rng} (h : Ready (drawsOf secret crng srng) secret) (saddr : Addr) :
    (Client.start saddr secret crng : Client Addr TransportError) =
      ⟨saddr, (drawsOf secret crng srng).clientRng, .helloVerify (drawsOf secret crng srng).client
          (helloStateOf (drawsOf secret crng srng).client).advance,
        [datagramOf [(helloMessage (drawsOf secret crng srng).client 0 []).record 0 0]]⟩ := by
  rw [Client.start, begin_eq h.pair.honestClient rfl]
  rfl

theorem start_server {secret : Bytes} {srng : Rng} (crng : Rng) : (Server.start secret srng : Server Addr TransportError) =
    ⟨secret, (DtlsCookieGenerator.new srng).2, .clientHello (drawsOf secret crng srng).cookies, ⟨0, []⟩⟩ := rfl

theorem new_server {secret : Bytes} {srng : Rng} (crng : Rng) :
    ThreadDtlsServerHandshake.new secret (DtlsCookieGenerator.new srng).2 =
      ((drawsOf secret crng srng).server, (drawsOf secret crng srng).serverRng) := rfl

variable [DecidableEq Addr]

/-- The two flows with the datagrams each has sent and the other not received. -/
structure System (Addr TransportError : Type) where
  client : Client Addr TransportError
  server : Server Addr TransportError

/-- The network hands over the oldest datagram of one side; every datagram is
handed over once, in the order they were sent. -/
inductive Deliver (clientAddr serverAddr : Addr) : System Addr TransportError → System Addr TransportError → Prop
  | toServer {client : Client Addr TransportError} {server : Server Addr TransportError} {bytes : Bytes}
      {rest : List Bytes} (h : client.outbox = bytes :: rest) :
      Deliver clientAddr serverAddr ⟨client, server⟩
        ⟨{ client with outbox := rest }, server.step (.datagram bytes serverAddr clientAddr)⟩
  | toClient {client : Client Addr TransportError} {server : Server Addr TransportError} {bytes : Bytes}
      {rest : List (Addr × Bytes)} (h : server.out.sent = (clientAddr, bytes) :: rest) :
      Deliver clientAddr serverAddr ⟨client, server⟩
        ⟨client.step (.datagram bytes clientAddr serverAddr), { server with out := ⟨server.out.nextEpochZeroRecord, rest⟩ }⟩

section Delivery

variable {caddr saddr : Addr} {final : System Addr TransportError} {client : Client Addr TransportError}
  {server : Server Addr TransportError} {bytes : Bytes}

theorem endsIn_of_toServer (hc : client.outbox = [bytes]) (hs : server.out.sent = []) (h : EndsIn (Deliver caddr saddr) final
      ⟨{ client with outbox := [] }, server.step (.datagram bytes saddr caddr)⟩) :
    EndsIn (Deliver caddr saddr) final ⟨client, server⟩ := by
  refine .later ⟨_, .toServer hc⟩ ?_
  intro t ht
  cases ht with
  | toServer hout =>
    rw [hc] at hout
    cases hout
    exact h
  | toClient hsent =>
    rw [hs] at hsent
    cases hsent

theorem endsIn_of_toClient (hc : client.outbox = []) (hs : server.out.sent = [(caddr, bytes)])
    (h : EndsIn (Deliver caddr saddr) final
      ⟨client.step (.datagram bytes caddr saddr), { server with out := ⟨server.out.nextEpochZeroRecord, []⟩ }⟩) :
    EndsIn (Deliver caddr saddr) final ⟨client, server⟩ := by
  refine .later ⟨_, .toClient hs⟩ ?_
  intro t ht
  cases ht with
  | toServer hout =>
    rw [hc] at hout
    cases hout
  | toClient hsent =>
    rw [hs] at hsent
    cases hsent
    exact h

theorem endsIn_of_quiet (hc : client.outbox = []) (hs : server.out.sent = []) :
    EndsIn (Deliver caddr saddr) ⟨client, server⟩ ⟨client, server⟩ := by
  refine .done ?_
  intro t ht
  cases ht with
  | toServer hout =>
    rw [hc] at hout
    cases hout
  | toClient hsent =>
    rw [hs] at hsent
    cases hsent

end Delivery

/-- Both flows have returned. Each Finished carries the verify data of its
end's transcript before it, which the messages before it make up on both
sides. -/
structure Agreed (d : Draws) (final : System Addr TransportError) (clientAddr serverAddr : Addr)
    (client : ThreadDtlsHandshake) (server : ThreadDtlsServerHandshake) (keys : ThreadDtlsKeyMaterial) : Prop where
  connected : final.client.stage = .connected client (.new keys .client)
  accepted : final.server.stage = .accepted serverAddr clientAddr server keys
  clientTranscript : client.transcript =
    .ofMessages (d.beforeFinished ++ [d.clientFinished keys] ++ [d.serverFinished keys])
  serverTranscript : server.transcript =
    .ofMessages (d.beforeFinished ++ [d.clientFinished keys] ++ [d.serverFinished keys])
  kek : ∃ serverRandom, client.serverRandom = some serverRandom ∧
    server.deriveJoinerRouterKek keys =
      .ok (KeySchedule.deriveJoinerRouterKek keys.masterSecret client.clientRandom serverRandom)

theorem exists_sealed {m : HandshakeMessage} (hm : m.Short) (key : ByteVector 16) (fixedIv : ByteVector 4) :
    ∃ sealedRecord, protectAes128Ccm8Record .handshake 1 0 key fixedIv m.bytes = .ok sealedRecord := by
  have hlength := hm.length_bytes
  obtain ⟨cipher, h⟩ : ∃ cipher, protectAes128Ccm8Record .handshake 1 0 key fixedIv m.bytes =
      .ok (protectedRecord .handshake 1 0 cipher) := exists_protect key fixedIv (by decide) (by omega)
  exact ⟨_, h⟩

theorem Ready.exists_finished {d : Draws} {secret : Bytes} (h : Ready d secret) : ∃ keys sealedClient sealedServer,
      (∀ ms, (d.taughtClient ms).deriveKeyMaterial = .ok keys) ∧
      (∀ ms, (d.keyedServer ms).deriveKeyMaterial = .ok keys) ∧ d.SealsClient keys sealedClient ∧
      d.SealsServer keys sealedServer := by
  obtain ⟨keys, hclient, hserver⟩ := h.exists_keys
  have hfinC : (d.clientFinished keys).Short := Draws.finished_short _ _
  have hfinS : (d.serverFinished keys).Short := Draws.finished_short _ _
  obtain ⟨sealedClient, hsealC⟩ := exists_sealed hfinC keys.keyBlock.clientWriteKey keys.keyBlock.clientWriteIv
  obtain ⟨sealedServer, hsealS⟩ := exists_sealed hfinS keys.keyBlock.serverWriteKey keys.keyBlock.serverWriteIv
  exact ⟨keys, sealedClient, sealedServer, hclient, hserver, hsealC, hsealS⟩

def finalOf (d : Draws) (sharedSecret : Bytes) (clientAddr serverAddr : Addr) (keys : ThreadDtlsKeyMaterial) :
    System Addr TransportError where
  client := ⟨serverAddr, (roundTwoOf d.client.ecjpake d.server.ecjpake d.clientRng).2,
    .connected (d.taughtClient (d.beforeFinished ++ [d.clientFinished keys] ++ [d.serverFinished keys]))
      (.new keys .client), []⟩
  server := ⟨sharedSecret, (roundTwoOf d.server.ecjpake d.client.ecjpake d.serverRng).2,
    .accepted serverAddr clientAddr
      (d.keyedServer (d.beforeFinished ++ [d.clientFinished keys] ++ [d.serverFinished keys])) keys, ⟨4, []⟩⟩

section ClientSteps

variable {d : Draws} {secret : Bytes} {keys : ThreadDtlsKeyMaterial} {sealedClient sealedServer : DtlsRecord}

theorem Ready.step_verifyRequest (h : Ready d secret) (peer addr : Addr) (outbox : List Bytes) :
    (⟨peer, d.clientRng, .helloVerify d.client (helloStateOf d.client).advance, outbox⟩ : Client Addr TransportError).step
        (.datagram (datagramOf [(verifyRequestMessage 0 d.cookie).record 0 0]) addr peer) =
      ⟨peer, d.clientRng, .serverFlight (d.client.record d.hello) (cookieStateOf d.client d.cookie).advance,
        outbox ++ [datagramOf [d.hello.record 0 1]]⟩ :=
  step_of_process rfl (carried_message (verifyRequest_short Draws.cookie_le 0) (by decide))
    (process_verifyRequest h.pair.honestClient Draws.cookie_le 0) peer addr outbox

theorem Ready.step_serverFlight (h : Ready d secret) (hkeys : ∀ ms, (d.taughtClient ms).deriveKeyMaterial = .ok keys)
    (hseal : d.SealsClient keys sealedClient) (peer addr : Addr) (outbox : List Bytes) :
    (⟨peer, d.clientRng, .serverFlight (d.client.record d.hello) (cookieStateOf d.client d.cookie).advance, outbox⟩ :
      Client Addr TransportError).step (.datagram (datagramOf d.flightRecords) addr peer) =
      ⟨peer, (roundTwoOf d.client.ecjpake d.server.ecjpake d.clientRng).2,
        .serverFinished (d.taughtClient (d.clientMessages keys)) keys false,
        outbox ++ [datagramOf (d.keyRecords sealedClient)]⟩ :=
  step_of_process rfl h.flight_carried (h.process_flight hkeys hseal) peer addr outbox

theorem step_serverFinished (hseal : d.SealsServer keys sealedServer) (peer addr : Addr) (rng : Rng) (outbox : List Bytes) :
    (⟨peer, rng, .serverFinished (d.taughtClient (d.clientMessages keys)) keys false, outbox⟩ :
      Client Addr TransportError).step (.datagram (datagramOf [changeCipherSpecRecord 4, sealedServer]) addr peer) =
      ⟨peer, rng, .connected (d.taughtClient (d.allMessages keys)) (.new keys .client), outbox ++ []⟩ :=
  step_of_process rfl (finished_carried hseal) (Ready.takeServerFinished hseal rng) peer addr outbox

end ClientSteps

/-- Six datagrams connect the ends: two hellos and their answers, the client's
keys and the server's Finished. -/
theorem Ready.endsIn {d : Draws} {secret : Bytes} {rng : Rng} (h : Ready d secret)
    (hnew : ThreadDtlsServerHandshake.new secret rng = (d.server, d.serverRng)) (caddr saddr : Addr) :
    ∃ keys, EndsIn (Deliver caddr saddr) (finalOf d secret caddr saddr keys : System Addr TransportError)
      ⟨⟨saddr, d.clientRng, .helloVerify d.client (helloStateOf d.client).advance,
        [datagramOf [(helloMessage d.client 0 []).record 0 0]]⟩, ⟨secret, rng, .clientHello d.cookies, ⟨0, []⟩⟩⟩ := by
  obtain ⟨keys, sealedClient, sealedServer, hclient, hserver, hsealC, hsealS⟩ := h.exists_finished
  refine ⟨keys, ?_⟩
  refine endsIn_of_toServer rfl rfl ?_
  rw [h.challenge]
  refine endsIn_of_toClient rfl rfl ?_
  rw [h.step_verifyRequest]
  refine endsIn_of_toServer rfl rfl ?_
  rw [h.commit hnew]
  refine endsIn_of_toClient rfl rfl ?_
  rw [h.step_serverFlight hclient hsealC]
  refine endsIn_of_toServer rfl rfl ?_
  rw [step_accepted (h.keys_carried hsealC) (h.takeClientFlight hsealC hsealS hserver [])]
  refine endsIn_of_toClient rfl rfl ?_
  rw [step_serverFinished hsealS]
  exact endsIn_of_quiet rfl rfl

/-- Whenever the draws match, the two flows that talk to each other connect
with the same keys over the same transcript. -/
theorem flows_agree (clientAddr serverAddr : Addr) (sharedSecret : Bytes) (clientRng serverRng : Rng)
    (hmatched : Matched (drawsOf sharedSecret clientRng serverRng).client.ecjpake
      (drawsOf sharedSecret clientRng serverRng).server.ecjpake) :
    ∃ (final : System Addr TransportError) (client : ThreadDtlsHandshake) (server : ThreadDtlsServerHandshake)
      (keys : ThreadDtlsKeyMaterial),
      EndsIn (Deliver clientAddr serverAddr) final
        ⟨.start serverAddr sharedSecret clientRng, .start sharedSecret serverRng⟩ ∧
      Agreed (drawsOf sharedSecret clientRng serverRng) final clientAddr serverAddr client server keys := by
  have h := drawsOf_ready hmatched
  obtain ⟨keys, hend⟩ : ∃ keys, EndsIn (Deliver clientAddr serverAddr)
      (finalOf (drawsOf sharedSecret clientRng serverRng) sharedSecret clientAddr serverAddr keys :
        System Addr TransportError)
      ⟨.start serverAddr sharedSecret clientRng, .start sharedSecret serverRng⟩ := by
    rw [h.start_client]
    exact h.endsIn rfl clientAddr serverAddr
  exact ⟨_, _, _, keys, hend, rfl, rfl, rfl, rfl, _, rfl, rfl⟩

/-- The client's two hellos, the second with the cookie, from wherever they come. -/
def firstHello (d : Draws) (localAddr source : Addr) : Arrival Addr TransportError :=
  .datagram (datagramOf [(helloMessage d.client 0 []).record 0 0]) localAddr source

def secondHello (d : Draws) (localAddr source : Addr) : Arrival Addr TransportError :=
  .datagram (datagramOf [d.hello.record 0 1]) localAddr source

section Alone

variable {secret : Bytes} {crng srng : Rng}
  (h : Ready (drawsOf secret crng srng) secret)

include h

theorem Ready.exists_connected_run (caddr saddr : Addr) : ∃ (arrivals : List (Arrival Addr TransportError))
    (hs : ThreadDtlsHandshake) (session : SessionState),
    ((Client.start saddr secret crng).run arrivals).stage = .connected hs session := by
  rw [h.start_client]
  generalize drawsOf secret crng srng = d at h
  obtain ⟨keys, sealedClient, sealedServer, hclient, -, hsealC, hsealS⟩ := h.exists_finished
  refine ⟨[.datagram (datagramOf [(verifyRequestMessage 0 d.cookie).record 0 0]) caddr saddr,
    .datagram (datagramOf d.flightRecords) caddr saddr,
    .datagram (datagramOf [changeCipherSpecRecord 4, sealedServer]) caddr saddr],
    d.taughtClient (d.allMessages keys), .new keys .client, ?_⟩
  rw [Client.run, foldl_cons, foldl_cons, foldl_cons, foldl_nil, h.step_verifyRequest,
    h.step_serverFlight hclient hsealC, step_serverFinished hsealS]

theorem Ready.run_firstHello (addr source : Addr) : (Server.start secret srng : Server Addr TransportError).run
        [firstHello (drawsOf secret crng srng) addr source] =
      ⟨secret, (DtlsCookieGenerator.new srng).2, .clientHello (DtlsCookieGenerator.new srng).1,
        ⟨1, [(source, datagramOf [(verifyRequestMessage 0 (drawsOf secret crng srng).cookie).record 0 0])]⟩⟩ := by
  have hcookies : (DtlsCookieGenerator.new srng).1 = (drawsOf secret crng srng).cookies := rfl
  rw [start_server crng, hcookies]
  generalize drawsOf secret crng srng = d at h
  rw [Server.run, foldl_cons, foldl_nil, firstHello, h.challenge]
  rfl

theorem Ready.run_secondHello (addr first second : Addr) : (Server.start secret srng : Server Addr TransportError).run
        [firstHello (drawsOf secret crng srng) addr first,
          secondHello (drawsOf secret crng srng) addr second] = (let d := drawsOf secret crng srng
      ⟨secret, (roundTwoOf d.server.ecjpake d.client.ecjpake d.serverRng).2,
        .clientFlight addr second (d.taughtServer d.opening) false none,
        ⟨4, [(first, datagramOf [(verifyRequestMessage 0 d.cookie).record 0 0]),
          (second, datagramOf d.flightRecords)]⟩⟩) := by
  have hnew := @new_server _ secret srng crng
  rw [start_server crng]
  generalize drawsOf secret crng srng = d at h hnew
  rw [Server.run, foldl_cons, foldl_cons, foldl_nil, firstHello, secondHello, h.challenge, h.commit hnew]
  rfl

theorem Ready.run_clientFlight (caddr saddr : Addr) : ∃ (bytes : Bytes)
    (hs : ThreadDtlsServerHandshake) (keys : ThreadDtlsKeyMaterial),
    ((Server.start secret srng : Server Addr TransportError).run [firstHello (drawsOf secret crng srng) saddr caddr,
        secondHello (drawsOf secret crng srng) saddr caddr,
        .datagram bytes saddr caddr]).stage = .accepted saddr caddr hs keys := by
  have hnew := @new_server _ secret srng crng
  rw [start_server crng]
  generalize drawsOf secret crng srng = d at h hnew
  obtain ⟨keys, sealedClient, sealedServer, -, hserver, hsealC, hsealS⟩ := h.exists_finished
  refine ⟨datagramOf (d.keyRecords sealedClient), d.keyedServer (d.allMessages keys), keys, ?_⟩
  rw [Server.run, foldl_cons, foldl_cons, foldl_cons, foldl_nil, firstHello, secondHello, h.challenge,
    h.commit hnew, step_accepted (h.keys_carried hsealC) (h.takeClientFlight hsealC hsealS hserver _)]

end Alone

end Flows

section Witness

attribute [local instance] residues

theorem matched_residues : Matched (drawsOf [1, 2, 3] (residueRng []) (residueRng [])).client.ecjpake
      (drawsOf [1, 2, 3] (residueRng []) (residueRng [])).server.ecjpake :=
  ⟨by decide +kernel, by decide +kernel, by decide +kernel⟩

theorem connected_residues : ∃ (arrivals : List (Arrival Bool Unit)) (hs : ThreadDtlsHandshake) (session : SessionState),
    ((Client.start false [1, 2, 3] (residueRng [])).run arrivals).stage = .connected hs session :=
  (drawsOf_ready matched_residues).exists_connected_run true false

theorem accepted_residues : ∃ (arrs : List (Arrival Bool Unit)) (hs : ThreadDtlsServerHandshake)
    (keys : ThreadDtlsKeyMaterial),
    ((Server.start [1, 2, 3] (residueRng [])).run arrs).stage = .accepted false true hs keys := by
  obtain ⟨bytes, acc⟩ := (drawsOf_ready matched_residues).run_clientFlight true false
  exact ⟨_, acc⟩

theorem flows_agree_residues :
    ∃ (final : System Bool Unit) (client : ThreadDtlsHandshake) (server : ThreadDtlsServerHandshake)
      (keys : ThreadDtlsKeyMaterial),
      EndsIn (Deliver true false) final
        ⟨.start false [1, 2, 3] (residueRng []), .start [1, 2, 3] (residueRng [])⟩ ∧
      Agreed (drawsOf [1, 2, 3] (residueRng []) (residueRng [])) final true false client server keys :=
  flows_agree true false [1, 2, 3] (residueRng []) (residueRng []) matched_residues

end Witness

end ThreadCommissioner.HandshakeAgreement
