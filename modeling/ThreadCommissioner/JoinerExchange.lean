import ThreadCommissioner.HandshakeAgreement
import ThreadCommissioner.JoinerSteps

namespace ThreadCommissioner.JoinerExchange

open ByteStrings Coap Computations Drivers Errors HandshakeAgreement HandshakeMessages Hellos HonestExchange List
open ClientHandshake JoinerSessions JoinerSteps KeySchedule Meshcop Primitives RecordProtection Records ServerHandshake
open Residues Texts Tlvs

section Suites

section Items

theorem datagramItems_of_wellFormed {rs : List DtlsRecord} (h : ∀ r ∈ rs, r.WellFormed) :
    datagramItems (datagramOf rs) = rs.flatMap recordItems := by
  rw [datagramItems, datagramOf, DtlsRecord.parseDatagram_flatMap h]

theorem recordItems_message {m : HandshakeMessage} (hm : m.Short) (seq : UInt64) :
    recordItems (m.record 0 seq) = [.message m] := by
  have hhandshake : (m.record 0 seq).header.contentType = .handshake := rfl
  have hepoch : (m.record 0 seq).header.epoch = 0 := rfl
  rw [recordItems, hhandshake]
  dsimp only
  rw [if_pos hepoch, hm.parse_records]
  rfl

theorem recordItems_changeCipherSpec (seq : UInt64) :
    recordItems (changeCipherSpecRecord seq) = [.changeCipherSpec (changeCipherSpecRecord seq)] := rfl

theorem recordItems_encrypted {r : DtlsRecord} (ht : r.header.contentType = .handshake)
    (he : r.header.epoch = 1) : recordItems r = [.encrypted r] := by
  simp only [recordItems, ht, he]
  rfl

theorem recordItems_application {r : DtlsRecord} (ht : r.header.contentType = .applicationData)
    (he : r.header.epoch = 1) : recordItems r = [.application r] := by
  simp only [recordItems, ht, he]
  rfl

theorem datagramItems_message {m : HandshakeMessage} (hm : m.Short) {seq : UInt64}
    (hs : seq.toNat < 2 ^ 48) : datagramItems (datagramOf [m.record 0 seq]) = [.message m] := by
  rw [datagramItems_of_wellFormed (by simpa using hm.record_wellFormed 0 hs), flatMap_singleton, recordItems_message hm]

end Items

section JoinFin

/-- A JOIN_FIN.req with its mandatory TLVs, and what they say. -/
structure JoinFin where
  plaintext : Bytes
  request : CoapMessage
  tlvs : TlvSet
  info : JoinerFinalizeInfo
  decoded : CoapMessage.decode plaintext = .ok request
  path : request.uriPath = .ok (some Uri.joinFin)
  parsed : TlvSet.parse request.payload = .ok tlvs
  state : (tlvs.lastValue tlvState).isSome
  vendorName : tlvs.lastValue tlvVendorName = some info.vendorName.bytes
  vendorModel : tlvs.lastValue tlvVendorModel = some info.vendorModel.bytes
  vendorSwVersion : tlvs.lastValue tlvVendorSwVersion = some info.vendorSwVersion.bytes
  vendorStackVersion : tlvs.lastValue tlvVendorStackVersion = some info.vendorStackVersion
  provisioningUrl : tlvs.lastValue tlvProvisioningUrl = info.provisioningUrl.map Text.bytes
  vendorData : tlvs.lastValue tlvVendorData = info.vendorData

theorem JoinFin.parse (joinFin : JoinFin) : parseJoinFin joinFin.request = .ok joinFin.info := by
  have hutf8 (text : Text) (name : String) : utf8Value text.bytes name = .ok text := okOr_eq_ok.mpr (dif_pos text.valid)
  have htext {ty : UInt8} {text : Text} (h : joinFin.tlvs.lastValue ty = some text.bytes) (name : String) :
      requiredText joinFin.tlvs ty name = .ok text := bind_ok.mpr ⟨text.bytes, okOr_eq_ok.mpr h, hutf8 text name⟩
  have hurl : optionalText joinFin.tlvs tlvProvisioningUrl "Provisioning URL" = .ok joinFin.info.provisioningUrl := by
    rw [optionalText, joinFin.provisioningUrl]
    cases joinFin.info.provisioningUrl with
    | none => rfl
    | some text => exact bind_ok.mpr ⟨text, hutf8 text _, rfl⟩
  obtain ⟨state, hstate⟩ := Option.isSome_iff_exists.mp joinFin.state
  refine bind_ok.mpr ⟨joinFin.tlvs, ofTlv_eq_ok.mpr joinFin.parsed, ?_⟩
  refine bind_ok.mpr ⟨state, okOr_eq_ok.mpr hstate, ?_⟩
  refine bind_ok.mpr ⟨_, htext joinFin.vendorName _, ?_⟩
  refine bind_ok.mpr ⟨_, htext joinFin.vendorModel _, ?_⟩
  refine bind_ok.mpr ⟨_, htext joinFin.vendorSwVersion _, ?_⟩
  refine bind_ok.mpr ⟨_, okOr_eq_ok.mpr joinFin.vendorStackVersion, ?_⟩
  refine bind_ok.mpr ⟨_, hurl, ?_⟩
  rw [joinFin.vendorData]
  rfl

theorem length_token_of_decode {bytes : Bytes} {m : CoapMessage} (h : CoapMessage.decode bytes = .ok m) :
    m.token.length ≤ 8 := by
  unfold CoapMessage.decode at h
  split at h
  · obtain ⟨_, -, h⟩ := bind_ok.mp h
    obtain ⟨_, htoken, h⟩ := bind_ok.mp h
    obtain ⟨ty, -, h⟩ := bind_ok.mp h
    obtain ⟨⟨opts, payload⟩, -, h⟩ := bind_ok.mp h
    cases h
    have hle := (ensure_eq_ok.mp htoken).1
    rw [length_take]
    omega
  · cases h

theorem length_joinFinResponse {req : CoapMessage} {acc : Bool} {bytes : Bytes}
    (h : (joinFinResponse req acc).encode = .ok bytes) : bytes.length ≤ 16 := by
  obtain ⟨_, htoken, h⟩ := bind_ok.mp h
  obtain ⟨opts, hopts, h⟩ := bind_ok.mp h
  have hle : req.token.length ≤ 8 := ensure_eq_ok.mp htoken
  cases hopts
  cases h
  simp only [joinFinResponse, length_append, length_cons, length_beBytes, length_nil, reduceCtorEq, if_false]
  omega

theorem exists_joinFinResponse (joinFin : JoinFin) (acc : Bool) :
    ∃ wire, (joinFinResponse joinFin.request acc).encode = .ok wire := by
  have htoken := length_token_of_decode joinFin.decoded
  rw [CoapMessage.encode, ensure_true (show (joinFinResponse joinFin.request acc).token.length ≤ 8 from htoken)]
  exact ⟨_, rfl⟩

end JoinFin

variable [Suite] {H : Type}

section Honest

variable {d : Draws} {keys : ThreadDtlsKeyMaterial} {secret : Bytes} {base : JoinerSession} {handler : H}

/-- The session as it is created over the draws. -/
structure Fresh (d : Draws) (session : JoinerSession) : Prop where
  phase : session.phase = .awaitingClientHello
  handshake : session.handshake = d.server
  cookie : session.cookie = d.cookies
  keyMaterial : session.keyMaterial = none
  epoch0Sequence : session.epoch0Sequence = 0
  epoch1Sequence : session.epoch1Sequence = 0
  sawClientChangeCipherSpec : session.sawClientChangeCipherSpec = false
  finalizeDecision : session.finalizeDecision = none

def challengedSession (base : JoinerSession) : JoinerSession := { base with epoch0Sequence := 1 }

def flightOf (d : Draws) : Bytes :=
  datagramOf [(serverHelloMessage d.server).record 0 1, d.serverKeyExchange.record 0 2,
    serverHelloDoneMessage.record 0 3]

def flownSession (d : Draws) (base : JoinerSession) : JoinerSession :=
  { base with
    handshake := d.taughtServer [d.hello, serverHelloMessage d.server, d.serverKeyExchange, serverHelloDoneMessage]
    serverFlight := flightOf d
    phase := .awaitingClientFlight
    epoch0Sequence := 4 }

def connectedSession (d : Draws) (keys : ThreadDtlsKeyMaterial) (base : JoinerSession) : JoinerSession :=
  { flownSession d base with
    handshake := d.keyedServer (d.beforeFinished ++ [d.clientFinished keys] ++ [d.serverFinished keys])
    keyMaterial := some keys
    sawClientChangeCipherSpec := true
    phase := .connected
    epoch0Sequence := 5
    epoch1Sequence := 1 }

theorem Ready.decode_hello (h : Ready d secret) {cookie : Bytes} (hcookie : cookie.length ≤ 255) (mseq : UInt16) :
    ClientHello.decode (helloMessage d.client mseq cookie).payload =
      .ok (.threadProfileWithEcjpake d.client.clientRandom cookie (EcJpakeCodec.kkppBytes d.client.clientRoundOne)) :=
  ClientHello.decode_bytes
    (threadProfileWithEcjpake_fits hcookie (h.pair.honestClient.length_kkpp.trans (by decide)))

theorem verify_empty (cookies : DtlsCookieGenerator) (random : ByteVector 32) : cookies.verify random [] = false := by
  refine Bool.eq_false_iff.mpr fun hv => ?_
  have hnil : (cookies.cookie random).toList = [] := eq_of_beq hv
  have hlength := (cookies.cookie random).toList_length
  rw [hnil] at hlength
  cases hlength

def exchangedSession (d : Draws) (keys : ThreadDtlsKeyMaterial) (base : JoinerSession) : JoinerSession :=
  { flownSession d base with handshake := d.keyedServer d.beforeFinished, keyMaterial := some keys }

def keyedSession (d : Draws) (keys : ThreadDtlsKeyMaterial) (base : JoinerSession) : JoinerSession :=
  { exchangedSession d keys base with sawClientChangeCipherSpec := true }

theorem handle_clientFinished {sealedServer : DtlsRecord} (hb : Fresh d base) (hserver : d.SealsServer keys sealedServer)
    (rng : Rng) (evs : List JoinerSessionEvent) :
    (handleFinished (d.clientFinished keys)).run (⟨keyedSession d keys base, handler, rng, evs⟩ : Feed H) =
      .ok () ⟨connectedSession d keys base, handler, rng, evs ++
        [.transmit (datagramOf [changeCipherSpecRecord 4, sealedServer]) false, .connected]⟩ := by
  have hprotect : protectAes128Ccm8Record .handshake 1 (keyedSession d keys base).epoch1Sequence
      keys.keyBlock.serverWriteKey keys.keyBlock.serverWriteIv (d.serverFinished keys).bytes = .ok sealedServer := by
    rw [show (keyedSession d keys base).epoch1Sequence = 0 from hb.epoch1Sequence]
    exact hserver
  have hrun : (handleFinished (d.clientFinished keys)).run (⟨keyedSession d keys base, handler, rng, evs⟩ : Feed H) =
      .ok () (finish ⟨keyedSession d keys base, handler, rng, evs⟩
        (d.keyedServer (d.allMessages keys)) sealedServer) :=
    handleFinished_eq_ok.mpr (.verified rfl rfl (verifyClientFinished_keyedServer d keys)
      (buildServerFinished_keyedServer d keys) hprotect)
  have hnext : base.epoch1Sequence + 1 = 1 := by
    rw [hb.epoch1Sequence]
    rfl
  rw [hrun]
  simp only [finish, push, keyedSession, exchangedSession, connectedSession, flownSession, hnext, append_assoc,
    singleton_append]
  rfl

variable [JoinerHandler H]

theorem receive_of_forM {dgram : Bytes} {party : Party H} {t : Feed H}
    (h : ((datagramItems dgram).forM handleItem).run party.feed = .ok () t) :
    (receive dgram).run party = .ok t.events t.party := by
  rw [← feedDatagram_eq] at h
  change receive dgram party = _
  rw [receive, h]

theorem receive_of_items {encap : Bytes} {items : List Item} {party : Party H} {feed : Feed H}
    (hitems : datagramItems encap = items) (h : (items.forM handleItem).run party.feed = .ok () feed) :
    (receive encap).run party = .ok feed.events feed.party := by
  subst hitems
  exact receive_of_forM h

theorem forM_cons_of_ok {item : Item} {items : List Item} {s t : Feed H} (h : (handleItem item).run s = .ok () t) :
    ((item :: items).forM handleItem).run s = (items.forM handleItem).run t := bind_of_ok h

theorem forM_single_of_ok {item : Item} {s t : Feed H} (h : (handleItem item).run s = .ok () t) :
    ([item].forM handleItem).run s = .ok () t := forM_cons_of_ok h

theorem handleItem_encrypted {r plainRec : DtlsRecord} {plain : Bytes} {ms : List HandshakeMessage}
    {s : Feed H} (hphase : s.session.phase = .awaitingClientFlight) (hsaw : s.session.sawClientChangeCipherSpec = true)
    (hopen : s.session.openRecord r = .ok plain) (hnew : DtlsRecord.new .handshake 1 0 plain = .ok plainRec)
    (hparse : parseUnfragmentedHandshakeMessages plainRec = .ok ms) :
    (handleItem (.encrypted r)).run s = (ms.forM handleFinished).run s := by
  rw [handleItem, handleEncryptedHandshake, get_bind]
  dsimp only
  rw [if_neg (not_not.mpr hphase), lift_bind_of_ok (ensure_true hsaw _), lift_bind_of_ok hopen,
    lift_bind_of_ok (ofDtls_eq_ok.mpr hnew), lift_bind_of_ok (ofDtls_eq_ok.mpr hparse)]

theorem Ready.receive_hello (h : Ready d secret) (hb : Fresh d base) (rng : Rng) :
    (receive (datagramOf [(helloMessage d.client 0 []).record 0 0])).run (⟨base, handler, rng⟩ : Party H) =
      .ok [.transmit (datagramOf [(verifyRequestMessage 0 d.cookie).record 0 0]) false]
        ⟨challengedSession base, handler, rng⟩ := by
  have hempty : ([] : Bytes).length ≤ 255 := Nat.zero_le _
  have hshort := h.pair.honestClient.helloMessage_short hempty 0
  have hstep : (handleItem (.message (helloMessage d.client 0 []))).run (⟨base, handler, rng, []⟩ : Feed H) =
      .ok () (challenge ⟨base, handler, rng, []⟩ (helloMessage d.client 0 [])
        (.threadProfileWithEcjpake d.client.clientRandom [] (EcJpakeCodec.kkppBytes d.client.clientRoundOne))) :=
    handlePlaintextHandshake_eq_ok.mpr (.challenged rfl hb.phase (Ready.decode_hello h hempty 0)
      (verify_empty base.cookie _))
  refine (receive_of_items (datagramItems_message hshort (by decide)) (forM_single_of_ok hstep)).trans ?_
  simp only [challenge, push, countPlaintext, Feed.party, hb.epoch0Sequence, hb.cookie, challengedSession, datagramOf,
    flatMap_cons, flatMap_nil, append_nil, nil_append]
  rfl

theorem Ready.receive_cookie (h : Ready d secret) (hb : Fresh d base) :
    (receive (datagramOf [d.hello.record 0 1])).run (⟨challengedSession base, handler, d.serverRng⟩ : Party H) =
      .ok [.transmit (flightOf d) false]
        ⟨flownSession d base, handler, (roundTwoOf d.server.ecjpake d.client.ecjpake d.serverRng).2⟩ := by
  have hcookie : d.cookie.length ≤ 255 := Draws.cookie_le
  have hshort : d.hello.Short := h.pair.honestClient.helloMessage_short hcookie 1
  have hverify : base.cookie.verify d.client.clientRandom d.cookie = true := by
    rw [hb.cookie]
    exact beq_self_eq_true _
  have hflight := h.buildServerFlight
  have hhandshake : d.server = (challengedSession base).handshake := hb.handshake.symm
  have hbound : ∀ {m : HandshakeMessage}, m.Short → m.bytes.length ≤ 65535 := fun hm => hm.length_bytes.trans (by decide)
  have hstep : (handleItem (.message d.hello)).run (⟨challengedSession base, handler, d.serverRng, []⟩ : Feed H) =
      .ok () (accept ⟨challengedSession base, handler, d.serverRng, []⟩ (serverHelloMessage d.server)
        d.serverKeyExchange serverHelloDoneMessage
        (d.taughtServer d.opening)
        (roundTwoOf d.server.ecjpake d.client.ecjpake d.serverRng).2) := by
    refine handlePlaintextHandshake_eq_ok.mpr (.accepted rfl hb.phase (Ready.decode_hello h hcookie 1) hverify ?_
      (hbound h.pair.honestServer.serverHelloMessage_short) (hbound (h.pair.serverKeyExchange_short d.serverRng))
      (hbound serverHelloDone_short))
    rw [← hhandshake]
    exact hflight
  refine (receive_of_items (datagramItems_message hshort (by decide)) (forM_single_of_ok hstep)).trans ?_
  rfl

section Flight

abbrev SealedByClient (keys : ThreadDtlsKeyMaterial) (sequence : UInt64) (plaintext : Bytes) (record : DtlsRecord) : Prop :=
  protectAes128Ccm8Record .handshake 1 sequence keys.keyBlock.clientWriteKey keys.keyBlock.clientWriteIv plaintext = .ok record

variable {seq : UInt64} {plaintext : Bytes} {sealedRecord sealedServer : DtlsRecord}

theorem Ready.flight_wellFormed (h : Ready d secret) (hsealed : SealedByClient keys seq plaintext sealedRecord) :
    ∀ r ∈ (d.keyRecords sealedRecord), r.WellFormed := by
  have hshort : d.clientKeyExchange.Short := h.pair.clientKeyExchange_short 2 d.clientRng
  intro r hr
  simp only [mem_cons, not_mem_nil, or_false] at hr
  rcases hr with rfl | rfl | rfl
  · exact hshort.record_wellFormed 0 (by decide)
  · exact changeCipherSpec_wellFormed (by decide)
  · exact protect_wellFormed hsealed

theorem Ready.flight_items (h : Ready d secret) (hsealed : SealedByClient keys seq plaintext sealedRecord) :
    datagramItems (datagramOf (d.keyRecords sealedRecord)) =
      [.message d.clientKeyExchange, .changeCipherSpec (changeCipherSpecRecord 3), .encrypted sealedRecord] := by
  obtain ⟨ht, he, -⟩ := header_of_protect hsealed
  have hshort : d.clientKeyExchange.Short := h.pair.clientKeyExchange_short 2 d.clientRng
  rw [datagramItems_of_wellFormed (Ready.flight_wellFormed h hsealed), flatMap_cons, flatMap_cons,
    flatMap_singleton, recordItems_message hshort, recordItems_changeCipherSpec, recordItems_encrypted ht he]
  rfl

theorem Ready.handle_keyExchange (h : Ready d secret)
    (hkeys : ∀ ms, (d.keyedServer ms).deriveKeyMaterial = .ok keys) (rng : Rng) (evs : List JoinerSessionEvent) :
    (handleItem (.message d.clientKeyExchange)).run (⟨flownSession d base, handler, rng, evs⟩ : Feed H) =
      .ok () ⟨exchangedSession d keys base, handler, rng, evs⟩ :=
  handlePlaintextHandshake_eq_ok.mpr (.exchanged rfl rfl h.exchange (hkeys _))

theorem handle_cipherSpec (seq : UInt64) (s : Feed H) : (handleItem (.changeCipherSpec (changeCipherSpecRecord seq))).run s =
      .ok () { s with session := { s.session with sawClientChangeCipherSpec := true } } := rfl

theorem Ready.receive_keyed (h : Ready d secret) (hkeys : ∀ ms, (d.keyedServer ms).deriveKeyMaterial = .ok keys)
    (hsealed : SealedByClient keys seq plaintext sealedRecord) {rng : Rng} {feed : Feed H}
    (hrun : (handleItem (.encrypted sealedRecord)).run ⟨keyedSession d keys base, handler, rng, []⟩ = .ok () feed) :
    (receive (datagramOf (d.keyRecords sealedRecord))).run
      (⟨flownSession d base, handler, rng⟩ : Party H) = .ok feed.events feed.party := by
  refine receive_of_items (Ready.flight_items h hsealed) ?_
  have hexchange : (handleItem (.message d.clientKeyExchange)).run (⟨flownSession d base, handler, rng, []⟩ : Feed H) =
      .ok () ⟨exchangedSession d keys base, handler, rng, []⟩ := Ready.handle_keyExchange h hkeys rng []
  have hcipher := handle_cipherSpec 3 (⟨exchangedSession d keys base, handler, rng, []⟩ : Feed H)
  exact (forM_cons_of_ok hexchange).trans ((forM_cons_of_ok hcipher).trans (forM_single_of_ok hrun))

theorem openRecord_keyed (hsealed : SealedByClient keys seq plaintext sealedRecord) :
    (keyedSession d keys base).openRecord sealedRecord = .ok plaintext :=
  bind_ok.mpr ⟨keys, rfl, ofDtls_eq_ok.mpr (open_protect hsealed)⟩

theorem handle_sealedFinished {sealedClient : DtlsRecord} (hb : Fresh d base)
    (hclient : d.SealsClient keys sealedClient) (hserver : d.SealsServer keys sealedServer) (rng : Rng) :
    (handleItem (.encrypted sealedClient)).run (⟨keyedSession d keys base, handler, rng, []⟩ : Feed H) =
      .ok () ⟨connectedSession d keys base, handler, rng,
        [.transmit (datagramOf [changeCipherSpecRecord 4, sealedServer]) false, .connected]⟩ := by
  have hfit : (d.clientFinished keys).Short := Draws.finished_short _ _
  rw [handleItem_encrypted rfl rfl (openRecord_keyed hclient) (hfit.new_record 1 0) (hfit.parse_records 1 0)]
  exact bind_of_ok (handle_clientFinished hb hserver rng [])

theorem Ready.receive_flight {sealedClient : DtlsRecord} (h : Ready d secret) (hb : Fresh d base)
    (hkeys : ∀ ms, (d.keyedServer ms).deriveKeyMaterial = .ok keys)
    (hclient : d.SealsClient keys sealedClient) (hserver : d.SealsServer keys sealedServer) (rng : Rng) :
    (receive (datagramOf (d.keyRecords sealedClient))).run (⟨flownSession d base, handler, rng⟩ : Party H) =
      .ok [.transmit (datagramOf [changeCipherSpecRecord 4, sealedServer]) false, .connected]
        ⟨connectedSession d keys base, handler, rng⟩ :=
  Ready.receive_keyed h hkeys hclient (handle_sealedFinished hb hclient hserver rng)

end Flight

/-- What the two Finished messages of an exchange are protected with, and the
records they travel in. -/
structure Sealed (d : Draws) where
  keys : ThreadDtlsKeyMaterial
  derived : ∀ messages, (d.keyedServer messages).deriveKeyMaterial = .ok keys
  clientFinished : DtlsRecord
  protectClient : protectAes128Ccm8Record .handshake 1 0 keys.keyBlock.clientWriteKey keys.keyBlock.clientWriteIv
    (d.clientFinished keys).bytes = .ok clientFinished
  serverFinished : DtlsRecord
  protectServer : protectAes128Ccm8Record .handshake 1 0 keys.keyBlock.serverWriteKey keys.keyBlock.serverWriteIv
    (d.serverFinished keys).bytes = .ok serverFinished

theorem Ready.nonempty_sealed (h : Ready d secret) : Nonempty (Sealed d) := by
  obtain ⟨keys, cfin, sfin, -, hderived, hsealC, hsealS⟩ := h.exists_finished
  exact ⟨⟨keys, hderived, cfin, hsealC, sfin, hsealS⟩⟩

def Sealed.keyFlight (k : Sealed d) : Bytes :=
  datagramOf [d.clientKeyExchange.record 0 2, changeCipherSpecRecord 3, k.clientFinished]

def Sealed.handshake (k : Sealed d) : List Bytes :=
  [datagramOf [(helloMessage d.client 0 []).record 0 0], datagramOf [d.hello.record 0 1], k.keyFlight]

/-- The session and its surroundings once an honest joiner has connected. -/
def Sealed.connected (k : Sealed d) (base : JoinerSession) (handler : H) : Party H :=
  ⟨connectedSession d k.keys base, handler, (roundTwoOf d.server.ecjpake d.client.ecjpake d.serverRng).2⟩

theorem Sealed.runAll_handshake (k : Sealed d) (h : Ready d secret) (hb : Fresh d base) (handler : H) :
    runAll receive k.handshake (⟨base, handler, d.serverRng⟩ : Party H) = (k.connected base handler,
        [.ok [.transmit (datagramOf [(verifyRequestMessage 0 d.cookie).record 0 0]) false],
          .ok [.transmit (flightOf d) false],
          .ok [.transmit (datagramOf [changeCipherSpecRecord 4, k.serverFinished]) false, .connected]]) := by
  rw [Sealed.handshake, Sealed.keyFlight, runAll, Ready.receive_hello h hb, runAll, finalState,
    Ready.receive_cookie h hb, runAll, finalState, Ready.receive_flight h hb k.derived k.protectClient k.protectServer]
  rfl

end Honest

section Answers

variable {keys : ThreadDtlsKeyMaterial} {joinFin : JoinFin} {request response : DtlsRecord}

def SealsJoinFin (keys : ThreadDtlsKeyMaterial) (sequence : UInt64) (joinFin : JoinFin) (request : DtlsRecord) : Prop :=
  protectAes128Ccm8Record .applicationData 1 sequence keys.keyBlock.clientWriteKey keys.keyBlock.clientWriteIv
    joinFin.plaintext = .ok request

def SealsAnswer (keys : ThreadDtlsKeyMaterial) (sequence : UInt64) (joinFin : JoinFin) (accepted : Bool)
    (response : DtlsRecord) : Prop :=
  ∃ payload, (joinFinResponse joinFin.request accepted).encode = .ok payload ∧ protectAes128Ccm8Record .applicationData 1
    sequence keys.keyBlock.serverWriteKey keys.keyBlock.serverWriteIv payload = .ok response

theorem exists_sealsJoinFin (keys : ThreadDtlsKeyMaterial) (joinFin : JoinFin)
    (h : joinFin.plaintext.length + 16 ≤ 65535) : ∃ request, SealsJoinFin keys 1 joinFin request := by
  obtain ⟨cipher, h⟩ : ∃ cipher, protectAes128Ccm8Record .applicationData 1 1 keys.keyBlock.clientWriteKey
      keys.keyBlock.clientWriteIv joinFin.plaintext = .ok (protectedRecord .applicationData 1 1 cipher) :=
    exists_protect _ _ (by decide) h
  exact ⟨_, h⟩

theorem exists_sealsAnswer (keys : ThreadDtlsKeyMaterial) (joinFin : JoinFin) (acc : Bool) :
    ∃ response, SealsAnswer keys 1 joinFin acc response := by
  obtain ⟨payload, henc⟩ := exists_joinFinResponse joinFin acc
  have hlength := length_joinFinResponse henc
  obtain ⟨cipher, h⟩ : ∃ cipher, protectAes128Ccm8Record .applicationData 1 1 keys.keyBlock.serverWriteKey
      keys.keyBlock.serverWriteIv payload = .ok (protectedRecord .applicationData 1 1 cipher) :=
    exists_protect _ _ (by decide) (by omega)
  exact ⟨_, payload, henc, h⟩

variable [JoinerHandler H] {s : Feed H}

theorem joinFin_items {seq : UInt64} (h : SealsJoinFin keys seq joinFin request) :
    datagramItems (datagramOf [request]) = [.application request] := by
  obtain ⟨ht, he, -⟩ := header_of_protect h
  rw [datagramItems_of_wellFormed (by simpa using protect_wellFormed h), flatMap_singleton, recordItems_application ht he]

theorem handle_joinFin {seq : UInt64} (hphase : s.session.phase = .connected ∨ s.session.phase = .finalized)
    (hkeys : s.session.keyMaterial = some keys) (hreq : SealsJoinFin keys seq joinFin request)
    (hresp : SealsAnswer keys s.session.epoch1Sequence joinFin (consult s joinFin.info).1 response) :
    (handleItem (.application request)).run s =
      .ok () (answer (consult s joinFin.info).2 joinFin.info (consult s joinFin.info).1 response) := by
  have hopen : s.session.openRecord request = .ok joinFin.plaintext := by
    refine bind_ok.mpr ⟨keys, ?_, ofDtls_eq_ok.mpr (open_protect hreq)⟩
    exact keyMaterialRequired_eq_ok.mpr hkeys
  obtain ⟨payload, henc, hprot⟩ := hresp
  exact handleApplicationData_eq_ok.mpr
    (.answered hphase hopen joinFin.decoded joinFin.path joinFin.parse hkeys henc hprot)

section JoinFins

variable {d : Draws} (k : Sealed d) {base : JoinerSession} (hb : Fresh d base) {acc : Bool} {seq : UInt64}
  (hreq : SealsJoinFin k.keys seq joinFin request) (hresp : SealsAnswer k.keys 1 joinFin acc response) (handler : H)
  {handler' : H} (hdecide : JoinerHandler.onJoinerFinalize handler base.joinerId joinFin.info = (acc, handler'))

include hb hreq hresp hdecide

theorem Sealed.receive_joinFin_of_rng (rng : Rng) :
    (receive (datagramOf [request])).run { k.connected base handler with rng } =
      .ok [.transmit response.bytes acc, .finalized acc joinFin.info] { k.connected base handler' with
          rng
          session := { connectedSession d k.keys base with
            finalizeDecision := some acc
            epoch1Sequence := 2
            phase := .finalized } } := by
  let party := { k.connected base handler with rng }
  have hconsult : consult party.feed joinFin.info = (acc, { party.feed with
        handler := handler'
        session := { connectedSession d k.keys base with finalizeDecision := some acc } }) := by
    have hnone : party.feed.session.finalizeDecision = none := hb.finalizeDecision
    have hask : JoinerHandler.onJoinerFinalize party.feed.handler party.feed.session.joinerId joinFin.info =
      (acc, handler') := hdecide
    rw [consult, hnone, hask]
    rfl
  have hitem := handle_joinFin (s := party.feed) (.inl rfl) rfl hreq (by rw [hconsult]; exact hresp)
  refine (receive_of_items (joinFin_items hreq) (forM_single_of_ok hitem)).trans ?_
  rw [hconsult]
  rfl

theorem Sealed.receive_joinFin : (receive (datagramOf [request])).run (k.connected base handler) =
      .ok [.transmit response.bytes acc, .finalized acc joinFin.info] { k.connected base handler' with
          session := { connectedSession d k.keys base with
            finalizeDecision := some acc
            epoch1Sequence := 2
            phase := .finalized } } := k.receive_joinFin_of_rng hb hreq hresp handler hdecide _

end JoinFins

end Answers

section Draws

/-- The draws of a joiner that holds the PSKd and of the session it meets. -/
def joinerDraws (pskd : Text) (joinerRng : Rng) (session : JoinerSession) (rng : Rng) : Draws :=
  let (client, joinerRng) := ThreadDtlsHandshake.new pskd.bytes joinerRng
  ⟨client, joinerRng, session.cookie, session.handshake, rng⟩

theorem fresh_new (iid : ByteVector 8) (port loc : UInt16) (pskd : Text) (now : ℕ) (rng rng' joinerRng : Rng) :
    Fresh (joinerDraws pskd joinerRng
        (JoinerSession.new iid port loc pskd now rng).1 rng') (JoinerSession.new iid port loc pskd now rng).1 :=
  ⟨rfl, rfl, rfl, rfl, rfl, rfl, rfl, rfl⟩

theorem ready_new (iid : ByteVector 8) (port loc : UInt16) (pskd : Text) (now : ℕ) (rng rng' joinerRng : Rng)
    (hmatched : Matched (ThreadDtlsHandshake.new pskd.bytes joinerRng).1.ecjpake
      (ThreadDtlsServerHandshake.new pskd.bytes rng).1.ecjpake) : Ready (joinerDraws pskd joinerRng
      (JoinerSession.new iid port loc pskd now rng).1 rng') pskd.bytes :=
  ⟨⟨honest_client _ _, honest_server _ _, hmatched⟩, rfl, rfl⟩

end Draws

end Suites

section Witness

attribute [local instance] residues

def residuePskd : Text := ⟨ascii "J01NME", by decide⟩

def residueSession : JoinerSession :=
  (JoinerSession.new (List.Vector.replicate 8 0) 1000 0x0400 residuePskd 0 (residueRng [])).1

def residueDraws : Draws := joinerDraws residuePskd (residueRng []) residueSession (residueRng [])

theorem residueDraws_ready : Ready residueDraws residuePskd.bytes :=
  ready_new _ _ _ _ _ _ _ _ ⟨by decide +kernel, by decide +kernel, by decide +kernel⟩

theorem residueSession_fresh : Fresh residueDraws residueSession := fresh_new _ _ _ _ _ _ _ _

def vendorText : Text := ⟨[0x76], by decide⟩

def exampleJoinFin : JoinFin where
  plaintext := [0x42, 0x02, 0x12, 0x34, 7, 8, 0xb1, 0x63, 0x02, 0x6a, 0x66, 0xff, tlvState, 1, 1, tlvVendorName, 1, 0x76,
    tlvVendorModel, 1, 0x76, tlvVendorSwVersion, 1, 0x76, tlvVendorStackVersion, 1, 0]
  request := ⟨.confirmable, .post, 0x1234, [7, 8], [⟨coapOptionUriPath, ascii "c"⟩, ⟨coapOptionUriPath, ascii "jf"⟩],
    [tlvState, 1, 1, tlvVendorName, 1, 0x76, tlvVendorModel, 1, 0x76, tlvVendorSwVersion, 1, 0x76,
      tlvVendorStackVersion, 1, 0]⟩
  tlvs := ⟨[⟨tlvState, [1]⟩, ⟨tlvVendorName, [0x76]⟩, ⟨tlvVendorModel, [0x76]⟩, ⟨tlvVendorSwVersion, [0x76]⟩,
    ⟨tlvVendorStackVersion, [0]⟩]⟩
  info := ⟨vendorText, vendorText, vendorText, [0], none, none⟩
  decoded := by decide +kernel
  path := by decide +kernel
  parsed := by decide +kernel
  state := rfl
  vendorName := rfl
  vendorModel := rfl
  vendorSwVersion := rfl
  vendorStackVersion := rfl
  provisioningUrl := rfl
  vendorData := rfl

end Witness

end ThreadCommissioner.JoinerExchange
