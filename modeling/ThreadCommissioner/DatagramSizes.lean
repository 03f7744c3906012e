import ThreadCommissioner.KekGate

namespace ThreadCommissioner.DatagramSizes

open ByteStrings Computations Drivers EcJpakeCodec HandshakeMessages Hellos JoinerSessions JoinerSteps KekGate List
open Primitives RecordProtection Records ServerDriver ServerHandshake Tlvs

section Handshake

theorem length_record_bytes (m : HandshakeMessage) (epoch : UInt16) (seq : UInt64) :
    (m.record epoch seq).bytes.length = 25 + m.payload.length := by
  rw [DtlsRecord.bytes, length_append, RecordHeader.length_encode, recordHeaderLen]
  change 13 + m.bytes.length = _
  rw [HandshakeMessage.length_bytes, handshakeHeaderLen]
  omega

theorem length_changeCipherSpec (seq : UInt64) : (changeCipherSpecRecord seq).bytes.length = 14 := by
  rw [DtlsRecord.bytes, length_append, RecordHeader.length_encode]
  rfl

variable [Suite]

theorem length_writeTlsPoint {point bytes : Bytes} (h : writeTlsPoint point = .ok bytes) : bytes.length ≤ 256 := by
  obtain ⟨parsed, -, h⟩ := bind_ok.mp h
  obtain ⟨_, hlen, h⟩ := bind_ok.mp h
  cases h
  rw [validateTlsU8Len] at hlen
  split at hlen
  · cases hlen
  · rw [length_cons]
    omega

theorem length_writeKeyKp {point bytes : Bytes} {proof : Schnorr.SchnorrProof} (h : writeKeyKp point proof = .ok bytes) :
    bytes.length ≤ 545 := by
  obtain ⟨p, hp, h⟩ := bind_ok.mp h
  obtain ⟨z, hz, h⟩ := bind_ok.mp h
  cases h
  obtain ⟨v, hv, hz⟩ := bind_ok.mp hz
  obtain ⟨_, -, hz⟩ := bind_ok.mp hz
  have hpoint := length_writeTlsPoint hp
  have hcommitment := length_writeTlsPoint hv
  have hresponse := (length_trimScalarBytes proof.r).2
  split at hz
  · cases hz
  · cases hz
    simp only [length_append, length_cons]
    omega

theorem length_encodeTlsKkpp {m : EcJpake.RoundOne} {bytes : Bytes} (h : encodeTlsKkpp m = .ok bytes) :
    bytes.length ≤ 1090 := by
  obtain ⟨first, hfirst, h⟩ := bind_ok.mp h
  obtain ⟨second, hsecond, h⟩ := bind_ok.mp h
  cases h
  have h₁ := length_writeKeyKp hfirst
  have h₂ := length_writeKeyKp hsecond
  rw [length_append]
  omega

theorem length_encodeTlsKeyExchange {m : EcJpake.RoundTwo} {bytes : Bytes}
    (h : encodeTlsKeyExchange m true = .ok bytes) : bytes.length ≤ 548 := by
  obtain ⟨keyKp, hkeyKp, h⟩ := bind_ok.mp h
  cases h
  have hl := length_writeKeyKp hkeyKp
  simp only [if_true, secp256r1CurveParams, length_append, length_cons, length_nil]
  omega

theorem length_serverHello {hs : ThreadDtlsServerHandshake} {kkpp payload : Bytes} (hk : kkpp.length ≤ 1090)
    (h : (hs.serverHello kkpp).encode = .ok payload) : payload.length ≤ 1200 := by
  have hfits : ExtensionsFit (hs.serverHello kkpp).extensions := by
    refine ⟨?_, ?_⟩
    · simp only [ThreadDtlsServerHandshake.serverHello, ecPointFormatsExtension, forall_mem_cons, length_cons, length_nil]
      exact ⟨by omega, by decide, forall_mem_nil _⟩
    · simp only [ThreadDtlsServerHandshake.serverHello, ecPointFormatsExtension, TlsExtension.bytes, flatMap_cons,
        flatMap_nil, length_append, length_beBytes, length_cons, length_nil]
      omega
  rw [ServerHello.encode_of_fits (Nat.zero_le _) hfits] at h
  cases h
  simp only [ServerHello.bytes, ThreadDtlsServerHandshake.serverHello, ecPointFormatsExtension, extensionBlock,
    TlsExtension.bytes, flatMap_cons, flatMap_nil, length_append, length_beBytes, length_cons,
    length_nil, List.Vector.toList_length]
  omega

theorem length_flight {m shello kex hdone : HandshakeMessage} {hs hs' : ThreadDtlsServerHandshake} {rng rng' : Rng}
    (h : (buildServerFlight m).run (hs, rng) = .ok (shello, kex, hdone) (hs', rng')) :
    shello.payload.length ≤ 1200 ∧ kex.payload.length ≤ 548 ∧ hdone.payload.length = 0 := by
  obtain ⟨hello, hs₁, hs₂, hs₃, -, h₂, h₃, h₄⟩ := buildServerFlight_eq_ok.mp h
  obtain ⟨-, kkpp, payload, hkkpp, hpayload, rfl, -, -⟩ := buildServerHello_eq_ok.mp h₂
  obtain ⟨_, _, exchange, -, -, hexchange, rfl, -, -⟩ := buildServerKeyExchange_eq_ok.mp h₃
  obtain ⟨rfl, -⟩ := buildServerHelloDone_eq_ok.mp h₄
  exact ⟨length_serverHello (length_encodeTlsKkpp hkkpp) hpayload, length_encodeTlsKeyExchange hexchange, rfl⟩

theorem length_protected {ty : ContentType} {seq : UInt64} {key : ByteVector 16}
    {fixedIv : ByteVector 4} {plain : Bytes} {r : DtlsRecord}
    (h : protectAes128Ccm8Record ty 1 seq key fixedIv plain = .ok r) : r.bytes.length = 29 + plain.length := by
  obtain ⟨-, -, cipher, hciphertext, rfl⟩ := protect_eq_ok.mp h
  have hl := Suite.length_ccmEncrypt _ _ _ _ _ hciphertext
  rw [DtlsRecord.bytes, length_append, RecordHeader.length_encode, recordHeaderLen]
  simp only [protectedRecord, length_append, List.Vector.toList_length, hl]
  omega

end Handshake

section Events

/-- The session repeats, and the events transmit, only datagrams that fit a
TLV. -/
structure Modest [Suite] {H : Type} (s : Feed H) : Prop where
  flight : s.session.serverFlight.length ≤ maxExtendedTlvLength
  transmitted : ∀ datagram includeKek, .transmit datagram includeKek ∈ s.events →
    datagram.length ≤ maxExtendedTlvLength

section Steps

variable [Suite] {H : Type} {s t : Feed H} (h : Modest s)

include h

theorem Modest.append {pushed : List JoinerSessionEvent}
    (hflight : t.session.serverFlight.length ≤ maxExtendedTlvLength) (hevents : t.events = s.events ++ pushed)
    (hpushed : ∀ dgram includeKek, .transmit dgram includeKek ∈ pushed →
      dgram.length ≤ maxExtendedTlvLength) : Modest t := by
  refine ⟨hflight, fun dgram includeKek hmem => ?_⟩
  rw [hevents] at hmem
  rcases mem_append.mp hmem with hmem | hmem
  · exact h.transmitted dgram includeKek hmem
  · exact hpushed dgram includeKek hmem

theorem modest_plaintext {m : HandshakeMessage} (hstep : PlaintextStep m s t) : Modest t := by
  cases hstep with
  | challenged htype hphase hdec hverify =>
    refine h.append h.flight rfl fun dgram includeKek hmem => ?_
    cases mem_singleton.mp hmem
    rw [length_record_bytes]
    refine (Nat.add_le_add_left (verifyRequest_short ?_ _) 25).trans (by decide)
    rw [List.Vector.toList_length]
    decide
  | @accepted hello shello kex hdone hs rng htype hphase hdec hverify hflight =>
    obtain ⟨h₁, h₂, h₃⟩ := length_flight hflight
    have hlen : (datagramOf [shello.record 0 s.session.epoch0Sequence, kex.record 0 (s.session.epoch0Sequence + 1),
        hdone.record 0 (s.session.epoch0Sequence + 1 + 1)]).length ≤ maxExtendedTlvLength := by
      simp only [datagramOf, flatMap_cons, flatMap_nil, append_nil, length_append, length_record_bytes, maxExtendedTlvLength]
      omega
    refine h.append hlen rfl fun dgram includeKek hmem => ?_
    cases mem_singleton.mp hmem
    exact hlen
  | repeated htype hphase =>
    refine h.append h.flight rfl fun dgram includeKek hmem => ?_
    cases mem_singleton.mp hmem
    exact h.flight
  | exchanged => exact ⟨h.flight, h.transmitted⟩

theorem modest_finished {m : HandshakeMessage} (hstep : FinishedStep m s t) : Modest t := by
  cases hstep with
  | skipped => exact h
  | @verified keys checked hs sfin fin htype hkeys hverify hbuild hprot =>
    obtain ⟨rfl, -⟩ := buildServerFinished_eq_ok.mp hbuild
    have hlen := length_protected hprot
    rw [HandshakeMessage.length_bytes, List.Vector.toList_length, handshakeHeaderLen] at hlen
    refine h.append h.flight (finish_events s hs fin) fun dgram includeKek hmem => ?_
    rcases mem_cons.mp hmem with hmem | hmem
    · cases hmem
      simp only [datagramOf, flatMap_cons, flatMap_nil, append_nil, length_append, hlen, length_changeCipherSpec]
      decide
    · cases mem_singleton.mp hmem

theorem modest_confirms {ms : List HandshakeMessage} (hconfirms : Confirms ms s t) : Modest t := by
  induction hconfirms with
  | done s => exact h
  | stopped hfail =>
    obtain ⟨hs, epoch0, rng, -, rfl⟩ := hfail
    exact ⟨h.flight, h.transmitted⟩
  | next hstep hrest ih => exact ih (modest_finished h hstep)

variable [JoinerHandler H]

theorem modest_consult (info : JoinerFinalizeInfo) : Modest (consult s info).2 := by
  refine ⟨?_, ?_⟩
  · rw [consult_session]
    exact h.flight
  · rw [consult_events]
    exact h.transmitted

theorem modest_move {item : Item} (hmove : Move s item t) : Modest t := by
  cases hmove with
  | quiet hquiet =>
    obtain ⟨handshake, epoch0, rng, -, rfl⟩ := hquiet
    exact ⟨h.flight, h.transmitted⟩
  | plaintext hstep => exact modest_plaintext h hstep
  | confirmed hopens hconfirms => exact modest_confirms h hconfirms
  | cipherSpec hpayload => exact ⟨h.flight, h.transmitted⟩
  | consulted info => exact modest_consult h info
  | application hstep =>
    cases hstep with
    | ignored => exact h
    | @answered plaintext payload request info keyMaterial response hphase hopen hdec hpath hinfo hkeys henc
        hprotect =>
        have hlen := length_protected hprotect
        have hpayload := JoinerExchange.length_joinFinResponse henc
        have hmodest := modest_consult h info
        refine h.append hmodest.flight (answered_events s info response) fun datagram includeKek hmem => ?_
        rcases mem_cons.mp hmem with hmem | hmem
        · cases hmem
          rw [hlen, maxExtendedTlvLength]
          omega
        · split at hmem
          · cases hmem
          · cases mem_singleton.mp hmem

end Steps

variable [Suite] {H : Type} [JoinerHandler H]

theorem modest_receive (payload : Bytes) {party : Party H} (h : party.session.serverFlight.length ≤ maxExtendedTlvLength) :
    Modest (finalState (((datagramItems payload).forM handleItem).run party.feed)) :=
  rounds_induction (P := fun (_ : List (Visit H)) (t : Feed H) => Modest t)
    (fun _ item s hs => modest_move hs (handleItem_move item s)) []
    (show Modest party.feed from ⟨h, fun _ _ hmem => nomatch hmem⟩) (datagramItems payload)

end Events

end ThreadCommissioner.DatagramSizes
