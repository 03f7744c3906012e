import ThreadCommissioner.JoinerSessions
import ThreadCommissioner.ServerDriver

namespace ThreadCommissioner.JoinerSteps

open ByteStrings Coap Computations Drivers Errors HandshakeMessages Hellos JoinerSessions KeySchedule List Meshcop
open Primitives RecordProtection Records ServerDriver ServerHandshake
open JoinerSessions (inHandshake)

variable [Suite]

section Identity

/-- The part of a handshake that is drawn once: the party, its first round and
its random. -/
def SameIdentity (hs hs' : ThreadDtlsServerHandshake) : Prop :=
  hs'.ecjpake = hs.ecjpake ∧ hs'.serverRoundOne = hs.serverRoundOne ∧ hs'.serverRandom = hs.serverRandom

variable {hs hs' hs'' : ThreadDtlsServerHandshake}

theorem SameIdentity.refl (hs : ThreadDtlsServerHandshake) : SameIdentity hs hs := ⟨rfl, rfl, rfl⟩

theorem SameIdentity.trans (h : SameIdentity hs hs') (h' : SameIdentity hs' hs'') : SameIdentity hs hs'' :=
  ⟨h'.1.trans h.1, h'.2.1.trans h.2.1, h'.2.2.trans h.2.2⟩

variable (m : HandshakeMessage)

theorem pushTranscript_identity : Respects SameIdentity (pushTranscript m) := by
  refine .bind .trans (respects_get .refl) fun hs => ?_
  refine .lift_bind .refl fun transcript => ?_
  exact respects_modify fun hs => ⟨rfl, rfl, rfl⟩

theorem handleClientHello_identity : Respects SameIdentity (handleClientHello m) := by
  refine .lift_bind .refl fun _ => ?_
  refine .lift_bind .refl fun hello => ?_
  refine .lift_bind .refl fun _ => ?_
  refine .lift_bind .refl fun _ => ?_
  refine .lift_bind .refl fun kkpp => ?_
  refine .lift_bind .refl fun clientRoundOne => ?_
  refine .bind .trans (respects_modify fun hs => ⟨rfl, rfl, rfl⟩) fun _ => ?_
  exact .bind .trans (pushTranscript_identity m) fun _ => respects_pure .refl hello

variable (seq : UInt16)

theorem buildServerHello_identity : Respects SameIdentity (buildServerHello seq) := by
  refine .bind .trans (respects_get .refl) fun hs => ?_
  refine .lift_bind .refl fun _ => ?_
  refine .lift_bind .refl fun kkpp => ?_
  refine .lift_bind .refl fun payload => ?_
  exact .bind .trans (pushTranscript_identity _) fun _ => respects_pure .refl _

theorem buildServerKeyExchange_identity : Respects (fun s t => SameIdentity s.1 t.1) (buildServerKeyExchange seq) := by
  intro s
  rw [buildServerKeyExchange, get_bind]
  let P (t : ThreadDtlsServerHandshake × Rng) : Prop := SameIdentity s.1 t.1
  refine finalState_lift_bind (P := P) (.refl _) fun clientRoundOne _ => ?_
  refine finalState_lift_bind (P := P) (.refl _) fun two _ => ?_
  -- the state that is put back differs in the random source only
  refine Respects.bind (R := fun s t : ThreadDtlsServerHandshake × Rng => SameIdentity s.1 t.1) .trans
    (respects_lift (fun s => .refl s.1) _) (fun payload => ?_) (s.1, two.2)
  refine .bind .trans ((pushTranscript_identity _).zoom fun s hs h => h) fun _ => ?_
  exact respects_pure (fun s => .refl s.1) _

theorem buildServerHelloDone_identity : Respects SameIdentity (buildServerHelloDone seq) :=
  .bind .trans (pushTranscript_identity _) fun _ => respects_pure .refl _

theorem handleClientKeyExchange_identity : Respects SameIdentity (handleClientKeyExchange m) := by
  refine .lift_bind .refl fun _ => ?_
  refine .lift_bind .refl fun clientRoundTwo => ?_
  refine .bind .trans (respects_modify fun hs => ⟨rfl, rfl, rfl⟩) fun _ => ?_
  exact pushTranscript_identity m

theorem verifyClientFinished_identity (keys : ThreadDtlsKeyMaterial) :
    Respects SameIdentity (verifyClientFinished m keys) := by
  refine .lift_bind .refl fun _ => ?_
  refine .bind .trans (respects_get .refl) fun hs => ?_
  refine .lift_bind .refl fun _ => ?_
  exact pushTranscript_identity m

theorem buildServerFinished_identity (keys : ThreadDtlsKeyMaterial) :
    Respects SameIdentity (buildServerFinished seq keys) := by
  refine .bind .trans (respects_get .refl) fun hs => ?_
  exact .bind .trans (pushTranscript_identity _) fun _ => respects_pure .refl _

end Identity

section Plaintext

variable {H : Type} {s t u : Feed H} {m : HandshakeMessage}

/-- What a step that fails may change: the exchange, the plaintext counter and
the random source. -/
def Quiet (s t : Feed H) : Prop :=
  ∃ handshake epoch0Sequence rng, SameIdentity s.session.handshake handshake ∧
    t = { s with session := { s.session with handshake, epoch0Sequence }, rng }

theorem Quiet.refl (s : Feed H) : Quiet s s := ⟨_, _, _, .refl _, rfl⟩

theorem Quiet.trans (h : Quiet s t) (h' : Quiet t u) : Quiet s u := by
  obtain ⟨hs, epoch0, rng, hi, rfl⟩ := h
  obtain ⟨handshake', epoch0', rng', hi', rfl⟩ := h'
  exact ⟨handshake', epoch0', rng', hi.trans hi', rfl⟩

theorem inHandshake_quiet {α : Type} {x : ServerM α} (hx : Respects SameIdentity x) :
    Respects Quiet (inHandshake x : JoinerM H α) := hx.zoom fun _ hs hi => ⟨hs, _, _, hi, rfl⟩

theorem plaintextRecordOf_quiet (ty : ContentType) (payload : Bytes) :
    Respects Quiet (plaintextRecordOf ty payload : JoinerM H Bytes) := by
  refine .bind .trans (respects_get .refl) fun feed => ?_
  refine .lift_bind .refl fun r => ?_
  refine .bind .trans (respects_modify fun feed => ⟨_, _, _, .refl _, rfl⟩) fun _ => ?_
  exact respects_lift .refl _

theorem plaintextMessage_quiet (m : HandshakeMessage) : Respects Quiet (plaintextMessage m : JoinerM H Bytes) :=
  .lift_bind .refl fun payload => plaintextRecordOf_quiet .handshake payload

def countPlaintext (feed : Feed H) : Feed H :=
  { feed with session := { feed.session with epoch0Sequence := feed.session.epoch0Sequence + 1 } }

def push (feed : Feed H) (event : JoinerSessionEvent) : Feed H :=
  { feed with events := feed.events ++ [event] }

theorem plaintextRecordOf_eq_ok {ty : ContentType} {payload bytes : Bytes} :
    (plaintextRecordOf ty payload).run s = .ok bytes t ↔ ∃ r, DtlsRecord.new ty 0 s.session.epoch0Sequence payload = .ok r ∧
        bytes = r.bytes ∧ t = countPlaintext s := by
  rw [plaintextRecordOf, get_bind, lift_bind_ok]
  refine exists_congr fun r => ?_
  rw [ofDtls_eq_ok]
  refine and_congr_right fun hnew => ?_
  have hencode : ofDtls r.encode = .ok r.bytes :=
    ofDtls_eq_ok.mpr (DtlsRecord.encode_of_length (DtlsRecord.new_eq_ok hnew).2.2.2.2)
  rw [updateSession, modify_bind, hencode, run_lift_ok, EStateM.Result.ok.injEq, eq_comm, @eq_comm _ t]
  rfl

theorem plaintextMessage_eq_ok (hm : m.Fits) {bytes : Bytes} : (plaintextMessage m).run s = .ok bytes t ↔
      m.bytes.length ≤ 65535 ∧ bytes = (m.record 0 s.session.epoch0Sequence).bytes ∧ t = countPlaintext s := by
  have hencode : ofDtls m.encode = .ok m.bytes := ofDtls_eq_ok.mpr (HandshakeMessage.encode_of_fits hm)
  rw [plaintextMessage, lift_bind_of_ok hencode, plaintextRecord, plaintextRecordOf_eq_ok]
  by_cases hl : 65535 < m.bytes.length
  · simp only [DtlsRecord.new, if_pos hl, Nat.not_le.mpr hl, reduceCtorEq, false_and, exists_false]
  · simp only [DtlsRecord.new, if_neg hl, Nat.not_lt.mp hl, Except.ok.injEq, true_and, exists_eq_left']
    rfl

/-- The session after it has answered a hello with a cookie of its own. -/
def challenge (feed : Feed H) (message : HandshakeMessage) (hello : ClientHello) : Feed H :=
  let request := verifyRequestMessage message.messageSeq (feed.session.cookie.cookie hello.random).toList
  push (countPlaintext feed) (.transmit (request.record 0 feed.session.epoch0Sequence).bytes false)

theorem requestVerification_run (m : HandshakeMessage) (hello : ClientHello) (s : Feed H) :
    (requestVerification m hello).run s = .ok () (challenge s m hello) := by
  have hcookie : (s.session.cookie.cookie hello.random).toList.length ≤ 255 := by
    rw [List.Vector.toList_length]
    decide
  have hshort := verifyRequest_short hcookie m.messageSeq
  have hencode : ofDtls (HelloVerifyRequest.mk dtls12Version (s.session.cookie.cookie hello.random).toList).encode =
      .ok (HelloVerifyRequest.mk dtls12Version (s.session.cookie.cookie hello.random).toList).bytes :=
    ofDtls_eq_ok.mpr (HelloVerifyRequest.encode_of_le hcookie)
  rw [requestVerification, get_bind, lift_bind_of_ok hencode]
  exact (bind_of_ok ((plaintextMessage_eq_ok hshort.fits).mpr
    ⟨hshort.length_bytes.trans (by decide), rfl, rfl⟩)).trans rfl

/-- The session after it has answered a verified hello with its flight. -/
def accept (feed : Feed H) (serverHello keyExchange helloDone : HandshakeMessage)
    (handshake : ThreadDtlsServerHandshake) (rng : Rng) : Feed H :=
  let sequence := feed.session.epoch0Sequence
  let flight := datagramOf [serverHello.record 0 sequence, keyExchange.record 0 (sequence + 1),
    helloDone.record 0 (sequence + 1 + 1)]
  push
    { feed with
      session := { feed.session with
        handshake
        serverFlight := flight
        phase := .awaitingClientFlight
        epoch0Sequence := sequence + 1 + 1 + 1 }
      rng }
    (.transmit flight false)

theorem fits_of_buildServerFlight {hs hs' : ThreadDtlsServerHandshake} {rng rng' : Rng} {shello kex hdone : HandshakeMessage}
    (h : (buildServerFlight m).run (hs, rng) = .ok (shello, kex, hdone) (hs', rng')) :
    shello.Fits ∧ kex.Fits ∧ hdone.Fits := by
  obtain ⟨hello, hs₁, hs₂, hs₃, -, h₂, h₃, h₄⟩ := buildServerFlight_eq_ok.mp h
  obtain ⟨-, _, _, -, -, -, hfirst, -⟩ := buildServerHello_eq_ok.mp h₂
  obtain ⟨_, _, _, -, -, -, -, hsecond, -⟩ := buildServerKeyExchange_eq_ok.mp h₃
  obtain ⟨rfl, -⟩ := buildServerHelloDone_eq_ok.mp h₄
  exact ⟨hfirst, hsecond, Nat.zero_le _⟩

theorem acceptClientHello_eq_ok {r : Unit} : (acceptClientHello m).run s = .ok r t ↔
      ∃ shello kex hdone hs rng, (buildServerFlight m).run (s.session.handshake, s.rng) =
          .ok (shello, kex, hdone) (hs, rng) ∧
        shello.bytes.length ≤ 65535 ∧ kex.bytes.length ≤ 65535 ∧ hdone.bytes.length ≤ 65535 ∧
        t = accept s shello kex hdone hs rng := by
  constructor
  · intro h
    obtain ⟨hello, hs₁, h₁, h⟩ := zoom_bind_ok.mp h
    obtain ⟨shello, hs₂, h₂, h⟩ := zoom_bind_ok.mp h
    obtain ⟨kex, ⟨hs₃, rng⟩, h₃, h⟩ := zoom_bind_ok.mp h
    obtain ⟨hdone, hs₄, h₄, h⟩ := zoom_bind_ok.mp h
    have hflight : (buildServerFlight m).run (s.session.handshake, s.rng) = .ok (shello, kex, hdone) (hs₄, rng) :=
      buildServerFlight_eq_ok.mpr ⟨hello, hs₁, hs₂, hs₃, h₁, h₂, h₃, h₄⟩
    obtain ⟨hf₁, hf₂, hf₃⟩ := fits_of_buildServerFlight hflight
    obtain ⟨first, s₁, hp, h⟩ := bind_eq_ok.mp h
    obtain ⟨hl₁, rfl, rfl⟩ := (plaintextMessage_eq_ok hf₁).mp hp
    obtain ⟨second, s₂, hp, h⟩ := bind_eq_ok.mp h
    obtain ⟨hl₂, rfl, rfl⟩ := (plaintextMessage_eq_ok hf₂).mp hp
    obtain ⟨third, s₃, hp, h⟩ := bind_eq_ok.mp h
    obtain ⟨hl₃, rfl, rfl⟩ := (plaintextMessage_eq_ok hf₃).mp hp
    refine ⟨_, _, _, _, _, hflight, hl₁, hl₂, hl₃, ?_⟩
    cases h
    simp only [accept, push, countPlaintext, datagramOf, flatMap_cons, flatMap_nil, append_nil, append_assoc]
  · rintro ⟨shello, kex, hdone, hs, rng, hflight, hl₁, hl₂, hl₃, rfl⟩
    obtain ⟨hf₁, hf₂, hf₃⟩ := fits_of_buildServerFlight hflight
    obtain ⟨hello, hs₁, hs₂, hs₃, h₁, h₂, h₃, h₄⟩ := buildServerFlight_eq_ok.mp hflight
    refine zoom_bind_ok.mpr ⟨hello, hs₁, h₁, zoom_bind_ok.mpr ⟨_, hs₂, h₂, ?_⟩⟩
    refine zoom_bind_ok.mpr ⟨_, (hs₃, rng), h₃, zoom_bind_ok.mpr ⟨_, hs, h₄, ?_⟩⟩
    refine bind_eq_ok.mpr ⟨_, _, (plaintextMessage_eq_ok hf₁).mpr ⟨hl₁, rfl, rfl⟩, ?_⟩
    refine bind_eq_ok.mpr ⟨_, _, (plaintextMessage_eq_ok hf₂).mpr ⟨hl₂, rfl, rfl⟩, ?_⟩
    refine bind_eq_ok.mpr ⟨_, _, (plaintextMessage_eq_ok hf₃).mpr ⟨hl₃, rfl, rfl⟩, ?_⟩
    simp only [accept, push, datagramOf, flatMap_cons, flatMap_nil, append_nil]
    rw [← append_assoc]
    rfl

theorem acceptClientHello_fails (m : HandshakeMessage) : FailsWithin Quiet (acceptClientHello m : JoinerM H Unit) := by
  refine .bind .trans (inHandshake_quiet (handleClientHello_identity m)) fun _ => ?_
  refine .bind .trans (inHandshake_quiet (buildServerHello_identity 1)) fun shello => ?_
  have hexchange := buildServerKeyExchange_identity 2
  refine .bind .trans (hexchange.zoom fun _ r hi => ⟨r.1, _, r.2, hi, rfl⟩) fun kex => ?_
  refine .bind .trans (inHandshake_quiet (buildServerHelloDone_identity 3)) fun hdone => ?_
  refine .bind .trans (plaintextMessage_quiet shello) fun first => ?_
  refine .bind .trans (plaintextMessage_quiet kex) fun second => ?_
  refine .bind .trans (plaintextMessage_quiet hdone) fun third => ?_
  exact failsWithin_of_ok fun s => ⟨_, _, rfl⟩

def exchange (feed : Feed H) (handshake : ThreadDtlsServerHandshake) (keyMaterial : ThreadDtlsKeyMaterial) : Feed H :=
  { feed with session := { feed.session with handshake, keyMaterial := some keyMaterial } }

/-- What a plaintext handshake message can do to the session. -/
inductive PlaintextStep (message : HandshakeMessage) (s : Feed H) : Feed H → Prop
  | challenged {hello : ClientHello} (htype : message.messageType = .clientHello)
      (hphase : s.session.phase = .awaitingClientHello) (hdecode : ClientHello.decode message.payload = .ok hello)
      (hverify : s.session.cookie.verify hello.random hello.cookie = false) :
      PlaintextStep message s (challenge s message hello)
  | accepted {hello : ClientHello} {serverHello keyExchange helloDone : HandshakeMessage}
      {handshake : ThreadDtlsServerHandshake} {rng : Rng} (htype : message.messageType = .clientHello)
      (hphase : s.session.phase = .awaitingClientHello) (hdecode : ClientHello.decode message.payload = .ok hello)
      (hverify : s.session.cookie.verify hello.random hello.cookie = true)
      (hflight : (buildServerFlight message).run (s.session.handshake, s.rng) =
        .ok (serverHello, keyExchange, helloDone) (handshake, rng))
      (hfirst : serverHello.bytes.length ≤ 65535) (hsecond : keyExchange.bytes.length ≤ 65535)
      (hthird : helloDone.bytes.length ≤ 65535) :
      PlaintextStep message s (accept s serverHello keyExchange helloDone handshake rng)
  | repeated (htype : message.messageType = .clientHello) (hphase : s.session.phase = .awaitingClientFlight) :
      PlaintextStep message s (push s (.transmit s.session.serverFlight false))
  | exchanged {handshake : ThreadDtlsServerHandshake} {keyMaterial : ThreadDtlsKeyMaterial}
      (htype : message.messageType = .clientKeyExchange) (hphase : s.session.phase = .awaitingClientFlight)
      (hexchange : (handleClientKeyExchange message).run s.session.handshake = .ok () handshake)
      (hderive : handshake.deriveKeyMaterial = .ok keyMaterial) :
      PlaintextStep message s (exchange s handshake keyMaterial)

theorem handlePlaintextHandshake_eq_ok {r : Unit} : (handlePlaintextHandshake m).run s = .ok r t ↔ PlaintextStep m s t := by
  rw [handlePlaintextHandshake, get_bind]
  dsimp only
  constructor
  · intro h
    split at h
    · next htype hphase =>
      obtain ⟨hello, hdec, h⟩ := lift_bind_ok.mp h
      rw [ofDtls_eq_ok] at hdec
      split at h
      · next hverify =>
        obtain ⟨_, _, _, _, _, hflight, h₁, h₂, h₃, rfl⟩ := acceptClientHello_eq_ok.mp h
        exact .accepted htype hphase hdec hverify hflight h₁ h₂ h₃
      · next hverify =>
        rw [requestVerification_run] at h
        cases h
        exact .challenged htype hphase hdec (Bool.eq_false_iff.mpr hverify)
    · next htype hphase =>
      cases h
      exact .repeated htype hphase
    · next htype hphase =>
      obtain ⟨_, hs, hexchange, h⟩ := zoom_bind_ok.mp h
      rw [get_bind] at h
      obtain ⟨keys, hderive, h⟩ := lift_bind_ok.mp h
      cases h
      exact .exchanged htype hphase hexchange (ofDtls_eq_ok.mp hderive)
    · cases h
  · intro h
    cases h with
    | challenged htype hphase hdec hverify =>
      rw [htype, hphase]
      refine lift_bind_ok.mpr ⟨_, ofDtls_eq_ok.mpr hdec, ?_⟩
      rw [if_neg (by simp [hverify])]
      exact requestVerification_run m _ s
    | accepted htype hphase hdec hverify hflight h₁ h₂ h₃ =>
      rw [htype, hphase]
      refine lift_bind_ok.mpr ⟨_, ofDtls_eq_ok.mpr hdec, ?_⟩
      rw [if_pos hverify]
      exact acceptClientHello_eq_ok.mpr ⟨_, _, _, _, _, hflight, h₁, h₂, h₃, rfl⟩
    | repeated htype hphase =>
      rw [htype, hphase]
      rfl
    | exchanged htype hphase hexchange hderive =>
      rw [htype, hphase]
      refine zoom_bind_ok.mpr ⟨(), _, hexchange, ?_⟩
      exact lift_bind_ok.mpr ⟨_, ofDtls_eq_ok.mpr hderive, rfl⟩

theorem handlePlaintextHandshake_fails (m : HandshakeMessage) :
    FailsWithin Quiet (handlePlaintextHandshake m : JoinerM H Unit) := by
  refine .get_bind fun feed => ?_
  dsimp only
  split
  · refine .lift_bind .refl fun hello _ => ?_
    split
    · exact acceptClientHello_fails m
    · exact failsWithin_of_ok fun s => ⟨_, _, requestVerification_run m hello s⟩
  · exact failsWithin_of_ok fun s => ⟨_, _, rfl⟩
  · refine .bind .trans (inHandshake_quiet (handleClientKeyExchange_identity m)) fun _ => ?_
    refine .get_bind fun feed => .lift_bind .refl fun keys _ => ?_
    exact failsWithin_of_ok fun s => ⟨_, _, rfl⟩
  · exact (respects_throw .refl _).failsWithin

end Plaintext

section Encrypted

variable {H : Type} {s t : Feed H} {m : HandshakeMessage} {r : DtlsRecord}

/-- The session after it has confirmed the joiner's Finished with its own. -/
def finish (feed : Feed H) (handshake : ThreadDtlsServerHandshake) (finished : DtlsRecord) : Feed H :=
  push
    (push
      { feed with
        session := { feed.session with
          handshake
          phase := .connected
          epoch0Sequence := feed.session.epoch0Sequence + 1
          epoch1Sequence := feed.session.epoch1Sequence + 1 } }
      (.transmit (datagramOf [changeCipherSpecRecord feed.session.epoch0Sequence, finished]) false))
    .connected

theorem finish_events (feed : Feed H) (hs : ThreadDtlsServerHandshake) (fin : DtlsRecord) :
    (finish feed hs fin).events = feed.events ++
      [.transmit (datagramOf [changeCipherSpecRecord feed.session.epoch0Sequence, fin]) false, .connected] := by
  simp only [finish, push, append_assoc, singleton_append]

/-- What a message of an encrypted handshake record can do to the session. -/
inductive FinishedStep (message : HandshakeMessage) (s : Feed H) : Feed H → Prop
  | skipped (htype : message.messageType ≠ .finished) : FinishedStep message s s
  | verified {keyMaterial : ThreadDtlsKeyMaterial} {checked handshake : ThreadDtlsServerHandshake}
      {serverFinished : HandshakeMessage} {finished : DtlsRecord} (htype : message.messageType = .finished)
      (hkeys : s.session.keyMaterial = some keyMaterial)
      (hverify : (verifyClientFinished message keyMaterial).run s.session.handshake = .ok () checked)
      (hbuild : (buildServerFinished 4 keyMaterial).run checked = .ok serverFinished handshake)
      (hprotect : protectAes128Ccm8Record .handshake 1 s.session.epoch1Sequence keyMaterial.keyBlock.serverWriteKey
        keyMaterial.keyBlock.serverWriteIv serverFinished.bytes = .ok finished) :
      FinishedStep message s (finish s handshake finished)

theorem keyMaterialRequired_eq_ok {sess : JoinerSession} {keys : ThreadDtlsKeyMaterial} :
    sess.keyMaterialRequired = .ok keys ↔ sess.keyMaterial = some keys := okOr_eq_ok

theorem serverFinished_fits {hs hs' : ThreadDtlsServerHandshake} {keys : ThreadDtlsKeyMaterial}
    (h : (buildServerFinished 4 keys).run hs = .ok m hs') : m.Fits := by
  obtain ⟨rfl, -⟩ := buildServerFinished_eq_ok.mp h
  exact finished_fits _ _

theorem plaintextChangeCipherSpec_run (s : Feed H) : (plaintextChangeCipherSpec).run s =
      .ok (changeCipherSpecRecord s.session.epoch0Sequence).bytes (countPlaintext s) :=
  plaintextRecordOf_eq_ok.mpr ⟨_, changeCipherSpec_new _, rfl, rfl⟩

theorem handleFinished_eq_ok {r : Unit} : (handleFinished m).run s = .ok r t ↔ FinishedStep m s t := by
  rw [handleFinished]
  constructor
  · intro h
    split at h
    · next htype =>
      cases h
      exact .skipped htype
    · next htype =>
      rw [get_bind] at h
      obtain ⟨keys, hkeys, h⟩ := lift_bind_ok.mp h
      obtain ⟨_, checked, hverify, h⟩ := zoom_bind_ok.mp h
      obtain ⟨sfin, hs, hbuild, h⟩ := zoom_bind_ok.mp h
      rw [bind_of_ok (plaintextChangeCipherSpec_run _)] at h
      obtain ⟨payload, henc, h⟩ := lift_bind_ok.mp h
      obtain rfl : sfin.bytes = payload := by
        rw [ofDtls_eq_ok, HandshakeMessage.encode_of_fits (serverFinished_fits hbuild)] at henc
        exact Except.ok.inj henc
      rw [get_bind] at h
      obtain ⟨fin, hprot, h⟩ := lift_bind_ok.mp h
      rw [ofDtls_eq_ok] at hprot
      have hbytes : ofDtls fin.encode = .ok fin.bytes :=
        ofDtls_eq_ok.mpr (DtlsRecord.encode_of_length (protect_wellFormed hprot).1)
      rw [updateSession, modify_bind, lift_bind_of_ok hbytes] at h
      cases h
      have := FinishedStep.verified (not_not.mp htype) (keyMaterialRequired_eq_ok.mp hkeys) hverify hbuild hprot
      simpa [finish, push, datagramOf, countPlaintext] using this
  · intro h
    cases h with
    | skipped htype =>
      rw [if_pos htype]
      rfl
    | verified htype hkeys hverify hbuild hprot =>
      rw [if_neg (not_not.mpr htype), get_bind, lift_bind_of_ok (keyMaterialRequired_eq_ok.mpr hkeys)]
      refine zoom_bind_ok.mpr ⟨(), _, hverify, zoom_bind_ok.mpr ⟨_, _, hbuild, ?_⟩⟩
      rw [bind_of_ok (plaintextChangeCipherSpec_run _)]
      refine lift_bind_ok.mpr
        ⟨_, ofDtls_eq_ok.mpr (HandshakeMessage.encode_of_fits (serverFinished_fits hbuild)), ?_⟩
      refine lift_bind_ok.mpr ⟨_, ofDtls_eq_ok.mpr hprot, ?_⟩
      rw [updateSession, modify_bind]
      refine lift_bind_ok.mpr
        ⟨_, ofDtls_eq_ok.mpr (DtlsRecord.encode_of_length (protect_wellFormed hprot).1), ?_⟩
      simp only [finish, push, datagramOf, flatMap_cons, flatMap_nil, append_nil]
      rfl

theorem handleFinished_fails (m : HandshakeMessage) : FailsWithin Quiet (handleFinished m : JoinerM H Unit) := by
  rw [handleFinished]
  split
  · exact failsWithin_of_ok fun s => ⟨_, _, rfl⟩
  · refine .get_bind fun feed => .lift_bind .refl fun keys _ => ?_
    refine .bind .trans (inHandshake_quiet (verifyClientFinished_identity m keys)) fun _ => ?_
    refine .bind .trans (inHandshake_quiet (buildServerFinished_identity 4 keys)) fun sfin => ?_
    refine .bind .trans (plaintextRecordOf_quiet .changeCipherSpec [1]) fun changeCipherSpec => ?_
    refine .lift_bind .refl fun payload _ => .get_bind fun feed => .lift_bind .refl fun fin hprot => ?_
    -- a protected record has the length its header states, so nothing fails once the counter has moved
    have hbytes : ofDtls fin.encode = .ok fin.bytes :=
      ofDtls_eq_ok.mpr (DtlsRecord.encode_of_length (protect_wellFormed (ofDtls_eq_ok.mp hprot)).1)
    refine failsWithin_of_ok fun s => ?_
    rw [updateSession, modify_bind, lift_bind_of_ok hbytes]
    exact ⟨_, _, rfl⟩

end Encrypted

section Application

variable {H : Type} {s t : Feed H} {record : DtlsRecord} {req : CoapMessage} {info : JoinerFinalizeInfo}

def answer (feed : Feed H) (info : JoinerFinalizeInfo) (accepted : Bool) (response : DtlsRecord) : Feed H :=
  { feed with
    session := { feed.session with epoch1Sequence := feed.session.epoch1Sequence + 1, phase := .finalized }
    events := feed.events ++ .transmit response.bytes accepted ::
      if feed.session.phase = .finalized then [] else [.finalized accepted info] }

theorem answerJoinFin_eq_ok {acc : Bool} {r : Unit} : (answerJoinFin req info acc).run s = .ok r t ↔
      ∃ keys payload response, s.session.keyMaterial = some keys ∧ (joinFinResponse req acc).encode = .ok payload ∧
        protectAes128Ccm8Record .applicationData 1 s.session.epoch1Sequence keys.keyBlock.serverWriteKey
          keys.keyBlock.serverWriteIv payload = .ok response ∧ t = answer s info acc response := by
  have htail : ∀ response : DtlsRecord, response.payload.length = response.header.length.toNat → (do
        updateSession fun sess =>
          { sess with epoch1Sequence := sess.epoch1Sequence + 1, phase := .finalized }
        let datagram ← ofDtls response.encode
        pushEvent (.transmit datagram acc)
        if s.session.phase ≠ .finalized then pushEvent (.finalized acc info) else pure () :
          JoinerM H Unit).run s = .ok () (answer s info acc response) := by
    intro response hl
    rw [updateSession, modify_bind, lift_bind_of_ok (ofDtls_eq_ok.mpr (DtlsRecord.encode_of_length hl)), pushEvent,
      modify_bind]
    by_cases hphase : s.session.phase = .finalized
    · rw [if_neg (not_not.mpr hphase), answer, if_pos hphase]
      rfl
    · rw [if_pos hphase, answer, if_neg hphase, append_cons s.events (.transmit response.bytes acc)
        [.finalized acc info]]
      rfl
  rw [answerJoinFin, get_bind]
  constructor
  · intro h
    obtain ⟨keys, hkeys, h⟩ := lift_bind_ok.mp h
    obtain ⟨payload, henc, h⟩ := lift_bind_ok.mp h
    obtain ⟨response, hprot, h⟩ := lift_bind_ok.mp h
    rw [ofDtls_eq_ok] at hprot
    have hrun := (htail response (protect_wellFormed hprot).1).symm.trans h
    cases hrun
    exact ⟨keys, payload, response, keyMaterialRequired_eq_ok.mp hkeys, henc, hprot, rfl⟩
  · rintro ⟨keys, payload, response, hkeys, henc, hprot, rfl⟩
    refine lift_bind_ok.mpr ⟨_, keyMaterialRequired_eq_ok.mpr hkeys, lift_bind_ok.mpr ⟨_, henc, ?_⟩⟩
    refine lift_bind_ok.mpr ⟨_, ofDtls_eq_ok.mpr hprot, ?_⟩
    exact htail response (protect_wellFormed hprot).1

theorem answerJoinFin_fails (req : CoapMessage) (info : JoinerFinalizeInfo) (acc : Bool) :
    FailsWithin Eq (answerJoinFin req info acc : JoinerM H Unit) := by
  refine .get_bind fun feed => .lift_bind .refl fun keys _ => .lift_bind .refl fun payload _ => ?_
  refine .lift_bind .refl fun resp hprot => failsWithin_of_ok fun s => ?_
  have hbytes : ofDtls resp.encode = .ok resp.bytes :=
    ofDtls_eq_ok.mpr (DtlsRecord.encode_of_length (protect_wellFormed (ofDtls_eq_ok.mp hprot)).1)
  rw [updateSession, modify_bind, lift_bind_of_ok hbytes, pushEvent, modify_bind]
  split
  · exact ⟨_, _, rfl⟩
  · exact ⟨_, _, rfl⟩

variable [JoinerHandler H]

/-- The recorded decision, or the one the handler takes now, with the state
that records it. -/
def consult (feed : Feed H) (info : JoinerFinalizeInfo) : Bool × Feed H :=
  match feed.session.finalizeDecision with
  | some accepted => (accepted, feed)
  | none =>
    let (accepted, handler) := JoinerHandler.onJoinerFinalize feed.handler feed.session.joinerId info
    (accepted, { feed with handler, session := { feed.session with finalizeDecision := some accepted } })

theorem finalizeDecisionOr_run (info : JoinerFinalizeInfo) (s : Feed H) :
    (finalizeDecisionOr info).run s = .ok (consult s info).1 (consult s info).2 := by
  rw [finalizeDecisionOr, get_bind, consult]
  cases s.session.finalizeDecision <;> rfl

/-- What an application data record can do to the session. -/
inductive ApplicationStep (record : DtlsRecord) (s : Feed H) : Feed H → Prop
  | ignored {plaintext : Bytes} {request : CoapMessage} {path : Option Texts.Text}
      (hphase : s.session.phase = .connected ∨ s.session.phase = .finalized)
      (hopen : s.session.openRecord record = .ok plaintext) (hdecode : CoapMessage.decode plaintext = .ok request)
      (hpath : request.uriPath = .ok path) (hother : path ≠ some Uri.joinFin) : ApplicationStep record s s
  | answered {plaintext payload : Bytes} {request : CoapMessage} {info : JoinerFinalizeInfo}
      {keyMaterial : ThreadDtlsKeyMaterial} {response : DtlsRecord}
      (hphase : s.session.phase = .connected ∨ s.session.phase = .finalized)
      (hopen : s.session.openRecord record = .ok plaintext) (hdecode : CoapMessage.decode plaintext = .ok request)
      (hpath : request.uriPath = .ok (some Uri.joinFin)) (hinfo : parseJoinFin request = .ok info)
      (hkeys : s.session.keyMaterial = some keyMaterial)
      (hencode : (joinFinResponse request (consult s info).1).encode = .ok payload)
      (hprotect : protectAes128Ccm8Record .applicationData 1 s.session.epoch1Sequence
        keyMaterial.keyBlock.serverWriteKey keyMaterial.keyBlock.serverWriteIv payload = .ok response) :
      ApplicationStep record s (answer (consult s info).2 info (consult s info).1 response)

theorem consult_cases (s : Feed H) (info : JoinerFinalizeInfo) :
    (∃ acc, s.session.finalizeDecision = some acc ∧ consult s info = (acc, s)) ∨
    ∃ acc handler, s.session.finalizeDecision = none ∧
      JoinerHandler.onJoinerFinalize s.handler s.session.joinerId info = (acc, handler) ∧ consult s info =
        (acc, { s with handler, session := { s.session with finalizeDecision := some acc } }) := by
  cases h : s.session.finalizeDecision with
  | some acc => exact .inl ⟨acc, rfl, by rw [consult, h]⟩
  | none =>
    refine .inr ⟨_, _, rfl, rfl, ?_⟩
    rw [consult, h]
    rfl

theorem consult_session (s : Feed H) (info : JoinerFinalizeInfo) :
    (consult s info).2.session = { s.session with finalizeDecision := some (consult s info).1 } := by
  rcases consult_cases s info with ⟨accepted, hd, hc⟩ | ⟨accepted, handler, -, -, hc⟩
  · rw [hc, ← hd]
  · rw [hc]

theorem consult_events (s : Feed H) (info : JoinerFinalizeInfo) : (consult s info).2.events = s.events := by
  rcases consult_cases s info with ⟨accepted, -, hc⟩ | ⟨accepted, handler, -, -, hc⟩
  · rw [hc]
  · rw [hc]

theorem answered_events (s : Feed H) (info : JoinerFinalizeInfo) (resp : DtlsRecord) :
    (answer (consult s info).2 info (consult s info).1 resp).events = s.events ++ .transmit resp.bytes (consult s info).1 ::
        if s.session.phase = .finalized then [] else [.finalized (consult s info).1 info] := by
  simp only [answer, consult_events, consult_session]

theorem handleApplicationData_eq_ok {r : Unit} :
    (handleApplicationData record).run s = .ok r t ↔ ApplicationStep record s t := by
  have hsession := consult_session s
  rw [handleApplicationData, get_bind]
  constructor
  · intro h
    obtain ⟨_, hphase, h⟩ := lift_bind_ok.mp h
    obtain ⟨plaintext, hopen, h⟩ := lift_bind_ok.mp h
    obtain ⟨req, hdec, h⟩ := lift_bind_ok.mp h
    obtain ⟨path, hpath, h⟩ := lift_bind_ok.mp h
    split at h
    · next hother =>
      cases h
      exact .ignored (ensure_eq_ok.mp hphase) hopen hdec hpath hother
    · next hjoin =>
      obtain ⟨info, hinfo, h⟩ := lift_bind_ok.mp h
      rw [bind_of_ok (finalizeDecisionOr_run info s)] at h
      obtain ⟨keys, payload, response, hkeys, henc, hprot, rfl⟩ := answerJoinFin_eq_ok.mp h
      rw [hsession info] at hkeys hprot
      rw [not_not.mp hjoin] at hpath
      exact .answered (ensure_eq_ok.mp hphase) hopen hdec hpath hinfo hkeys henc hprot
  · intro h
    cases h with
    | ignored hphase hopen hdec hpath hother =>
      refine lift_bind_ok.mpr ⟨(), ensure_eq_ok.mpr hphase, lift_bind_ok.mpr ⟨_, hopen, ?_⟩⟩
      refine lift_bind_ok.mpr ⟨_, hdec, lift_bind_ok.mpr ⟨_, hpath, ?_⟩⟩
      rw [if_pos hother]
      rfl
    | @answered _ _ _ info _ _ hphase hopen hdec hpath hinfo hkeys henc hprot =>
      refine lift_bind_ok.mpr ⟨(), ensure_eq_ok.mpr hphase, lift_bind_ok.mpr ⟨_, hopen, ?_⟩⟩
      refine lift_bind_ok.mpr ⟨_, hdec, lift_bind_ok.mpr ⟨_, hpath, ?_⟩⟩
      rw [if_neg (not_not.mpr rfl), lift_bind_of_ok hinfo, bind_of_ok (finalizeDecisionOr_run _ s)]
      have hkeys' := (congrArg JoinerSession.keyMaterial (hsession info)).trans hkeys
      refine answerJoinFin_eq_ok.mpr ⟨_, _, _, hkeys', henc, ?_, rfl⟩
      rw [hsession]
      exact hprot

theorem handleApplicationData_fails (record : DtlsRecord) :
    FailsWithin (fun s t => t = s ∨ ∃ info, t = (consult s info).2) (handleApplicationData record : JoinerM H Unit) := by
  refine .get_bind fun feed => .lift_bind (fun s => .inl rfl) fun _ _ => ?_
  refine .lift_bind (fun s => .inl rfl) fun plain _ => .lift_bind (fun s => .inl rfl) fun req _ => ?_
  refine .lift_bind (fun s => .inl rfl) fun path _ => ?_
  split
  · exact failsWithin_of_ok fun s => ⟨_, _, rfl⟩
  · refine .lift_bind (fun s => .inl rfl) fun info _ => ?_
    intro s e t h
    rw [bind_of_ok (finalizeDecisionOr_run info s)] at h
    exact .inr ⟨info, (answerJoinFin_fails _ _ _ _ _ _ h).symm⟩

end Application

section Items

/-- What a datagram is handled in: the messages of its plaintext handshake
records, and its other records. -/
inductive Item
  | malformed (error : DtlsError)
  | message (message : HandshakeMessage)
  | encrypted (record : DtlsRecord)
  | changeCipherSpec (record : DtlsRecord)
  | application (record : DtlsRecord)
  | alert (record : DtlsRecord)
  | ignored (record : DtlsRecord)

def recordItems (record : DtlsRecord) : List Item :=
  match record.header.contentType with
  | .handshake =>
    if record.header.epoch = 0 then
      match parseUnfragmentedHandshakeMessages record with
      | .ok messages => messages.map .message
      | .error e => [.malformed e]
    else if record.header.epoch = 1 then [.encrypted record]
    else [.ignored record]
  | .changeCipherSpec => if record.header.epoch = 0 then [.changeCipherSpec record] else [.ignored record]
  | .applicationData => if record.header.epoch = 1 then [.application record] else [.ignored record]
  | .alert => [.alert record]

def datagramItems (encapsulated : Bytes) : List Item :=
  match DtlsRecord.parseDatagram encapsulated with
  | .ok records => records.flatMap recordItems
  | .error e => [.malformed e]

variable {H : Type} [JoinerHandler H]

def handleItem : Item → JoinerM H Unit
  | .malformed error => throw (.dtls error)
  | .message message => handlePlaintextHandshake message
  | .encrypted record => handleEncryptedHandshake record
  | .changeCipherSpec record => handleChangeCipherSpec record
  | .application record => handleApplicationData record
  | .alert record => throw (joinerAlert record)
  | .ignored _ => pure ()

theorem forM_singleton (item : Item) : [item].forM (handleItem (H := H)) = handleItem item := bind_pure (handleItem item)

theorem forM_messages (ms : List HandshakeMessage) :
    (ms.map Item.message).forM (handleItem (H := H)) = ms.forM handlePlaintextHandshake := by
  induction ms with
  | nil => rfl
  | cons message ms ih =>
    change (handlePlaintextHandshake message >>= fun _ => (ms.map Item.message).forM handleItem) = _
    rw [ih]
    rfl

theorem handleRecord_eq (r : DtlsRecord) : (handleRecord r : JoinerM H Unit) = (recordItems r).forM handleItem := by
  rw [handleRecord, recordItems]
  cases r.header.contentType with
  | handshake =>
    by_cases h0 : r.header.epoch = 0
    · simp only [if_pos h0]
      cases parseUnfragmentedHandshakeMessages r with
      | ok messages => exact (forM_messages messages).symm
      | error e => exact (forM_singleton (H := H) (.malformed e)).symm
    · by_cases h1 : r.header.epoch = 1
      · simp only [if_neg h0, if_pos h1, forM_singleton]
        rfl
      · simp only [if_neg h0, if_neg h1, forM_singleton]
        rfl
  | changeCipherSpec =>
    by_cases h0 : r.header.epoch = 0
    · simp only [if_pos h0, forM_singleton]
      rfl
    · simp only [if_neg h0, forM_singleton]
      rfl
  | applicationData =>
    by_cases h1 : r.header.epoch = 1
    · simp only [if_pos h1, forM_singleton]
      rfl
    · simp only [if_neg h1, forM_singleton]
      rfl
  | alert => exact (forM_singleton (H := H) (.alert r)).symm

theorem forM_handleRecord (rs : List DtlsRecord) :
    rs.forM (handleRecord (H := H)) = (rs.flatMap recordItems).forM handleItem := by
  induction rs with
  | nil => rfl
  | cons record rs ih =>
    have happend : (recordItems record ++ rs.flatMap recordItems).forM (handleItem (H := H)) =
        ((recordItems record).forM handleItem >>= fun _ => (rs.flatMap recordItems).forM handleItem) := forM_append
    rw [flatMap_cons, happend, ← handleRecord_eq, ← ih]
    rfl

theorem feedDatagram_eq (dgram : Bytes) : (feedDatagram dgram : JoinerM H Unit) = (datagramItems dgram).forM handleItem := by
  rw [feedDatagram, datagramItems]
  cases DtlsRecord.parseDatagram dgram with
  | ok records => exact forM_handleRecord records
  | error e => exact (forM_singleton (H := H) (.malformed e)).symm

end Items

section Moves

variable {H : Type}

/-- What the messages of an encrypted handshake record can do to the session,
to the last of them or to one that fails. -/
inductive Confirms : List HandshakeMessage → Feed H → Feed H → Prop
  | done (s : Feed H) : Confirms [] s s
  | stopped {messages : List HandshakeMessage} {s t : Feed H} (hfail : Quiet s t) : Confirms messages s t
  | next {message : HandshakeMessage} {messages : List HandshakeMessage} {s t u : Feed H}
      (hstep : FinishedStep message s t) (hrest : Confirms messages t u) : Confirms (message :: messages) s u

theorem confirms_forM (ms : List HandshakeMessage) (s : Feed H) :
    Confirms ms s (finalState ((ms.forM handleFinished).run s)) := by
  induction ms generalizing s with
  | nil => exact .done s
  | cons message ms ih =>
    change Confirms _ s (finalState ((handleFinished message >>= fun _ => ms.forM handleFinished).run s))
    cases h : (handleFinished message).run s with
    | ok r t =>
      rw [bind_of_ok h]
      exact .next (handleFinished_eq_ok.mp h) (ih t)
    | error e t =>
      rw [bind_of_error h]
      exact .stopped (handleFinished_fails message s e t h)

variable {s t : Feed H} {ms : List HandshakeMessage}

theorem Quiet.events (h : Quiet s t) : t.events = s.events := by
  obtain ⟨hs, epoch0, rng, -, rfl⟩ := h
  rfl

theorem FinishedStep.identity {m : HandshakeMessage} (h : FinishedStep m s t) :
    SameIdentity s.session.handshake t.session.handshake := by
  cases h with
  | skipped htype => exact .refl _
  | verified htype hkeys hverify hbuild hprotect =>
    exact ((verifyClientFinished_identity _ _).of_ok hverify).trans ((buildServerFinished_identity _ _).of_ok hbuild)

/-- What confirming the handshake leaves alone. -/
structure Confirms.Frame (s t : Feed H) : Prop where
  identity : SameIdentity s.session.handshake t.session.handshake
  handler : t.handler = s.handler
  joinerId : t.session.joinerId = s.session.joinerId
  cookie : t.session.cookie = s.session.cookie
  keyMaterial : t.session.keyMaterial = s.session.keyMaterial
  sawClientChangeCipherSpec : t.session.sawClientChangeCipherSpec = s.session.sawClientChangeCipherSpec
  finalizeDecision : t.session.finalizeDecision = s.session.finalizeDecision
  phase : t.session.phase = s.session.phase ∨ t.session.phase = .connected

theorem Confirms.frame (h : Confirms ms s t) : Confirms.Frame s t := by
  induction h with
  | done s => exact ⟨.refl _, rfl, rfl, rfl, rfl, rfl, rfl, .inl rfl⟩
  | stopped hfail =>
    obtain ⟨hs, epoch0, rng, hi, rfl⟩ := hfail
    exact ⟨hi, rfl, rfl, rfl, rfl, rfl, rfl, .inl rfl⟩
  | next hstep hrest ih =>
    have hi := hstep.identity.trans ih.identity
    cases hstep with
    | skipped htype => exact ih
    | verified htype hkeys hverify hbuild hprotect =>
      refine ⟨hi, ih.handler, ih.joinerId, ih.cookie, ih.keyMaterial, ih.sawClientChangeCipherSpec,
        ih.finalizeDecision, .inr ?_⟩
      exact ih.phase.elim id id

theorem Confirms.exists_finished (h : Confirms ms s t) (hphase : t.session.phase ≠ s.session.phase) :
    ∃ message ∈ ms, ∃ keys, s.session.keyMaterial = some keys ∧ message.messageType = .finished ∧
      message.payload = (s.session.handshake.transcript.finishedVerifyData keys.masterSecret .client).toList := by
  induction h with
  | done s => exact absurd rfl hphase
  | stopped hfail =>
    obtain ⟨hs, epoch0, rng, -, rfl⟩ := hfail
    exact absurd rfl hphase
  | @next message ms s t u hstep hrest ih =>
    cases hstep with
    | skipped htype =>
      obtain ⟨m, hm, hrest⟩ := ih hphase
      exact ⟨m, by simp [hm], hrest⟩
    | verified htype hkeys hverify hbuild hprotect =>
      obtain ⟨-, hdata, -, -⟩ := verifyClientFinished_eq_ok.mp hverify
      exact ⟨message, by simp, _, hkeys, htype, hdata.symm⟩

/-- Confirming the handshake sends a datagram without the KEK and reports the
connection, once per Finished. -/
theorem Confirms.events (h : Confirms ms s t) : ∃ pushed, t.events = s.events ++ pushed ∧
      ∀ event ∈ pushed, event = .connected ∨ ∃ dgram, event = .transmit dgram false := by
  induction h with
  | done s => exact ⟨[], by simp, by simp⟩
  | stopped hfail => exact ⟨[], by simp [hfail.events], by simp⟩
  | next hstep hrest ih =>
    obtain ⟨pushed, hpushed, hall⟩ := ih
    cases hstep with
    | skipped htype => exact ⟨pushed, hpushed, hall⟩
    | verified htype hkeys hverify hbuild hprotect =>
      rw [finish_events, append_assoc] at hpushed
      refine ⟨_, hpushed, fun event he => ?_⟩
      rcases mem_append.mp he with he | he
      · rcases mem_cons.mp he with rfl | he
        · exact .inr ⟨_, rfl⟩
        · exact .inl (mem_singleton.mp he)
      · exact hall event he

/-- The record opens under the key material of the session, after a
ChangeCipherSpec, to the messages of a handshake record. -/
def OpensTo (record : DtlsRecord) (session : JoinerSession) (messages : List HandshakeMessage) : Prop :=
  session.phase = .awaitingClientFlight ∧ session.sawClientChangeCipherSpec = true ∧
    ∃ plaintext plainRecord, session.openRecord record = .ok plaintext ∧
      DtlsRecord.new .handshake 1 0 plaintext = .ok plainRecord ∧
      parseUnfragmentedHandshakeMessages plainRecord = .ok messages

theorem handleEncryptedHandshake_eq_ok {r : DtlsRecord} : (handleEncryptedHandshake r).run s = .ok () t ↔
      (s.session.phase ≠ .awaitingClientFlight ∧ t = s) ∨
      ∃ ms, OpensTo r s.session ms ∧ (ms.forM handleFinished).run s = .ok () t := by
  rw [handleEncryptedHandshake, get_bind]
  dsimp only
  by_cases hphase : s.session.phase = .awaitingClientFlight
  · rw [if_neg (not_not.mpr hphase)]
    constructor
    · intro h
      obtain ⟨_, hsaw, h⟩ := lift_bind_ok.mp h
      obtain ⟨plain, hopen, h⟩ := lift_bind_ok.mp h
      obtain ⟨plainRec, hnew, h⟩ := lift_bind_ok.mp h
      obtain ⟨ms, hparse, h⟩ := lift_bind_ok.mp h
      rw [ofDtls_eq_ok] at hnew hparse
      exact .inr ⟨ms, ⟨hphase, ensure_eq_ok.mp hsaw, plain, plainRec, hopen, hnew, hparse⟩, h⟩
    · rintro (⟨hother, -⟩ | ⟨ms, ⟨-, hsaw, plain, plainRec, hopen, hnew, hparse⟩, h⟩)
      · exact absurd hphase hother
      · rw [lift_bind_of_ok (ensure_true hsaw _), lift_bind_of_ok hopen, lift_bind_of_ok (ofDtls_eq_ok.mpr hnew),
          lift_bind_of_ok (ofDtls_eq_ok.mpr hparse)]
        exact h
  · rw [if_pos hphase]
    constructor
    · intro h
      cases h
      exact .inl ⟨hphase, rfl⟩
    · rintro (⟨-, rfl⟩ | ⟨ms, hopens, -⟩)
      · rfl
      · exact absurd hopens.1 hphase

variable [JoinerHandler H]

/-- What an item can do to the session, whether it is handled or fails. -/
inductive Move (s : Feed H) : Item → Feed H → Prop
  | quiet {item : Item} {t : Feed H} (h : Quiet s t) : Move s item t
  | plaintext {message : HandshakeMessage} {t : Feed H} (h : PlaintextStep message s t) : Move s (.message message) t
  | confirmed {record : DtlsRecord} {messages : List HandshakeMessage} {t : Feed H}
      (hopens : OpensTo record s.session messages) (h : Confirms messages s t) : Move s (.encrypted record) t
  | cipherSpec {record : DtlsRecord} (hpayload : record.payload = [1]) :
      Move s (.changeCipherSpec record) { s with session := { s.session with sawClientChangeCipherSpec := true } }
  | application {record : DtlsRecord} {t : Feed H} (h : ApplicationStep record s t) : Move s (.application record) t
  | consulted {record : DtlsRecord} (info : JoinerFinalizeInfo) : Move s (.application record) (consult s info).2

theorem encrypted_move (r : DtlsRecord) (s : Feed H) :
    Move s (.encrypted r) (finalState ((handleEncryptedHandshake r).run s)) := by
  let P (t : Feed H) : Prop := Move s (.encrypted r) t
  have hsame : P s := .quiet (.refl s)
  rw [handleEncryptedHandshake, get_bind]
  by_cases hphase : s.session.phase = .awaitingClientFlight
  · rw [if_neg (not_not.mpr hphase)]
    refine finalState_lift_bind (P := P) hsame fun _ hsaw => ?_
    refine finalState_lift_bind (P := P) hsame fun plain hopen => ?_
    refine finalState_lift_bind (P := P) hsame fun plainRec hnew => ?_
    refine finalState_lift_bind (P := P) hsame fun ms hparse => ?_
    rw [ofDtls_eq_ok] at hnew hparse
    exact .confirmed ⟨hphase, ensure_eq_ok.mp hsaw, plain, plainRec, hopen, hnew, hparse⟩
      (confirms_forM ms s)
  · rw [if_pos hphase]
    exact hsame

theorem handleItem_move (item : Item) (s : Feed H) : Move s item (finalState ((handleItem item).run s)) := by
  cases item with
  | malformed error => exact .quiet (.refl s)
  | message message =>
    rw [handleItem]
    cases h : (handlePlaintextHandshake message).run s with
    | ok r t => exact .plaintext (handlePlaintextHandshake_eq_ok.mp h)
    | error e t => exact .quiet (handlePlaintextHandshake_fails message s e t h)
  | encrypted record => exact encrypted_move record s
  | changeCipherSpec record =>
    rw [handleItem, handleChangeCipherSpec]
    by_cases hpayload : record.payload = [1]
    · rw [lift_bind_of_ok (ensure_true hpayload _)]
      exact .cipherSpec hpayload
    · rw [ensure, if_neg hpayload]
      exact .quiet (.refl s)
  | application record =>
    rw [handleItem]
    cases h : (handleApplicationData record).run s with
    | ok r t => exact .application (handleApplicationData_eq_ok.mp h)
    | error e t =>
      rcases handleApplicationData_fails record s e t h with rfl | ⟨info, rfl⟩
      · exact .quiet (.refl t)
      · exact .consulted info
  | alert record => exact .quiet (.refl s)
  | ignored record => exact .quiet (.refl s)

theorem move_of_ok {item : Item} (hrun : (handleItem item).run s = .ok () t) : Move s item t := by
  have hmove := handleItem_move item s
  rwa [hrun] at hmove

theorem consult_decision (s : Feed H) (info : JoinerFinalizeInfo) :
    (consult s info).2.session.finalizeDecision = some (consult s info).1 := by
  rw [consult_session]

theorem consult_of_decided {acc : Bool} (h : s.session.finalizeDecision = some acc)
    (info : JoinerFinalizeInfo) : consult s info = (acc, s) := by
  rw [consult, h]

theorem Move.decided {item : Item} (h : Move s item t) {accepted : Bool}
    (hs : s.session.finalizeDecision = some accepted) : t.session.finalizeDecision = some accepted := by
  cases h with
  | quiet hquiet =>
    obtain ⟨handshake, epoch0, rng, -, rfl⟩ := hquiet
    exact hs
  | plaintext hstep => cases hstep <;> exact hs
  | confirmed hopens hconfirms => exact hconfirms.frame.finalizeDecision.trans hs
  | cipherSpec hpayload => exact hs
  | application hstep =>
    cases hstep with
    | ignored hphase hopen hdecode hpath hother => exact hs
    | @answered _ _ _ info _ _ hphase hopen hdecode hpath hinfo hkeys hencode hprotect =>
      rw [consult_of_decided hs info]
      exact hs
  | consulted info =>
    rw [consult_of_decided hs info]
    exact hs

end Moves

end ThreadCommissioner.JoinerSteps
