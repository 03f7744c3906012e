import ThreadCommissioner.JoinerExchange

namespace ThreadCommissioner.KekGate

open ByteStrings Coap Computations Drivers Errors HandshakeMessages Hellos JoinerExchange JoinerSessions JoinerSteps
open KeySchedule List Meshcop Primitives RecordProtection Records Residues ServerHandshake Texts

section Suites

variable [Suite] {H : Type}

/-- One item of a datagram, with the state of the session around it. -/
abbrev Visit (H : Type) := Round (Feed H) Item

/-- A ClientHello that returns a cookie of the session's own generator was
answered with the server flight. -/
def HelloAccepted (start : JoinerSession) (v : Visit H) : Prop :=
  ∃ message hello, v.item = .message message ∧ message.messageType = .clientHello ∧
    ClientHello.decode message.payload = .ok hello ∧ start.cookie.verify hello.random hello.cookie = true ∧
    v.before.session.phase = .awaitingClientHello ∧ v.after.session.phase = .awaitingClientFlight

/-- A ClientKeyExchange was processed, and the key material derived from it by
the party that was drawn with the session. -/
def KeyDerived (start : JoinerSession) (keyMaterial : ThreadDtlsKeyMaterial) (v : Visit H) : Prop :=
  ∃ message, v.item = .message message ∧ message.messageType = .clientKeyExchange ∧
    (handleClientKeyExchange message).run v.before.session.handshake = .ok () v.after.session.handshake ∧
    SameIdentity start.handshake v.after.session.handshake ∧
    v.after.session.handshake.deriveKeyMaterial = .ok keyMaterial ∧
    v.after.session.keyMaterial = some keyMaterial

def CipherSpecSeen (v : Visit H) : Prop := ∃ record, v.item = .changeCipherSpec record ∧ record.payload = [1]

/-- An encrypted record opened under the client's write key, and a Finished in
it states the verify data of the transcript at that moment. -/
def FinishedVerified (keyMaterial : ThreadDtlsKeyMaterial) (v : Visit H) : Prop :=
  ∃ record plaintext plainRecord messages message, v.item = .encrypted record ∧
    openAes128Ccm8Record record keyMaterial.keyBlock.clientWriteKey keyMaterial.keyBlock.clientWriteIv =
      .ok plaintext ∧
    DtlsRecord.new .handshake 1 0 plaintext = .ok plainRecord ∧
    parseUnfragmentedHandshakeMessages plainRecord = .ok messages ∧ message ∈ messages ∧
    message.messageType = .finished ∧
    message.payload =
      (v.before.session.handshake.transcript.finishedVerifyData keyMaterial.masterSecret .client).toList

/-- The order of the handshake: the hello, then the key exchange. -/
def Keyed (start : JoinerSession) (keyMaterial : ThreadDtlsKeyMaterial) (past : List (Visit H)) : Prop :=
  ∃ earlier v later, past = earlier ++ v :: later ∧ KeyDerived start keyMaterial v ∧
    ∃ w ∈ earlier, HelloAccepted start w

/-- The order of the handshake: the key exchange and the ChangeCipherSpec,
then the Finished. -/
def Authenticated (start : JoinerSession) (keyMaterial : ThreadDtlsKeyMaterial) (past : List (Visit H)) : Prop :=
  ∃ earlier v later, past = earlier ++ v :: later ∧ FinishedVerified keyMaterial v ∧
    Keyed start keyMaterial earlier ∧ ∃ w ∈ earlier, CipherSpecSeen w

def Consulted (v : Visit H) : Prop :=
  v.before.session.finalizeDecision = none ∧ v.after.session.finalizeDecision ≠ none

section Monotone

variable {start : JoinerSession} {keys : ThreadDtlsKeyMaterial} {past : List (Visit H)}

theorem Keyed.mono (h : Keyed start keys past) (more : List (Visit H)) : Keyed start keys (past ++ more) := by
  obtain ⟨earlier, v, later, rfl, hv, hw⟩ := h
  exact ⟨earlier, v, later ++ more, by simp, hv, hw⟩

theorem Authenticated.mono (h : Authenticated start keys past) (more : List (Visit H)) :
    Authenticated start keys (past ++ more) := by
  obtain ⟨earlier, v, later, rfl, hv, hk, hc⟩ := h
  exact ⟨earlier, v, later ++ more, by simp, hv, hk, hc⟩

end Monotone

variable [JoinerHandler H]

/-- The visit asked the handler, and recorded what it answered. -/
def DecidedAt (accepted : Bool) (v : Visit H) : Prop :=
  v.before.session.finalizeDecision = none ∧ v.after.session.finalizeDecision = some accepted ∧
    ∃ info, (JoinerHandler.onJoinerFinalize v.before.handler v.before.session.joinerId info).1 = accepted

def DecidedOnce (accepted : Bool) (past : List (Visit H)) : Prop :=
  ∃ earlier v later, past = earlier ++ v :: later ∧ DecidedAt accepted v ∧ ∀ w ∈ earlier ++ later, ¬ Consulted w

/-- A record that opens under the client's write key decoded to a JOIN_FIN.req
with its mandatory TLVs, and the answer goes out with the KEK. -/
def AnsweredWithKek (keyMaterial : ThreadDtlsKeyMaterial) (datagram : Bytes) (v : Visit H) : Prop :=
  ∃ record plaintext request info rest, v.item = .application record ∧
    openAes128Ccm8Record record keyMaterial.keyBlock.clientWriteKey keyMaterial.keyBlock.clientWriteIv =
      .ok plaintext ∧
    CoapMessage.decode plaintext = .ok request ∧ request.uriPath = .ok (some Uri.joinFin) ∧
    parseJoinFin request = .ok info ∧ v.after.events = v.before.events ++ .transmit datagram true :: rest

/-- What the session has reached is backed by its past. -/
structure Backed (start : JoinerSession) (past : List (Visit H)) (s : Feed H) : Prop where
  cookie : s.session.cookie = start.cookie
  identity : SameIdentity start.handshake s.session.handshake
  hello : s.session.phase ≠ .awaitingClientHello → ∃ v ∈ past, HelloAccepted start v
  keyed : ∀ keyMaterial, s.session.keyMaterial = some keyMaterial → Keyed start keyMaterial past
  cipherSpec : s.session.sawClientChangeCipherSpec = true → ∃ v ∈ past, CipherSpecSeen v
  authenticated : s.session.phase = .connected ∨ s.session.phase = .finalized →
    ∃ keyMaterial, s.session.keyMaterial = some keyMaterial ∧ Authenticated start keyMaterial past
  undecided : s.session.finalizeDecision = none → ∀ v ∈ past, ¬ Consulted v
  decided : ∀ accepted, s.session.finalizeDecision = some accepted → DecidedOnce accepted past

theorem openRecord_eq_ok {sess : JoinerSession} {record : DtlsRecord} {plaintext : Bytes} :
    sess.openRecord record = .ok plaintext ↔ ∃ keys, sess.keyMaterial = some keys ∧
        openAes128Ccm8Record record keys.keyBlock.clientWriteKey keys.keyBlock.clientWriteIv = .ok plaintext := by
  rw [JoinerSession.openRecord, bind_ok]
  simp only [keyMaterialRequired_eq_ok, ofDtls_eq_ok]

theorem decidedAt_of_consult {t : Feed H} (s : Feed H) (item : Item) (info : JoinerFinalizeInfo)
    (ht : t.session.finalizeDecision = (consult s info).2.session.finalizeDecision) :
    t.session.finalizeDecision = s.session.finalizeDecision ∨ ∃ acc, DecidedAt acc (⟨s, item, t⟩ : Visit H) := by
  rcases consult_cases s info with ⟨acc, -, hc⟩ | ⟨acc, handler, hnone, hasked, hc⟩
  · rw [hc] at ht
    exact .inl ht
  · rw [hc] at ht
    exact .inr ⟨acc, hnone, ht, info, by rw [hasked]⟩

section Step

variable {start : JoinerSession} {past : List (Visit H)} {s t : Feed H} {item : Item} (h : Backed start past s)

include h

theorem Backed.extend (hcookie : t.session.cookie = s.session.cookie)
    (hidentity : SameIdentity s.session.handshake t.session.handshake) (hhello : t.session.phase ≠ .awaitingClientHello →
      s.session.phase ≠ .awaitingClientHello ∨ HelloAccepted start ⟨s, item, t⟩)
    (hkeyed : ∀ keys, t.session.keyMaterial = some keys → s.session.keyMaterial = some keys ∨
      (s.session.phase ≠ .awaitingClientHello ∧ KeyDerived start keys ⟨s, item, t⟩))
    (hcipher : t.session.sawClientChangeCipherSpec = true →
      s.session.sawClientChangeCipherSpec = true ∨ CipherSpecSeen ⟨s, item, t⟩)
    (hauth : t.session.phase = .connected ∨ t.session.phase = .finalized →
      t.session.keyMaterial = s.session.keyMaterial ∧ ((s.session.phase = .connected ∨ s.session.phase = .finalized) ∨
        ∃ keys, s.session.keyMaterial = some keys ∧ s.session.sawClientChangeCipherSpec = true ∧
          FinishedVerified keys ⟨s, item, t⟩)) (hdecision : t.session.finalizeDecision = s.session.finalizeDecision ∨
      ∃ accepted, DecidedAt accepted ⟨s, item, t⟩) : Backed start (past ++ [⟨s, item, t⟩]) t := by
  refine ⟨hcookie.trans h.cookie, h.identity.trans hidentity, ?_, ?_, ?_, ?_, ?_, ?_⟩
  · intro hp
    rcases hhello hp with hs | hnow
    · obtain ⟨v, hv, hbefore⟩ := h.hello hs
      exact ⟨v, mem_append_left _ hv, hbefore⟩
    · exact ⟨_, mem_append_right _ (mem_singleton.mpr rfl), hnow⟩
  · intro keys hk
    rcases hkeyed keys hk with hs | ⟨hs, hnow⟩
    · exact (h.keyed keys hs).mono _
    · exact ⟨past, _, [], rfl, hnow, h.hello hs⟩
  · intro hsaw
    rcases hcipher hsaw with hs | hnow
    · obtain ⟨v, hv, hbefore⟩ := h.cipherSpec hs
      exact ⟨v, mem_append_left _ hv, hbefore⟩
    · exact ⟨_, mem_append_right _ (mem_singleton.mpr rfl), hnow⟩
  · intro hp
    obtain ⟨hkeys, hs | ⟨keys, hk, hsaw, hnow⟩⟩ := hauth hp
    · obtain ⟨keys, hk, hbefore⟩ := h.authenticated hs
      exact ⟨keys, hkeys.trans hk, hbefore.mono _⟩
    · exact ⟨keys, hkeys.trans hk, past, _, [], rfl, hnow, h.keyed keys hk, h.cipherSpec hsaw⟩
  · intro hd
    rcases hdecision with hsame | ⟨accepted, hnow⟩
    · intro v hv
      rcases mem_append.mp hv with hv | hv
      · exact h.undecided (hsame ▸ hd) v hv
      · rw [mem_singleton.mp hv]
        exact fun hc => hc.2 hd
    · cases hd.symm.trans hnow.2.1
  · intro accepted hd
    rcases hdecision with hsame | ⟨accepted', hnow⟩
    · obtain ⟨earlier, v, later, rfl, hv, honce⟩ := h.decided accepted (hsame ▸ hd)
      refine ⟨earlier, v, later ++ [⟨s, item, t⟩], by simp, hv, fun w hw => ?_⟩
      rw [← append_assoc] at hw
      rcases mem_append.mp hw with hw | hw
      · exact honce w hw
      · rw [mem_singleton.mp hw]
        exact fun hc => hc.2 (hsame.trans hc.1)
    · obtain rfl : accepted' = accepted := Option.some.inj (hnow.2.1.symm.trans hd)
      refine ⟨past, _, [], rfl, hnow, fun w hw => ?_⟩
      rw [append_nil] at hw
      exact h.undecided hnow.1 w hw

/-- A visit that leaves the phase, the keys, the flag and the decision alone
adds nothing that has to be backed. -/
theorem Backed.keep (item : Item) (hcookie : t.session.cookie = s.session.cookie)
    (hidentity : SameIdentity s.session.handshake t.session.handshake)
    (hphase : t.session.phase = s.session.phase) (hkeys : t.session.keyMaterial = s.session.keyMaterial)
    (hsaw : t.session.sawClientChangeCipherSpec = s.session.sawClientChangeCipherSpec)
    (hdecision : t.session.finalizeDecision = s.session.finalizeDecision) : Backed start (past ++ [⟨s, item, t⟩]) t := by
  refine h.extend hcookie hidentity (fun hp => .inl (hphase ▸ hp)) (fun _ hk => .inl (hkeys ▸ hk))
    (fun hs => .inl (hsaw ▸ hs)) (fun hp => ⟨hkeys, .inl (hphase ▸ hp)⟩) (.inl hdecision)

theorem Backed.plaintext {m : HandshakeMessage} (hstep : PlaintextStep m s t) :
    Backed start (past ++ [⟨s, .message m, t⟩]) t := by
  cases hstep with
  | challenged htype hphase hdec hverify => exact h.keep _ rfl (.refl _) rfl rfl rfl rfl
  | repeated htype hphase => exact h.keep _ rfl (.refl _) rfl rfl rfl rfl
  | @accepted hello _ _ _ handshake rng htype hphase hdec hverify hflight _ _ _ =>
    rw [h.cookie] at hverify
    obtain ⟨_, hs₁, hs₂, hs₃, h₁, h₂, h₃, h₄⟩ := ServerDriver.buildServerFlight_eq_ok.mp hflight
    have hidentity : SameIdentity s.session.handshake handshake :=
      ((handleClientHello_identity _).of_ok h₁).trans (((buildServerHello_identity _).of_ok h₂).trans
        (((buildServerKeyExchange_identity _).of_ok h₃).trans ((buildServerHelloDone_identity _).of_ok h₄)))
    refine h.extend rfl hidentity (fun _ => .inr ⟨m, hello, rfl, htype, hdec, hverify, hphase, rfl⟩)
      (fun _ hk => .inl hk) (fun hs => .inl hs) (fun hp => ?_) (.inl rfl)
    rcases hp with hp | hp <;> cases hp
  | @exchanged handshake keys htype hphase hexchange hderive =>
    have hidentity := (handleClientKeyExchange_identity _).of_ok hexchange
    have hstarted : s.session.phase ≠ .awaitingClientHello := by simp [hphase]
    refine h.extend rfl hidentity (fun _ => .inl hstarted) (fun keyMaterial' hk => ?_) (fun hs => .inl hs)
      (fun hp => ?_) (.inl rfl)
    · obtain rfl : keys = keyMaterial' := Option.some.inj hk
      exact .inr ⟨hstarted, m, rfl, htype, hexchange, h.identity.trans hidentity, hderive, rfl⟩
    · -- the phase of a key exchange is the one before the Finished
      have hp' : s.session.phase = .connected ∨ s.session.phase = .finalized := hp
      rw [hphase] at hp'
      rcases hp' with hp' | hp' <;> cases hp'

theorem Backed.confirmed {r : DtlsRecord} {ms : List HandshakeMessage}
    (hopens : OpensTo r s.session ms) (hconfirms : Confirms ms s t) : Backed start (past ++ [⟨s, .encrypted r, t⟩]) t := by
  obtain ⟨hwait, hsaw, plain, plainRec, hopen, hnew, hparse⟩ := hopens
  obtain ⟨keys, hkeys, hopen⟩ := openRecord_eq_ok.mp hopen
  have hframe := hconfirms.frame
  by_cases hphase : t.session.phase = s.session.phase
  · exact h.keep _ hframe.cookie hframe.identity hphase hframe.keyMaterial hframe.sawClientChangeCipherSpec
      hframe.finalizeDecision
  · obtain ⟨m, hmem, keyMaterial', hkeys', htype, hdata⟩ := hconfirms.exists_finished hphase
    obtain rfl : keys = keyMaterial' := Option.some.inj (hkeys.symm.trans hkeys')
    refine h.extend hframe.cookie hframe.identity (fun _ => .inl (by simp [hwait]))
      (fun _ hk => .inl (hframe.keyMaterial ▸ hk)) (fun hs => .inl (hframe.sawClientChangeCipherSpec ▸ hs))
      (fun _ => ⟨hframe.keyMaterial, .inr ⟨keys, hkeys, hsaw, ?_⟩⟩) (.inl hframe.finalizeDecision)
    exact ⟨r, plain, plainRec, ms, m, rfl, hopen, hnew, hparse, hmem, htype, hdata⟩

theorem Backed.application {r : DtlsRecord} (hstep : ApplicationStep r s t) :
    Backed start (past ++ [⟨s, .application r, t⟩]) t := by
  cases hstep with
  | ignored hphase hopen hdec hpath hother => exact h.keep _ rfl (.refl _) rfl rfl rfl rfl
  | @answered _ _ _ info _ _ hphase hopen hdec hpath hinfo hkeys henc hprot =>
    have hsession := consult_session s info
    have hstarted : s.session.phase ≠ .awaitingClientHello := by
      intro he
      rw [he] at hphase
      rcases hphase with hphase | hphase <;> cases hphase
    refine h.extend ?_ ?_ (fun _ => .inl hstarted) (fun _ hk => .inl ?_) (fun hs => .inl ?_)
      (fun _ => ⟨?_, .inl hphase⟩) (decidedAt_of_consult s _ info rfl)
    · simp only [answer, hsession]
    · simp only [answer, hsession]
      exact .refl _
    · simpa only [answer, hsession] using hk
    · simpa only [answer, hsession] using hs
    · simp only [answer, hsession]

theorem Backed.move (hmove : Move s item t) : Backed start (past ++ [⟨s, item, t⟩]) t := by
  cases hmove with
  | quiet hquiet =>
    obtain ⟨handshake, epoch0, rng, hi, rfl⟩ := hquiet
    exact h.keep _ rfl hi rfl rfl rfl rfl
  | plaintext hstep => exact h.plaintext hstep
  | confirmed hopens hconfirms => exact h.confirmed hopens hconfirms
  | cipherSpec hpayload =>
    exact h.extend rfl (.refl _) (fun hp => .inl hp) (fun _ hk => .inl hk) (fun _ => .inr ⟨_, rfl, hpayload⟩)
      (fun hp => ⟨rfl, .inl hp⟩) (.inl rfl)
  | application hstep => exact h.application hstep
  | consulted info =>
    have hsession := consult_session s info
    refine h.extend ?_ ?_ (fun hp => .inl ?_) (fun _ hk => .inl ?_) (fun hs => .inl ?_)
      (fun hp => ⟨?_, .inl ?_⟩) (decidedAt_of_consult s _ info rfl)
    · rw [hsession]
    · rw [hsession]
      exact .refl _
    · rwa [hsession] at hp
    · rwa [hsession] at hk
    · rwa [hsession] at hs
    · rw [hsession]
    · rwa [hsession] at hp

end Step

section Runs

/-- The visits of one call of `receive`. -/
def visitsOf (encapsulated : Bytes) (party : Party H) : List (Visit H) :=
  rounds handleItem (datagramItems encapsulated) party.feed

def history : List Bytes → Party H → List (Visit H)
  | [], _ => []
  | encapsulated :: rest, party =>
    visitsOf encapsulated party ++ history rest (finalState ((receive encapsulated).run party))

theorem finalState_receive (dgram : Bytes) (party : Party H) : finalState ((receive dgram).run party) =
      (finalState (((datagramItems dgram).forM handleItem).run party.feed)).party := by
  rw [← feedDatagram_eq]
  change finalState (receive dgram party) = _
  rw [receive]
  cases (feedDatagram dgram).run party.feed <;> rfl

variable {party : Party H} {dgram : Bytes} {t : Feed H} {start : JoinerSession} {past : List (Visit H)}

theorem receive_eq_ok {dgram : Bytes} {party' : Party H} {evs : List JoinerSessionEvent}
    (h : (receive dgram).run party = .ok evs party') :
    evs = (finalState (((datagramItems dgram).forM handleItem).run party.feed)).events := by
  rw [← feedDatagram_eq]
  change receive dgram party = _ at h
  rw [receive] at h
  cases hrun : (feedDatagram dgram).run party.feed with
  | ok r feed =>
    rw [hrun] at h
    cases h
    rfl
  | error e feed =>
    rw [hrun] at h
    cases h

theorem receive_of_forM_error {e : Error} (h : ((datagramItems dgram).forM handleItem).run party.feed = .error e t) :
    (receive dgram).run party = .error e t.party := by
  rw [← feedDatagram_eq] at h
  change receive dgram party = _
  rw [receive, h]

theorem forM_of_receive_isOk (h : (outcome ((receive dgram).run party)).isOk = true) :
    ∃ t, ((datagramItems dgram).forM handleItem).run party.feed = .ok () t := by
  rw [← feedDatagram_eq]
  change (outcome (receive dgram party)).isOk = true at h
  rw [receive] at h
  cases hrun : (feedDatagram dgram).run party.feed with
  | ok r t => exact ⟨t, rfl⟩
  | error e t =>
    rw [hrun] at h
    cases h

theorem Backed.congr {s : Feed H} (h : Backed start past s) (hsess : t.session = s.session) : Backed start past t := by
  obtain ⟨h₁, h₂, h₃, h₄, h₅, h₆, h₇, h₈⟩ := h
  constructor <;> rw [hsess] <;> assumption

theorem Backed.visitsOf (h : Backed start past party.feed) (dgram : Bytes) :
    Backed start (past ++ visitsOf dgram party) (finalState ((receive dgram).run party)).feed := by
  have hrun := rounds_induction (P := fun visits s => Backed start visits s)
    (fun visits item s hs => hs.move (handleItem_move item s)) past h (datagramItems dgram)
  refine hrun.congr ?_
  rw [finalState_receive]
  rfl

theorem backed_history (h : Backed start past party.feed) (dgrams : List Bytes) :
    Backed start (past ++ history dgrams party) (runAll receive dgrams party).1.feed := by
  induction dgrams generalizing past party with
  | nil =>
    rw [history, append_nil]
    exact h
  | cons dgram dgrams ih =>
    rw [history, ← append_assoc]
    exact ih (h.visitsOf dgram)

theorem backed_new (iid : ByteVector 8) (port loc : UInt16) (pskd : Text) (now : ℕ) (rng rng' : Rng) (handler : H) :
    Backed (JoinerSession.new iid port loc pskd now rng).1 []
      (⟨(JoinerSession.new iid port loc pskd now rng).1, handler, rng'⟩ : Party H).feed where
  cookie := rfl
  identity := .refl _
  hello hp := absurd rfl hp
  keyed _ hk := nomatch hk
  cipherSpec hs := nomatch hs
  authenticated hp := hp.elim (fun hp => nomatch hp) (fun hp => nomatch hp)
  undecided _ := by simp
  decided _ hd := nomatch hd

theorem kek_of_move {s : Feed H} {item : Item} (hmove : Move s item t)
    (hkek : JoinerSessionEvent.transmit dgram true ∈ t.events) : JoinerSessionEvent.transmit dgram true ∈ s.events ∨
      ((s.session.phase = .connected ∨ s.session.phase = .finalized) ∧ t.session.finalizeDecision = some true ∧
        ∃ keys, s.session.keyMaterial = some keys ∧ AnsweredWithKek keys dgram ⟨s, item, t⟩) := by
  cases hmove with
  | quiet hquiet => exact .inl (hquiet.events ▸ hkek)
  | plaintext hstep =>
    left
    cases hstep with
    | challenged => simpa [challenge, push, countPlaintext] using hkek
    | accepted => simpa [accept, push] using hkek
    | repeated => simpa [push] using hkek
    | exchanged => exact hkek
  | confirmed hopens hconfirms =>
    obtain ⟨pushed, hpushed, hall⟩ := hconfirms.events
    rw [hpushed] at hkek
    rcases mem_append.mp hkek with hkek | hkek
    · exact .inl hkek
    · rcases hall _ hkek with he | ⟨_, he⟩ <;> cases he
  | cipherSpec hpayload => exact .inl hkek
  | consulted info => exact .inl (consult_events s info ▸ hkek)
  | application hstep =>
    cases hstep with
    | ignored => exact .inl hkek
    | @answered plaintext _ request info keys response hphase hopen hdec hpath hinfo hkeys _ _ =>
      obtain ⟨keyMaterial', hkeys', hopen⟩ := openRecord_eq_ok.mp hopen
      obtain rfl : keys = keyMaterial' := Option.some.inj (hkeys.symm.trans hkeys')
      have hevents := answered_events s info response
      rw [hevents] at hkek
      rcases mem_append.mp hkek with hkek | hkek
      · exact .inl hkek
      · rcases mem_cons.mp hkek with hkek | hkek
        · obtain ⟨rfl, hacc⟩ := JoinerSessionEvent.transmit.inj hkek
          have hdecision := consult_decision s info
          rw [← hacc] at hdecision
          rw [← hkek] at hevents
          exact .inr ⟨hphase, hdecision, keys, hkeys, _, plaintext, request, info, _, rfl, hopen, hdec,
            hpath, hinfo, hevents⟩
        · split at hkek
          · cases hkek
          · cases mem_singleton.mp hkek

/-- The KEK is released to a joiner that has authenticated itself with the
session's PSKd, for a JOIN_FIN.req under the same keys, and on the handler's
one decision. -/
theorem kek_requires_authentication (joinerIid : ByteVector 8) (joinerUdpPort joinerRouterLocator : UInt16)
    (pskd : Text) (now : ℕ) (rng rng' : Rng) (handler : H) (before : List Bytes) (encapsulated : Bytes)
    (party : Party H) (events : List JoinerSessionEvent) (datagram : Bytes) (start : Party H)
    (hstart : start = ⟨(JoinerSession.new joinerIid joinerUdpPort joinerRouterLocator pskd now rng).1, handler, rng'⟩)
    (hreceive : (receive encapsulated).run (runAll receive before start).1 = .ok events party)
    (hkek : .transmit datagram true ∈ events) :
    ∃ keyMaterial earlier answered later,
      visitsOf encapsulated (runAll receive before start).1 = earlier ++ answered :: later ∧
      AnsweredWithKek keyMaterial datagram answered ∧
      Authenticated start.session keyMaterial (history before start ++ earlier) ∧
      DecidedOnce true (history before start ++ visitsOf encapsulated (runAll receive before start).1) ∧
      party.session.finalizeDecision = some true := by
  have hbefore : Backed start.session (history before start) (runAll receive before start).1.feed := by
    rw [hstart]
    exact backed_history (backed_new joinerIid joinerUdpPort joinerRouterLocator pskd now rng rng' handler) before
  let P (visits : List (Visit H)) (s : Feed H) : Prop :=
    Backed start.session (history before start ++ visits) s ∧
      ∀ datagram, .transmit datagram true ∈ s.events → s.session.finalizeDecision = some true ∧
        ∃ keyMaterial earlier answered later, visits = earlier ++ answered :: later ∧
          AnsweredWithKek keyMaterial datagram answered ∧
          Authenticated start.session keyMaterial (history before start ++ earlier)
  have hnothing : P [] (runAll receive before start).1.feed := by
    refine ⟨by rwa [append_nil], fun datagram hd => ?_⟩
    cases hd
  have hstep : ∀ visits item s, P visits s → P (visits ++ [⟨s, item, finalState ((handleItem item).run s)⟩])
      (finalState ((handleItem item).run s)) := by
    rintro visits item s ⟨hbacked, hsent⟩
    have hmove := handleItem_move item s
    refine ⟨by rw [← append_assoc]; exact hbacked.move hmove, fun datagram hd => ?_⟩
    rcases kek_of_move hmove hd with hd | ⟨hphase, hdecision, keyMaterial, hkeys, hanswered⟩
    · obtain ⟨hdecision, keyMaterial, earlier, answered, later, rfl, hrest⟩ := hsent datagram hd
      exact ⟨hmove.decided hdecision, keyMaterial, earlier, answered, _, append_assoc _ _ _, hrest⟩
    · obtain ⟨keyMaterial', hkeys', hauth⟩ := hbacked.authenticated hphase
      obtain rfl : keyMaterial = keyMaterial' := Option.some.inj (hkeys.symm.trans hkeys')
      exact ⟨hdecision, keyMaterial, visits, _, [], rfl, hanswered, hauth⟩
  obtain ⟨hbacked, hsent⟩ := rounds_induction hstep [] hnothing (datagramItems encapsulated)
  rw [receive_eq_ok hreceive] at hkek
  obtain ⟨hdecision, keyMaterial, earlier, answered, later, hvisits, hanswered, hauth⟩ := hsent datagram hkek
  have hparty : party.session =
      (finalState (((datagramItems encapsulated).forM handleItem).run (runAll receive before start).1.feed)).session := by
    have hfinal := finalState_receive encapsulated (runAll receive before start).1
    rw [hreceive] at hfinal
    exact congrArg Party.session hfinal
  exact ⟨keyMaterial, earlier, answered, later, hvisits, hanswered, hauth, hbacked.decided true hdecision,
    hparty ▸ hdecision⟩

end Runs

end Suites

section Witness

attribute [local instance] residues

theorem kek_requires_authentication_residues :
    ∃ (before : List Bytes) (encapsulated : Bytes) (party : Party StaticJoinerHandler)
      (events : List JoinerSessionEvent) (datagram : Bytes) (start : Party StaticJoinerHandler),
      start = ⟨residueSession, .new, residueRng []⟩ ∧
      (receive encapsulated).run (runAll receive before start).1 = .ok events party ∧
      .transmit datagram true ∈ events ∧
      ∃ keyMaterial earlier answered later,
        visitsOf encapsulated (runAll receive before start).1 = earlier ++ answered :: later ∧
        AnsweredWithKek keyMaterial datagram answered ∧
        Authenticated start.session keyMaterial (history before start ++ earlier) ∧
        DecidedOnce true (history before start ++ visitsOf encapsulated (runAll receive before start).1) ∧
        party.session.finalizeDecision = some true := by
  obtain ⟨k⟩ := Ready.nonempty_sealed residueDraws_ready
  obtain ⟨request, hrequest⟩ := exists_sealsJoinFin k.keys exampleJoinFin (by decide)
  obtain ⟨response, hresponse⟩ := exists_sealsAnswer k.keys exampleJoinFin true
  have hrun := k.runAll_handshake residueDraws_ready residueSession_fresh StaticJoinerHandler.new
  have hjoin := k.receive_joinFin residueSession_fresh hrequest hresponse StaticJoinerHandler.new rfl
  have hreceive : (receive (datagramOf [request])).run (runAll receive k.handshake
      (⟨residueSession, .new, residueRng []⟩ : Party StaticJoinerHandler)).1 = _ :=
    (congrArg (fun result => (receive (datagramOf [request])).run result.1) hrun).trans hjoin
  exact ⟨k.handshake, datagramOf [request], _, _, response.bytes, _, rfl, hreceive, mem_cons_self,
    kek_requires_authentication (List.Vector.replicate 8 0) 1000 0x0400 residuePskd 0 (residueRng []) (residueRng [])
      .new k.handshake (datagramOf [request]) _ _ response.bytes _ rfl hreceive mem_cons_self⟩

end Witness

end ThreadCommissioner.KekGate
