import ThreadCommissioner.Commissioners
import ThreadCommissioner.DatagramSizes

namespace ThreadCommissioner.RelaySessions

open Builders ByteStrings Coap Commissioners Computations DatagramSizes Errors JoinerSessions JoinerSteps KekGate Meshcop
open List Primitives Tlvs

section Sending

variable [Suite] {H : Type}

/-- What sending leaves alone, and what is said of the messages that go out. -/
def Outgoing (P : CoapMessage → Prop) (c c' : Commissioner H) : Prop :=
  ∃ nextMessageId sends outgoing,
    c' = { c with
      nextMessageId
      network := { c.network with sends }
      sent := c.sent ++ outgoing } ∧
    ∀ message ∈ outgoing, P message

def Reliable (c : Commissioner H) : Prop := c.dtlsSession = true ∧ ∀ failure ∈ c.network.sends, failure = none

variable {P : CoapMessage → Prop}

theorem Outgoing.refl (c : Commissioner H) : Outgoing P c c :=
  ⟨c.nextMessageId, c.network.sends, [], by rw [append_nil], fun _ hmem => nomatch hmem⟩

theorem Outgoing.trans {c₁ c₂ c₃ : Commissioner H} (h : Outgoing P c₁ c₂) (h' : Outgoing P c₂ c₃) : Outgoing P c₁ c₃ := by
  obtain ⟨mid, sends, outs, rfl, hall⟩ := h
  obtain ⟨messageId', sends', outgoing', rfl, hall'⟩ := h'
  refine ⟨messageId', sends', outs ++ outgoing', ?_, forall_mem_append.mpr ⟨hall, hall'⟩⟩
  rw [← append_assoc]

theorem nextRequestIdentity_run (c : Commissioner H) : nextRequestIdentity.run c =
      .ok (c.nextMessageId + 1, beBytes 2 (c.nextMessageId + 1).toNat) { c with nextMessageId := c.nextMessageId + 1 } := rfl

theorem sendApplicationData_outgoing (data : Bytes) :
    Respects (Outgoing P) (sendApplicationData data : CommissionerM H Unit) := by
  intro c
  rw [sendApplicationData, get_bind]
  split
  · exact .refl c
  · refine ⟨c.nextMessageId, c.network.sends.tail, [], ?_, forall_mem_nil _⟩
    rw [append_nil, set_bind]
    split <;> rfl

theorem sendWire_outgoing {m : CoapMessage} (h : P m) : Respects (Outgoing P) (sendWire m : CommissionerM H Unit) := by
  refine .lift_bind .refl fun wire => ?_
  refine .bind .trans (sendApplicationData_outgoing wire) fun _ => respects_modify fun c => ?_
  exact ⟨c.nextMessageId, c.network.sends, [m], rfl, by simpa using h⟩

theorem sendApplicationData_succeeds (data : Bytes) :
    Succeeds Reliable (sendApplicationData data : CommissionerM H Unit) := by
  rintro c ⟨hsess, hsends⟩
  rw [sendApplicationData, get_bind, if_neg (by rw [hsess]; decide)]
  have hhead : c.network.sends.head? = none ∨ c.network.sends.head? = some none := by
    cases hs : c.network.sends with
    | nil => exact .inl rfl
    | cons failure failures => exact .inr (congrArg some (hsends failure (by rw [hs]; exact mem_cons_self)))
  refine ⟨(), { c with network := { c.network with sends := c.network.sends.tail } }, ?_, hsess, fun failure hf =>
    hsends failure (mem_of_mem_tail hf)⟩
  rw [set_bind]
  rcases hhead with hhead | hhead <;> rw [hhead] <;> rfl

theorem sendWire_succeeds {m : CoapMessage} {wire : Bytes} (h : m.encode = .ok wire) :
    Succeeds Reliable (sendWire m : CommissionerM H Unit) :=
  .lift_bind h (.bind (sendApplicationData_succeeds wire) fun _ => succeeds_modify fun _ hc => hc)

theorem nextRequestIdentity_outgoing : Respects (Outgoing P) (nextRequestIdentity : CommissionerM H _) := by
  intro c
  exact ⟨c.nextMessageId + 1, c.network.sends, [], by rw [append_nil]; rfl, fun _ hmem => nomatch hmem⟩

end Sending

section Relays

/-- A RLY_TX.ntf for the joiner behind the port and the router. -/
def Relays (joinerIid : ByteVector 8) (joinerUdpPort joinerRouterLocator : UInt16) (message : CoapMessage) : Prop :=
  message.uriPath = .ok (some Uri.relayTx) ∧ ∃ tlvs, TlvSet.parse message.payload = .ok tlvs ∧
    tlvs.lastValue tlvJoinerIid = some joinerIid.toList ∧
    tlvs.lastValue tlvJoinerUdpPort = some (beBytes 2 joinerUdpPort.toNat) ∧
    tlvs.lastValue tlvJoinerRouterLocator = some (beBytes 2 joinerRouterLocator.toNat)

theorem relays_relayTx {payload : Bytes} (h : payload.length ≤ maxExtendedTlvLength) (mid : UInt16)
    (token : Bytes) (iid : ByteVector 8) (port loc : UInt16) (kek : Option (ByteVector 16)) : Relays iid port loc
      (relayTx mid token iid port loc payload kek) := by
  refine ⟨uriPath_relayTx _ _ _ _ _ _ _, _, parse_relayTx h _ _ _ _ _ _, ?_⟩
  cases kek <;> exact ⟨rfl, rfl, rfl⟩

variable [Suite] {H : Type}

theorem relayTransmission_outgoing (sess : JoinerSession) {tx : Bytes × Option (ByteVector 16)}
    (h : tx.1.length ≤ maxExtendedTlvLength) :
    Respects (Outgoing (Relays sess.joinerIid sess.joinerUdpPort sess.joinerRouterLocator))
      (relayTransmission sess tx : CommissionerM H Unit) := by
  refine .bind .trans nextRequestIdentity_outgoing fun ⟨mid, token⟩ => ?_
  simp only
  rw [relayTxRequestWithKek_of_le h]
  exact sendWire_outgoing (relays_relayTx h _ _ _ _ _ _)

theorem relayTransmission_succeeds (sess : JoinerSession) {tx : Bytes × Option (ByteVector 16)}
    (h : tx.1.length ≤ maxExtendedTlvLength) : Succeeds Reliable (relayTransmission sess tx : CommissionerM H Unit) := by
  intro c hc
  have htoken : (beBytes 2 (c.nextMessageId + 1).toNat).length ≤ 8 := (length_beBytes _ _).le.trans (by decide)
  obtain ⟨wire, hwire⟩ := encode_relayTx (c.nextMessageId + 1) htoken sess.joinerIid sess.joinerUdpPort
    sess.joinerRouterLocator tx.1 tx.2
  rw [relayTransmission, bind_of_ok (nextRequestIdentity_run c)]
  simp only
  rw [lift_bind_of_ok (relayTxRequestWithKek_of_le h _ _ _ _ _ _)]
  exact sendWire_succeeds hwire { c with nextMessageId := c.nextMessageId + 1 } hc

end Relays

section Identity

variable [Suite] {H : Type} {s t : Feed H}

/-- What a session is known by, from its creation to its end. -/
structure SameTarget (session session' : JoinerSession) : Prop where
  joinerId : session'.joinerId = session.joinerId
  joinerIid : session'.joinerIid = session.joinerIid
  joinerUdpPort : session'.joinerUdpPort = session.joinerUdpPort
  joinerRouterLocator : session'.joinerRouterLocator = session.joinerRouterLocator
  expiresAt : session'.expiresAt = session.expiresAt

theorem SameTarget.refl (session : JoinerSession) : SameTarget session session := ⟨rfl, rfl, rfl, rfl, rfl⟩

theorem SameTarget.trans {s₁ s₂ s₃ : JoinerSession} (h : SameTarget s₁ s₂) (h' : SameTarget s₂ s₃) : SameTarget s₁ s₃ :=
  ⟨h'.joinerId.trans h.joinerId, h'.joinerIid.trans h.joinerIid, h'.joinerUdpPort.trans h.joinerUdpPort,
    h'.joinerRouterLocator.trans h.joinerRouterLocator, h'.expiresAt.trans h.expiresAt⟩

theorem sameTarget_confirms {ms : List HandshakeMessages.HandshakeMessage} (h : Confirms ms s t) :
    SameTarget s.session t.session := by
  induction h with
  | done s => exact .refl _
  | stopped hfail =>
    obtain ⟨hs, epoch0, rng, -, rfl⟩ := hfail
    exact ⟨rfl, rfl, rfl, rfl, rfl⟩
  | next hstep hrest ih =>
    cases hstep with
    | skipped => exact ih
    | verified => exact ⟨ih.joinerId, ih.joinerIid, ih.joinerUdpPort, ih.joinerRouterLocator, ih.expiresAt⟩

variable [JoinerHandler H]

theorem sameTarget_consult (s : Feed H) (info : JoinerFinalizeInfo) : SameTarget s.session (consult s info).2.session := by
  rw [consult_session]
  exact ⟨rfl, rfl, rfl, rfl, rfl⟩

theorem sameTarget_move {item : Item} (h : Move s item t) : SameTarget s.session t.session := by
  cases h with
  | quiet hquiet =>
    obtain ⟨hs, epoch0, rng, -, rfl⟩ := hquiet
    exact ⟨rfl, rfl, rfl, rfl, rfl⟩
  | plaintext hstep => cases hstep <;> exact ⟨rfl, rfl, rfl, rfl, rfl⟩
  | confirmed hopens hconfirms => exact sameTarget_confirms hconfirms
  | cipherSpec hpayload => exact ⟨rfl, rfl, rfl, rfl, rfl⟩
  | consulted info => exact sameTarget_consult s info
  | application hstep =>
    cases hstep with
    | ignored => exact .refl _
    | @answered _ _ _ info => exact (sameTarget_consult s info).trans ⟨rfl, rfl, rfl, rfl, rfl⟩

theorem sameTarget_receive (payload : Bytes) (party : Party H) :
    SameTarget party.session (finalState ((receive payload).run party)).session := by
  rw [finalState_receive]
  exact rounds_induction (P := fun (_ : List (Visit H)) (t : Feed H) => SameTarget party.session t.session)
    (fun _ item s hs => hs.trans (sameTarget_move (handleItem_move item s))) []
    (show SameTarget party.session party.feed.session from .refl _) (datagramItems payload)

end Identity

section Driving

variable [Suite] {H : Type} [JoinerHandler H] {sess : JoinerSession} {jid : ByteVector 8} {handler : H}
  {payload : Bytes} {c : Commissioner H} {events : List JoinerSessionEvent} {party : Party H}

theorem transmissions_of_dispatch {d : Dispatch H} {tx : Bytes × Option (ByteVector 16)}
    (h : tx ∈ (dispatchEvents sess jid events d).transmissions) :
    tx ∈ d.transmissions ∨ .transmit tx.1 tx.2.isSome ∈ events := by
  induction events generalizing d with
  | nil => exact .inl h
  | cons event events ih =>
    cases event with
    | transmit datagram includeKek =>
      -- the loop stops at a KEK that cannot be derived
      have hnext : ∀ kek : Option (ByteVector 16), kek.isSome = includeKek → tx ∈ (dispatchEvents sess jid events
            { d with transmissions := d.transmissions ++ [(datagram, kek)] }).transmissions → tx ∈ d.transmissions ∨
            .transmit tx.1 tx.2.isSome ∈ JoinerSessionEvent.transmit datagram includeKek :: events := by
        intro kek hkek hmem
        rcases ih hmem with hmem | hmem
        · rcases mem_append.mp hmem with hmem | hmem
          · exact .inl hmem
          · rw [mem_singleton.mp hmem, hkek]
            exact .inr mem_cons_self
        · exact .inr (mem_cons_of_mem _ hmem)
      rw [dispatchEvents] at h
      cases includeKek with
      | false => exact hnext none rfl h
      | true =>
        simp only [if_true] at h
        cases hkek : sess.joinerRouterKek with
        | ok kek =>
          rw [hkek] at h
          exact hnext (some kek) rfl h
        | error e =>
          rw [hkek] at h
          exact .inl h
    | connected => exact (ih h).imp_right (mem_cons_of_mem _)
    | finalized accepted info => exact (ih h).imp_right (mem_cons_of_mem _)

theorem dispatchEvents_plain (sess : JoinerSession) (jid : ByteVector 8)
    (h : ∀ dgram, JoinerSessionEvent.transmit dgram true ∉ events) (d : Dispatch H) :
    (dispatchEvents sess jid events d).sessionFailed = d.sessionFailed := by
  induction events generalizing d with
  | nil => rfl
  | cons event events ih =>
    have hrest : ∀ dgram, JoinerSessionEvent.transmit dgram true ∉ events :=
      fun dgram hmem => h dgram (mem_cons_of_mem _ hmem)
    cases event with
    | transmit dgram includeKek =>
      cases includeKek with
      | false => exact ih hrest _
      | true => exact absurd mem_cons_self (h dgram)
    | connected => exact ih hrest _
    | finalized accepted info => exact ih hrest _

theorem driveSession_of_error {e : Error} (h : (receive payload).run ⟨sess, handler, c.rng⟩ = .error e party) :
    (driveSession jid sess handler payload).run c = .ok () { c with
        joinerHandler := some party.handler
        rng := party.rng
        joinerSessions := Function.update c.joinerSessions jid none } := by
  rw [driveSession, get_bind, h]
  rfl

def dispatched (c : Commissioner H) (joinerId : ByteVector 8) (events : List JoinerSessionEvent) (party : Party H) :
    Commissioner H :=
  let d := dispatchEvents party.session joinerId events ⟨party.handler, [], [], false⟩
  { c with
    joinerHandler := some d.handler
    rng := party.rng
    joinerSessions := Function.update c.joinerSessions joinerId (if d.sessionFailed then none else some party.session)
    events := c.events ++ d.queuedEvents }

theorem driveSession_of_ok (h : (receive payload).run ⟨sess, handler, c.rng⟩ = .ok events party) :
    (driveSession jid sess handler payload).run c =
      (if (dispatchEvents party.session jid events ⟨party.handler, [], [], false⟩).sessionFailed then pure ()
        else (dispatchEvents party.session jid events ⟨party.handler, [], [], false⟩).transmissions.forM
          (relayTransmission sess) : CommissionerM H Unit).run (dispatched c jid events party) := by
  rw [driveSession, get_bind, h]
  rfl

/-- What a session that takes a payload can do to the commissioner. -/
structure Driven (joinerId : ByteVector 8) (session : JoinerSession) (c c' : Commissioner H) : Prop where
  others : ∀ other, other ≠ joinerId → c'.joinerSessions other = c.joinerSessions other
  remains : ∀ session', c'.joinerSessions joinerId = some session' →
    SameTarget session session' ∧ session'.serverFlight.length ≤ maxExtendedTlvLength
  now : c'.now = c.now
  outgoing : ∃ outgoing, c'.sent = c.sent ++ outgoing ∧ ∀ message ∈ outgoing,
    Relays session.joinerIid session.joinerUdpPort session.joinerRouterLocator message

variable (hflight : sess.serverFlight.length ≤ maxExtendedTlvLength)

include hflight

theorem transmissions_fit (h : (receive payload).run ⟨sess, handler, c.rng⟩ = .ok events party)
    {tx : Bytes × Option (ByteVector 16)}
    (hmem : tx ∈ (dispatchEvents party.session jid events ⟨party.handler, [], [], false⟩).transmissions) :
    tx.1.length ≤ maxExtendedTlvLength := by
  rcases transmissions_of_dispatch hmem with hmem | hmem
  · cases hmem
  · rw [receive_eq_ok h] at hmem
    exact (modest_receive payload hflight).transmitted _ _ hmem

variable (jid) in
theorem driveSession_dispatched (h : (receive payload).run ⟨sess, handler, c.rng⟩ = .ok events party) :
    Outgoing (Relays sess.joinerIid sess.joinerUdpPort sess.joinerRouterLocator)
      (dispatched c jid events party) (finalState ((driveSession jid sess handler payload).run c)) := by
  have hsends : Respects (Outgoing (Relays sess.joinerIid sess.joinerUdpPort sess.joinerRouterLocator))
      ((dispatchEvents party.session jid events ⟨party.handler, [], [], false⟩).transmissions.forM
        (relayTransmission sess) : CommissionerM H Unit) :=
    .forM_mem .refl .trans fun _ hmem => relayTransmission_outgoing sess (transmissions_fit hflight h hmem)
  rw [driveSession_of_ok h]
  split
  · exact .refl _
  · exact hsends (dispatched c jid events party)

theorem driveSession_remains {session' : JoinerSession}
    (h : (finalState ((driveSession jid sess handler payload).run c)).joinerSessions jid = some session') :
    ∃ events party, (receive payload).run ⟨sess, handler, c.rng⟩ = .ok events party ∧ party.session = session' := by
  cases hrun : (receive payload).run ⟨sess, handler, c.rng⟩ with
  | error e party =>
    rw [driveSession_of_error hrun] at h
    change Function.update c.joinerSessions jid none jid = _ at h
    rw [Function.update_self] at h
    cases h
  | ok events party =>
    obtain ⟨mid, sends, outs, heq, -⟩ := driveSession_dispatched jid hflight hrun
    rw [heq, dispatched] at h
    simp only [Function.update_self] at h
    split at h
    · cases h
    · exact ⟨events, party, rfl, Option.some.inj h⟩

theorem driveSession_driven (c : Commissioner H) (handler : H) (payload : Bytes) :
    Driven jid sess c (finalState ((driveSession jid sess handler payload).run c)) := by
  have hremains : ∀ session',
      (finalState ((driveSession jid sess handler payload).run c)).joinerSessions jid = some session' →
        SameTarget sess session' ∧ session'.serverFlight.length ≤ maxExtendedTlvLength := by
    intro session' hsess
    obtain ⟨events, party, hrun, rfl⟩ := driveSession_remains hflight hsess
    have hsame := sameTarget_receive payload ⟨sess, handler, c.rng⟩
    have hmodest : Modest (finalState (((datagramItems payload).forM handleItem).run
        (⟨sess, handler, c.rng⟩ : Party H).feed)) := modest_receive payload hflight
    have hparty := finalState_receive payload ⟨sess, handler, c.rng⟩
    rw [hrun] at hsame hparty
    obtain rfl : party = _ := hparty
    exact ⟨hsame, hmodest.flight⟩
  cases hrun : (receive payload).run ⟨sess, handler, c.rng⟩ with
  | error e party =>
    rw [driveSession_of_error hrun] at hremains ⊢
    exact ⟨fun other hother => Function.update_of_ne hother _ _, hremains, rfl, [], (append_nil _).symm,
      fun _ hmem => nomatch hmem⟩
  | ok events party =>
    obtain ⟨mid, sends, outs, heq, hall⟩ := driveSession_dispatched jid hflight hrun
    rw [heq] at hremains ⊢
    exact ⟨fun other hother => Function.update_of_ne hother _ _, hremains, rfl, outs, rfl, hall⟩

theorem driveSession_succeeds (handler : H) (payload : Bytes) (hc : Reliable c) :
    ∃ c', (driveSession jid sess handler payload).run c = .ok () c' ∧ Reliable c' := by
  cases h : (receive payload).run ⟨sess, handler, c.rng⟩ with
  | error e party => exact ⟨_, driveSession_of_error h, hc⟩
  | ok events party =>
    rw [driveSession_of_ok h]
    split
    · exact ⟨_, rfl, hc⟩
    · obtain ⟨_, c', hrun, hc'⟩ := Succeeds.forM
        (fun tx hmem => relayTransmission_succeeds sess (transmissions_fit hflight h hmem))
        (dispatched c jid events party) hc
      exact ⟨c', hrun, hc'⟩

end Driving

end ThreadCommissioner.RelaySessions
