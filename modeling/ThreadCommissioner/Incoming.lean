import ThreadCommissioner.RelayIsolation
import ThreadCommissioner.Transport

namespace ThreadCommissioner.Incoming

open Builders ByteStrings Coap Commissioners Computations Errors JoinerSessions Meshcop Notifications Primitives
open RelayIsolation RelaySessions Tlvs Transport

section Notifying

variable [Suite] {H : Type} {c : Commissioner H} {inner : CoapMessage} {udpRx : UdpRx}
  {note : MeshcopNotification}

def queued (notification : MeshcopNotification) (peerAddr : IpAddr) (c : Commissioner H) : Commissioner H :=
  { c with
    meshLocalPrefix := if notification = .datasetChanged then none else c.meshLocalPrefix
    events := c.events ++ [notificationToEvent notification peerAddr] }

theorem queueNotification_run (note : MeshcopNotification) (peerAddr : IpAddr) (c : Commissioner H) :
    (queueNotification note peerAddr).run c = .ok () (queued note peerAddr c) := by
  rw [queueNotification, queued]
  split <;> rfl

theorem routeUnsolicitedProxied_of_error {e : Error} (h : parseNotification inner = .error e) (udpRx : UdpRx)
    (c : Commissioner H) : (routeUnsolicitedProxied inner udpRx).run c = .error e c := by
  rw [routeUnsolicitedProxied, h]
  rfl

theorem routeUnsolicitedProxied_of_none (h : parseNotification inner = .ok none) (udpRx : UdpRx) (c : Commissioner H) :
    (routeUnsolicitedProxied inner udpRx).run c = .ok false c := by
  rw [routeUnsolicitedProxied, h]
  rfl

theorem routeUnsolicitedProxied_of_some (h : parseNotification inner = .ok (some note)) (udpRx : UdpRx)
    (c : Commissioner H) : (routeUnsolicitedProxied inner udpRx).run c =
      ((if inner.ty = .confirmable then sendProxiedAck (.emptyChangedResponse inner) udpRx else pure ()) >>=
        fun _ => pure true).run (queued note (.v6 udpRx.sourceAddress) c) := by
  rw [routeUnsolicitedProxied, lift_bind_of_ok h]
  dsimp only
  rw [bind_of_ok (queueNotification_run _ _ c)]
  by_cases hty : inner.ty = .confirmable
  · rw [if_pos hty, if_pos hty]
  · rw [if_neg hty, if_neg hty]
    rfl

theorem routeUnsolicitedProxied_isOk (htoken : inner.token.length ≤ 8) (hsend : nextSend c = none) :
    (∃ routed c', (routeUnsolicitedProxied inner udpRx).run c = .ok routed c') ↔
      ∀ e, parseNotification inner ≠ .error e := by
  cases hparse : parseNotification inner with
  | error e =>
    rw [routeUnsolicitedProxied_of_error hparse]
    exact ⟨(fun ⟨_, _, h⟩ => nomatch h), fun h => absurd rfl (h e)⟩
  | ok result =>
    refine ⟨fun _ _ => nofun, fun _ => ?_⟩
    cases result with
    | none => exact ⟨false, c, routeUnsolicitedProxied_of_none hparse udpRx c⟩
    | some note =>
      rw [routeUnsolicitedProxied_of_some hparse]
      split
      · obtain ⟨wire, hwire, hlength⟩ := encode_emptyChangedResponse htoken
        have hnext : nextSend (queued note (.v6 udpRx.sourceAddress) c) = none := hsend
        obtain ⟨c', hc'⟩ := (sendProxiedAck_isOk hwire hlength udpRx).mpr hnext
        exact ⟨true, c', bind_of_ok hc'⟩
      · exact ⟨true, _, rfl⟩

end Notifying

section Proxied

variable [Suite] {H : Type} [JoinerHandler H]

/-- The message carries an unsolicited notification that does not parse. -/
def Poisons (expected : Option CoapMessage) (incoming : CoapMessage) : Prop :=
  ∃ inner udpRx e, arrival incoming = some (inner, some udpRx) ∧ Unsolicited expected inner ∧
    parseNotification inner = .error e

/-- Proxied traffic fails the exchange exactly if it carries an unsolicited
notification that does not parse. -/
theorem proxied_traffic_is_taken_iff (expected : Option CoapMessage) (incoming : CoapMessage) (c : Commissioner H)
    (huri : incoming.uriPath = .ok (some Uri.udpRx)) (hsend : nextSend c = none) :
    (∃ result c', (handleIncoming expected incoming).run c = .ok result c') ↔ ¬ Poisons expected incoming := by
  rw [handleIncoming_eq]
  cases harrival : arrival incoming with
  | none =>
      refine ⟨?_, fun _ => ⟨none, c, rfl⟩⟩
      rintro - ⟨inner, udpRx, e, h, -⟩
      cases harrival.symm.trans h
  | some arrived =>
      obtain ⟨inner, via⟩ := arrived
      obtain ⟨udpRx, rfl⟩ := arrival_of_udpRx huri harrival
      dsimp only
      rcases settle_cases (H := H) expected inner with
        ⟨request, rfl, hack, hsettle⟩ | ⟨request, rfl, hack, htoken, hsettle⟩ | hunsolicited
      · rw [hsettle]
        refine ⟨?_, fun _ => ⟨none, c, rfl⟩⟩
        rintro - ⟨inner', udpRx', e, h, hunsolicited, -⟩
        cases harrival.symm.trans h
        cases hack.symm.trans (hunsolicited request rfl).1
      · rw [hsettle]
        refine ⟨?_, fun _ => ?_⟩
        · rintro - ⟨inner', udpRx', e, h, hunsolicited, -⟩
          cases harrival.symm.trans h
          exact (hunsolicited request rfl).2 htoken
        · obtain ⟨c', hc'⟩ := (acknowledgeProxied_isOk inner udpRx).mpr fun _ => hsend
          exact ⟨some inner, c', bind_of_ok hc'⟩
      · rw [settle_of_unsolicited hunsolicited]
        have hroute : (∃ routed c', (routeUnsolicitedProxied inner udpRx).run c = .ok routed c') ↔ _ :=
          routeUnsolicitedProxied_isOk (arrival_token harrival) hsend
        constructor
        · rintro ⟨result, c', hrun⟩ ⟨inner', udpRx', e, h, -, herror⟩
          cases harrival.symm.trans h
          obtain ⟨routed, c'', hrouted, -⟩ := bind_eq_ok.mp hrun
          exact hroute.mp ⟨routed, c'', hrouted⟩ e herror
        · intro h
          obtain ⟨routed, c', hrouted⟩ := hroute.mpr fun e herror => h ⟨inner, udpRx, e, harrival, hunsolicited, herror⟩
          exact ⟨none, c', bind_of_ok hrouted⟩

end Proxied

section Answers

variable {message : CoapMessage}

def IsResponse (message : CoapMessage) : Prop :=
  message.code.byte >>> 5 = 2 ∨ message.code.byte >>> 5 = 4 ∨ message.code.byte >>> 5 = 5

theorem not_isResponse_of_post (h : message.code = .post) : ¬ IsResponse message := by
  rw [IsResponse, h]
  decide

theorem not_isEmptyAckFor_of_post (h : message.code = .post) (mid : UInt16) : message.isEmptyAckFor mid = false := by
  rw [CoapMessage.isEmptyAckFor, h]
  simp [CoapCode.post, CoapCode.empty]

variable [Suite] {H : Type}

theorem sendProxiedAck_outgoing (resp : CoapMessage) (udpRx : UdpRx) :
    Respects (Outgoing fun _ => True) (sendProxiedAck resp udpRx : CommissionerM H Unit) := by
  refine .lift_bind .refl fun inner => .bind .trans nextRequestIdentity_outgoing fun ⟨_, _⟩ => ?_
  exact .lift_bind .refl fun udpTx => sendWire_outgoing trivial

variable [JoinerHandler H] {c : Commissioner H} {note : MeshcopNotification}

theorem routeUnsolicitedMessage_of_relay {port loc : UInt16} {iid : ByteVector 8} {payload : Bytes} {handler : H}
    (h : parseNotification message = .ok (some (.relayRx port loc iid payload)))
    (hhandler : c.joinerHandler = some handler) : (routeUnsolicitedMessage message).run c =
      (handleRelayRx port loc iid payload >>= fun _ => pure true).run c := by
  rw [routeUnsolicitedMessage, lift_bind_of_ok h]
  dsimp only
  rw [get_bind, hhandler]

theorem routeUnsolicitedMessage_of_other (h : parseNotification message = .ok (some note))
    (hother : ∀ port loc iid payload, note = .relayRx port loc iid payload → c.joinerHandler = none) :
    (routeUnsolicitedMessage message).run c = .ok true (queued note c.borderAgent c) := by
  rw [routeUnsolicitedMessage, lift_bind_of_ok h]
  dsimp only
  rw [get_bind]
  split
  · next hhandler =>
    cases (hother _ _ _ _ rfl).symm.trans hhandler
  · rw [bind_of_ok (queueNotification_run _ _ c)]
    rfl

theorem unsolicitedMessage_eq_ok {expected res : Option CoapMessage} {c' : Commissioner H}
    (h : (unsolicitedMessage expected message).run c = .ok res c') : res = none := by
  obtain ⟨routed, c₁, -, h⟩ := bind_eq_ok.mp h
  cases routed with
  | true =>
    obtain ⟨_, c₂, -, h⟩ := bind_eq_ok.mp h
    cases h
    rfl
  | false =>
    cases expected with
    | none =>
      cases h
      rfl
    | some request => cases h

def IsEmptyAck (message : CoapMessage) : Prop := ∃ messageId, message = .emptyAck messageId

def peerOf (via : Option UdpRx) (c : Commissioner H) : IpAddr :=
  match via with
  | none => c.borderAgent
  | some udpRx => .v6 udpRx.sourceAddress

/-- The notification drives the joiner's session, if it is a direct RLY_RX.ntf
and there is a handler, and otherwise adds exactly its event. -/
def Notified (via : Option UdpRx) (notification : MeshcopNotification) (c c' : Commissioner H) : Prop :=
  (∃ joinerUdpPort joinerRouterLocator joinerIid payload handler, via = none ∧
    notification = .relayRx joinerUdpPort joinerRouterLocator joinerIid payload ∧ c.joinerHandler = some handler ∧
    Outgoing IsEmptyAck
      (finalState ((handleRelayRx joinerUdpPort joinerRouterLocator joinerIid payload).run c)) c') ∨
  ((∀ joinerUdpPort joinerRouterLocator joinerIid payload, via = none →
      notification = .relayRx joinerUdpPort joinerRouterLocator joinerIid payload → c.joinerHandler = none) ∧
    c'.events = c.events ++ [notificationToEvent notification (peerOf via c)])

theorem notified_direct (h : parseNotification message = .ok (some note)) (expected : Option CoapMessage)
    (c : Commissioner H) : Notified none note c (finalState ((unsolicitedMessage expected message).run c)) := by
  have hack : Respects (Outgoing IsEmptyAck) (ackIfConfirmable message >>= fun _ => pure none :
      CommissionerM H (Option CoapMessage)) :=
    .bind .trans (ackIfConfirmable_outgoing ⟨_, rfl⟩) fun _ => respects_pure .refl _
  by_cases hrelay : ∀ port loc iid payload, note = .relayRx port loc iid payload → c.joinerHandler = none
  · obtain ⟨mid, sends, outs, heq, -⟩ := hack (queued note c.borderAgent c)
    rw [unsolicitedMessage_of_routed (routeUnsolicitedMessage_of_other h hrelay), heq]
    exact .inr ⟨fun _ _ _ _ _ => hrelay _ _ _ _, rfl⟩
  · push Not at hrelay
    obtain ⟨port, loc, iid, payload, rfl, hsome⟩ := hrelay
    obtain ⟨handler, hhandler⟩ := Option.ne_none_iff_exists'.mp hsome
    refine .inl ⟨_, _, _, _, handler, rfl, rfl, hhandler, ?_⟩
    have hroute := routeUnsolicitedMessage_of_relay h hhandler
    cases hrun : (handleRelayRx port loc iid payload).run c with
    | ok _ c₁ =>
      rw [bind_of_ok hrun] at hroute
      rw [unsolicitedMessage_of_routed hroute]
      exact hack c₁
    | error e c₁ =>
      rw [bind_of_error hrun] at hroute
      rw [unsolicitedMessage_of_error hroute]
      exact .refl c₁

theorem notified_proxied (h : parseNotification message = .ok (some note)) (udpRx : UdpRx) (c : Commissioner H) :
    Notified (some udpRx) note c (finalState ((routeUnsolicitedProxied message udpRx).run c)) := by
  have hack : Respects (Outgoing fun _ => True)
      ((if message.ty = .confirmable then sendProxiedAck (.emptyChangedResponse message) udpRx else pure ()) >>=
        fun _ => pure true : CommissionerM H Bool) := by
    refine .bind .trans ?_ fun _ => respects_pure .refl _
    split
    · exact sendProxiedAck_outgoing _ _
    · exact respects_pure .refl _
  obtain ⟨mid, sends, outs, heq, -⟩ := hack (queued note (.v6 udpRx.sourceAddress) c)
  rw [routeUnsolicitedProxied_of_some h, heq]
  exact .inr ⟨nofun, rfl⟩

/-- What is to hold of a message that comes while a request is waited for. -/
structure OnlyResponses (request incoming : CoapMessage) (c : Commissioner H) : Prop where
  answer : ∀ message c', (handleIncoming (some request) incoming).run c = .ok (some message) c' →
    IsResponse message ∧ message.token = request.token
  notified : ∀ message via notification, arrival incoming = some (message, via) → message.code = .post →
    parseNotification message = .ok (some notification) →
      (∀ answer c', (handleIncoming (some request) incoming).run c ≠ .ok (some answer) c') ∧
      Notified via notification c (finalState ((handleIncoming (some request) incoming).run c))

/-- The message is taken for the answer by its token, and is no response. -/
def Misread (request incoming : CoapMessage) : Prop :=
  ∃ message via, arrival incoming = some (message, via) ∧ message.isEmptyAckFor request.messageId = false ∧
    message.token = request.token ∧ ¬ IsResponse message

theorem handleIncoming_some {req incoming message : CoapMessage} {c c' : Commissioner H}
    (h : (handleIncoming (some req) incoming).run c = .ok (some message) c') :
    ∃ via, arrival incoming = some (message, via) ∧ message.isEmptyAckFor req.messageId = false ∧
      message.token = req.token := by
  rw [handleIncoming_eq] at h
  cases harrival : arrival incoming with
  | none =>
    rw [harrival] at h
    cases h
  | some arrived =>
    obtain ⟨arrived, via⟩ := arrived
    rw [harrival] at h
    rcases settle_cases (H := H) (some req) arrived with
      ⟨_, ⟨⟩, -, hsettle⟩ | ⟨_, ⟨⟩, hack, htoken, hsettle⟩ | hunsolicited
    · cases via <;> (dsimp only at h; rw [hsettle] at h; cases h)
    · have hanswer : arrived = message := by
        cases via <;> (dsimp only at h; rw [hsettle] at h; obtain ⟨_, _, -, h⟩ := bind_eq_ok.mp h; cases h; rfl)
      subst hanswer
      exact ⟨via, rfl, hack, htoken⟩
    · cases via with
      | none =>
        dsimp only at h
        rw [settle_of_unsolicited hunsolicited] at h
        cases unsolicitedMessage_eq_ok h
      | some udpRx =>
        dsimp only at h
        rw [settle_of_unsolicited hunsolicited] at h
        obtain ⟨_, _, -, h⟩ := bind_eq_ok.mp h
        cases h

theorem notified_of_unsolicited {req incoming : CoapMessage} {via : Option UdpRx} (c : Commissioner H)
    (harrival : arrival incoming = some (message, via)) (hunsolicited : Unsolicited (some req) message)
    (h : parseNotification message = .ok (some note)) :
    Notified via note c (finalState ((handleIncoming (some req) incoming).run c)) := by
  rw [handleIncoming_eq, harrival]
  cases via with
  | none =>
    dsimp only
    rw [settle_of_unsolicited hunsolicited]
    exact notified_direct h _ c
  | some udpRx =>
    dsimp only
    rw [settle_of_unsolicited hunsolicited]
    have hnotified := notified_proxied h udpRx c
    cases hrun : (routeUnsolicitedProxied message udpRx).run c with
    | ok routed c₁ =>
      rw [bind_of_ok hrun]
      rwa [hrun] at hnotified
    | error e c₁ =>
      rw [bind_of_error hrun]
      rwa [hrun] at hnotified

theorem handleIncoming_of_token {req incoming : CoapMessage} {via : Option UdpRx} {c : Commissioner H}
    (hsend : nextSend c = none) (harrival : arrival incoming = some (message, via))
    (hack : message.isEmptyAckFor req.messageId = false) (htoken : message.token = req.token) :
    ∃ c', (handleIncoming (some req) incoming).run c = .ok (some message) c' := by
  rw [handleIncoming_eq, harrival]
  rcases settle_cases (H := H) (some req) message with
    ⟨_, ⟨⟩, hack', -⟩ | ⟨_, ⟨⟩, -, -, hsettle⟩ | hunsolicited
  · cases hack.symm.trans hack'
  · cases via with
    | none =>
      obtain ⟨c', hc'⟩ := (ackIfConfirmable_isOk message).mpr fun _ => hsend
      dsimp only
      rw [hsettle, bind_of_ok hc']
      exact ⟨c', rfl⟩
    | some udpRx =>
      obtain ⟨c', hc'⟩ := (acknowledgeProxied_isOk message udpRx).mpr fun _ => hsend
      dsimp only
      rw [hsettle, bind_of_ok hc']
      exact ⟨c', rfl⟩
  · exact absurd htoken (hunsolicited req rfl).2

/-- Only responses answer a request if no message that has its token is
another; and where acknowledgements can be sent, this is the only way. -/
theorem only_responses_answer_iff (request incoming : CoapMessage) (c : Commissioner H) :
    (¬ Misread request incoming → OnlyResponses request incoming c) ∧
      (nextSend c = none → OnlyResponses request incoming c → ¬ Misread request incoming) := by
  constructor
  · intro hread
    refine ⟨fun message c' hrun => ?_, fun message via notification harrival hpost hparse => ?_⟩
    · obtain ⟨via, harrival, hack, htoken⟩ := handleIncoming_some hrun
      refine ⟨?_, htoken⟩
      by_contra hresponse
      exact hread ⟨message, via, harrival, hack, htoken, hresponse⟩
    · have hack := not_isEmptyAckFor_of_post hpost request.messageId
      have htoken : message.token ≠ request.token := fun htoken =>
        hread ⟨message, via, harrival, hack, htoken, not_isResponse_of_post hpost⟩
      have hunsolicited : Unsolicited (some request) message := by
        rintro _ ⟨⟩
        exact ⟨hack, htoken⟩
      refine ⟨fun answer c' hrun => ?_, notified_of_unsolicited c harrival hunsolicited hparse⟩
      obtain ⟨_, harrival', -, htoken'⟩ := handleIncoming_some hrun
      cases harrival.symm.trans harrival'
      exact htoken htoken'
  · rintro hsend honly ⟨message, via, harrival, hack, htoken, hresponse⟩
    obtain ⟨c', hrun⟩ := handleIncoming_of_token hsend harrival hack htoken
    exact hresponse (honly.answer message c' hrun).1

end Answers

section Witness

open Residues

attribute [local instance] residues

/-- A UDP_RX.ntf from the unspecified address, to the management port. -/
def proxied (inner : Bytes) : CoapMessage :=
  ⟨.nonConfirmable, .post, 7, [], pathOptions ["c", "ur"],
    TlvEntry.bytes ⟨tlvIpv6Address, List.replicate 16 0⟩ ++
      TlvEntry.bytes ⟨tlvUdpEncapsulation, [0xf0, 0xbf, 0xf0, 0xbf] ++ inner⟩⟩

def unspecified : UdpRx := ⟨List.Vector.replicate 16 0, 0xf0bf, 0xf0bf, []⟩

/-- A change of the dataset that is to be acknowledged is taken. -/
theorem proxied_traffic_is_taken_residues :
    ∃ incoming, CoapMessage.uriPath incoming = .ok (some Uri.udpRx) ∧ nextSend residueCommissioner = none ∧
      ∃ result c', (handleIncoming none incoming).run residueCommissioner = .ok result c' := by
  have harrival : arrival (proxied [0x40, 0x02, 0, 7, 0xb1, 0x63, 0x02, 0x64, 0x63]) =
      some (⟨.confirmable, .post, 7, [], pathOptions ["c", "dc"], []⟩,
        some { unspecified with payload := [0x40, 0x02, 0, 7, 0xb1, 0x63, 0x02, 0x64, 0x63] }) := by decide +kernel
  have hparse : parseNotification ⟨.confirmable, .post, 7, [], pathOptions ["c", "dc"], []⟩ =
      .ok (some .datasetChanged) := by decide +kernel
  refine ⟨_, by decide +kernel, rfl, (proxied_traffic_is_taken_iff none
    (proxied [0x40, 0x02, 0, 7, 0xb1, 0x63, 0x02, 0x64, 0x63]) residueCommissioner (by decide +kernel) rfl).mpr ?_⟩
  rintro ⟨inner, udpRx, e, harrival', -, herror⟩
  cases harrival.symm.trans harrival'
  cases hparse.symm.trans herror

/-- A PAN ID conflict report without its TLVs fails the exchange. -/
theorem proxied_traffic_fails_residues :
    ∃ incoming, CoapMessage.uriPath incoming = .ok (some Uri.udpRx) ∧ nextSend residueCommissioner = none ∧
      ∃ e c', (handleIncoming none incoming).run residueCommissioner = .error e c' := by
  have harrival : arrival (proxied [0x50, 0x02, 0, 7, 0xb1, 0x63, 0x02, 0x70, 0x63]) =
      some (⟨.nonConfirmable, .post, 7, [], pathOptions ["c", "pc"], []⟩,
        some { unspecified with payload := [0x50, 0x02, 0, 7, 0xb1, 0x63, 0x02, 0x70, 0x63] }) := by decide +kernel
  have hparse : parseNotification ⟨.nonConfirmable, .post, 7, [], pathOptions ["c", "pc"], []⟩ =
      .error (.dataset "missing Channel Mask TLV") := by decide +kernel
  refine ⟨proxied [0x50, 0x02, 0, 7, 0xb1, 0x63, 0x02, 0x70, 0x63], by decide +kernel, rfl,
    .dataset "missing Channel Mask TLV", residueCommissioner, ?_⟩
  rw [handleIncoming_eq, harrival]
  exact bind_of_error (routeUnsolicitedProxied_of_error hparse _ _)

/-- A request of the commissioner, as far as its answers are told by it. -/
def pending : CoapMessage := ⟨.confirmable, .post, 1, [0, 1], pathOptions ["c", "ca"], []⟩

/-- The answer 2.04 to the request. -/
theorem only_responses_answer_residues :
    ¬ Misread pending ⟨.acknowledgement, .changed, 1, [0, 1], [], []⟩ ∧
      OnlyResponses pending ⟨.acknowledgement, .changed, 1, [0, 1], [], []⟩ residueCommissioner := by
  have hread : ¬ Misread pending ⟨.acknowledgement, .changed, 1, [0, 1], [], []⟩ := by
    rintro ⟨message, via, harrival, -, -, hresponse⟩
    have harrival' : arrival ⟨.acknowledgement, .changed, 1, [0, 1], [], []⟩ =
        some (⟨.acknowledgement, .changed, 1, [0, 1], [], []⟩, none) := by decide +kernel
    cases harrival'.symm.trans harrival
    exact hresponse (.inl (by decide))
  exact ⟨hread, (only_responses_answer_iff pending _ residueCommissioner).1 hread⟩

/-- A change of the dataset whose token is that of the request is returned as
its answer, and no event is queued. -/
theorem notification_answers_residues :
    ∃ incoming, CoapMessage.code incoming = .post ∧ parseNotification incoming = .ok (some .datasetChanged) ∧
      (handleIncoming (some pending) incoming).run residueCommissioner = .ok (some incoming) residueCommissioner ∧
      ¬ OnlyResponses pending incoming residueCommissioner := by
  let incoming : CoapMessage := ⟨.nonConfirmable, .post, 9, [0, 1], pathOptions ["c", "dc"], []⟩
  have harrival : arrival incoming = some (incoming, none) := by decide +kernel
  have hrun : (handleIncoming (some pending) incoming).run residueCommissioner =
      .ok (some incoming) residueCommissioner := by
    rw [handleIncoming_eq, harrival]
    rfl
  refine ⟨incoming, rfl, by decide +kernel, hrun, fun honly => ?_⟩
  exact not_isResponse_of_post rfl (honly.answer incoming residueCommissioner hrun).1

end Witness

end ThreadCommissioner.Incoming
