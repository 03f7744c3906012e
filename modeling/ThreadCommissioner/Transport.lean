import ThreadCommissioner.RelaySessions

namespace ThreadCommissioner.Transport

open Builders ByteStrings Coap Commissioners Computations Errors JoinerSessions List Meshcop Notifications Primitives
open RelaySessions Tlvs

section Model

variable [Suite] {H : Type}

def ackIfConfirmable (message : CoapMessage) : CommissionerM H Unit :=
  if message.ty = .confirmable then sendWire (.emptyAck message.messageId) else pure ()

/-- Sends `response` back through the UDP proxy to the UDP_RX source. -/
def sendProxiedAck (response : CoapMessage) (udpRx : UdpRx) : CommissionerM H Unit := do
  let inner ← response.encode
  let (messageId, token) ← nextRequestIdentity
  let udpTx ← udpTxRequest messageId token udpRx.sourceAddress udpRx.sourcePort inner
  sendWire udpTx

/-- The acknowledgement of an answer that came through the UDP proxy. -/
def acknowledgeProxied (inner : CoapMessage) (udpRx : UdpRx) : CommissionerM H Unit :=
  if inner.ty = .confirmable then sendProxiedAck (.emptyAck inner.messageId) udpRx else pure ()

def notificationToEvent (notification : MeshcopNotification) (peerAddr : IpAddr) : CommissionerEvent :=
  match notification with
  | .datasetChanged => .datasetChanged
  | .diagGetAnswer data => .diagnosticAnswer peerAddr data
  | .panIdConflict channelMask panId => .panIdConflict peerAddr channelMask panId
  | .energyReport channelMask energyList => .energyReport peerAddr channelMask energyList
  | .relayRx joinerUdpPort _ joinerIid payload => .joinerMessage joinerIid.toList joinerUdpPort payload

/-- The cached prefix is dropped when the dataset has changed, and the event is
queued. -/
def queueNotification (notification : MeshcopNotification) (peerAddr : IpAddr) : CommissionerM H Unit := do
  if notification = .datasetChanged then modify fun c => { c with meshLocalPrefix := none }
  queueEvent (notificationToEvent notification peerAddr)

def routeUnsolicitedProxied (inner : CoapMessage) (udpRx : UdpRx) : CommissionerM H Bool := do
  match ← parseNotification inner with
  | none => return false
  | some notification =>
    queueNotification notification (.v6 udpRx.sourceAddress)
    if inner.ty = .confirmable then sendProxiedAck (.emptyChangedResponse inner) udpRx
    return true

variable [JoinerHandler H]

def routeUnsolicitedMessage (message : CoapMessage) : CommissionerM H Bool := do
  match ← parseNotification message with
  | none => return false
  | some notification =>
    let c ← get
    match notification, c.joinerHandler with
    | .relayRx joinerUdpPort joinerRouterLocator joinerIid payload, some _ =>
      handleRelayRx joinerUdpPort joinerRouterLocator joinerIid payload
      return true
    | _, _ =>
      queueNotification notification c.borderAgent
      return true

/-- Routes one incoming message: the answer to the request that is waited for
is returned, notifications become events. -/
def handleIncoming (expected : Option CoapMessage) (incoming : CoapMessage) : CommissionerM H (Option CoapMessage) :=
  match parseUdpRx incoming with
  | .error _ => pure none
  | .ok (some udpRx) =>
    if udpRx.destinationPort ≠ defaultMmPort then pure none
    else
      match CoapMessage.decode udpRx.payload with
      | .error _ => pure none
      | .ok inner =>
        let unsolicited : CommissionerM H (Option CoapMessage) := do
          let _ ← routeUnsolicitedProxied inner udpRx
          return none
        match expected with
        | none => unsolicited
        | some request =>
          if inner.isEmptyAckFor request.messageId then pure none
          else if inner.token = request.token then do
            acknowledgeProxied inner udpRx
            return some inner
          else unsolicited
  | .ok none =>
    let unsolicited : CommissionerM H (Option CoapMessage) := do
      if ← routeUnsolicitedMessage incoming then
        ackIfConfirmable incoming
        return none
      else
        match expected with
        | some _ => throw (.invalidState "CoAP response token mismatch")
        | none => return none
    match expected with
    | none => unsolicited
    | some request =>
      if incoming.isEmptyAckFor request.messageId then pure none
      else if incoming.token = request.token then do
        ackIfConfirmable incoming
        return some incoming
      else unsolicited

end Model

section Encoding

theorem encode_bare {m : CoapMessage} (htoken : m.token.length ≤ 8) (hopts : m.options = [])
    (hpayload : m.payload = []) : ∃ wire, m.encode = .ok wire ∧ wire.length ≤ 12 := by
  rw [CoapMessage.encode, ensure_true htoken, hopts, hpayload]
  refine ⟨_, rfl, ?_⟩
  simp only [cons_append, length_cons, length_append, length_beBytes, length_nil, if_pos]
  omega

theorem encode_emptyAck (mid : UInt16) : ∃ wire, (CoapMessage.emptyAck mid).encode = .ok wire ∧
    wire.length ≤ 12 := encode_bare (Nat.zero_le _) rfl rfl

theorem encode_emptyChangedResponse {req : CoapMessage} (h : req.token.length ≤ 8) :
    ∃ wire, (CoapMessage.emptyChangedResponse req).encode = .ok wire ∧ wire.length ≤ 12 := encode_bare h rfl rfl

theorem exists_udpTxRequest (mid : UInt16) {token : Bytes} (htoken : token.length ≤ 8)
    (dest : ByteVector 16) (dport : UInt16) {inner : Bytes} (hinner : inner.length ≤ 65531) :
    ∃ udpTx wire, udpTxRequest mid token dest dport inner = .ok udpTx ∧ udpTx.encode = .ok wire := by
  have haddress : dest.toList.length ≤ maxExtendedTlvLength := dest.toList_length.le.trans (by decide)
  have hencapsulation : (beBytes 2 defaultMmPort.toNat ++ beBytes 2 dport.toNat ++ inner).length ≤
      maxExtendedTlvLength := by
    rw [length_append, length_append, length_beBytes, length_beBytes, maxExtendedTlvLength]
    omega
  obtain ⟨opts, hopts⟩ := encodeOptions_udpTx
  rw [udpTxRequest, appendTlv_of_le haddress, ok_bind, appendTlv_of_le hencapsulation, ok_bind, postRequest_udpTx]
  obtain ⟨wire, hwire⟩ : ∃ wire, CoapMessage.encode ⟨.nonConfirmable, .post, mid, token, pathOptions ["c", "ut"], _⟩ =
      .ok wire := exists_encode htoken hopts
  exact ⟨_, wire, rfl, hwire⟩

end Encoding

section Sending

variable [Suite] {H : Type} {c : Commissioner H} {P : CoapMessage → Prop}

def nextSend (c : Commissioner H) : Option Error :=
  if c.dtlsSession = false then some (.invalidState "DTLS session is not established")
  else c.network.sends.head?.join

theorem sendApplicationData_run (data : Bytes) (c : Commissioner H) : ∃ c', (sendApplicationData data).run c =
      match nextSend c with
      | none => .ok () c'
      | some e => .error e c' := by
  rw [sendApplicationData, get_bind, nextSend]
  split
  · exact ⟨c, rfl⟩
  · refine ⟨{ c with network := { c.network with sends := c.network.sends.tail } }, ?_⟩
    rw [set_bind]
    rcases c.network.sends.head? with _ | (_ | e) <;> rfl

theorem sendWire_isOk {m : CoapMessage} {wire : Bytes} (h : m.encode = .ok wire) :
    (∃ c', (sendWire m).run c = .ok () c') ↔ nextSend c = none := by
  obtain ⟨c', hsend⟩ := sendApplicationData_run wire c
  rw [sendWire, lift_bind_of_ok h]
  cases hnext : nextSend c with
  | none =>
    rw [hnext] at hsend
    rw [bind_of_ok hsend]
    exact ⟨fun _ => rfl, fun _ => ⟨_, rfl⟩⟩
  | some e =>
    rw [hnext] at hsend
    rw [bind_of_error hsend]
    exact ⟨(fun ⟨_, h⟩ => nomatch h), nofun⟩

theorem ackIfConfirmable_isOk (m : CoapMessage) :
    (∃ c', (ackIfConfirmable m).run c = .ok () c') ↔ (m.ty = .confirmable → nextSend c = none) := by
  obtain ⟨wire, hwire, -⟩ := encode_emptyAck m.messageId
  rw [ackIfConfirmable]
  by_cases hty : m.ty = .confirmable
  · rw [if_pos hty, sendWire_isOk hwire]
    exact ⟨fun h _ => h, fun h => h hty⟩
  · rw [if_neg hty]
    exact ⟨fun _ h => absurd h hty, fun _ => ⟨c, rfl⟩⟩

theorem sendProxiedAck_isOk {resp : CoapMessage} {inner : Bytes} (hinner : resp.encode = .ok inner)
    (hlength : inner.length ≤ 12) (udpRx : UdpRx) :
    (∃ c', (sendProxiedAck resp udpRx).run c = .ok () c') ↔ nextSend c = none := by
  have htoken : (beBytes 2 (c.nextMessageId + 1).toNat).length ≤ 8 := (length_beBytes _ _).le.trans (by decide)
  obtain ⟨udpTx, wire, hudpTx, hwire⟩ := exists_udpTxRequest (c.nextMessageId + 1) htoken udpRx.sourceAddress
    udpRx.sourcePort (hlength.trans (by decide))
  rw [sendProxiedAck, lift_bind_of_ok hinner, bind_of_ok (nextRequestIdentity_run c)]
  dsimp only
  rw [lift_bind_of_ok hudpTx, sendWire_isOk hwire]
  rfl

theorem ackIfConfirmable_outgoing {m : CoapMessage} (h : P (.emptyAck m.messageId)) :
    Respects (Outgoing P) (ackIfConfirmable m : CommissionerM H Unit) := by
  rw [ackIfConfirmable]
  split
  · exact sendWire_outgoing h
  · exact respects_pure .refl ()

end Sending

section Routing

/-- The message that arrives, directly or through the UDP proxy, unless it is
dropped on the way. -/
def arrival (incoming : CoapMessage) : Option (CoapMessage × Option UdpRx) :=
  match parseUdpRx incoming with
  | .error _ => none
  | .ok none => some (incoming, none)
  | .ok (some udpRx) =>
    if udpRx.destinationPort ≠ defaultMmPort then none
    else
      match CoapMessage.decode udpRx.payload with
      | .error _ => none
      | .ok inner => some (inner, some udpRx)

theorem arrival_token {incoming inner : CoapMessage} {udpRx : UdpRx}
    (h : arrival incoming = some (inner, some udpRx)) : inner.token.length ≤ 8 := by
  unfold arrival at h
  split at h
  · cases h
  · cases h
  · split at h
    · cases h
    · split at h
      · cases h
      · next hdecode =>
        cases h
        exact JoinerExchange.length_token_of_decode hdecode

variable {incoming : CoapMessage}

theorem parseUdpRx_isSome (huri : incoming.uriPath = .ok (some Uri.udpRx))
    {res : Option UdpRx} (h : parseUdpRx incoming = .ok res) : res ≠ none := by
  rw [parseUdpRx, huri, ok_bind, if_neg (not_not.mpr rfl)] at h
  obtain ⟨tlvs, -, h⟩ := bind_ok.mp h
  obtain ⟨address, -, h⟩ := bind_ok.mp h
  obtain ⟨sourceAddress, -, h⟩ := bind_ok.mp h
  obtain ⟨encapsulation, -, h⟩ := bind_ok.mp h
  split at h
  · cases h
    exact nofun
  · cases h

theorem arrival_of_udpRx {incoming m : CoapMessage} {via : Option UdpRx}
    (huri : incoming.uriPath = .ok (some Uri.udpRx)) (h : arrival incoming = some (m, via)) : ∃ udpRx, via = some udpRx := by
  unfold arrival at h
  split at h
  · cases h
  · next hparse => exact absurd rfl (parseUdpRx_isSome huri hparse)
  · split at h
    · cases h
    · split at h
      · cases h
      · cases h
        exact ⟨_, rfl⟩

/-- The message neither acknowledges the request that is waited for, nor has
its token. -/
def Unsolicited (expected : Option CoapMessage) (message : CoapMessage) : Prop :=
  ∀ request, expected = some request →
    message.isEmptyAckFor request.messageId = false ∧ message.token ≠ request.token

variable [Suite] {H : Type}

/-- What becomes of a message that arrives: it is absorbed, it is the answer,
or it is unsolicited. -/
def settle (expected : Option CoapMessage) (message : CoapMessage) (acknowledge : CommissionerM H Unit)
    (unsolicited : CommissionerM H (Option CoapMessage)) : CommissionerM H (Option CoapMessage) :=
  match expected with
  | none => unsolicited
  | some request =>
    if message.isEmptyAckFor request.messageId then pure none
    else if message.token = request.token then do
      acknowledge
      return some message
    else unsolicited

theorem settle_of_unsolicited {expected : Option CoapMessage} {m : CoapMessage}
    (h : Unsolicited expected m) (acknowledge : CommissionerM H Unit)
    (unsolicited : CommissionerM H (Option CoapMessage)) : settle expected m acknowledge unsolicited = unsolicited := by
  cases expected with
  | none => rfl
  | some req =>
    obtain ⟨hack, htoken⟩ := h req rfl
    rw [settle, if_neg (by rw [hack]; decide), if_neg htoken]

theorem settle_cases (expected : Option CoapMessage) (message : CoapMessage) :
    (∃ request, expected = some request ∧ message.isEmptyAckFor request.messageId = true ∧
      ∀ acknowledge unsolicited, settle (H := H) expected message acknowledge unsolicited = pure none) ∨
    (∃ request, expected = some request ∧ message.isEmptyAckFor request.messageId = false ∧ message.token = request.token ∧
      ∀ acknowledge unsolicited, settle (H := H) expected message acknowledge unsolicited =
        acknowledge >>= fun _ => pure (some message)) ∨ Unsolicited expected message := by
  cases expected with
  | none => exact .inr (.inr nofun)
  | some request =>
    cases hack : message.isEmptyAckFor request.messageId with
    | true =>
      refine .inl ⟨request, rfl, hack, fun acknowledge unsolicited => ?_⟩
      rw [settle, if_pos hack]
    | false =>
      by_cases htoken : message.token = request.token
      · refine .inr (.inl ⟨request, rfl, hack, htoken, fun acknowledge unsolicited => ?_⟩)
        rw [settle, if_neg (by rw [hack]; decide), if_pos htoken]
      · refine .inr (.inr ?_)
        rintro _ ⟨⟩
        exact ⟨hack, htoken⟩

theorem acknowledgeProxied_isOk {c : Commissioner H} (inner : CoapMessage) (udpRx : UdpRx) :
    (∃ c', (acknowledgeProxied inner udpRx).run c = .ok () c') ↔ (inner.ty = .confirmable → nextSend c = none) := by
  obtain ⟨wire, hwire, hlength⟩ := encode_emptyAck inner.messageId
  rw [acknowledgeProxied]
  by_cases hty : inner.ty = .confirmable
  · rw [if_pos hty, sendProxiedAck_isOk hwire hlength]
    exact ⟨fun h _ => h, fun h => h hty⟩
  · rw [if_neg hty]
    exact ⟨fun _ h => absurd h hty, fun _ => ⟨c, rfl⟩⟩

variable [JoinerHandler H]

def unsolicitedMessage (expected : Option CoapMessage) (incoming : CoapMessage) : CommissionerM H (Option CoapMessage) := do
  if ← routeUnsolicitedMessage incoming then
    ackIfConfirmable incoming
    return none
  else
    match expected with
    | some _ => throw (.invalidState "CoAP response token mismatch")
    | none => return none

theorem unsolicitedMessage_of_routed {c c₁ : Commissioner H}
    (h : (routeUnsolicitedMessage incoming).run c = .ok true c₁) (expected : Option CoapMessage) :
    (unsolicitedMessage expected incoming).run c = (ackIfConfirmable incoming >>= fun _ => pure none).run c₁ := by
  unfold unsolicitedMessage
  rw [bind_of_ok h]
  rfl

theorem unsolicitedMessage_of_error {c c₁ : Commissioner H} {e : Error}
    (h : (routeUnsolicitedMessage incoming).run c = .error e c₁) (expected : Option CoapMessage) :
    (unsolicitedMessage expected incoming).run c = .error e c₁ := by
  unfold unsolicitedMessage
  rw [bind_of_error h]

theorem handleIncoming_eq (expected : Option CoapMessage) (incoming : CoapMessage) :
    handleIncoming (H := H) expected incoming = match arrival incoming with
      | none => pure none
      | some (message, none) =>
        settle expected message (ackIfConfirmable message) (unsolicitedMessage expected message)
      | some (message, some udpRx) =>
        settle expected message (acknowledgeProxied message udpRx) do
          let _ ← routeUnsolicitedProxied message udpRx
          return none := by
  unfold handleIncoming arrival
  cases parseUdpRx incoming with
  | error e => rfl
  | ok result =>
    cases result with
    | none => cases expected <;> rfl
    | some udpRx =>
      by_cases hport : udpRx.destinationPort ≠ defaultMmPort
      · simp only [if_pos hport]
      · simp only [if_neg hport]
        cases CoapMessage.decode udpRx.payload with
        | error e => rfl
        | ok inner => cases expected <;> rfl

end Routing

end ThreadCommissioner.Transport
