import ThreadCommissioner.Datasets
import ThreadCommissioner.Incoming
import ThreadCommissioner.Steering

namespace ThreadCommissioner.Exchanges

open Builders ByteStrings Coap Commissioners Computations Datasets Diagnostics Errors Incoming JoinerSessions Meshcop
open Notifications Primitives RelaySessions Steering Texts Transport

inductive MeshcopRoute
  | direct
  | proxied (destination : Ipv6Addr) (destinationPort : UInt16)

/-- Times are in nanoseconds. -/
def meshcopTimeout : ℕ := 5 * 10 ^ 9

def dtlsHandshakeTimeout : ℕ := 20 * 10 ^ 9

def requireSuccessResponse (response : CoapMessage) : Except Error CoapMessage :=
  let codeClass := response.code.byte >>> (5 : UInt8)
  if codeClass = 4 ∨ codeClass = 5 then .error (.invalidState "MeshCoP exchange returned a CoAP error response")
  else .ok response

def alocAddress (meshLocalPrefix : ByteVector 8) (aloc16 : UInt16) : Ipv6Addr :=
  ⟨meshLocalPrefix.toList ++ [0x00, 0x00, 0x00, 0xff, 0xfe, 0x00] ++ beBytes 2 aloc16.toNat, by simp⟩

section Model

variable [Suite] {H : Type}

/-- The next handshake takes its time and ends as the network has it. -/
def ensureDtlsSession : CommissionerM H Unit := do
  let c ← get
  if c.dtlsSession then pure ()
  else
    let (elapsed, failure) := c.network.handshakes.head?.getD (0, none)
    let network := { c.network with handshakes := c.network.handshakes.tail }
    if dtlsHandshakeTimeout < elapsed then
      set { c with now := c.now + dtlsHandshakeTimeout, network }
      throw (.timeout "DTLS handshake timed out")
    else
      match failure with
      | some e =>
        set { c with now := c.now + elapsed, network }
        throw e
      | none => set { c with now := c.now + elapsed, network, dtlsSession := true }

def wireMessage (request : CoapMessage) : MeshcopRoute → CommissionerM H CoapMessage
  | .direct => pure request
  | .proxied destination destinationPort => do
    let inner ← request.encode
    let (messageId, token) ← nextRequestIdentity
    udpTxRequest messageId token destination destinationPort inner

def sessionIdRequired : CommissionerM H UInt16 := do
  okOr (← get).sessionId (Error.invalidState "commissioner session is not active")

variable [JoinerHandler H]

/-- The loop under the exchange timeout: what arrives is routed until the
response is among it. Each round takes the first delivery from the inbox. -/
def awaitResponse (request : CoapMessage) : List Delivery → ℕ → CommissionerM H (Option CoapMessage)
  | [], remaining => do
    modify fun c => { c with now := c.now + remaining }
    throw (.timeout "MeshCoP exchange timed out")
  | delivery :: inbox, remaining =>
    if remaining < delivery.elapsed then do
      modify fun c => { c with
        now := c.now + remaining
        network := { c.network with inbox := { delivery with elapsed := delivery.elapsed - remaining } :: inbox } }
      throw (.timeout "MeshCoP exchange timed out")
    else do
      modify fun c => { c with now := c.now + delivery.elapsed, network := { c.network with inbox } }
      let responseWire ← delivery.data
      let message ← CoapMessage.decode responseWire
      match ← handleIncoming (some request) message with
      | some response => return some response
      | none => awaitResponse request inbox (remaining - delivery.elapsed)

def execute (request : CoapMessage) (route : MeshcopRoute) (waitForResponse : Bool) :
    CommissionerM H (Option CoapMessage) := do
  ensure ((← get).state ≠ .disabled) (Error.invalidState "commissioner is disconnected")
  let message ← wireMessage request route
  ensureDtlsSession
  sendWire message
  if waitForResponse then awaitResponse request (← get).network.inbox meshcopTimeout
  else return none

def executeMeshcop (request : CoapMessage) : CommissionerM H CoapMessage := do
  let response ← okOr (← execute request .direct true) (Error.invalidState "MeshCoP exchange produced no response")
  requireSuccessResponse response

def executeProxied (request : CoapMessage) (destination : Ipv6Addr) : CommissionerM H CoapMessage := do
  let response ← okOr (← execute request (.proxied destination defaultMmPort) true)
    (Error.invalidState "MeshCoP exchange produced no response")
  requireSuccessResponse response

def getRawActiveDataset (flags : DatasetFlags) : CommissionerM H Bytes := do
  let (messageId, token) ← nextRequestIdentity
  let request ← datasetGetRequest .getActiveDataset messageId token (activeDatasetTlvTypes flags)
  let response ← executeMeshcop request
  return response.payload

def requireMeshLocalPrefix : CommissionerM H (ByteVector 8) := do
  match (← get).meshLocalPrefix with
  | some meshLocalPrefix => return meshLocalPrefix
  | none =>
    let raw ← getRawActiveDataset DatasetFlags.meshLocalPrefix
    let dataset ← Dataset.fromBytes raw
    let meshLocalPrefix ← okOr (← dataset.meshLocalPrefix)
      (Error.invalidState "active dataset does not include the mesh-local prefix")
    ensure (meshLocalPrefix.head = 0xfd) (Error.dataset "mesh-local prefix must be within fd00::/8")
    modify fun c => { c with meshLocalPrefix := some meshLocalPrefix }
    return meshLocalPrefix

def leaderAloc : CommissionerM H Ipv6Addr := do
  return alocAddress (← requireMeshLocalPrefix) leaderAloc16

def getCommissionerDataset (flags : CommissionerDatasetFlags) : CommissionerM H Dataset := do
  let leader ← leaderAloc
  let (messageId, token) ← nextRequestIdentity
  let request ← datasetGetRequest .getCommissionerDataset messageId token (commissionerDatasetTlvTypes flags)
  let response ← executeProxied request leader
  Dataset.fromBytes response.payload

def setCommissionerDataset (dataset : Dataset) : CommissionerM H Unit := do
  let sessionId ← sessionIdRequired
  let dataset := stripManagedCommissionerTlvs dataset
  ensure (dataset.entries ≠ []) (Error.dataset "commissioner dataset has no settable TLVs")
  let leader ← leaderAloc
  let (messageId, token) ← nextRequestIdentity
  let request ← datasetSetRequest .setCommissionerDataset messageId token sessionId dataset
  let response ← executeProxied request leader
  checkStateResponse response true

def enableJoiner (joinerId : ByteVector 8) : CommissionerM H Unit := do
  let current ← getCommissionerDataset CommissionerDatasetFlags.steeringData
  let steeringData := (current.raw tlvSteeringData).getD []
  setCommissionerDataset (Dataset.default.setRaw tlvSteeringData (addJoinerToSteeringData steeringData joinerId.toList))

def enableAllJoiners (enable : Bool) : CommissionerM H Unit :=
  setCommissionerDataset (Dataset.default.setRaw tlvSteeringData (if enable then [0xff] else [0x00]))

end Model

section Relations

def Plain (message : CoapMessage) : Prop := message.uriPath ≠ .ok (some Uri.relayTx)

variable {message : CoapMessage}

theorem plain_of_uriPath {uriPath : Option Text} (h : message.uriPath = .ok uriPath)
    (hne : uriPath ≠ some Uri.relayTx) : Plain message := by
  intro hrelay
  rw [h] at hrelay
  exact hne (Except.ok.inj hrelay)

theorem plain_emptyAck (mid : UInt16) : Plain (.emptyAck mid) := plain_of_uriPath rfl nofun

theorem plain_of_udpTxRequest {mid dport : UInt16} {token inner : Bytes} {dest : Ipv6Addr}
    (h : udpTxRequest mid token dest dport inner = .ok message) : Plain message := by
  obtain ⟨payload, -, h⟩ := bind_ok.mp h
  obtain ⟨payload, -, h⟩ := bind_ok.mp h
  rw [postRequest_udpTx] at h
  cases h
  exact plain_of_uriPath rfl (by decide)

theorem plain_of_operation {op : CommissionerOperation}
    (h : message.uriPath = .ok (some op.uriPath)) (hne : op ≠ .sendToJoiner) : Plain message := by
  refine plain_of_uriPath h fun heq => hne ?_
  have hpath : op.uriPath = Uri.relayTx := Option.some.inj heq
  revert hpath
  cases op <;> decide

variable [Suite] {H : Type}

/-- What carries the request, on any route, is of the given kind. -/
def CarriedBy (H : Type) (P : CoapMessage → Prop) (request : CoapMessage) : Prop :=
  ∀ route (c c' : Commissioner H) message, (wireMessage request route).run c = .ok message c' → P message

theorem carriedBy_plain {operation : CommissionerOperation} {request : CoapMessage}
    (h : request.uriPath = .ok (some operation.uriPath)) (hne : operation ≠ .sendToJoiner) : CarriedBy H Plain request := by
  intro route c c' message hrun
  cases route with
  | direct =>
    cases hrun
    exact plain_of_operation h hne
  | proxied dest destPort =>
    obtain ⟨inner, -, hrun⟩ := lift_bind_ok.mp hrun
    obtain ⟨-, -, -, hrun⟩ := bind_eq_ok.mp hrun
    exact plain_of_udpTxRequest (lift_eq_ok.mp hrun).1

variable [JoinerHandler H] {P : CoapMessage → Prop} {R : Commissioner H → Commissioner H → Prop}

/-- What is kept by everything that a message may do when it arrives:
notifications are queued or relayed, and acknowledgements go out. -/
structure Handling (P : CoapMessage → Prop) (R : Commissioner H → Commissioner H → Prop) : Prop where
  refl : ∀ c, R c c
  trans : ∀ {c₁ c₂ c₃}, R c₁ c₂ → R c₂ c₃ → R c₁ c₃
  notified : ∀ notification peerAddr (c : Commissioner H), R c (queued notification peerAddr c)
  outgoing : ∀ {c c'}, Outgoing P c c' → R c c'
  relay : ∀ joinerUdpPort joinerRouterLocator joinerIid payload,
    Respects R (handleRelayRx joinerUdpPort joinerRouterLocator joinerIid payload : CommissionerM H Unit)
  ack : ∀ messageId, P (.emptyAck messageId)
  proxiedAck : ∀ {response : CoapMessage} {messageId token destination destinationPort inner udpTx},
    response.options = [] → response.encode = .ok inner →
      udpTxRequest messageId token destination destinationPort inner = .ok udpTx → P udpTx

/-- What is kept by everything an exchange may do, apart from its request, is
kept by the exchange: time passes and messages arrive. -/
structure Surroundings (P : CoapMessage → Prop) (R : Commissioner H → Commissioner H → Prop) : Prop
    extends Handling P R where
  idle : ∀ (c : Commissioner H) now network dtlsSession, c.now ≤ now → R c { c with now, network, dtlsSession }

namespace Handling

variable (h : Handling P R)

include h

theorem sendWire {message : CoapMessage} (hm : P message) :
    Respects R (Commissioners.sendWire message : CommissionerM H Unit) := fun c => h.outgoing (sendWire_outgoing hm c)

theorem nextRequestIdentity : Respects R (Commissioners.nextRequestIdentity : CommissionerM H _) :=
  fun c => h.outgoing (nextRequestIdentity_outgoing c)

theorem ackIfConfirmable (message : CoapMessage) : Respects R (Transport.ackIfConfirmable message : CommissionerM H Unit) :=
  fun c => h.outgoing (ackIfConfirmable_outgoing (h.ack _) c)

theorem wireMessage (req : CoapMessage) (route : MeshcopRoute) :
    Respects R (Exchanges.wireMessage req route : CommissionerM H CoapMessage) := by
  cases route with
  | direct => exact respects_pure h.refl _
  | proxied dest destPort =>
    refine .lift_bind h.refl fun inner => ?_
    exact .bind h.trans h.nextRequestIdentity fun _ => respects_lift h.refl _

theorem sendProxiedAck {resp : CoapMessage} (hresp : resp.options = []) (udpRx : UdpRx) :
    Respects R (Transport.sendProxiedAck resp udpRx : CommissionerM H Unit) := by
  intro c
  refine finalState_lift_bind (P := R c) (h.refl c) fun inner hinner => ?_
  have hrest : Respects R (do
      let (mid, token) ← Commissioners.nextRequestIdentity
      let udpTx ← udpTxRequest mid token udpRx.sourceAddress udpRx.sourcePort inner
      Commissioners.sendWire udpTx : CommissionerM H Unit) := by
    refine .bind h.trans h.nextRequestIdentity fun ⟨mid, token⟩ => ?_
    dsimp only
    intro c
    refine finalState_lift_bind (P := R c) (h.refl c) fun udpTx hudpTx => ?_
    exact h.sendWire (h.proxiedAck hresp hinner hudpTx) c
  exact hrest c

theorem queueNotification (note : MeshcopNotification) (peerAddr : IpAddr) :
    Respects R (Transport.queueNotification note peerAddr : CommissionerM H Unit) := by
  intro c
  rw [queueNotification_run]
  exact h.notified note peerAddr c

theorem acknowledgeProxied (inner : CoapMessage) (udpRx : UdpRx) :
    Respects R (Transport.acknowledgeProxied inner udpRx : CommissionerM H Unit) := by
  rw [Transport.acknowledgeProxied]
  split
  · exact h.sendProxiedAck rfl udpRx
  · exact respects_pure h.refl _

theorem routeUnsolicitedProxied (inner : CoapMessage) (udpRx : UdpRx) :
    Respects R (Transport.routeUnsolicitedProxied inner udpRx : CommissionerM H Bool) := by
  refine .lift_bind h.refl fun note => ?_
  cases note with
  | none => exact respects_pure h.refl _
  | some note =>
    refine .bind h.trans (h.queueNotification _ _) fun _ => ?_
    split
    · exact .bind h.trans (h.sendProxiedAck rfl _) fun _ => respects_pure h.refl _
    · exact respects_pure h.refl _

theorem routeUnsolicitedMessage (message : CoapMessage) :
    Respects R (Transport.routeUnsolicitedMessage message : CommissionerM H Bool) := by
  refine .lift_bind h.refl fun note => ?_
  cases note with
  | none => exact respects_pure h.refl _
  | some note =>
    refine .bind h.trans (respects_get h.refl) fun c => ?_
    split
    · exact .bind h.trans (h.relay _ _ _ _) fun _ => respects_pure h.refl _
    · exact .bind h.trans (h.queueNotification _ _) fun _ => respects_pure h.refl _

theorem unsolicitedMessage (expected : Option CoapMessage) (incoming : CoapMessage) :
    Respects R (Transport.unsolicitedMessage expected incoming : CommissionerM H (Option CoapMessage)) := by
  refine .bind h.trans (h.routeUnsolicitedMessage incoming) fun routed => ?_
  cases routed with
  | true => exact .bind h.trans (h.ackIfConfirmable incoming) fun _ => respects_pure h.refl _
  | false =>
    cases expected with
    | none => exact respects_pure h.refl _
    | some request => exact respects_throw h.refl _

theorem settle {acknowledge : CommissionerM H Unit} {unsolicited : CommissionerM H (Option CoapMessage)}
    (hacknowledge : Respects R acknowledge) (hunsolicited : Respects R unsolicited) (expected : Option CoapMessage)
    (message : CoapMessage) : Respects R (Transport.settle expected message acknowledge unsolicited) := by
  rcases settle_cases expected message with ⟨-, -, -, hsettle⟩ | ⟨-, -, -, -, hsettle⟩ | hunsolicits
  · rw [hsettle]
    exact respects_pure h.refl _
  · rw [hsettle]
    exact .bind h.trans hacknowledge fun _ => respects_pure h.refl _
  · rw [settle_of_unsolicited hunsolicits]
    exact hunsolicited

theorem handleIncoming (expected : Option CoapMessage) (incoming : CoapMessage) :
    Respects R (Transport.handleIncoming expected incoming : CommissionerM H (Option CoapMessage)) := by
  rw [handleIncoming_eq]
  split
  · exact respects_pure h.refl _
  · exact h.settle (h.ackIfConfirmable _) (h.unsolicitedMessage _ _) _ _
  · refine h.settle (h.acknowledgeProxied _ _) ?_ _ _
    exact .bind h.trans (h.routeUnsolicitedProxied _ _) fun _ => respects_pure h.refl _

end Handling

namespace Surroundings

variable (h : Surroundings P R)

include h

theorem ensureDtlsSession : Respects R (Exchanges.ensureDtlsSession : CommissionerM H Unit) := by
  intro c
  rw [Exchanges.ensureDtlsSession, get_bind]
  split
  · exact h.refl c
  · dsimp only
    split
    · exact h.idle c _ _ c.dtlsSession (Nat.le_add_right _ _)
    · split
      · exact h.idle c _ _ c.dtlsSession (Nat.le_add_right _ _)
      · exact h.idle c _ _ true (Nat.le_add_right _ _)

/-- By induction on what will arrive: every round takes one delivery. -/
theorem awaitResponse (req : CoapMessage) (inbox : List Delivery) (remaining : ℕ) :
    Respects R (Exchanges.awaitResponse req inbox remaining : CommissionerM H (Option CoapMessage)) := by
  have hidle : ∀ elapsed inbox, Respects R (modify fun c => { c with
      now := c.now + elapsed, network := { c.network with inbox } } : CommissionerM H PUnit) :=
    fun elapsed inbox => respects_modify fun c => h.idle c _ _ c.dtlsSession (Nat.le_add_right _ _)
  induction inbox generalizing remaining with
  | nil =>
    rw [Exchanges.awaitResponse]
    refine .bind h.trans (respects_modify fun c => ?_) fun _ => respects_throw h.refl _
    exact h.idle c _ c.network c.dtlsSession (Nat.le_add_right _ _)
  | cons delivery inbox ih =>
    rw [Exchanges.awaitResponse]
    split
    · exact .bind h.trans (hidle _ _) fun _ => respects_throw h.refl _
    · refine .bind h.trans (hidle _ _) fun _ => ?_
      refine .lift_bind h.refl fun responseWire => ?_
      refine .lift_bind h.refl fun message => ?_
      refine .bind h.trans (h.handleIncoming _ _) fun resp => ?_
      cases resp with
      | none => exact ih _
      | some resp => exact respects_pure h.refl _

theorem execute {req : CoapMessage} (hwire : CarriedBy H P req) (route : MeshcopRoute) (waitForResponse : Bool) :
    Respects R (Exchanges.execute req route waitForResponse : CommissionerM H (Option CoapMessage)) := by
  refine .bind h.trans (respects_get h.refl) fun c₀ => .lift_bind h.refl fun _ => ?_
  intro c
  cases hrun : (Exchanges.wireMessage req route).run c with
  | error e c₁ =>
    rw [bind_of_error hrun]
    exact (h.wireMessage req route).of_error hrun
  | ok message c₁ =>
    rw [bind_of_ok hrun]
    refine h.trans ((h.wireMessage req route).of_ok hrun) ?_
    have hrest : Respects R (do
        Exchanges.ensureDtlsSession
        Commissioners.sendWire message
        if waitForResponse then Exchanges.awaitResponse req (← get).network.inbox meshcopTimeout
        else return none : CommissionerM H (Option CoapMessage)) := by
      refine .bind h.trans h.ensureDtlsSession fun _ => ?_
      refine .bind h.trans (h.sendWire (hwire route c c₁ message hrun)) fun _ => ?_
      split
      · exact .bind h.trans (respects_get h.refl) fun c => h.awaitResponse req _ _
      · exact respects_pure h.refl _
    exact hrest c₁

theorem executeMeshcop {req : CoapMessage} (hwire : CarriedBy H P req) :
    Respects R (Exchanges.executeMeshcop req : CommissionerM H CoapMessage) := by
  refine .bind h.trans (h.execute hwire _ _) fun resp => ?_
  exact .lift_bind h.refl fun _ => respects_lift h.refl _

theorem executeProxied {req : CoapMessage} (hwire : CarriedBy H P req) (dest : Ipv6Addr) :
    Respects R (Exchanges.executeProxied req dest : CommissionerM H CoapMessage) := by
  refine .bind h.trans (h.execute hwire _ _) fun resp => ?_
  exact .lift_bind h.refl fun _ => respects_lift h.refl _

theorem built {α : Type} {built : Except Error CoapMessage} {next : CoapMessage → CommissionerM H α}
    (hnext : ∀ req, built = .ok req → Respects R (next req)) : Respects R (liftM built >>= next) := by
  intro c
  refine finalState_lift_bind (P := R c) (h.refl c) fun req hreq => ?_
  exact hnext req hreq c

theorem getRawActiveDataset (hget : ∀ {mid token getTlvTypes req},
      datasetGetRequest .getActiveDataset mid token getTlvTypes = .ok req → CarriedBy H P req)
    (flags : DatasetFlags) : Respects R (Exchanges.getRawActiveDataset flags : CommissionerM H Bytes) := by
  refine .bind h.trans h.nextRequestIdentity fun ⟨mid, token⟩ => ?_
  refine h.built fun req hreq => ?_
  exact .bind h.trans (h.executeMeshcop (hget hreq)) fun _ => respects_pure h.refl _

theorem requireMeshLocalPrefix (hget : ∀ {messageId token getTlvTypes request},
      datasetGetRequest .getActiveDataset messageId token getTlvTypes = .ok request → CarriedBy H P request)
    (hcached : ∀ (c : Commissioner H) meshLocalPrefix, R c { c with meshLocalPrefix }) :
    Respects R (Exchanges.requireMeshLocalPrefix : CommissionerM H (ByteVector 8)) := by
  refine .bind h.trans (respects_get h.refl) fun c => ?_
  split
  · exact respects_pure h.refl _
  · refine .bind h.trans (h.getRawActiveDataset hget _) fun raw => ?_
    refine .lift_bind h.refl fun dataset => ?_
    refine .lift_bind h.refl fun found => ?_
    refine .lift_bind h.refl fun meshLocalPrefix => ?_
    refine .lift_bind h.refl fun _ => ?_
    exact .bind h.trans (respects_modify fun c => hcached c _) fun _ => respects_pure h.refl _

end Surroundings

/-- What is kept by everything an exchange may do is kept by the exchange: time
passes, data arrives, plain messages go out, and notifications are relayed. -/
structure Ambient (R : Commissioner H → Commissioner H → Prop) : Prop where
  refl : ∀ c, R c c
  trans : ∀ {c₁ c₂ c₃}, R c₁ c₂ → R c₂ c₃ → R c₁ c₃
  idle : ∀ (c : Commissioner H) now network dtlsSession meshLocalPrefix events, c.now ≤ now →
    R c { c with now, network, dtlsSession, meshLocalPrefix, events }
  outgoing : ∀ {c c'}, Outgoing Plain c c' → R c c'
  relay : ∀ joinerUdpPort joinerRouterLocator joinerIid payload,
    Respects R (handleRelayRx joinerUdpPort joinerRouterLocator joinerIid payload : CommissionerM H Unit)

theorem Ambient.surroundings (h : Ambient R) : Surroundings Plain R where
  refl := h.refl
  trans := h.trans
  idle c _ _ _ hnow := h.idle c _ _ _ c.meshLocalPrefix c.events hnow
  notified _ _ c := h.idle c c.now c.network c.dtlsSession _ _ le_rfl
  outgoing := h.outgoing
  relay := h.relay
  ack := plain_emptyAck
  proxiedAck _ _ hudpTx := plain_of_udpTxRequest hudpTx

variable (h : Ambient R)

include h

theorem respects_requireMeshLocalPrefix : Respects R (requireMeshLocalPrefix : CommissionerM H (ByteVector 8)) :=
  h.surroundings.requireMeshLocalPrefix
    (fun hreq => carriedBy_plain (uriPath_of_datasetGetRequest hreq) (by decide))
    fun c _ => h.idle c c.now c.network c.dtlsSession _ c.events le_rfl

theorem respects_leaderAloc : Respects R (leaderAloc : CommissionerM H Ipv6Addr) :=
  .bind h.trans (respects_requireMeshLocalPrefix h) fun _ => respects_pure h.refl _

theorem respects_getCommissionerDataset (flags : CommissionerDatasetFlags) :
    Respects R (getCommissionerDataset flags : CommissionerM H Dataset) := by
  refine .bind h.trans (respects_leaderAloc h) fun leader => ?_
  refine .bind h.trans h.surroundings.nextRequestIdentity fun ⟨messageId, token⟩ => ?_
  refine h.surroundings.built fun request hreq => ?_
  have hwire := carriedBy_plain (H := H) (uriPath_of_datasetGetRequest hreq) (by decide)
  exact .bind h.trans (h.surroundings.executeProxied hwire _) fun _ => respects_lift h.refl _

theorem respects_setCommissionerDataset (dataset : Dataset) :
    Respects R (setCommissionerDataset dataset : CommissionerM H Unit) := by
  refine .bind h.trans (.bind h.trans (respects_get h.refl) fun c => respects_lift h.refl _) fun sessionId => ?_
  refine .lift_bind h.refl fun _ => .bind h.trans (respects_leaderAloc h) fun leader => ?_
  refine .bind h.trans h.surroundings.nextRequestIdentity fun ⟨messageId, token⟩ => ?_
  refine h.surroundings.built fun request hreq => ?_
  have hwire := carriedBy_plain (H := H) (uriPath_of_datasetSetRequest hreq) (by decide)
  exact .bind h.trans (h.surroundings.executeProxied hwire _) fun _ => respects_lift h.refl _

theorem respects_enableJoiner (jid : ByteVector 8) : Respects R (enableJoiner jid : CommissionerM H Unit) :=
  .bind h.trans (respects_getCommissionerDataset h _) fun _ => respects_setCommissionerDataset h _

theorem respects_enableAllJoiners (enable : Bool) : Respects R (enableAllJoiners enable : CommissionerM H Unit) :=
  respects_setCommissionerDataset h _

end Relations

end ThreadCommissioner.Exchanges
