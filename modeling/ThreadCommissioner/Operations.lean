import ThreadCommissioner.Exchanges
import ThreadCommissioner.Requests

namespace ThreadCommissioner.Operations

open Builders ByteStrings Coap Commissioners Computations Datasets Diagnostics Errors Exchanges Incoming JoinerSessions
open List Meshcop Notifications Primitives RelaySessions Requests Texts Tlvs Transport

def minKeepaliveInterval : ℕ := 30 * 10 ^ 9

def maxKeepaliveInterval : ℕ := 45 * 10 ^ 9

/-- What the operations read of the configuration. -/
structure CommissionerConfig where
  commissionerId : Text
  keepaliveInterval : ℕ
  enableCcm : Bool

def CommissionerConfig.validate (config : CommissionerConfig) : Except Error Unit :=
  ensure (minKeepaliveInterval ≤ config.keepaliveInterval ∧ config.keepaliveInterval ≤ maxKeepaliveInterval)
    (.configuration "keepalive interval must be between 30 and 45 seconds")

structure PetitionResponse where
  sessionId : UInt16
  existingCommissionerId : Option Text
  deriving DecidableEq

def resultCodeFromMeshcopState : MeshcopState → ResultCode
  | .accept => .accept
  | .pending => .pending
  | .reject => .reject

section Model

variable [Suite] {H : Type}

/-- A handle as `connect` returns it: its socket is bound, nothing else has
happened. -/
def connected (borderAgent : IpAddr) (now : ℕ) (rng : Rng) (network : Network) : Commissioner H where
  borderAgent := borderAgent
  state := .connected
  sessionId := none
  dtlsSession := false
  nextMessageId := 0
  events := []
  meshLocalPrefix := none
  joinerHandler := none
  joinerSessions := fun _ => none
  now := now
  rng := rng
  sent := []
  network := network

/-- Whether the configuration is let through to the socket, whose failures are
given. -/
def connect (config : CommissionerConfig) (socket : Except Error Unit) (borderAgent : IpAddr) (now : ℕ) (rng : Rng)
    (network : Network) : Except Error (Commissioner H) := do
  config.validate
  ensure (config.enableCcm = false) (Error.unsupported "CCM is reserved but deferred")
  socket
  return connected borderAgent now rng network

def disconnected (c : Commissioner H) : Commissioner H :=
  { c with
    state := .disabled
    sessionId := none
    dtlsSession := false
    meshLocalPrefix := none
    joinerSessions := fun _ => none }

def disconnect : CommissionerM H Unit := modify disconnected

def ensureCanPetition : CommissionerM H Unit := do
  match (← get).state with
  | .connected => return ()
  | .disabled => throw (.invalidState "commissioner is disconnected")
  | .petitioning => throw (.invalidState "petition is already active")
  | .active => throw (.invalidState "commissioner is already active")

/-- `Err(err) => { self.state = Connected; return Err(err); }`. -/
def orConnected {α : Type} (x : CommissionerM H α) : CommissionerM H α := fun c =>
  match x.run c with
  | .ok a c => .ok a c
  | .error e c => .error e { c with state := .connected }

def tryRecvQueuedEvent : CommissionerM H (Option CommissionerEvent) := do
  let c ← get
  set { c with events := c.events.tail }
  return c.events.head?

def requestToken : CommissionerM H Unit := throw (.unsupported "CCM token request is deferred")

def setToken : CommissionerM H Unit := throw (.unsupported "CCM token support is deferred")

variable [JoinerHandler H]

def concludePetition (petition : MeshcopPetitionResponse) : CommissionerM H PetitionResponse :=
  match petition.state with
  | .accept =>
    match petition.sessionId with
    | none => orConnected (throw (.invalidState "petition accepted without a session ID"))
    | some sessionId => do
      modify fun c => { c with sessionId := some sessionId, state := .active }
      return { sessionId, existingCommissionerId := petition.existingCommissionerId }
  | .pending => orConnected (throw (.invalidState "petition response is pending"))
  | .reject => orConnected (throw (.petitionRejected petition.existingCommissionerId))

/-- A request that cannot be built leaves the state as it is then. -/
def petition (config : CommissionerConfig) : CommissionerM H PetitionResponse := do
  ensureCanPetition
  modify fun c => { c with state := .petitioning }
  let (messageId, token) ← nextRequestIdentity
  let request ← petitionRequest messageId token config.commissionerId
  let response ← orConnected (executeMeshcop request)
  let petition ← orConnected (liftM (parsePetitionResponse response))
  concludePetition petition

def keepAlive : CommissionerM H ResultCode := do
  let sessionId ← sessionIdRequired
  let (messageId, token) ← nextRequestIdentity
  let request ← keepAliveRequest messageId token sessionId true
  let response ← executeMeshcop request
  let state ← okOr (← parseStateResponse response true) (Error.invalidState "keepalive response did not include state")
  let result := resultCodeFromMeshcopState state
  queueEvent (.keepAliveResponse result)
  if state = .reject then modify fun c => { c with state := .connected, sessionId := none }
  return result

def resign : CommissionerM H Unit := do
  let sessionId ← sessionIdRequired
  let (messageId, token) ← nextRequestIdentity
  let request ← keepAliveRequest messageId token sessionId false
  let response ← executeMeshcop request
  let state ← parseStateResponse response true
  ensure (state ≠ some .pending) (Error.invalidState "resign response is pending")
  disconnect

/-- The loop of `next_event`. Every receive has the whole timeout. -/
def awaitEvent : List Delivery → CommissionerM H (Option CommissionerEvent)
  | [] => do
    modify fun c => { c with now := c.now + meshcopTimeout }
    throw (.dtls (.timeout "DTLS receive timed out"))
  | delivery :: inbox =>
    if meshcopTimeout < delivery.elapsed then do
      modify fun c => { c with
        now := c.now + meshcopTimeout
        network := { c.network with
          inbox := { delivery with elapsed := delivery.elapsed - meshcopTimeout } :: inbox } }
      throw (.dtls (.timeout "DTLS receive timed out"))
    else do
      modify fun c => { c with now := c.now + delivery.elapsed, network := { c.network with inbox } }
      let responseWire ← delivery.data
      let message ← CoapMessage.decode responseWire
      let _ ← handleIncoming none message
      match ← tryRecvQueuedEvent with
      | some event => return some event
      | none => awaitEvent inbox

def nextEvent : CommissionerM H (Option CommissionerEvent) := do
  match ← tryRecvQueuedEvent with
  | some event => return some event
  | none =>
    ensure ((← get).dtlsSession = true) (Error.invalidState "DTLS session is not established")
    awaitEvent (← get).network.inbox

def executeStateOperation (request : CoapMessage) (stateMandatory : Bool) : CommissionerM H Unit := do
  let response ← executeMeshcop request
  checkStateResponse response stateMandatory

/-- A response is waited for only when the request is confirmable. -/
def executeProxiedCommand (request : CoapMessage) (destination : Ipv6Addr) : CommissionerM H Unit := do
  match ← execute request (.proxied destination defaultMmPort) (request.ty = .confirmable) with
  | some response => checkStateResponse response false
  | none => return ()

def executeNoResponse (request : CoapMessage) : CommissionerM H Unit := do
  let _ ← execute request .direct false

def primaryBbrAloc : CommissionerM H Ipv6Addr := do
  return alocAddress (← requireMeshLocalPrefix) primaryBbrAloc16

def getActiveDataset (flags : DatasetFlags) : CommissionerM H Dataset := do
  Dataset.fromBytes (← getRawActiveDataset flags)

def readDataset (operation : CommissionerOperation) (getTlvTypes : List UInt8) : CommissionerM H Dataset := do
  let (messageId, token) ← nextRequestIdentity
  let request ← datasetGetRequest operation messageId token getTlvTypes
  let response ← executeMeshcop request
  Dataset.fromBytes response.payload

def getPendingDataset (flags : DatasetFlags) : CommissionerM H Dataset :=
  readDataset .getPendingDataset (pendingDatasetTlvTypes flags)

def getBbrDataset (flags : CommissionerDatasetFlags) : CommissionerM H Dataset :=
  readDataset .getBbrDataset (commissionerDatasetTlvTypes flags)

def writeDataset (operation : CommissionerOperation) (required : List (UInt8 × String)) (dataset : Dataset) :
    CommissionerM H Unit := do
  requireDatasetTlvs dataset required
  let sessionId ← sessionIdRequired
  let (messageId, token) ← nextRequestIdentity
  let request ← datasetSetRequest operation messageId token sessionId dataset
  executeStateOperation request true

def setActiveDataset (dataset : Dataset) : CommissionerM H Unit :=
  writeDataset .setActiveDataset [(tlvActiveTimestamp, "Active Timestamp")] dataset

def setPendingDataset (dataset : Dataset) : CommissionerM H Unit :=
  writeDataset .setPendingDataset
    [(tlvActiveTimestamp, "Active Timestamp"), (tlvPendingTimestamp, "Pending Timestamp"), (tlvDelayTimer, "Delay Timer")]
    dataset

def setBbrDataset (dataset : Dataset) : CommissionerM H Unit := writeDataset .setBbrDataset [] dataset

/-- `coaps://[{pbbr}]/c/pg`. -/
def retrievalUri [AddressTexts] (pbbr : Ipv6Addr) : Bytes :=
  ascii "coaps://[" ++ (AddressTexts.display pbbr).bytes ++ ascii "]" ++ Uri.mgmtPendingGet.bytes

def setSecurePendingDataset [AddressTexts] (maxRetrievalTimer : UInt32) (dataset : Dataset) : CommissionerM H Unit := do
  requireDatasetTlvs dataset [(tlvPendingTimestamp, "Pending Timestamp"), (tlvDelayTimer, "Delay Timer")]
  let sessionId ← sessionIdRequired
  let pbbr ← primaryBbrAloc
  let (messageId, token) ← nextRequestIdentity
  let request ← securePendingSetRequest messageId token sessionId maxRetrievalTimer (retrievalUri pbbr) dataset
  let response ← executeProxied request pbbr
  checkStateResponse response true

/-- The commands that are forwarded to a destination under the session. -/
def proxiedCommand (destination : Ipv6Addr) (build : UInt16 → UInt16 → Bytes → Except Error CoapMessage) :
    CommissionerM H Unit := do
  let sessionId ← sessionIdRequired
  let (messageId, token) ← nextRequestIdentity
  let request ← build sessionId messageId token
  executeProxiedCommand request destination

def announceBegin (channelMask : UInt32) (count : UInt8) (periodMs : UInt16) (destination : Ipv6Addr) :
    CommissionerM H Unit :=
  proxiedCommand destination fun sessionId messageId token =>
    announceBeginRequest messageId token sessionId channelMask count periodMs (!isMulticast destination)

def panIdQuery (channelMask : UInt32) (panId : UInt16) (destination : Ipv6Addr) : CommissionerM H Unit :=
  proxiedCommand destination fun sessionId messageId token =>
    panIdQueryRequest messageId token sessionId channelMask panId (!isMulticast destination)

def energyScan (channelMask : UInt32) (count : UInt8) (periodMs scanDurationMs : UInt16) (destination : Ipv6Addr) :
    CommissionerM H Unit :=
  proxiedCommand destination fun sessionId messageId token =>
    energyScanRequest messageId token sessionId
      { channelMask, count, periodMs, scanDurationMs, confirmable := !isMulticast destination }

def commandReenroll (destination : Ipv6Addr) : CommissionerM H Unit :=
  proxiedCommand destination fun sessionId messageId token =>
    sessionCommandRequest messageId token .reenroll sessionId (!isMulticast destination)

def commandDomainReset (destination : Ipv6Addr) : CommissionerM H Unit :=
  proxiedCommand destination fun sessionId messageId token =>
    sessionCommandRequest messageId token .domainReset sessionId (!isMulticast destination)

def commandMigrate (destination : Ipv6Addr) (designatedNetwork : Text) : CommissionerM H Unit :=
  proxiedCommand destination fun sessionId messageId token =>
    migrateRequest messageId token sessionId designatedNetwork (!isMulticast destination)

def parseAddresses [AddressTexts] (addresses : List Text) : Except Error (List Ipv6Addr) :=
  addresses.mapM fun address =>
    let printed := shown address
    okOr (AddressTexts.parse address) (Error.dataset s!"{printed} is not a valid IPv6 address")

def registerMulticastListener [AddressTexts] (addresses : List Text) (timeout : UInt32) : CommissionerM H UInt8 := do
  let sessionId ← sessionIdRequired
  let addresses ← parseAddresses addresses
  let pbbr ← primaryBbrAloc
  let (messageId, token) ← nextRequestIdentity
  let request ← multicastListenerRequest messageId token sessionId addresses timeout
  let response ← executeProxied request pbbr
  let tlvs ← ofTlv (TlvSet.parse response.payload)
  match ← okOr (tlvs.lastValue threadTlvStatus) (Error.invalidState "MLR response did not include status") with
  | [status] => return status
  | _ => throw (.dataset "MLR Status TLV must be 1 byte")

def orLeader : Option Ipv6Addr → CommissionerM H Ipv6Addr
  | some destination => pure destination
  | none => leaderAloc

/-- The diagnostic operations whose destination is the leader by default. -/
def diagnostic (operation : CommissionerOperation) (destination : Option Ipv6Addr) (flags : UInt64) :
    CommissionerM H Unit := do
  let _ ← sessionIdRequired
  let destination ← orLeader destination
  let (messageId, token) ← nextRequestIdentity
  let request ← diagnosticRequest messageId token operation flags true
  let response ← executeProxied request destination
  checkStateResponse response false

def diagnosticGet (destination : Option Ipv6Addr) (flags : UInt64) : CommissionerM H Unit :=
  diagnostic .diagnosticGet destination flags

def diagnosticReset (destination : Option Ipv6Addr) (flags : UInt64) : CommissionerM H Unit :=
  diagnostic .diagnosticReset destination flags

def getDiagnostics (destination : Ipv6Addr) (flags : UInt64) : CommissionerM H NetDiagData := do
  let _ ← sessionIdRequired
  ensure (isMulticast destination = false)
    (Error.invalidState "get_diagnostics requires a unicast destination; use diagnostic_get for a query")
  let (messageId, token) ← nextRequestIdentity
  let request ← diagnosticRequest messageId token .diagnosticGetUnicast flags true
  let response ← executeProxied request destination
  NetDiagData.decode response.payload

def sendToJoiner (joinerId : Bytes) (port : UInt16) (payload : Bytes) : CommissionerM H Unit := do
  let (messageId, token) ← nextRequestIdentity
  let request ← relayTxRequest messageId token joinerId port 0 payload
  executeNoResponse request

end Model

section Calls

/-- The operations on a handle. -/
inductive Call (H : Type)
  | petition
  | keepAlive
  | resign
  | disconnect
  | nextEvent
  | requestToken
  | setToken
  | setJoinerHandler (handler : H)
  | clearJoinerHandler
  | getRawActiveDataset (flags : DatasetFlags)
  | getActiveDataset (flags : DatasetFlags)
  | getPendingDataset (flags : DatasetFlags)
  | getBbrDataset (flags : CommissionerDatasetFlags)
  | getCommissionerDataset (flags : CommissionerDatasetFlags)
  | setActiveDataset (dataset : Dataset)
  | setPendingDataset (dataset : Dataset)
  | setSecurePendingDataset (maxRetrievalTimer : UInt32) (dataset : Dataset)
  | setCommissionerDataset (dataset : Dataset)
  | setBbrDataset (dataset : Dataset)
  | enableJoiner (joinerId : ByteVector 8)
  | enableAllJoiners (enable : Bool)
  | announceBegin (channelMask : UInt32) (count : UInt8) (periodMs : UInt16) (destination : Ipv6Addr)
  | panIdQuery (channelMask : UInt32) (panId : UInt16) (destination : Ipv6Addr)
  | energyScan (channelMask : UInt32) (count : UInt8) (periodMs scanDurationMs : UInt16) (destination : Ipv6Addr)
  | registerMulticastListener (addresses : List Text) (timeout : UInt32)
  | commandReenroll (destination : Ipv6Addr)
  | commandDomainReset (destination : Ipv6Addr)
  | commandMigrate (destination : Ipv6Addr) (designatedNetwork : Text)
  | diagnosticGet (destination : Option Ipv6Addr) (flags : UInt64)
  | diagnosticReset (destination : Option Ipv6Addr) (flags : UInt64)
  | getDiagnostics (destination : Ipv6Addr) (flags : UInt64)
  | sendToJoiner (joinerId : Bytes) (port : UInt16) (payload : Bytes)

/-- What an operation returns when it succeeds. -/
inductive Reply
  | done
  | petitioned (response : PetitionResponse)
  | result (code : ResultCode)
  | event (event : Option CommissionerEvent)
  | raw (bytes : Bytes)
  | dataset (dataset : Dataset)
  | status (status : UInt8)
  | diagnostics (data : NetDiagData)

variable [Suite] [AddressTexts] {H : Type} [JoinerHandler H]

def quietly (x : CommissionerM H Unit) : CommissionerM H Reply := do
  x
  return .done

def Call.perform (config : CommissionerConfig) : Call H → CommissionerM H Reply
  | .petition => do return .petitioned (← Operations.petition config)
  | .keepAlive => do return .result (← Operations.keepAlive)
  | .resign => quietly Operations.resign
  | .disconnect => quietly Operations.disconnect
  | .nextEvent => do return .event (← Operations.nextEvent)
  | .requestToken => quietly Operations.requestToken
  | .setToken => quietly Operations.setToken
  | .setJoinerHandler handler => quietly (Commissioners.setJoinerHandler handler)
  | .clearJoinerHandler => quietly Commissioners.clearJoinerHandler
  | .getRawActiveDataset flags => do return .raw (← Exchanges.getRawActiveDataset flags)
  | .getActiveDataset flags => do return .dataset (← Operations.getActiveDataset flags)
  | .getPendingDataset flags => do return .dataset (← Operations.getPendingDataset flags)
  | .getBbrDataset flags => do return .dataset (← Operations.getBbrDataset flags)
  | .getCommissionerDataset flags => do return .dataset (← Exchanges.getCommissionerDataset flags)
  | .setActiveDataset dataset => quietly (Operations.setActiveDataset dataset)
  | .setPendingDataset dataset => quietly (Operations.setPendingDataset dataset)
  | .setSecurePendingDataset maxRetrievalTimer dataset =>
    quietly (Operations.setSecurePendingDataset maxRetrievalTimer dataset)
  | .setCommissionerDataset dataset => quietly (Exchanges.setCommissionerDataset dataset)
  | .setBbrDataset dataset => quietly (Operations.setBbrDataset dataset)
  | .enableJoiner joinerId => quietly (Exchanges.enableJoiner joinerId)
  | .enableAllJoiners enable => quietly (Exchanges.enableAllJoiners enable)
  | .announceBegin channelMask count periodMs destination =>
    quietly (Operations.announceBegin channelMask count periodMs destination)
  | .panIdQuery channelMask panId destination => quietly (Operations.panIdQuery channelMask panId destination)
  | .energyScan channelMask count periodMs scanDurationMs destination =>
    quietly (Operations.energyScan channelMask count periodMs scanDurationMs destination)
  | .registerMulticastListener addresses timeout => do
    return .status (← Operations.registerMulticastListener addresses timeout)
  | .commandReenroll destination => quietly (Operations.commandReenroll destination)
  | .commandDomainReset destination => quietly (Operations.commandDomainReset destination)
  | .commandMigrate destination designatedNetwork =>
    quietly (Operations.commandMigrate destination designatedNetwork)
  | .diagnosticGet destination flags => quietly (Operations.diagnosticGet destination flags)
  | .diagnosticReset destination flags => quietly (Operations.diagnosticReset destination flags)
  | .getDiagnostics destination flags => do return .diagnostics (← Operations.getDiagnostics destination flags)
  | .sendToJoiner joinerId port payload => quietly (Operations.sendToJoiner joinerId port payload)

/-- One operation of a run, and what the handle meets from when it is called. -/
structure Step (H : Type) where
  elapsed : ℕ
  network : Network
  call : Call H

def Step.perform (config : CommissionerConfig) (step : Step H) : CommissionerM H Reply := do
  modify fun c => { c with now := c.now + step.elapsed, network := step.network }
  step.call.perform config

end Calls

section Relaying

theorem notificationToEvent_eq_datasetChanged {note : MeshcopNotification} {peerAddr : IpAddr}
    (h : notificationToEvent note peerAddr = .datasetChanged) : note = .datasetChanged := by
  cases note with
  | datasetChanged => rfl
  | diagGetAnswer | panIdConflict | energyReport | relayRx => cases h

variable [Suite] {H : Type} {P : CoapMessage → Prop} {c c₁ c₂ c₃ : Commissioner H}

/-- What a relayed payload may change, and what is said of the messages that go
out. -/
def Relayed (P : CoapMessage → Prop) (c c' : Commissioner H) : Prop :=
  ∃ joinerHandler joinerSessions rng later, .datasetChanged ∉ later ∧
    Outgoing P { c with joinerHandler, joinerSessions, rng, events := c.events ++ later } c'

theorem Relayed.of_outgoing (h : Outgoing P c₁ c₂) : Relayed P c₁ c₂ := by
  refine ⟨c₁.joinerHandler, c₁.joinerSessions, c₁.rng, [], not_mem_nil, ?_⟩
  rwa [append_nil]

theorem Relayed.refl (c : Commissioner H) : Relayed P c c := .of_outgoing (.refl c)

theorem Relayed.of_set (c : Commissioner H) (joinerHandler : Option H) (joinerSessions : SessionMap) (rng : Rng) :
    Relayed P c { c with joinerHandler, joinerSessions, rng } := by
  refine ⟨joinerHandler, joinerSessions, rng, [], not_mem_nil, ?_⟩
  rw [append_nil]
  exact .refl _

theorem Relayed.trans (h : Relayed P c₁ c₂) (h' : Relayed P c₂ c₃) : Relayed P c₁ c₃ := by
  obtain ⟨_, _, _, later, hlater, mid, sends, outs, rfl, hall⟩ := h
  obtain ⟨handler, sessions, rng, later', hlater', messageId', sends', outgoing', rfl, hall'⟩ := h'
  refine ⟨handler, sessions, rng, later ++ later', not_mem_append hlater hlater', messageId', sends',
    outs ++ outgoing', ?_, forall_mem_append.mpr ⟨hall, hall'⟩⟩
  simp only [append_assoc]

def RelaysAre (P : CoapMessage → Prop) : Prop :=
  ∀ {messageId token joinerIid joinerUdpPort joinerRouterLocator payload joinerRouterKek message},
    relayTxRequestWithKek messageId token joinerIid joinerUdpPort joinerRouterLocator payload joinerRouterKek =
      .ok message → P message

theorem relayTransmission_relayed (h : RelaysAre P) (sess : JoinerSession) (tx : Bytes × Option (ByteVector 16)) :
    Respects (Outgoing P) (relayTransmission sess tx : CommissionerM H Unit) := by
  refine .bind .trans nextRequestIdentity_outgoing fun ⟨mid, token⟩ c => ?_
  exact finalState_lift_bind (P := Outgoing P c) (.refl c) fun relay hrelay => sendWire_outgoing (h hrelay) c

variable [JoinerHandler H]

theorem notMem_dispatchEvents {report : CommissionerEvent} {jid : ByteVector 8} (hconn : report ≠ .joinerConnected jid)
    (hfinalized : ∀ acc info, report ≠ .joinerFinalized jid acc info) (sess : JoinerSession)
    (evs : List JoinerSessionEvent) {d : Dispatch H} (h : report ∉ d.queuedEvents) :
    report ∉ (dispatchEvents sess jid evs d).queuedEvents := by
  induction evs generalizing d with
  | nil => exact h
  | cons event evs ih =>
    cases event with
    | transmit datagram includeKek =>
      rw [dispatchEvents]
      split
      · split
        · exact ih h
        · exact h
      · exact ih h
    | connected => exact ih (by simp [h, hconn])
    | finalized acc info => exact ih (by simp [h, hfinalized])

theorem driveSession_relayed (h : RelaysAre P) (jid : ByteVector 8) (sess : JoinerSession) (handler : H)
    (payload : Bytes) : Respects (Relayed P) (driveSession jid sess handler payload) := by
  intro c
  cases hrun : (receive payload).run ⟨sess, handler, c.rng⟩ with
  | error e party =>
    rw [driveSession_of_error hrun]
    exact .of_set c _ _ _
  | ok events party =>
    have hlater : .datasetChanged ∉
        (dispatchEvents party.session jid events ⟨party.handler, [], [], false⟩).queuedEvents :=
      notMem_dispatchEvents (by simp) (by simp) party.session events (d := ⟨party.handler, [], [], false⟩)
        not_mem_nil
    have hout : Outgoing P (dispatched c jid events party)
        (finalState ((driveSession jid sess handler payload).run c)) := by
      rw [driveSession_of_ok hrun]
      split
      · exact .refl _
      · exact Respects.forM .refl .trans (relayTransmission_relayed h sess) _ _
    exact ⟨_, _, _, _, hlater, hout⟩

theorem handleRelayRx_relayed (h : RelaysAre P) (port loc : UInt16) (iid : ByteVector 8) (payload : Bytes) :
    Respects (Relayed P) (handleRelayRx port loc iid payload : CommissionerM H Unit) := by
  refine .bind .trans (respects_modify fun c => .of_set c _ _ _) fun _ c => ?_
  rw [get_bind]
  dsimp only
  split
  · exact .refl c
  · split
    · exact driveSession_relayed h _ _ _ _ c
    · split
      · exact .of_set c _ _ _
      · rw [set_bind]
        exact .trans (.of_set c _ _ _) (driveSession_relayed h _ _ _ _ _)

/-- What a change of all that an exchange may change keeps: the prefix stays
only if no dataset change is queued. -/
theorem surroundings_of_volatile {R : Commissioner H → Commissioner H → Prop} (hr : ∀ c, R c c)
    (ht : ∀ {c₁ c₂ c₃}, R c₁ c₂ → R c₂ c₃ → R c₁ c₃) (hrelays : RelaysAre P) (hack : ∀ messageId, P (.emptyAck messageId))
    (hproxied : ∀ {response : CoapMessage} {messageId token dest dport inner udpTx},
      response.options = [] → response.encode = .ok inner →
        udpTxRequest messageId token dest dport inner = .ok udpTx → P udpTx)
    (h : ∀ (c : Commissioner H) now network dtlsSession nextMessageId meshLocalPrefix joinerHandler joinerSessions rng
      later outgoing, c.now ≤ now → (∀ message ∈ outgoing, P message) →
        (meshLocalPrefix = none ∨ meshLocalPrefix = c.meshLocalPrefix ∧ .datasetChanged ∉ later) → R c { c with
            now, network, dtlsSession, nextMessageId, meshLocalPrefix, joinerHandler, joinerSessions, rng
            events := c.events ++ later
            sent := c.sent ++ outgoing }) : Surroundings P R where
  refl := hr
  trans := ht
  idle c now network dtlsSession hnow := by
    have hkept := h c now network dtlsSession c.nextMessageId c.meshLocalPrefix c.joinerHandler c.joinerSessions c.rng []
      [] hnow (forall_mem_nil _) (.inr ⟨rfl, not_mem_nil⟩)
    simpa only [append_nil] using hkept
  notified notification peerAddr c := by
    have hkept := h c c.now c.network c.dtlsSession c.nextMessageId
      (if notification = .datasetChanged then none else c.meshLocalPrefix) c.joinerHandler c.joinerSessions c.rng
      [notificationToEvent notification peerAddr] [] le_rfl (forall_mem_nil _) ?_
    · simpa only [append_nil, queued] using hkept
    · by_cases hchanged : notification = .datasetChanged
      · exact .inl (if_pos hchanged)
      · refine .inr ⟨if_neg hchanged, fun hmem => hchanged ?_⟩
        exact notificationToEvent_eq_datasetChanged (mem_singleton.mp hmem).symm
  outgoing := by
    rintro c _ ⟨messageId, sends, outgoing, rfl, hall⟩
    have hkept := h c c.now { c.network with sends } c.dtlsSession messageId c.meshLocalPrefix c.joinerHandler
      c.joinerSessions c.rng [] outgoing le_rfl hall (.inr ⟨rfl, not_mem_nil⟩)
    simpa only [append_nil] using hkept
  relay _ _ _ _ c := by
    obtain ⟨handler, sessions, rng, later, hlater, messageId, sends, outgoing, heq, hall⟩ :=
      handleRelayRx_relayed hrelays _ _ _ _ c
    rw [heq]
    exact h c c.now { c.network with sends } c.dtlsSession messageId c.meshLocalPrefix handler sessions rng later outgoing
      le_rfl hall (.inr ⟨rfl, hlater⟩)
  ack := hack
  proxiedAck := hproxied

end Relaying

section Frames

variable [Suite] {H : Type}

theorem sessionIdRequired_reads : Respects Eq (sessionIdRequired : CommissionerM H UInt16) :=
  .bind .trans (respects_get .refl) fun _ => respects_lift .refl _

theorem carriedBy_true (request : CoapMessage) : CarriedBy H (fun _ => True) request := fun _ _ _ _ _ => trivial

variable [JoinerHandler H] {R S : Commissioner H → Commissioner H → Prop}

abbrev Unconditional (R : Commissioner H → Commissioner H → Prop) : Prop := Surroundings (fun _ => True) R

theorem unconditional_of_volatile (hr : ∀ c, R c c) (ht : ∀ {c₁ c₂ c₃}, R c₁ c₂ → R c₂ c₃ → R c₁ c₃)
    (h : ∀ (c : Commissioner H) now network dtlsSession nextMessageId meshLocalPrefix joinerHandler joinerSessions rng
      later outgoing, c.now ≤ now →
        (meshLocalPrefix = none ∨ meshLocalPrefix = c.meshLocalPrefix ∧ .datasetChanged ∉ later) → R c { c with
            now, network, dtlsSession, nextMessageId, meshLocalPrefix, joinerHandler, joinerSessions, rng
            events := c.events ++ later
            sent := c.sent ++ outgoing }) : Unconditional R :=
  surroundings_of_volatile hr ht (fun _ => trivial) (fun _ => trivial) (fun _ _ _ => trivial)
    fun c _ _ _ _ _ _ _ _ later outgoing hnow _ => h c _ _ _ _ _ _ _ _ later outgoing hnow

/-- `S` is kept by operations that ask for the mesh-local prefix and then do
what keeps `R`. -/
structure Fetching (R S : Commissioner H → Commissioner H → Prop) : Prop where
  unconditional : Unconditional R
  refl : ∀ c, S c c
  after : ∀ {c₁ c₂ c₃}, S c₁ c₂ → R c₂ c₃ → S c₁ c₃
  fetch : Respects S (requireMeshLocalPrefix : CommissionerM H (ByteVector 8))

theorem fetching_of_cached (h : Unconditional R)
    (hcached : ∀ (c : Commissioner H) meshLocalPrefix, R c { c with meshLocalPrefix }) : Fetching R R where
  unconditional := h
  refl := h.refl
  after := h.trans
  fetch := h.requireMeshLocalPrefix (fun _ => carriedBy_true _) hcached

namespace Fetching

variable (h : Fetching R S) {α : Type}

include h

theorem of_kept {x : CommissionerM H α} (hx : Respects R x) : Respects S x := fun c => h.after (h.refl c) (hx c)

theorem then_kept {α β : Type} {x : CommissionerM H α} {f : α → CommissionerM H β} (hx : Respects S x)
    (hf : ∀ a, Respects R (f a)) : Respects S (x >>= f) := .andThen id h.after hx hf

theorem identified {f : UInt16 × Bytes → CommissionerM H α}
    (hf : ∀ mid token, Respects R (f (mid, token))) : Respects R (nextRequestIdentity >>= f) :=
  .bind h.unconditional.trans h.unconditional.nextRequestIdentity fun ⟨mid, token⟩ => hf mid token

theorem built {built : Except Error CoapMessage} {next : CoapMessage → CommissionerM H α}
    (hnext : ∀ req, Respects R (next req)) : Respects R (liftM built >>= next) :=
  h.unconditional.built fun req _ => hnext req

theorem executeMeshcop (req : CoapMessage) : Respects R (Exchanges.executeMeshcop req : CommissionerM H CoapMessage) :=
  h.unconditional.executeMeshcop (carriedBy_true req)

theorem answered (f : CoapMessage → Except Error α) (req : CoapMessage) (dest : Ipv6Addr) :
    Respects R (do f (← executeProxied req dest) : CommissionerM H α) :=
  .bind h.unconditional.trans (h.unconditional.executeProxied (carriedBy_true req) dest) fun _ =>
    respects_lift h.unconditional.refl _

theorem getRawActiveDataset (flags : DatasetFlags) :
    Respects R (Exchanges.getRawActiveDataset flags : CommissionerM H Bytes) :=
  h.unconditional.getRawActiveDataset (fun _ => carriedBy_true _) flags

variable (op : CommissionerOperation)

theorem readDataset (getTlvTypes : List UInt8) :
    Respects R (Operations.readDataset op getTlvTypes : CommissionerM H Dataset) := by
  refine h.identified fun mid token => h.built fun req => ?_
  exact .bind h.unconditional.trans (h.executeMeshcop req) fun _ => respects_lift h.unconditional.refl _

theorem writeDataset (required : List (UInt8 × String)) (ds : Dataset) :
    Respects R (Operations.writeDataset op required ds : CommissionerM H Unit) := by
  refine .lift_bind h.unconditional.refl fun _ => ?_
  refine .read_bind h.unconditional.refl sessionIdRequired_reads fun sid => ?_
  refine h.identified fun mid token => h.built fun req => ?_
  exact .bind h.unconditional.trans (h.executeMeshcop req) fun _ => respects_lift h.unconditional.refl _

theorem proxiedCommand (dest : Ipv6Addr) (build : UInt16 → UInt16 → Bytes → Except Error CoapMessage) :
    Respects R (Operations.proxiedCommand dest build : CommissionerM H Unit) := by
  refine .read_bind h.unconditional.refl sessionIdRequired_reads fun sid => ?_
  refine h.identified fun mid token => h.built fun req => ?_
  refine .bind h.unconditional.trans (h.unconditional.execute (carriedBy_true req) _ _) fun resp => ?_
  cases resp with
  | none => exact respects_pure h.unconditional.refl _
  | some resp => exact respects_lift h.unconditional.refl _

theorem getDiagnostics (dest : Ipv6Addr) (flags : UInt64) :
    Respects R (Operations.getDiagnostics dest flags : CommissionerM H NetDiagData) := by
  refine .read_bind h.unconditional.refl sessionIdRequired_reads fun _ => ?_
  refine .lift_bind h.unconditional.refl fun _ => ?_
  exact h.identified fun _ _ => h.built fun req => h.answered _ req dest

theorem sendToJoiner (jid : Bytes) (port : UInt16) (payload : Bytes) :
    Respects R (Operations.sendToJoiner jid port payload : CommissionerM H Unit) := by
  refine h.identified fun mid token => h.built fun req => ?_
  exact .bind h.unconditional.trans (h.unconditional.execute (carriedBy_true req) _ _) fun _ =>
    respects_pure h.unconditional.refl _

theorem leaderAloc : Respects S (Exchanges.leaderAloc : CommissionerM H Ipv6Addr) :=
  h.then_kept h.fetch fun _ => respects_pure h.unconditional.refl _

theorem primaryBbrAloc : Respects S (Operations.primaryBbrAloc : CommissionerM H Ipv6Addr) :=
  h.then_kept h.fetch fun _ => respects_pure h.unconditional.refl _

theorem getCommissionerDataset (flags : CommissionerDatasetFlags) :
    Respects S (Exchanges.getCommissionerDataset flags : CommissionerM H Dataset) :=
  h.then_kept h.leaderAloc fun leader => h.identified fun _ _ => h.built fun req => h.answered _ req leader

theorem setCommissionerDataset (ds : Dataset) : Respects S (Exchanges.setCommissionerDataset ds : CommissionerM H Unit) := by
  refine .read_bind h.refl sessionIdRequired_reads fun sid => ?_
  refine .lift_bind h.refl fun _ => ?_
  exact h.then_kept h.leaderAloc fun leader => h.identified fun _ _ => h.built fun req => h.answered _ req leader

theorem setSecurePendingDataset [AddressTexts] (maxRetrievalTimer : UInt32) (ds : Dataset) :
    Respects S (Operations.setSecurePendingDataset maxRetrievalTimer ds : CommissionerM H Unit) := by
  refine .lift_bind h.refl fun _ => ?_
  refine .read_bind h.refl sessionIdRequired_reads fun sid => ?_
  exact h.then_kept h.primaryBbrAloc fun pbbr => h.identified fun _ _ => h.built fun req => h.answered _ req pbbr

theorem registerMulticastListener [AddressTexts] (addresses : List Text) (timeout : UInt32) :
    Respects S (Operations.registerMulticastListener addresses timeout : CommissionerM H UInt8) := by
  refine .read_bind h.refl sessionIdRequired_reads fun sid => ?_
  refine .lift_bind h.refl fun addresses => ?_
  refine h.then_kept h.primaryBbrAloc fun pbbr => h.identified fun _ _ => h.built fun req => ?_
  have hr := h.unconditional.refl
  refine .bind h.unconditional.trans (h.unconditional.executeProxied (carriedBy_true req) pbbr) fun resp => ?_
  refine .lift_bind hr fun tlvs => ?_
  refine .lift_bind hr fun status => ?_
  split
  · exact respects_pure hr _
  · exact respects_throw hr _

theorem diagnostic (dest : Option Ipv6Addr) (flags : UInt64) :
    Respects S (Operations.diagnostic op dest flags : CommissionerM H Unit) := by
  refine .read_bind h.refl sessionIdRequired_reads fun _ => ?_
  have hdestination : Respects S (orLeader dest : CommissionerM H Ipv6Addr) := by
    cases dest with
    | some dest => exact respects_pure h.refl _
    | none => exact h.leaderAloc
  exact h.then_kept hdestination fun dest => h.identified fun _ _ => h.built fun req =>
    h.answered _ req dest

end Fetching

/-- The operations that only exchange messages, after asking for the prefix if
they need it. -/
def Call.exchanges : Call H → Bool
  | .petition | .keepAlive | .resign | .disconnect | .nextEvent | .setJoinerHandler _ | .clearJoinerHandler
  | .enableJoiner _ => false
  | _ => true

theorem Fetching.perform [AddressTexts] (h : Fetching R S) (cfg : CommissionerConfig) {call : Call H}
    (hcall : call.exchanges = true) : Respects S (call.perform cfg) := by
  have hr := h.unconditional.refl
  have hthen : ∀ {α : Type} {x : CommissionerM H α} {f : α → Reply}, Respects S x → Respects S (do return f (← x)) :=
    fun hx => h.then_kept hx fun _ => respects_pure hr _
  cases call with
  | petition | keepAlive | resign | disconnect | nextEvent | setJoinerHandler | clearJoinerHandler | enableJoiner => cases hcall
  | requestToken | setToken => exact hthen (respects_throw h.refl _)
  | getRawActiveDataset flags => exact hthen (h.of_kept (h.getRawActiveDataset flags))
  | getActiveDataset flags =>
    exact hthen (h.of_kept (.bind h.unconditional.trans (h.getRawActiveDataset flags) fun _ => respects_lift hr _))
  | getPendingDataset | getBbrDataset => exact hthen (h.of_kept (h.readDataset _ _))
  | getCommissionerDataset flags => exact hthen (h.getCommissionerDataset flags)
  | setActiveDataset | setPendingDataset | setBbrDataset => exact hthen (h.of_kept (h.writeDataset _ _ _))
  | setSecurePendingDataset maxRetrievalTimer dataset => exact hthen (h.setSecurePendingDataset maxRetrievalTimer dataset)
  | setCommissionerDataset dataset => exact hthen (h.setCommissionerDataset dataset)
  | enableAllJoiners => exact hthen (h.setCommissionerDataset _)
  | announceBegin | panIdQuery | energyScan | commandReenroll | commandDomainReset | commandMigrate =>
    exact hthen (h.of_kept (h.proxiedCommand _ _))
  | registerMulticastListener addresses timeout => exact hthen (h.registerMulticastListener addresses timeout)
  | diagnosticGet | diagnosticReset => exact hthen (h.diagnostic _ _ _)
  | getDiagnostics dest flags => exact hthen (h.of_kept (h.getDiagnostics dest flags))
  | sendToJoiner joinerId port payload => exact hthen (h.of_kept (h.sendToJoiner joinerId port payload))

end Frames

section Lifecycle

variable [Suite] {H : Type} {R : Commissioner H → Commissioner H → Prop} {c : Commissioner H}

theorem tryRecvQueuedEvent_of_nil (h : c.events = []) : tryRecvQueuedEvent.run c = .ok none c := by
  have htail : c.events.tail = c.events := by rw [h, tail_nil]
  change EStateM.Result.ok c.events.head? { c with events := c.events.tail } = _
  rw [htail]
  change EStateM.Result.ok c.events.head? c = _
  rw [h]
  rfl

theorem tryRecvQueuedEvent_of_cons {event : CommissionerEvent} {events : List CommissionerEvent}
    (h : c.events = event :: events) : tryRecvQueuedEvent.run c = .ok (some event) { c with events } := by
  change EStateM.Result.ok c.events.head? { c with events := c.events.tail } = _
  rw [h]
  rfl

theorem orConnected_of_ok {α : Type} {x : CommissionerM H α} {a : α} {c' : Commissioner H} (h : x.run c = .ok a c') :
    (orConnected x).run c = .ok a c' := by
  change (match x.run c with | .ok a c => _ | .error e c => _) = _
  rw [h]

theorem orConnected_of_error {α : Type} {x : CommissionerM H α} {e : Error} {c' : Commissioner H}
    (h : x.run c = .error e c') : (orConnected x).run c = .error e { c' with state := .connected } := by
  change (match x.run c with | .ok a c => _ | .error e c => _) = _
  rw [h]

theorem ensureCanPetition_of_connected (h : c.state = .connected) : ensureCanPetition.run c = .ok () c := by
  rw [ensureCanPetition, get_bind, h]
  rfl

theorem ensureCanPetition_of_ne (h : c.state ≠ .connected) : ∃ e, ensureCanPetition.run c = .error e c := by
  rw [ensureCanPetition, get_bind]
  split
  · next hstate => exact absurd hstate h
  all_goals exact ⟨_, rfl⟩

def accepted (sessionId : UInt16) (c : Commissioner H) : Commissioner H :=
  { c with sessionId := some sessionId, state := .active }

theorem concludePetition_cases (petition : MeshcopPetitionResponse) (c : Commissioner H) :
    (∃ e, (concludePetition petition).run c = .error e { c with state := .connected }) ∨
      ∃ resp, (concludePetition petition).run c = .ok resp (accepted resp.sessionId c) := by
  rw [concludePetition]
  split
  · split
    · exact .inl ⟨_, rfl⟩
    · exact .inr ⟨⟨_, _⟩, rfl⟩
  · exact .inl ⟨_, rfl⟩
  · exact .inl ⟨_, rfl⟩

variable [JoinerHandler H]

/-- The handle once the border agent has answered a keep-alive. -/
def keptAlive (result : ResultCode) (c : Commissioner H) : Commissioner H :=
  if result = .reject then
    { c with events := c.events ++ [.keepAliveResponse result], state := .connected, sessionId := none }
  else { c with events := c.events ++ [.keepAliveResponse result] }

theorem keepAlive_concludes_of (h : Handling (fun _ => True) R)
    (hexchange : ∀ req, Respects R (executeMeshcop req : CommissionerM H CoapMessage)) :
    Concludes R keptAlive (keepAlive : CommissionerM H ResultCode) := by
  refine .bind h.trans (fun c => sessionIdRequired_reads c ▸ h.refl c) fun sid => ?_
  refine .bind h.trans h.nextRequestIdentity fun ⟨mid, token⟩ => ?_
  refine .bind h.trans (respects_lift h.refl _) fun req => ?_
  refine .bind h.trans (hexchange req) fun resp => ?_
  refine .bind h.trans (respects_lift h.refl _) fun found => ?_
  refine .bind h.trans (respects_lift h.refl _) fun state => ?_
  cases state <;> exact concludes_of_ok h.refl fun _ => rfl

theorem keepAlive_concludes (h : Unconditional R) : Concludes R keptAlive (keepAlive : CommissionerM H ResultCode) :=
  keepAlive_concludes_of h.toHandling fun req => h.executeMeshcop (carriedBy_true req)

theorem resign_concludes (h : Unconditional R) : Concludes R (fun _ => disconnected) (resign : CommissionerM H Unit) := by
  refine .bind h.trans (fun c => sessionIdRequired_reads c ▸ h.refl c) fun sid => ?_
  refine .bind h.trans h.nextRequestIdentity fun ⟨mid, token⟩ => ?_
  refine .bind h.trans (respects_lift h.refl _) fun req => ?_
  refine .bind h.trans (h.executeMeshcop (carriedBy_true req)) fun resp => ?_
  refine .bind h.trans (respects_lift h.refl _) fun state => ?_
  refine .bind h.trans (respects_lift h.refl _) fun _ => ?_
  exact concludes_of_ok h.refl fun _ => rfl

theorem petition_of_ne (cfg : CommissionerConfig) (h : c.state ≠ .connected) : ∃ e, (petition cfg).run c = .error e c := by
  obtain ⟨e, hrun⟩ := ensureCanPetition_of_ne h
  exact ⟨e, bind_of_error hrun⟩

theorem petition_of_long {cfg : CommissionerConfig} (hid : maxExtendedTlvLength < cfg.commissionerId.bytes.length)
    (h : c.state = .connected) : ∃ e, (petition cfg).run c =
      .error e { c with state := .petitioning, nextMessageId := c.nextMessageId + 1 } := by
  obtain ⟨e, herror⟩ : ∃ e, petitionRequest (c.nextMessageId + 1) (beBytes 2 (c.nextMessageId + 1).toNat)
    cfg.commissionerId = .error e := petitionRequest_eq_error hid
  refine ⟨e, ?_⟩
  rw [petition, bind_of_ok (ensureCanPetition_of_connected h), modify_bind, bind_of_ok (nextRequestIdentity_run _)]
  dsimp only
  rw [herror]
  rfl

def petitioner (c : Commissioner H) : Commissioner H :=
  { c with state := .petitioning, nextMessageId := c.nextMessageId + 1 }

theorem petition_exchanges {config : CommissionerConfig} (hid : config.commissionerId.bytes.length ≤ maxExtendedTlvLength)
    (h : c.state = .connected) : ∃ req, (∃ e, (petition config).run c =
        .error e { finalState ((executeMeshcop req).run (petitioner c)) with state := .connected }) ∨
      ∃ answer c₁ resp, (executeMeshcop req).run (petitioner c) = .ok answer c₁ ∧
        (petition config).run c = .ok resp (accepted resp.sessionId c₁) := by
  obtain ⟨req, hrequest⟩ := exists_petitionRequest hid (c.nextMessageId + 1) (beBytes 2 (c.nextMessageId + 1).toNat)
  refine ⟨req, ?_⟩
  rw [petition, bind_of_ok (ensureCanPetition_of_connected h), modify_bind, bind_of_ok (nextRequestIdentity_run _)]
  dsimp only
  rw [lift_bind_of_ok hrequest]
  change (∃ e, (orConnected (executeMeshcop req) >>= _).run (petitioner c) = _) ∨
    ∃ answer c₁ resp, _ ∧ (orConnected (executeMeshcop req) >>= _).run (petitioner c) = _
  cases hrun : (executeMeshcop req).run (petitioner c) with
  | error e c₁ =>
    rw [bind_of_error (orConnected_of_error hrun)]
    exact .inl ⟨e, rfl⟩
  | ok answer c₁ =>
    rw [bind_of_ok (orConnected_of_ok hrun)]
    cases hparse : parsePetitionResponse answer with
    | error e => exact .inl ⟨e, bind_of_error (orConnected_of_error rfl)⟩
    | ok petition =>
      rw [bind_of_ok (orConnected_of_ok (lift_of_ok rfl c₁))]
      rcases concludePetition_cases petition c₁ with herror | ⟨resp, hok⟩
      · exact .inl herror
      · exact .inr ⟨answer, c₁, resp, rfl, hok⟩

theorem petition_cases (hR : Unconditional R) {config : CommissionerConfig}
    (hid : config.commissionerId.bytes.length ≤ maxExtendedTlvLength) (h : c.state = .connected) :
    ∃ c₁, R { c with state := .petitioning } c₁ ∧
      ((∃ e, (petition config).run c = .error e { c₁ with state := .connected }) ∨
        ∃ response, (petition config).run c = .ok response (accepted response.sessionId c₁)) := by
  have hidentity : R { c with state := .petitioning } (petitioner c) :=
    hR.nextRequestIdentity.of_ok (nextRequestIdentity_run { c with state := .petitioning })
  obtain ⟨request, ⟨e, herror⟩ | ⟨answer, c₁, response, hrun, hok⟩⟩ := petition_exchanges hid h
  · have hexchange := hR.executeMeshcop (carriedBy_true request) (petitioner c)
    exact ⟨_, hR.trans hidentity hexchange, .inl ⟨e, herror⟩⟩
  · have hexchange := (hR.executeMeshcop (carriedBy_true request)).of_ok hrun
    exact ⟨c₁, hR.trans hidentity hexchange, .inr ⟨response, hok⟩⟩

/-- By induction on what will arrive, from an empty queue. -/
theorem awaitEvent_cases (h : Unconditional R) (inbox : List Delivery) (c : Commissioner H) :
    (∃ e c₁, (awaitEvent inbox).run c = .error e c₁ ∧ R c c₁) ∨
      ∃ event events c₁, (awaitEvent inbox).run c = .ok (some event) { c₁ with events } ∧ c₁.events = event :: events ∧
        R c c₁ := by
  have hidle : ∀ (c : Commissioner H) elapsed network, R c { c with now := c.now + elapsed, network } :=
    fun c elapsed network => h.idle c _ network c.dtlsSession (Nat.le_add_right _ _)
  induction inbox generalizing c with
  | nil => exact .inl ⟨_, _, rfl, hidle c _ c.network⟩
  | cons delivery inbox ih =>
    rw [awaitEvent]
    split
    · exact .inl ⟨_, _, rfl, hidle c _ _⟩
    · rw [modify_bind]
      cases hdata : delivery.data with
      | error e => exact .inl ⟨e, _, rfl, hidle c _ _⟩
      | ok responseWire =>
        rw [lift_bind_of_ok rfl]
        cases hdecode : CoapMessage.decode responseWire with
        | error e => exact .inl ⟨e, _, rfl, hidle c _ _⟩
        | ok message =>
          rw [lift_bind_of_ok rfl]
          cases hrun : (handleIncoming none message).run
              { c with now := c.now + delivery.elapsed, network := { c.network with inbox } } with
          | error e c₁ =>
            rw [bind_of_error hrun]
            exact .inl ⟨e, c₁, rfl, h.trans (hidle c _ _) ((h.handleIncoming none message).of_error hrun)⟩
          | ok answer c₁ =>
            have hkept := h.trans (hidle c _ _) ((h.handleIncoming none message).of_ok hrun)
            rw [bind_of_ok hrun]
            cases hevents : c₁.events with
            | cons event events =>
              rw [bind_of_ok (tryRecvQueuedEvent_of_cons hevents)]
              exact .inr ⟨event, events, c₁, rfl, hevents, hkept⟩
            | nil =>
              rw [bind_of_ok (tryRecvQueuedEvent_of_nil hevents)]
              rcases ih c₁ with ⟨e, c₂, hrest, hR⟩ | ⟨event, events, c₂, hrest, hcons, hR⟩
              · exact .inl ⟨e, c₂, hrest, h.trans hkept hR⟩
              · exact .inr ⟨event, events, c₂, hrest, hcons, h.trans hkept hR⟩

theorem nextEvent_cases (h : Unconditional R) (c : Commissioner H) : (∃ e c₁, nextEvent.run c = .error e c₁ ∧ R c c₁) ∨
      ∃ event events c₁, nextEvent.run c = .ok (some event) { c₁ with events } ∧ c₁.events = event :: events ∧ R c c₁ := by
  rw [nextEvent]
  cases hevents : c.events with
  | cons event events =>
    rw [bind_of_ok (tryRecvQueuedEvent_of_cons hevents)]
    exact .inr ⟨event, events, c, rfl, hevents, h.refl c⟩
  | nil =>
    rw [bind_of_ok (tryRecvQueuedEvent_of_nil hevents)]
    dsimp only
    rw [get_bind]
    by_cases hsession : c.dtlsSession = true
    · rw [ensure_true hsession]
      exact awaitEvent_cases h c.network.inbox c
    · rw [ensure, if_neg hsession]
      exact .inl ⟨_, c, rfl, h.refl c⟩

end Lifecycle

end ThreadCommissioner.Operations
