import Mathlib.Logic.Function.Basic
import ThreadCommissioner.Builders
import ThreadCommissioner.JoinerSessions

namespace ThreadCommissioner.Commissioners

open Builders ByteStrings Coap Diagnostics Errors JoinerSessions Primitives

inductive CommissionerState
  | disabled
  | connected
  | petitioning
  | active
  deriving DecidableEq

inductive ResultCode
  | accept
  | reject
  | pending
  deriving DecidableEq

/-- Addresses are kept as they are; the source prints them into its events. -/
inductive IpAddr
  | v4 (octets : ByteVector 4)
  | v6 (octets : ByteVector 16)
  deriving DecidableEq

inductive CommissionerEvent
  | keepAliveResponse (result : ResultCode)
  | datasetChanged
  | panIdConflict (peerAddr : IpAddr) (channelMask : UInt32) (panId : UInt16)
  | energyReport (peerAddr : IpAddr) (channelMask : UInt32) (energyList : Bytes)
  | joinerMessage (joinerId : Bytes) (port : UInt16) (payload : Bytes)
  | diagnosticAnswer (peerAddr : IpAddr) (data : NetDiagData)
  | joinerConnected (joinerId : ByteVector 8)
  | joinerFinalized (joinerId : ByteVector 8) (accepted : Bool) (info : JoinerFinalizeInfo)
  deriving DecidableEq

/-- Application data as it will arrive: after how long, and what the DTLS
session makes of it. -/
structure Delivery where
  elapsed : ℕ
  data : Except Error Bytes

/-- What the commissioner will meet: how long its coming handshakes take, how
they and its sends fail, if they do, and what it receives. -/
structure Network where
  handshakes : List (ℕ × Option Error)
  sends : List (Option Error)
  inbox : List Delivery

variable [Suite]

abbrev SessionMap := ByteVector 8 → Option JoinerSession

/-- The last four fields are not of the source: the clock, the random source
of the system, the messages sent so far and the network. Of the DTLS session
it is kept whether there is one. -/
structure Commissioner (H : Type) where
  borderAgent : IpAddr
  state : CommissionerState
  sessionId : Option UInt16
  dtlsSession : Bool
  nextMessageId : UInt16
  events : List CommissionerEvent
  meshLocalPrefix : Option (ByteVector 8)
  joinerHandler : Option H
  joinerSessions : SessionMap
  now : ℕ
  rng : Rng
  sent : List CoapMessage
  network : Network

variable {H : Type}

abbrev CommissionerM (H α : Type) := EStateM Error (Commissioner H) α

def setJoinerHandler (handler : H) : CommissionerM H Unit :=
  modify fun c => { c with joinerHandler := some handler }

def clearJoinerHandler : CommissionerM H Unit :=
  modify fun c => { c with joinerHandler := none, joinerSessions := fun _ => none }

def nextRequestIdentity : CommissionerM H (UInt16 × Bytes) := do
  modify fun c => { c with nextMessageId := c.nextMessageId + 1 }
  let messageId := (← get).nextMessageId
  return (messageId, beBytes 2 messageId.toNat)

def queueEvent (event : CommissionerEvent) : CommissionerM H Unit :=
  modify fun c => { c with events := c.events ++ [event] }

def sendApplicationData (_data : Bytes) : CommissionerM H Unit := do
  let c ← get
  if c.dtlsSession = false then throw (.invalidState "DTLS session is not established")
  else
    set { c with network := { c.network with sends := c.network.sends.tail } }
    match c.network.sends.head? with
    | some (some e) => throw e
    | _ => pure ()

def sendWire (message : CoapMessage) : CommissionerM H Unit := do
  let wire ← message.encode
  sendApplicationData wire
  modify fun c => { c with sent := c.sent ++ [message] }

section Relay

variable [JoinerHandler H]

def sweep (sessions : SessionMap) (now : ℕ) : SessionMap :=
  fun joinerId => (sessions joinerId).filter fun session => !session.expired now

/-- What the loop over the events of a session has collected. -/
structure Dispatch (H : Type) where
  handler : H
  transmissions : List (Bytes × Option (ByteVector 16))
  queuedEvents : List CommissionerEvent
  sessionFailed : Bool

def dispatchEvents (session : JoinerSession) (joinerId : ByteVector 8) :
    List JoinerSessionEvent → Dispatch H → Dispatch H
  | [], d => d
  | .transmit datagram includeKek :: events, d =>
    if includeKek then
      match session.joinerRouterKek with
      | .ok kek => dispatchEvents session joinerId events { d with transmissions := d.transmissions ++ [(datagram, some kek)] }
      | .error _ => { d with sessionFailed := true }
    else dispatchEvents session joinerId events { d with transmissions := d.transmissions ++ [(datagram, none)] }
  | .connected :: events, d =>
    dispatchEvents session joinerId events
      { d with
        handler := JoinerHandler.onJoinerConnected d.handler joinerId
        queuedEvents := d.queuedEvents ++ [.joinerConnected joinerId] }
  | .finalized accepted info :: events, d =>
    dispatchEvents session joinerId events
      { d with queuedEvents := d.queuedEvents ++ [.joinerFinalized joinerId accepted info] }

def relayTransmission (session : JoinerSession) (transmission : Bytes × Option (ByteVector 16)) :
    CommissionerM H Unit := do
  let (messageId, token) ← nextRequestIdentity
  let relay ← relayTxRequestWithKek messageId token session.joinerIid.toList session.joinerUdpPort
    session.joinerRouterLocator transmission.1 transmission.2
  sendWire relay

/-- The second half of `handle_relay_rx`: the session takes the payload, and
what it answers is relayed. The target is read from the session before it
takes the payload. -/
def driveSession (joinerId : ByteVector 8) (session : JoinerSession) (handler : H) (payload : Bytes) :
    CommissionerM H Unit := do
  let c ← get
  match (receive payload).run ⟨session, handler, c.rng⟩ with
  | .error _ party =>
    set { c with
      joinerHandler := some party.handler
      rng := party.rng
      joinerSessions := Function.update c.joinerSessions joinerId none }
  | .ok events party =>
    let d := dispatchEvents party.session joinerId events ⟨party.handler, [], [], false⟩
    let remaining := if d.sessionFailed then none else some party.session
    set { c with
      joinerHandler := some d.handler
      rng := party.rng
      joinerSessions := Function.update c.joinerSessions joinerId remaining
      events := c.events ++ d.queuedEvents }
    if d.sessionFailed then pure ()
    else d.transmissions.forM (relayTransmission session)

def handleRelayRx (joinerUdpPort joinerRouterLocator : UInt16) (joinerIid : ByteVector 8) (payload : Bytes) :
    CommissionerM H Unit := do
  modify fun c => { c with joinerSessions := sweep c.joinerSessions c.now }
  let c ← get
  let joinerId := joinerIdFromIid joinerIid
  match c.joinerHandler with
  | none => pure ()
  | some handler =>
    match c.joinerSessions joinerId with
    | some session => driveSession joinerId session handler payload
    | none =>
      match JoinerHandler.joinerPskd handler joinerId with
      | (none, handler) => set { c with joinerHandler := some handler }
      | (some pskd, handler) =>
        let (session, rng) := JoinerSession.new joinerIid joinerUdpPort joinerRouterLocator pskd c.now c.rng
        set { c with
          joinerHandler := some handler
          rng
          joinerSessions := Function.update c.joinerSessions joinerId (some session) }
        driveSession joinerId session handler payload

end Relay

end ThreadCommissioner.Commissioners
