import ThreadCommissioner.Drivers
import ThreadCommissioner.Meshcop
import ThreadCommissioner.RecordProtection
import ThreadCommissioner.ServerHandshake

namespace ThreadCommissioner.JoinerSessions

open ByteStrings Coap Computations Errors HandshakeMessages Hellos KeySchedule Meshcop Primitives
open RecordProtection Records ServerHandshake Texts Tlvs

def localExternalAddrMask : UInt8 := 0x02

/-- Instants are counted in nanoseconds. -/
def joinerSessionTimeout : ℕ := (60 + 20) * 10 ^ 9

def joinerIdFromIid (joinerIid : ByteVector 8) : ByteVector 8 :=
  List.Vector.cons (joinerIid.head ^^^ localExternalAddrMask) joinerIid.tail

structure JoinerFinalizeInfo where
  vendorName : Text
  vendorModel : Text
  vendorSwVersion : Text
  vendorStackVersion : Bytes
  provisioningUrl : Option Text
  vendorData : Option Bytes
  deriving DecidableEq

def requiredValue (tlvs : TlvSet) (ty : UInt8) (name : String) : Except Error Bytes :=
  okOr (tlvs.lastValue ty) (.dataset s!"JOIN_FIN.req missing {name} TLV")

def utf8Value (value : Bytes) (name : String) : Except Error Text :=
  okOr (fromUtf8 value) (.dataset s!"JOIN_FIN.req {name} TLV is not UTF-8")

def requiredText (tlvs : TlvSet) (ty : UInt8) (name : String) : Except Error Text := do
  utf8Value (← requiredValue tlvs ty name) name

def optionalText (tlvs : TlvSet) (ty : UInt8) (name : String) : Except Error (Option Text) :=
  match tlvs.lastValue ty with
  | some value => do return some (← utf8Value value name)
  | none => .ok none

def JoinerFinalizeInfo.fromPayload (payload : Bytes) : Except Error JoinerFinalizeInfo := do
  let tlvs ← ofTlv (TlvSet.parse payload)
  let _ ← requiredValue tlvs tlvState "State"
  let vendorName ← requiredText tlvs tlvVendorName "Vendor Name"
  let vendorModel ← requiredText tlvs tlvVendorModel "Vendor Model"
  let vendorSwVersion ← requiredText tlvs tlvVendorSwVersion "Vendor SW Version"
  let vendorStackVersion ← requiredValue tlvs tlvVendorStackVersion "Vendor Stack Version"
  let provisioningUrl ← optionalText tlvs tlvProvisioningUrl "Provisioning URL"
  return {
    vendorName
    vendorModel
    vendorSwVersion
    vendorStackVersion
    provisioningUrl
    vendorData := tlvs.lastValue tlvVendorData }

def parseJoinFin (request : CoapMessage) : Except Error JoinerFinalizeInfo :=
  JoinerFinalizeInfo.fromPayload request.payload

/-- The decisions of the application. Its methods may update the handler. -/
class JoinerHandler (H : Type) where
  joinerPskd : H → ByteVector 8 → Option Text × H
  onJoinerConnected : H → ByteVector 8 → H := fun handler _ => handler
  onJoinerFinalize : H → ByteVector 8 → JoinerFinalizeInfo → Bool × H := fun handler _ _ => (true, handler)

/-- A handler that is backed by a table of enabled joiners. -/
structure StaticJoinerHandler where
  wildcardPskd : Option Text
  byJoinerId : List (ByteVector 8 × Text)

namespace StaticJoinerHandler

def new : StaticJoinerHandler := ⟨none, []⟩

def enableAll (handler : StaticJoinerHandler) (pskd : Text) : StaticJoinerHandler :=
  { handler with wildcardPskd := some pskd }

def disableJoinerId (handler : StaticJoinerHandler) (joinerId : ByteVector 8) : StaticJoinerHandler :=
  { handler with byJoinerId := handler.byJoinerId.filter (·.1 ≠ joinerId) }

def enableJoinerId (handler : StaticJoinerHandler) (joinerId : ByteVector 8) (pskd : Text) : StaticJoinerHandler :=
  { handler with byJoinerId := (handler.disableJoinerId joinerId).byJoinerId ++ [(joinerId, pskd)] }

def pskdOf (handler : StaticJoinerHandler) (joinerId : ByteVector 8) : Option Text :=
  ((handler.byJoinerId.find? (·.1 = joinerId)).map Prod.snd).or handler.wildcardPskd

end StaticJoinerHandler

instance : JoinerHandler StaticJoinerHandler where
  joinerPskd handler joinerId := (handler.pskdOf joinerId, handler)

inductive JoinerSessionEvent
  | transmit (datagram : Bytes) (includeKek : Bool)
  | connected
  | finalized (accepted : Bool) (info : JoinerFinalizeInfo)
  deriving DecidableEq

inductive JoinerSessionPhase
  | awaitingClientHello
  | awaitingClientFlight
  | connected
  | finalized
  deriving DecidableEq, Repr

variable [Suite]

structure JoinerSession where
  joinerId : ByteVector 8
  joinerIid : ByteVector 8
  joinerUdpPort : UInt16
  joinerRouterLocator : UInt16
  phase : JoinerSessionPhase
  handshake : ThreadDtlsServerHandshake
  cookie : DtlsCookieGenerator
  keyMaterial : Option ThreadDtlsKeyMaterial
  serverFlight : Bytes
  epoch0Sequence : UInt64
  epoch1Sequence : UInt64
  sawClientChangeCipherSpec : Bool
  finalizeDecision : Option Bool
  expiresAt : ℕ

def JoinerSession.new (joinerIid : ByteVector 8) (joinerUdpPort joinerRouterLocator : UInt16) (pskd : Text)
    (now : ℕ) (rng : Rng) : JoinerSession × Rng :=
  let (handshake, rng) := ThreadDtlsServerHandshake.new pskd.bytes rng
  let (cookie, rng) := DtlsCookieGenerator.new rng
  ({ joinerId := joinerIdFromIid joinerIid
     joinerIid
     joinerUdpPort
     joinerRouterLocator
     phase := .awaitingClientHello
     handshake
     cookie
     keyMaterial := none
     serverFlight := []
     epoch0Sequence := 0
     epoch1Sequence := 0
     sawClientChangeCipherSpec := false
     finalizeDecision := none
     expiresAt := now + joinerSessionTimeout }, rng)

def JoinerSession.expired (session : JoinerSession) (now : ℕ) : Bool := session.expiresAt ≤ now

def JoinerSession.keyMaterialRequired (session : JoinerSession) : Except Error ThreadDtlsKeyMaterial :=
  okOr session.keyMaterial (.invalidState "joiner key material is not derived")

def JoinerSession.openRecord (session : JoinerSession) (record : DtlsRecord) : Except Error Bytes := do
  let keyMaterial ← session.keyMaterialRequired
  ofDtls (openAes128Ccm8Record record keyMaterial.keyBlock.clientWriteKey keyMaterial.keyBlock.clientWriteIv)

def JoinerSession.joinerRouterKek (session : JoinerSession) : Except Error (ByteVector 16) := do
  let keyMaterial ← session.keyMaterialRequired
  ofDtls (session.handshake.deriveJoinerRouterKek keyMaterial)

/-- What a call of `receive` may update. -/
structure Party (H : Type) where
  session : JoinerSession
  handler : H
  rng : Rng

/-- The state of a call in progress, with the events it has pushed. -/
structure Feed (H : Type) where
  session : JoinerSession
  handler : H
  rng : Rng
  events : List JoinerSessionEvent

variable {H : Type}

def Feed.party (feed : Feed H) : Party H := ⟨feed.session, feed.handler, feed.rng⟩

def Party.feed (party : Party H) : Feed H := ⟨party.session, party.handler, party.rng, []⟩

abbrev JoinerM (H α : Type) := EStateM Error (Feed H) α

def updateSession (f : JoinerSession → JoinerSession) : JoinerM H Unit :=
  modify fun feed => { feed with session := f feed.session }

def pushEvent (event : JoinerSessionEvent) : JoinerM H Unit :=
  modify fun feed => { feed with events := feed.events ++ [event] }

def inHandshake {α : Type} (x : ServerM α) : JoinerM H α :=
  zoom (·.session.handshake) (fun handshake feed => { feed with session := { feed.session with handshake } }) .dtls x

def inHandshakeWithRng {α : Type} (x : EStateM DtlsError (ThreadDtlsServerHandshake × Rng) α) : JoinerM H α :=
  zoom (fun feed => (feed.session.handshake, feed.rng))
    (fun s feed => { feed with session := { feed.session with handshake := s.1 }, rng := s.2 }) .dtls x

/-- Both kinds of plaintext record count the epoch before they are encoded. -/
def plaintextRecordOf (contentType : ContentType) (payload : Bytes) : JoinerM H Bytes := do
  let record ← ofDtls (DtlsRecord.new contentType 0 (← get).session.epoch0Sequence payload)
  updateSession fun session => { session with epoch0Sequence := session.epoch0Sequence + 1 }
  ofDtls record.encode

def plaintextRecord (payload : Bytes) : JoinerM H Bytes := plaintextRecordOf .handshake payload

def plaintextChangeCipherSpec : JoinerM H Bytes := plaintextRecordOf .changeCipherSpec [1]

def plaintextMessage (message : HandshakeMessage) : JoinerM H Bytes := do
  plaintextRecord (← ofDtls message.encode)

def requestVerification (message : HandshakeMessage) (hello : ClientHello) : JoinerM H Unit := do
  let cookie := ((← get).session.cookie.cookie hello.random).toList
  let payload ← ofDtls (HelloVerifyRequest.mk dtls12Version cookie).encode
  let datagram ← plaintextMessage ⟨.helloVerifyRequest, message.messageSeq, payload⟩
  pushEvent (.transmit datagram false)

def acceptClientHello (message : HandshakeMessage) : JoinerM H Unit := do
  let _ ← inHandshake (handleClientHello message)
  let serverHello ← inHandshake (buildServerHello 1)
  let keyExchange ← inHandshakeWithRng (buildServerKeyExchange 2)
  let helloDone ← inHandshake (buildServerHelloDone 3)
  let first ← plaintextMessage serverHello
  let second ← plaintextMessage keyExchange
  let third ← plaintextMessage helloDone
  let datagram := first ++ second ++ third
  updateSession fun session => { session with serverFlight := datagram, phase := .awaitingClientFlight }
  pushEvent (.transmit datagram false)

def handlePlaintextHandshake (message : HandshakeMessage) : JoinerM H Unit := do
  let session := (← get).session
  match message.messageType, session.phase with
  | .clientHello, .awaitingClientHello => do
    let hello ← ofDtls (ClientHello.decode message.payload)
    if session.cookie.verify hello.random hello.cookie then acceptClientHello message
    else requestVerification message hello
  | .clientHello, .awaitingClientFlight => pushEvent (.transmit session.serverFlight false)
  | .clientKeyExchange, .awaitingClientFlight => do
    inHandshake (handleClientKeyExchange message)
    let keyMaterial ← ofDtls (← get).session.handshake.deriveKeyMaterial
    updateSession fun session => { session with keyMaterial := some keyMaterial }
  | messageType, _ =>
    let name := messageType.debug
    throw (.crypto s!"unexpected joiner handshake message {name}")

/-- One round of the loop over the messages of an encrypted handshake record. -/
def handleFinished (message : HandshakeMessage) : JoinerM H Unit := do
  if message.messageType ≠ .finished then pure ()
  else do
    let keyMaterial ← (← get).session.keyMaterialRequired
    inHandshake (verifyClientFinished message keyMaterial)
    let serverFinished ← inHandshake (buildServerFinished 4 keyMaterial)
    let changeCipherSpec ← plaintextChangeCipherSpec
    let payload ← ofDtls serverFinished.encode
    let finishedRecord ← ofDtls (protectAes128Ccm8Record .handshake 1 (← get).session.epoch1Sequence
      keyMaterial.keyBlock.serverWriteKey keyMaterial.keyBlock.serverWriteIv payload)
    updateSession fun session => { session with epoch1Sequence := session.epoch1Sequence + 1 }
    let finished ← ofDtls finishedRecord.encode
    updateSession fun session => { session with phase := .connected }
    pushEvent (.transmit (changeCipherSpec ++ finished) false)
    pushEvent .connected

def handleEncryptedHandshake (record : DtlsRecord) : JoinerM H Unit := do
  let session := (← get).session
  if session.phase ≠ .awaitingClientFlight then pure ()
  else do
    ensure (session.sawClientChangeCipherSpec = true)
      (Error.crypto "joiner Finished arrived before ChangeCipherSpec")
    let plaintext ← session.openRecord record
    let plainRecord ← ofDtls (DtlsRecord.new .handshake 1 0 plaintext)
    let messages ← ofDtls (parseUnfragmentedHandshakeMessages plainRecord)
    messages.forM handleFinished

def joinFinResponse (request : CoapMessage) (accepted : Bool) : CoapMessage where
  ty := .acknowledgement
  code := .changed
  messageId := request.messageId
  token := request.token
  options := []
  payload := [tlvState, 1, (if accepted then MeshcopState.accept else MeshcopState.reject).toWire]

def answerJoinFin (request : CoapMessage) (info : JoinerFinalizeInfo) (accepted : Bool) : JoinerM H Unit := do
  let session := (← get).session
  let keyMaterial ← session.keyMaterialRequired
  let payload ← (joinFinResponse request accepted).encode
  let responseRecord ← ofDtls (protectAes128Ccm8Record .applicationData 1 session.epoch1Sequence
    keyMaterial.keyBlock.serverWriteKey keyMaterial.keyBlock.serverWriteIv payload)
  updateSession fun session => { session with epoch1Sequence := session.epoch1Sequence + 1, phase := .finalized }
  let datagram ← ofDtls responseRecord.encode
  pushEvent (.transmit datagram accepted)
  if session.phase ≠ .finalized then pushEvent (.finalized accepted info) else pure ()

variable [JoinerHandler H]

/-- The recorded decision; the handler is asked when there is none. -/
def finalizeDecisionOr (info : JoinerFinalizeInfo) : JoinerM H Bool := do
  let feed ← get
  match feed.session.finalizeDecision with
  | some accepted => return accepted
  | none =>
    let (accepted, handler) := JoinerHandler.onJoinerFinalize feed.handler feed.session.joinerId info
    set { feed with handler, session := { feed.session with finalizeDecision := some accepted } }
    return accepted

def handleApplicationData (record : DtlsRecord) : JoinerM H Unit := do
  let session := (← get).session
  ensure (session.phase = .connected ∨ session.phase = .finalized)
    (Error.crypto "joiner application data before handshake completion")
  let plaintext ← session.openRecord record
  let request ← CoapMessage.decode plaintext
  let uriPath ← request.uriPath
  if uriPath ≠ some Uri.joinFin then pure ()
  else do
    let info ← parseJoinFin request
    let accepted ← finalizeDecisionOr info
    answerJoinFin request info accepted

def handleChangeCipherSpec (record : DtlsRecord) : JoinerM H Unit := do
  ensure (record.payload = [1]) (Error.crypto "invalid ChangeCipherSpec payload")
  updateSession fun session => { session with sawClientChangeCipherSpec := true }

def joinerAlert (record : DtlsRecord) : Error :=
  let epoch := record.header.epoch
  let sequence := record.header.sequenceNumber
  .crypto s!"joiner DTLS alert epoch={epoch} seq={sequence}"

def handleRecord (record : DtlsRecord) : JoinerM H Unit :=
  match record.header.contentType with
  | .handshake =>
    if record.header.epoch = 0 then do
      let messages ← ofDtls (parseUnfragmentedHandshakeMessages record)
      messages.forM handlePlaintextHandshake
    else if record.header.epoch = 1 then handleEncryptedHandshake record
    else pure ()
  | .changeCipherSpec => if record.header.epoch = 0 then handleChangeCipherSpec record else pure ()
  | .applicationData => if record.header.epoch = 1 then handleApplicationData record else pure ()
  | .alert => throw (joinerAlert record)

def feedDatagram (encapsulated : Bytes) : JoinerM H Unit := do
  let records ← ofDtls (DtlsRecord.parseDatagram encapsulated)
  records.forM handleRecord

def receive (encapsulated : Bytes) : EStateM Error (Party H) (List JoinerSessionEvent) := fun party =>
  match (feedDatagram encapsulated).run party.feed with
  | .ok _ feed => .ok feed.events feed.party
  | .error e feed => .error e feed.party

end ThreadCommissioner.JoinerSessions
