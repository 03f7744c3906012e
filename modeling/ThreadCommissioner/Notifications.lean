import ThreadCommissioner.Diagnostics

namespace ThreadCommissioner.Notifications

open ByteStrings Coap Computations Diagnostics Errors Framing List Meshcop Tlvs

structure UdpRx where
  sourceAddress : Ipv6Addr
  sourcePort : UInt16
  destinationPort : UInt16
  payload : Bytes
  deriving DecidableEq

def requiredTlv (tlvs : TlvSet) (ty : UInt8) (name : String) : Except Error Bytes :=
  okOr (tlvs.lastValue ty) (.dataset s!"missing {name} TLV")

def vectorOf (n : ℕ) (value : Bytes) : Option (ByteVector n) := if h : value.length = n then some ⟨value, h⟩ else none

def readArray8 (value : Bytes) : Except Error (ByteVector 8) :=
  let length := value.length
  okOr (vectorOf 8 value) (.dataset s!"expected 8 bytes, got {length}")

def parseUdpRx (message : CoapMessage) : Except Error (Option UdpRx) := do
  if (← message.uriPath) ≠ some Uri.udpRx then return none
  else
    let tlvs ← ofTlv (TlvSet.parse message.payload)
    let address ← requiredTlv tlvs tlvIpv6Address "IPv6 Address"
    let sourceAddress ← okOr (vectorOf 16 address) (.dataset "IPv6 Address TLV must be 16 bytes")
    let encapsulation ← requiredTlv tlvs tlvUdpEncapsulation "UDP Encapsulation"
    match encapsulation with
    | s₀ :: s₁ :: d₀ :: d₁ :: payload =>
      return some { sourceAddress, sourcePort := fromBe16 s₀ s₁, destinationPort := fromBe16 d₀ d₁, payload }
    | _ => .error (.dataset "UDP Encapsulation TLV must carry source and destination ports")

structure ChannelMaskEntry where
  page : UInt8
  mask : Bytes
  deriving DecidableEq

/-- One round of the loop of `parse_all`. -/
def nextChannelMaskEntry : Bytes → Except Error (ChannelMaskEntry × Bytes)
  | page :: length :: value =>
    if value.length < length.toNat then .error (.dataset "channel mask entry value is truncated")
    else .ok (⟨page, value.take length.toNat⟩, value.drop length.toNat)
  | _ => .error (.dataset "channel mask entry header is truncated")

theorem nextChannelMaskEntry_shrinks {bytes rest : Bytes} {entry : ChannelMaskEntry}
    (h : nextChannelMaskEntry bytes = .ok (entry, rest)) : rest.length < bytes.length := by
  unfold nextChannelMaskEntry at h
  split at h
  · split at h
    · cases h
    · cases h
      simp only [length_drop, length_cons]
      omega
  · cases h

def channelMaskFramer : Framer Error ChannelMaskEntry := ⟨nextChannelMaskEntry, nextChannelMaskEntry_shrinks⟩

def ChannelMaskEntry.parseAll (value : Bytes) : Except Error (List ChannelMaskEntry) := channelMaskFramer.all value

def mergePageZero (mask : Option UInt32) (entry : ChannelMaskEntry) : Except Error (Option UInt32) :=
  if entry.page = 0 then
    if entry.mask.length = 4 then .ok (some (mask.getD 0 ||| .ofNat (beNat entry.mask)))
    else .error (.dataset "page-0 channel mask must be 4 bytes")
  else .ok mask

def channelMaskFromValue (value : Bytes) : Except Error UInt32 := do
  let entries ← ChannelMaskEntry.parseAll value
  okOr (← entries.foldlM mergePageZero none) (.dataset "no page-0 channel mask entry")

inductive MeshcopNotification
  | datasetChanged
  | diagGetAnswer (data : NetDiagData)
  | panIdConflict (channelMask : UInt32) (panId : UInt16)
  | energyReport (channelMask : UInt32) (energyList : Bytes)
  | relayRx (joinerUdpPort joinerRouterLocator : UInt16) (joinerIid : ByteVector 8) (payload : Bytes)
  deriving DecidableEq

def parsePanIdConflict (payload : Bytes) : Except Error MeshcopNotification := do
  let tlvs ← ofTlv (TlvSet.parse payload)
  let channelMask ← channelMaskFromValue (← requiredTlv tlvs tlvChannelMask "Channel Mask")
  let panId ← ofTlv (Tlvs.readU16 (← requiredTlv tlvs tlvPanId "PAN ID"))
  return .panIdConflict channelMask panId

def parseEnergyReport (payload : Bytes) : Except Error MeshcopNotification := do
  let tlvs ← ofTlv (TlvSet.parse payload)
  let channelMask ← match tlvs.lastValue tlvChannelMask with
    | some value => channelMaskFromValue value
    | none => .ok 0
  return .energyReport channelMask ((tlvs.lastValue tlvEnergyList).getD [])

def parseRelayRx (payload : Bytes) : Except Error MeshcopNotification := do
  let tlvs ← ofTlv (TlvSet.parse payload)
  let joinerUdpPort ← ofTlv (Tlvs.readU16 (← requiredTlv tlvs tlvJoinerUdpPort "Joiner UDP Port"))
  let joinerRouterLocator ← ofTlv (Tlvs.readU16 (← requiredTlv tlvs tlvJoinerRouterLocator "Joiner Router Locator"))
  let joinerIid ← readArray8 (← requiredTlv tlvs tlvJoinerIid "Joiner IID")
  let encapsulated ← requiredTlv tlvs tlvJoinerDtlsEncapsulation "Joiner DTLS Encapsulation"
  return .relayRx joinerUdpPort joinerRouterLocator joinerIid encapsulated

def parseNotification (message : CoapMessage) : Except Error (Option MeshcopNotification) := do
  match ← message.uriPath with
  | none => return none
  | some uriPath =>
    if uriPath = Uri.mgmtDatasetChanged then return some .datasetChanged
    else if uriPath = Uri.mgmtPanidConflict then return some (← parsePanIdConflict message.payload)
    else if uriPath = Uri.mgmtEdReport then return some (← parseEnergyReport message.payload)
    else if uriPath = Uri.diagGetAnswer then return some (.diagGetAnswer (← NetDiagData.decode message.payload))
    else if uriPath = Uri.relayRx then return some (← parseRelayRx message.payload)
    else return none

end ThreadCommissioner.Notifications
