import ThreadCommissioner.Datasets

namespace ThreadCommissioner.Requests

open Builders ByteStrings Coap Computations Datasets Diagnostics Errors Meshcop Notifications Texts Tlvs

def tlvCommissionerId : UInt8 := 10

def tlvPendingTimestamp : UInt8 := 0x33

def tlvDelayTimer : UInt8 := 0x34

def tlvCount : UInt8 := 54

def tlvPeriod : UInt8 := 55

def tlvScanDuration : UInt8 := 56

def tlvSecureDissemination : UInt8 := 58

def threadTlvStatus : UInt8 := 4

def threadTlvTimeout : UInt8 := 11

def threadTlvIpv6Addresses : UInt8 := 14

def threadTlvCommissionerSessionId : UInt8 := 15

def networkDiagTlvTypeList : UInt8 := 18

def primaryBbrAloc16 : UInt16 := 0xfc38

/-- How the standard library reads and prints an IPv6 address. -/
class AddressTexts where
  parse : Text → Option Ipv6Addr
  display : Ipv6Addr → Text

/-- The crate `hex`, which encodes in lower case and decodes that again. A
failure is given by its text. -/
class Hex where
  encode : Bytes → Text
  decode : Bytes → Except String Bytes
  encode_lower : ∀ bytes, ∀ byte ∈ (encode bytes).bytes, byte ∈ ascii "0123456789abcdef"
  decode_encode : ∀ bytes, decode (encode bytes).bytes = .ok bytes

def shown (text : Text) : String := (String.fromUTF8? ⟨text.bytes.toArray⟩).getD ""

def isMulticast (address : Ipv6Addr) : Bool := address.head = 0xff

def appendU8 (out : Bytes) (ty value : UInt8) : Except Error Bytes := appendTlv out ty [value]

def appendU32 (out : Bytes) (ty : UInt8) (value : UInt32) : Except Error Bytes :=
  appendTlv out ty (beBytes 4 value.toNat)

def ChannelMaskEntry.encodeAll : List ChannelMaskEntry → Except Error Bytes
  | [] => .ok []
  | entry :: entries => do
    ensure (entry.mask.length ≤ 255) (Error.dataset "channel mask entry too long")
    return entry.page :: UInt8.ofNat entry.mask.length :: entry.mask ++ (← encodeAll entries)

def channelMaskValue (channelMask : UInt32) : Except Error Bytes := do
  ensure (channelMask ≠ 0) (Error.dataset "channel mask must not be zero")
  ChannelMaskEntry.encodeAll [⟨0, beBytes 4 channelMask.toNat⟩]

def pendingDatasetTlvTypes (flags : UInt64) : List UInt8 :=
  activeDatasetTlvTypes flags ++ flagTypes flags [(flag 5, tlvDelayTimer), (flag 4, tlvPendingTimestamp)]

def networkDiagTlvTypes (flags : UInt64) : List UInt8 :=
  flagTypes flags
    [(flag 0, 0), (flag 1, 1), (flag 2, 2), (flag 3, 5), (flag 4, 6), (flag 5, 8), (flag 8, 9), (flag 6, 16),
      (flag 7, 23), (flag 9, 30), (flag 10, 7), (flag 11, 3), (flag 12, 4), (flag 13, 14), (flag 14, 15), (flag 15, 17),
      (flag 16, 18)]

section Builders

variable (messageId : UInt16) (token : Bytes)

/-- A request to the resource of the operation, once its payload is built. -/
def requestOf (operation : CommissionerOperation) (confirmable : Bool) (payload : Except Error Bytes) :
    Except Error CoapMessage := do
  CoapMessage.postRequest (if confirmable then .confirmable else .nonConfirmable) messageId token operation.uriPath
    (← payload)

def petitionRequest (commissionerId : Text) : Except Error CoapMessage :=
  requestOf messageId token .petition true (appendTlv [] tlvCommissionerId commissionerId.bytes)

def keepAliveRequest (sessionId : UInt16) (keepAlive : Bool) : Except Error CoapMessage :=
  let state : MeshcopState := if keepAlive then .accept else .reject
  requestOf messageId token .keepAlive true do
    let payload ← appendTlv [] tlvState [state.toWire]
    appendU16 payload tlvCommissionerSessionId sessionId

def Dataset.pendingTimestamp (dataset : Dataset) : Except Error (Option UInt64) :=
  (dataset.raw tlvPendingTimestamp).mapM fun value => ofTlv (readU64 value)

def securePendingSetRequest (sessionId : UInt16) (maxRetrievalTimer : UInt32) (retrievalUri : Bytes)
    (dataset : Dataset) : Except Error CoapMessage :=
  requestOf messageId token .setSecurePendingDataset true do
    let pendingTimestamp ← Dataset.pendingTimestamp dataset
    let timestamp := (pendingTimestamp.map fun raw => beBytes 8 raw.toNat).getD []
    let secureDissemination := timestamp ++ beBytes 4 maxRetrievalTimer.toNat ++ retrievalUri
    let payload ← appendU16 [] tlvCommissionerSessionId sessionId
    let payload ← appendTlv payload tlvSecureDissemination secureDissemination
    return payload ++ (← dataset.toBytes)

def announceBeginRequest (sessionId : UInt16) (channelMask : UInt32) (count : UInt8) (periodMs : UInt16)
    (confirmable : Bool) : Except Error CoapMessage :=
  requestOf messageId token .announceBegin confirmable do
    let payload ← appendU16 [] tlvCommissionerSessionId sessionId
    let payload ← appendTlv payload tlvChannelMask (← channelMaskValue channelMask)
    let payload ← appendU8 payload tlvCount count
    appendU16 payload tlvPeriod periodMs

def panIdQueryRequest (sessionId : UInt16) (channelMask : UInt32) (panId : UInt16) (confirmable : Bool) :
    Except Error CoapMessage :=
  requestOf messageId token .panIdQuery confirmable do
    let payload ← appendU16 [] tlvCommissionerSessionId sessionId
    let payload ← appendTlv payload tlvChannelMask (← channelMaskValue channelMask)
    appendU16 payload tlvPanId panId

structure EnergyScanRequest where
  channelMask : UInt32
  count : UInt8
  periodMs : UInt16
  scanDurationMs : UInt16
  confirmable : Bool

def energyScanRequest (sessionId : UInt16) (scan : EnergyScanRequest) : Except Error CoapMessage :=
  requestOf messageId token .energyScan scan.confirmable do
    let payload ← appendU16 [] tlvCommissionerSessionId sessionId
    let payload ← appendTlv payload tlvChannelMask (← channelMaskValue scan.channelMask)
    let payload ← appendU8 payload tlvCount scan.count
    let payload ← appendU16 payload tlvPeriod scan.periodMs
    appendU16 payload tlvScanDuration scan.scanDurationMs

def sessionCommandRequest (operation : CommissionerOperation) (sessionId : UInt16) (confirmable : Bool) :
    Except Error CoapMessage :=
  requestOf messageId token operation confirmable (appendU16 [] tlvCommissionerSessionId sessionId)

def migrateRequest (sessionId : UInt16) (designatedNetwork : Text) (confirmable : Bool) : Except Error CoapMessage :=
  requestOf messageId token .migrate confirmable do
    let payload ← appendU16 [] tlvCommissionerSessionId sessionId
    appendTlv payload tlvNetworkName designatedNetwork.bytes

def diagnosticRequest (operation : CommissionerOperation) (diagDataFlags : UInt64) (confirmable : Bool) :
    Except Error CoapMessage :=
  requestOf messageId token operation confirmable
    (appendTlv [] networkDiagTlvTypeList (networkDiagTlvTypes diagDataFlags))

def multicastListenerRequest [AddressTexts] (sessionId : UInt16) (addresses : List Ipv6Addr) (timeout : UInt32) :
    Except Error CoapMessage :=
  requestOf messageId token .registerMulticastListener true do
    ensure (addresses ≠ []) (Error.dataset "multicast listener request needs at least one address")
    addresses.forM fun address =>
      let printed := shown (AddressTexts.display address)
      ensure (isMulticast address) (Error.dataset s!"{printed} is not an IPv6 multicast address")
    let payload ← appendU16 [] threadTlvCommissionerSessionId sessionId
    let payload ← appendU32 payload threadTlvTimeout timeout
    appendTlv payload threadTlvIpv6Addresses (addresses.flatMap List.Vector.toList)

def relayTxRequest (joinerIid : Bytes) (joinerUdpPort joinerRouterLocator : UInt16) (payload : Bytes) :
    Except Error CoapMessage :=
  relayTxRequestWithKek messageId token joinerIid joinerUdpPort joinerRouterLocator payload none

end Builders

structure MeshcopPetitionResponse where
  state : MeshcopState
  sessionId : Option UInt16
  existingCommissionerId : Option Text
  deriving DecidableEq

def parsePetitionResponse (response : CoapMessage) : Except Error MeshcopPetitionResponse := do
  let _ ← parseStateResponse response true
  let tlvs ← ofTlv (TlvSet.parse response.payload)
  let state ← okOr (← parseState response.payload) (Error.dataset "missing petition State TLV")
  let sessionId ← (tlvs.lastValue tlvCommissionerSessionId).mapM fun value => ofTlv (readU16 value)
  let existingCommissionerId ← (tlvs.lastValue tlvCommissionerId).mapM fun value =>
    okOr (fromUtf8 value) (Error.dataset "Commissioner ID TLV is not UTF-8")
  return { state, sessionId, existingCommissionerId }

def requireDatasetTlvs (dataset : Dataset) (required : List (UInt8 × String)) : Except Error Unit :=
  required.forM fun (ty, name) => ensure (dataset.raw ty ≠ none) (Error.dataset s!"{name} TLV is mandatory")

section Results

variable {op : CommissionerOperation} {mid : UInt16} {token : Bytes} {message : CoapMessage}

theorem requestOf_eq_ok {confirmable : Bool} {payload : Except Error Bytes} :
    requestOf mid token op confirmable payload = .ok message ↔ ∃ bytes, payload = .ok bytes ∧
        CoapMessage.postRequest (if confirmable then .confirmable else .nonConfirmable) mid token op.uriPath
          bytes = .ok message := bind_ok

theorem petitionRequest_eq_error {commissionerId : Text} (h : maxExtendedTlvLength < commissionerId.bytes.length) :
    ∃ e, petitionRequest mid token commissionerId = .error e := by
  cases hreq : petitionRequest mid token commissionerId with
  | error e => exact ⟨e, rfl⟩
  | ok request =>
    obtain ⟨bytes, hbytes, -⟩ := requestOf_eq_ok.mp hreq
    exact absurd (appendTlv_eq_ok.mp hbytes).1 (Nat.not_le.mpr h)

theorem exists_petitionRequest {commissionerId : Text} (h : commissionerId.bytes.length ≤ maxExtendedTlvLength)
    (mid : UInt16) (token : Bytes) : ∃ request, petitionRequest mid token commissionerId = .ok request := by
  rw [petitionRequest, requestOf, appendTlv_of_le h]
  exact ⟨_, rfl⟩

end Results

end ThreadCommissioner.Requests
