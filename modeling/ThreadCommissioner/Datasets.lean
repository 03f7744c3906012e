import ThreadCommissioner.Builders

namespace ThreadCommissioner.Datasets

open Builders ByteStrings Coap Computations Errors Meshcop Notifications Tlvs

def tlvChannel : UInt8 := 0x00

def tlvExtendedPanId : UInt8 := 0x02

def tlvNetworkName : UInt8 := 0x03

def tlvPskc : UInt8 := 0x04

def tlvNetworkKey : UInt8 := 0x05

def tlvMeshLocalPrefix : UInt8 := 0x07

def tlvSecurityPolicy : UInt8 := 0x0c

def tlvActiveTimestamp : UInt8 := 0x0e

/-- The TLVs of a dataset, in wire order. -/
structure Dataset where
  tlvs : TlvSet
  deriving DecidableEq, Repr

namespace Dataset

def default : Dataset := ⟨⟨[]⟩⟩

def fromBytes (bytes : Bytes) : Except Error Dataset := do
  return ⟨← ofTlv (TlvSet.parse bytes)⟩

def entries (dataset : Dataset) : List TlvEntry := dataset.tlvs.entries

def toBytes (dataset : Dataset) : Except Error Bytes := ofTlv dataset.tlvs.encode

def raw (dataset : Dataset) (ty : UInt8) : Option Bytes := dataset.tlvs.lastValue ty

def removeAll (dataset : Dataset) (ty : UInt8) : Dataset := ⟨⟨dataset.entries.filter (·.ty ≠ ty)⟩⟩

def setRaw (dataset : Dataset) (ty : UInt8) (value : Bytes) : Dataset :=
  ⟨⟨(dataset.removeAll ty).entries ++ [⟨ty, value⟩]⟩⟩

def meshLocalPrefix (dataset : Dataset) : Except Error (Option (ByteVector 8)) :=
  (dataset.raw tlvMeshLocalPrefix).mapM readArray8

end Dataset

def flag (bit : UInt64) : UInt64 := (1 : UInt64) <<< bit

/-- Flags are the bits that the source wraps. -/
abbrev DatasetFlags := UInt64

def DatasetFlags.meshLocalPrefix : DatasetFlags := flag 11

abbrev CommissionerDatasetFlags := UInt64

def CommissionerDatasetFlags.steeringData : CommissionerDatasetFlags := flag 13

def CommissionerDatasetFlags.joinerUdpPort : CommissionerDatasetFlags := flag 10

def flagTypes (flags : UInt64) (mappings : List (UInt64 × UInt8)) : List UInt8 :=
  mappings.filterMap fun (bit, ty) => if flags &&& bit ≠ 0 then some ty else none

def activeDatasetTlvTypes (flags : UInt64) : List UInt8 :=
  flagTypes flags
    [(flag 15, tlvActiveTimestamp), (flag 14, tlvChannel), (flag 13, tlvChannelMask),
      (flag 12, tlvExtendedPanId), (flag 11, tlvMeshLocalPrefix), (flag 10, tlvNetworkKey),
      (flag 9, tlvNetworkName), (flag 8, tlvPanId), (flag 7, tlvPskc), (flag 6, tlvSecurityPolicy)]

def commissionerDatasetTlvTypes (flags : UInt64) : List UInt8 :=
  flagTypes flags
    [(flag 15, tlvBorderAgentLocator), (flag 14, tlvCommissionerSessionId), (flag 13, tlvSteeringData),
      (flag 12, tlvAeSteeringData), (flag 11, tlvNmkpSteeringData), (flag 10, tlvJoinerUdpPort),
      (flag 9, tlvAeUdpPort), (flag 8, tlvNmkpUdpPort)]

def datasetGetRequest (operation : CommissionerOperation) (messageId : UInt16) (token : Bytes)
    (getTlvTypes : List UInt8) : Except Error CoapMessage := do
  let payload ← if getTlvTypes ≠ [] then appendTlv [] tlvGet getTlvTypes else .ok []
  CoapMessage.postRequest .confirmable messageId token operation.uriPath payload

def datasetSetRequest (operation : CommissionerOperation) (messageId : UInt16) (token : Bytes) (sessionId : UInt16)
    (dataset : Dataset) : Except Error CoapMessage := do
  let payload ← appendU16 [] tlvCommissionerSessionId sessionId
  let payload := payload ++ (← dataset.toBytes)
  CoapMessage.postRequest .confirmable messageId token operation.uriPath payload

def parseState (payload : Bytes) : Except Error (Option MeshcopState) := do
  let tlvs ← ofTlv (TlvSet.parse payload)
  match tlvs.lastValue tlvState with
  | none => return none
  | some [value] => return some (← MeshcopState.fromWire value)
  | some _ => throw (.dataset "State TLV must be 1 byte")

/-- `0x{:02x}`. -/
def hexByte (byte : UInt8) : String :=
  String.ofList ['0', 'x', Nat.digitChar (byte.toNat / 16), Nat.digitChar (byte.toNat % 16)]

def parseStateResponse (response : CoapMessage) (stateMandatory : Bool) : Except Error (Option MeshcopState) := do
  let code := hexByte response.code.byte
  ensure (response.code = .changed) (Error.dataset s!"expected CoAP Changed response, got {code}")
  let state ← parseState response.payload
  ensure (¬ (stateMandatory = true ∧ state = none)) (Error.dataset "missing MeshCoP State TLV")
  return state

def checkStateResponse (response : CoapMessage) (stateMandatory : Bool) : Except Error Unit := do
  match ← parseStateResponse response stateMandatory with
  | none => return ()
  | some .accept => return ()
  | some .pending => throw (.invalidState "MeshCoP response is pending")
  | some .reject => throw (.invalidState "MeshCoP request was rejected")

def stripManagedCommissionerTlvs (dataset : Dataset) : Dataset :=
  (dataset.removeAll tlvCommissionerSessionId).removeAll tlvBorderAgentLocator

section Results

variable {ty : CoapType} {mid : UInt16} {token : Bytes} {op : CommissionerOperation}
  {m : CoapMessage}

/-- A request goes to the resource of its operation. -/
theorem uriPath_of_postRequest {payload : Bytes} (h : CoapMessage.postRequest ty mid token op.uriPath payload = .ok m) :
    m.uriPath = .ok (some op.uriPath) := by
  cases op <;>
    · cases h
      rfl

theorem uriPath_of_datasetGetRequest {getTlvTypes : List UInt8} (h : datasetGetRequest op mid token getTlvTypes = .ok m) :
    m.uriPath = .ok (some op.uriPath) := by
  unfold datasetGetRequest at h
  split at h <;>
    · obtain ⟨payload, -, hpost⟩ := bind_ok.mp h
      exact uriPath_of_postRequest hpost

theorem uriPath_of_datasetSetRequest {sid : UInt16} {ds : Dataset} (h : datasetSetRequest op mid token sid ds = .ok m) :
    m.uriPath = .ok (some op.uriPath) := by
  obtain ⟨payload, -, h⟩ := bind_ok.mp h
  obtain ⟨bytes, -, hpost⟩ := bind_ok.mp h
  exact uriPath_of_postRequest hpost

end Results

end ThreadCommissioner.Datasets
