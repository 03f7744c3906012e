import ThreadCommissioner.JoinerCommands
import ThreadCommissioner.Topology

namespace ThreadCommissioner.DatasetJson

open ByteStrings Commissioners Computations Datasets Diagnostics Errors JoinerCommands Meshcop Notifications Requests Texts
open Tlvs
open ThreadCommissioner.Topology (Channel formatPrefix formatRloc16)

section Values

inductive Number
  | posInt (n : UInt64)
  | negInt (n : Int64)
  | float (bits : UInt64)

/-- `serde_json::Value`. -/
inductive Json
  | null
  | bool (b : Bool)
  | number (n : Number)
  | string (text : Text)
  | array (items : List Json)
  | object (members : List (String × Json))

def Json.get : Json → String → Option Json
  | .object members, key => (members.find? (·.1 = key)).map (·.2)
  | _, _ => none

def Json.asStr : Json → Option Text
  | .string text => some text
  | _ => none

def Json.asU64 : Json → Option UInt64
  | .number (.posInt n) => some n
  | _ => none

def Json.nat (n : ℕ) : Json := .number (.posInt (.ofNat n))

/-- What the standard library and the crate `serde_json` do with texts: the
address and the JSON that they read, and how they print a value. A reader that
fails gives the text of its error. -/
class ConsoleTexts where
  parseSocketAddr : Bytes → Option IpAddr
  fromStr : Text → Except Bytes Json
  toStringPretty : Json → Bytes
  displayIpAddr : IpAddr → Text

end Values

section Hex

def printed (bytes : Bytes) : String := (String.fromUTF8? ⟨bytes.toArray⟩).getD ""

def parseHex [Hex] (s : Text) : Except Error Bytes :=
  let trimmed := trim s.bytes
  let digits := if trimmed.take 2 = ascii "0x" then trimmed.drop 2 else trimmed
  match Hex.decode digits with
  | .ok bytes => .ok bytes
  | .error e =>
    let text := printed digits
    .error (.dataset s!"invalid hex '{text}': {e}")

end Hex

section Fields

def Channel.toValue (channel : Channel) : Bytes := channel.page :: beBytes 2 channel.channel.toNat

structure Timestamp where
  raw : UInt64

namespace Timestamp

def fromComponents (seconds : UInt64) (ticks : UInt16) (authoritative : Bool) : Timestamp :=
  ⟨(seconds <<< 16) ||| ((ticks.toUInt64 &&& 0x7fff) <<< 1) ||| (if authoritative then 1 else 0)⟩

def parse (value : Bytes) : Except Error Timestamp := do return ⟨← ofTlv (readU64 value)⟩

def seconds (timestamp : Timestamp) : UInt64 := timestamp.raw >>> 16

def toValue (timestamp : Timestamp) : Bytes := beBytes 8 timestamp.raw.toNat

end Timestamp

structure SecurityPolicy where
  rotationTime : UInt16
  flags : UInt16

def SecurityPolicy.parse : Bytes → Except Error SecurityPolicy
  | [rotationHigh, rotationLow, flagsHigh, flagsLow] =>
    .ok ⟨.ofNat (beNat [rotationHigh, rotationLow]), .ofNat (beNat [flagsHigh, flagsLow])⟩
  | _ => .error (.dataset "security policy TLV must be 4 bytes")

def SecurityPolicy.toValue (policy : SecurityPolicy) : Bytes :=
  beBytes 2 policy.rotationTime.toNat ++ beBytes 2 policy.flags.toNat

structure ChannelMaskEntry where
  page : UInt8
  mask : Bytes

def ChannelMaskEntry.parseAll : Bytes → Except Error (List ChannelMaskEntry)
  | [] => return []
  | [_] => .error (.dataset "channel mask entry header is truncated")
  | page :: len :: value => do
    if value.length < len.toNat then throw (.dataset "channel mask entry value is truncated")
    else return ⟨page, value.take len.toNat⟩ :: (← ChannelMaskEntry.parseAll (value.drop len.toNat))
termination_by value => value.length
decreasing_by
  simp only [List.length_cons, List.length_drop]
  omega

def ChannelMaskEntry.encodeAll (entries : List ChannelMaskEntry) : Except Error Bytes := do
  let encoded ← entries.mapM fun entry => do
    ensure (entry.mask.length ≤ 255) (Error.dataset "channel mask entry too long")
    return entry.page :: UInt8.ofNat entry.mask.length :: entry.mask
  return encoded.flatten

def readArray (n : ℕ) (value : Bytes) : Except Error Bytes := do
  let length := value.length
  ensure (value.length = n) (Error.dataset s!"expected {n} bytes, got {length}")
  return value

variable (dataset : Dataset)

def networkName : Except Error (Option Text) :=
  (dataset.raw tlvNetworkName).mapM fun value => okOr (fromUtf8 value) (Error.dataset "network name is not UTF-8")

def channel : Except Error (Option Channel) := (dataset.raw tlvChannel).mapM Channel.parse

def panId : Except Error (Option UInt16) := ofTlv ((dataset.raw tlvPanId).mapM readU16)

def extendedPanId : Except Error (Option Bytes) := (dataset.raw tlvExtendedPanId).mapM (readArray 8)

def networkKey : Except Error (Option Bytes) := (dataset.raw tlvNetworkKey).mapM (readArray 16)

def activeTimestamp : Except Error (Option Timestamp) := (dataset.raw tlvActiveTimestamp).mapM Timestamp.parse

def pendingTimestamp : Except Error (Option Timestamp) := (dataset.raw tlvPendingTimestamp).mapM Timestamp.parse

def delayTimer : Except Error (Option UInt32) := ofTlv ((dataset.raw tlvDelayTimer).mapM readU32)

def securityPolicy : Except Error (Option SecurityPolicy) := (dataset.raw tlvSecurityPolicy).mapM SecurityPolicy.parse

def channelMask : Except Error (Option (List ChannelMaskEntry)) :=
  (dataset.raw tlvChannelMask).mapM ChannelMaskEntry.parseAll

end Fields

section Rendering

def timestampJson (timestamp : Timestamp) : Json :=
  .object [("Seconds", .number (.posInt (timestamp.raw >>> 16))),
    ("Ticks", .number (.posInt ((timestamp.raw >>> 1) &&& 0x7fff))), ("U", .number (.posInt (timestamp.raw &&& 1)))]

def channelJson (channel : Channel) : Json :=
  .object [("Page", .nat channel.page.toNat), ("Number", .nat channel.channel.toNat)]

variable [Hex]

def channelMaskJson (entries : List ChannelMaskEntry) : Json :=
  .array (entries.map fun entry => .object [("Page", .nat entry.page.toNat), ("Masks", .string (Hex.encode entry.mask))])

def securityPolicyJson (policy : SecurityPolicy) : Json :=
  .object [("RotationTime", .nat policy.rotationTime.toNat), ("Flags", .string (Hex.encode (policy.toValue.drop 2)))]

def member (key : String) (value : Option Json) : List (String × Json) := value.toList.map fun value => (key, value)

def commDatasetToJson (dataset : Dataset) : Json :=
  let u16Field (ty : UInt8) (key : String) : List (String × Json) :=
    match dataset.raw ty with
    | some [high, low] => [(key, .nat (beNat [high, low]))]
    | _ => []
  let hexField (ty : UInt8) (key : String) : List (String × Json) := member key ((dataset.raw ty).map (.string <| Hex.encode ·))
  .object (u16Field tlvBorderAgentLocator "BorderAgentLocator" ++ u16Field tlvCommissionerSessionId "SessionId" ++
    hexField tlvSteeringData "SteeringData" ++ hexField tlvAeSteeringData "AeSteeringData" ++
    hexField tlvNmkpSteeringData "NmkpSteeringData" ++ u16Field tlvJoinerUdpPort "JoinerUdpPort" ++
    u16Field tlvAeUdpPort "AeUdpPort" ++ u16Field tlvNmkpUdpPort "NmkpUdpPort")

variable [AddressTexts]

def meshLocalPrefixString (meshLocalPrefix : ByteVector 8) : Text := formatPrefix meshLocalPrefix.toList 64

def opDatasetToJson (dataset : Dataset) (pending : Bool) : Except Error Json := do
  let activeTimestamp ← activeTimestamp dataset
  let pendingTimestamp ← if pending then pendingTimestamp dataset else .ok none
  let delay ← if pending then delayTimer dataset else .ok none
  let name ← networkName dataset
  let channel ← channel dataset
  let mask ← channelMask dataset
  let xpanid ← extendedPanId dataset
  let panid ← panId dataset
  let meshLocalPrefix ← dataset.meshLocalPrefix
  let key ← networkKey dataset
  let policy ← securityPolicy dataset
  return .object (member "ActiveTimestamp" (activeTimestamp.map timestampJson) ++
    member "PendingTimestamp" (pendingTimestamp.map timestampJson) ++ member "Delay" (delay.map (.nat ·.toNat)) ++
    member "NetworkName" (name.map .string) ++ member "Channel" (channel.map channelJson) ++
    member "ChannelMask" (mask.map channelMaskJson) ++ member "ExtendedPanId" (xpanid.map (.string <| Hex.encode ·)) ++
    member "PanId" (panid.map (.string <| formatRloc16 ·)) ++
    member "MeshLocalPrefix" (meshLocalPrefix.map (.string <| meshLocalPrefixString ·)) ++
    member "NetworkMasterKey" (key.map (.string <| Hex.encode ·)) ++
    member "PSKc" ((dataset.raw tlvPskc).map (.string <| Hex.encode ·)) ++
    member "SecurityPolicy" (policy.map securityPolicyJson))

end Rendering

section Reading

def asStr (value : Json) (key : String) : Except Error Text :=
  okOr ((value.get key).bind Json.asStr) (.dataset s!"missing or non-string field '{key}'")

def asU64 (value : Json) (key : String) : Except Error UInt64 :=
  okOr ((value.get key).bind Json.asU64) (.dataset s!"missing or non-integer field '{key}'")

def timestampFromJson (value : Json) : Except Error Timestamp := do
  let seconds ← asU64 value "Seconds"
  let ticks := (← asU64 value "Ticks").toUInt16
  let u := (← asU64 value "U") ≠ 0
  return .fromComponents seconds ticks u

/-- Hexadecimal after `0x`, and otherwise hexadecimal if that reads. -/
def parsePanid (s : Text) : Except Error UInt16 :=
  let trimmed := trim s.bytes
  let parsed :=
    if trimmed.take 2 = ascii "0x" ∨ trimmed.take 2 = ascii "0X" then fromStrRadix 16 (2 ^ 16) (trimmed.drop 2)
    else (fromStrRadix 16 (2 ^ 16) trimmed).or (fromStrRadix 10 (2 ^ 16) trimmed)
  let text := printed trimmed
  okOr (parsed.map UInt16.ofNat) (.dataset s!"invalid PAN ID '{text}'")

def parseAddr [AddressTexts] (s : Text) : Option Ipv6Addr := (fromUtf8 (trim s.bytes)).bind AddressTexts.parse

def parseMeshLocalPrefix [AddressTexts] (s : Text) : Except Error Bytes := do
  let text := shown s
  let address ← okOr ((fromUtf8 (trim (s.bytes.takeWhile (· ≠ 0x2f)))).bind AddressTexts.parse)
    (Error.dataset s!"invalid mesh-local prefix '{text}'")
  return address.toList.take 8

def policyFlags : Bytes → Option UInt16
  | high :: low :: _ => some (.ofNat (beNat [high, low]))
  | [only] => some (only.toUInt16 <<< 8)
  | [] => none

def setField (dataset : Dataset) (ty : UInt8) : Option Bytes → Dataset
  | some value => dataset.setRaw ty value
  | none => dataset

variable [Hex]

def channelFromJson (value : Json) : Except Error Channel := do
  let page := (← asU64 value "Page").toUInt8
  let number := (← asU64 value "Number").toUInt16
  return ⟨page, number⟩

def maskEntryFromJson (value : Json) : Except Error ChannelMaskEntry := do
  let page := (← asU64 value "Page").toUInt8
  return ⟨page, ← parseHex (← asStr value "Masks")⟩

def channelMaskFromJson : Option Json → Except Error (Option Bytes)
  | some (.array entries) => do return some (← ChannelMaskEntry.encodeAll (← entries.mapM maskEntryFromJson))
  | _ => return none

def policyFromJson (value : Json) : Except Error SecurityPolicy := do
  let rotation := (← asU64 value "RotationTime").toUInt16
  let flagBytes ← parseHex (← asStr value "Flags")
  let flags ← okOr (policyFlags flagBytes) (Error.dataset "SecurityPolicy Flags must not be empty")
  return ⟨rotation, flags⟩

def opDatasetFromJson [AddressTexts] (value : Json) (pending : Bool) : Except Error Dataset := do
  let text (key : String) : Option Text := (value.get key).bind Json.asStr
  let ts ← (value.get "ActiveTimestamp").mapM timestampFromJson
  let dataset := setField .default tlvActiveTimestamp (ts.map (·.toValue))
  let pendingTs ← if pending then (value.get "PendingTimestamp").mapM timestampFromJson else .ok none
  let dataset := setField dataset tlvPendingTimestamp (pendingTs.map (·.toValue))
  let delay := if pending then (value.get "Delay").bind Json.asU64 else none
  let dataset := setField dataset tlvDelayTimer (delay.map fun delay => beBytes 4 delay.toUInt32.toNat)
  let dataset := setField dataset tlvNetworkName ((text "NetworkName").map (·.bytes))
  let channel ← (value.get "Channel").mapM channelFromJson
  let dataset := setField dataset tlvChannel (channel.map Channel.toValue)
  let dataset := setField dataset tlvChannelMask (← channelMaskFromJson (value.get "ChannelMask"))
  let dataset := setField dataset tlvExtendedPanId (← (text "ExtendedPanId").mapM parseHex)
  let panid ← (text "PanId").mapM parsePanid
  let dataset := setField dataset tlvPanId (panid.map fun panid => beBytes 2 panid.toNat)
  let dataset := setField dataset tlvMeshLocalPrefix (← (text "MeshLocalPrefix").mapM parseMeshLocalPrefix)
  let dataset := setField dataset tlvNetworkKey (← (text "NetworkMasterKey").mapM parseHex)
  let dataset := setField dataset tlvPskc (← (text "PSKc").mapM parseHex)
  let policy ← (value.get "SecurityPolicy").mapM policyFromJson
  return setField dataset tlvSecurityPolicy (policy.map (·.toValue))

def commDatasetFromJson (value : Json) : Except Error Dataset := do
  let hexField (key : String) : Except Error (Option Bytes) := ((value.get key).bind Json.asStr).mapM parseHex
  let u16Field (key : String) : Option Bytes :=
    ((value.get key).bind Json.asU64).map fun n => beBytes 2 n.toUInt16.toNat
  let dataset := setField .default tlvSteeringData (← hexField "SteeringData")
  let dataset := setField dataset tlvAeSteeringData (← hexField "AeSteeringData")
  let dataset := setField dataset tlvNmkpSteeringData (← hexField "NmkpSteeringData")
  let dataset := setField dataset tlvJoinerUdpPort (u16Field "JoinerUdpPort")
  let dataset := setField dataset tlvAeUdpPort (u16Field "AeUdpPort")
  return setField dataset tlvNmkpUdpPort (u16Field "NmkpUdpPort")

end Reading

end ThreadCommissioner.DatasetJson
