import ThreadCommissioner.Meshcop

namespace ThreadCommissioner.Diagnostics

open ByteStrings Computations Errors Framing List Tlvs

abbrev Ipv6Addr := ByteVector 16

structure ModeData where
  rxOnWhenIdle : Bool
  isMtd : Bool
  requiresFullNetworkData : Bool
  deriving DecidableEq

structure ChildTableEntry where
  timeoutExponent : UInt8
  incomingLinkQuality : UInt8
  childId : UInt16
  mode : ModeData
  deriving DecidableEq

structure LeaderData where
  partitionId : UInt32
  weighting : UInt8
  dataVersion : UInt8
  stableDataVersion : UInt8
  routerId : UInt8
  deriving DecidableEq

structure RouteDataEntry where
  routerId : UInt8
  outgoingLinkQuality : UInt8
  incomingLinkQuality : UInt8
  routeCost : UInt8
  deriving DecidableEq

structure Route64 where
  idSequence : UInt8
  mask : ByteVector 8
  routeData : List RouteDataEntry
  deriving DecidableEq

structure ChildIpv6AddrInfo where
  rloc16 : UInt16
  childId : UInt16
  addresses : List Ipv6Addr
  deriving DecidableEq

structure MacCounters where
  ifInUnknownProtos : UInt32
  ifInErrors : UInt32
  ifOutErrors : UInt32
  ifInUcastPkts : UInt32
  ifInBroadcastPkts : UInt32
  ifInDiscards : UInt32
  ifOutUcastPkts : UInt32
  ifOutBroadcastPkts : UInt32
  ifOutDiscards : UInt32
  deriving DecidableEq

structure Connectivity where
  parentPriority : ℤ
  linkQuality3 : UInt8
  linkQuality2 : UInt8
  linkQuality1 : UInt8
  leaderCost : UInt8
  idSequence : UInt8
  activeRouters : UInt8
  rxOffChildBufferSize : Option UInt16
  rxOffChildDatagramCount : Option UInt8
  deriving DecidableEq

structure HasRouteEntry where
  rloc16 : UInt16
  routerPreference : UInt8
  isNat64 : Bool
  deriving DecidableEq

structure BorderRouterEntry where
  rloc16 : UInt16
  prefixPreference : UInt8
  isPreferred : Bool
  isSlaac : Bool
  isDhcp : Bool
  isConfigure : Bool
  isDefaultRoute : Bool
  isOnMesh : Bool
  isNdDns : Bool
  isDp : Bool
  deriving DecidableEq

structure SixLowPanContext where
  isCompress : Bool
  contextId : UInt8
  contextLength : UInt8
  deriving DecidableEq

structure PrefixEntry where
  domainId : UInt8
  prefixBitLength : UInt8
  prefixBytes : Bytes
  sixLowPanContext : Option SixLowPanContext := none
  hasRoute : List HasRouteEntry := []
  borderRouters : List BorderRouterEntry := []
  deriving DecidableEq

structure NetworkData where
  prefixes : List PrefixEntry
  deriving DecidableEq

structure NetDiagData where
  extMacAddr : Option Bytes := none
  macAddr : Option UInt16 := none
  mode : Option ModeData := none
  timeout : Option UInt32 := none
  connectivity : Option Connectivity := none
  route64 : Option Route64 := none
  leaderData : Option LeaderData := none
  networkData : Option NetworkData := none
  addresses : Option (List Ipv6Addr) := none
  macCounters : Option MacCounters := none
  batteryLevel : Option UInt8 := none
  supplyVoltage : Option UInt16 := none
  childTable : Option (List ChildTableEntry) := none
  channelPages : Option Bytes := none
  typeList : Option Bytes := none
  eui64 : Option (ByteVector 8) := none
  childIpv6Addresses : Option (List ChildIpv6AddrInfo) := none
  deriving DecidableEq

namespace DiagTlv

def extMacAddress : UInt8 := 0
def macAddress : UInt8 := 1
def mode : UInt8 := 2
def timeout : UInt8 := 3
def connectivity : UInt8 := 4
def route64 : UInt8 := 5
def leaderData : UInt8 := 6
def networkData : UInt8 := 7
def ipv6Addresses : UInt8 := 8
def macCounters : UInt8 := 9
def batteryLevel : UInt8 := 14
def supplyVoltage : UInt8 := 15
def childTable : UInt8 := 16
def channelPages : UInt8 := 17
def typeList : UInt8 := 18
def eui64 : UInt8 := 23
def childIpv6Addresses : UInt8 := 30

end DiagTlv

section Values

def byteAt (bytes : Bytes) (i : ℕ) : UInt8 := bytes.getD i 0

def fromBe16 (high low : UInt8) : UInt16 := .ofNat (beNat [high, low])

def chunksExact (size : ℕ) (value : Bytes) : List Bytes :=
  (List.range (value.length / size)).map fun i => (value.drop (size * i)).take size

def bitSet (byte : UInt8) (shift : UInt8) : Bool := byte >>> shift &&& 0x01 ≠ 0

def wholeEntries (value : Bytes) (size : ℕ) (name : String) : Except Error Unit :=
  let length := value.length
  ensure (value.length % size = 0) (Error.dataset s!"{name} length {length} is not a multiple of {size}")

def readU8 (value : Bytes) (name : String) : Except Error UInt8 :=
  match value with
  | [byte] => .ok byte
  | _ =>
    let length := value.length
    .error (.dataset s!"{name} must be 1 byte, got {length}")

def readU16 (value : Bytes) (name : String) : Except Error UInt16 :=
  let length := value.length
  if length = 2 then .ok (.ofNat (beNat value))
  else .error (.dataset s!"{name} must be 2 bytes, got {length}")

def readU32 (value : Bytes) (name : String) : Except Error UInt32 :=
  let length := value.length
  if length = 4 then .ok (.ofNat (beNat value))
  else .error (.dataset s!"{name} must be 4 bytes, got {length}")

def ModeData.decode (value : Bytes) : Except Error ModeData :=
  match value with
  | [mode] => .ok {
      rxOnWhenIdle := mode &&& 0x08 ≠ 0
      isMtd := mode &&& 0x02 = 0
      requiresFullNetworkData := mode &&& 0x01 ≠ 0 }
  | _ =>
    let length := value.length
    .error (.dataset s!"Mode value must be 1 byte, got {length}")

def decodeConnectivity (value : Bytes) : Except Error Connectivity :=
  let length := value.length
  if length < 7 then .error (.dataset s!"Connectivity must be at least 7 bytes, got {length}")
  else
    let priority := byteAt value 0 >>> 6
    let extended := 10 ≤ length
    .ok {
      parentPriority := if priority = 0b01 then 1 else if priority = 0b00 then 0 else if priority = 0b11 then -1 else -2
      linkQuality3 := byteAt value 1
      linkQuality2 := byteAt value 2
      linkQuality1 := byteAt value 3
      leaderCost := byteAt value 4
      idSequence := byteAt value 5
      activeRouters := byteAt value 6
      rxOffChildBufferSize := if extended then some (fromBe16 (byteAt value 7) (byteAt value 8)) else none
      rxOffChildDatagramCount := if extended then some (byteAt value 9) else none }

def routerIdMaskLen : ℕ := 8

/-- The positions of the bits set in a mask, the most significant bit of its
first byte being position 0. -/
def maskedIds (mask : Bytes) : List ℕ :=
  (List.range (routerIdMaskLen * 8)).filter fun bit =>
    byteAt mask (bit / 8) &&& (0x80 : UInt8) >>> UInt8.ofNat (bit % 8) ≠ 0

def decodeRoute64 (value : Bytes) : Except Error Route64 :=
  let length := value.length
  if h : length < routerIdMaskLen + 1 then .error (.dataset s!"Route64 must be at least 9 bytes, got {length}")
  else
    let mask : ByteVector 8 := ⟨(value.drop 1).take routerIdMaskLen, by
      simp only [length, routerIdMaskLen] at h ⊢
      simp only [List.length_take, List.length_drop]
      omega⟩
    let routerIds := maskedIds mask.toList
    let routeBytes := value.drop (1 + routerIdMaskLen)
    let entries := routeBytes.length
    let ids := routerIds.length
    if entries ≠ ids then
      .error (.dataset s!"Route64 route data has {entries} entries but the mask assigns {ids} router IDs")
    else .ok {
      idSequence := byteAt value 0
      mask
      routeData := (routerIds.zip routeBytes).map fun (routerId, byte) => {
        routerId := .ofNat routerId
        outgoingLinkQuality := byte >>> 6 &&& 0x03
        incomingLinkQuality := byte >>> 4 &&& 0x03
        routeCost := byte &&& 0x0f } }

def decodeLeaderData (value : Bytes) : Except Error LeaderData :=
  let length := value.length
  if length ≠ 8 then .error (.dataset s!"Leader Data must be 8 bytes, got {length}")
  else .ok {
    partitionId := .ofNat (beNat (value.take 4))
    weighting := byteAt value 4
    dataVersion := byteAt value 5
    stableDataVersion := byteAt value 6
    routerId := byteAt value 7 }

def addressOf (chunk : Bytes) : Ipv6Addr := List.Vector.ofFn fun i => byteAt chunk i

def decodeIpv6AddressList (value : Bytes) : Except Error (List Ipv6Addr) := do
  wholeEntries value 16 "IPv6 address list"
  return (chunksExact 16 value).map addressOf

def decodeMacCounters (value : Bytes) : Except Error MacCounters :=
  let length := value.length
  if length ≠ 36 then .error (.dataset s!"MAC Counters must be 36 bytes, got {length}")
  else
    let counter (idx : ℕ) : UInt32 := .ofNat (beNat ((value.drop idx).take 4))
    .ok {
      ifInUnknownProtos := counter 0
      ifInErrors := counter 4
      ifOutErrors := counter 8
      ifInUcastPkts := counter 12
      ifInBroadcastPkts := counter 16
      ifInDiscards := counter 20
      ifOutUcastPkts := counter 24
      ifOutBroadcastPkts := counter 28
      ifOutDiscards := counter 32 }

def decodeChildTable (value : Bytes) : Except Error (List ChildTableEntry) := do
  wholeEntries value 3 "Child Table"
  (chunksExact 3 value).mapM fun chunk => do
    let mode ← ModeData.decode ((chunk.drop 2).take 1)
    return {
      timeoutExponent := byteAt chunk 0 >>> 3
      incomingLinkQuality := byteAt chunk 0 >>> 1 &&& 0x03
      childId := (byteAt chunk 0 &&& 0x01).toUInt16 <<< 8 ||| (byteAt chunk 1).toUInt16
      mode }

def decodeChildIpv6Addresses (value : Bytes) : Except Error ChildIpv6AddrInfo := do
  ensure (2 ≤ value.length ∧ (value.length - 2) % 16 = 0)
    (Error.dataset "Child IPv6 Address List must be an RLOC16 followed by whole addresses")
  let rloc16 := fromBe16 (byteAt value 0) (byteAt value 1)
  let addresses ← decodeIpv6AddressList (value.drop 2)
  return { rloc16, childId := rloc16 &&& 0x01ff, addresses }

end Values

section NetworkDatas

/-- One turn of the iterator over network data TLVs: the type without its
stable flag, and the value. -/
def nextNetworkDataTlv : Bytes → Except Error ((UInt8 × Bytes) × Bytes)
  | first :: length :: afterHeader =>
    if afterHeader.length < length.toNat then .error (.dataset "network data TLV value is truncated")
    else .ok ((first >>> 1, afterHeader.take length.toNat), afterHeader.drop length.toNat)
  | _ => .error (.dataset "network data TLV header is truncated")

theorem nextNetworkDataTlv_shrinks {bytes rest : Bytes} {tlv : UInt8 × Bytes}
    (h : nextNetworkDataTlv bytes = .ok (tlv, rest)) : rest.length < bytes.length := by
  unfold nextNetworkDataTlv at h
  split at h
  · split at h
    · cases h
    · cases h
      simp only [length_drop, length_cons]
      omega
  · cases h

def networkDataTlvs : Framer Error (UInt8 × Bytes) := ⟨nextNetworkDataTlv, nextNetworkDataTlv_shrinks⟩

def decodeHasRoute (value : Bytes) : Except Error (List HasRouteEntry) := do
  wholeEntries value 3 "HasRoute"
  return (chunksExact 3 value).map fun chunk => {
    rloc16 := fromBe16 (byteAt chunk 0) (byteAt chunk 1)
    routerPreference := byteAt chunk 2 >>> 6 &&& 0x03
    isNat64 := bitSet (byteAt chunk 2) 5 }

def decodeBorderRouter (value : Bytes) : Except Error (List BorderRouterEntry) := do
  wholeEntries value 4 "BorderRouter"
  return (chunksExact 4 value).map fun chunk => {
    rloc16 := fromBe16 (byteAt chunk 0) (byteAt chunk 1)
    prefixPreference := byteAt chunk 2 >>> 6 &&& 0x03
    isPreferred := bitSet (byteAt chunk 2) 5
    isSlaac := bitSet (byteAt chunk 2) 4
    isDhcp := bitSet (byteAt chunk 2) 3
    isConfigure := bitSet (byteAt chunk 2) 2
    isDefaultRoute := bitSet (byteAt chunk 2) 1
    isOnMesh := bitSet (byteAt chunk 2) 0
    isNdDns := bitSet (byteAt chunk 3) 7
    isDp := bitSet (byteAt chunk 3) 6 }

def decodeSixLowPanContext (value : Bytes) : Except Error SixLowPanContext :=
  match value with
  | [flags, contextLength] => .ok { isCompress := bitSet flags 4, contextId := flags &&& 0x0f, contextLength }
  | _ =>
    let length := value.length
    .error (.dataset s!"6LoWPAN context must be 2 bytes, got {length}")

def networkDataHasRoute : UInt8 := 0

def networkDataPrefix : UInt8 := 1

def networkDataBorderRouter : UInt8 := 2

def networkData6LowpanContext : UInt8 := 3

def prefixSubTlv (entry : PrefixEntry) (tlv : UInt8 × Bytes) : Except Error PrefixEntry :=
  if tlv.1 = networkDataHasRoute then do
    return { entry with hasRoute := entry.hasRoute ++ (← decodeHasRoute tlv.2) }
  else if tlv.1 = networkDataBorderRouter then do
    return { entry with borderRouters := entry.borderRouters ++ (← decodeBorderRouter tlv.2) }
  else if tlv.1 = networkData6LowpanContext then do
    return { entry with sixLowPanContext := some (← decodeSixLowPanContext tlv.2) }
  else .ok entry

def decodePrefixEntry : Bytes → Except Error PrefixEntry
  | domainId :: prefixBitLength :: rest =>
    let prefixLen := (prefixBitLength.toNat + 7) / 8
    if rest.length < prefixLen then .error (.dataset "Prefix bytes are truncated")
    else networkDataTlvs.fold prefixSubTlv { domainId, prefixBitLength, prefixBytes := rest.take prefixLen }
      (rest.drop prefixLen)
  | _ => .error (.dataset "Prefix entry is truncated")

def NetworkData.decode (value : Bytes) : Except Error NetworkData := do
  let prefixes ← networkDataTlvs.fold (fun prefixes tlv =>
    if tlv.1 = networkDataPrefix then do return prefixes ++ [← decodePrefixEntry tlv.2] else .ok prefixes) [] value
  return { prefixes }

end NetworkDatas

def NetDiagData.readEntry (out : NetDiagData) (entry : TlvEntry) : Except Error NetDiagData :=
  let value := entry.value
  if entry.ty = DiagTlv.extMacAddress then .ok { out with extMacAddr := some value }
  else if entry.ty = DiagTlv.macAddress then do return { out with macAddr := some (← readU16 value "MAC Address") }
  else if entry.ty = DiagTlv.mode then do return { out with mode := some (← ModeData.decode value) }
  else if entry.ty = DiagTlv.timeout then do return { out with timeout := some (← readU32 value "Timeout") }
  else if entry.ty = DiagTlv.connectivity then do return { out with connectivity := some (← decodeConnectivity value) }
  else if entry.ty = DiagTlv.route64 then do return { out with route64 := some (← decodeRoute64 value) }
  else if entry.ty = DiagTlv.leaderData then do return { out with leaderData := some (← decodeLeaderData value) }
  else if entry.ty = DiagTlv.networkData then do return { out with networkData := some (← NetworkData.decode value) }
  else if entry.ty = DiagTlv.ipv6Addresses then do return { out with addresses := some (← decodeIpv6AddressList value) }
  else if entry.ty = DiagTlv.macCounters then do return { out with macCounters := some (← decodeMacCounters value) }
  else if entry.ty = DiagTlv.batteryLevel then do return { out with batteryLevel := some (← readU8 value "Battery Level") }
  else if entry.ty = DiagTlv.supplyVoltage then do
    return { out with supplyVoltage := some (← readU16 value "Supply Voltage") }
  else if entry.ty = DiagTlv.childTable then do return { out with childTable := some (← decodeChildTable value) }
  else if entry.ty = DiagTlv.channelPages then .ok { out with channelPages := some value }
  else if entry.ty = DiagTlv.typeList then .ok { out with typeList := some value }
  else if entry.ty = DiagTlv.eui64 then
    let length := value.length
    if h : value.length = 8 then .ok { out with eui64 := some ⟨value, h⟩ }
    else .error (.dataset s!"EUI-64 must be 8 bytes, got {length}")
  else if entry.ty = DiagTlv.childIpv6Addresses then do
    let info ← decodeChildIpv6Addresses value
    return { out with childIpv6Addresses := some (out.childIpv6Addresses.getD [] ++ [info]) }
  else .ok out

def NetDiagData.decode (payload : Bytes) : Except Error NetDiagData := do
  let tlvs ← ofTlv (TlvSet.parse payload)
  tlvs.entries.foldlM NetDiagData.readEntry {}

end ThreadCommissioner.Diagnostics
