import ThreadCommissioner.Requests

namespace ThreadCommissioner.Topology

open ByteStrings Diagnostics Errors Requests Texts

section Formats

def hexDigit (digit : ℕ) : UInt8 := if digit < 10 then .ofNat (0x30 + digit) else .ofNat (0x57 + digit)

/-- The digits of `{:x}`. -/
def lowerHex (bytes : Bytes) : Bytes := bytes.flatMap fun byte => [hexDigit (byte.toNat / 16), hexDigit (byte.toNat % 16)]

theorem hexDigit_table : (∀ digit : Fin 16, hexDigit digit.val < 0x80) ∧
      ∀ digit digit' : Fin 16, hexDigit digit.val = hexDigit digit'.val → digit = digit' := by decide

theorem hexDigit_inj {digit digit' : ℕ} (hdigit : digit < 16) (hdigit' : digit' < 16) (h : hexDigit digit = hexDigit digit') :
    digit = digit' := Fin.mk.inj_iff.mp (hexDigit_table.2 ⟨digit, hdigit⟩ ⟨digit', hdigit'⟩ h)

theorem digits_lt (byte : UInt8) : byte.toNat / 16 < 16 ∧ byte.toNat % 16 < 16 := by
  have hbyte := byte.toNat_lt
  omega

theorem ascii_lowerHex (bytes : Bytes) : ∀ b ∈ lowerHex bytes, b < 0x80 := by
  intro b hb
  obtain ⟨byte, -, hb⟩ := List.mem_flatMap.mp hb
  obtain ⟨hhigh, hlow⟩ := digits_lt byte
  rcases List.mem_cons.mp hb with rfl | hb
  · exact hexDigit_table.1 ⟨_, hhigh⟩
  · rw [List.mem_singleton.mp hb]
    exact hexDigit_table.1 ⟨_, hlow⟩

theorem lowerHex_injective : Function.Injective lowerHex := by
  intro bytes
  induction bytes with
  | nil =>
    intro bytes' h
    cases bytes' with
    | nil => rfl
    | cons byte' bytes' => cases h
  | cons byte bytes ih =>
    intro bytes' h
    cases bytes' with
    | nil => cases h
    | cons byte' bytes' =>
      obtain ⟨hhigh, h⟩ := List.cons.inj h
      obtain ⟨hlow, h⟩ := List.cons.inj h
      have hhigh := hexDigit_inj (digits_lt byte).1 (digits_lt byte').1 hhigh
      have hlow := hexDigit_inj (digits_lt byte).2 (digits_lt byte').2 hlow
      have hbyte : byte = byte' := UInt8.toNat_inj.mp (by omega)
      rw [hbyte, ih h]

def lowerHexText (bytes : Bytes) : Text := ⟨lowerHex bytes, utf8Valid_of_ascii (ascii_lowerHex bytes)⟩

/-- `0x{:04x}`. -/
def formatRloc16 (rloc16 : UInt16) : Text :=
  Text.append ⟨ascii "0x", utf8Valid_hexMark⟩ (lowerHexText (beBytes 2 rloc16.toNat))

theorem formatRloc16_inj {rloc16 rloc16' : UInt16} : formatRloc16 rloc16 = formatRloc16 rloc16' ↔ rloc16 = rloc16' := by
  refine ⟨fun h => ?_, congrArg formatRloc16⟩
  have hbytes := lowerHex_injective (List.append_cancel_left (congrArg Text.bytes h))
  exact UInt16.toNat_inj.mp ((beBytes_inj rloc16.toNat_lt rloc16'.toNat_lt).mp hbytes)

def decimalDigit (digit : ℕ) : UInt8 := .ofNat (0x30 + digit % 10)

theorem decimalDigit_lt (digit : ℕ) : decimalDigit digit < 0x80 := by
  have htable : ∀ digit : Fin 10, UInt8.ofNat (0x30 + digit.val) < 0x80 := by decide
  exact htable ⟨digit % 10, Nat.mod_lt _ (by decide)⟩

/-- `{}` of a byte. -/
def decimalText (value : UInt8) : Text where
  bytes :=
    if value < 10 then [decimalDigit value.toNat]
    else if value < 100 then [decimalDigit (value.toNat / 10), decimalDigit value.toNat]
    else [decimalDigit (value.toNat / 100), decimalDigit (value.toNat / 10), decimalDigit value.toNat]
  valid := by
    refine utf8Valid_of_ascii fun b hb => ?_
    split_ifs at hb <;>
      · simp only [List.mem_cons, List.not_mem_nil, or_false] at hb
        rcases hb with rfl | rfl | rfl <;> exact decimalDigit_lt _

/-- `addr/len`. -/
def formatPrefix [AddressTexts] (prefixBytes : Bytes) (bitLength : UInt8) : Text :=
  let address : Ipv6Addr := List.Vector.ofFn fun i => prefixBytes.getD i 0
  (AddressTexts.display address).append (slash.append (decimalText bitLength))

end Formats

def routerId (rloc16 : UInt16) : UInt8 := (rloc16 >>> 10).toUInt8

/-- The child ID is the low 10 bits; those of a router are zero. -/
def childId (rloc16 : UInt16) : Option UInt16 := if rloc16 &&& 0x03ff = 0 then none else some (rloc16 &&& 0x03ff)

/-- `u16::from(router_id) << 10`. -/
def rlocOfRouter (routerId : UInt8) : UInt16 := routerId.toUInt16 <<< 10

/-- How a node's information was obtained. -/
inductive Discovery
  | directQuery
  | parentTable
  | unreachable
  deriving DecidableEq

inductive Role
  | leader
  | router
  | child
  deriving DecidableEq

inductive DeviceType
  | ftd
  | mtd
  deriving DecidableEq

structure ModeInfo where
  rxOnWhenIdle : Bool
  deviceType : DeviceType
  fullNetworkData : Bool
  deriving DecidableEq

def ModeInfo.fromMode (mode : ModeData) : ModeInfo where
  rxOnWhenIdle := mode.rxOnWhenIdle
  deviceType := if mode.isMtd then .mtd else .ftd
  fullNetworkData := mode.requiresFullNetworkData

/-- How the reporting router reaches a router of its table. -/
inductive Relation
  | self
  | neighbor
  | multihop
  deriving DecidableEq

structure RouteEntryInfo where
  routerId : UInt8
  rloc16 : Text
  relation : Relation
  linkQualityIn : UInt8
  linkQualityOut : UInt8
  routeCost : UInt8
  deriving DecidableEq

structure ChildEntryInfo where
  rloc16 : Text
  childId : UInt16
  timeoutSeconds : UInt32
  incomingLinkQuality : UInt8
  mode : ModeInfo
  deriving DecidableEq

structure HasRouteInfo where
  rloc16 : Text
  preference : UInt8
  nat64 : Bool
  deriving DecidableEq

structure BorderRouterInfo where
  rloc16 : Text
  preference : UInt8
  flags : Bytes
  deriving DecidableEq

structure PrefixInfo where
  prefixText : Text
  domainId : UInt8
  sixLowpanContextId : Option UInt8
  hasRoute : List HasRouteInfo
  borderRouters : List BorderRouterInfo
  deriving DecidableEq

/-- Everything known about one device. The connectivity, the leader data and the
counters are the decoded ones under other names. -/
structure Node where
  rloc16 : Text
  routerId : UInt8
  childId : Option UInt16
  role : Role
  discovery : Discovery
  parentRloc16 : Option Text := none
  extMacAddress : Option Text := none
  eui64 : Option Text := none
  mode : Option ModeInfo := none
  timeoutSeconds : Option UInt32 := none
  ipv6Addresses : List Text := []
  connectivity : Option Connectivity := none
  leaderData : Option LeaderData := none
  routeTable : List RouteEntryInfo := []
  childTable : List ChildEntryInfo := []
  macCounters : Option MacCounters := none
  batteryLevelPercent : Option UInt8 := none
  supplyVoltageMv : Option UInt16 := none
  networkDataPrefixes : List PrefixInfo := []
  channelPages : Option Bytes := none
  deriving DecidableEq

def timeoutSeconds (entry : ChildTableEntry) : UInt32 :=
  if entry.timeoutExponent < 4 then 0 else 1 <<< (entry.timeoutExponent - 4).toUInt32

def childEntryInfo (parentRloc : UInt16) (entry : ChildTableEntry) : ChildEntryInfo where
  rloc16 := formatRloc16 (parentRloc ||| entry.childId)
  childId := entry.childId
  timeoutSeconds := timeoutSeconds entry
  incomingLinkQuality := entry.incomingLinkQuality
  mode := .fromMode entry.mode

def borderRouterFlags (entry : BorderRouterEntry) : Bytes :=
  [(entry.isPreferred, 'p'), (entry.isSlaac, 'a'), (entry.isDhcp, 'd'), (entry.isConfigure, 'c'), (entry.isDefaultRoute, 'r'),
    (entry.isOnMesh, 'o'), (entry.isNdDns, 'n'), (entry.isDp, 'D')].filterMap fun (set, label) =>
      if set then some label.toUInt8 else none

def prefixInfos [AddressTexts] (networkData : NetworkData) : List PrefixInfo :=
  networkData.prefixes.map fun entry => {
    prefixText := formatPrefix entry.prefixBytes entry.prefixBitLength
    domainId := entry.domainId
    sixLowpanContextId := entry.sixLowPanContext.map (·.contextId)
    hasRoute := entry.hasRoute.map fun route => ⟨formatRloc16 route.rloc16, route.routerPreference, route.isNat64⟩
    borderRouters := entry.borderRouters.map fun router =>
      ⟨formatRloc16 router.rloc16, router.prefixPreference, borderRouterFlags router⟩ }

def routeEntryInfo (ownRouterId : UInt8) (entry : RouteDataEntry) : RouteEntryInfo where
  routerId := entry.routerId
  rloc16 := formatRloc16 (rlocOfRouter entry.routerId)
  relation :=
    if entry.routerId = ownRouterId then .self
    else if 0 < entry.incomingLinkQuality ∨ 0 < entry.outgoingLinkQuality then .neighbor
    else .multihop
  linkQualityIn := entry.incomingLinkQuality
  linkQualityOut := entry.outgoingLinkQuality
  routeCost := entry.routeCost

namespace Node

def skeleton (rloc16 : UInt16) (role : Role) (discovery : Discovery) : Node where
  rloc16 := formatRloc16 rloc16
  routerId := Topology.routerId rloc16
  childId := Topology.childId rloc16
  role
  discovery

def unreachable (rloc16 : UInt16) : Node := skeleton rloc16 .router .unreachable

variable [AddressTexts] [Hex]

def mergeDiag (node : Node) (data : NetDiagData) : Node :=
  { node with
    discovery := .directQuery
    extMacAddress := (data.extMacAddr.map Hex.encode).or node.extMacAddress
    eui64 := (data.eui64.map (Hex.encode ·.toList)).or node.eui64
    mode := (data.mode.map ModeInfo.fromMode).or node.mode
    timeoutSeconds := data.timeout.or node.timeoutSeconds
    ipv6Addresses := (data.addresses.map (·.map AddressTexts.display)).getD node.ipv6Addresses
    connectivity := data.connectivity.or node.connectivity
    leaderData := data.leaderData.or node.leaderData
    routeTable := (data.route64.map (·.routeData.map (routeEntryInfo node.routerId))).getD node.routeTable
    childTable := (data.childTable.map (·.map (childEntryInfo (rlocOfRouter node.routerId)))).getD node.childTable
    macCounters := data.macCounters.or node.macCounters
    batteryLevelPercent := data.batteryLevel.or node.batteryLevelPercent
    supplyVoltageMv := data.supplyVoltage.or node.supplyVoltageMv
    networkDataPrefixes := (data.networkData.map prefixInfos).getD node.networkDataPrefixes
    channelPages := data.channelPages.or node.channelPages }

def fromDiag (rloc16 : UInt16) (role : Role) (data : NetDiagData) : Node := (skeleton rloc16 role .directQuery).mergeDiag data

end Node

structure LinkView where
  lqIn : UInt8
  lqOut : UInt8
  deriving DecidableEq

inductive Link
  | mesh (a b : Text) (aView bView : Option LinkView)
  | parentChild (parent child : Text) (linkQuality : UInt8) (timeoutSeconds : UInt32)
  deriving DecidableEq

/-- `BTreeMap<u16, Node>`. -/
abbrev NodeMap := Std.TreeMap UInt16 Node

abbrev PairMap (α : Type) :=
  Std.TreeMap (UInt16 × UInt16) α (compareLex (compareOn Prod.fst) (compareOn Prod.snd))

abbrev Views := Option LinkView × Option LinkView

/-- The view that one route entry of a node gives of a mesh link. -/
def addView (rloc : UInt16) (mesh : PairMap Views) (entry : RouteEntryInfo) : PairMap Views :=
  if entry.relation ≠ .neighbor then mesh
  else
    let other := rlocOfRouter entry.routerId
    let view : LinkView := ⟨entry.linkQualityIn, entry.linkQualityOut⟩
    let key := (min rloc other, max rloc other)
    let slot := mesh.getD key (none, none)
    mesh.insert key (if rloc ≤ other then (some view, slot.2) else (slot.1, some view))

def parentLinks (rloc : UInt16) (node : Node) : List Link :=
  node.childTable.map fun entry =>
    .parentChild (formatRloc16 rloc) entry.rloc16 entry.incomingLinkQuality entry.timeoutSeconds

/-- The links of the route tables, and then those of the child tables. -/
def buildLinks (nodes : NodeMap) : List Link :=
  let mesh := nodes.toList.foldl (fun mesh (rloc, node) => node.routeTable.foldl (addView rloc) mesh) (∅ : PairMap Views)
  mesh.toList.map (fun ((a, b), (aView, bView)) => .mesh (formatRloc16 a) (formatRloc16 b) aView bView) ++
    nodes.toList.flatMap fun (rloc, node) => parentLinks rloc node

structure Channel where
  page : UInt8
  channel : UInt16
  deriving DecidableEq

def Channel.parse : Bytes → Except Error Channel
  | [page, high, low] => .ok ⟨page, fromBe16 high low⟩
  | _ => .error (.dataset "channel TLV must be 3 bytes")

/-- What the dataset and the leader's answer say of the network. -/
structure NetworkInfo where
  networkName : Option Text
  panId : Option Text
  extendedPanId : Option Text
  channelPage : Option UInt8
  channel : Option UInt16
  meshLocalPrefix : Option Text
  partitionId : Option UInt32
  leaderRloc16 : Option Text
  deriving DecidableEq

/-- The picture of a network. The time it was taken at is left out. -/
structure TopologySnapshot where
  borderAgent : Text
  network : NetworkInfo
  nodes : List Node
  links : List Link
  deriving DecidableEq

end ThreadCommissioner.Topology
