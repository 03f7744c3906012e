import ThreadCommissioner.Operations
import ThreadCommissioner.Topology

namespace ThreadCommissioner.Collectors

open ByteStrings Commissioners Computations Datasets Diagnostics Errors Exchanges JoinerSessions List Meshcop Operations
open Notifications Primitives Requests Texts ThreadCommissioner.Topology

namespace DiagFlags

def extMacAddr : UInt64 := flag 0
def macAddr : UInt64 := flag 1
def mode : UInt64 := flag 2
def route64 : UInt64 := flag 3
def leaderData : UInt64 := flag 4
def ipv6Addresses : UInt64 := flag 5
def childTable : UInt64 := flag 6
def eui64 : UInt64 := flag 7
def macCounters : UInt64 := flag 8
def childIpv6Addresses : UInt64 := flag 9
def networkData : UInt64 := flag 10
def timeout : UInt64 := flag 11
def connectivity : UInt64 := flag 12
def batteryLevel : UInt64 := flag 13
def supplyVoltage : UInt64 := flag 14
def channelPages : UInt64 := flag 15
def typeList : UInt64 := flag 16

end DiagFlags

def chunkSize : ℕ := 6

def primeAttempts : ℕ := 4

def routerTlvs : List UInt64 :=
  [DiagFlags.macAddr, DiagFlags.extMacAddr, DiagFlags.mode, DiagFlags.timeout, DiagFlags.connectivity, DiagFlags.route64,
    DiagFlags.leaderData, DiagFlags.macCounters, DiagFlags.batteryLevel, DiagFlags.supplyVoltage, DiagFlags.childTable,
    DiagFlags.channelPages, DiagFlags.eui64, DiagFlags.childIpv6Addresses, DiagFlags.networkData, DiagFlags.ipv6Addresses]

def childTlvs : List UInt64 :=
  [DiagFlags.macAddr, DiagFlags.extMacAddr, DiagFlags.mode, DiagFlags.timeout, DiagFlags.connectivity,
    DiagFlags.leaderData, DiagFlags.macCounters, DiagFlags.batteryLevel, DiagFlags.supplyVoltage, DiagFlags.channelPages,
    DiagFlags.eui64, DiagFlags.ipv6Addresses]

def discoveryTlvs : List UInt64 := [DiagFlags.macAddr, DiagFlags.route64, DiagFlags.leaderData]

/-- Network name, channel, PAN ID, extended PAN ID and mesh-local prefix. -/
def datasetFlags : DatasetFlags := flag 9 ||| flag 14 ||| flag 8 ||| flag 12 ||| flag 11

/-- `Duration::MAX`, in nanoseconds. -/
def durationMax : ℕ := (2 ^ 64 - 1) * 10 ^ 9 + 999999999

def requestMayCrossKeepaliveDeadline (elapsed requestTimeout keepaliveInterval : ℕ) : Bool :=
  keepaliveInterval ≤ min (elapsed + requestTimeout) durationMax

/-- The fields that are present in the new data are laid over the others. -/
def mergeNetdiag (acc new : NetDiagData) : NetDiagData where
  extMacAddr := new.extMacAddr.or acc.extMacAddr
  macAddr := new.macAddr.or acc.macAddr
  mode := new.mode.or acc.mode
  timeout := new.timeout.or acc.timeout
  connectivity := new.connectivity.or acc.connectivity
  route64 := new.route64.or acc.route64
  leaderData := new.leaderData.or acc.leaderData
  networkData := new.networkData.or acc.networkData
  addresses := new.addresses.or acc.addresses
  macCounters := new.macCounters.or acc.macCounters
  batteryLevel := new.batteryLevel.or acc.batteryLevel
  supplyVoltage := new.supplyVoltage.or acc.supplyVoltage
  childTable := new.childTable.or acc.childTable
  channelPages := new.channelPages.or acc.channelPages
  typeList := new.typeList.or acc.typeList
  eui64 := new.eui64.or acc.eui64
  childIpv6Addresses := new.childIpv6Addresses.or acc.childIpv6Addresses

def defaultRole (rloc16 : UInt16) : Role := if (childId rloc16).isSome then .child else .router

def resolveRole (rloc16 : UInt16) (data : NetDiagData) (fallback : Role) : Role :=
  if (childId rloc16).isSome then .child
  else match data.leaderData with
    | some leaderData => if rlocOfRouter leaderData.routerId = rloc16 then .leader else fallback
    | none => fallback

def parentTableNode [AddressTexts] (parentRloc : UInt16) (parent : NetDiagData) (entry : ChildTableEntry) : Node :=
  let childRloc := parentRloc ||| entry.childId
  let info := childEntryInfo parentRloc entry
  { Node.skeleton childRloc .child .parentTable with
    parentRloc16 := some (formatRloc16 parentRloc)
    mode := some info.mode
    timeoutSeconds := some info.timeoutSeconds
    ipv6Addresses := (((parent.childIpv6Addresses.getD []).find? (·.rloc16 = childRloc)).map
      (·.addresses.map AddressTexts.display)).getD [] }

def mergeParentChildren [AddressTexts] (children : NodeMap) (parentRloc : UInt16) (parent : NetDiagData) : NodeMap :=
  (parent.childTable.getD []).foldl
    (fun children entry => children.insert (parentRloc ||| entry.childId) (parentTableNode parentRloc parent entry)) children

/-- The operations of a commissioner handle that a walk uses, on the state of the
handle. A diagnostic request is given up when the time allowed for it is over. -/
structure Client (σ : Type) where
  now : σ → ℕ
  keepaliveInterval : ℕ
  petition : EStateM Error σ PetitionResponse
  getActiveDataset : DatasetFlags → EStateM Error σ Dataset
  getDiagnostics : ℕ → Ipv6Addr → UInt64 → EStateM Error σ (Option NetDiagData)
  keepAlive : EStateM Error σ ResultCode
  disconnect : σ → σ

/-- What a walk does with its handle: keep-alives, with the time of the
acceptance, and diagnostic requests, with the time they were in progress. -/
inductive WalkEvent
  | keepAlive (sent : ℕ) (accepted : Option ℕ)
  | request (flags : UInt64) (started ended : ℕ)
  deriving DecidableEq

/-- The events are kept for the statements only. -/
structure Collector (σ : Type) where
  commissioner : σ
  nodeTimeout : ℕ
  keepAliveInterval : ℕ
  lastKeepAlive : ℕ
  meshLocalPrefix : ByteVector 8
  dataset : Dataset
  events : List WalkEvent

abbrev CollectorM (σ α : Type) := EStateM Error (Collector σ) α

section Model

variable {σ : Type} (client : Client σ)

def start (nodeTimeout : ℕ) : EStateM Error σ (Collector σ) := do
  ensure (¬ client.keepaliveInterval ≤ nodeTimeout)
    (Error.configuration "netdiag node timeout must be shorter than the keepalive interval")
  let _ ← client.petition
  let lastKeepAlive := client.now (← get)
  let dataset ← client.getActiveDataset datasetFlags
  let meshLocalPrefix ← okOr (← dataset.meshLocalPrefix)
    (Error.invalidState "active dataset did not include the mesh-local prefix")
  return {
    commissioner := ← get
    nodeTimeout
    keepAliveInterval := client.keepaliveInterval
    lastKeepAlive
    meshLocalPrefix
    dataset
    events := [] }

def attempt {α : Type} (operation : EStateM Error σ α) : CollectorM σ (Except Error α) := fun c =>
  let result := operation.run c.commissioner
  .ok (outcome result) { c with commissioner := finalState result }

def record (event : WalkEvent) : CollectorM σ Unit := modify fun c => { c with events := c.events ++ [event] }

/-- A keep-alive that is not accepted ends the session, and the walk. -/
def abandon (sent : ℕ) (e : Error) : CollectorM σ Unit := do
  record (.keepAlive sent none)
  modify fun c => { c with commissioner := client.disconnect c.commissioner }
  throw e

def concludeKeepAlive (sent : ℕ) : Except Error ResultCode → CollectorM σ Unit
  | .ok .accept => modify fun c => { c with
      lastKeepAlive := client.now c.commissioner
      events := c.events ++ [.keepAlive sent (some (client.now c.commissioner))] }
  | .ok .pending => abandon client sent (.invalidState "keep-alive response is pending")
  | .ok .reject => abandon client sent (.invalidState "keep-alive was rejected")
  | .error e => abandon client sent e

def keepAliveBeforeRequest : CollectorM σ Unit := do
  let c ← get
  let elapsed := client.now c.commissioner - c.lastKeepAlive
  if requestMayCrossKeepaliveDeadline elapsed c.nodeTimeout c.keepAliveInterval then
    concludeKeepAlive client (client.now c.commissioner) (← attempt client.keepAlive)

/-- No answer in time, or a failure that a smaller batch may avoid. -/
def usable : Except Error (Option NetDiagData) → Except Error (Option NetDiagData)
  | .ok answer => .ok answer
  | .error (.timeout _) | .error (.tlv _) | .error (.dataset _) | .error (.invalidState _) => .ok none
  | .error e => .error e

def diagQuery (destination : Ipv6Addr) (flags : UInt64) : CollectorM σ (Option NetDiagData) := do
  let c ← get
  let answer ← attempt (client.getDiagnostics c.nodeTimeout destination flags)
  record (.request flags (client.now c.commissioner) (client.now (← get).commissioner))
  usable answer

def primeFor (destination : Ipv6Addr) : ℕ → CollectorM σ (Option NetDiagData)
  | 0 => return none
  | attempts + 1 => do
    keepAliveBeforeRequest client
    match ← diagQuery client destination DiagFlags.macAddr with
    | some data => return some data
    | none => primeFor destination attempts

def prime (destination : Ipv6Addr) : CollectorM σ (Option NetDiagData) := primeFor client destination primeAttempts

/-- The most queries that a batch can lead to, and at least one round of the loop. -/
def batchWeight (batch : List UInt64) : ℕ := max 1 (2 * batch.length - 1)

def stackWeight (stack : List (List UInt64)) : ℕ := (stack.map batchWeight).sum

def combine (batch : List UInt64) : UInt64 := batch.foldl (· ||| ·) 0

theorem stackWeight_cons (batch : List UInt64) (stack : List (List UInt64)) :
    stackWeight (batch :: stack) = batchWeight batch + stackWeight stack := by
  simp [stackWeight]

theorem batchWeight_pos (batch : List UInt64) : 0 < batchWeight batch := by
  simp [batchWeight]

theorem batchWeight_split {batch : List UInt64} (h : 1 < batch.length) :
    batchWeight (batch.drop (batch.length / 2)) + batchWeight (batch.take (batch.length / 2)) < batchWeight batch := by
  simp only [batchWeight, length_drop, length_take]
  omega

/-- The stack once the batch on top is split: its second half comes first. -/
def halved (batch : List UInt64) (rest : List (List UInt64)) : List (List UInt64) :=
  batch.drop (batch.length / 2) :: batch.take (batch.length / 2) :: rest

theorem stackWeight_halved {batch : List UInt64} {rest : List (List UInt64)} (h : 1 < batch.length) :
    stackWeight (halved batch rest) + 1 ≤ batchWeight batch + stackWeight rest := by
  have hsplit := batchWeight_split h
  rw [halved, stackWeight_cons, stackWeight_cons]
  omega

def collectBatches (destination : Ipv6Addr) (stack : List (List UInt64)) (merged : NetDiagData) : CollectorM σ NetDiagData :=
  match stack with
  | [] => return merged
  | batch :: rest => do
    keepAliveBeforeRequest client
    if combine batch = 0 then collectBatches destination rest merged
    else
      match ← diagQuery client destination (combine batch) with
      | some data => collectBatches destination rest (mergeNetdiag merged data)
      | none =>
        if 1 < batch.length then collectBatches destination (halved batch rest) merged
        else collectBatches destination rest merged
termination_by stackWeight stack
decreasing_by
  · rw [stackWeight_cons]
    have hpos := batchWeight_pos batch
    omega
  · rw [stackWeight_cons]
    have hpos := batchWeight_pos batch
    omega
  · next hlength =>
      have hweight : stackWeight (halved batch rest) + 1 ≤ _ := stackWeight_halved hlength
      rw [stackWeight_cons]
      omega
  · rw [stackWeight_cons]
    have hpos := batchWeight_pos batch
    omega

/-- `chunks`. -/
def chunks (tlvs : List UInt64) : List (List UInt64) :=
  if tlvs = [] then [] else tlvs.take chunkSize :: chunks (tlvs.drop chunkSize)
termination_by tlvs.length
decreasing_by
  next hne =>
    have hlength := List.length_pos_iff.mpr hne
    rw [List.length_drop, chunkSize]
    omega

def collectDiag (destination : Ipv6Addr) (tlvs : List UInt64) : CollectorM σ (Option NetDiagData) := do
  match ← prime client destination with
  | none => return none
  | some primer =>
    let merged ← collectBatches client destination (chunks (tlvs.filter (· ≠ DiagFlags.macAddr)))
      (mergeNetdiag {} primer)
    return some merged

def meshLocalAddr (c : Collector σ) (rloc16 : UInt16) : Ipv6Addr := alocAddress c.meshLocalPrefix rloc16

variable [AddressTexts] [Hex]

def routerNode (leaderRloc rloc : UInt16) (answer : Option NetDiagData) : Node :=
  let role := if rloc = leaderRloc then Role.leader else Role.router
  match answer with
  | some data => Node.fromDiag rloc role data
  | none => { Node.unreachable rloc with role }

abbrev AnswerMap := Std.TreeMap UInt16 NetDiagData

def askRouters (leaderRloc : UInt16) : List UInt16 → NodeMap × AnswerMap → CollectorM σ (NodeMap × AnswerMap)
  | [], found => return found
  | rloc :: rlocs, (nodes, answers) => do
    keepAliveBeforeRequest client
    let answer ← collectDiag client (meshLocalAddr (← get) rloc) routerTlvs
    let nodes := nodes.insert rloc (routerNode leaderRloc rloc answer)
    match answer with
    | some data => askRouters leaderRloc rlocs (nodes, answers.insert rloc data)
    | none => askRouters leaderRloc rlocs (nodes, answers)

def askChildren : List (UInt16 × Node) → CollectorM σ (List (UInt16 × Node))
  | [] => return []
  | (childRloc, child) :: children => do
    keepAliveBeforeRequest client
    let answer ← collectDiag client (meshLocalAddr (← get) childRloc) childTlvs
    let children ← askChildren children
    return (childRloc, match answer with
      | some data => child.mergeDiag data
      | none => child) :: children

def childrenOf (answers : AnswerMap) : NodeMap :=
  answers.toList.foldl (fun children (parentRloc, answer) => mergeParentChildren children parentRloc answer) ∅

/-- `nodes.extend(children)`. -/
def extendNodes (nodes : NodeMap) (children : List (UInt16 × Node)) : NodeMap :=
  children.foldl (fun nodes child => nodes.insert child.1 child.2) nodes

def collectChildren (nodes : NodeMap) (answers : AnswerMap) : CollectorM σ NodeMap := do
  let children ← askChildren client (childrenOf answers).toList
  return extendNodes nodes children

def networkInfo (c : Collector σ) (leaderRloc : UInt16) (leader : NetDiagData) : Except Error NetworkInfo := do
  let channel ← (c.dataset.raw tlvChannel).mapM Channel.parse
  let networkName ← (c.dataset.raw tlvNetworkName).mapM fun value =>
    okOr (fromUtf8 value) (Error.dataset "network name is not UTF-8")
  let panId ← ofTlv ((c.dataset.raw tlvPanId).mapM Tlvs.readU16)
  let extendedPanId ← (c.dataset.raw tlvExtendedPanId).mapM readArray8
  return {
    networkName
    panId := panId.map formatRloc16
    extendedPanId := extendedPanId.map (Hex.encode ·.toList)
    channelPage := channel.map (·.page)
    channel := channel.map (·.channel)
    meshLocalPrefix := some (formatPrefix c.meshLocalPrefix.toList 64)
    partitionId := leader.leaderData.map (·.partitionId)
    leaderRloc16 := some (formatRloc16 leaderRloc) }

def leaderAloc16 : UInt16 := 0xfc00

def leaderRlocOf (discovery : NetDiagData) : Option UInt16 :=
  discovery.macAddr.or (discovery.leaderData.map (rlocOfRouter ·.routerId))

def routerRlocs (discovery : NetDiagData) (leaderRloc : UInt16) : List UInt16 :=
  let rlocs := (discovery.route64.map (·.routeData.map (rlocOfRouter ·.routerId))).getD []
  if leaderRloc ∈ rlocs then rlocs else rlocs ++ [leaderRloc]

def collectTopology (borderAgent : Text) : CollectorM σ TopologySnapshot := do
  let discovery ← okOr (← collectDiag client (meshLocalAddr (← get) leaderAloc16) discoveryTlvs)
    (Error.timeout "the leader did not answer DIAG_GET.req")
  let leaderRloc ← okOr (leaderRlocOf discovery)
    (Error.invalidState "leader answer carried neither RLOC16 nor leader data")
  let (nodes, answers) ← askRouters client leaderRloc (routerRlocs discovery leaderRloc) (∅, ∅)
  let nodes ← collectChildren client nodes answers
  let network ← networkInfo (← get) leaderRloc (answers.getD leaderRloc discovery)
  return { borderAgent, network, nodes := nodes.toList.map Prod.snd, links := buildLinks nodes }

def askParentOf (rloc16 parentRloc : UInt16) : CollectorM σ (Option Node) := do
  match ← collectDiag client (meshLocalAddr (← get) parentRloc) routerTlvs with
  | some parent => return (mergeParentChildren ∅ parentRloc parent)[rloc16]?
  | none => return none

/-- The view that the parent of a child has of it, if the parent answers. -/
def askParent (rloc16 : UInt16) : CollectorM σ (Option Node) :=
  if (childId rloc16).isSome then askParentOf client rloc16 (rloc16 &&& 0xfc00) else return none

def collectNode (rloc16 : UInt16) : CollectorM σ Node := do
  let tlvs := if (childId rloc16).isSome then childTlvs else routerTlvs
  match ← collectDiag client (meshLocalAddr (← get) rloc16) tlvs with
  | some data => return Node.fromDiag rloc16 (resolveRole rloc16 data (defaultRole rloc16)) data
  | none =>
    let fromParent ← askParent client rloc16
    return fromParent.getD (Node.skeleton rloc16 (defaultRole rloc16) .unreachable)

end Model

section Handle

variable [Suite] {H : Type} [JoinerHandler H]

/-- `tokio::time::timeout` around an operation. One that is not over in time is
dropped; what it has left of the handle by then is not modelled, and given. -/
def timeLimited {α : Type} (dropped : Commissioner H → Commissioner H) (limit : ℕ) (operation : CommissionerM H α) :
    CommissionerM H (Option α) := fun c =>
  let result := operation.run c
  if (finalState result).now ≤ c.now + limit then
    match result with
    | .ok a c' => .ok (some a) c'
    | .error e c' => .error e c'
  else .ok none { dropped c with now := c.now + limit }

def commissionerClient (config : CommissionerConfig) (dropped : Commissioner H → Commissioner H) :
    Client (Commissioner H) where
  now := Commissioner.now
  keepaliveInterval := config.keepaliveInterval
  petition := petition config
  getActiveDataset := getActiveDataset
  getDiagnostics limit destination flags := timeLimited dropped limit (getDiagnostics destination flags)
  keepAlive := keepAlive
  disconnect := disconnected

end Handle

section Steps

variable {σ : Type} (client : Client σ)

theorem attempt_bind {α β : Type} (op : EStateM Error σ α) (f : Except Error α → CollectorM σ β) (c : Collector σ) :
    (attempt op >>= f).run c =
      (f (outcome (op.run c.commissioner))).run { c with commissioner := finalState (op.run c.commissioner) } := rfl

def keptAlive (c : Collector σ) (s : σ) : Collector σ :=
  { c with
    commissioner := s
    lastKeepAlive := client.now s
    events := c.events ++ [.keepAlive (client.now c.commissioner) (some (client.now s))] }

def abandoned (c : Collector σ) (s : σ) : Collector σ :=
  { c with
    commissioner := client.disconnect s
    events := c.events ++ [.keepAlive (client.now c.commissioner) none] }

theorem keepAliveBeforeRequest_cases (c : Collector σ) :
    (requestMayCrossKeepaliveDeadline (client.now c.commissioner - c.lastKeepAlive) c.nodeTimeout c.keepAliveInterval = false ∧
      (keepAliveBeforeRequest client).run c = .ok () c) ∨ (∃ s, client.keepAlive.run c.commissioner = .ok .accept s ∧
      (keepAliveBeforeRequest client).run c = .ok () (keptAlive client c s)) ∨ ∃ e, (keepAliveBeforeRequest client).run c =
      .error e (abandoned client c (finalState (client.keepAlive.run c.commissioner))) := by
  rw [keepAliveBeforeRequest, get_bind]
  dsimp only
  by_cases hcross : requestMayCrossKeepaliveDeadline (client.now c.commissioner - c.lastKeepAlive) c.nodeTimeout
      c.keepAliveInterval = true
  · rw [if_pos hcross, attempt_bind]
    apply Or.inr
    cases hrun : client.keepAlive.run c.commissioner with
    | error e s => exact .inr ⟨e, rfl⟩
    | ok result s =>
      cases result with
      | accept => exact .inl ⟨s, rfl, rfl⟩
      | pending => exact .inr ⟨_, rfl⟩
      | reject => exact .inr ⟨_, rfl⟩
  · rw [if_neg hcross]
    exact .inl ⟨Bool.eq_false_of_not_eq_true hcross, rfl⟩

def asked (c : Collector σ) (destination : Ipv6Addr) (flags : UInt64) : Collector σ :=
  let s := finalState ((client.getDiagnostics c.nodeTimeout destination flags).run c.commissioner)
  { c with
    commissioner := s
    events := c.events ++ [.request flags (client.now c.commissioner) (client.now s)] }

theorem diagQuery_run (dest : Ipv6Addr) (flags : UInt64) (c : Collector σ) : (diagQuery client dest flags).run c =
      (liftM (usable (outcome ((client.getDiagnostics c.nodeTimeout dest flags).run c.commissioner))) :
        CollectorM σ (Option NetDiagData)).run (asked client c dest flags) := rfl

end Steps

end ThreadCommissioner.Collectors
