import ThreadCommissioner.Collectors
import ThreadCommissioner.KeyedMaps
import ThreadCommissioner.Revocation
import ThreadCommissioner.SessionState
import ThreadCommissioner.TextForms

namespace ThreadCommissioner.TopologyWalks

open ByteStrings Collectors Commissioners Computations Diagnostics JoinerSessions KeyedMaps List Requests Residues Texts
  ThreadCommissioner.Topology

section Asking

variable {σ : Type} {client : Client σ}

/-- Nodes are asked in turn, each after a check of the session. -/
inductive Asked (client : Client σ) (tlvs : List UInt64) :
    Collector σ → List (UInt16 × Option NetDiagData) → Collector σ → Prop
  | nil (c : Collector σ) : Asked client tlvs c [] c
  | cons {c c₁ c₂ c₃ : Collector σ} {rloc : UInt16} {answer : Option NetDiagData}
      {asked : List (UInt16 × Option NetDiagData)} (check : (keepAliveBeforeRequest client).run c = .ok () c₁)
      (ask : (collectDiag client (meshLocalAddr c₁ rloc) tlvs).run c₁ = .ok answer c₂)
      (rest : Asked client tlvs c₂ asked c₃) : Asked client tlvs c ((rloc, answer) :: asked) c₃

def answersFrom (client : Client σ) (tlvs : List UInt64) : List UInt16 → Collector σ → List (UInt16 × Option NetDiagData)
  | [], _ => []
  | rloc :: rlocs, c =>
    let c₁ := finalState ((keepAliveBeforeRequest client).run c)
    match (collectDiag client (meshLocalAddr c₁ rloc) tlvs).run c₁ with
    | .ok answer c₂ => (rloc, answer) :: answersFrom client tlvs rlocs c₂
    | .error _ _ => []

theorem Asked.eq_answersFrom {tlvs : List UInt64} {asked : List (UInt16 × Option NetDiagData)} {c c' : Collector σ}
    (h : Asked client tlvs c asked c') : asked = answersFrom client tlvs (asked.map Prod.fst) c := by
  induction h with
  | nil c => rfl
  | cons check ask rest ih =>
    rw [map_cons, answersFrom, check]
    dsimp only [finalState]
    rw [ask]
    exact congrArg _ ih

variable [AddressTexts] [Hex]

/-- What the answer of a router adds to the nodes and the answers. -/
def note (leaderRloc : UInt16) (found : NodeMap × AnswerMap) (asked : UInt16 × Option NetDiagData) : NodeMap × AnswerMap :=
  (found.1.insert asked.1 (routerNode leaderRloc asked.1 asked.2),
    match asked.2 with
    | some data => found.2.insert asked.1 data
    | none => found.2)

theorem askRouters_eq_ok {leader : UInt16} {rlocs : List UInt16} {found found' : NodeMap × AnswerMap}
    {c c' : Collector σ} (h : (askRouters client leader rlocs found).run c = .ok found' c') :
    ∃ asked, Asked client routerTlvs c asked c' ∧ asked.map Prod.fst = rlocs ∧ found' = asked.foldl (note leader) found := by
  induction rlocs generalizing found c with
  | nil =>
    cases h
    exact ⟨[], .nil _, rfl, rfl⟩
  | cons rloc rlocs ih =>
    obtain ⟨nodes, answers⟩ := found
    obtain ⟨_, c₁, hcheck, h⟩ := bind_eq_ok.mp h
    rw [get_bind] at h
    obtain ⟨answer, c₂, hask, h⟩ := bind_eq_ok.mp h
    cases answer with
    | some data =>
      obtain ⟨asked, hasked, hrlocs, hfound⟩ := ih h
      exact ⟨(rloc, some data) :: asked, .cons hcheck hask hasked, by rw [map_cons, hrlocs], hfound⟩
    | none =>
      obtain ⟨asked, hasked, hrlocs, hfound⟩ := ih h
      exact ⟨(rloc, none) :: asked, .cons hcheck hask hasked, by rw [map_cons, hrlocs], hfound⟩

theorem askChildren_eq_ok {children children' : List (UInt16 × Node)} {c c' : Collector σ}
    (h : (askChildren client children).run c = .ok children' c') : children'.map Prod.fst = children.map Prod.fst ∧
      ∀ child' ∈ children', ∃ child ∈ children, child'.1 = child.1 ∧ child'.2.rloc16 = child.2.rloc16 ∧
        child'.2.role = child.2.role := by
  induction children generalizing children' c c' with
  | nil =>
    cases h
    exact ⟨rfl, by simp⟩
  | cons child children ih =>
    obtain ⟨_, c₁, hcheck, h⟩ := bind_eq_ok.mp h
    rw [get_bind] at h
    obtain ⟨answer, c₂, hask, h⟩ := bind_eq_ok.mp h
    obtain ⟨rest, c₃, hrest, h⟩ := bind_eq_ok.mp h
    cases h
    obtain ⟨hkeys, hkept⟩ := ih hrest
    refine ⟨by simp [hkeys], fun child' hchild' => ?_⟩
    rcases mem_cons.mp hchild' with rfl | hchild'
    · refine ⟨child, mem_cons_self, rfl, ?_⟩
      cases answer with
      | some data => exact ⟨rfl, rfl⟩
      | none => exact ⟨rfl, rfl⟩
    · obtain ⟨first, hfirst, hsame⟩ := hkept child' hchild'
      exact ⟨first, mem_cons_of_mem _ hfirst, hsame⟩

end Asking

section Nodes

variable {leader r : UInt16} {asked : List (UInt16 × Option NetDiagData)}

/-- The last answer that was had of a router, if it was asked. -/
def lastAnswer (asked : List (UInt16 × Option NetDiagData)) (rloc : UInt16) : Option (Option NetDiagData) :=
  ((asked.filter (·.1 = rloc)).getLast?).map Prod.snd

theorem lastAnswer_isSome (h : r ∈ asked.map Prod.fst) : ∃ answer, lastAnswer asked r = some answer := by
  obtain ⟨⟨k, answer⟩, hmem, rfl⟩ := mem_map.mp h
  have hne : asked.filter (·.1 = k) ≠ [] := ne_nil_of_mem (mem_filter.mpr ⟨hmem, by simp⟩)
  rw [lastAnswer, List.getLast?_eq_some_getLast hne]
  exact ⟨_, rfl⟩

theorem mem_of_lastAnswer {answer : Option NetDiagData} (h : lastAnswer asked r = some answer) : r ∈ asked.map Prod.fst := by
  obtain ⟨last, hlast, -⟩ := Option.map_eq_some_iff.mp h
  obtain ⟨hmem, hkey⟩ := mem_filter.mp (List.mem_of_getLast? hlast)
  exact mem_map.mpr ⟨last, hmem, of_decide_eq_true hkey⟩

/-- An entry of the child table of a parent that has answered. -/
def Tabled (answers : AnswerMap) (r : UInt16) : Prop :=
  ∃ parent data entry, answers[parent]? = some data ∧ entry ∈ data.childTable.getD [] ∧ parent ||| entry.childId = r

def Formatted (nodes : NodeMap) : Prop := ∀ r node, nodes[r]? = some node → node.rloc16 = formatRloc16 r

theorem filter_nodes {nodes : NodeMap} (h : Formatted nodes) (r : UInt16) :
    (nodes.toList.map Prod.snd).filter (·.rloc16 = formatRloc16 r) = (nodes[r]?).toList := by
  have hkeys : ∀ entry ∈ nodes.toList, (entry.2.rloc16 = formatRloc16 r ↔ entry.1 = r) := by
    rintro ⟨k, node⟩ hentry
    rw [h k node (Std.TreeMap.mem_toList_iff_getElem?_eq_some.mp hentry), formatRloc16_inj]
  have hfilter : nodes.toList.filter (fun entry => entry.2.rloc16 = formatRloc16 r) = nodes.toList.filter (·.1 = r) := by
    apply filter_congr
    intro entry hentry
    simp only [hkeys entry hentry]
  rw [filter_map]
  change (nodes.toList.filter (fun entry => entry.2.rloc16 = formatRloc16 r)).map Prod.snd = _
  rw [hfilter, toList_filter_key]
  cases nodes[r]? <;> rfl

variable [AddressTexts]

theorem foldl_mergeParentChildren (parents : List (UInt16 × NetDiagData)) (children : NodeMap) (r : UInt16) :
    (∃ parent ∈ parents, ∃ entry ∈ parent.2.childTable.getD [], parent.1 ||| entry.childId = r ∧
        (parents.foldl (fun children (parentRloc, answer) => mergeParentChildren children parentRloc answer) children)[r]? =
          some (parentTableNode parent.1 parent.2 entry)) ∨
      (∀ parent ∈ parents, ∀ entry ∈ parent.2.childTable.getD [], parent.1 ||| entry.childId ≠ r) ∧
        (parents.foldl (fun children (parentRloc, answer) => mergeParentChildren children parentRloc answer) children)[r]? =
          children[r]? := by
  induction parents generalizing children with
  | nil => exact .inr ⟨by simp, rfl⟩
  | cons parent parents ih =>
    rw [foldl_cons]
    rcases ih (mergeParentChildren children parent.1 parent.2) with ⟨later, hlater, hentry⟩ | ⟨hnone, hfound⟩
    · exact .inl ⟨later, mem_cons_of_mem _ hlater, hentry⟩
    · rcases foldl_insert_cases (fun entry => parent.1 ||| entry.childId) (parentTableNode parent.1 parent.2)
        (parent.2.childTable.getD []) children r with ⟨entry, hentry, hkey, hinserted⟩ | ⟨hnot, hsame⟩
      · exact .inl ⟨parent, mem_cons_self, entry, hentry, hkey, hfound.trans hinserted⟩
      · exact .inr ⟨forall_mem_cons.mpr ⟨hnot, hnone⟩, hfound.trans hsame⟩

theorem getElem?_childrenOf (answers : AnswerMap) (r : UInt16) :
    (Tabled answers r ∧ ∃ node, (childrenOf answers)[r]? = some node ∧ node.rloc16 = formatRloc16 r ∧ node.role = .child) ∨
      ¬ Tabled answers r ∧ (childrenOf answers)[r]? = none := by
  rcases foldl_mergeParentChildren answers.toList ∅ r with ⟨⟨parent, data⟩, hparent, entry, hentry, rfl, hfound⟩ | ⟨hnone, hfound⟩
  · refine .inl ⟨⟨parent, data, entry, ?_, hentry, rfl⟩, _, hfound, rfl, rfl⟩
    exact Std.TreeMap.mem_toList_iff_getElem?_eq_some.mp hparent
  · refine .inr ⟨?_, hfound⟩
    rintro ⟨parent, data, entry, hparent, hentry, hkey⟩
    exact hnone (parent, data) (Std.TreeMap.mem_toList_iff_getElem?_eq_some.mpr hparent) entry hentry hkey

variable [Hex]

def answersOf (leaderRloc : UInt16) (asked : List (UInt16 × Option NetDiagData)) : AnswerMap :=
  (asked.foldl (note leaderRloc) (∅, ∅)).2

def routersOf (leaderRloc : UInt16) (asked : List (UInt16 × Option NetDiagData)) : NodeMap :=
  (asked.foldl (note leaderRloc) (∅, ∅)).1

theorem getElem?_routersOf (leader : UInt16) (asked : List (UInt16 × Option NetDiagData)) (r : UInt16) :
    (routersOf leader asked)[r]? = (lastAnswer asked r).map (routerNode leader r) := by
  induction asked using List.reverseRecOn with
  | nil => rfl
  | append_singleton asked last ih =>
    have hinsert : routersOf leader (asked ++ [last]) =
        (routersOf leader asked).insert last.1 (routerNode leader last.1 last.2) := by
      rw [routersOf, foldl_concat]
      rfl
    rw [hinsert, getElem?_insert_key, lastAnswer, filter_append]
    by_cases hkey : last.1 = r
    · subst hkey
      simp
    · rw [if_neg hkey, ih, filter_singleton]
      simp [hkey, lastAnswer]

theorem role_routerNode (leader rloc : UInt16) (answer : Option NetDiagData) :
    (routerNode leader rloc answer).role = if rloc = leader then .leader else .router := by
  cases answer <;> rfl

theorem rloc16_routerNode (leader rloc : UInt16) (answer : Option NetDiagData) :
    (routerNode leader rloc answer).rloc16 = formatRloc16 rloc := by
  cases answer <;> rfl

theorem getElem?_extendNodes {σ : Type} {client : Client σ} {answers : AnswerMap} {children : List (UInt16 × Node)}
    {c c' : Collector σ} (h : (askChildren client (childrenOf answers).toList).run c = .ok children c') (nodes : NodeMap)
    (r : UInt16) : (Tabled answers r ∧ ∃ node, (extendNodes nodes children)[r]? = some node ∧ node.rloc16 = formatRloc16 r ∧
        node.role = .child) ∨ ¬ Tabled answers r ∧ (extendNodes nodes children)[r]? = nodes[r]? := by
  obtain ⟨hkeys, hkept⟩ := askChildren_eq_ok h
  rcases foldl_insert_cases Prod.fst Prod.snd children nodes r with ⟨child', hchild', rfl, hfound⟩ | ⟨hnone, hfound⟩
  · obtain ⟨⟨k, child⟩, hchild, hkey, hrloc, hrole⟩ := hkept child' hchild'
    have hget := Std.TreeMap.mem_toList_iff_getElem?_eq_some.mp hchild
    dsimp only at hkey hrloc hrole
    rcases getElem?_childrenOf answers k with ⟨htabled, node, hnode, hformat, hchildRole⟩ | ⟨-, hnot⟩
    · cases hnode.symm.trans hget
      rw [hkey]
      exact .inl ⟨htabled, child'.2, hkey ▸ hfound, hrloc.trans hformat, hrole.trans hchildRole⟩
    · cases hnot.symm.trans hget
  · refine .inr ⟨fun htabled => ?_, hfound⟩
    rcases getElem?_childrenOf answers r with ⟨-, node, hnode, -⟩ | ⟨hnot, -⟩
    · have hkey : r ∈ children.map Prod.fst := by
        rw [hkeys]
        exact mem_map.mpr ⟨(r, node), Std.TreeMap.mem_toList_iff_getElem?_eq_some.mpr hnode, rfl⟩
      obtain ⟨child', hchild', hsame⟩ := mem_map.mp hkey
      exact hnone child' hchild' hsame
    · exact hnot htabled

end Nodes

section Snapshots

/-- A router of the discovery answer. -/
def Discovered (discovery : NetDiagData) (leaderRloc rloc : UInt16) : Prop :=
  rloc = leaderRloc ∨ ∃ route ∈ discovery.route64, ∃ entry ∈ route.routeData, rlocOfRouter entry.routerId = rloc

theorem mem_routerRlocs {discovery : NetDiagData} {leader rloc : UInt16} :
    rloc ∈ routerRlocs discovery leader ↔ Discovered discovery leader rloc := by
  unfold routerRlocs Discovered
  cases discovery.route64 with
  | none => simp
  | some route =>
    dsimp only [Option.map_some, Option.getD_some]
    split
    · next hleader =>
      simp only [Option.mem_def, Option.some.injEq, exists_eq_left', mem_map] at hleader ⊢
      exact ⟨.inr, fun h => h.elim (fun h => h ▸ hleader) id⟩
    · simp [or_comm]

variable [AddressTexts] [Hex] {σ : Type} {client : Client σ} {leader : UInt16}
  {asked : List (UInt16 × Option NetDiagData)}

/-- The node of a router shows the data that it has reported. -/
structure Shows (rloc : UInt16) (data : NetDiagData) (node : Node) : Prop where
  routerId : node.routerId = routerId rloc
  childId : node.childId = childId rloc
  parentRloc16 : node.parentRloc16 = none
  extMacAddress : node.extMacAddress = data.extMacAddr.map Hex.encode
  eui64 : node.eui64 = data.eui64.map (Hex.encode ·.toList)
  mode : node.mode = data.mode.map .fromMode
  timeoutSeconds : node.timeoutSeconds = data.timeout
  ipv6Addresses : node.ipv6Addresses = (data.addresses.map (·.map AddressTexts.display)).getD []
  connectivity : node.connectivity = data.connectivity
  leaderData : node.leaderData = data.leaderData
  routeTable : node.routeTable =
    (data.route64.map (·.routeData.map (routeEntryInfo (Topology.routerId rloc)))).getD []
  childTable : node.childTable =
    (data.childTable.map (·.map (childEntryInfo (rlocOfRouter (Topology.routerId rloc))))).getD []
  macCounters : node.macCounters = data.macCounters
  batteryLevelPercent : node.batteryLevelPercent = data.batteryLevel
  supplyVoltageMv : node.supplyVoltageMv = data.supplyVoltage
  networkDataPrefixes : node.networkDataPrefixes = (data.networkData.map prefixInfos).getD []
  channelPages : node.channelPages = data.channelPages

/-- Only a router that was silent is unreachable, and shows nothing. -/
def ShowsAnswer (rloc : UInt16) (node : Node) : Option NetDiagData → Prop
  | some data => node.discovery = .directQuery ∧ Shows rloc data node
  | none => node.discovery = .unreachable ∧ Shows rloc {} node

/-- Each router that was asked appears once, with its role and what it has
answered itself, and every other node is a child. -/
def RoutersKept (leaderRloc : UInt16) (asked : List (UInt16 × Option NetDiagData)) (nodes : List Node) : Prop :=
  (∀ rloc ∈ asked.map Prod.fst, ∃ node, nodes.filter (·.rloc16 = formatRloc16 rloc) = [node] ∧
      node.role = (if rloc = leaderRloc then .leader else .router) ∧ ShowsAnswer rloc node (lastAnswer asked rloc).join) ∧
    ∀ node ∈ nodes, (∀ rloc ∈ asked.map Prod.fst, node.rloc16 ≠ formatRloc16 rloc) → node.role = .child

theorem showsAnswer_routerNode (leader rloc : UInt16) (answer : Option NetDiagData) :
    ShowsAnswer rloc (routerNode leader rloc answer) answer := by
  cases answer with
  | none =>
    refine ⟨rfl, ?_⟩
    constructor <;> rfl
  | some data =>
    refine ⟨rfl, ?_⟩
    constructor <;> simp [routerNode, Node.fromDiag, Node.mergeDiag, Node.skeleton]

theorem routersKept_iff {children : List (UInt16 × Node)} {c c' : Collector σ}
    (h : (askChildren client (childrenOf (answersOf leader asked)).toList).run c = .ok children c') :
    RoutersKept leader asked ((extendNodes (routersOf leader asked) children).toList.map Prod.snd) ↔
      ∀ rloc ∈ asked.map Prod.fst, ¬ Tabled (answersOf leader asked) rloc := by
  have hlookup := getElem?_extendNodes h (routersOf leader asked)
  have hformatted : Formatted (extendNodes (routersOf leader asked) children) := by
    intro r node hnode
    rcases hlookup r with ⟨-, child, hchild, hformat, -⟩ | ⟨-, hsame⟩
    · cases hchild.symm.trans hnode
      exact hformat
    · rw [hsame, getElem?_routersOf] at hnode
      obtain ⟨answer, -, rfl⟩ := Option.map_eq_some_iff.mp hnode
      exact rloc16_routerNode _ _ _
  constructor
  · rintro ⟨hkept, -⟩ rloc hrloc htabled
    rcases hlookup rloc with ⟨-, child, hchild, -, hrole⟩ | ⟨hnot, -⟩
    · obtain ⟨node, hsingle, hrouter, -⟩ := hkept rloc hrloc
      rw [filter_nodes hformatted, hchild] at hsingle
      rw [← (List.cons.inj hsingle).1, hrole] at hrouter
      split at hrouter <;> cases hrouter
    · exact hnot htabled
  · intro hnone
    refine ⟨fun rloc hrloc => ?_, fun node hnode hother => ?_⟩
    · rcases hlookup rloc with ⟨htabled, -⟩ | ⟨-, hsame⟩
      · exact absurd htabled (hnone rloc hrloc)
      · obtain ⟨answer, hanswer⟩ := lastAnswer_isSome hrloc
        rw [filter_nodes hformatted, hsame, getElem?_routersOf, hanswer]
        exact ⟨_, rfl, role_routerNode _ _ _, showsAnswer_routerNode _ _ _⟩
    · obtain ⟨⟨r, node⟩, hentry, rfl⟩ := mem_map.mp hnode
      have hget := Std.TreeMap.mem_toList_iff_getElem?_eq_some.mp hentry
      rcases hlookup r with ⟨-, child, hchild, -, hrole⟩ | ⟨-, hsame⟩
      · cases hchild.symm.trans hget
        exact hrole
      · rw [hsame, getElem?_routersOf] at hget
        obtain ⟨answer, hanswer, rfl⟩ := Option.map_eq_some_iff.mp hget
        exact absurd (rloc16_routerNode _ _ _) (hother r (mem_of_lastAnswer hanswer))

/-- The routers are those of the discovery answer. A snapshot keeps them exactly
if no child table names one of them. -/
theorem topology_keeps_routers_iff {borderAgent : Text} {snapshot : TopologySnapshot} {c c' : Collector σ}
    (h : (collectTopology client borderAgent).run c = .ok snapshot c') :
    ∃ discovery leaderRloc c₁ asked c₂,
      (collectDiag client (meshLocalAddr c leaderAloc16) discoveryTlvs).run c = .ok (some discovery) c₁ ∧
        leaderRlocOf discovery = some leaderRloc ∧ Asked client routerTlvs c₁ asked c₂ ∧
        asked.map Prod.fst = routerRlocs discovery leaderRloc ∧
        (∀ rloc, rloc ∈ asked.map Prod.fst ↔ Discovered discovery leaderRloc rloc) ∧
        (RoutersKept leaderRloc asked snapshot.nodes ↔
          ∀ rloc, Discovered discovery leaderRloc rloc → ¬ Tabled (answersOf leaderRloc asked) rloc) := by
  rw [collectTopology, get_bind] at h
  obtain ⟨discovery, c₁, hdiscovery, h⟩ := bind_eq_ok.mp h
  obtain ⟨discovery, hfound, h⟩ := lift_bind_ok.mp h
  obtain ⟨leaderRloc, hleader, h⟩ := lift_bind_ok.mp h
  obtain ⟨⟨nodes, answers⟩, c₂, hrouters, h⟩ := bind_eq_ok.mp h
  obtain ⟨nodes', c₃, hchildren, h⟩ := bind_eq_ok.mp h
  obtain ⟨children, c₄, hchildren, hnodes⟩ := bind_eq_ok.mp hchildren
  rw [get_bind] at h
  obtain ⟨network, -, h⟩ := lift_bind_ok.mp h
  cases h
  cases hnodes
  obtain ⟨asked, hasked, hrlocs, hfold⟩ := askRouters_eq_ok hrouters
  have hnodes : nodes = routersOf leaderRloc asked := congrArg Prod.fst hfold
  have hanswers : answers = answersOf leaderRloc asked := congrArg Prod.snd hfold
  rw [hanswers] at hchildren
  have hdiscovered : ∀ rloc, rloc ∈ asked.map Prod.fst ↔ Discovered discovery leaderRloc rloc := by
    rw [hrlocs]
    exact fun rloc => mem_routerRlocs
  refine ⟨discovery, leaderRloc, c₁, asked, c₂, ?_, okOr_eq_ok.mp hleader, hasked, hrlocs, hdiscovered, ?_⟩
  · rw [hdiscovery, okOr_eq_ok.mp hfound]
  · simp only [← hdiscovered]
    rw [hnodes]
    exact routersKept_iff hchildren

end Snapshots

section Example

open RelayIsolation Revocation SessionState

attribute [local instance] residues noTexts TextForms.plainHex

/-- A walk of a network that gives these answers. -/
def walker (answers : List Bytes) : Collector (Commissioner StaticJoinerHandler) where
  commissioner :=
    { residueCommissioner with
      network := ⟨[], [], answers.zipIdx.map fun (answer, i) => leaderAnswer [0, .ofNat (2 * i + 1)] answer⟩ }
  nodeTimeout := 5 * 10 ^ 9
  keepAliveInterval := 40 * 10 ^ 9
  lastKeepAlive := 0
  meshLocalPrefix := List.Vector.replicate 8 0
  dataset := .default
  events := []

def walkerClient : Client (Commissioner StaticJoinerHandler) := commissionerClient ⟨asciiText 1, 40 * 10 ^ 9, false⟩ id

def agentText : Text := asciiText 1

theorem topology_of_outcome (answers : List Bytes) (roles : List Role)
    (h : (outcome ((collectTopology walkerClient agentText).run (walker answers))).map (·.nodes.map Node.role) = .ok roles) :
    ∃ snapshot c', (collectTopology walkerClient agentText).run (walker answers) = .ok snapshot c' ∧
      snapshot.nodes.map Node.role = roles := by
  cases hrun : (collectTopology walkerClient agentText).run (walker answers) with
  | ok snapshot c' =>
    rw [hrun] at h
    exact ⟨snapshot, c', rfl, Except.ok.inj h⟩
  | error e c' =>
    rw [hrun] at h
    cases h

def macTlv (high low : UInt8) : Bytes := [DiagTlv.macAddress, 2, high, low]

/-- The leader 0x0400 and the router 0x0800 answer with their addresses, and the
leader has the child 0x0401. -/
def pairAnswers : List Bytes :=
  [macTlv 0x04 0x00, [DiagTlv.route64, 11, 0, 0x60, 0, 0, 0, 0, 0, 0, 0, 0x01, 0xe1],
    macTlv 0x04 0x00, DiagTlv.extMacAddress :: 8 :: List.replicate 8 0x11, [DiagTlv.childTable, 3, 0x40, 0x01, 0x0f], [],
    macTlv 0x08 0x00, DiagTlv.extMacAddress :: 8 :: List.replicate 8 0x22, [], [], macTlv 0x04 0x01, [], []]

def discoverPair : EStateM.Result Errors.Error (Collector (Commissioner StaticJoinerHandler)) (Option NetDiagData) :=
  (collectDiag walkerClient (meshLocalAddr (walker pairAnswers) leaderAloc16) discoveryTlvs).run (walker pairAnswers)

def askPair : List (UInt16 × Option NetDiagData) :=
  answersFrom walkerClient routerTlvs [0x0400, 0x0800] (finalState discoverPair)

/-- Two routers and a child. -/
theorem topology_keeps_routers_residues :
    ∃ snapshot c', (collectTopology walkerClient agentText).run (walker pairAnswers) = .ok snapshot c' ∧
      snapshot.nodes.map Node.role = [.leader, .child, .router] ∧ ∃ discovery asked,
        (∀ rloc, Discovered discovery 0x0400 rloc ↔ rloc = 0x0400 ∨ rloc = 0x0800) ∧
        (asked.map fun answer => (answer.1, answer.2.bind (·.extMacAddr))) =
          [(0x0400, some (List.replicate 8 0x11)), (0x0800, some (List.replicate 8 0x22))] ∧
        RoutersKept 0x0400 asked snapshot.nodes := by
  obtain ⟨snapshot, c', hrun, hroles⟩ := topology_of_outcome pairAnswers [.leader, .child, .router] (by decide +kernel)
  obtain ⟨discovery, leaderRloc, c₁, asked, c₂, hdiscovery, hleader, hasked, hrlocs, hdiscovered, hiff⟩ :=
    topology_keeps_routers_iff hrun
  have hpair : discoverPair = .ok (some discovery) c₁ := hdiscovery
  have hfound : (leaderRlocOf discovery).map (fun leaderRloc => (leaderRloc, routerRlocs discovery leaderRloc)) =
      some (0x0400, [0x0400, 0x0800]) := by
    have hcomputed : ((outcome discoverPair).map fun found => found.bind fun data => (leaderRlocOf data).map fun leaderRloc =>
        (leaderRloc, routerRlocs data leaderRloc)) = .ok (some (0x0400, [0x0400, 0x0800])) := by decide +kernel
    rw [hpair] at hcomputed
    exact Except.ok.inj hcomputed
  rw [hleader] at hfound
  obtain ⟨rfl, hpairRlocs⟩ := Prod.mk.inj (Option.some.inj hfound)
  rw [hpairRlocs] at hrlocs
  obtain rfl : asked = askPair := by
    rw [hasked.eq_answersFrom, hrlocs, askPair, hpair]
    rfl
  have hnone : [(0x0400 : UInt16), 0x0800].all ((childrenOf (answersOf 0x0400 askPair))[·]?.isNone) := by decide +kernel
  refine ⟨snapshot, c', hrun, hroles, discovery, askPair, fun rloc => ?_, by decide +kernel, hiff.mpr fun rloc hrloc htabled => ?_⟩
  · rw [← hdiscovered, hrlocs]
    simp
  · rw [← hdiscovered, hrlocs] at hrloc
    rcases getElem?_childrenOf (answersOf 0x0400 askPair) rloc with ⟨-, node, hnode, -⟩ | ⟨hnot, -⟩
    · have hfree := all_eq_true.mp hnone rloc hrloc
      rw [hnode] at hfree
      cases hfree
    · exact hnot htabled

/-- The router names a child with the child ID zero, which is then taken for the
router itself. -/
theorem router_is_replaced_residues :
    ∃ snapshot c', (collectTopology walkerClient agentText).run (walker [macTlv 0x04 0x00, [], macTlv 0x04 0x00, [],
      [DiagTlv.childTable, 3, 0x40, 0x00, 0x0f], []]) = .ok snapshot c' ∧ snapshot.nodes.map Node.role = [.child] :=
  topology_of_outcome _ _ (by decide +kernel)

end Example

end ThreadCommissioner.TopologyWalks
