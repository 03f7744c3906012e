import Mathlib.Data.Sym.Sym2
import ThreadCommissioner.KeyedMaps
import ThreadCommissioner.RouteTables
import ThreadCommissioner.SessionState
import ThreadCommissioner.TextForms

namespace ThreadCommissioner.LinkGraph

open ByteStrings Diagnostics KeyedMaps List Requests RouteTables SessionState Texts ThreadCommissioner.Topology

section Ends

variable {a b : UInt16}

theorem ends_of_le (h : a ≤ b) : min a b = a ∧ max a b = b := ⟨if_pos h, if_pos h⟩

theorem ends_of_not_le (h : ¬ a ≤ b) : min a b = b ∧ max a b = a := ⟨if_neg h, if_neg h⟩

theorem le_ends (a b : UInt16) : min a b ≤ max a b := by
  by_cases h : a ≤ b
  · rw [(ends_of_le h).1, (ends_of_le h).2]
    exact h
  · rw [(ends_of_not_le h).1, (ends_of_not_le h).2]
    exact UInt16.le_of_lt (UInt16.not_le.mp h)

end Ends

section Reports

abbrev Report := UInt16 × RouteEntryInfo

def viewOf (entry : RouteEntryInfo) : LinkView := ⟨entry.linkQualityIn, entry.linkQualityOut⟩

/-- The entry names the router at `b` as a neighbor. -/
def names (b : UInt16) (entry : RouteEntryInfo) : Bool := entry.relation = .neighbor ∧ rlocOfRouter entry.routerId = b

def about (a b : UInt16) (report : Report) : Bool := report.1 = a ∧ names b report.2

/-- What `a` said last of its link to `b`. -/
def lastView (reports : List Report) (a b : UInt16) : Option LinkView :=
  (reports.filter (about a b)).getLast?.map fun report => viewOf report.2

/-- What is known of the link from `a` to `b`. A node's link to itself has one end. -/
def slots (reports : List Report) (a b : UInt16) : Views :=
  (lastView reports a b, if a = b then none else lastView reports b a)

def meshOf (reports : List Report) : PairMap Views := reports.foldl (fun mesh report => addView report.1 mesh report.2) ∅

theorem lastView_append (reports : List Report) (report : Report) (a b : UInt16) :
    lastView (reports ++ [report]) a b = if about a b report then some (viewOf report.2) else lastView reports a b := by
  by_cases h : about a b report = true
  · simp [lastView, filter_append, h]
  · simp [lastView, filter_append, h]

variable {a b : UInt16} {report : Report} {reports : List Report}

theorem about_iff (h : report.2.relation = .neighbor) :
    about a b report = true ↔ report.1 = a ∧ rlocOfRouter report.2.routerId = b := by
  simp [about, names, h]

theorem lastView_append_of_ne (h : ¬ (report.1 = a ∧ rlocOfRouter report.2.routerId = b)) :
    lastView (reports ++ [report]) a b = lastView reports a b := by
  rw [lastView_append, if_neg]
  simp only [about, names, Bool.decide_and, Bool.and_eq_true, decide_eq_true_eq]
  exact fun habout => h ⟨habout.1, habout.2.2⟩

theorem slots_append_of_ne (h : ¬ (report.1 = a ∧ rlocOfRouter report.2.routerId = b))
    (h' : ¬ (report.1 = b ∧ rlocOfRouter report.2.routerId = a)) : slots (reports ++ [report]) a b = slots reports a b := by
  rw [slots, slots, lastView_append_of_ne h, lastView_append_of_ne h']

theorem slots_append (hneighbor : report.2.relation = .neighbor) {other : UInt16}
    (hother : rlocOfRouter report.2.routerId = other) :
    slots (reports ++ [report]) (min report.1 other) (max report.1 other) =
      if report.1 ≤ other then (some (viewOf report.2), (slots reports (min report.1 other) (max report.1 other)).2)
      else ((slots reports (min report.1 other) (max report.1 other)).1, some (viewOf report.2)) := by
  have hown : lastView (reports ++ [report]) report.1 other = some (viewOf report.2) := by
    rw [lastView_append, if_pos ((about_iff hneighbor).mpr ⟨rfl, hother⟩)]
  by_cases hle : report.1 ≤ other
  · rw [if_pos hle, (ends_of_le hle).1, (ends_of_le hle).2, slots, slots, hown]
    by_cases hself : report.1 = other
    · rw [if_pos hself, if_pos hself]
    · rw [if_neg hself, if_neg hself, lastView_append_of_ne fun h => hself h.1]
  · have hne : other ≠ report.1 := by
      rintro rfl
      exact hle (UInt16.le_refl _)
    rw [if_neg hle, (ends_of_not_le hle).1, (ends_of_not_le hle).2, slots, slots, if_neg hne, hown,
      lastView_append_of_ne fun h => hne h.1.symm]

theorem slots_append_of_not_neighbor (h : report.2.relation ≠ .neighbor) (a b : UInt16) :
    slots (reports ++ [report]) a b = slots reports a b := by
  have hview : ∀ a b, lastView (reports ++ [report]) a b = lastView reports a b := by
    intro a b
    rw [lastView_append, if_neg (by simp [about, names, h])]
  rw [slots, slots, hview, hview]

theorem ends_swap (hle : a ≤ b) : (min b a, max b a) = (a, b) := by
  by_cases hle' : b ≤ a
  · rw [(ends_of_le hle').1, (ends_of_le hle').2, UInt16.le_antisymm hle hle']
  · rw [(ends_of_not_le hle').1, (ends_of_not_le hle').2]

theorem slots_append_of_ends_ne {other : UInt16} (hother : rlocOfRouter report.2.routerId = other) (hle : a ≤ b)
    (hkey : (min report.1 other, max report.1 other) ≠ (a, b)) : slots (reports ++ [report]) a b = slots reports a b := by
  subst hother
  refine slots_append_of_ne ?_ ?_
  · rintro ⟨rfl, rfl⟩
    exact hkey (by rw [(ends_of_le hle).1, (ends_of_le hle).2])
  · rintro ⟨rfl, rfl⟩
    exact hkey (ends_swap hle)

theorem meshOf_getElem? (reports : List Report) (a b : UInt16) :
    (meshOf reports)[(a, b)]? = if a ≤ b ∧ slots reports a b ≠ (none, none) then some (slots reports a b) else none := by
  induction reports using List.reverseRecOn generalizing a b with
  | nil => simp [meshOf, slots, lastView]
  | append_singleton reports report ih =>
    have hmesh : meshOf (reports ++ [report]) = addView report.1 (meshOf reports) report.2 := by
      rw [meshOf, foldl_append]
      rfl
    by_cases hneighbor : report.2.relation = .neighbor
    · generalize hother : rlocOfRouter report.2.routerId = other
      have hslot : (meshOf reports).getD (min report.1 other, max report.1 other) (none, none) =
          slots reports (min report.1 other) (max report.1 other) := by
        rw [Std.TreeMap.getD_eq_getD_getElem?, ih]
        by_cases hnone : slots reports (min report.1 other) (max report.1 other) = (none, none)
        · simp [hnone]
        · rw [if_pos ⟨le_ends _ _, hnone⟩]
          rfl
      have hadd : addView report.1 (meshOf reports) report.2 =
          (meshOf reports).insert (min report.1 other, max report.1 other)
            (slots (reports ++ [report]) (min report.1 other) (max report.1 other)) := by
        rw [slots_append hneighbor hother, ← hslot, addView, if_neg (not_not_intro hneighbor), hother]
        rfl
      rw [hmesh, hadd, getElem?_insert_key]
      by_cases hkey : (min report.1 other, max report.1 other) = (a, b)
      · obtain ⟨rfl, rfl⟩ := Prod.mk.inj hkey
        have hheld : slots (reports ++ [report]) (min report.1 other) (max report.1 other) ≠ (none, none) := by
          rw [slots_append hneighbor hother]
          split <;> simp
        rw [if_pos rfl, if_pos ⟨le_ends _ _, hheld⟩]
      · rw [if_neg hkey, ih]
        by_cases hle : a ≤ b
        · rw [slots_append_of_ends_ne hother hle hkey]
        · rw [if_neg fun h => hle h.1, if_neg fun h => hle h.1]
    · rw [hmesh, slots_append_of_not_neighbor hneighbor, addView, if_pos hneighbor, ih]

end Reports

section Nodes

def reportsOf (nodes : NodeMap) : List Report := nodes.toList.flatMap fun entry => entry.2.routeTable.map (entry.1, ·)

/-- What a node said last of its link to `b`. -/
def lastReport (node : Node) (b : UInt16) : Option LinkView := (node.routeTable.filter (names b)).getLast?.map viewOf

def meshLink (pair : (UInt16 × UInt16) × Views) : Link :=
  .mesh (formatRloc16 pair.1.1) (formatRloc16 pair.1.2) pair.2.1 pair.2.2

variable (nodes : NodeMap)

theorem buildLinks_eq :
    buildLinks nodes = (meshOf (reportsOf nodes)).toList.map meshLink ++ nodes.toList.flatMap fun entry => parentLinks entry.1 entry.2 := by
  have hmesh : nodes.toList.foldl (fun mesh entry => entry.2.routeTable.foldl (addView entry.1) mesh) (∅ : PairMap Views) =
      meshOf (reportsOf nodes) := by
    rw [meshOf, reportsOf, foldl_flatMap]
    congr 1
    funext mesh entry
    rw [foldl_map]
  rw [← hmesh]
  rfl

theorem lastView_reportsOf (a b : UInt16) :
    lastView (reportsOf nodes) a b = (nodes[a]?).bind fun node => lastReport node b := by
  have htable : ∀ entry : UInt16 × Node, (entry.2.routeTable.map (entry.1, ·)).filter (about a b) =
      if entry.1 = a then (entry.2.routeTable.filter (names b)).map (entry.1, ·) else [] := by
    intro entry
    rw [filter_map]
    by_cases h : entry.1 = a
    · rw [if_pos h]
      congr 1
      apply filter_congr
      intro route _
      simp [about, h]
    · rw [if_neg h, map_eq_nil_iff, filter_eq_nil_iff]
      simp [about, h]
  have hfilter : (reportsOf nodes).filter (about a b) =
      (nodes.toList.filter (·.1 = a)).flatMap fun entry => (entry.2.routeTable.filter (names b)).map (entry.1, ·) := by
    rw [reportsOf, filter_flatMap]
    simp only [htable]
    induction nodes.toList with
    | nil => rfl
    | cons entry entries ih =>
      by_cases h : entry.1 = a
      · rw [filter_cons_of_pos (by simpa using h), flatMap_cons, flatMap_cons, ih, if_pos h]
      · rw [filter_cons_of_neg (by simpa using h), flatMap_cons, ih, if_neg h, nil_append]
  rw [lastView, hfilter, toList_filter_key]
  cases nodes[a]? with
  | none => rfl
  | some node =>
    change ((node.routeTable.filter (names b)).map (a, ·) ++ []).getLast?.map (fun report : Report => viewOf report.2) = lastReport node b
    rw [append_nil, List.getLast?_map, Option.map_map]
    rfl

theorem mem_meshOf {reports : List Report} {a b : UInt16} {views : Views} :
    ((a, b), views) ∈ (meshOf reports).toList ↔ a ≤ b ∧ views = slots reports a b ∧ views ≠ (none, none) := by
  rw [Std.TreeMap.mem_toList_iff_getElem?_eq_some, meshOf_getElem?]
  split
  · next h =>
    rw [Option.some.injEq]
    constructor
    · rintro rfl
      exact ⟨h.1, rfl, h.2⟩
    · exact fun h => h.2.1.symm
  · next h =>
    simp only [reduceCtorEq, false_iff]
    rintro ⟨hle, rfl, hne⟩
    exact h ⟨hle, hne⟩

theorem mesh_mem_buildLinks {nodes : NodeMap} {x y : Text} {xView yView : Option LinkView} :
    .mesh x y xView yView ∈ buildLinks nodes ↔ ∃ a b, x = formatRloc16 a ∧ y = formatRloc16 b ∧
      ((a, b), (xView, yView)) ∈ (meshOf (reportsOf nodes)).toList := by
  rw [buildLinks_eq, mem_append]
  constructor
  · rintro (h | h)
    · obtain ⟨⟨⟨a, b⟩, views⟩, hmem, hlink⟩ := mem_map.mp h
      cases hlink
      exact ⟨a, b, rfl, rfl, hmem⟩
    · obtain ⟨entry, -, hlink⟩ := mem_flatMap.mp h
      obtain ⟨child, -, hlink⟩ := mem_map.mp hlink
      cases hlink
  · rintro ⟨a, b, rfl, rfl, hmem⟩
    exact .inl (mem_map.mpr ⟨_, hmem, rfl⟩)

def meshEnds : Link → Option (Text × Text)
  | .mesh a b _ _ => some (a, b)
  | .parentChild .. => none

def isParentChild : Link → Bool
  | .mesh .. => false
  | .parentChild .. => true

theorem nodup_meshEnds : ((buildLinks nodes).filterMap meshEnds).Nodup := by
  have hmesh : ((meshOf (reportsOf nodes)).toList.map meshLink).filterMap meshEnds =
      ((meshOf (reportsOf nodes)).toList.map Prod.fst).map fun pair => (formatRloc16 pair.1, formatRloc16 pair.2) := by
    rw [filterMap_map, map_map, ← filterMap_eq_map]
    rfl
  have hparents : (nodes.toList.flatMap fun entry => parentLinks entry.1 entry.2).filterMap meshEnds = [] := by
    refine filterMap_eq_nil_iff.mpr fun link hlink => ?_
    obtain ⟨entry, -, hlink⟩ := mem_flatMap.mp hlink
    obtain ⟨child, -, rfl⟩ := mem_map.mp hlink
    rfl
  rw [buildLinks_eq, filterMap_append, hmesh, hparents, append_nil]
  refine (nodup_keys _).map fun pair pair' heq => ?_
  obtain ⟨ha, hb⟩ := Prod.mk.inj heq
  exact Prod.ext (formatRloc16_inj.mp ha) (formatRloc16_inj.mp hb)

theorem filter_isParentChild :
    (buildLinks nodes).filter isParentChild = nodes.toList.flatMap fun entry => parentLinks entry.1 entry.2 := by
  rw [buildLinks_eq, filter_append]
  have hmesh : ((meshOf (reportsOf nodes)).toList.map meshLink).filter isParentChild = [] := by
    refine filter_eq_nil_iff.mpr fun link hlink => ?_
    obtain ⟨pair, -, rfl⟩ := mem_map.mp hlink
    exact Bool.false_ne_true
  rw [hmesh, nil_append, filter_eq_self]
  intro link hlink
  obtain ⟨entry, -, hlink⟩ := mem_flatMap.mp hlink
  obtain ⟨child, -, rfl⟩ := mem_map.mp hlink
  rfl

end Nodes

section Tables

theorem routerId_rlocOfRouter {k : UInt8} (h : k.toNat < 64) : routerId (rlocOfRouter k) = k := by
  have htable : ∀ k : Fin 64, routerId (rlocOfRouter (UInt8.ofNat k.val)) = UInt8.ofNat k.val := by decide
  have hk := htable ⟨k.toNat, h⟩
  rwa [UInt8.ofNat_toNat] at hk

/-- The route table is that of one decoded Route64, as the node with the ID sees it. -/
structure Routed (ownRouterId : UInt8) (node : Node) : Prop where
  routerId : node.routerId = ownRouterId
  table : node.routeTable = [] ∨ ∃ value route, decodeRoute64 value = .ok route ∧
    node.routeTable = route.routeData.map (routeEntryInfo ownRouterId)

variable {ownRouterId : UInt8} {node : Node} (h : Routed ownRouterId node)
include h

theorem Routed.routerId_lt {entry : RouteEntryInfo} (hmem : entry ∈ node.routeTable) : entry.routerId.toNat < 64 := by
  rcases h.table with htable | ⟨value, route, hvalue, htable⟩
  · rw [htable] at hmem
    cases hmem
  · rw [htable] at hmem
    obtain ⟨data, hdata, rfl⟩ := mem_map.mp hmem
    have hid : data.routerId.toNat ∈ route.routeData.map (·.routerId.toNat) := mem_map.mpr ⟨data, hdata, rfl⟩
    rw [routerIds_of_decode hvalue] at hid
    exact (mem_maskedIds.mp hid).1

variable {b : UInt16}

theorem Routed.eq_of_names {entry entry' : RouteEntryInfo} (hmem : entry ∈ node.routeTable)
    (hmem' : entry' ∈ node.routeTable) (hnames : names b entry = true) (hnames' : names b entry' = true) : entry = entry' := by
  have hlt := h.routerId_lt hmem
  have hlt' := h.routerId_lt hmem'
  simp only [names, decide_eq_true_eq] at hnames hnames'
  have hid : entry.routerId = entry'.routerId := by
    rw [← routerId_rlocOfRouter hlt, ← routerId_rlocOfRouter hlt', hnames.2, hnames'.2]
  rcases h.table with htable | ⟨value, route, hvalue, htable⟩
  · rw [htable] at hmem
    cases hmem
  · rw [htable] at hmem hmem'
    obtain ⟨data, hdata, rfl⟩ := mem_map.mp hmem
    obtain ⟨data', hdata', rfl⟩ := mem_map.mp hmem'
    have hnodup : (route.routeData.map (·.routerId.toNat)).Nodup := by
      rw [routerIds_of_decode hvalue]
      exact (pairwise_maskedIds _).imp Nat.ne_of_lt
    rw [inj_on_of_nodup_map hnodup hdata hdata' (congrArg UInt8.toNat hid)]

theorem Routed.lastReport_eq_some {view : LinkView} :
    lastReport node b = some view ↔ ∃ entry ∈ node.routeTable, names b entry = true ∧ view = viewOf entry := by
  constructor
  · intro hlast
    obtain ⟨entry, hentry, rfl⟩ := Option.map_eq_some_iff.mp hlast
    obtain ⟨hmem, hnames⟩ := mem_filter.mp (List.mem_of_getLast? hentry)
    exact ⟨entry, hmem, hnames, rfl⟩
  · rintro ⟨entry, hmem, hnames, rfl⟩
    cases hlast : (node.routeTable.filter (names b)).getLast? with
    | none =>
      rw [List.getLast?_eq_none_iff, filter_eq_nil_iff] at hlast
      exact absurd hnames (hlast entry hmem)
    | some last =>
      obtain ⟨hmem', hnames'⟩ := mem_filter.mp (List.mem_of_getLast? hlast)
      rw [lastReport, hlast, h.eq_of_names hmem' hmem hnames' hnames]
      rfl

theorem Routed.ne_of_names {entry : RouteEntryInfo} (hmem : entry ∈ node.routeTable) (hnames : names b entry = true) :
    Topology.routerId b ≠ ownRouterId := by
  have hlt := h.routerId_lt hmem
  simp only [names, decide_eq_true_eq] at hnames
  rw [← hnames.2, routerId_rlocOfRouter hlt]
  intro hid
  rcases h.table with htable | ⟨value, route, hvalue, htable⟩
  · rw [htable] at hmem
    cases hmem
  · rw [htable] at hmem
    obtain ⟨data, -, rfl⟩ := mem_map.mp hmem
    have hself : (routeEntryInfo ownRouterId data).relation = .self := if_pos hid
    rw [hself] at hnames
    cases hnames.1

end Tables

section Built

variable [AddressTexts] [Hex]

def DecodedRoutes (data : NetDiagData) : Prop := ∀ route, data.route64 = some route → ∃ value, decodeRoute64 value = .ok route

/-- The node was built for an RLOC16, from any answers. -/
inductive BuiltFor (rloc16 : UInt16) : Node → Prop
  | skeleton (role : Role) (discovery : Discovery) : BuiltFor rloc16 (.skeleton rloc16 role discovery)
  | fromDiag (role : Role) {data : NetDiagData} (decoded : DecodedRoutes data) : BuiltFor rloc16 (.fromDiag rloc16 role data)
  | mergeDiag {node : Node} {data : NetDiagData} (built : BuiltFor rloc16 node) (decoded : DecodedRoutes data) :
      BuiltFor rloc16 (node.mergeDiag data)

theorem Routed.mergeDiag {ownRouterId : UInt8} {node : Node} {data : NetDiagData} (h : Routed ownRouterId node)
    (hdecoded : DecodedRoutes data) : Routed ownRouterId (node.mergeDiag data) := by
  refine ⟨h.routerId, ?_⟩
  cases hroute : data.route64 with
  | none =>
    have htable : (node.mergeDiag data).routeTable = node.routeTable := by rw [Node.mergeDiag, hroute]; rfl
    rw [htable]
    exact h.table
  | some route =>
    obtain ⟨value, hvalue⟩ := hdecoded route hroute
    refine .inr ⟨value, route, hvalue, ?_⟩
    rw [Node.mergeDiag, hroute, ← h.routerId]
    rfl

theorem BuiltFor.routed {rloc16 : UInt16} {node : Node} (h : BuiltFor rloc16 node) : Routed (routerId rloc16) node := by
  induction h with
  | skeleton role discovery => exact ⟨rfl, .inl rfl⟩
  | fromDiag role hdecoded => exact Routed.mergeDiag ⟨rfl, .inl rfl⟩ hdecoded
  | mergeDiag _ hdecoded ih => exact ih.mergeDiag hdecoded

end Built

section Graph

variable {nodes : NodeMap} {a b : UInt16}

/-- The node at `r` has a neighbor entry for router `k`. -/
def HasNeighbor (nodes : NodeMap) (r : UInt16) (k : UInt8) : Prop :=
  ∃ node entry, nodes[r]? = some node ∧ entry ∈ node.routeTable ∧ entry.relation = .neighbor ∧ entry.routerId = k

/-- The node at `a` has a neighbor entry for the router at `b`, with these qualities. -/
def Reports (nodes : NodeMap) (a b : UInt16) (view : LinkView) : Prop :=
  ∃ node entry, nodes[a]? = some node ∧ entry ∈ node.routeTable ∧ entry.relation = .neighbor ∧
    rlocOfRouter entry.routerId = b ∧ view = ⟨entry.linkQualityIn, entry.linkQualityOut⟩

theorem exists_reports_iff {r : UInt16} :
    (∃ view, Reports nodes r b view) ↔ ∃ k, HasNeighbor nodes r k ∧ rlocOfRouter k = b := by
  constructor
  · rintro ⟨_, node, entry, hnode, hmem, hneighbor, hother, rfl⟩
    exact ⟨_, ⟨node, entry, hnode, hmem, hneighbor, rfl⟩, hother⟩
  · rintro ⟨_, ⟨node, entry, hnode, hmem, hneighbor, rfl⟩, hother⟩
    exact ⟨_, node, entry, hnode, hmem, hneighbor, hother, rfl⟩

theorem slots_ne_iff {reports : List Report} (hne : a ≠ b) :
    slots reports a b ≠ (none, none) ↔ (∃ view, lastView reports a b = some view) ∨ ∃ view, lastView reports b a = some view := by
  rw [slots, if_neg hne]
  cases lastView reports a b <;> cases lastView reports b a <;> simp

theorem mem_meshOf_of_le {reports : List Report} {views : Views} (h : ((a, b), views) ∈ (meshOf reports).toList)
    (hne : a ≠ b) : a < b ∧ views = (lastView reports a b, lastView reports b a) := by
  obtain ⟨hle, rfl, -⟩ := mem_meshOf.mp h
  refine ⟨UInt16.lt_of_le_of_ne hle hne, ?_⟩
  rw [slots, if_neg hne]

variable [AddressTexts] [Hex]

def Built (nodes : NodeMap) : Prop := ∀ r node, nodes[r]? = some node → BuiltFor r node

theorem lastView_eq_some (h : Built nodes) {view : LinkView} :
    lastView (reportsOf nodes) a b = some view ↔ Reports nodes a b view := by
  rw [lastView_reportsOf, Option.bind_eq_some_iff]
  constructor
  · rintro ⟨node, hnode, hlast⟩
    obtain ⟨entry, hmem, hnames, rfl⟩ := (h a node hnode).routed.lastReport_eq_some.mp hlast
    simp only [names, decide_eq_true_eq] at hnames
    exact ⟨node, entry, hnode, hmem, hnames.1, hnames.2, rfl⟩
  · rintro ⟨node, entry, hnode, hmem, hneighbor, hother, rfl⟩
    exact ⟨node, hnode, (h a node hnode).routed.lastReport_eq_some.mpr
      ⟨entry, hmem, decide_eq_true ⟨hneighbor, hother⟩, rfl⟩⟩

theorem Reports.ne (h : Built nodes) {view : LinkView} (hreports : Reports nodes a b view) : a ≠ b := by
  obtain ⟨node, entry, hnode, hmem, hneighbor, hother, -⟩ := hreports
  rintro rfl
  exact (h a node hnode).routed.ne_of_names hmem (decide_eq_true ⟨hneighbor, hother⟩) rfl

theorem ne_of_mem_meshOf (h : Built nodes) {views : Views}
    (hmem : ((a, b), views) ∈ (meshOf (reportsOf nodes)).toList) : a ≠ b := by
  rintro rfl
  obtain ⟨-, hviews, hheld⟩ := mem_meshOf.mp hmem
  cases hlast : lastView (reportsOf nodes) a a with
  | none =>
    rw [hviews, slots, if_pos rfl, hlast] at hheld
    exact hheld rfl
  | some view => exact ((lastView_eq_some h).mp hlast).ne h rfl

/-- The mesh links are the neighbor relation that the nodes report, each once and
with the view of either end, and the other links are the child tables. -/
theorem links_are_the_reported_graph (h : Built nodes) :
    (∀ pair : Sym2 UInt16,
      (∃ a b aView bView, s(a, b) = pair ∧ .mesh (formatRloc16 a) (formatRloc16 b) aView bView ∈ buildLinks nodes) ↔
        ∃ r k, HasNeighbor nodes r k ∧ s(r, rlocOfRouter k) = pair) ∧
      ((buildLinks nodes).filterMap meshEnds).Nodup ∧
      (∀ x y xView yView, .mesh x y xView yView ∈ buildLinks nodes →
        ∃ a b, x = formatRloc16 a ∧ y = formatRloc16 b ∧ a < b ∧ (∀ view, xView = some view ↔ Reports nodes a b view) ∧
          ∀ view, yView = some view ↔ Reports nodes b a view) ∧
      (buildLinks nodes).filter isParentChild = nodes.toList.flatMap fun entry => entry.2.childTable.map fun child =>
        .parentChild (formatRloc16 entry.1) child.rloc16 child.incomingLinkQuality child.timeoutSeconds := by
  refine ⟨fun pair => ⟨?_, ?_⟩, nodup_meshEnds nodes, ?_, filter_isParentChild nodes⟩
  · rintro ⟨a, b, aView, bView, rfl, hlink⟩
    obtain ⟨a', b', ha, hb, hmem⟩ := mesh_mem_buildLinks.mp hlink
    obtain rfl := formatRloc16_inj.mp ha
    obtain rfl := formatRloc16_inj.mp hb
    have hne := ne_of_mem_meshOf h hmem
    obtain ⟨-, hviews, hheld⟩ := mem_meshOf.mp hmem
    rw [hviews, slots_ne_iff hne] at hheld
    rcases hheld with ⟨view, hview⟩ | ⟨view, hview⟩
    · obtain ⟨k, hk, rfl⟩ := exists_reports_iff.mp ⟨view, (lastView_eq_some h).mp hview⟩
      exact ⟨a, k, hk, rfl⟩
    · obtain ⟨k, hk, rfl⟩ := exists_reports_iff.mp ⟨view, (lastView_eq_some h).mp hview⟩
      exact ⟨b, k, hk, Sym2.eq_swap⟩
  · rintro ⟨r, k, hneighbor, rfl⟩
    obtain ⟨view, hreports⟩ := exists_reports_iff.mpr ⟨k, hneighbor, rfl⟩
    have hne := hreports.ne h
    have hview := (lastView_eq_some h).mpr hreports
    by_cases hle : r ≤ rlocOfRouter k
    · have hheld := (slots_ne_iff hne).mpr (.inl ⟨view, hview⟩)
      exact ⟨_, _, _, _, rfl, mesh_mem_buildLinks.mpr ⟨_, _, rfl, rfl, mem_meshOf.mpr ⟨hle, rfl, hheld⟩⟩⟩
    · have hheld := (slots_ne_iff hne.symm).mpr (.inr ⟨view, hview⟩)
      have hle' := UInt16.le_of_lt (UInt16.not_le.mp hle)
      exact ⟨_, _, _, _, Sym2.eq_swap, mesh_mem_buildLinks.mpr ⟨_, _, rfl, rfl, mem_meshOf.mpr ⟨hle', rfl, hheld⟩⟩⟩
  · intro x y xView yView hlink
    obtain ⟨a, b, rfl, rfl, hmem⟩ := mesh_mem_buildLinks.mp hlink
    obtain ⟨hlt, hviews⟩ := mem_meshOf_of_le hmem (ne_of_mem_meshOf h hmem)
    obtain ⟨rfl, rfl⟩ := Prod.mk.inj hviews
    exact ⟨a, b, rfl, rfl, hlt, fun view => lastView_eq_some h, fun view => lastView_eq_some h⟩

end Graph

section Witness

attribute [local instance] noTexts TextForms.plainHex

def pairValue : Bytes := [0, 0x60, 0, 0, 0, 0, 0, 0, 0, 0x01, 0xe1]

def pairRoute : Route64 := ⟨0, ⟨[0x60, 0, 0, 0, 0, 0, 0, 0], rfl⟩, [⟨1, 0, 0, 1⟩, ⟨2, 3, 2, 1⟩]⟩

def pairNodes : NodeMap :=
  (((∅ : NodeMap).insert 0x0400 (.fromDiag 0x0400 .leader { route64 := some pairRoute })).insert 0x0800
    (.skeleton 0x0800 .router .unreachable))

theorem pairNodes_getElem? (r : UInt16) : pairNodes[r]? = if 0x0800 = r then some (.skeleton 0x0800 .router .unreachable)
    else if 0x0400 = r then some (.fromDiag 0x0400 .leader { route64 := some pairRoute }) else none := by
  rw [pairNodes, getElem?_insert_key, getElem?_insert_key]
  simp

theorem built_pairNodes : Built pairNodes := by
  intro r node hnode
  rw [pairNodes_getElem?] at hnode
  split at hnode
  · next hr =>
    cases hnode
    rw [← hr]
    exact .skeleton _ _
  · split at hnode
    · next hr =>
      cases hnode
      rw [← hr]
      refine .fromDiag _ fun route hroute => ⟨pairValue, ?_⟩
      cases hroute
      rfl
    · cases hnode

theorem links_are_the_reported_graph_pair : ∃ a b aView bView, s(a, b) = s(0x0400, 0x0800) ∧
    .mesh (formatRloc16 a) (formatRloc16 b) aView bView ∈ buildLinks pairNodes := by
  have hneighbor : HasNeighbor pairNodes 0x0400 2 :=
    ⟨_, routeEntryInfo 1 ⟨2, 3, 2, 1⟩, pairNodes_getElem? 0x0400, mem_cons_of_mem _ mem_cons_self, rfl, rfl⟩
  exact ((links_are_the_reported_graph built_pairNodes).1 _).mpr ⟨0x0400, 2, hneighbor, rfl⟩

end Witness

end ThreadCommissioner.LinkGraph
