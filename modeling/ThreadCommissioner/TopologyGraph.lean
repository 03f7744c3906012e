import ThreadCommissioner.LinkGraph

namespace ThreadCommissioner.TopologyGraph

open ByteStrings KeyedMaps LinkGraph List Texts ThreadCommissioner.Topology

section Lines

theorem utf8Valid_qualityOpen : utf8Valid (ascii " (lq ") = true := by decide

theorem utf8Valid_close : utf8Valid (ascii ")") = true := by decide

/-- `{other} (lq {in}/{out})`. -/
def qualityLine (other : Text) (lqIn lqOut : UInt8) : Text :=
  other.append (Text.append ⟨ascii " (lq ", utf8Valid_qualityOpen⟩ ((decimalText lqIn).append
    (slash.append ((decimalText lqOut).append ⟨ascii ")", utf8Valid_close⟩))))

/-- The view of an end, or that of the other end the other way round. -/
def ownView (own peer : Option LinkView) : Option LinkView := own.or (peer.map fun view => ⟨view.lqOut, view.lqIn⟩)

def neighborLine (other : Text) : Option LinkView → Text
  | some view => qualityLine other view.lqIn view.lqOut
  | none => other

def neighborOf (rloc : Text) : Link → Option Text
  | .mesh a b aView bView =>
    if a = rloc then some (neighborLine b (ownView aView bView))
    else if b = rloc then some (neighborLine a (ownView bView aView))
    else none
  | .parentChild .. => none

def meshNeighbors (snapshot : TopologySnapshot) (rloc : Text) : List Text := snapshot.links.filterMap (neighborOf rloc)

end Lines

section Mentions

def Mentions (rloc16 : UInt16) (line : Text) : Prop := (formatRloc16 rloc16).bytes <:+: line.bytes

instance (rloc16 : UInt16) (line : Text) : Decidable (Mentions rloc16 line) :=
  inferInstanceAs (Decidable ((formatRloc16 rloc16).bytes <:+: line.bytes))

/-- A text that starts as hexadecimal numbers do occurs at the start, if there is no
other mark of such a number. -/
theorem infix_hexMark {s t : Bytes} (h : 0x78 ∉ t) : ascii "0x" ++ s <:+: ascii "0x" ++ t ↔ s <+: t := by
  have hmark : ascii "0x" = [0x30, 0x78] := by decide
  rw [hmark]
  constructor
  · rintro ⟨before, after, heq⟩
    rcases before with _ | ⟨first, _ | ⟨second, before⟩⟩
    · exact ⟨after, by simpa using heq⟩
    · simp at heq
    · simp only [cons_append, nil_append, List.cons.injEq] at heq
      refine absurd ?_ h
      rw [← heq.2.2]
      simp
  · rintro ⟨after, rfl⟩
    exact ⟨[], after, by simp⟩

theorem hexDigit_ne_mark {digit : ℕ} (h : digit < 16) : hexDigit digit ≠ 0x78 := by
  have htable : ∀ digit : Fin 16, hexDigit digit.val ≠ 0x78 := by decide
  exact htable ⟨digit, h⟩

theorem mark_not_mem_lowerHex (bytes : Bytes) : 0x78 ∉ lowerHex bytes := by
  intro hmem
  obtain ⟨byte, -, hmem⟩ := mem_flatMap.mp hmem
  obtain ⟨hhigh, hlow⟩ := digits_lt byte
  rcases mem_cons.mp hmem with hmem | hmem
  · exact hexDigit_ne_mark hhigh hmem.symm
  · exact hexDigit_ne_mark hlow (mem_singleton.mp hmem).symm

theorem mark_not_mem_decimalText (value : UInt8) : 0x78 ∉ (decimalText value).bytes := by
  have htable : ∀ digit : Fin 10, UInt8.ofNat (0x30 + digit.val) ≠ 0x78 := by decide
  have hdigit : ∀ n, decimalDigit n ≠ 0x78 := fun n => htable ⟨n % 10, Nat.mod_lt _ (by decide)⟩
  have hne : ∀ n, (0x78 : UInt8) ≠ decimalDigit n := fun n => (hdigit n).symm
  rw [decimalText]
  dsimp only
  split_ifs <;> simp [hne]

theorem neighborLine_bytes (y : UInt16) (view : Option LinkView) :
    ∃ rest, (neighborLine (formatRloc16 y) view).bytes = ascii "0x" ++ (lowerHex (beBytes 2 y.toNat) ++ rest) ∧ 0x78 ∉ rest := by
  cases view with
  | none => exact ⟨[], by rw [append_nil]; rfl, not_mem_nil⟩
  | some view =>
    refine ⟨_, append_assoc _ _ _, ?_⟩
    have hopen : 0x78 ∉ ascii " (lq " := by decide
    have hclose : 0x78 ∉ ascii ")" := by decide
    have hslash : 0x78 ∉ slash.bytes := by decide
    simp only [Text.append, mem_append, not_or]
    exact ⟨hopen, mark_not_mem_decimalText _, hslash, mark_not_mem_decimalText _, hclose⟩

theorem length_lowerHex (bytes : Bytes) : (lowerHex bytes).length = bytes.length * 2 := by
  simp [lowerHex, length_flatMap]

theorem mentions_neighborLine {b y : UInt16} {view : Option LinkView} :
    Mentions b (neighborLine (formatRloc16 y) view) ↔ y = b := by
  obtain ⟨rest, hline, hrest⟩ := neighborLine_bytes y view
  have hmark : 0x78 ∉ lowerHex (beBytes 2 y.toNat) ++ rest := by
    simp [mark_not_mem_lowerHex, hrest]
  have hmentions : Mentions b (neighborLine (formatRloc16 y) view) ↔
      lowerHex (beBytes 2 b.toNat) <+: lowerHex (beBytes 2 y.toNat) ++ rest := by
    rw [Mentions, hline]
    exact infix_hexMark hmark
  rw [hmentions]
  constructor
  · rintro ⟨after, heq⟩
    obtain ⟨heq, -⟩ := append_inj heq (by simp [length_lowerHex])
    exact (UInt16.toNat_inj.mp ((beBytes_inj b.toNat_lt y.toNat_lt).mp (lowerHex_injective heq))).symm
  · rintro rfl
    exact prefix_append _ _

end Mentions

section Neighbors

/-- What is known of the link from `a` to `b`, as the map keeps it. -/
def viewsFrom (a b : UInt16) (views : Views) : Option LinkView :=
  if a ≤ b then ownView views.1 views.2 else ownView views.2 views.1

theorem ends_comm (a b : UInt16) : min a b = min b a ∧ max a b = max b a := by
  by_cases h : a ≤ b <;> by_cases h' : b ≤ a
  · rw [UInt16.le_antisymm h h']
    exact ⟨rfl, rfl⟩
  · exact ⟨(ends_of_le h).1.trans (ends_of_not_le h').1.symm, (ends_of_le h).2.trans (ends_of_not_le h').2.symm⟩
  · exact ⟨(ends_of_not_le h).1.trans (ends_of_le h').1.symm, (ends_of_not_le h).2.trans (ends_of_le h').2.symm⟩
  · exact absurd (UInt16.le_of_lt (UInt16.not_le.mp h)) h'

theorem eq_ends_iff {a b x y : UInt16} (hle : x ≤ y) : (x, y) = (min a b, max a b) ↔ x = a ∧ y = b ∨ x = b ∧ y = a := by
  rw [Prod.mk.injEq]
  by_cases h : a ≤ b
  · rw [(ends_of_le h).1, (ends_of_le h).2]
    refine ⟨.inl, ?_⟩
    rintro (hends | ⟨rfl, rfl⟩)
    · exact hends
    · rw [UInt16.le_antisymm h hle]
      exact ⟨rfl, rfl⟩
  · rw [(ends_of_not_le h).1, (ends_of_not_le h).2]
    refine ⟨.inr, ?_⟩
    rintro (⟨rfl, rfl⟩ | hends)
    · exact absurd hle h
    · exact hends

theorem filter_neighborOf {a b : UInt16} {pair : (UInt16 × UInt16) × Views} (hle : pair.1.1 ≤ pair.1.2) :
    (neighborOf (formatRloc16 a) (meshLink pair)).toList.filter (Mentions b ·) =
      if pair.1 = (min a b, max a b) then [neighborLine (formatRloc16 b) (viewsFrom a b pair.2)] else [] := by
  obtain ⟨⟨x, y⟩, views⟩ := pair
  have hfilter : ∀ z view, [neighborLine (formatRloc16 z) view].filter (Mentions b ·) =
      if z = b then [neighborLine (formatRloc16 z) view] else [] := by
    intro z view
    by_cases hz : z = b
    · simp [mentions_neighborLine, hz]
    · simp [mentions_neighborLine, hz]
  simp only [meshLink, neighborOf, formatRloc16_inj, eq_ends_iff hle]
  by_cases hx : x = a
  · subst hx
    rw [if_pos rfl, Option.toList_some, hfilter]
    by_cases hy : y = b
    · subst hy
      rw [if_pos rfl, if_pos (.inl ⟨rfl, rfl⟩), viewsFrom, if_pos hle]
    · rw [if_neg hy, if_neg]
      rintro (⟨-, hyb⟩ | ⟨hxb, hyx⟩)
      · exact hy hyb
      · exact hy (hyx.trans hxb)
  · rw [if_neg hx]
    by_cases hy : y = a
    · subst hy
      rw [if_pos rfl, Option.toList_some, hfilter]
      by_cases hxb : x = b
      · subst hxb
        have hnot : ¬ y ≤ x := fun hle' => hx (UInt16.le_antisymm hle hle')
        rw [if_pos rfl, if_pos (.inr ⟨rfl, rfl⟩), viewsFrom, if_neg hnot]
      · rw [if_neg hxb, if_neg]
        rintro (⟨hxy, -⟩ | ⟨hxb', -⟩)
        · exact hx hxy
        · exact hxb hxb'
    · rw [if_neg hy, if_neg]
      · rfl
      · rintro (⟨hxa, -⟩ | ⟨-, hya⟩)
        · exact hx hxa
        · exact hy hya

/-- The lines about `b` are the line of its link to `a`, if there is one. -/
theorem filter_meshNeighbors {snapshot : TopologySnapshot} {nodes : NodeMap} (h : snapshot.links = buildLinks nodes) (a b : UInt16) :
    (meshNeighbors snapshot (formatRloc16 a)).filter (Mentions b ·) =
      ((meshOf (reportsOf nodes))[(min a b, max a b)]?).toList.map fun views => neighborLine (formatRloc16 b) (viewsFrom a b views) := by
  have hparents : (nodes.toList.flatMap fun entry => parentLinks entry.1 entry.2).filterMap (neighborOf (formatRloc16 a)) = [] := by
    refine filterMap_eq_nil_iff.mpr fun link hlink => ?_
    obtain ⟨entry, -, hlink⟩ := mem_flatMap.mp hlink
    obtain ⟨child, -, rfl⟩ := mem_map.mp hlink
    rfl
  have hlines : ∀ pairs : List ((UInt16 × UInt16) × Views), (∀ pair ∈ pairs, pair.1.1 ≤ pair.1.2) →
      ((pairs.map meshLink).filterMap (neighborOf (formatRloc16 a))).filter (Mentions b ·) =
        (pairs.filter (·.1 = (min a b, max a b))).map fun pair => neighborLine (formatRloc16 b) (viewsFrom a b pair.2) := by
    intro pairs hpairs
    rw [filterMap_map, filterMap_eq_flatMap_toList, filter_flatMap]
    induction pairs with
    | nil => rfl
    | cons pair pairs ih =>
      obtain ⟨hpair, hpairs⟩ := forall_mem_cons.mp hpairs
      rw [flatMap_cons, ih hpairs, Function.comp_apply, filter_neighborOf hpair]
      by_cases hkey : pair.1 = (min a b, max a b)
      · rw [if_pos hkey, filter_cons_of_pos (by simpa using hkey)]
        rfl
      · rw [if_neg hkey, filter_cons_of_neg (by simpa using hkey)]
        rfl
  have hsorted : ∀ pair ∈ (meshOf (reportsOf nodes)).toList, pair.1.1 ≤ pair.1.2 := fun pair hpair => (mem_meshOf.mp hpair).1
  rw [meshNeighbors, h, buildLinks_eq, filterMap_append, hparents, append_nil, hlines _ hsorted, toList_filter_key]
  cases (meshOf (reportsOf nodes))[(min a b, max a b)]? <;> rfl

/-- What the node at `a` reported of a link to `b`: its last neighbor entry for it. -/
def reported (nodes : NodeMap) (a b : UInt16) : Option LinkView := (nodes[a]?).bind fun node => lastReport node b

theorem views_of_reported {nodes : NodeMap} {a b : UInt16} {view : LinkView} (h : reported nodes a b = some view)
    (hnone : reported nodes b a = none) :
    ∃ views, (meshOf (reportsOf nodes))[(min a b, max a b)]? = some views ∧ viewsFrom a b views = some view ∧
      viewsFrom b a views = some ⟨view.lqOut, view.lqIn⟩ := by
  have hne : a ≠ b := by
    rintro rfl
    rw [h] at hnone
    cases hnone
  rw [reported, ← lastView_reportsOf] at h hnone
  by_cases hle : a ≤ b
  · have hslots : slots (reportsOf nodes) a b = (some view, none) := by rw [slots, if_neg hne, h, hnone]
    have hnot : ¬ b ≤ a := fun hle' => hne (UInt16.le_antisymm hle hle')
    refine ⟨(some view, none), ?_, ?_, ?_⟩
    · rw [(ends_of_le hle).1, (ends_of_le hle).2, meshOf_getElem?, hslots, if_pos ⟨hle, by simp⟩]
    · rw [viewsFrom, if_pos hle]
      rfl
    · rw [viewsFrom, if_neg hnot]
      rfl
  · have hle' : b ≤ a := UInt16.le_of_lt (UInt16.not_le.mp hle)
    have hslots : slots (reportsOf nodes) b a = (none, some view) := by rw [slots, if_neg hne.symm, h, hnone]
    refine ⟨(none, some view), ?_, ?_, ?_⟩
    · rw [(ends_of_not_le hle).1, (ends_of_not_le hle).2, meshOf_getElem?, hslots, if_pos ⟨hle', by simp⟩]
    · rw [viewsFrom, if_neg hle]
      rfl
    · rw [viewsFrom, if_pos hle']
      rfl

theorem exists_mentions_iff {lines : List Text} {b : UInt16} :
    (∃ line ∈ lines, Mentions b line) ↔ lines.filter (Mentions b ·) ≠ [] := by
  simp [filter_eq_nil_iff]

end Neighbors

section Witness

attribute [local instance] SessionState.noTexts TextForms.plainHex

def pairSnapshot : TopologySnapshot where
  borderAgent := ⟨[], utf8Valid_nil⟩
  network := ⟨none, none, none, none, none, none, none, none⟩
  nodes := pairNodes.toList.map Prod.snd
  links := buildLinks pairNodes

end Witness

end ThreadCommissioner.TopologyGraph
