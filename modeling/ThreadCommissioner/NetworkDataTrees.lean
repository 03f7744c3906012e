import ThreadCommissioner.Diagnostics

namespace ThreadCommissioner.NetworkDataTrees

open ByteStrings Computations Diagnostics Errors Framing List

section Tilings

/-- A TLV of the network data: a type of seven bits beside the stable flag, and
a value whose length fits one byte. -/
structure ScopedTlv where
  ty : UInt8
  stable : Bool
  value : Bytes
  ty_lt : ty.toNat < 128
  fits : value.length ≤ 255

def ScopedTlv.bytes (tlv : ScopedTlv) : Bytes :=
  .ofNat (2 * tlv.ty.toNat + tlv.stable.toNat) :: .ofNat tlv.value.length :: tlv.value

def ScopedTlv.content (tlv : ScopedTlv) : UInt8 × Bytes := (tlv.ty, tlv.value)

def tiling (tlvs : List ScopedTlv) : Bytes := tlvs.flatMap ScopedTlv.bytes

theorem shiftRight_one (byte : UInt8) : (byte >>> 1).toNat = byte.toNat / 2 := by
  rw [UInt8.toNat_shiftRight]
  exact Nat.shiftRight_eq_div_pow byte.toNat 1

theorem ScopedTlv.frames_bytes (tlv : ScopedTlv) : networkDataTlvs.Frames tlv.bytes tlv.content := by
  refine ⟨cons_ne_nil _ _, fun rest => ?_⟩
  have hty := tlv.ty_lt
  have hfits := tlv.fits
  have hstable := Bool.toNat_lt tlv.stable
  have hfirst : (UInt8.ofNat (2 * tlv.ty.toNat + tlv.stable.toNat)) >>> 1 = tlv.ty := by
    rw [← UInt8.toNat_inj, shiftRight_one, UInt8.toNat_ofNat']
    omega
  have hlen : (UInt8.ofNat tlv.value.length).toNat = tlv.value.length := by
    rw [UInt8.toNat_ofNat']
    omega
  change nextNetworkDataTlv (_ :: _ :: (tlv.value ++ rest)) = _
  rw [nextNetworkDataTlv, hfirst, hlen, if_neg (by simp), take_left' rfl, drop_left' rfl]
  rfl

theorem exists_tlv_of_next {bytes rest : Bytes} {content : UInt8 × Bytes}
    (h : nextNetworkDataTlv bytes = .ok (content, rest)) : ∃ tlv : ScopedTlv, tlv.content = content ∧ bytes = tlv.bytes ++ rest := by
  unfold nextNetworkDataTlv at h
  split at h
  · next first length afterHeader =>
    split at h
    · cases h
    · next hlen =>
      cases h
      have hfirst := first.toNat_lt
      have htake : (afterHeader.take length.toNat).length = length.toNat := by
        rw [length_take]
        omega
      have hty : (first >>> 1).toNat < 128 := by
        rw [shiftRight_one]
        omega
      have hbit : (decide (first.toNat % 2 = 1)).toNat = first.toNat % 2 := by
        rcases Nat.mod_two_eq_zero_or_one first.toNat with hzero | hone
        · rw [hzero]
          rfl
        · rw [hone]
          rfl
      refine ⟨⟨first >>> 1, decide (first.toNat % 2 = 1), afterHeader.take length.toNat, hty, ?_⟩, rfl, ?_⟩
      · rw [htake]
        exact Nat.le_of_lt_succ length.toNat_lt
      · change first :: length :: afterHeader = .ofNat _ :: .ofNat _ :: (_ ++ _)
        dsimp only
        rw [htake, hbit, shiftRight_one, Nat.div_add_mod, UInt8.ofNat_toNat, UInt8.ofNat_toNat, take_append_drop]
  · cases h

theorem all_eq_ok {bytes : Bytes} {contents : List (UInt8 × Bytes)} :
    networkDataTlvs.all bytes = .ok contents ↔ ∃ tlvs, tlvs.map ScopedTlv.content = contents ∧ bytes = tiling tlvs := by
  refine ⟨Framer.exists_flatMap exists_tlv_of_next, ?_⟩
  rintro ⟨tlvs, rfl, rfl⟩
  exact Framer.all_forms tlvs fun tlv _ => tlv.frames_bytes

end Tilings

section Entries

def routesOf : Bytes → List HasRouteEntry
  | high :: low :: flags :: rest => ⟨fromBe16 high low, flags >>> 6 &&& 0x03, bitSet flags 5⟩ :: routesOf rest
  | _ => []

def routersOf : Bytes → List BorderRouterEntry
  | high :: low :: flags :: more :: rest =>
    { rloc16 := fromBe16 high low
      prefixPreference := flags >>> 6 &&& 0x03
      isPreferred := bitSet flags 5
      isSlaac := bitSet flags 4
      isDhcp := bitSet flags 3
      isConfigure := bitSet flags 2
      isDefaultRoute := bitSet flags 1
      isOnMesh := bitSet flags 0
      isNdDns := bitSet more 7
      isDp := bitSet more 6 } :: routersOf rest
  | _ => []

def contextOf : Bytes → Option SixLowPanContext
  | [flags, contextLength] => some ⟨bitSet flags 4, flags &&& 0x0f, contextLength⟩
  | _ => none

variable {size : ℕ} {value : Bytes}

theorem chunksExact_append (hsize : 0 < size) {chunk : Bytes} (h : chunk.length = size) (rest : Bytes) :
    chunksExact size (chunk ++ rest) = chunk :: chunksExact size rest := by
  have hcount : (chunk ++ rest).length / size = rest.length / size + 1 := by
    rw [length_append, h, Nat.add_div_left _ hsize]
  have hdrop : ∀ i, (chunk ++ rest).drop (size * (i + 1)) = rest.drop (size * i) := by
    intro i
    rw [Nat.mul_succ, Nat.add_comm, ← drop_drop, drop_left' h]
  rw [chunksExact, hcount, range_succ_eq_map, map_cons, map_map, Nat.mul_zero, drop_zero, take_left' h]
  refine congrArg (chunk :: ·) (map_congr_left fun i _ => ?_)
  rw [Function.comp_apply, hdrop]

theorem chunksExact_of_short (h : value.length < size) : chunksExact size value = [] := by
  rw [chunksExact, Nat.div_eq_of_lt h]
  rfl

theorem length_of_mem_chunksExact {chunk : Bytes} (h : chunk ∈ chunksExact size value) : chunk.length = size := by
  obtain ⟨i, hi, rfl⟩ := mem_map.mp h
  have hlt := mem_range.mp hi
  have hend : size * (i + 1) ≤ value.length := (Nat.mul_le_mul_left size hlt).trans (Nat.mul_div_le _ _)
  rw [length_take, length_drop]
  rw [Nat.mul_succ] at hend
  omega

theorem map_chunksExact {α : Type} (hsize : 0 < size) {f : Bytes → α} {g : Bytes → List α}
    (hcons : ∀ chunk rest, chunk.length = size → g (chunk ++ rest) = f chunk :: g rest)
    (hshort : ∀ value, value.length < size → g value = []) (value : Bytes) : (chunksExact size value).map f = g value := by
  induction hlen : value.length using Nat.strong_induction_on generalizing value with
  | _ length ih =>
    by_cases h : value.length < size
    · rw [chunksExact_of_short h, hshort value h, map_nil]
    · have hchunk : (value.take size).length = size := by
        rw [length_take]
        omega
      have hrest : (value.drop size).length < length := by
        rw [length_drop]
        omega
      rw [← take_append_drop size value, chunksExact_append hsize hchunk, map_cons, hcons _ _ hchunk, ih _ hrest _ rfl]

theorem wholeEntries_bind_eq_ok {α : Type} {name : String} {entries read : List α} :
    (do wholeEntries value size name; return entries : Except Error (List α)) = .ok read ↔
      value.length % size = 0 ∧ read = entries := by
  rw [wholeEntries, bind_ok]
  simp only [ensure_eq_ok, exists_const, pure_eq_ok]
  exact and_congr_right fun _ => eq_comm

theorem decodeHasRoute_eq_ok {routes : List HasRouteEntry} :
    decodeHasRoute value = .ok routes ↔ value.length % 3 = 0 ∧ routes = routesOf value := by
  rw [decodeHasRoute, wholeEntries_bind_eq_ok, map_chunksExact (g := routesOf) (by decide)]
  · intro chunk rest hchunk
    obtain ⟨high, low, flags, rfl⟩ := length_eq_three.mp hchunk
    rfl
  · intro value hshort
    rcases value with _ | ⟨a, _ | ⟨b, _ | ⟨c, value⟩⟩⟩
    · rfl
    · rfl
    · rfl
    · simp only [length_cons] at hshort
      omega

theorem decodeBorderRouter_eq_ok {routers : List BorderRouterEntry} :
    decodeBorderRouter value = .ok routers ↔ value.length % 4 = 0 ∧ routers = routersOf value := by
  rw [decodeBorderRouter, wholeEntries_bind_eq_ok, map_chunksExact (g := routersOf) (by decide)]
  · intro chunk rest hchunk
    rcases chunk with _ | ⟨a, chunk⟩
    · cases hchunk
    · obtain ⟨b, c, d, rfl⟩ := length_eq_three.mp (Nat.succ.inj hchunk)
      rfl
  · intro value hshort
    rcases value with _ | ⟨a, _ | ⟨b, _ | ⟨c, _ | ⟨d, value⟩⟩⟩⟩
    · rfl
    · rfl
    · rfl
    · rfl
    · simp only [length_cons] at hshort
      omega

theorem decodeSixLowPanContext_eq_ok {context : SixLowPanContext} :
    decodeSixLowPanContext value = .ok context ↔ value.length = 2 ∧ contextOf value = some context := by
  constructor
  · intro h
    unfold decodeSixLowPanContext at h
    split at h
    · exact ⟨rfl, congrArg some (Except.ok.inj h)⟩
    · cases h
  · rintro ⟨hlen, h⟩
    obtain ⟨flags, contextLength, rfl⟩ := length_eq_two.mp hlen
    exact congrArg Except.ok (Option.some.inj h)

end Entries

section Prefixes

def valuesOf (ty : UInt8) (contents : List (UInt8 × Bytes)) : List Bytes :=
  (contents.filter (·.1 = ty)).map Prod.snd

/-- The sub-TLVs that are read have the lengths of their kinds. -/
def SubFits (content : UInt8 × Bytes) : Prop :=
  (content.1 = networkDataHasRoute → content.2.length % 3 = 0) ∧
    (content.1 = networkDataBorderRouter → content.2.length % 4 = 0) ∧
    (content.1 = networkData6LowpanContext → content.2.length = 2)

def withContents (entry : PrefixEntry) (contents : List (UInt8 × Bytes)) : PrefixEntry :=
  { entry with
    hasRoute := entry.hasRoute ++ (valuesOf networkDataHasRoute contents).flatMap routesOf
    borderRouters := entry.borderRouters ++ (valuesOf networkDataBorderRouter contents).flatMap routersOf
    sixLowPanContext :=
      ((valuesOf networkData6LowpanContext contents).filterMap contextOf).getLast?.or entry.sixLowPanContext }

theorem valuesOf_cons (ty : UInt8) (content : UInt8 × Bytes) (contents : List (UInt8 × Bytes)) :
    valuesOf ty (content :: contents) = valuesOf ty [content] ++ valuesOf ty contents := by
  rw [valuesOf, valuesOf, valuesOf, ← map_append, ← filter_append, singleton_append]

theorem valuesOf_singleton (ty : UInt8) (content : UInt8 × Bytes) :
    valuesOf ty [content] = if content.1 = ty then [content.2] else [] := by
  by_cases h : content.1 = ty
  · simp [valuesOf, h]
  · simp [valuesOf, h]

theorem withContents_cons (entry : PrefixEntry) (content : UInt8 × Bytes) (contents : List (UInt8 × Bytes)) :
    withContents entry (content :: contents) = withContents (withContents entry [content]) contents := by
  simp only [withContents, valuesOf_cons _ content contents, flatMap_append, append_assoc, filterMap_append,
    List.getLast?_append, Option.or_assoc]

theorem prefixSubTlv_eq_ok (entry : PrefixEntry) (content : UInt8 × Bytes) (entry' : PrefixEntry) :
    prefixSubTlv entry content = .ok entry' ↔ SubFits content ∧ entry' = withContents entry [content] := by
  obtain ⟨ty, value⟩ := content
  simp only [prefixSubTlv, withContents, SubFits, valuesOf_singleton]
  by_cases hroute : ty = networkDataHasRoute
  · subst hroute
    rw [if_pos rfl, bind_ok]
    simp only [decodeHasRoute_eq_ok, pure_eq_ok, networkDataHasRoute, networkDataBorderRouter, networkData6LowpanContext]
    simp [eq_comm]
  by_cases hrouter : ty = networkDataBorderRouter
  · subst hrouter
    rw [if_neg hroute, if_pos rfl, bind_ok]
    simp only [decodeBorderRouter_eq_ok, pure_eq_ok, networkDataHasRoute, networkDataBorderRouter, networkData6LowpanContext]
    simp [eq_comm]
  by_cases hcontext : ty = networkData6LowpanContext
  · subst hcontext
    rw [if_neg hroute, if_neg hrouter, if_pos rfl, bind_ok]
    simp only [decodeSixLowPanContext_eq_ok, pure_eq_ok]
    simp only [hroute, hrouter, if_false, if_true, false_implies, true_implies, true_and, flatMap_nil, append_nil]
    constructor
    · rintro ⟨context, ⟨hlen, hcontext⟩, rfl⟩
      refine ⟨hlen, ?_⟩
      rw [filterMap_cons_some hcontext]
      rfl
    · rintro ⟨hlen, rfl⟩
      obtain ⟨flags, contextLength, rfl⟩ := length_eq_two.mp hlen
      exact ⟨_, ⟨rfl, rfl⟩, rfl⟩
  · rw [if_neg hroute, if_neg hrouter, if_neg hcontext]
    simp only [hroute, hrouter, hcontext, if_false, false_implies, true_and, Except.ok.injEq, flatMap_nil, append_nil,
      filterMap_nil, List.getLast?_nil, Option.none_or]
    exact eq_comm

theorem foldl_withContents (contents : List (UInt8 × Bytes)) (entry : PrefixEntry) :
    contents.foldl (fun entry content => withContents entry [content]) entry = withContents entry contents := by
  induction contents generalizing entry with
  | nil => simp [withContents, valuesOf]
  | cons content contents ih => rw [foldl_cons, ih, withContents_cons entry content contents]

/-- The value of a Prefix TLV: the domain, the length of the prefix in bits, the
bytes of the prefix, and sub-TLVs. -/
structure PrefixTree where
  domainId : UInt8
  bitLength : UInt8
  prefixBytes : Bytes
  subTlvs : List ScopedTlv
  whole : prefixBytes.length = (bitLength.toNat + 7) / 8

namespace PrefixTree

def value (tree : PrefixTree) : Bytes := tree.domainId :: tree.bitLength :: (tree.prefixBytes ++ tiling tree.subTlvs)

def WellFormed (tree : PrefixTree) : Prop := ∀ tlv ∈ tree.subTlvs, SubFits tlv.content

def entry (tree : PrefixTree) : PrefixEntry :=
  withContents { domainId := tree.domainId, prefixBitLength := tree.bitLength, prefixBytes := tree.prefixBytes }
    (tree.subTlvs.map ScopedTlv.content)

end PrefixTree

theorem decodePrefixEntry_eq_ok {value : Bytes} {entry : PrefixEntry} :
    decodePrefixEntry value = .ok entry ↔ ∃ tree : PrefixTree, value = tree.value ∧ tree.WellFormed ∧ entry = tree.entry := by
  have hfold : ∀ {entry entry' : PrefixEntry} {bytes : Bytes}, networkDataTlvs.fold prefixSubTlv entry bytes = .ok entry' ↔
      ∃ tlvs, bytes = tiling tlvs ∧ (∀ tlv ∈ tlvs, SubFits tlv.content) ∧
        entry' = withContents entry (tlvs.map ScopedTlv.content) := by
    intro entry entry' bytes
    simp only [Framer.fold_eq_ok, all_eq_ok, except_foldlM_eq_ok prefixSubTlv_eq_ok, foldl_withContents]
    constructor
    · rintro ⟨_, ⟨tlvs, rfl, hbytes⟩, hfits, hentry⟩
      exact ⟨tlvs, hbytes, forall_mem_map.mp hfits, hentry⟩
    · rintro ⟨tlvs, hbytes, hfits, hentry⟩
      exact ⟨_, ⟨tlvs, rfl, hbytes⟩, forall_mem_map.mpr hfits, hentry⟩
  constructor
  · intro h
    unfold decodePrefixEntry at h
    split at h
    · next domainId bitLength rest =>
      dsimp only at h
      split at h
      · cases h
      · next hlen =>
        obtain ⟨tlvs, hrest, hfits, rfl⟩ := hfold.mp h
        have hwhole : (rest.take ((bitLength.toNat + 7) / 8)).length = (bitLength.toNat + 7) / 8 := by
          rw [length_take]
          omega
        refine ⟨⟨domainId, bitLength, _, tlvs, hwhole⟩, ?_, hfits, rfl⟩
        rw [PrefixTree.value, ← hrest, take_append_drop]
    · cases h
  · rintro ⟨tree, rfl, hfits, rfl⟩
    have hlen : ¬ (tree.prefixBytes ++ tiling tree.subTlvs).length < (tree.bitLength.toNat + 7) / 8 := by
      rw [length_append, tree.whole]
      omega
    rw [PrefixTree.value, decodePrefixEntry, if_neg hlen, take_left' tree.whole, drop_left' tree.whole]
    exact hfold.mpr ⟨tree.subTlvs, rfl, hfits, rfl⟩

def Shows (tlv : ScopedTlv) (entry : PrefixEntry) : Prop :=
  ∃ tree : PrefixTree, tlv.value = tree.value ∧ tree.WellFormed ∧ entry = tree.entry

def prefixTlvs (tlvs : List ScopedTlv) : List ScopedTlv := tlvs.filter (·.ty = networkDataPrefix)

theorem foldlM_prefixes {tlvs : List ScopedTlv} {prefixes prefixes' : List PrefixEntry} :
    (tlvs.map ScopedTlv.content).foldlM (fun (prefixes : List PrefixEntry) tlv =>
        if tlv.1 = networkDataPrefix then do return prefixes ++ [← decodePrefixEntry tlv.2] else .ok prefixes) prefixes =
        .ok prefixes' ↔ ∃ entries, prefixes' = prefixes ++ entries ∧ List.Forall₂ Shows (prefixTlvs tlvs) entries := by
  induction tlvs generalizing prefixes with
  | nil => simp [prefixTlvs, pure, Except.pure, eq_comm]
  | cons tlv tlvs ih =>
    rw [map_cons, foldlM_cons, bind_ok]
    by_cases hty : tlv.ty = networkDataPrefix
    · have hfilter : prefixTlvs (tlv :: tlvs) = tlv :: prefixTlvs tlvs := filter_cons_of_pos (by simpa using hty)
      simp only [ScopedTlv.content, hty, if_true, bind_ok, pure_eq_ok, decodePrefixEntry_eq_ok, hfilter]
      constructor
      · rintro ⟨_, ⟨entry, hentry, rfl⟩, h⟩
        obtain ⟨entries, rfl, hentries⟩ := ih.mp h
        exact ⟨entry :: entries, by simp, .cons hentry hentries⟩
      · rintro ⟨_, rfl, hentries⟩
        obtain ⟨entry, entries, hentry, hrest, rfl⟩ := forall₂_cons_left_iff.mp hentries
        exact ⟨_, ⟨entry, hentry, rfl⟩, ih.mpr ⟨entries, by simp, hrest⟩⟩
    · have hfilter : prefixTlvs (tlv :: tlvs) = prefixTlvs tlvs := filter_cons_of_neg (by simpa using hty)
      simp only [ScopedTlv.content, hty, if_false, Except.ok.injEq, exists_eq_left', hfilter]
      exact ih

theorem decode_tiling {tlvs : List ScopedTlv} {data : NetworkData} :
    NetworkData.decode (tiling tlvs) = .ok data ↔ List.Forall₂ Shows (prefixTlvs tlvs) data.prefixes := by
  have hall : networkDataTlvs.all (tiling tlvs) = .ok (tlvs.map ScopedTlv.content) := all_eq_ok.mpr ⟨tlvs, rfl, rfl⟩
  rw [NetworkData.decode, bind_ok]
  simp only [Framer.fold_eq_ok, hall, Except.ok.injEq, exists_eq_left', foldlM_prefixes, pure_eq_ok]
  constructor
  · rintro ⟨_, ⟨entries, rfl, hentries⟩, rfl⟩
    exact hentries
  · intro hentries
    exact ⟨_, ⟨_, rfl, hentries⟩, rfl⟩

theorem exists_tiling_of_decode {value : Bytes} {data : NetworkData} (h : NetworkData.decode value = .ok data) :
    ∃ tlvs, value = tiling tlvs := by
  obtain ⟨prefixes, hfold, -⟩ := bind_ok.mp h
  obtain ⟨contents, hall, -⟩ := Framer.fold_eq_ok.mp hfold
  obtain ⟨tlvs, -, hvalue⟩ := all_eq_ok.mp hall
  exact ⟨tlvs, hvalue⟩

end Prefixes

section Independence

def known (content : UInt8 × Bytes) : Bool :=
  content.1 = networkDataHasRoute ∨ content.1 = networkDataBorderRouter ∨ content.1 = networkData6LowpanContext

/-- Two trees that differ in stable flags and in sub-TLVs of other kinds only. -/
structure PrefixTree.Agree (tree tree' : PrefixTree) : Prop where
  domainId : tree.domainId = tree'.domainId
  bitLength : tree.bitLength = tree'.bitLength
  prefixBytes : tree.prefixBytes = tree'.prefixBytes
  subTlvs : (tree.subTlvs.map ScopedTlv.content).filter known = (tree'.subTlvs.map ScopedTlv.content).filter known

variable {tree tree' : PrefixTree}

theorem PrefixTree.agree_of_value (h : tree.value = tree'.value) : tree.Agree tree' := by
  obtain ⟨hdomain, h⟩ := List.cons.inj h
  obtain ⟨hbits, h⟩ := List.cons.inj h
  obtain ⟨hbytes, htiling⟩ := append_inj h (by rw [tree.whole, tree'.whole, hbits])
  refine ⟨hdomain, hbits, hbytes, ?_⟩
  have hall := all_eq_ok.mpr ⟨tree.subTlvs, rfl, htiling.symm⟩
  have hall' := all_eq_ok.mpr ⟨tree'.subTlvs, rfl, rfl⟩
  rw [ok_unique hall hall']

theorem PrefixTree.Agree.trans {tree'' : PrefixTree} (h : tree.Agree tree') (h' : tree'.Agree tree'') : tree.Agree tree'' :=
  ⟨h.domainId.trans h'.domainId, h.bitLength.trans h'.bitLength, h.prefixBytes.trans h'.prefixBytes,
    h.subTlvs.trans h'.subTlvs⟩

theorem PrefixTree.Agree.symm (h : tree.Agree tree') : tree'.Agree tree :=
  ⟨h.domainId.symm, h.bitLength.symm, h.prefixBytes.symm, h.subTlvs.symm⟩

theorem valuesOf_known {ty : UInt8} (hty : ty = networkDataHasRoute ∨ ty = networkDataBorderRouter ∨ ty = networkData6LowpanContext)
    (contents : List (UInt8 × Bytes)) : valuesOf ty (contents.filter known) = valuesOf ty contents := by
  rw [valuesOf, valuesOf, filter_filter]
  refine congrArg (List.map Prod.snd) (filter_congr fun content _ => ?_)
  by_cases h : content.1 = ty
  · rw [← h] at hty
    have hknown : known content = true := decide_eq_true hty
    simp [hknown]
  · simp [h]

theorem withContents_known (entry : PrefixEntry) (contents : List (UInt8 × Bytes)) :
    withContents entry (contents.filter known) = withContents entry contents := by
  simp [withContents, valuesOf_known]

theorem subFits_of_not_known {content : UInt8 × Bytes} (h : known content = false) : SubFits content := by
  simp only [known, decide_eq_false_iff_not, not_or] at h
  exact ⟨fun hty => absurd hty h.1, fun hty => absurd hty h.2.1, fun hty => absurd hty h.2.2⟩

theorem PrefixTree.wellFormed_iff (tree : PrefixTree) :
    tree.WellFormed ↔ ∀ content ∈ (tree.subTlvs.map ScopedTlv.content).filter known, SubFits content := by
  rw [WellFormed, ← forall_mem_map (P := SubFits)]
  refine ⟨fun h content hmem => h content (mem_of_mem_filter hmem), fun h content hmem => ?_⟩
  by_cases hknown : known content = true
  · exact h content (mem_filter.mpr ⟨hmem, hknown⟩)
  · exact subFits_of_not_known (Bool.not_eq_true _ ▸ hknown)

theorem PrefixTree.Agree.wellFormed_iff (h : tree.Agree tree') : tree.WellFormed ↔ tree'.WellFormed := by
  rw [tree.wellFormed_iff, tree'.wellFormed_iff, h.subTlvs]

theorem PrefixTree.Agree.entry_eq (h : tree.Agree tree') : tree.entry = tree'.entry := by
  rw [entry, entry, ← withContents_known, h.subTlvs, withContents_known, h.domainId, h.bitLength, h.prefixBytes]

/-- Two prefix TLVs whose values differ in what is not read only. -/
def SamePrefix (tlv tlv' : ScopedTlv) : Prop :=
  ∃ tree tree' : PrefixTree, tlv.value = tree.value ∧ tlv'.value = tree'.value ∧ tree.Agree tree'

/-- Two values whose prefix TLVs differ in what is not read only. -/
def SameReading (value value' : Bytes) : Prop :=
  ∃ tlvs tlvs', value = tiling tlvs ∧ value' = tiling tlvs' ∧ List.Forall₂ SamePrefix (prefixTlvs tlvs) (prefixTlvs tlvs')

theorem Shows.of_samePrefix {tlv tlv' : ScopedTlv} {entry : PrefixEntry} (h : SamePrefix tlv tlv') :
    Shows tlv entry ↔ Shows tlv' entry := by
  obtain ⟨tree, tree', htree, htree', hagree⟩ := h
  constructor
  · rintro ⟨shown, hshown, hfits, rfl⟩
    have hsame := (PrefixTree.agree_of_value (hshown.symm.trans htree)).trans hagree
    exact ⟨tree', htree', hsame.wellFormed_iff.mp hfits, hsame.entry_eq⟩
  · rintro ⟨shown, hshown, hfits, rfl⟩
    have hsame := (PrefixTree.agree_of_value (hshown.symm.trans htree')).trans hagree.symm
    exact ⟨tree, htree, hsame.wellFormed_iff.mp hfits, hsame.entry_eq⟩

theorem forall₂_shows {tlvs tlvs' : List ScopedTlv} (h : List.Forall₂ SamePrefix tlvs tlvs') {entries : List PrefixEntry} :
    List.Forall₂ Shows tlvs entries ↔ List.Forall₂ Shows tlvs' entries := by
  induction h generalizing entries with
  | nil => rfl
  | cons hhead _ ih =>
    simp only [forall₂_cons_left_iff, Shows.of_samePrefix hhead, ih]

end Independence

theorem exists_forall₂_shows (tlvs : List ScopedTlv) : (∃ es, List.Forall₂ Shows tlvs es) ↔
      ∀ tlv ∈ tlvs, ∃ tree : PrefixTree, tlv.value = tree.value ∧ tree.WellFormed := by
  induction tlvs with
  | nil => simp
  | cons tlv tlvs ih =>
    rw [forall_mem_cons, ← ih]
    constructor
    · rintro ⟨_, hes⟩
      obtain ⟨entry, es, ⟨tree, hvalue, hfits, -⟩, hrest, rfl⟩ := forall₂_cons_left_iff.mp hes
      exact ⟨⟨tree, hvalue, hfits⟩, es, hrest⟩
    · rintro ⟨⟨tree, hvalue, hfits⟩, es, hes⟩
      exact ⟨tree.entry :: es, .cons ⟨tree, hvalue, hfits, rfl⟩ hes⟩

/-- TLVs end to end, with a well-formed tree in each Prefix TLV. -/
def IsTree (value : Bytes) : Prop :=
  ∃ tlvs, value = tiling tlvs ∧ ∀ tlv ∈ tlvs, tlv.ty = networkDataPrefix →
    ∃ tree : PrefixTree, tlv.value = tree.value ∧ tree.WellFormed

theorem exists_decode_iff (value : Bytes) : (∃ data, NetworkData.decode value = .ok data) ↔ IsTree value := by
  constructor
  · rintro ⟨data, h⟩
    obtain ⟨tlvs, rfl⟩ := exists_tiling_of_decode h
    have hall := (exists_forall₂_shows _).mp ⟨_, decode_tiling.mp h⟩
    exact ⟨tlvs, rfl, fun tlv hmem hty => hall tlv (mem_filter.mpr ⟨hmem, by simpa using hty⟩)⟩
  · rintro ⟨tlvs, rfl, hall⟩
    have hprefixes : ∀ tlv ∈ prefixTlvs tlvs, ∃ tree : PrefixTree, tlv.value = tree.value ∧ tree.WellFormed := by
      intro tlv hmem
      obtain ⟨hmem, hty⟩ := mem_filter.mp hmem
      exact hall tlv hmem (by simpa using hty)
    obtain ⟨es, hes⟩ := (exists_forall₂_shows _).mpr hprefixes
    exact ⟨⟨es⟩, decode_tiling.mpr hes⟩

/-- Network data is accepted exactly if it is a tree of well-formed TLVs, and the
result is what the tree says of its prefixes. -/
theorem network_data_is_a_tree (value : Bytes) :
    ((∃ data, NetworkData.decode value = .ok data) ↔
      ∃ tlvs, value = tiling tlvs ∧ ∀ tlv ∈ tlvs, tlv.ty = networkDataPrefix →
        ∃ tree : PrefixTree, tlv.value = tree.value ∧ tree.WellFormed) ∧
      (∀ tlvs data, value = tiling tlvs → NetworkData.decode value = .ok data →
        List.Forall₂ (fun tlv entry => ∃ tree : PrefixTree, tlv.value = tree.value ∧ tree.WellFormed ∧ entry = tree.entry)
          (tlvs.filter (·.ty = networkDataPrefix)) data.prefixes) ∧
      ∀ value', SameReading value value' → ∀ data, NetworkData.decode value = .ok data ↔ NetworkData.decode value' = .ok data := by
  refine ⟨exists_decode_iff value, ?_, ?_⟩
  · rintro tlvs data rfl h
    exact decode_tiling.mp h
  · rintro value' ⟨tlvs, tlvs', rfl, rfl, hsame⟩ data
    rw [decode_tiling, decode_tiling, forall₂_shows hsame]

def routedPrefix : PrefixTree where
  domainId := 0
  bitLength := 8
  prefixBytes := [0xfd]
  subTlvs := [⟨networkDataHasRoute, true, [0x04, 0x00, 0x40], by decide, by decide⟩]
  whole := rfl

def routedTlvs : List ScopedTlv :=
  [⟨5, false, [1, 2], by decide, by decide⟩, ⟨networkDataPrefix, true, routedPrefix.value, by decide, by decide⟩]

theorem network_data_is_a_tree_routed : ∃ data, NetworkData.decode (tiling routedTlvs) = .ok data ∧
    List.Forall₂ (fun tlv entry => ∃ tree : PrefixTree, tlv.value = tree.value ∧ tree.WellFormed ∧ entry = tree.entry)
      (routedTlvs.filter (·.ty = networkDataPrefix)) data.prefixes := by
  obtain ⟨haccepted, hresult, -⟩ := network_data_is_a_tree (tiling routedTlvs)
  have hfits : routedPrefix.WellFormed := forall_mem_singleton.mpr ⟨fun _ => rfl, fun h => absurd h (by decide),
    fun h => absurd h (by decide)⟩
  have htrees : ∀ tlv ∈ routedTlvs, tlv.ty = networkDataPrefix →
      ∃ tree : PrefixTree, tlv.value = tree.value ∧ tree.WellFormed := by
    refine forall_mem_cons.mpr ⟨fun h => absurd h (by decide), forall_mem_singleton.mpr fun _ => ?_⟩
    exact ⟨routedPrefix, rfl, hfits⟩
  obtain ⟨data, hdata⟩ := haccepted.mpr ⟨routedTlvs, rfl, htrees⟩
  exact ⟨data, hdata, hresult routedTlvs data rfl hdata⟩

end ThreadCommissioner.NetworkDataTrees
