import ThreadCommissioner.TextForms

namespace ThreadCommissioner.DatasetRoundTrip

open ByteStrings Computations DatasetJson Datasets Errors List Meshcop Requests TextForms Texts Tlvs
open Notifications (readArray8 vectorOf)
open ThreadCommissioner.Topology (Channel formatRloc16 lowerHex lowerHexText)

section Numbers

theorem toNat_fromComponents (seconds ticks : UInt64) (authoritative : Bool) :
    (Timestamp.fromComponents seconds ticks.toUInt16 authoritative).raw.toNat =
      2 ^ 16 * (seconds.toNat % 2 ^ 48) + 2 * (ticks.toNat % 2 ^ 15) + authoritative.toNat := by
  have hmask : ∀ n, n &&& 32767 = n % 2 ^ 15 := fun n => Nat.and_two_pow_sub_one_eq_mod n 15
  have hseconds : (seconds <<< 16).toNat = 2 ^ 16 * (seconds.toNat % 2 ^ 48) := by
    simp only [UInt64.toNat_shiftLeft, UInt64.reduceToNat, Nat.reduceMod, Nat.shiftLeft_eq]
    omega
  have hticks : ((ticks.toUInt16.toUInt64 &&& 0x7fff) <<< 1).toNat = 2 ^ 1 * (ticks.toNat % 2 ^ 15) := by
    simp only [UInt64.toNat_shiftLeft, UInt64.toNat_and, UInt16.toNat_toUInt64, UInt64.toNat_toUInt16, UInt64.reduceToNat,
      Nat.reduceMod, Nat.shiftLeft_eq, hmask]
    omega
  have hbit : (if authoritative then (1 : UInt64) else 0).toNat = authoritative.toNat := by cases authoritative <;> rfl
  have hlow : 2 ^ 1 * (ticks.toNat % 2 ^ 15) < 2 ^ 16 := by omega
  have hshift : 2 ^ 16 * (seconds.toNat % 2 ^ 48) + 2 ^ 1 * (ticks.toNat % 2 ^ 15) =
      2 ^ 1 * (2 ^ 15 * (seconds.toNat % 2 ^ 48) + ticks.toNat % 2 ^ 15) := by omega
  rw [Timestamp.fromComponents, UInt64.toNat_or, UInt64.toNat_or, hseconds, hticks, hbit,
    ← Nat.two_pow_add_eq_or_of_lt hlow, hshift, ← Nat.two_pow_add_eq_or_of_lt authoritative.toNat_lt]
  omega

theorem toNat_parts (raw : UInt64) : (raw >>> 16).toNat = raw.toNat / 2 ^ 16 ∧
    ((raw >>> 1) &&& 0x7fff).toNat = raw.toNat / 2 % 2 ^ 15 ∧ (raw &&& 1).toNat = raw.toNat % 2 := by
  have hmask : ∀ n, n &&& 32767 = n % 2 ^ 15 := fun n => Nat.and_two_pow_sub_one_eq_mod n 15
  simp [UInt64.toNat_shiftRight, Nat.shiftRight_eq_div_pow, hmask, Nat.and_one_is_mod]

theorem toNat_ne_zero (u : UInt64) : (decide (u ≠ 0)).toNat = min 1 u.toNat := by
  by_cases h : u = 0
  · simp [h]
  · have hne : u.toNat ≠ 0 := fun hzero => h (UInt64.toNat_inj.mp hzero)
    simp only [ne_eq, h, not_false_eq_true, decide_true, Bool.toNat_true]
    omega

theorem fromComponents_parts (raw : UInt64) :
    Timestamp.fromComponents (raw >>> 16) ((raw >>> 1) &&& 0x7fff).toUInt16 (raw &&& 1 ≠ 0) = ⟨raw⟩ := by
  obtain ⟨hseconds, hticks, hbit⟩ := toNat_parts raw
  have hlt := raw.toNat_lt
  rw [Timestamp.mk.injEq, ← UInt64.toNat_inj, toNat_fromComponents, toNat_ne_zero, hseconds, hticks, hbit]
  omega

variable (page : UInt8) (number : UInt16) (delay : UInt32)

theorem page_of_nat : (UInt64.ofNat page.toNat).toUInt8 = page := by
  have hpage := page.toNat_lt
  refine UInt8.toNat_inj.mp ?_
  simp

theorem number_of_nat : (UInt64.ofNat number.toNat).toUInt16 = number := by
  have hnumber := number.toNat_lt
  refine UInt16.toNat_inj.mp ?_
  simp

theorem delay_of_nat : (UInt64.ofNat delay.toNat).toUInt32 = delay := by
  have hdelay := delay.toNat_lt
  refine UInt32.toNat_inj.mp ?_
  simp

end Numbers

section Values

variable {value : Bytes}

theorem beBytes_beNat_mod {width : ℕ} (h : value.length = width) : beBytes width (beNat value % 256 ^ width) = value := by
  have hlt := beNat_lt value
  rw [h] at hlt
  rw [Nat.mod_eq_of_lt hlt, ← h, beBytes_beNat]

theorem beBytes_readU16 {n : UInt16} (h : readU16 value = .ok n) : beBytes 2 n.toNat = value := by
  unfold readU16 at h
  split at h
  · rename_i hlength
    cases h
    rw [UInt16.toNat_ofNat']
    exact beBytes_beNat_mod hlength
  · cases h

theorem beBytes_readU32 {n : UInt32} (h : readU32 value = .ok n) : beBytes 4 n.toNat = value := by
  unfold readU32 at h
  split at h
  · rename_i hlength
    cases h
    rw [UInt32.toNat_ofNat']
    exact beBytes_beNat_mod hlength
  · cases h

theorem beBytes_readU64 {n : UInt64} (h : readU64 value = .ok n) : beBytes 8 n.toNat = value := by
  unfold readU64 at h
  split at h
  · rename_i hlength
    cases h
    rw [UInt64.toNat_ofNat']
    exact beBytes_beNat_mod hlength
  · cases h

theorem beBytes_pair (high low : UInt8) : beBytes 2 (UInt16.ofNat (beNat [high, low])).toNat = [high, low] :=
  beBytes_readU16 rfl

theorem toValue_of_timestamp {timestamp : Timestamp} (h : Timestamp.parse value = .ok timestamp) :
    timestamp.toValue = value := by
  obtain ⟨raw, hraw, h⟩ := bind_ok.mp h
  cases h
  exact beBytes_readU64 (ofTlv_eq_ok.mp hraw)

theorem toValue_of_channel {channel : Channel} (h : Channel.parse value = .ok channel) :
    DatasetJson.Channel.toValue channel = value := by
  unfold Channel.parse at h
  split at h
  · cases h
    exact congrArg (List.cons _) (beBytes_pair _ _)
  · cases h

theorem toValue_of_policy {policy : SecurityPolicy} (h : SecurityPolicy.parse value = .ok policy) :
    policy.toValue = value := by
  unfold SecurityPolicy.parse at h
  split at h
  · cases h
    exact congrArg₂ (· ++ ·) (beBytes_pair _ _) (beBytes_pair _ _)
  · cases h

theorem eq_of_readArray {n : ℕ} {read : Bytes} (h : readArray n value = .ok read) : read = value := by
  obtain ⟨-, -, h⟩ := bind_ok.mp h
  exact (Except.ok.inj h).symm

theorem toList_of_readArray8 {read : ByteVector 8} (h : readArray8 value = .ok read) : read.toList = value := by
  have hread := okOr_eq_ok.mp h
  unfold vectorOf at hread
  split at hread
  · cases hread
    rfl
  · cases hread

theorem bytes_of_fromUtf8 {text : Text} {e : Error} (h : okOr (fromUtf8 value) e = .ok text) : text.bytes = value := by
  have htext := okOr_eq_ok.mp h
  unfold fromUtf8 at htext
  split at htext
  · cases htext
    rfl
  · cases htext

def maskBytes (entry : ChannelMaskEntry) : Bytes := entry.page :: UInt8.ofNat entry.mask.length :: entry.mask

theorem maskBytes_of_parseAll {es : List ChannelMaskEntry} (h : ChannelMaskEntry.parseAll value = .ok es) :
    (∀ entry ∈ es, entry.mask.length ≤ 255) ∧ (es.map maskBytes).flatten = value := by
  fun_induction ChannelMaskEntry.parseAll value generalizing es with
  | case1 =>
    cases h
    simp
  | case2 page => cases h
  | case3 page len value hshort => cases h
  | case4 page len value hlong ih =>
    obtain ⟨rest, hrest, h⟩ := bind_ok.mp h
    cases h
    obtain ⟨hshort, hbytes⟩ := ih hrest
    have hlength : (value.take len.toNat).length = len.toNat := by
      rw [length_take]
      omega
    have hlen := len.toNat_lt
    refine ⟨forall_mem_cons.mpr ⟨?_, hshort⟩, ?_⟩
    · rw [hlength]
      omega
    · rw [map_cons, flatten_cons, hbytes, maskBytes, hlength, UInt8.ofNat_toNat, cons_append, cons_append, take_append_drop]

theorem encodeAll_of_parseAll {es : List ChannelMaskEntry} (h : ChannelMaskEntry.parseAll value = .ok es) :
    ChannelMaskEntry.encodeAll es = .ok value := by
  obtain ⟨hshort, hbytes⟩ := maskBytes_of_parseAll h
  refine bind_ok.mpr ⟨_, except_mapM_of_ok (g := maskBytes) fun entry hentry => ?_, congrArg Except.ok hbytes⟩
  rw [ensure_true (hshort entry hentry)]
  rfl

end Values

section Fields

theorem asU64_of_get {json : Json} {key : String} {n : UInt64} (h : json.get key = some (.number (.posInt n))) :
    asU64 json key = .ok n := by
  refine okOr_eq_ok.mpr ?_
  rw [h]
  rfl

theorem asStr_of_get {json : Json} {key : String} {text : Text} (h : json.get key = some (.string text)) :
    asStr json key = .ok text := by
  refine okOr_eq_ok.mpr ?_
  rw [h]
  rfl

theorem timestampFromJson_json (timestamp : Timestamp) : timestampFromJson (timestampJson timestamp) = .ok timestamp := by
  refine bind_ok.mpr ⟨_, asU64_of_get rfl, ?_⟩
  refine bind_ok.mpr ⟨_, asU64_of_get rfl, ?_⟩
  refine bind_ok.mpr ⟨_, asU64_of_get rfl, ?_⟩
  exact congrArg Except.ok (fromComponents_parts timestamp.raw)

theorem channelFromJson_json (channel : Channel) : channelFromJson (channelJson channel) = .ok channel := by
  refine bind_ok.mpr ⟨_, asU64_of_get rfl, ?_⟩
  refine bind_ok.mpr ⟨_, asU64_of_get rfl, ?_⟩
  rw [page_of_nat, number_of_nat]
  rfl

variable [Hex]

theorem policyFromJson_json (policy : SecurityPolicy) : policyFromJson (securityPolicyJson policy) = .ok policy := by
  refine bind_ok.mpr ⟨_, asU64_of_get rfl, ?_⟩
  refine bind_ok.mpr ⟨_, asStr_of_get rfl, ?_⟩
  refine bind_ok.mpr ⟨_, parseHex_encode _, ?_⟩
  refine bind_ok.mpr ⟨UInt16.ofNat (beNat (beBytes 2 policy.flags.toNat)), rfl, ?_⟩
  rw [number_of_nat, uint16_ofNat_beBytes]
  rfl

def maskEntryJson (entry : ChannelMaskEntry) : Json :=
  .object [("Page", .nat entry.page.toNat), ("Masks", .string (Hex.encode entry.mask))]

theorem maskEntryFromJson_json (entry : ChannelMaskEntry) : maskEntryFromJson (maskEntryJson entry) = .ok entry := by
  refine bind_ok.mpr ⟨_, asU64_of_get rfl, ?_⟩
  refine bind_ok.mpr ⟨_, asStr_of_get rfl, ?_⟩
  refine bind_ok.mpr ⟨_, parseHex_encode _, ?_⟩
  rw [page_of_nat]
  rfl

theorem channelMaskFromJson_json {value : Bytes} {entries : List ChannelMaskEntry}
    (h : ChannelMaskEntry.parseAll value = .ok entries) :
    channelMaskFromJson (some (channelMaskJson entries)) = .ok (some value) := by
  have hentries : (entries.map maskEntryJson).mapM maskEntryFromJson = .ok entries := by
    rw [mapM_map]
    exact (except_mapM_of_ok (g := id) fun entry _ => maskEntryFromJson_json entry).trans (congrArg Except.ok (map_id _))
  refine bind_ok.mpr ⟨entries, hentries, ?_⟩
  exact bind_ok.mpr ⟨value, encodeAll_of_parseAll h, rfl⟩

end Fields

section Objects

/-- The members of an object for the fields that have a value. -/
def members (fields : List (String × Option Json)) : List (String × Json) := fields.flatMap fun field => member field.1 field.2

theorem find?_member (name key : String) (value : Option Json) :
    (member name value).find? (·.1 = key) = if name = key then value.map (name, ·) else none := by
  cases value with
  | none => simp [member]
  | some value =>
    by_cases h : name = key
    · simp [member, h]
    · simp [member, h]

variable {fields : List (String × Option Json)} {key : String} {value : Option Json}

theorem find?_members_of_notMem (h : key ∉ fields.map Prod.fst) : (members fields).find? (·.1 = key) = none := by
  induction fields with
  | nil => rfl
  | cons field fields ih =>
    rw [map_cons, mem_cons, not_or] at h
    rw [members, flatMap_cons, List.find?_append, find?_member, if_neg (Ne.symm h.1), Option.none_or]
    exact ih h.2

theorem find?_members (hnodup : (fields.map Prod.fst).Nodup) (h : (key, value) ∈ fields) :
    (members fields).find? (·.1 = key) = value.map (key, ·) := by
  induction fields with
  | nil => cases h
  | cons field fields ih =>
    rw [map_cons, nodup_cons] at hnodup
    rw [members, flatMap_cons, List.find?_append, find?_member]
    rcases mem_cons.mp h with rfl | h
    · rw [if_pos rfl]
      exact (congrArg (Option.or _) (find?_members_of_notMem hnodup.1)).trans Option.or_none
    · have hne : field.1 ≠ key := fun heq => hnodup.1 (mem_map.mpr ⟨_, h, heq.symm⟩)
      rw [if_neg hne, Option.none_or]
      exact ih hnodup.2 h

theorem get_members (hnodup : (fields.map Prod.fst).Nodup) (h : (key, value) ∈ fields) :
    (Json.object (members fields)).get key = value := by
  rw [Json.get, find?_members hnodup h]
  cases value <;> rfl

end Objects

section Copies

variable (ds : Dataset)

theorem raw_setField (ty ty' : UInt8) (value : Option Bytes) :
    (setField ds ty value).raw ty' = if ty = ty' then value.or (ds.raw ty') else ds.raw ty' := by
  cases value with
  | none => simp [setField]
  | some value =>
    simp only [setField, Dataset.raw, TlvSet.lastValue_eq_getLast, Dataset.setRaw, Dataset.removeAll, Dataset.entries,
      filter_append, map_append]
    by_cases h : ty = ty'
    · simp [h]
    · have hkept : (ds.tlvs.entries.filter (·.ty ≠ ty)).filter (·.ty = ty') = ds.tlvs.entries.filter (·.ty = ty') := by
        rw [filter_filter]
        refine filter_congr fun entry _ => ?_
        by_cases hentry : entry.ty = ty'
        · simp [hentry, Ne.symm h]
        · simp [hentry]
      rw [hkept, if_neg h]
      simp [h]

def copied (dataset : Dataset) (types : List UInt8) : Dataset :=
  types.foldl (fun copy ty => setField copy ty (dataset.raw ty)) .default

theorem raw_foldl_setField (ds copy : Dataset) (types : List UInt8) (ty : UInt8) :
    (types.foldl (fun copy ty => setField copy ty (ds.raw ty)) copy).raw ty =
      if ty ∈ types then (ds.raw ty).or (copy.raw ty) else copy.raw ty := by
  induction types generalizing copy with
  | nil => simp
  | cons first types ih =>
    rw [foldl_cons, ih, raw_setField]
    by_cases hfirst : first = ty
    · subst hfirst
      by_cases hmem : first ∈ types
      · rw [if_pos hmem, if_pos rfl, if_pos mem_cons_self, ← Option.or_assoc, Option.or_self]
      · rw [if_neg hmem, if_pos rfl, if_pos mem_cons_self]
    · simp only [if_neg hfirst, mem_cons, Ne.symm hfirst, false_or]

theorem raw_copied (types : List UInt8) {ty : UInt8} (h : ty ∈ types) : (copied ds types).raw ty = ds.raw ty := by
  rw [copied, raw_foldl_setField, if_pos h]
  exact Option.or_none

theorem exists_entry_iff (ty : UInt8) : (∃ entry ∈ ds.entries, entry.ty = ty) ↔ (ds.raw ty).isSome := by
  rw [Dataset.raw, TlvSet.lastValue_eq_getLast, List.getLast?_isSome, ne_eq, map_eq_nil_iff, filter_eq_nil_iff]
  simp [Dataset.entries]

end Copies

section RoundTrip

def jsonTypes : List UInt8 :=
  [tlvActiveTimestamp, tlvPendingTimestamp, tlvDelayTimer, tlvNetworkName, tlvChannel, tlvChannelMask, tlvExtendedPanId,
    tlvPanId, tlvMeshLocalPrefix, tlvNetworkKey, tlvPskc, tlvSecurityPolicy]

variable {ε α β γ : Type} {raw : Option Bytes}

theorem mapM_back {read : Option α} {parse : Bytes → Except ε α} {render : α → γ} {back : γ → Except Error β}
    {toValue : β → Bytes} (hread : raw.mapM parse = .ok read)
    (hback : ∀ {value x}, parse value = .ok x → ∃ y, back (render x) = .ok y ∧ toValue y = value) :
    ∃ again, (read.map render).mapM back = .ok again ∧ again.map toValue = raw := by
  cases raw with
  | none =>
    cases hread
    exact ⟨none, rfl, rfl⟩
  | some value =>
    obtain ⟨x, hx, hread⟩ := bind_ok.mp hread
    cases hread
    obtain ⟨y, hy, rfl⟩ := hback hx
    exact ⟨some y, bind_ok.mpr ⟨y, hy, rfl⟩, rfl⟩

theorem map_back {read : Option α} {parse : Bytes → Except ε α} {toValue : α → Bytes} (hread : raw.mapM parse = .ok read)
    (hback : ∀ {value x}, parse value = .ok x → toValue x = value) : read.map toValue = raw := by
  cases raw with
  | none =>
    cases hread
    rfl
  | some value =>
    obtain ⟨x, hx, hread⟩ := bind_ok.mp hread
    cases hread
    rw [Option.map_some, hback hx]

theorem panid_back {read : Option UInt16} (h : raw.mapM readU16 = .ok read) :
    ∃ again, (read.map formatRloc16).mapM parsePanid = .ok again ∧ (again.map fun panid => beBytes 2 panid.toNat) = raw :=
  mapM_back h fun hx => ⟨_, parsePanid_formatRloc16 _, beBytes_readU16 hx⟩

theorem delay_back {read : Option UInt32} (h : raw.mapM readU32 = .ok read) :
    (((read.map fun delay => Json.nat delay.toNat).bind Json.asU64).map fun delay => beBytes 4 delay.toUInt32.toNat) = raw := by
  have hread := map_back h fun hx => beBytes_readU32 hx
  cases read with
  | none => exact hread
  | some delay =>
    change some (beBytes 4 (UInt64.ofNat delay.toNat).toUInt32.toNat) = raw
    rw [delay_of_nat]
    exact hread

theorem name_back {read : Option Text} {e : Error} (h : raw.mapM (fun value => okOr (fromUtf8 value) e) = .ok read) :
    ((read.map Json.string).bind Json.asStr).map Text.bytes = raw := by
  have hread := map_back h fun hx => bytes_of_fromUtf8 hx
  cases read with
  | none => exact hread
  | some name => exact hread

section Prefixes

variable [AddressTexts]

theorem meshLocalPrefix_back (htexts : RoundTrips) {read : Option (ByteVector 8)} (h : raw.mapM readArray8 = .ok read) :
    (read.map meshLocalPrefixString).mapM parseMeshLocalPrefix = .ok raw := by
  obtain ⟨again, hagain, hraw⟩ := mapM_back h fun hx =>
    ⟨_, parseMeshLocalPrefix_string htexts _, (id_eq _).trans (toList_of_readArray8 hx)⟩
  rw [hagain, ← hraw, Option.map_id]
  rfl

end Prefixes

section Hex

variable [Hex]

theorem mask_back {read : Option (List ChannelMaskEntry)} (h : raw.mapM ChannelMaskEntry.parseAll = .ok read) :
    channelMaskFromJson (read.map channelMaskJson) = .ok raw := by
  cases raw with
  | none =>
    cases h
    rfl
  | some value =>
    obtain ⟨es, hes, h⟩ := bind_ok.mp h
    cases h
    exact channelMaskFromJson_json hes

theorem hex_back (raw : Option Bytes) : (raw.map Hex.encode).mapM parseHex = .ok raw := by
  cases raw with
  | none => rfl
  | some value => exact bind_ok.mpr ⟨value, parseHex_encode value, rfl⟩

end Hex

theorem readArray_back {n : ℕ} {read : Option Bytes} (h : raw.mapM (readArray n) = .ok read) : read = raw := by
  have hread := map_back h fun hx => (id_eq _).trans (eq_of_readArray hx)
  rwa [Option.map_id] at hread

theorem bind_asStr (x : Option α) (f : α → Text) : (x.map fun a => Json.string (f a)).bind Json.asStr = x.map f := by
  cases x <;> rfl

/-- What is read of the fields of a dataset. -/
structure Reads (dataset : Dataset) where
  activeTimestamp : Option Timestamp
  pendingTimestamp : Option Timestamp
  delay : Option UInt32
  name : Option Text
  channel : Option Channel
  mask : Option (List ChannelMaskEntry)
  xpanid : Option Bytes
  panid : Option UInt16
  meshLocalPrefix : Option (ByteVector 8)
  key : Option Bytes
  policy : Option SecurityPolicy
  activeTimestamp_eq : DatasetJson.activeTimestamp dataset = .ok activeTimestamp
  pendingTimestamp_eq : DatasetJson.pendingTimestamp dataset = .ok pendingTimestamp
  delay_eq : delayTimer dataset = .ok delay
  name_eq : networkName dataset = .ok name
  channel_eq : DatasetJson.channel dataset = .ok channel
  mask_eq : channelMask dataset = .ok mask
  xpanid_eq : extendedPanId dataset = .ok xpanid
  panid_eq : panId dataset = .ok panid
  meshLocalPrefix_eq : dataset.meshLocalPrefix = .ok meshLocalPrefix
  key_eq : networkKey dataset = .ok key
  policy_eq : securityPolicy dataset = .ok policy

variable {dataset : Dataset} [AddressTexts] [Hex] {json : Json}

def Reads.fields (reads : Reads dataset) : List (String × Option Json) :=
  [("ActiveTimestamp", reads.activeTimestamp.map timestampJson),
    ("PendingTimestamp", reads.pendingTimestamp.map timestampJson), ("Delay", reads.delay.map (.nat ·.toNat)),
    ("NetworkName", reads.name.map .string), ("Channel", reads.channel.map channelJson),
    ("ChannelMask", reads.mask.map channelMaskJson), ("ExtendedPanId", reads.xpanid.map (.string <| Hex.encode ·)),
    ("PanId", reads.panid.map (.string <| formatRloc16 ·)),
    ("MeshLocalPrefix", reads.meshLocalPrefix.map (.string <| meshLocalPrefixString ·)),
    ("NetworkMasterKey", reads.key.map (.string <| Hex.encode ·)),
    ("PSKc", (dataset.raw tlvPskc).map (.string <| Hex.encode ·)), ("SecurityPolicy", reads.policy.map securityPolicyJson)]

theorem exists_reads (h : opDatasetToJson dataset true = .ok json) :
    ∃ reads : Reads dataset, json = .object (members reads.fields) := by
  obtain ⟨activeTimestamp, hactive, h⟩ := bind_ok.mp h
  obtain ⟨pendingTimestamp, hpending, h⟩ := bind_ok.mp h
  obtain ⟨delay, hdelay, h⟩ := bind_ok.mp h
  obtain ⟨name, hname, h⟩ := bind_ok.mp h
  obtain ⟨channel, hchannel, h⟩ := bind_ok.mp h
  obtain ⟨mask, hmask, h⟩ := bind_ok.mp h
  obtain ⟨xpanid, hxpanid, h⟩ := bind_ok.mp h
  obtain ⟨panid, hpanid, h⟩ := bind_ok.mp h
  obtain ⟨mesh, hmeshLocal, h⟩ := bind_ok.mp h
  obtain ⟨key, hkey, h⟩ := bind_ok.mp h
  obtain ⟨policy, hpolicy, h⟩ := bind_ok.mp h
  refine ⟨⟨activeTimestamp, pendingTimestamp, delay, name, channel, mask, xpanid, panid, mesh, key, policy,
    hactive, hpending, hdelay, hname, hchannel, hmask, hxpanid, hpanid, hmeshLocal, hkey, hpolicy⟩, ?_⟩
  rw [← Except.ok.inj h]
  simp [members, Reads.fields]

theorem Reads.get (reads : Reads dataset) : ∀ field ∈ reads.fields,
    (Json.object (members reads.fields)).get field.1 = field.2 := by
  have hnodup : (reads.fields.map Prod.fst).Nodup := by
    simp only [Reads.fields, map_cons, map_nil]
    decide
  exact fun field hfield => get_members hnodup hfield

theorem Reads.opDatasetFromJson (reads : Reads dataset) (htexts : RoundTrips) :
    opDatasetFromJson (.object (members reads.fields)) true = .ok (copied dataset jsonTypes) := by
  have htimestamp {value x} (h : Timestamp.parse value = .ok x) :
      ∃ y, timestampFromJson (timestampJson x) = .ok y ∧ y.toValue = value :=
    ⟨x, timestampFromJson_json x, toValue_of_timestamp h⟩
  obtain ⟨active, hactive, hactiveRaw⟩ := mapM_back reads.activeTimestamp_eq htimestamp
  obtain ⟨pending, hpending, hpendingRaw⟩ := mapM_back reads.pendingTimestamp_eq htimestamp
  obtain ⟨channel, hchannel, hchannelRaw⟩ := mapM_back reads.channel_eq fun hx =>
    ⟨_, channelFromJson_json _, toValue_of_channel hx⟩
  obtain ⟨panid, hpanid, hpanidRaw⟩ := panid_back (ofTlv_eq_ok.mp reads.panid_eq)
  obtain ⟨policy, hpolicy, hpolicyRaw⟩ := mapM_back reads.policy_eq fun hx =>
    ⟨_, policyFromJson_json _, toValue_of_policy hx⟩
  have hdelay := delay_back (ofTlv_eq_ok.mp reads.delay_eq)
  have hname := name_back reads.name_eq
  have hxpanid := readArray_back reads.xpanid_eq
  have hkey := readArray_back reads.key_eq
  have hgets := reads.get
  generalize Json.object (members reads.fields) = json at hgets ⊢
  simp only [Reads.fields, forall_mem_cons] at hgets
  obtain ⟨gactive, gpending, gdelay, gname, gchannel, gmask, gxpanid, gpanid, gprefix, gkey, gpskc, gpolicy, -⟩ := hgets
  simp only [DatasetJson.opDatasetFromJson, gactive, gpending, gdelay, gname, gchannel, gmask, gxpanid, gpanid, gprefix,
    gkey, gpskc, gpolicy, bind_asStr, if_true, hxpanid, hkey]
  refine bind_ok.mpr ⟨active, hactive, ?_⟩
  refine bind_ok.mpr ⟨pending, hpending, ?_⟩
  refine bind_ok.mpr ⟨channel, hchannel, ?_⟩
  refine bind_ok.mpr ⟨_, mask_back reads.mask_eq, ?_⟩
  refine bind_ok.mpr ⟨_, hex_back _, ?_⟩
  refine bind_ok.mpr ⟨panid, hpanid, ?_⟩
  refine bind_ok.mpr ⟨_, meshLocalPrefix_back htexts reads.meshLocalPrefix_eq, ?_⟩
  refine bind_ok.mpr ⟨_, hex_back _, ?_⟩
  refine bind_ok.mpr ⟨_, hex_back _, ?_⟩
  refine bind_ok.mpr ⟨policy, hpolicy, ?_⟩
  rw [hactiveRaw, hpendingRaw, hdelay, hname, hchannelRaw, hpanidRaw, hpolicyRaw]
  rfl

/-- A dataset is read back from its JSON with every field as it was. -/
theorem dataset_json_round_trip (htexts : RoundTrips) (h : opDatasetToJson dataset true = .ok json) :
    ∃ read, opDatasetFromJson json true = .ok read ∧ ∀ ty ∈ jsonTypes, read.raw ty = dataset.raw ty ∧
      ((∃ entry ∈ read.entries, entry.ty = ty) ↔ ∃ entry ∈ dataset.entries, entry.ty = ty) := by
  obtain ⟨reads, rfl⟩ := exists_reads h
  refine ⟨_, reads.opDatasetFromJson htexts, fun ty hty => ?_⟩
  have hraw := raw_copied dataset jsonTypes hty
  rw [exists_entry_iff, exists_entry_iff, hraw]
  exact ⟨rfl, Iff.rfl⟩

end RoundTrip

section Witness

def prefixAddress : ByteVector 16 := List.Vector.ofFn fun i => [0xfd, 0x6e, 0xd1, 0x57, 2, 0xb4, 0xcd, 0xbf].getD i 0

def prefixText : Text := ⟨ascii "fd6e:d157:2b4:cdbf::", by decide⟩

/-- The address of the prefix below has its text. -/
@[reducible] def prefixAddresses : AddressTexts where
  parse text := if text = prefixText then some prefixAddress else (decodePairs text.bytes).bind (vectorOf 16)
  display address := if address = prefixAddress then prefixText else lowerHexText address.toList

attribute [local instance] prefixAddresses plainHex

theorem roundTrips_prefixAddresses : RoundTrips := by
  have hcolon : 0x3a ∉ ascii "0123456789abcdef" := by decide
  have hplain : ∀ byte ∈ prefixText.bytes, byte ∈ ascii "0123456789abcdef:." := all_iff_forall_prop.mp (by decide)
  refine ⟨fun address => ?_, fun address byte hbyte => ?_⟩
  · by_cases h : address = prefixAddress
    · have hdisplay : AddressTexts.display address = prefixText := if_pos h
      rw [hdisplay, h]
      exact if_pos rfl
    · have hdisplay : AddressTexts.display address = lowerHexText address.toList := if_neg h
      have hother : lowerHexText address.toList ≠ prefixText := by
        intro heq
        have hmem : 0x3a ∈ prefixText.bytes := by decide
        rw [← heq] at hmem
        exact hcolon (lower_lowerHex _ _ hmem).1
      rw [hdisplay]
      refine (if_neg hother).trans ?_
      change (decodePairs (lowerHex address.toList)).bind (vectorOf 16) = some address
      rw [decodePairs_lowerHex]
      exact dif_pos address.toList_length
  · change byte ∈ (if address = prefixAddress then prefixText else lowerHexText address.toList).bytes at hbyte
    split at hbyte
    · exact hplain byte hbyte
    · exact mem_append_left (ascii ":.") (lower_lowerHex _ byte hbyte).1

/-- A dataset with two channels, a mask of two pages and a TLV that JSON does
not have. -/
def exampleDataset : Dataset :=
  ⟨⟨[⟨tlvChannel, [0, 0, 11]⟩, ⟨tlvActiveTimestamp, [0, 0, 0x68, 0x55, 0x5f, 0xc7, 0x12, 0x35]⟩, ⟨0xfe, [1]⟩,
    ⟨tlvChannelMask, [0, 4, 0, 0x1f, 0xff, 0xe0, 1, 1, 0xff]⟩, ⟨tlvPanId, [0x0b, 0x76]⟩, ⟨tlvNetworkName, [0x53, 0x54]⟩,
    ⟨tlvMeshLocalPrefix, [0xfd, 0x6e, 0xd1, 0x57, 2, 0xb4, 0xcd, 0xbf]⟩, ⟨tlvSecurityPolicy, [2, 0xa0, 0xff, 0xf8]⟩,
    ⟨tlvChannel, [0, 0, 25]⟩]⟩⟩

theorem dataset_json_round_trip_example : ∃ json read, opDatasetToJson exampleDataset true = .ok json ∧
    opDatasetFromJson json true = .ok read ∧ ∀ ty ∈ jsonTypes, read.raw ty = exampleDataset.raw ty := by
  have hmask : channelMask exampleDataset = .ok (some [⟨0, [0, 0x1f, 0xff, 0xe0]⟩, ⟨1, [0xff]⟩]) := by
    change ChannelMaskEntry.parseAll [0, 4, 0, 0x1f, 0xff, 0xe0, 1, 1, 0xff] >>= _ = _
    simp [ChannelMaskEntry.parseAll]
  obtain ⟨json, hjson⟩ : ∃ json, opDatasetToJson exampleDataset true = .ok json := by
    rw [opDatasetToJson, hmask]
    exact ⟨_, rfl⟩
  obtain ⟨read, hread, hraw⟩ := dataset_json_round_trip roundTrips_prefixAddresses hjson
  exact ⟨json, read, hjson, hread, fun ty hty => (hraw ty hty).1⟩

end Witness

end ThreadCommissioner.DatasetRoundTrip
