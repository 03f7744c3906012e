import ThreadCommissioner.DatasetRoundTrip

namespace ThreadCommissioner.JsonNumbers

open ByteStrings Computations DatasetJson DatasetRoundTrip Datasets Errors List Meshcop Requests TextForms Texts
open Tlvs
open Notifications (readArray8 vectorOf)
open ThreadCommissioner.Topology (Channel)

section Places

inductive PathStep
  | key (name : String)
  | index (i : ℕ)

def PathStep.value : PathStep → Json → Option Json
  | .key name, value => value.get name
  | .index i, .array items => items[i]?
  | .index _, _ => none

def asNumber : Json → Option Number
  | .number n => some n
  | _ => none

def numberAt : List PathStep → Json → Option Number
  | [], value => asNumber value
  | step :: path, value => (step.value value).bind (numberAt path)

/-- The numbers in an object at the end of the path, with their widths. -/
def under (path : List PathStep) (numbers : List (String × ℕ)) : List (List PathStep × ℕ) :=
  numbers.map fun number => (path ++ [.key number.1], number.2)

def timestampNumbers : List (String × ℕ) := [("Seconds", 48), ("Ticks", 15), ("U", 1)]

def channelNumbers : List (String × ℕ) := [("Page", 8), ("Number", 16)]

/-- The numbers of an operational dataset, with one entry of its channel mask. -/
def opNumbers (pending : Bool) (i : ℕ) : List (List PathStep × ℕ) :=
  under [.key "ActiveTimestamp"] timestampNumbers ++ under [.key "Channel"] channelNumbers ++
    under [.key "ChannelMask", .index i] [("Page", 8)] ++ under [.key "SecurityPolicy"] [("RotationTime", 16)] ++
    if pending then under [.key "PendingTimestamp"] timestampNumbers ++ under [] [("Delay", 32)] else []

def commNumbers : List (List PathStep × ℕ) := under [] [("JoinerUdpPort", 16), ("AeUdpPort", 16), ("NmkpUdpPort", 16)]

def Fits (width : ℕ) (number : Number) : Prop := ∃ n, number = .posInt n ∧ n.toNat < 2 ^ width

/-- The number is the same again if it fits the width, and only then. -/
def Kept (width : ℕ) (number again : Option Number) : Prop := again = number ↔ ∀ n ∈ number, Fits width n

def Keeps (places : List (List PathStep × ℕ)) (value shown : Json) : Prop :=
  ∀ place ∈ places, Kept place.2 (numberAt place.1 value) (numberAt place.1 shown)

theorem kept_none (width : ℕ) : Kept width none none := by simp [Kept]

theorem kept_some {width : ℕ} {n again : UInt64} (h : again.toNat = n.toNat ↔ n.toNat < 2 ^ width) :
    Kept width (some (.posInt n)) (some (.posInt again)) := by
  rw [Kept, Option.some.injEq, Number.posInt.injEq, ← UInt64.toNat_inj, h]
  simp [Fits]

theorem kept_mod (width : ℕ) (n : UInt64) :
    Kept width (some (.posInt n)) (some (.posInt (.ofNat (n.toNat % 2 ^ width)))) := by
  have hle := Nat.mod_le n.toNat (2 ^ width)
  have hlt := Nat.mod_lt n.toNat (Nat.two_pow_pos width)
  refine kept_some ?_
  rw [UInt64.toNat_ofNat', Nat.mod_eq_of_lt (hle.trans_lt n.toNat_lt)]
  exact ⟨fun h => h ▸ hlt, Nat.mod_eq_of_lt⟩

/-- What `as_u64` does not read of an optional field is left out, so that no
other number is kept. -/
theorem kept_optional (width : ℕ) (field : Option Json) : Kept width (field.bind asNumber)
    (((field.bind Json.asU64).map fun n => Json.nat (n.toNat % 2 ^ width)).bind asNumber) := by
  rcases field with _ | json
  · exact kept_none width
  · rcases json with _ | _ | number | _ | _ | _
    case number =>
      cases number with
      | posInt n => exact kept_mod width n
      | negInt n => simp [Kept, Fits, asNumber, Json.asU64]
      | float bits => simp [Kept, Fits, asNumber, Json.asU64]
    all_goals exact kept_none width

end Places

section Objects

variable {α : Type} {fromJson : Json → Except Error α} {render : α → Json} {numbers : List (String × ℕ)} {json : Json}

/-- What is read of an object and shown again keeps the numbers that fit. -/
def KeepsFields (fromJson : Json → Except Error α) (render : α → Json) (numbers : List (String × ℕ)) : Prop :=
  ∀ {json x}, fromJson json = .ok x → ∀ number ∈ numbers,
    Kept number.2 (numberAt [.key number.1] json) (numberAt [.key number.1] (render x))

theorem numberAt_of_asU64 {name : String} {n : UInt64} (h : asU64 json name = .ok n) :
    numberAt [.key name] json = some (.posInt n) := by
  obtain ⟨field, hfield, hn⟩ := Option.bind_eq_some_iff.mp (okOr_eq_ok.mp h)
  refine Option.bind_eq_some_iff.mpr ⟨field, hfield, ?_⟩
  unfold Json.asU64 at hn
  split at hn
  · cases hn
    rfl
  · cases hn

theorem keepsFields_timestamp : KeepsFields timestampFromJson timestampJson timestampNumbers := by
  intro json timestamp h
  obtain ⟨seconds, hseconds, h⟩ := bind_ok.mp h
  obtain ⟨ticks, hticks, h⟩ := bind_ok.mp h
  obtain ⟨u, hu, h⟩ := bind_ok.mp h
  cases h
  have hraw := toNat_fromComponents seconds ticks (decide (u ≠ 0))
  generalize Timestamp.fromComponents seconds ticks.toUInt16 (decide (u ≠ 0)) = timestamp at hraw
  obtain ⟨rseconds, rticks, ru⟩ := toNat_parts timestamp.raw
  rw [toNat_ne_zero] at hraw
  simp only [timestampNumbers, forall_mem_cons, numberAt_of_asU64 hseconds, numberAt_of_asU64 hticks, numberAt_of_asU64 hu]
  refine ⟨kept_some ?_, kept_some ?_, kept_some ?_, forall_mem_nil _⟩
  · rw [rseconds]
    omega
  · rw [rticks]
    omega
  · rw [ru]
    omega

theorem keepsFields_channel : KeepsFields channelFromJson channelJson channelNumbers := by
  intro json channel h
  obtain ⟨page, hpage, h⟩ := bind_ok.mp h
  obtain ⟨number, hnumber, h⟩ := bind_ok.mp h
  cases h
  refine forall_mem_cons.mpr ⟨?_, forall_mem_singleton.mpr ?_⟩
  · rw [numberAt_of_asU64 hpage]
    exact kept_mod 8 page
  · rw [numberAt_of_asU64 hnumber]
    exact kept_mod 16 number

variable [Hex]

theorem keepsFields_policy : KeepsFields policyFromJson securityPolicyJson [("RotationTime", 16)] := by
  intro json policy h
  obtain ⟨rotation, hrotation, h⟩ := bind_ok.mp h
  obtain ⟨_, -, h⟩ := bind_ok.mp h
  obtain ⟨_, -, h⟩ := bind_ok.mp h
  obtain ⟨flags, -, h⟩ := bind_ok.mp h
  cases h
  refine forall_mem_singleton.mpr ?_
  rw [numberAt_of_asU64 hrotation]
  exact kept_mod 16 rotation

theorem keepsFields_maskEntry : KeepsFields maskEntryFromJson maskEntryJson [("Page", 8)] := by
  intro json entry h
  obtain ⟨page, hpage, h⟩ := bind_ok.mp h
  obtain ⟨_, -, h⟩ := bind_ok.mp h
  obtain ⟨mask, -, h⟩ := bind_ok.mp h
  cases h
  refine forall_mem_singleton.mpr ?_
  rw [numberAt_of_asU64 hpage]
  exact kept_mod 8 page

end Objects

section Fields

variable {α : Type} {fromJson : Json → Except Error α} {render : α → Json} {numbers : List (String × ℕ)} {value shown : Json}

theorem KeepsFields.mapM (h : KeepsFields fromJson render numbers) {field : Option Json} {read : Option α}
    (hread : field.mapM fromJson = .ok read) : ∀ number ∈ numbers, Kept number.2
      (field.bind (numberAt [.key number.1])) ((read.map render).bind (numberAt [.key number.1])) := by
  intro number hnumber
  cases field with
  | none =>
    cases hread
    exact kept_none _
  | some json =>
    obtain ⟨x, hx, hread⟩ := bind_ok.mp hread
    cases hread
    exact h hx number hnumber

theorem KeepsFields.under (h : KeepsFields fromJson render numbers) {name : String} {read : Option α}
    (hread : (value.get name).mapM fromJson = .ok read) (hshown : shown.get name = read.map render) :
    Keeps (JsonNumbers.under [.key name] numbers) value shown := by
  intro place hplace
  obtain ⟨number, hnumber, rfl⟩ := mem_map.mp hplace
  have hkept := h.mapM hread number hnumber
  rw [← hshown] at hkept
  exact hkept

theorem getElem?_mapM {items : List Json} {read : List α} (h : items.mapM fromJson = .ok read) (i : ℕ) :
    (items[i]?).mapM fromJson = .ok read[i]? := by
  induction items generalizing read i with
  | nil =>
    cases h
    rfl
  | cons item items ih =>
    rw [mapM_cons] at h
    obtain ⟨first, hfirst, h⟩ := bind_ok.mp h
    obtain ⟨rest, hrest, h⟩ := bind_ok.mp h
    cases h
    cases i with
    | zero => exact bind_ok.mpr ⟨first, hfirst, rfl⟩
    | succ i => exact ih hrest i

theorem parseAll_encodeAll {entries : List ChannelMaskEntry} {bytes : Bytes}
    (h : ChannelMaskEntry.encodeAll entries = .ok bytes) : ChannelMaskEntry.parseAll bytes = .ok entries := by
  induction entries generalizing bytes with
  | nil =>
    cases h
    simp only [flatten_nil, reverse_nil, ChannelMaskEntry.parseAll]
    rfl
  | cons entry entries ih =>
    obtain ⟨encoded, hencoded, h⟩ := bind_ok.mp h
    cases h
    rw [mapM_cons] at hencoded
    obtain ⟨first, hfirst, hencoded⟩ := bind_ok.mp hencoded
    obtain ⟨rest, hrest, hencoded⟩ := bind_ok.mp hencoded
    obtain ⟨_, hshort, hfirst⟩ := bind_ok.mp hfirst
    have hshort := ensure_eq_ok.mp hshort
    cases hfirst
    cases hencoded
    have hlength : (UInt8.ofNat entry.mask.length).toNat = entry.mask.length := by
      rw [UInt8.toNat_ofNat', Nat.mod_eq_of_lt (by omega)]
    rw [flatten_cons, cons_append, cons_append, ChannelMaskEntry.parseAll, hlength, if_neg (by simp),
      drop_left, take_left, ih (bind_ok.mpr ⟨rest, hrest, rfl⟩)]
    rfl

/-- The entries of a mask are those of the array, each as it is read alone. -/
theorem mask_of_json [Hex] {field : Option Json} {raw : Option Bytes} (h : channelMaskFromJson field = .ok raw) :
    ∃ mask, raw.mapM ChannelMaskEntry.parseAll = .ok mask ∧
      ∀ i, (field.bind (PathStep.index i).value).mapM maskEntryFromJson = .ok (mask.bind (·[i]?)) := by
  unfold channelMaskFromJson at h
  split at h
  · next items =>
    obtain ⟨es, hes, h⟩ := bind_ok.mp h
    obtain ⟨bytes, hbytes, h⟩ := bind_ok.mp h
    cases h
    exact ⟨some es, bind_ok.mpr ⟨es, parseAll_encodeAll hbytes, rfl⟩, getElem?_mapM hes⟩
  · next hother =>
    cases h
    refine ⟨none, rfl, fun i => ?_⟩
    have hnone : field.bind (PathStep.index i).value = none := by
      rcases field with _ | json
      · rfl
      · cases json with
        | array items => exact (hother items rfl).elim
        | _ => rfl
    rw [hnone]
    rfl

theorem kept_mask [Hex] {mask : Option (List ChannelMaskEntry)} (i : ℕ)
    (hmask : ((value.get "ChannelMask").bind (PathStep.index i).value).mapM maskEntryFromJson = .ok (mask.bind (·[i]?)))
    (hshown : shown.get "ChannelMask" = mask.map channelMaskJson) :
    Keeps (under [.key "ChannelMask", .index i] [("Page", 8)]) value shown := by
  refine forall_mem_singleton.mpr ?_
  have hkept := keepsFields_maskEntry.mapM hmask _ mem_cons_self
  have hentry : (shown.get "ChannelMask").bind (PathStep.index i).value = (mask.bind (·[i]?)).map maskEntryJson := by
    rw [hshown]
    cases mask with
    | none => rfl
    | some entries => exact List.getElem?_map
  rw [← hentry, Option.bind_assoc, Option.bind_assoc] at hkept
  exact hkept

theorem mapM_toValue {ε : Type} {parse : Bytes → Except ε α} {toValue : α → Bytes} (hparse : ∀ x, parse (toValue x) = .ok x)
    {raw : Option Bytes} {x : Option α} (hraw : raw = x.map toValue) : raw.mapM parse = .ok x := by
  subst hraw
  cases x with
  | none => rfl
  | some x => exact bind_ok.mpr ⟨x, hparse x, rfl⟩

theorem mapM_readArray_iff {n : ℕ} {raw : Option Bytes} :
    (∃ read, raw.mapM (readArray n) = .ok read) ↔ ∀ bytes ∈ raw, bytes.length = n := by
  cases raw with
  | none => exact ⟨fun _ => nofun, fun _ => ⟨none, rfl⟩⟩
  | some value =>
    constructor
    · rintro ⟨_, h⟩ bytes ⟨⟩
      obtain ⟨read, hread, -⟩ := bind_ok.mp h
      obtain ⟨_, hlength, -⟩ := bind_ok.mp hread
      exact ensure_eq_ok.mp hlength
    · intro h
      exact ⟨some value, bind_ok.mpr ⟨value, bind_ok.mpr ⟨(), ensure_true (h value rfl) _, rfl⟩, rfl⟩⟩

theorem parse_toValue (timestamp : Timestamp) : Timestamp.parse timestamp.toValue = .ok timestamp := by
  have hvalue : beNat timestamp.toValue = timestamp.raw.toNat := beNat_beBytes_of_lt timestamp.raw.toNat_lt
  have hlength : timestamp.toValue.length = 8 := length_beBytes 8 _
  rw [Timestamp.parse, readU64, if_pos hlength, hvalue, UInt64.ofNat_toNat]
  rfl

theorem parse_channel (channel : Channel) : Channel.parse (DatasetJson.Channel.toValue channel) = .ok channel := by
  change Except.ok (⟨channel.page, .ofNat (beNat (beBytes 2 channel.channel.toNat))⟩ : Channel) = _
  rw [uint16_ofNat_beBytes]

theorem parse_policy (policy : SecurityPolicy) : SecurityPolicy.parse policy.toValue = .ok policy := by
  change Except.ok (⟨.ofNat (beNat (beBytes 2 policy.rotationTime.toNat)),
    .ofNat (beNat (beBytes 2 policy.flags.toNat))⟩ : SecurityPolicy) = _
  rw [uint16_ofNat_beBytes, uint16_ofNat_beBytes]

theorem readU16_beBytes (n : UInt16) : readU16 (beBytes 2 n.toNat) = .ok n := by
  rw [readU16, if_pos (length_beBytes 2 _), beNat_beBytes_of_lt n.toNat_lt, UInt16.ofNat_toNat]

theorem readU32_beBytes (n : UInt32) : readU32 (beBytes 4 n.toNat) = .ok n := by
  rw [readU32, if_pos (length_beBytes 4 _), beNat_beBytes_of_lt n.toNat_lt, UInt32.ofNat_toNat]

end Fields

section Datasets

theorem raw_default (ty : UInt8) : Dataset.default.raw ty = none := rfl

theorem ite_bind_eq_ok {ε α β : Type} {p : Prop} [Decidable p] {x y : Except ε α} {f : α → Except ε β} {b : β}
    (h : (if p then x >>= f else y >>= f) = .ok b) : ∃ a, (if p then x else y) = .ok a ∧ f a = .ok b := by
  split at h
  · next hp =>
    rw [if_pos hp]
    exact bind_ok.mp h
  · next hp =>
    rw [if_neg hp]
    exact bind_ok.mp h

theorem sized_iff [Hex] {text : Option Text} {raw : Option Bytes} (h : text.mapM parseHex = .ok raw) (n : ℕ) :
    (∀ shown bytes, text = some shown → parseHex shown = .ok bytes → bytes.length = n) ↔ ∀ bytes ∈ raw, bytes.length = n := by
  cases text with
  | none =>
    cases h
    exact ⟨fun _ => nofun, fun _ => nofun⟩
  | some text =>
    obtain ⟨bytes, hbytes, h⟩ := bind_ok.mp h
    cases h
    constructor
    · rintro hall _ ⟨⟩
      exact hall text bytes rfl hbytes
    · rintro hall _ bytes' ⟨⟩ hbytes'
      cases hbytes.symm.trans hbytes'
      exact hall bytes rfl

theorem exists_readArray8 [AddressTexts] {text : Option Text} {raw : Option Bytes}
    (h : text.mapM parseMeshLocalPrefix = .ok raw) : ∃ read, raw.mapM readArray8 = .ok read := by
  cases text with
  | none =>
    cases h
    exact ⟨none, rfl⟩
  | some text =>
    obtain ⟨bytes, hbytes, h⟩ := bind_ok.mp h
    obtain ⟨address, -, hbytes⟩ := bind_ok.mp hbytes
    cases hbytes
    cases h
    exact ⟨_, bind_ok.mpr ⟨_, okOr_eq_ok.mpr (dif_pos (by simp)), rfl⟩⟩

variable [AddressTexts] [Hex] {value shown : Json} {pending : Bool} {ds : Dataset}

def textAt (value : Json) (key : String) : Option Text := (value.get key).bind Json.asStr

def delayOf (value : Json) (pending : Bool) : Option UInt64 :=
  if pending then (value.get "Delay").bind Json.asU64 else none

/-- What can be read of a dataset that was made from a JSON value. -/
structure Made (value : Json) (pending : Bool) (dataset : Dataset) where
  active : Option Timestamp
  later : Option Timestamp
  channel : Option Channel
  mask : Option (List ChannelMaskEntry)
  policy : Option SecurityPolicy
  active_json : (value.get "ActiveTimestamp").mapM timestampFromJson = .ok active
  later_json : (if pending then (value.get "PendingTimestamp").mapM timestampFromJson else .ok none) = .ok later
  channel_json : (value.get "Channel").mapM channelFromJson = .ok channel
  mask_json : ∀ i, ((value.get "ChannelMask").bind (PathStep.index i).value).mapM maskEntryFromJson =
    .ok (mask.bind (·[i]?))
  policy_json : (value.get "SecurityPolicy").mapM policyFromJson = .ok policy
  xpanid_json : (textAt value "ExtendedPanId").mapM parseHex = .ok (dataset.raw tlvExtendedPanId)
  key_json : (textAt value "NetworkMasterKey").mapM parseHex = .ok (dataset.raw tlvNetworkKey)
  active_eq : activeTimestamp dataset = .ok active
  later_eq : pendingTimestamp dataset = .ok later
  delay_eq : delayTimer dataset = .ok ((delayOf value pending).map UInt64.toUInt32)
  channel_eq : DatasetJson.channel dataset = .ok channel
  mask_eq : channelMask dataset = .ok mask
  policy_eq : securityPolicy dataset = .ok policy
  name_eq : ∃ name, networkName dataset = .ok name
  panid_eq : ∃ panid, panId dataset = .ok panid
  meshLocalPrefix_eq : ∃ meshLocalPrefix, dataset.meshLocalPrefix = .ok meshLocalPrefix

theorem exists_made (h : opDatasetFromJson value pending = .ok ds) : Nonempty (Made value pending ds) := by
  obtain ⟨active, hactive, h⟩ := bind_ok.mp h
  obtain ⟨later, hlater, h⟩ := ite_bind_eq_ok h
  obtain ⟨channel, hchannel, h⟩ := bind_ok.mp h
  obtain ⟨rawMask, hrawMask, h⟩ := bind_ok.mp h
  obtain ⟨xpanid, hxpanid, h⟩ := bind_ok.mp h
  obtain ⟨panid, -, h⟩ := bind_ok.mp h
  obtain ⟨ml, hmeshLocal, h⟩ := bind_ok.mp h
  obtain ⟨key, hkey, h⟩ := bind_ok.mp h
  obtain ⟨_, -, h⟩ := bind_ok.mp h
  obtain ⟨policy, hpolicy, h⟩ := bind_ok.mp h
  obtain ⟨mask, hmask, hes⟩ := mask_of_json hrawMask
  have hraw : ds.raw tlvActiveTimestamp = active.map Timestamp.toValue ∧
      ds.raw tlvPendingTimestamp = later.map Timestamp.toValue ∧
      ds.raw tlvDelayTimer = ((delayOf value pending).map UInt64.toUInt32).map (beBytes 4 ·.toNat) ∧
      ds.raw tlvNetworkName = (textAt value "NetworkName").map Text.bytes ∧
      ds.raw tlvChannel = channel.map DatasetJson.Channel.toValue ∧ ds.raw tlvChannelMask = rawMask ∧
      ds.raw tlvExtendedPanId = xpanid ∧ ds.raw tlvPanId = panid.map (beBytes 2 ·.toNat) ∧
      ds.raw tlvMeshLocalPrefix = ml ∧ ds.raw tlvNetworkKey = key ∧
      ds.raw tlvSecurityPolicy = policy.map SecurityPolicy.toValue := by
    cases h
    rw [Option.map_map]
    simp +decide [raw_setField, raw_default, delayOf, textAt]
    rfl
  obtain ⟨ractive, rlater, rdelay, rname, rchannel, rmask, rxpanid, rpanid, rmesh, rkey, rpolicy⟩ := hraw
  exact ⟨{
    active, later, channel, mask, policy
    active_json := hactive
    later_json := hlater
    channel_json := hchannel
    mask_json := hes
    policy_json := hpolicy
    xpanid_json := rxpanid ▸ hxpanid
    key_json := rkey ▸ hkey
    active_eq := mapM_toValue parse_toValue ractive
    later_eq := mapM_toValue parse_toValue rlater
    delay_eq := ofTlv_eq_ok.mpr (mapM_toValue readU32_beBytes rdelay)
    channel_eq := mapM_toValue parse_channel rchannel
    mask_eq := (congrArg (·.mapM ChannelMaskEntry.parseAll) rmask).trans hmask
    policy_eq := mapM_toValue parse_policy rpolicy
    name_eq := by
      rw [networkName, rname]
      cases textAt value "NetworkName" with
      | none => exact ⟨_, rfl⟩
      | some text => exact ⟨_, bind_ok.mpr ⟨text, okOr_eq_ok.mpr (fromUtf8_bytes text), rfl⟩⟩
    panid_eq := ⟨_, ofTlv_eq_ok.mpr (mapM_toValue readU16_beBytes rpanid)⟩
    meshLocalPrefix_eq := exists_readArray8 (rmesh ▸ hmeshLocal) }⟩

def Sized (value : Json) : Prop :=
  (∀ text bytes, textAt value "ExtendedPanId" = some text → parseHex text = .ok bytes → bytes.length = 8) ∧
    ∀ text bytes, textAt value "NetworkMasterKey" = some text → parseHex text = .ok bytes → bytes.length = 16

theorem opDatasetToJson_of_active (hlater : pendingTimestamp ds = .ok none) (hdelay : delayTimer ds = .ok none) :
    opDatasetToJson ds false = opDatasetToJson ds true := by
  rw [opDatasetToJson, opDatasetToJson, hlater, hdelay]
  rfl

variable (made : Made value pending ds)

include made

theorem Made.opDatasetToJson_true : opDatasetToJson ds pending = opDatasetToJson ds true := by
  cases pending with
  | true => rfl
  | false =>
    have hlater := made.later_eq
    rw [← Except.ok.inj made.later_json] at hlater
    exact opDatasetToJson_of_active hlater made.delay_eq

theorem Made.exists_json_iff : (∃ json, opDatasetToJson ds pending = .ok json) ↔ Sized value := by
  rw [made.opDatasetToJson_true, Sized, sized_iff made.xpanid_json, sized_iff made.key_json, ← mapM_readArray_iff,
    ← mapM_readArray_iff]
  constructor
  · rintro ⟨json, h⟩
    obtain ⟨reads, -⟩ := exists_reads h
    exact ⟨⟨_, reads.xpanid_eq⟩, _, reads.key_eq⟩
  · rintro ⟨⟨xpanid, hxpanid⟩, key, hkey⟩
    obtain ⟨name, hname⟩ := made.name_eq
    obtain ⟨panid, hpanid⟩ := made.panid_eq
    obtain ⟨mesh, hmeshLocal⟩ := made.meshLocalPrefix_eq
    have hxpanid : extendedPanId ds = .ok xpanid := hxpanid
    have hkey : networkKey ds = .ok key := hkey
    simp only [opDatasetToJson, made.active_eq, made.later_eq, made.delay_eq, hname, made.channel_eq, made.mask_eq, hxpanid,
      hpanid, hmeshLocal, hkey, made.policy_eq, if_true, ok_bind]
    exact ⟨_, rfl⟩

theorem Made.kept (hshown : opDatasetToJson ds pending = .ok shown) (i : ℕ) : Keeps (opNumbers pending i) value shown := by
  rw [made.opDatasetToJson_true] at hshown
  obtain ⟨reads, rfl⟩ := exists_reads hshown
  have hgets := reads.get
  generalize Json.object (members reads.fields) = shown at hgets ⊢
  simp only [Reads.fields, forall_mem_cons] at hgets
  obtain ⟨gactive, gpending, gdelay, -, gchannel, gmask, -, -, -, -, -, gpolicy, -⟩ := hgets
  rw [ok_unique reads.activeTimestamp_eq made.active_eq] at gactive
  rw [ok_unique reads.pendingTimestamp_eq made.later_eq] at gpending
  rw [ok_unique reads.delay_eq made.delay_eq, Option.map_map] at gdelay
  rw [ok_unique reads.channel_eq made.channel_eq] at gchannel
  rw [ok_unique reads.mask_eq made.mask_eq] at gmask
  rw [ok_unique reads.policy_eq made.policy_eq] at gpolicy
  simp only [Keeps, opNumbers, forall_mem_append]
  refine ⟨⟨⟨⟨keepsFields_timestamp.under made.active_json gactive, keepsFields_channel.under made.channel_json gchannel⟩,
    kept_mask i (made.mask_json i) gmask⟩, keepsFields_policy.under made.policy_json gpolicy⟩, ?_⟩
  cases pending with
  | false => exact forall_mem_nil _
  | true =>
    refine forall_mem_append.mpr ⟨keepsFields_timestamp.under made.later_json gpending, forall_mem_singleton.mpr ?_⟩
    have hkept : Kept 32 ((value.get "Delay").bind asNumber)
        (((delayOf value true).map ((Json.nat ·.toNat) ∘ UInt64.toUInt32)).bind asNumber) :=
      kept_optional 32 (value.get "Delay")
    rw [← gdelay] at hkept
    exact hkept

end Datasets

section Commissioner

def portJson : Option Bytes → Option Json
  | some [high, low] => some (.nat (beNat [high, low]))
  | _ => none

def portMember (key : String) : Option Bytes → List (String × Json)
  | some [high, low] => [(key, .nat (beNat [high, low]))]
  | _ => []

theorem portMember_eq (key : String) (raw : Option Bytes) : portMember key raw = member key (portJson raw) := by
  unfold portMember portJson
  split <;> rfl

theorem kept_port {raw : Option Bytes} {field : Option Json}
    (hraw : raw = (field.bind Json.asU64).map fun n => beBytes 2 n.toUInt16.toNat) :
    Kept 16 (field.bind asNumber) ((portJson raw).bind asNumber) := by
  have hport : portJson raw = (field.bind Json.asU64).map fun n => Json.nat (n.toNat % 2 ^ 16) := by
    subst hraw
    cases field.bind Json.asU64 with
    | none => rfl
    | some n =>
      have hvalue : beNat (beBytes 2 n.toUInt16.toNat) = n.toUInt16.toNat := beNat_beBytes_of_lt n.toUInt16.toNat_lt
      exact congrArg (fun n => some (Json.nat n)) hvalue
  rw [hport]
  exact kept_optional 16 field

theorem port_back (raw : Option Bytes) :
    ((portJson raw).bind Json.asU64).map (fun n => beBytes 2 n.toUInt16.toNat) = raw.filter (·.length = 2) := by
  unfold portJson
  split
  · next high low =>
    have hback : beBytes 2 (UInt64.ofNat (beNat [high, low])).toUInt16.toNat = [high, low] := by
      rw [UInt64.toNat_toUInt16, UInt64.toNat_ofNat', Nat.mod_mod_of_dvd _ (by decide)]
      exact beBytes_beNat_mod rfl
    exact congrArg some hback
  · next hother =>
    refine (Option.filter_eq_none_iff.mpr fun value hvalue hlength => ?_).symm
    obtain ⟨high, low, rfl⟩ := length_eq_two.mp (of_decide_eq_true hlength)
    exact hother high low hvalue

variable [Hex] {value : Json} {ds : Dataset}

def commFields (dataset : Dataset) : List (String × Option Json) :=
  [("BorderAgentLocator", portJson (dataset.raw tlvBorderAgentLocator)),
    ("SessionId", portJson (dataset.raw tlvCommissionerSessionId)),
    ("SteeringData", (dataset.raw tlvSteeringData).map (.string <| Hex.encode ·)),
    ("AeSteeringData", (dataset.raw tlvAeSteeringData).map (.string <| Hex.encode ·)),
    ("NmkpSteeringData", (dataset.raw tlvNmkpSteeringData).map (.string <| Hex.encode ·)),
    ("JoinerUdpPort", portJson (dataset.raw tlvJoinerUdpPort)), ("AeUdpPort", portJson (dataset.raw tlvAeUdpPort)),
    ("NmkpUdpPort", portJson (dataset.raw tlvNmkpUdpPort))]

theorem commDatasetToJson_eq (ds : Dataset) : commDatasetToJson ds = .object (members (commFields ds)) := by
  change Json.object (portMember "BorderAgentLocator" (ds.raw tlvBorderAgentLocator) ++
    portMember "SessionId" (ds.raw tlvCommissionerSessionId) ++ _ ++ _ ++ _ ++
    portMember "JoinerUdpPort" (ds.raw tlvJoinerUdpPort) ++ portMember "AeUdpPort" (ds.raw tlvAeUdpPort) ++
    portMember "NmkpUdpPort" (ds.raw tlvNmkpUdpPort)) = _
  simp [portMember_eq, members, commFields]

theorem get_commDatasetToJson {name : String} {field : Option Json} (h : (name, field) ∈ commFields ds) :
    (commDatasetToJson ds).get name = field := by
  rw [commDatasetToJson_eq]
  refine get_members ?_ h
  simp only [commFields, map_cons, map_nil]
  decide

theorem kept_field {ty : UInt8} {name : String} (hfield : (name, portJson (ds.raw ty)) ∈ commFields ds)
    (hraw : ds.raw ty = ((value.get name).bind Json.asU64).map fun n => beBytes 2 n.toUInt16.toNat) :
    Kept 16 (numberAt [.key name] value) (numberAt [.key name] (commDatasetToJson ds)) := by
  have hkept := kept_port hraw
  rw [← get_commDatasetToJson hfield] at hkept
  exact hkept

theorem raw_of_commDatasetFromJson (h : commDatasetFromJson value = .ok ds) :
    ∀ field ∈ [("JoinerUdpPort", tlvJoinerUdpPort), ("AeUdpPort", tlvAeUdpPort), ("NmkpUdpPort", tlvNmkpUdpPort)],
      ds.raw field.2 = ((value.get field.1).bind Json.asU64).map fun n => beBytes 2 n.toUInt16.toNat := by
  obtain ⟨steering, -, h⟩ := bind_ok.mp h
  obtain ⟨ae, -, h⟩ := bind_ok.mp h
  obtain ⟨nmkp, -, h⟩ := bind_ok.mp h
  cases h
  simp +decide [raw_setField, raw_default]

theorem kept_comm (h : commDatasetFromJson value = .ok ds) : Keeps commNumbers value (commDatasetToJson ds) := by
  have hraw := raw_of_commDatasetFromJson h
  simp only [forall_mem_cons] at hraw
  obtain ⟨hjoiner, hae, hnmkp, -⟩ := hraw
  simp only [Keeps, commNumbers, under, map_cons, forall_mem_cons]
  exact ⟨kept_field (by simp [commFields]) hjoiner, kept_field (by simp [commFields]) hae,
    kept_field (by simp [commFields]) hnmkp, forall_mem_nil _⟩

/-- A commissioner dataset is read back from its JSON with its steering data as
it was and its ports if they are well formed. What the protocol manages itself,
and all that JSON does not have, is left out. -/
theorem commissioner_dataset_json_round_trip (dataset : Dataset) :
    ∃ read, commDatasetFromJson (commDatasetToJson dataset) = .ok read ∧ ∀ ty, read.raw ty =
      if ty ∈ [tlvSteeringData, tlvAeSteeringData, tlvNmkpSteeringData] then dataset.raw ty
      else if ty ∈ [tlvJoinerUdpPort, tlvAeUdpPort, tlvNmkpUdpPort] then (dataset.raw ty).filter (·.length = 2)
      else none := by
  have hgets : ∀ field ∈ commFields dataset, (commDatasetToJson dataset).get field.1 = field.2 := fun _ => get_commDatasetToJson
  generalize commDatasetToJson dataset = json at hgets ⊢
  simp only [commFields, forall_mem_cons] at hgets
  obtain ⟨-, -, gsteering, gae, gnmkp, gjoiner, gaePort, gnmkpPort, -⟩ := hgets
  simp only [commDatasetFromJson, gsteering, gae, gnmkp, gjoiner, gaePort, gnmkpPort, bind_asStr, hex_back, ok_bind,
    port_back]
  refine ⟨_, rfl, fun ty => ?_⟩
  by_cases hty : ty ∈ [tlvSteeringData, tlvAeSteeringData, tlvNmkpSteeringData, tlvJoinerUdpPort, tlvAeUdpPort,
    tlvNmkpUdpPort]
  · simp only [mem_cons, not_mem_nil, or_false] at hty
    rcases hty with rfl | rfl | rfl | rfl | rfl | rfl <;> simp +decide [raw_setField, raw_default]
  · simp only [mem_cons, not_mem_nil, or_false, not_or] at hty
    simp [raw_setField, raw_default, hty, Ne.symm]

end Commissioner

/-- A number of an accepted dataset is shown again exactly if it fits its field,
and an operational dataset is shown at all exactly if its extended PAN ID and its
key have their sizes. -/
theorem json_numbers_are_kept_iff [AddressTexts] [Hex] (value : Json) :
    (∀ pending dataset, opDatasetFromJson value pending = .ok dataset → ∀ i, ∀ place ∈ opNumbers pending i,
      ((∃ shown, opDatasetToJson dataset pending = .ok shown ∧ numberAt place.1 shown = numberAt place.1 value) ↔
        Sized value ∧ ∀ n ∈ numberAt place.1 value, Fits place.2 n)) ∧
    ∀ dataset, commDatasetFromJson value = .ok dataset → ∀ place ∈ commNumbers,
      (numberAt place.1 (commDatasetToJson dataset) = numberAt place.1 value ↔
        ∀ n ∈ numberAt place.1 value, Fits place.2 n) := by
  refine ⟨fun pending dataset h i place hplace => ?_, fun dataset h => kept_comm h⟩
  obtain ⟨made⟩ := exists_made h
  constructor
  · rintro ⟨shown, hshown, hsame⟩
    exact ⟨made.exists_json_iff.mp ⟨shown, hshown⟩, (made.kept hshown i place hplace).mp hsame⟩
  · rintro ⟨hsized, hfits⟩
    obtain ⟨shown, hshown⟩ := made.exists_json_iff.mpr hsized
    exact ⟨shown, hshown, (made.kept hshown i place hplace).mpr hfits⟩

section Example

attribute [local instance] prefixAddresses TextForms.plainHex

def exampleJson (page : ℕ) (xpanid : Bytes) (delay : Number) : Json :=
  .object [("Channel", .object [("Page", .nat page), ("Number", .nat 11)]), ("ExtendedPanId", .string (Hex.encode xpanid)),
    ("Delay", .number delay), ("JoinerUdpPort", .nat 1000)]

theorem sized_example (page : ℕ) (xpanid : Bytes) (delay : Number) :
    Sized (exampleJson page xpanid delay) ↔ xpanid.length = 8 := by
  constructor
  · exact fun h => h.1 _ _ rfl (parseHex_encode xpanid)
  · refine fun h => ⟨?_, nofun⟩
    rintro _ bytes ⟨⟩ hbytes
    rw [← ok_unique (parseHex_encode xpanid) hbytes, h]

/-- What fits is shown again; a delay of -1 is taken and not shown, and with an
extended PAN ID of one byte nothing is. -/
theorem json_numbers_are_kept_example :
    (∃ dataset shown, opDatasetFromJson (exampleJson 0 (List.replicate 8 0xaa) (.posInt 5)) true = .ok dataset ∧
      opDatasetToJson dataset true = .ok shown ∧ numberAt [.key "Delay"] shown = some (.posInt 5)) ∧
    (∃ dataset, opDatasetFromJson (exampleJson 0 (List.replicate 8 0xaa) (.negInt (-1))) true = .ok dataset ∧
      ¬ ∃ shown, opDatasetToJson dataset true = .ok shown ∧ numberAt [.key "Delay"] shown = some (.negInt (-1))) ∧
    (∃ dataset, opDatasetFromJson (exampleJson 0 [0xaa] (.posInt 5)) true = .ok dataset ∧
      ¬ ∃ shown, opDatasetToJson dataset true = .ok shown ∧ numberAt [.key "Delay"] shown = some (.posInt 5)) ∧
    ∃ dataset, commDatasetFromJson (exampleJson 0 [0xaa] (.posInt 5)) = .ok dataset ∧
      numberAt [.key "JoinerUdpPort"] (commDatasetToJson dataset) = some (.posInt 1000) := by
  have hdelay : ([.key "Delay"], 32) ∈ opNumbers true 0 := by simp [opNumbers, under]
  have hkept := fun xpanid delay => (json_numbers_are_kept_iff (exampleJson 0 xpanid delay)).1 true
  refine ⟨?_, ⟨_, rfl, fun h => ?_⟩, ⟨_, rfl, fun h => ?_⟩, ⟨_, rfl, ?_⟩⟩
  · obtain ⟨shown, hshown⟩ := (hkept (List.replicate 8 0xaa) (.posInt 5) _ rfl 0 _ hdelay).mpr
      ⟨(sized_example _ _ _).mpr rfl, by rintro _ ⟨⟩; exact ⟨5, rfl, by decide⟩⟩
    exact ⟨_, shown, rfl, hshown⟩
  · obtain ⟨_, hposInt, -⟩ := ((hkept (List.replicate 8 0xaa) _ _ rfl 0 _ hdelay).mp h).2 _ rfl
    cases hposInt
  · cases (sized_example _ _ _).mp ((hkept [0xaa] _ _ rfl 0 _ hdelay).mp h).1
  · refine ((json_numbers_are_kept_iff (exampleJson 0 [0xaa] (.posInt 5))).2 _ rfl ([.key "JoinerUdpPort"], 16)
      (by simp [commNumbers, under])).mpr ?_
    rintro _ ⟨⟩
    exact ⟨1000, rfl, by decide⟩

/-- A page of 256 is taken, and shown again as 0. -/
theorem json_page_is_cut : ∃ dataset shown,
    opDatasetFromJson (exampleJson 256 (List.replicate 8 0xaa) (.posInt 5)) true = .ok dataset ∧
      opDatasetToJson dataset true = .ok shown ∧
      numberAt [.key "Channel", .key "Page"] (exampleJson 256 (List.replicate 8 0xaa) (.posInt 5)) = some (.posInt 256) ∧
      numberAt [.key "Channel", .key "Page"] shown = some (.posInt 0) :=
  ⟨_, _, rfl, rfl, rfl, rfl⟩

end Example

end ThreadCommissioner.JsonNumbers
