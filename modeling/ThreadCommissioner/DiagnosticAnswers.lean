import ThreadCommissioner.NetworkDataTrees
import ThreadCommissioner.RouteTables
import ThreadCommissioner.TlvCodec

namespace ThreadCommissioner.DiagnosticAnswers

open ByteStrings Computations Diagnostics Errors List NetworkDataTrees RouteTables Tlvs

section Values

/-- The value has the form of its type. Values of unknown types have any form. -/
def WellFormed (entry : TlvEntry) : Prop :=
  let length := entry.value.length
  if entry.ty = DiagTlv.mode then length = 1
  else if entry.ty = DiagTlv.batteryLevel then length = 1
  else if entry.ty = DiagTlv.macAddress then length = 2
  else if entry.ty = DiagTlv.supplyVoltage then length = 2
  else if entry.ty = DiagTlv.timeout then length = 4
  else if entry.ty = DiagTlv.leaderData then length = 8
  else if entry.ty = DiagTlv.eui64 then length = 8
  else if entry.ty = DiagTlv.macCounters then length = 36
  else if entry.ty = DiagTlv.connectivity then 7 ≤ length
  else if entry.ty = DiagTlv.childTable then length % 3 = 0
  else if entry.ty = DiagTlv.ipv6Addresses then length % 16 = 0
  else if entry.ty = DiagTlv.childIpv6Addresses then 2 ≤ length ∧ (length - 2) % 16 = 0
  else if entry.ty = DiagTlv.route64 then length = 9 + setBits ((entry.value.drop 1).take 8)
  else if entry.ty = DiagTlv.networkData then IsTree entry.value
  else True

def decodeEui64 (value : Bytes) : Except Error (ByteVector 8) :=
  let length := value.length
  if h : value.length = 8 then .ok ⟨value, h⟩
  else .error (.dataset s!"EUI-64 must be 8 bytes, got {length}")

def Accepts {α : Type} (decode : Bytes → Except Error α) (form : Bytes → Prop) : Prop :=
  ∀ value, (∃ a, decode value = .ok a) ↔ form value

theorem accepts_mode : Accepts ModeData.decode (·.length = 1) := by
  intro value
  rcases value with _ | ⟨byte, _ | ⟨next, rest⟩⟩ <;> simp [ModeData.decode]

variable (name : String)

theorem accepts_readU8 : Accepts (readU8 · name) (·.length = 1) := by
  intro value
  rcases value with _ | ⟨byte, _ | ⟨next, rest⟩⟩ <;> simp [Diagnostics.readU8]

theorem accepts_readU16 : Accepts (Diagnostics.readU16 · name) (·.length = 2) := by
  intro value
  by_cases h : value.length = 2 <;> simp [Diagnostics.readU16, h]

theorem accepts_readU32 : Accepts (Diagnostics.readU32 · name) (·.length = 4) := by
  intro value
  by_cases h : value.length = 4 <;> simp [Diagnostics.readU32, h]

theorem accepts_leaderData : Accepts decodeLeaderData (·.length = 8) := by
  intro value
  by_cases h : value.length = 8 <;> simp [decodeLeaderData, h]

theorem accepts_eui64 : Accepts decodeEui64 (·.length = 8) := by
  intro value
  by_cases h : value.length = 8
  · rw [decodeEui64, dif_pos h]
    exact iff_of_true ⟨_, rfl⟩ h
  · simp [decodeEui64, h]

theorem accepts_macCounters : Accepts decodeMacCounters (·.length = 36) := by
  intro value
  by_cases h : value.length = 36 <;> simp [decodeMacCounters, h]

theorem accepts_connectivity : Accepts decodeConnectivity (7 ≤ ·.length) := by
  intro value
  by_cases h : value.length < 7
  · simp [decodeConnectivity, h]
  · simp [decodeConnectivity, h, Nat.not_lt.mp h]

theorem exists_mapM {α β : Type} {f : α → Except Error β} {as : List α} (h : ∀ a ∈ as, ∃ b, f a = .ok b) :
    ∃ bs, as.mapM f = .ok bs := by
  induction as with
  | nil => exact ⟨[], rfl⟩
  | cons a as ih =>
    obtain ⟨⟨b, hb⟩, has⟩ := forall_mem_cons.mp h
    obtain ⟨bs, hbs⟩ := ih has
    exact ⟨b :: bs, by rw [mapM_cons, hb, ok_bind, hbs]; rfl⟩

theorem accepts_childTable : Accepts decodeChildTable (·.length % 3 = 0) := by
  intro value
  rw [decodeChildTable, wholeEntries]
  simp only [bind_ok, ensure_eq_ok]
  constructor
  · rintro ⟨_, _, h, -⟩
    exact h
  · intro h
    refine ⟨_, (), h, Exists.choose_spec (exists_mapM fun chunk hchunk => ?_)⟩
    have hmode : ((chunk.drop 2).take 1).length = 1 := by
      rw [length_take, length_drop, length_of_mem_chunksExact hchunk]
      rfl
    obtain ⟨mode, hmode⟩ := (accepts_mode _).mpr hmode
    exact ⟨_, by rw [hmode, ok_bind]; rfl⟩

theorem accepts_ipv6AddressList : Accepts decodeIpv6AddressList (·.length % 16 = 0) := by
  intro value
  simp only [decodeIpv6AddressList, wholeEntries_bind_eq_ok]
  constructor
  · rintro ⟨_, h, -⟩
    exact h
  · intro h
    exact ⟨_, h, rfl⟩

theorem accepts_childIpv6Addresses :
    Accepts decodeChildIpv6Addresses fun value => 2 ≤ value.length ∧ (value.length - 2) % 16 = 0 := by
  intro value
  rw [decodeChildIpv6Addresses]
  simp only [bind_ok, ensure_eq_ok, pure_eq_ok]
  constructor
  · rintro ⟨_, _, h, -⟩
    exact h
  · intro h
    have hwhole : (value.drop 2).length % 16 = 0 := by
      rw [length_drop]
      exact h.2
    obtain ⟨addresses, haddresses⟩ := (accepts_ipv6AddressList (value.drop 2)).mpr hwhole
    exact ⟨_, (), h, addresses, haddresses, rfl⟩

theorem accepts_any : Accepts (Except.ok : Bytes → Except Error Bytes) fun _ => True :=
  fun value => ⟨fun _ => trivial, fun _ => ⟨value, rfl⟩⟩

end Values

section Fields

/-- A field after a list of entries: the last of its type counts. -/
def latestOf {α : Type} (ty : UInt8) (decode : Bytes → Except Error α) (entries : List TlvEntry) (old : Option α) : Option α :=
  ((TlvSet.mk entries).lastValue ty).elim old fun value => (decode value).toOption

def decodedOf {α : Type} (ty : UInt8) (decode : Bytes → Except Error α) (entries : List TlvEntry) : List α :=
  (entries.filter (·.ty = ty)).filterMap fun entry => (decode entry.value).toOption

def collectedOf {α : Type} (ty : UInt8) (decode : Bytes → Except Error α) (entries : List TlvEntry) (old : Option (List α)) :
    Option (List α) :=
  if (decodedOf ty decode entries).isEmpty then old else some (old.getD [] ++ decodedOf ty decode entries)

def updatedBy (out : NetDiagData) (entries : List TlvEntry) : NetDiagData where
  extMacAddr := latestOf DiagTlv.extMacAddress .ok entries out.extMacAddr
  macAddr := latestOf DiagTlv.macAddress (Diagnostics.readU16 · "MAC Address") entries out.macAddr
  mode := latestOf DiagTlv.mode ModeData.decode entries out.mode
  timeout := latestOf DiagTlv.timeout (Diagnostics.readU32 · "Timeout") entries out.timeout
  connectivity := latestOf DiagTlv.connectivity decodeConnectivity entries out.connectivity
  route64 := latestOf DiagTlv.route64 decodeRoute64 entries out.route64
  leaderData := latestOf DiagTlv.leaderData decodeLeaderData entries out.leaderData
  networkData := latestOf DiagTlv.networkData NetworkData.decode entries out.networkData
  addresses := latestOf DiagTlv.ipv6Addresses decodeIpv6AddressList entries out.addresses
  macCounters := latestOf DiagTlv.macCounters decodeMacCounters entries out.macCounters
  batteryLevel := latestOf DiagTlv.batteryLevel (readU8 · "Battery Level") entries out.batteryLevel
  supplyVoltage := latestOf DiagTlv.supplyVoltage (Diagnostics.readU16 · "Supply Voltage") entries out.supplyVoltage
  childTable := latestOf DiagTlv.childTable decodeChildTable entries out.childTable
  channelPages := latestOf DiagTlv.channelPages .ok entries out.channelPages
  typeList := latestOf DiagTlv.typeList .ok entries out.typeList
  eui64 := latestOf DiagTlv.eui64 decodeEui64 entries out.eui64
  childIpv6Addresses := collectedOf DiagTlv.childIpv6Addresses decodeChildIpv6Addresses entries out.childIpv6Addresses

section Lists

variable {α : Type} (ty : UInt8) (decode : Bytes → Except Error α) (entry : TlvEntry) (entries : List TlvEntry)

theorem lastValue_cons :
    (TlvSet.mk (entry :: entries)).lastValue ty = ((TlvSet.mk entries).lastValue ty).or ((TlvSet.mk [entry]).lastValue ty) := by
  rw [TlvSet.lastValue, reverse_cons, List.find?_append, Option.map_or]
  rfl

theorem latestOf_cons (old : Option α) :
    latestOf ty decode (entry :: entries) old = latestOf ty decode entries (latestOf ty decode [entry] old) := by
  rw [latestOf, lastValue_cons, latestOf, latestOf]
  cases (TlvSet.mk entries).lastValue ty <;> rfl

theorem decodedOf_cons :
    decodedOf ty decode (entry :: entries) = decodedOf ty decode [entry] ++ decodedOf ty decode entries := by
  rw [decodedOf, decodedOf, decodedOf, ← filterMap_append, ← filter_append, singleton_append]

theorem collectedOf_cons (old : Option (List α)) :
    collectedOf ty decode (entry :: entries) old = collectedOf ty decode entries (collectedOf ty decode [entry] old) := by
  rw [collectedOf, decodedOf_cons ty decode entry entries, collectedOf, collectedOf]
  cases decodedOf ty decode [entry] with
  | nil => rfl
  | cons first rest =>
    cases decodedOf ty decode entries with
    | nil => simp
    | cons next more => simp

variable {ty} {entry : TlvEntry}

theorem latestOf_of_ne (h : entry.ty ≠ ty) (old : Option α) : latestOf ty decode [entry] old = old := by
  simp [latestOf, TlvSet.lastValue, h]

theorem collectedOf_of_ne (h : entry.ty ≠ ty) (old : Option (List α)) : collectedOf ty decode [entry] old = old := by
  simp [collectedOf, decodedOf, h]

end Lists

theorem bind_store_eq_ok {α : Type} {decode : Bytes → Except Error α} {form : Bytes → Prop} (hform : Accepts decode form)
    (value : Bytes) (store : Option α → NetDiagData) {out : NetDiagData} :
    (decode value >>= fun a => pure (store (some a))) = .ok out ↔ form value ∧ out = store (decode value).toOption := by
  rw [bind_ok, ← hform value]
  constructor
  · rintro ⟨a, ha, hout⟩
    refine ⟨⟨a, ha⟩, ?_⟩
    rw [ha]
    exact (pure_eq_ok.mp hout).symm
  · rintro ⟨⟨a, ha⟩, rfl⟩
    refine ⟨a, ha, ?_⟩
    rw [ha]
    rfl

theorem readEntry_eq_ok (out : NetDiagData) (entry : TlvEntry) (out' : NetDiagData) :
    out.readEntry entry = .ok out' ↔ WellFormed entry ∧ out' = updatedBy out [entry] := by
  obtain ⟨ty, value⟩ := entry
  by_cases extMacAddress : ty = DiagTlv.extMacAddress
  · subst extMacAddress
    exact bind_store_eq_ok accepts_any value fun a => { out with extMacAddr := a }
  by_cases macAddress : ty = DiagTlv.macAddress
  · subst macAddress
    exact bind_store_eq_ok (accepts_readU16 "MAC Address") value fun a => { out with macAddr := a }
  by_cases mode : ty = DiagTlv.mode
  · subst mode
    exact bind_store_eq_ok accepts_mode value fun a => { out with mode := a }
  by_cases timeout : ty = DiagTlv.timeout
  · subst timeout
    exact bind_store_eq_ok (accepts_readU32 "Timeout") value fun a => { out with timeout := a }
  by_cases connectivity : ty = DiagTlv.connectivity
  · subst connectivity
    exact bind_store_eq_ok accepts_connectivity value fun a => { out with connectivity := a }
  by_cases route64 : ty = DiagTlv.route64
  · subst route64
    exact bind_store_eq_ok exists_decodeRoute64_iff value fun a => { out with route64 := a }
  by_cases leaderData : ty = DiagTlv.leaderData
  · subst leaderData
    exact bind_store_eq_ok accepts_leaderData value fun a => { out with leaderData := a }
  by_cases networkData : ty = DiagTlv.networkData
  · subst networkData
    exact bind_store_eq_ok exists_decode_iff value fun a => { out with networkData := a }
  by_cases ipv6Addresses : ty = DiagTlv.ipv6Addresses
  · subst ipv6Addresses
    exact bind_store_eq_ok accepts_ipv6AddressList value fun a => { out with addresses := a }
  by_cases macCounters : ty = DiagTlv.macCounters
  · subst macCounters
    exact bind_store_eq_ok accepts_macCounters value fun a => { out with macCounters := a }
  by_cases batteryLevel : ty = DiagTlv.batteryLevel
  · subst batteryLevel
    exact bind_store_eq_ok (accepts_readU8 "Battery Level") value fun a => { out with batteryLevel := a }
  by_cases supplyVoltage : ty = DiagTlv.supplyVoltage
  · subst supplyVoltage
    exact bind_store_eq_ok (accepts_readU16 "Supply Voltage") value fun a => { out with supplyVoltage := a }
  by_cases childTable : ty = DiagTlv.childTable
  · subst childTable
    exact bind_store_eq_ok accepts_childTable value fun a => { out with childTable := a }
  by_cases channelPages : ty = DiagTlv.channelPages
  · subst channelPages
    exact bind_store_eq_ok accepts_any value fun a => { out with channelPages := a }
  by_cases typeList : ty = DiagTlv.typeList
  · subst typeList
    exact bind_store_eq_ok accepts_any value fun a => { out with typeList := a }
  by_cases eui64 : ty = DiagTlv.eui64
  · subst eui64
    have hread : out.readEntry ⟨DiagTlv.eui64, value⟩ = (decodeEui64 value >>= fun a => pure { out with eui64 := some a }) := by
      by_cases h : value.length = 8
      · rw [decodeEui64, dif_pos h]
        exact dif_pos h
      · rw [decodeEui64, dif_neg h]
        exact dif_neg h
    rw [hread]
    exact bind_store_eq_ok accepts_eui64 value fun a => { out with eui64 := a }
  by_cases childIpv6Addresses : ty = DiagTlv.childIpv6Addresses
  · subst childIpv6Addresses
    exact bind_store_eq_ok accepts_childIpv6Addresses value fun a =>
      { out with childIpv6Addresses :=
        if a.toList.isEmpty then out.childIpv6Addresses else some (out.childIpv6Addresses.getD [] ++ a.toList) }
  · simp only [NetDiagData.readEntry, WellFormed, updatedBy, latestOf_of_ne, collectedOf_of_ne, if_neg, Except.ok.injEq, true_and,
      ne_eq, not_false_eq_true, extMacAddress, macAddress, mode, timeout, connectivity, route64, leaderData, networkData, ipv6Addresses, macCounters,
      batteryLevel, supplyVoltage, childTable, channelPages, typeList, eui64, childIpv6Addresses]
    exact eq_comm

theorem foldl_updatedBy (entries : List TlvEntry) (out : NetDiagData) :
    entries.foldl (fun out entry => updatedBy out [entry]) out = updatedBy out entries := by
  induction entries generalizing out with
  | nil => rfl
  | cons entry entries ih =>
    rw [foldl_cons, ih]
    simp only [updatedBy, latestOf_cons _ _ entry entries, collectedOf_cons _ _ entry entries]

end Fields

section Answers

def known (entry : TlvEntry) : Bool :=
  entry.ty ∈ [DiagTlv.extMacAddress, DiagTlv.macAddress, DiagTlv.mode, DiagTlv.timeout, DiagTlv.connectivity, DiagTlv.route64,
    DiagTlv.leaderData, DiagTlv.networkData, DiagTlv.ipv6Addresses, DiagTlv.macCounters, DiagTlv.batteryLevel,
    DiagTlv.supplyVoltage, DiagTlv.childTable, DiagTlv.channelPages, DiagTlv.typeList, DiagTlv.eui64, DiagTlv.childIpv6Addresses]

theorem readEntry_of_unknown (out : NetDiagData) (entry : TlvEntry) (h : known entry = false) :
    out.readEntry entry = .ok out := by
  simp only [known, mem_cons, not_mem_nil, or_false, decide_eq_false_iff_not, not_or] at h
  simp only [NetDiagData.readEntry, h, if_false]

theorem decode_of_encode {tlvs : TlvSet} {bytes : Bytes} (h : tlvs.encode = .ok bytes) :
    NetDiagData.decode bytes = tlvs.entries.foldlM NetDiagData.readEntry {} := by
  obtain ⟨hle, rfl⟩ := encodeEntries_eq_ok h
  rw [NetDiagData.decode, TlvSet.parse_flatMap hle]
  rfl

theorem decode_eq_ok {tlvs : TlvSet} {bytes : Bytes} (h : tlvs.encode = .ok bytes) {data : NetDiagData} :
    NetDiagData.decode bytes = .ok data ↔ (∀ entry ∈ tlvs.entries, WellFormed entry) ∧ data = updatedBy {} tlvs.entries := by
  rw [decode_of_encode h, except_foldlM_eq_ok readEntry_eq_ok, foldl_updatedBy]

/-- A field is the decoding of the last entry of its type, and absent if there is none. -/
def LastOf {α : Type} (tlvs : TlvSet) (ty : UInt8) (decode : Bytes → Except Error α) (field : Option α) : Prop :=
  field.map Except.ok = (tlvs.lastValue ty).map decode

/-- A list is the decodings of all entries of its type, and absent if there is none. -/
def AllOf {α : Type} (tlvs : TlvSet) (ty : UInt8) (decode : Bytes → Except Error α) (field : Option (List α)) : Prop :=
  (field.getD []).map Except.ok = (tlvs.entries.filter (·.ty = ty)).map (fun entry => decode entry.value) ∧
    (field = none ↔ ∀ entry ∈ tlvs.entries, entry.ty ≠ ty)

/-- What the data says of the entries. -/
structure Summarises (tlvs : TlvSet) (data : NetDiagData) : Prop where
  extMacAddr : LastOf tlvs DiagTlv.extMacAddress .ok data.extMacAddr
  macAddr : LastOf tlvs DiagTlv.macAddress (Diagnostics.readU16 · "MAC Address") data.macAddr
  mode : LastOf tlvs DiagTlv.mode ModeData.decode data.mode
  timeout : LastOf tlvs DiagTlv.timeout (Diagnostics.readU32 · "Timeout") data.timeout
  connectivity : LastOf tlvs DiagTlv.connectivity decodeConnectivity data.connectivity
  route64 : LastOf tlvs DiagTlv.route64 decodeRoute64 data.route64
  leaderData : LastOf tlvs DiagTlv.leaderData decodeLeaderData data.leaderData
  networkData : LastOf tlvs DiagTlv.networkData NetworkData.decode data.networkData
  addresses : LastOf tlvs DiagTlv.ipv6Addresses decodeIpv6AddressList data.addresses
  macCounters : LastOf tlvs DiagTlv.macCounters decodeMacCounters data.macCounters
  batteryLevel : LastOf tlvs DiagTlv.batteryLevel (readU8 · "Battery Level") data.batteryLevel
  supplyVoltage : LastOf tlvs DiagTlv.supplyVoltage (Diagnostics.readU16 · "Supply Voltage") data.supplyVoltage
  childTable : LastOf tlvs DiagTlv.childTable decodeChildTable data.childTable
  channelPages : LastOf tlvs DiagTlv.channelPages .ok data.channelPages
  typeList : LastOf tlvs DiagTlv.typeList .ok data.typeList
  eui64 : LastOf tlvs DiagTlv.eui64 decodeEui64 data.eui64
  childIpv6Addresses : AllOf tlvs DiagTlv.childIpv6Addresses decodeChildIpv6Addresses data.childIpv6Addresses

section Fields

variable {α : Type} {tlvs : TlvSet} {ty : UInt8} {decode : Bytes → Except Error α} {form : Bytes → Prop}

theorem map_decodedOf {es : List TlvEntry} (h : ∀ entry ∈ es, entry.ty = ty → ∃ a, decode entry.value = .ok a) :
    (decodedOf ty decode es).map Except.ok = (es.filter (·.ty = ty)).map fun entry => decode entry.value := by
  induction es with
  | nil => rfl
  | cons entry es ih =>
    obtain ⟨hentry, hes⟩ := forall_mem_cons.mp h
    rw [decodedOf_cons, map_append, ih hes]
    by_cases hty : entry.ty = ty
    · obtain ⟨a, ha⟩ := hentry hty
      simp [decodedOf, hty, ha, Except.toOption]
    · simp [decodedOf, hty]

variable (hall : ∀ entry ∈ tlvs.entries, WellFormed entry) (hform : Accepts decode form)
  (hty : ∀ value, WellFormed ⟨ty, value⟩ → form value)

include hall hform hty

theorem decodes_of_wellFormed {entry : TlvEntry} (hmem : entry ∈ tlvs.entries) (heq : entry.ty = ty) :
    ∃ a, decode entry.value = .ok a := by
  obtain ⟨_, value⟩ := entry
  subst heq
  exact (hform value).mpr (hty value (hall _ hmem))

theorem lastOf_latestOf : LastOf tlvs ty decode (latestOf ty decode tlvs.entries none) := by
  rw [LastOf, latestOf]
  cases hlast : tlvs.lastValue ty with
  | none => rfl
  | some value =>
    rw [TlvSet.lastValue, Option.map_eq_some_iff] at hlast
    obtain ⟨entry, hfind, rfl⟩ := hlast
    have hmem := mem_reverse.mp (List.mem_of_find?_eq_some hfind)
    obtain ⟨a, ha⟩ := decodes_of_wellFormed hall hform hty hmem (by simpa using List.find?_some hfind)
    simp only [Option.elim_some, Option.map_some, ha]
    rfl

theorem allOf_collectedOf : AllOf tlvs ty decode (collectedOf ty decode tlvs.entries none) := by
  have hmap : (decodedOf ty decode tlvs.entries).map Except.ok = _ :=
    map_decodedOf fun _ hmem heq => decodes_of_wellFormed hall hform hty hmem heq
  have hnone : decodedOf ty decode tlvs.entries = [] ↔ ∀ entry ∈ tlvs.entries, entry.ty ≠ ty := by
    rw [← map_eq_nil_iff (f := Except.ok (ε := Error)), hmap, map_eq_nil_iff, filter_eq_nil_iff]
    simp
  by_cases hempty : decodedOf ty decode tlvs.entries = []
  · rw [hempty] at hmap
    refine ⟨?_, ?_⟩
    · rw [collectedOf, hempty]
      exact hmap
    · rw [collectedOf, hempty]
      exact iff_of_true rfl (hnone.mp hempty)
  · have hcollected : collectedOf ty decode tlvs.entries none = some (decodedOf ty decode tlvs.entries) :=
      if_neg (by simpa using hempty)
    rw [hcollected]
    exact ⟨hmap, iff_of_false (by simp) fun h => hempty (hnone.mpr h)⟩

end Fields

/-- An answer is read if each known entry is well formed, entries of unknown types
leave no trace, and the last entry of each type counts. -/
theorem last_diagnostic_entries_count (tlvs : TlvSet) (bytes : Bytes) (h : tlvs.encode = .ok bytes) :
    ((∃ data, NetDiagData.decode bytes = .ok data) ↔ ∀ entry ∈ tlvs.entries, WellFormed entry) ∧
      (∀ (tlvs' : TlvSet) (bytes' : Bytes), tlvs'.encode = .ok bytes' →
        tlvs'.entries.filter known = tlvs.entries.filter known → NetDiagData.decode bytes' = NetDiagData.decode bytes) ∧
      ∀ data, NetDiagData.decode bytes = .ok data → Summarises tlvs data := by
  refine ⟨⟨?_, fun hall => ⟨_, (decode_eq_ok h).mpr ⟨hall, rfl⟩⟩⟩, fun tlvs' bytes' h' hknown => ?_, fun data hdata => ?_⟩
  · rintro ⟨data, hdata⟩
    exact ((decode_eq_ok h).mp hdata).1
  · rw [decode_of_encode h, decode_of_encode h', ← except_foldlM_filter readEntry_of_unknown, hknown,
      except_foldlM_filter readEntry_of_unknown]
  · obtain ⟨hall, rfl⟩ := (decode_eq_ok h).mp hdata
    exact {
      extMacAddr := lastOf_latestOf hall accepts_any fun _ h => h
      macAddr := lastOf_latestOf hall (accepts_readU16 _) fun _ h => h
      mode := lastOf_latestOf hall accepts_mode fun _ h => h
      timeout := lastOf_latestOf hall (accepts_readU32 _) fun _ h => h
      connectivity := lastOf_latestOf hall accepts_connectivity fun _ h => h
      route64 := lastOf_latestOf hall exists_decodeRoute64_iff fun _ h => h
      leaderData := lastOf_latestOf hall accepts_leaderData fun _ h => h
      networkData := lastOf_latestOf hall exists_decode_iff fun _ h => h
      addresses := lastOf_latestOf hall accepts_ipv6AddressList fun _ h => h
      macCounters := lastOf_latestOf hall accepts_macCounters fun _ h => h
      batteryLevel := lastOf_latestOf hall (accepts_readU8 _) fun _ h => h
      supplyVoltage := lastOf_latestOf hall (accepts_readU16 _) fun _ h => h
      childTable := lastOf_latestOf hall accepts_childTable fun _ h => h
      channelPages := lastOf_latestOf hall accepts_any fun _ h => h
      typeList := lastOf_latestOf hall accepts_any fun _ h => h
      eui64 := lastOf_latestOf hall accepts_eui64 fun _ h => h
      childIpv6Addresses := allOf_collectedOf hall accepts_childIpv6Addresses fun _ h => h }

def twoModes : TlvSet := ⟨[⟨DiagTlv.mode, [0x0f]⟩, ⟨99, [1]⟩, ⟨DiagTlv.mode, [0]⟩]⟩

theorem last_diagnostic_entries_count_modes : ∃ data, NetDiagData.decode [2, 1, 0x0f, 99, 1, 1, 2, 1, 0] = .ok data ∧
    LastOf twoModes DiagTlv.mode ModeData.decode data.mode := by
  obtain ⟨haccepted, -, hsummary⟩ := last_diagnostic_entries_count twoModes [2, 1, 0x0f, 99, 1, 1, 2, 1, 0] rfl
  have hall : ∀ entry ∈ twoModes.entries, WellFormed entry :=
    forall_mem_cons.mpr ⟨rfl, forall_mem_cons.mpr ⟨trivial, forall_mem_singleton.mpr rfl⟩⟩
  obtain ⟨data, hdata⟩ := haccepted.mpr hall
  exact ⟨data, hdata, (hsummary data hdata).mode⟩

end Answers

end ThreadCommissioner.DiagnosticAnswers
