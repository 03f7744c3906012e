import ThreadCommissioner.Notifications

namespace ThreadCommissioner.Builders

open ByteStrings Coap Computations Diagnostics Errors List Meshcop Tlvs

def appendTlv (out : Bytes) (ty : UInt8) (value : Bytes) : Except Error Bytes := do
  return out ++ (← ofTlv (TlvEntry.encode ⟨ty, value⟩))

def appendU16 (out : Bytes) (ty : UInt8) (value : UInt16) : Except Error Bytes :=
  appendTlv out ty (beBytes 2 value.toNat)

def relayTxRequestWithKek (messageId : UInt16) (token joinerIid : Bytes) (joinerUdpPort joinerRouterLocator : UInt16)
    (payload : Bytes) (joinerRouterKek : Option (ByteVector 16)) : Except Error CoapMessage := do
  ensure (joinerIid.length = 8) (Error.dataset "joiner IID must be 8 bytes")
  let body ← appendU16 [] tlvJoinerUdpPort joinerUdpPort
  let body ← appendU16 body tlvJoinerRouterLocator joinerRouterLocator
  let body ← appendTlv body tlvJoinerIid joinerIid
  let body ← appendTlv body tlvJoinerDtlsEncapsulation payload
  let body ← match joinerRouterKek with
    | some kek => appendTlv body tlvJoinerRouterKek kek.toList
    | none => .ok body
  CoapMessage.postRequest .nonConfirmable messageId token Uri.relayTx body

def udpTxRequest (messageId : UInt16) (token : Bytes) (destination : Ipv6Addr) (destinationPort : UInt16)
    (inner : Bytes) : Except Error CoapMessage := do
  let encapsulation := beBytes 2 defaultMmPort.toNat ++ beBytes 2 destinationPort.toNat ++ inner
  let payload ← appendTlv [] tlvIpv6Address destination.toList
  let payload ← appendTlv payload tlvUdpEncapsulation encapsulation
  CoapMessage.postRequest .nonConfirmable messageId token Uri.udpTx payload

section Results

def pathOptions (segments : List String) : List CoapOption :=
  segments.map fun segment => ⟨coapOptionUriPath, ascii segment⟩

theorem postRequest_relayTx (ty : CoapType) (mid : UInt16) (token payload : Bytes) :
    CoapMessage.postRequest ty mid token Uri.relayTx payload =
      .ok ⟨ty, .post, mid, token, pathOptions ["c", "tx"], payload⟩ := by
  rfl

theorem postRequest_udpTx (ty : CoapType) (mid : UInt16) (token payload : Bytes) :
    CoapMessage.postRequest ty mid token Uri.udpTx payload =
      .ok ⟨ty, .post, mid, token, pathOptions ["c", "ut"], payload⟩ := by
  rfl

theorem exists_encode {m : CoapMessage} {opts : Bytes} (htoken : m.token.length ≤ 8)
    (hopts : encodeOptions 0 (sortedOptions m.options) = .ok opts) : ∃ wire, m.encode = .ok wire := by
  rw [CoapMessage.encode, ensure_true htoken, hopts]
  exact ⟨_, rfl⟩

theorem encodeOptions_relayTx : ∃ options, encodeOptions 0 (sortedOptions (pathOptions ["c", "tx"])) = .ok options :=
  ⟨[0xb1, 0x63, 0x02, 0x74, 0x78], by decide +kernel⟩

theorem encodeOptions_udpTx : ∃ options, encodeOptions 0 (sortedOptions (pathOptions ["c", "ut"])) = .ok options :=
  ⟨[0xb1, 0x63, 0x02, 0x75, 0x74], by decide +kernel⟩

theorem appendTlv_of_le {value : Bytes} (h : value.length ≤ maxExtendedTlvLength) (out : Bytes) (ty : UInt8) :
    appendTlv out ty value = .ok (out ++ TlvEntry.bytes ⟨ty, value⟩) := by
  rw [appendTlv, TlvEntry.encode_of_le h]
  rfl

theorem appendTlv_eq_ok {out bytes value : Bytes} {ty : UInt8} :
    appendTlv out ty value = .ok bytes ↔ value.length ≤ maxExtendedTlvLength ∧ bytes = out ++ TlvEntry.bytes ⟨ty, value⟩ := by
  by_cases h : value.length ≤ maxExtendedTlvLength
  · rw [appendTlv_of_le h]
    simp [h, eq_comm]
  · simp only [h, false_and, iff_false]
    intro happend
    obtain ⟨encoded, hencoded, -⟩ := bind_ok.mp happend
    exact h (TlvEntry.encode_eq_ok.mp (ofTlv_eq_ok.mp hencoded)).1

def relayEntries (joinerIid : ByteVector 8) (joinerUdpPort joinerRouterLocator : UInt16) (payload : Bytes)
    (joinerRouterKek : Option (ByteVector 16)) : List TlvEntry :=
  [⟨tlvJoinerUdpPort, beBytes 2 joinerUdpPort.toNat⟩, ⟨tlvJoinerRouterLocator, beBytes 2 joinerRouterLocator.toNat⟩,
    ⟨tlvJoinerIid, joinerIid.toList⟩, ⟨tlvJoinerDtlsEncapsulation, payload⟩] ++
    (joinerRouterKek.map fun kek => ⟨tlvJoinerRouterKek, kek.toList⟩).toList

def relayTx (messageId : UInt16) (token : Bytes) (joinerIid : ByteVector 8) (joinerUdpPort joinerRouterLocator : UInt16)
    (payload : Bytes) (joinerRouterKek : Option (ByteVector 16)) : CoapMessage where
  ty := .nonConfirmable
  code := .post
  messageId := messageId
  token := token
  options := pathOptions ["c", "tx"]
  payload := (relayEntries joinerIid joinerUdpPort joinerRouterLocator payload joinerRouterKek).flatMap TlvEntry.bytes

theorem uriPath_relayTx (mid : UInt16) (token : Bytes) (iid : ByteVector 8) (port loc : UInt16) (payload : Bytes)
    (kek : Option (ByteVector 16)) : (relayTx mid token iid port loc payload kek).uriPath = .ok (some Uri.relayTx) := by
  rfl

theorem encode_relayTx (mid : UInt16) {token : Bytes} (htoken : token.length ≤ 8) (iid : ByteVector 8)
    (port locator : UInt16) (payload : Bytes) (kek : Option (ByteVector 16)) :
    ∃ wire, (relayTx mid token iid port locator payload kek).encode = .ok wire := by
  obtain ⟨options, hoptions⟩ := encodeOptions_relayTx
  exact exists_encode htoken hoptions

variable {payload : Bytes} (h : payload.length ≤ maxExtendedTlvLength) (mid : UInt16) (token : Bytes)
  (iid : ByteVector 8) (port loc : UInt16) (kek : Option (ByteVector 16))

include h

theorem relayTxRequestWithKek_of_le : relayTxRequestWithKek mid token iid.toList port loc payload kek =
      .ok (relayTx mid token iid port loc payload kek) := by
  have hshort : ∀ {value : Bytes}, value.length ≤ 16 → value.length ≤ maxExtendedTlvLength := fun hle =>
    hle.trans (by decide)
  have hiid : iid.toList.length = 8 := iid.toList_length
  rw [relayTxRequestWithKek, ensure_true hiid]
  simp only [ok_bind, appendU16]
  rw [appendTlv_of_le (hshort (by simp)), ok_bind, appendTlv_of_le (hshort (by simp)), ok_bind,
    appendTlv_of_le (hshort (by rw [hiid]; decide)), ok_bind, appendTlv_of_le h, ok_bind]
  cases kek with
  | none =>
    simp only
    rw [postRequest_relayTx]
    simp [relayTx, relayEntries]
  | some kek =>
    simp only
    rw [appendTlv_of_le (hshort kek.toList_length.le), ok_bind, postRequest_relayTx]
    simp [relayTx, relayEntries]

theorem relayEntries_short : ∀ entry ∈ relayEntries iid port loc payload kek, entry.value.length ≤ maxExtendedTlvLength := by
  intro entry hentry
  rcases mem_append.mp hentry with hentry | hentry
  · simp only [mem_cons, not_mem_nil, or_false] at hentry
    rcases hentry with rfl | rfl | rfl | rfl
    · exact (length_beBytes _ _).le.trans (by decide)
    · exact (length_beBytes _ _).le.trans (by decide)
    · exact iid.toList_length.le.trans (by decide)
    · exact h
  · cases kek with
    | none => cases hentry
    | some kek =>
      rw [mem_singleton.mp hentry]
      exact kek.toList_length.le.trans (by decide)

theorem parse_relayTx : TlvSet.parse (relayTx mid token iid port loc payload kek).payload =
      .ok ⟨relayEntries iid port loc payload kek⟩ := TlvSet.parse_flatMap (relayEntries_short h iid port loc kek)

end Results

end ThreadCommissioner.Builders
