import ThreadCommissioner.Builders
import ThreadCommissioner.CoapLaws

namespace ThreadCommissioner.Encapsulation

open Builders ByteStrings Coap CoapCodec CoapLaws Computations Diagnostics Errors List Meshcop Notifications Texts Tlvs

section Carrying

/-- What the other end reads of `payload` when it is sent in `carrier` under
`uriPath`. -/
def carry (carrier : CoapMessage) (uriPath : Text) (payload : Bytes) : Except Error CoapMessage := do
  let message ← CoapMessage.setUriPath { carrier with payload } uriPath
  CoapMessage.decode (← message.encode)

def Fits (message : CoapMessage) : Prop :=
  message.token.length ≤ 8 ∧ ∀ option ∈ message.options, option.value.length ≤ 65535

theorem exists_carry {carrier : CoapMessage} (hfits : Fits carrier) (uriPath : Text)
    (hhead : uriPath.bytes.head? = some 0x2f)
    (hsegs : ∀ seg ∈ uriPath.bytes.tail.splitOn 0x2f, seg ≠ [] ∧ seg.length ≤ 65535) (payload : Bytes) :
    ∃ received, carry carrier uriPath payload = .ok received ∧ received.uriPath = .ok (some uriPath) ∧
      received.payload = payload := by
  have hpath : uriPath.bytes = 0x2f :: uriPath.bytes.tail := List.eq_cons_of_mem_head? hhead
  have hset := setUriPath_of_segments { carrier with payload } hpath fun hmem => (hsegs [] hmem).1 rfl
  rw [carry, hset, ok_bind]
  obtain ⟨-, wire, hwire⟩ | ⟨hunfit, -⟩ := encode_cases { carrier with
    payload
    options := carrier.options.filter (·.number ≠ coapOptionUriPath) ++
      (uriPath.bytes.tail.splitOn 0x2f).map (CoapOption.mk coapOptionUriPath) }
  · rw [hwire, ok_bind]
    exact ⟨_, decode_encode hwire, uriPath_sortedOptions { carrier with payload } hpath, rfl⟩
  · refine absurd ⟨hfits.1, fun option hoption => ?_⟩ hunfit
    rcases mem_append.mp hoption with hoption | hoption
    · exact hfits.2 option (mem_filter.mp hoption).1
    · obtain ⟨seg, hsegment, rfl⟩ := mem_map.mp hoption
      exact (hsegs seg hsegment).2

end Carrying

section Reading

def encapsulation (destinationPort : UInt16) (inner : Bytes) : Bytes :=
  beBytes 2 defaultMmPort.toNat ++ beBytes 2 destinationPort.toNat ++ inner

def udpEntries (destination : Ipv6Addr) (destinationPort : UInt16) (inner : Bytes) : List TlvEntry :=
  [⟨tlvIpv6Address, destination.toList⟩, ⟨tlvUdpEncapsulation, encapsulation destinationPort inner⟩]

variable {inner : Bytes}

theorem length_encapsulation_le (h : inner.length ≤ 65531) (dport : UInt16) :
    (encapsulation dport inner).length ≤ maxExtendedTlvLength := by
  have hmax : maxExtendedTlvLength = 65535 := rfl
  simp only [encapsulation, length_append, length_beBytes]
  omega

theorem udpEntries_short (h : inner.length ≤ 65531) (dest : Ipv6Addr) (dport : UInt16) :
    ∀ entry ∈ udpEntries dest dport inner, entry.value.length ≤ maxExtendedTlvLength := by
  intro entry hentry
  simp only [udpEntries, mem_cons, not_mem_nil, or_false] at hentry
  rcases hentry with rfl | rfl
  · exact dest.toList_length.le.trans (by decide)
  · exact length_encapsulation_le h dport

theorem readU16_beBytes (value : UInt16) : Tlvs.readU16 (beBytes 2 value.toNat) = .ok value := by
  rw [Tlvs.readU16, if_pos (length_beBytes _ _), beNat_beBytes_of_lt value.toNat_lt]
  simp

theorem vectorOf_toList {n : ℕ} (v : ByteVector n) : vectorOf n v.toList = some v := by
  rw [vectorOf, dif_pos v.toList_length]
  rfl

theorem lastValue_relayEntries (iid : ByteVector 8) (port loc : UInt16) (payload : Bytes)
    (kek : Option (ByteVector 16)) {ty : UInt8} (hne : ty ≠ tlvJoinerRouterKek) :
    TlvSet.lastValue ⟨relayEntries iid port loc payload kek⟩ ty =
      TlvSet.lastValue ⟨relayEntries iid port loc payload none⟩ ty := by
  cases kek with
  | none => rfl
  | some kek =>
    have hkek : [(⟨tlvJoinerRouterKek, kek.toList⟩ : TlvEntry)].filter (·.ty = ty) = [] := by
      simp [hne.symm]
    simp only [TlvSet.lastValue_eq_getLast, relayEntries, filter_append, Option.map_some, Option.map_none,
      Option.toList_some, Option.toList_none, filter_nil, hkek]

/-- The entries of a relayed payload are read back, whatever message they come
in, and the KEK after them changes nothing. -/
theorem parseNotification_relayEntries {m : CoapMessage} {payload : Bytes}
    (h : payload.length ≤ maxExtendedTlvLength) (iid : ByteVector 8) (port loc : UInt16)
    (kek : Option (ByteVector 16)) (huri : m.uriPath = .ok (some Uri.relayRx)) (hpayload : m.payload =
      (relayEntries iid port loc payload kek).flatMap TlvEntry.bytes) :
    parseNotification m = .ok (some (.relayRx port loc iid payload)) := by
  have hparse : TlvSet.parse m.payload = .ok ⟨relayEntries iid port loc payload kek⟩ := by
    rw [hpayload]
    exact TlvSet.parse_flatMap (relayEntries_short h _ _ _ _)
  have hiid : readArray8 iid.toList = .ok iid := by
    rw [readArray8, vectorOf_toList]
    rfl
  have hvalue : ∀ (ty : UInt8) (name : String) {value : Bytes}, ty ≠ tlvJoinerRouterKek →
      TlvSet.lastValue ⟨relayEntries iid port loc payload none⟩ ty = some value →
      requiredTlv ⟨relayEntries iid port loc payload kek⟩ ty name = .ok value := by
    intro ty name value hne hlast
    rw [requiredTlv, lastValue_relayEntries _ _ _ _ _ hne, hlast]
    rfl
  have hrelay : parseRelayRx m.payload = .ok (.relayRx port loc iid payload) := by
    refine bind_ok.mpr ⟨_, ofTlv_eq_ok.mpr hparse, ?_⟩
    refine bind_ok.mpr ⟨_, hvalue tlvJoinerUdpPort _ (by decide) rfl, ?_⟩
    refine bind_ok.mpr ⟨_, ofTlv_eq_ok.mpr (readU16_beBytes port), ?_⟩
    refine bind_ok.mpr ⟨_, hvalue tlvJoinerRouterLocator _ (by decide) rfl, ?_⟩
    refine bind_ok.mpr ⟨_, ofTlv_eq_ok.mpr (readU16_beBytes loc), ?_⟩
    refine bind_ok.mpr ⟨_, hvalue tlvJoinerIid _ (by decide) rfl, ?_⟩
    refine bind_ok.mpr ⟨_, hiid, ?_⟩
    exact bind_ok.mpr ⟨_, hvalue tlvJoinerDtlsEncapsulation _ (by decide) rfl, rfl⟩
  rw [parseNotification, huri, ok_bind]
  dsimp only
  rw [if_neg (by decide), if_neg (by decide), if_neg (by decide), if_neg (by decide), if_pos rfl, hrelay]
  rfl

theorem udpTxRequest_of_le (h : inner.length ≤ 65531) (mid : UInt16) (token : Bytes) (dest : Ipv6Addr) (dport : UInt16) :
    udpTxRequest mid token dest dport inner = .ok ⟨.nonConfirmable, .post, mid, token, pathOptions ["c", "ut"],
        (udpEntries dest dport inner).flatMap TlvEntry.bytes⟩ := by
  have haddress : dest.toList.length ≤ maxExtendedTlvLength := dest.toList_length.le.trans (by decide)
  have hencapsulation := length_encapsulation_le h dport
  rw [encapsulation] at hencapsulation
  rw [udpTxRequest, appendTlv_of_le haddress, ok_bind, appendTlv_of_le hencapsulation, ok_bind, postRequest_udpTx]
  simp [udpEntries, encapsulation]

theorem parseUdpRx_udpEntries {m : CoapMessage} (h : inner.length ≤ 65531)
    (dest : Ipv6Addr) (dport : UInt16) (huri : m.uriPath = .ok (some Uri.udpRx))
    (hpayload : m.payload = (udpEntries dest dport inner).flatMap TlvEntry.bytes) :
    parseUdpRx m = .ok (some ⟨dest, defaultMmPort, dport, inner⟩) := by
  have hparse : TlvSet.parse m.payload = .ok ⟨udpEntries dest dport inner⟩ := by
    rw [hpayload]
    exact TlvSet.parse_flatMap (udpEntries_short h dest dport)
  rw [parseUdpRx, huri, ok_bind, if_neg (by simp)]
  refine bind_ok.mpr ⟨_, ofTlv_eq_ok.mpr hparse, ?_⟩
  refine bind_ok.mpr ⟨dest.toList, rfl, ?_⟩
  refine bind_ok.mpr ⟨dest, okOr_eq_ok.mpr (vectorOf_toList dest), ?_⟩
  refine bind_ok.mpr ⟨encapsulation dport inner, rfl, ?_⟩
  change Except.ok (some (UdpRx.mk dest (.ofNat (beNat (beBytes 2 defaultMmPort.toNat)))
    (.ofNat (beNat (beBytes 2 dport.toNat))) inner)) = _
  rw [uint16_ofNat_beBytes, uint16_ofNat_beBytes]

end Reading

/-- What is sent to be forwarded or relayed is what the far end of the tunnel
reads, in whatever message it arrives there. -/
theorem encapsulation_is_transparent {carrier : CoapMessage} (hfits : Fits carrier) :
    (∀ (messageId : UInt16) (token : Bytes) (destination : Ipv6Addr) (destinationPort : UInt16) (inner : Bytes),
      inner.length ≤ 65531 →
      ∃ request received, udpTxRequest messageId token destination destinationPort inner = .ok request ∧
        carry carrier Uri.udpRx request.payload = .ok received ∧
        parseUdpRx received = .ok (some ⟨destination, defaultMmPort, destinationPort, inner⟩)) ∧
      ∀ (messageId : UInt16) (token : Bytes) (joinerIid : ByteVector 8) (joinerUdpPort joinerRouterLocator : UInt16)
        (payload : Bytes) (joinerRouterKek : Option (ByteVector 16)), payload.length ≤ 65535 →
      ∃ request received,
        relayTxRequestWithKek messageId token joinerIid.toList joinerUdpPort joinerRouterLocator payload joinerRouterKek =
          .ok request ∧
        carry carrier Uri.relayRx request.payload = .ok received ∧
        parseNotification received = .ok (some (.relayRx joinerUdpPort joinerRouterLocator joinerIid payload)) := by
  constructor
  · intro messageId token destination destinationPort inner hinner
    obtain ⟨received, hcarry, huri, hpayload⟩ := exists_carry hfits Uri.udpRx (by decide) (by decide)
      ((udpEntries destination destinationPort inner).flatMap TlvEntry.bytes)
    exact ⟨_, received, udpTxRequest_of_le hinner messageId token destination destinationPort, hcarry,
      parseUdpRx_udpEntries hinner destination destinationPort huri hpayload⟩
  · intro messageId token joinerIid joinerUdpPort joinerRouterLocator payload joinerRouterKek hlength
    obtain ⟨received, hcarry, huri, hpayload⟩ := exists_carry hfits Uri.relayRx (by decide) (by decide)
      ((relayEntries joinerIid joinerUdpPort joinerRouterLocator payload joinerRouterKek).flatMap TlvEntry.bytes)
    exact ⟨_, received, relayTxRequestWithKek_of_le hlength messageId token joinerIid joinerUdpPort joinerRouterLocator
      joinerRouterKek, hcarry, parseNotification_relayEntries hlength joinerIid joinerUdpPort joinerRouterLocator
      joinerRouterKek huri hpayload⟩

/-- A payload whose length does not fit one byte. -/
def longPayload : Bytes := (List.range 300).map UInt8.ofNat

theorem encapsulation_is_transparent_long : Fits ⟨.confirmable, .post, 7, [1], [], []⟩ ∧
    (∃ request received, udpTxRequest 0 [] (.replicate 16 0) 5683 longPayload = .ok request ∧
      carry ⟨.confirmable, .post, 7, [1], [], []⟩ Uri.udpRx request.payload = .ok received ∧
      parseUdpRx received = .ok (some ⟨.replicate 16 0, defaultMmPort, 5683, longPayload⟩)) ∧
    ∃ request received,
      relayTxRequestWithKek 0 [] (.replicate 8 2) 1000 0x0400 longPayload (some (.replicate 16 3)) = .ok request ∧
      carry ⟨.confirmable, .post, 7, [1], [], []⟩ Uri.relayRx request.payload = .ok received ∧
      parseNotification received = .ok (some (.relayRx 1000 0x0400 (.replicate 8 2) longPayload)) := by
  have hfits : Fits ⟨.confirmable, .post, 7, [1], [], []⟩ := ⟨by decide, by simp⟩
  have hlength : longPayload.length = 300 := by simp [longPayload]
  obtain ⟨hudp, hrelay⟩ := encapsulation_is_transparent hfits
  exact ⟨hfits, hudp 0 [] (.replicate 16 0) 5683 longPayload (by omega),
    hrelay 0 [] (.replicate 8 2) 1000 0x0400 longPayload (some (.replicate 16 3)) (by omega)⟩

end ThreadCommissioner.Encapsulation
