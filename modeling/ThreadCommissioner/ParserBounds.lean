import ThreadCommissioner.CheckedParsers
import ThreadCommissioner.CoapLaws
import ThreadCommissioner.HelloCodecs
import ThreadCommissioner.Reassembly
import ThreadCommissioner.WireForms

namespace ThreadCommissioner.ParserBounds

open BoundedAccess ByteStrings Coap Computations Diagnostics Errors Framing HandshakeMessages HelloCodecs Hellos List
open Reassembly Records Tlvs WireForms

section Entries

theorem length_of_parseOne {bytes rest : Bytes} {entry : TlvEntry} (h : parseOne bytes = .ok (entry, rest)) :
    entry.value.length + 1 + rest.length ≤ bytes.length := by
  unfold parseOne at h
  split at h
  · obtain ⟨⟨length, value⟩, hvalue, h⟩ := bind_ok.mp h
    obtain ⟨-, -, h⟩ := bind_ok.mp h
    cases h
    have hle := length_of_readLength hvalue
    simp only [length_take, length_drop, length_cons]
    omega
  · cases h

def TlvSet.sizes (tlvs : TlvSet) : List ℕ := tlvs.entries.map (·.value.length)

theorem tlvSet_confined : Confined CheckedParsers.TlvSet.parse TlvSet.parse TlvSet.sizes := by
  refine .of_sum CheckedParsers.TlvSet.parse_eq fun {bytes tlvs} h => ?_
  obtain ⟨es, hes, h⟩ := bind_ok.mp h
  cases h
  rw [TlvSet.sizes, map_map]
  exact Framer.sum_of_all length_of_parseOne hes

theorem length_of_decodeOption {last : UInt16} {first : UInt8} {afterHeader rest : Bytes} {option : CoapOption}
    (h : decodeOption last first afterHeader = .ok (option, rest)) :
    option.value.length + rest.length ≤ afterHeader.length := by
  obtain ⟨⟨delta, usedDelta⟩, -, h⟩ := bind_ok.mp h
  obtain ⟨⟨length, usedLen⟩, -, h⟩ := bind_ok.mp h
  obtain ⟨-, -, h⟩ := bind_ok.mp h
  obtain ⟨-, -, h⟩ := bind_ok.mp h
  cases h
  simp only [length_take, length_drop]
  omega

theorem length_of_decodeOptions {last : UInt16} {rest payload : Bytes} {opts : List CoapOption}
    (h : decodeOptions last rest = .ok (opts, payload)) :
    (opts.map fun option => option.value.length + 1).sum + payload.length ≤ rest.length := by
  fun_induction decodeOptions last rest generalizing opts payload with
  | case1 last =>
    cases h
    exact Nat.zero_le _
  | case2 last afterHeader =>
    cases h
    simp
  | case3 last first afterHeader hmarker e hoption => cases h
  | case4 last first afterHeader hmarker option rest hoption hle e hrest ih => cases h
  | case5 last first afterHeader hmarker option rest hoption hle options' payload' hrest ih =>
    cases h
    have htail := ih hrest
    have hhead := length_of_decodeOption hoption
    rw [map_cons, sum_cons, length_cons]
    omega

/-- The sizes of the token, of the payload and of the options of a message. -/
def CoapMessage.sizes (message : CoapMessage) : List ℕ :=
  message.token.length :: message.payload.length :: message.options.map (·.value.length)

theorem coapMessage_confined : Confined CheckedParsers.CoapMessage.decode CoapMessage.decode CoapMessage.sizes := by
  refine .of_sum CheckedParsers.CoapMessage.decode_eq fun {bytes m} h => ?_
  unfold CoapMessage.decode at h
  split at h
  · obtain ⟨-, -, h⟩ := bind_ok.mp h
    obtain ⟨_, htoken, h⟩ := bind_ok.mp h
    obtain ⟨ty, -, h⟩ := bind_ok.mp h
    obtain ⟨⟨opts, payload⟩, hopts, h⟩ := bind_ok.mp h
    cases h
    have hlen := length_of_decodeOptions hopts
    rw [ensure_eq_ok] at htoken
    simp only [CoapMessage.sizes, map_cons, sum_cons, length_take, length_cons, map_map]
    rw [length_drop] at hlen
    simp only [Function.comp_def]
    omega
  · cases h

def recordSizes (records : List DtlsRecord) : List ℕ := records.map (·.payload.length)

theorem datagram_confined : Confined CheckedParsers.DtlsRecord.parseDatagram DtlsRecord.parseDatagram recordSizes := by
  refine .of_sum CheckedParsers.DtlsRecord.parseDatagram_eq fun {bytes rs} h => ?_
  rw [recordSizes, map_map]
  refine Framer.sum_of_all (fun {bs r rest} hnext => ?_) h
  rw [eq_bytes_of_parseNext hnext, DtlsRecord.bytes]
  simp only [Function.comp_apply, length_append, RecordHeader.length_encode, recordHeaderLen]
  omega

def messageSizes (messages : List HandshakeMessage) : List ℕ := messages.map (·.payload.length)

theorem handshakeMessages_confined (hdr : RecordHeader) :
    Confined (fun payload => CheckedParsers.parseUnfragmentedHandshakeMessages ⟨hdr, payload⟩)
      (fun payload => parseUnfragmentedHandshakeMessages ⟨hdr, payload⟩) messageSizes := by
  refine .of_sum (fun payload => CheckedParsers.parseUnfragmentedHandshakeMessages_eq ⟨hdr, payload⟩)
    fun {payload ms} h => ?_
  rw [parseUnfragmentedHandshakeMessages] at h
  split at h
  · cases h
  · rw [messageSizes, map_map]
    refine Framer.sum_of_all (fun {bs m rest} hnext => ?_) h
    rw [(eq_bytes_of_parseMessage hnext).2]
    simp only [Function.comp_apply, length_append, HandshakeMessage.length_bytes, handshakeHeaderLen]
    omega

end Entries

section HelloMessages

theorem length_extensionBlock (exts : List TlsExtension) :
    (exts.map (·.data.length)).sum + exts.length + 2 ≤ (extensionBlock exts).length := by
  have hlen : (exts.flatMap TlsExtension.bytes).length = (exts.map (·.data.length)).sum + exts.length * 4 := by
    induction exts with
    | nil => rfl
    | cons extension exts ih =>
      rw [flatMap_cons, length_append, ih, map_cons, sum_cons, TlsExtension.bytes]
      simp only [length_append, length_cons, length_beBytes]
      omega
  rw [extensionBlock, length_append, length_beBytes, hlen]
  omega

theorem length_le_of_forms {bytes form : Bytes} {p : Prop} (h : bytes = form ∨ p) (homitted : p → form = bytes ++ [0, 0]) :
    form.length ≤ bytes.length + 2 := by
  rcases h with rfl | h
  · exact Nat.le_add_right _ _
  · rw [homitted h, length_append]
    rfl

/-- The sizes of the fields of variable length, of each suite and of each extension. -/
def clientHelloSizes (hello : ClientHello) : List ℕ :=
  hello.sessionId.length :: hello.cookie.length :: hello.compressionMethods.length ::
    (hello.cipherSuites.map (fun _ => 2) ++ hello.extensions.map (·.data.length))

theorem length_of_clientHello {bytes : Bytes} {hello : ClientHello} (h : ClientHello.decode bytes = .ok hello) :
    hello.sessionId.length + hello.cookie.length + hello.compressionMethods.length + hello.cipherSuites.length * 2 +
      (hello.extensions.map (·.data.length)).sum + hello.extensions.length + 3 ≤ bytes.length := by
  have hblock := length_extensionBlock hello.extensions
  have hlen := length_le_of_forms (clientHello_forms_of_decode h).2 ClientOmitted.bytes_eq
  simp only [ClientHello.bytes, length_append, length_cons, length_beBytes, length_cipherSuites] at hlen
  omega

theorem clientHello_confined : Confined CheckedParsers.ClientHello.decode ClientHello.decode clientHelloSizes where
  inRange := CheckedParsers.ClientHello.decode_eq
  count {bytes hello} h := by
    have hlen := length_of_clientHello h
    simp only [clientHelloSizes, length_cons, length_append, length_map]
    omega
  total {bytes hello} h := by
    have hlen := length_of_clientHello h
    simp only [clientHelloSizes, sum_cons, sum_append, map_const', sum_replicate, smul_eq_mul]
    omega

/-- The sizes of the session identifier and of each extension. -/
def serverHelloSizes (hello : ServerHello) : List ℕ := hello.sessionId.length :: hello.extensions.map (·.data.length)

theorem length_of_serverHello {bytes : Bytes} {hello : ServerHello} (h : ServerHello.decode bytes = .ok hello) :
    hello.sessionId.length + (hello.extensions.map (·.data.length)).sum + hello.extensions.length + 1 ≤ bytes.length := by
  have hblock := length_extensionBlock hello.extensions
  have hlen := length_le_of_forms (serverHello_forms_of_decode h).2 ServerOmitted.bytes_eq
  simp only [ServerHello.bytes, length_append, length_cons, length_beBytes] at hlen
  omega

theorem serverHello_confined : Confined CheckedParsers.ServerHello.decode ServerHello.decode serverHelloSizes where
  inRange := CheckedParsers.ServerHello.decode_eq
  count {bytes hello} h := by
    have hlen := length_of_serverHello h
    simp only [serverHelloSizes, length_cons, length_map]
    omega
  total {bytes hello} h := by
    have hlen := length_of_serverHello h
    rw [serverHelloSizes, sum_cons]
    omega

end HelloMessages

section NetworkDatas

theorem length_of_nextTlv {bytes rest : Bytes} {tlv : UInt8 × Bytes} (h : nextNetworkDataTlv bytes = .ok (tlv, rest)) :
    tlv.2.length + 1 + rest.length ≤ bytes.length := by
  unfold nextNetworkDataTlv at h
  split at h
  · split at h
    · cases h
    · cases h
      simp only [length_take, length_drop, length_cons]
      omega
  · cases h

def served (entry : PrefixEntry) : ℕ := entry.hasRoute.length + entry.borderRouters.length

/-- The entries of network data: its prefixes, and what each of them holds. -/
def entryCount (data : NetworkData) : ℕ := (data.prefixes.map fun entry => served entry + 1).sum

variable {value : Bytes}

theorem length_wholeEntries {α : Type} {size : ℕ} {name : String} {f : Bytes → α} {es : List α}
    (h : (do wholeEntries value size name; return (chunksExact size value).map f : Except Error (List α)) = .ok es) :
    es.length ≤ value.length := by
  obtain ⟨_, -, h⟩ := bind_ok.mp h
  cases h
  rw [length_map, chunksExact, length_map, length_range]
  exact Nat.div_le_self _ _

theorem served_of_prefixSubTlv {entry entry' : PrefixEntry} {tlv : UInt8 × Bytes}
    (h : prefixSubTlv entry tlv = .ok entry') : served entry' ≤ served entry + (tlv.2.length + 1) := by
  unfold prefixSubTlv at h
  split at h
  · obtain ⟨routes, hroutes, h⟩ := bind_ok.mp h
    cases h
    have hle := length_wholeEntries hroutes
    simp only [served, length_append]
    omega
  · split at h
    · obtain ⟨routers, hrouters, h⟩ := bind_ok.mp h
      cases h
      have hle := length_wholeEntries hrouters
      simp only [served, length_append]
      omega
    · split at h
      · obtain ⟨context, -, h⟩ := bind_ok.mp h
        cases h
        exact Nat.le_add_right _ _
      · cases h
        exact Nat.le_add_right _ _

theorem served_of_decodePrefixEntry {entry : PrefixEntry} (h : decodePrefixEntry value = .ok entry) :
    served entry ≤ value.length := by
  unfold decodePrefixEntry at h
  split at h
  · dsimp only at h
    split at h
    · cases h
    · have hle := Framer.fold_le (F := networkDataTlvs) length_of_nextTlv served_of_prefixSubTlv h
      simp only [served, length_nil, length_drop, length_cons] at hle ⊢
      omega
  · cases h

theorem entryCount_of_decode {data : NetworkData} (h : NetworkData.decode value = .ok data) :
    entryCount data ≤ value.length := by
  obtain ⟨prefixes, hprefixes, h⟩ := bind_ok.mp h
  cases h
  have hle := Framer.fold_le (F := networkDataTlvs) (μ := fun prefixes => (prefixes.map fun entry => served entry + 1).sum)
    length_of_nextTlv (fun {prefixes tlv prefixes'} hstep => ?_) hprefixes
  · rwa [map_nil, sum_nil, Nat.zero_add] at hle
  · split at hstep
    · obtain ⟨entry, hentry, hstep⟩ := bind_ok.mp hstep
      cases hstep
      have hserved := served_of_decodePrefixEntry hentry
      simp only [map_append, map_cons, map_nil, sum_append, sum_cons, sum_nil]
      omega
    · cases hstep
      exact Nat.le_add_right _ _

end NetworkDatas

section Reassemblies

variable {r : HandshakeReassembler}

theorem length_push (hr : Coherent r) (hle : r.bytes.length ≤ maxHandshakeMessageLen) (f : HandshakeFragment) :
    (finalState ((push f).run r)).bytes.length ≤ maxHandshakeMessageLen := by
  rcases hr with rfl | ⟨messageType, messageSeq, n, hr⟩
  · by_cases hlen : f.header.length ≤ maxHandshakeMessageLen
    · rw [push_default hlen]
      exact ((identified_initialized f.header).push f).sized.1.trans_le hlen
    · have hpush : (push f).run .default = .error (exceedsLimit f.header.length) .default :=
        bind_of_error (initializeOrValidate_tooLong (Nat.not_le.mp hlen))
      rw [hpush]
      exact Nat.zero_le _
  · rw [(hr.push f).sized.1, ← hr.sized.1]
    exact hle

theorem length_after (hr : Coherent r) (hle : r.bytes.length ≤ maxHandshakeMessageLen)
    (frags : List HandshakeFragment) : (r.after frags).bytes.length ≤ maxHandshakeMessageLen := by
  induction frags generalizing r with
  | nil => exact hle
  | cons f frags ih => exact ih (hr.push f) (length_push hr hle f)

end Reassemblies

section Parsers

theorem option_shrinks {last : UInt16} {first : UInt8} {afterHeader rest : Bytes} {option : CoapOption}
    (h : CheckedParsers.decodeOption last first afterHeader = safe (.ok (option, rest))) :
    rest.length < (first :: afterHeader).length := by
  rw [CheckedParsers.decodeOption_eq] at h
  have hlen := length_of_decodeOption (Option.some.inj h)
  rw [length_cons]
  omega

/-- No parser reaches out of its buffer, stands still in a loop, or makes more
of the buffer than it holds, and no fragments make a reassembler grow past its
limit. -/
theorem parsers_are_confined :
    (Confined CheckedParsers.TlvSet.parse TlvSet.parse TlvSet.sizes ∧
      Confined CheckedParsers.CoapMessage.decode CoapMessage.decode CoapMessage.sizes ∧
      Confined CheckedParsers.DtlsRecord.parseDatagram DtlsRecord.parseDatagram recordSizes ∧
      (∀ header : RecordHeader, Confined
        (fun payload => CheckedParsers.parseUnfragmentedHandshakeMessages ⟨header, payload⟩)
        (fun payload => parseUnfragmentedHandshakeMessages ⟨header, payload⟩) messageSizes) ∧
      Confined CheckedParsers.ClientHello.decode ClientHello.decode clientHelloSizes ∧
      Confined CheckedParsers.ServerHello.decode ServerHello.decode serverHelloSizes) ∧
    (Consumes CheckedParsers.parseOne ∧
      (∀ lastNumber first afterHeader option rest,
        CheckedParsers.decodeOption lastNumber first afterHeader = safe (.ok (option, rest)) →
          rest.length < (first :: afterHeader).length) ∧
      Consumes CheckedParsers.DtlsRecord.parseNext ∧ Consumes CheckedParsers.HandshakeMessage.parseNext ∧
      (∀ c : Cursor, c.InRange → ∀ extension c', CheckedParsers.readExtension.run c = safe (.ok (extension, c')) →
        c'.rest.length < c.rest.length) ∧
      Consumes CheckedParsers.nextNetworkDataTlv) ∧
    (∀ value, CheckedParsers.NetworkData.decode value = safe (NetworkData.decode value) ∧
      ∀ data, NetworkData.decode value = .ok data → entryCount data ≤ value.length) ∧
    ∀ fragments, (HandshakeReassembler.default.after fragments).bytes.length ≤ 65536 := by
  refine ⟨⟨tlvSet_confined, coapMessage_confined, datagram_confined, handshakeMessages_confined, clientHello_confined,
    serverHello_confined⟩, ⟨?_, ?_, ?_, ?_, ?_, ?_⟩, fun value => ⟨?_, ?_⟩, ?_⟩
  · exact consumes_of_framer (F := tlvFramer) CheckedParsers.parseOne_eq
  · exact fun _ _ _ _ _ => option_shrinks
  · exact consumes_of_framer (F := recordFramer) CheckedParsers.DtlsRecord.parseNext_eq
  · exact consumes_of_framer (F := messageFramer) CheckedParsers.HandshakeMessage.parseNext_eq
  · exact fun c hc _ _ =>
      CheckedParsers.tracks_readExtension.rest_lt (F := extensionFramer) (fun _ => rfl) hc
  · exact consumes_of_framer (F := networkDataTlvs) CheckedParsers.nextNetworkDataTlv_eq
  · exact CheckedParsers.NetworkData.decode_eq value
  · exact fun _ => entryCount_of_decode
  · exact length_after (.inl rfl) (Nat.zero_le _)

/-- A TLV, an option, an extension and a prefix, each alone in its buffer. -/
theorem parsers_are_confined_single :
    (TlvSet.parse [1, 1, 0xaa] = .ok ⟨[⟨1, [0xaa]⟩]⟩ ∧ (TlvSet.sizes ⟨[⟨1, [0xaa]⟩]⟩).sum ≤ 3) ∧
      (CheckedParsers.decodeOption 0 1 [0xaa] = safe (.ok (⟨0, [0xaa]⟩, [])) ∧ 0 < 2) ∧
      (CheckedParsers.readExtension.run (.new [0, 1, 0, 0]) = safe (.ok (⟨1, []⟩, ⟨[0, 1, 0, 0], 4⟩)) ∧ 0 < 4) ∧
      ∃ data, NetworkData.decode [3, 2, 0, 0] = .ok data ∧ data.prefixes.length = 1 ∧ entryCount data ≤ 4 := by
  have htlv : TlvSet.parse [1, 1, 0xaa] = .ok ⟨[⟨1, [0xaa]⟩]⟩ := by
    rw [TlvSet.parse, (Framer.all_of_next (cons_ne_nil _ _) rfl).mpr tlvFramer.all_nil]
    rfl
  have hoption : CheckedParsers.decodeOption 0 1 [0xaa] = safe (.ok (⟨0, [0xaa]⟩, [])) := rfl
  have hextension : CheckedParsers.readExtension.run (.new [0, 1, 0, 0]) = safe (.ok (⟨1, []⟩, ⟨[0, 1, 0, 0], 4⟩)) := rfl
  have hnext : networkDataTlvs.next [3, 2, 0, 0] = .ok ((networkDataPrefix, [0, 0]), []) := rfl
  have hentry : decodePrefixEntry [0, 0] = .ok ⟨0, 0, [], none, [], []⟩ := by
    change networkDataTlvs.fold prefixSubTlv _ [] = _
    rw [Framer.fold]
    rfl
  have hdata : NetworkData.decode [3, 2, 0, 0] = .ok ⟨[⟨0, 0, [], none, [], []⟩]⟩ := by
    rw [NetworkData.decode, Framer.fold_of_next (cons_ne_nil _ _) hnext, if_pos rfl, hentry, ok_bind,
      pure_bind, Framer.fold]
    rfl
  obtain ⟨⟨htlvs, -⟩, ⟨-, hoptions, -, -, hextensions, -⟩, hnetwork, -⟩ := parsers_are_confined
  exact ⟨⟨htlv, htlvs.total htlv⟩, ⟨hoption, hoptions _ _ _ _ _ hoption⟩,
    ⟨hextension, hextensions _ (Nat.zero_le _) _ _ hextension⟩, _, hdata, rfl, (hnetwork _).2 _ hdata⟩

end Parsers

end ThreadCommissioner.ParserBounds
