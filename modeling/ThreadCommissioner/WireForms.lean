import ThreadCommissioner.KeySchedule

namespace ThreadCommissioner.WireForms

open ByteStrings Computations Framing HandshakeMessages KeySchedule List Records

section Datagrams

theorem contentType_toByte {value : UInt8} {c : ContentType} (h : ContentType.tryFrom value = .ok c) : c.toByte = value := by
  unfold ContentType.tryFrom at h
  split at h <;> cases h <;> rfl

theorem recordHeader_encode_of_parse {bytes : Bytes} {hdr : RecordHeader} (h : RecordHeader.parse bytes = .ok hdr) :
    hdr.encode ++ bytes.drop recordHeaderLen = bytes := by
  rw [RecordHeader.parse] at h
  split at h
  · cases h
  · next hlen =>
    obtain ⟨ty, hcontent, h⟩ := bind_ok.mp h
    cases h
    rw [recordHeaderLen] at hlen
    have hnonempty : bytes ≠ [] := by
      rintro rfl
      exact hlen (by decide)
    have hsequence : beBytes 6 (UInt64.ofNat (beNat (fieldAt 5 6 bytes))).toNat = fieldAt 5 6 bytes := by
      have hlt : beNat (fieldAt 5 6 bytes) < 256 ^ 6 := beNat_fieldAt_lt (by omega)
      rw [UInt64.toNat_ofNat_of_lt' (hlt.trans (by decide)), beBytes_fieldAt (by omega)]
    change ty.toByte :: (beBytes 2 (UInt16.ofNat (beNat (fieldAt 1 2 bytes))).toNat ++
      (beBytes 2 (UInt16.ofNat (beNat (fieldAt 3 2 bytes))).toNat ++
        (beBytes 6 (UInt64.ofNat (beNat (fieldAt 5 6 bytes))).toNat ++
          beBytes 2 (UInt16.ofNat (beNat (fieldAt 11 2 bytes))).toNat))) ++ bytes.drop 13 = bytes
    rw [contentType_toByte hcontent, beBytes_fieldAt_uint16 (by omega), beBytes_fieldAt_uint16 (by omega), hsequence,
      beBytes_fieldAt_uint16 (by omega)]
    simp only [cons_append, append_assoc]
    rw [fieldAt_append 11 2, fieldAt_append 5 6, fieldAt_append 3 2, fieldAt_append 1 2, headD_cons_drop hnonempty]

theorem eq_bytes_of_parseNext {bytes rest : Bytes} {r : DtlsRecord}
    (h : DtlsRecord.parseNext bytes = .ok (r, rest)) : bytes = r.bytes ++ rest := by
  obtain ⟨hdr, hheader, h⟩ := bind_ok.mp h
  dsimp only at h
  split at h
  · cases h
  · cases h
    have hbytes := recordHeader_encode_of_parse hheader
    rw [DtlsRecord.bytes, append_assoc, drop_take, Nat.add_sub_cancel_left, ← drop_drop, take_append_drop, hbytes]

/-- Every list of records is read back from its encoding, every datagram that is
read is the encoding of its records, and so no datagram has two readings. -/
theorem datagram_framing_is_bijective :
    (∀ records : List DtlsRecord,
        (∀ record ∈ records, record.header.sequenceNumber.toNat < 2 ^ 48 ∧ record.header.length.toNat = record.payload.length) →
        ∃ encodings, records.mapM DtlsRecord.encode = .ok encodings ∧
          DtlsRecord.parseDatagram encodings.flatten = .ok records) ∧
      (∀ bytes records, DtlsRecord.parseDatagram bytes = .ok records →
        ∃ encodings, records.mapM DtlsRecord.encode = .ok encodings ∧ encodings.flatten = bytes) ∧
      ∀ (records records' : List DtlsRecord) (encodings encodings' : List Bytes),
        (∀ record ∈ records ++ records', record.header.sequenceNumber.toNat < 2 ^ 48 ∧
          record.header.length.toNat = record.payload.length) →
        records.mapM DtlsRecord.encode = .ok encodings → records'.mapM DtlsRecord.encode = .ok encodings' →
        encodings.flatten = encodings'.flatten → records = records' := by
  have hmapM : ∀ records : List DtlsRecord, (∀ record ∈ records, record.WellFormed) →
      records.mapM DtlsRecord.encode = .ok (records.map DtlsRecord.bytes) := fun records h =>
    except_mapM_of_ok fun record hmem => DtlsRecord.encode_of_length (h record hmem).1
  have hread : ∀ records : List DtlsRecord,
      (∀ record ∈ records, record.header.sequenceNumber.toNat < 2 ^ 48 ∧ record.header.length.toNat = record.payload.length) →
        ∃ encodings, records.mapM DtlsRecord.encode = .ok encodings ∧
          DtlsRecord.parseDatagram encodings.flatten = .ok records := by
    intro records h
    have hwell : ∀ record ∈ records, record.WellFormed := fun record hmem => ⟨(h record hmem).2.symm, (h record hmem).1⟩
    exact ⟨_, hmapM records hwell, DtlsRecord.parseDatagram_flatMap hwell⟩
  refine ⟨hread, fun bytes records h => ?_, fun records records' encodings encodings' h hencodings hencodings' heq => ?_⟩
  · have hwell := Framer.forall_of_all DtlsRecord.wellFormed_of_parseNext h
    exact ⟨_, hmapM records hwell, (Framer.eq_flatMap eq_bytes_of_parseNext h).symm⟩
  · obtain ⟨hleft, hright⟩ := forall_mem_append.mp h
    obtain ⟨_, hmapM, hparse⟩ := hread records hleft
    obtain ⟨_, hmapM', hparse'⟩ := hread records' hright
    cases hmapM.symm.trans hencodings
    cases hmapM'.symm.trans hencodings'
    rw [heq, hparse'] at hparse
    exact (Except.ok.inj hparse).symm

/-- A record with an empty payload, and one with the largest sequence number. -/
def exampleRecords : List DtlsRecord :=
  [⟨⟨.alert, dtls12Version, 0, 0, 0⟩, []⟩, ⟨⟨.handshake, dtls12Version, 1, 0xffffffffffff, 2⟩, [5, 6]⟩]

theorem datagram_framing_is_bijective_example : ∃ encodings, exampleRecords.mapM DtlsRecord.encode = .ok encodings ∧
    DtlsRecord.parseDatagram encodings.flatten = .ok exampleRecords :=
  datagram_framing_is_bijective.1 exampleRecords (by decide)

end Datagrams

section Messages

theorem handshakeType_toByte {value : UInt8} {t : HandshakeType} (h : HandshakeType.tryFrom value = .ok t) :
    t.toByte = value := by
  unfold HandshakeType.tryFrom at h
  split at h <;> cases h <;> rfl

variable {bytes : Bytes} {ms : List HandshakeMessage}

theorem fields_of_parse {hdr : HandshakeHeader} (h : HandshakeHeader.parse bytes = .ok hdr) :
    handshakeHeaderLen ≤ bytes.length ∧ hdr.messageType.toByte = bytes.headD 0 ∧
      beBytes 3 hdr.length = fieldAt 1 3 bytes ∧ beBytes 2 hdr.messageSeq.toNat = fieldAt 4 2 bytes ∧
      beBytes 3 hdr.fragmentOffset = fieldAt 6 3 bytes ∧ beBytes 3 hdr.fragmentLength = fieldAt 9 3 bytes ∧
      hdr.length ≤ maxU24 := by
  rw [HandshakeHeader.parse] at h
  split at h
  · cases h
  · next hlen =>
    obtain ⟨messageType, htype, h⟩ := bind_ok.mp h
    obtain ⟨_, -, h⟩ := bind_ok.mp h
    cases h
    rw [handshakeHeaderLen] at hlen
    have hlt : beNat (fieldAt 1 3 bytes) < 256 ^ 3 := beNat_fieldAt_lt (by omega)
    exact ⟨Nat.not_lt.mp hlen, handshakeType_toByte htype, beBytes_fieldAt (by omega), beBytes_fieldAt_uint16 (by omega),
      beBytes_fieldAt (by omega), beBytes_fieldAt (by omega), Nat.le_of_lt_succ hlt⟩

theorem eq_bytes_of_parseFragment {f : HandshakeFragment} (h : HandshakeFragment.parse bytes = .ok f) :
    f.header.length ≤ maxU24 ∧
      bytes = f.header.messageType.toByte :: (beBytes 3 f.header.length ++ (beBytes 2 f.header.messageSeq.toNat ++
        (beBytes 3 f.header.fragmentOffset ++ (beBytes 3 f.header.fragmentLength ++
          (f.fragment ++ bytes.drop (handshakeHeaderLen + f.fragment.length)))))) := by
  have hlen := (HandshakeFragment.length_of_parse h).1
  obtain ⟨hdr, hheader, h⟩ := bind_ok.mp h
  dsimp only at h
  split at h
  · cases h
  · cases h
    obtain ⟨hheaderLen, htype, htotal, hseq, hoffset, hpart, hfits⟩ := fields_of_parse hheader
    have hnonempty : bytes ≠ [] := by
      rintro rfl
      exact absurd hheaderLen (by decide)
    have hdrop : (bytes.take (handshakeHeaderLen + hdr.fragmentLength)).drop handshakeHeaderLen ++
        bytes.drop (handshakeHeaderLen + hdr.fragmentLength) = bytes.drop 12 := by
      rw [drop_take, Nat.add_sub_cancel_left, ← drop_drop, take_append_drop]
      rfl
    refine ⟨hfits, ?_⟩
    rw [hlen, hdrop]
    dsimp only
    rw [htype, htotal, hseq, hoffset, hpart, fieldAt_append 9 3, fieldAt_append 6 3, fieldAt_append 4 2, fieldAt_append 1 3,
      headD_cons_drop hnonempty]

theorem eq_bytes_of_parseMessage {rest : Bytes} {m : HandshakeMessage}
    (h : HandshakeMessage.parseNext bytes = .ok (m, rest)) : m.Fits ∧ bytes = m.bytes ++ rest := by
  obtain ⟨frag, hfragment, h⟩ := bind_ok.mp h
  have hlen := (HandshakeFragment.length_of_parse hfragment).1
  obtain ⟨hfits, hbytes⟩ := eq_bytes_of_parseFragment hfragment
  split at h
  · cases h
  · next hwhole =>
    cases h
    have hwhole : frag.header.fragmentOffset = 0 ∧ frag.header.fragmentLength = frag.header.length := by
      simpa [HandshakeFragment.isWhole] using hwhole
    rw [hwhole.2] at hlen
    refine ⟨hlen.trans_le hfits, hbytes.trans ?_⟩
    rw [hwhole.1, hwhole.2, ← hlen]
    simp [HandshakeMessage.bytes, HandshakeFragment.message]

theorem message_encode_eq_ok {m : HandshakeMessage} : m.encode = .ok bytes ↔ m.Fits ∧ bytes = m.bytes := by
  by_cases h : m.Fits
  · rw [HandshakeMessage.encode_of_fits h, Except.ok.injEq]
    exact ⟨fun heq => ⟨h, heq.symm⟩, fun heq => heq.2.symm⟩
  · have hfragment : ∃ e, m.fragment (max m.payload.length 1) = .error e := by
      rw [HandshakeMessage.fragment, if_neg (by omega), if_pos (Nat.not_le.mp h)]
      exact ⟨_, rfl⟩
    obtain ⟨e, hfragment⟩ := hfragment
    refine ⟨fun henc => ?_, fun hfits => absurd hfits.1 h⟩
    rw [HandshakeMessage.encode, hfragment] at henc
    cases henc

theorem mapM_encode_eq_ok {encodings : List Bytes} (h : ms.mapM HandshakeMessage.encode = .ok encodings) :
    (∀ m ∈ ms, m.Fits) ∧ encodings = ms.map HandshakeMessage.bytes := by
  induction ms generalizing encodings with
  | nil =>
    cases h
    exact ⟨forall_mem_nil _, rfl⟩
  | cons m ms ih =>
    rw [mapM_cons] at h
    obtain ⟨first, hfirst, h⟩ := bind_ok.mp h
    obtain ⟨rest, hrest, h⟩ := bind_ok.mp h
    obtain ⟨hm, rfl⟩ := message_encode_eq_ok.mp hfirst
    obtain ⟨hms, rfl⟩ := ih hrest
    cases h
    exact ⟨forall_mem_cons.mpr ⟨hm, hms⟩, rfl⟩

theorem foldlM_push (h : ∀ m ∈ ms, m.Fits) (transcript : HandshakeTranscript) :
    ms.foldlM HandshakeTranscript.push transcript = .ok ⟨transcript.bytes ++ ms.flatMap HandshakeMessage.bytes⟩ := by
  induction ms generalizing transcript with
  | nil => simp [pure, Except.pure]
  | cons m ms ih =>
    obtain ⟨hm, hms⟩ := forall_mem_cons.mp h
    rw [foldlM_cons, HandshakeTranscript.push_eq_ok.mpr ⟨hm, rfl⟩, ok_bind, ih hms, flatMap_cons, append_assoc]

theorem messages_of_parse {r : DtlsRecord} (h : parseUnfragmentedHandshakeMessages r = .ok ms) :
    (∀ m ∈ ms, m.Fits) ∧ r.payload = ms.flatMap HandshakeMessage.bytes := by
  rw [parseUnfragmentedHandshakeMessages] at h
  split at h
  · cases h
  · exact ⟨Framer.forall_of_all (fun hn => (eq_bytes_of_parseMessage hn).1) h,
      Framer.eq_flatMap (fun hn => (eq_bytes_of_parseMessage hn).2) h⟩

theorem transcript_of_records {rs : List DtlsRecord} {received : List (List HandshakeMessage)}
    (h : rs.mapM parseUnfragmentedHandshakeMessages = .ok received) : (∀ m ∈ received.flatten, m.Fits) ∧
      rs.flatMap DtlsRecord.payload = received.flatten.flatMap HandshakeMessage.bytes := by
  induction rs generalizing received with
  | nil =>
    cases h
    exact ⟨forall_mem_nil _, rfl⟩
  | cons record rs ih =>
    rw [mapM_cons] at h
    obtain ⟨ms, hms, h⟩ := bind_ok.mp h
    obtain ⟨rest, hrest, h⟩ := bind_ok.mp h
    obtain ⟨hfits, hpayload⟩ := messages_of_parse hms
    obtain ⟨hfits', hpayload'⟩ := ih hrest
    cases h
    rw [flatten_cons, flatMap_cons, flatMap_append, hpayload, hpayload']
    exact ⟨forall_mem_append.mpr ⟨hfits, hfits'⟩, rfl⟩

/-- A message has the same bytes on the wire and in the transcript; packed
messages are read back; and the transcript of what is received is what was sent,
however the messages are packed into records. -/
theorem wire_and_transcript_agree :
    (∀ (m : HandshakeMessage) (bytes : Bytes), m.encode = .ok bytes → m.transcriptBytes = .ok bytes) ∧
      (∀ (record : DtlsRecord) (messages : List HandshakeMessage) (encodings : List Bytes),
        record.header.contentType = .handshake → messages.mapM HandshakeMessage.encode = .ok encodings →
        record.payload = encodings.flatten → parseUnfragmentedHandshakeMessages record = .ok messages) ∧
      (∀ (record : DtlsRecord) (messages : List HandshakeMessage),
        parseUnfragmentedHandshakeMessages record = .ok messages →
        messages.foldlM HandshakeTranscript.push .new = .ok ⟨record.payload⟩) ∧
      ∀ (records : List DtlsRecord) (received : List (List HandshakeMessage)),
        records.mapM parseUnfragmentedHandshakeMessages = .ok received →
        received.flatten.foldlM HandshakeTranscript.push .new = .ok ⟨records.flatMap DtlsRecord.payload⟩ := by
  refine ⟨fun m bytes h => ?_, fun record messages encodings htype hencodings hpayload => ?_,
    fun record messages h => ?_, fun records received h => ?_⟩
  · exact HandshakeMessage.transcriptBytes_eq_ok.mpr (message_encode_eq_ok.mp h)
  · obtain ⟨hfits, rfl⟩ := mapM_encode_eq_ok hencodings
    rw [parseUnfragmentedHandshakeMessages, if_neg (not_not.mpr htype), hpayload]
    exact HandshakeMessage.parse_flatMap hfits
  · obtain ⟨hfits, hpayload⟩ := messages_of_parse h
    rw [foldlM_push hfits, hpayload]
    rfl
  · obtain ⟨hfits, hpayload⟩ := transcript_of_records h
    rw [foldlM_push hfits, hpayload]
    rfl

def exampleMessages : List HandshakeMessage := [⟨.serverHelloDone, 3, []⟩, ⟨.finished, 4, [1, 2]⟩]

theorem wire_and_transcript_agree_example : ∃ record encodings,
    exampleMessages.mapM HandshakeMessage.encode = .ok encodings ∧ record.payload = encodings.flatten ∧
      parseUnfragmentedHandshakeMessages record = .ok exampleMessages ∧
      exampleMessages.foldlM HandshakeTranscript.push .new = .ok ⟨encodings.flatten⟩ := by
  have hfits : ∀ m ∈ exampleMessages, m.payload.length ≤ maxU24 := by decide
  have hencodings : exampleMessages.mapM HandshakeMessage.encode = .ok (exampleMessages.map HandshakeMessage.bytes) :=
    except_mapM_of_ok fun m hmem => HandshakeMessage.encode_of_fits (hfits m hmem)
  obtain ⟨-, hparse, hpush, -⟩ := wire_and_transcript_agree
  have hparsed := hparse ⟨⟨.handshake, dtls12Version, 0, 0, 26⟩, _⟩ _ _ rfl hencodings rfl
  exact ⟨_, _, hencodings, rfl, hparsed, hpush _ _ hparsed⟩

end Messages

end ThreadCommissioner.WireForms
