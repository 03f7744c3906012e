import ThreadCommissioner.Computations
import ThreadCommissioner.Errors
import ThreadCommissioner.Framing

namespace ThreadCommissioner.Records

open ByteStrings Computations Errors Framing List

inductive ContentType
  | changeCipherSpec
  | alert
  | handshake
  | applicationData
  deriving DecidableEq, Repr

def ContentType.toByte : ContentType → UInt8
  | .changeCipherSpec => 20
  | .alert => 21
  | .handshake => 22
  | .applicationData => 23

def ContentType.tryFrom (value : UInt8) : Except DtlsError ContentType :=
  match value with
  | 20 => .ok .changeCipherSpec
  | 21 => .ok .alert
  | 22 => .ok .handshake
  | 23 => .ok .applicationData
  | _ => .error (.crypto "unknown DTLS content type")

@[simp] theorem ContentType.tryFrom_toByte (c : ContentType) : ContentType.tryFrom c.toByte = .ok c := by
  cases c <;> rfl

theorem ContentType.toByte_injective {c d : ContentType} (h : c.toByte = d.toByte) : c = d := by
  cases c <;> cases d <;> first | rfl | cases h

def dtls12Version : UInt16 := 0xfefd

/-- The sequence number field holds any 64-bit value in memory; only its low
48 bits reach the wire. -/
structure RecordHeader where
  contentType : ContentType
  version : UInt16
  epoch : UInt16
  sequenceNumber : UInt64
  length : UInt16
  deriving DecidableEq, Repr

def recordHeaderLen : ℕ := 13

def RecordHeader.parse (bytes : Bytes) : Except DtlsError RecordHeader :=
  if bytes.length < recordHeaderLen then .error (.crypto "DTLS record header is truncated")
  else do
    let contentType ← ContentType.tryFrom (bytes.headD 0)
    return {
      contentType
      version := .ofNat (beNat ((bytes.drop 1).take 2))
      epoch := .ofNat (beNat ((bytes.drop 3).take 2))
      sequenceNumber := .ofNat (beNat ((bytes.drop 5).take 6))
      length := .ofNat (beNat ((bytes.drop 11).take 2)) }

def RecordHeader.encode (h : RecordHeader) : Bytes :=
  h.contentType.toByte :: (beBytes 2 h.version.toNat ++ (beBytes 2 h.epoch.toNat ++
    (beBytes 6 h.sequenceNumber.toNat ++ beBytes 2 h.length.toNat)))

def RecordHeader.aeadAdditionalData (h : RecordHeader) (plaintextLen : UInt16) : Bytes :=
  beBytes 2 h.epoch.toNat ++ (beBytes 6 h.sequenceNumber.toNat ++
    h.contentType.toByte :: (beBytes 2 h.version.toNat ++ beBytes 2 plaintextLen.toNat))

@[simp] theorem RecordHeader.length_encode (h : RecordHeader) : h.encode.length = recordHeaderLen := by
  simp [RecordHeader.encode, recordHeaderLen]

theorem RecordHeader.parse_encode (h : RecordHeader) (hs : h.sequenceNumber.toNat < 2 ^ 48)
    (rest : Bytes) : RecordHeader.parse (h.encode ++ rest) = .ok h := by
  have hl : ¬ (h.encode ++ rest).length < recordHeaderLen := by simp
  have hs' : h.sequenceNumber.toNat < 256 ^ 6 := hs
  rw [RecordHeader.parse, if_neg hl]
  simp [RecordHeader.encode, drop_append, drop_eq_nil_of_le, beNat_beBytes_of_lt hs', bind, Except.bind, pure, Except.pure]

theorem RecordHeader.sequenceNumber_of_parse {bytes : Bytes} {h : RecordHeader}
    (hp : RecordHeader.parse bytes = .ok h) : h.sequenceNumber.toNat < 2 ^ 48 := by
  rw [RecordHeader.parse] at hp
  split at hp
  · cases hp
  · obtain ⟨ty, -, hp⟩ := bind_ok.mp hp
    cases hp
    have hlt := beNat_lt ((bytes.drop 5).take 6)
    have hle : 256 ^ ((bytes.drop 5).take 6).length ≤ 256 ^ 6 := Nat.pow_le_pow_right (by decide) (length_take_le _ _)
    rw [UInt64.toNat_ofNat']
    exact (Nat.mod_le _ _).trans_lt (hlt.trans_le hle)

theorem RecordHeader.aeadAdditionalData_inj {h h' : RecordHeader} {n n' : UInt16}
    (hs : h.sequenceNumber.toNat < 2 ^ 48) (hs' : h'.sequenceNumber.toNat < 2 ^ 48)
    (heq : h.aeadAdditionalData n = h'.aeadAdditionalData n') :
    h.contentType = h'.contentType ∧ h.version = h'.version ∧ h.epoch = h'.epoch ∧ h.sequenceNumber = h'.sequenceNumber := by
  obtain ⟨hepoch, heq⟩ := append_inj heq (by simp)
  obtain ⟨hseq, heq⟩ := append_inj heq (by simp)
  obtain ⟨htype, heq⟩ := List.cons.inj heq
  obtain ⟨hversion, -⟩ := append_inj heq (by simp)
  rw [beBytes_inj (UInt16.toNat_lt _) (UInt16.toNat_lt _), UInt16.toNat_inj] at hepoch hversion
  rw [beBytes_inj hs hs', UInt64.toNat_inj] at hseq
  exact ⟨ContentType.toByte_injective htype, hversion, hepoch, hseq⟩

structure DtlsRecord where
  header : RecordHeader
  payload : Bytes
  deriving DecidableEq, Repr

def DtlsRecord.new (contentType : ContentType) (epoch : UInt16) (sequenceNumber : UInt64)
    (payload : Bytes) : Except DtlsError DtlsRecord :=
  if 65535 < payload.length then .error (.crypto "DTLS record payload is too long")
  else .ok {
    header := { contentType, version := dtls12Version, epoch, sequenceNumber, length := .ofNat payload.length }
    payload }

def DtlsRecord.encode (record : DtlsRecord) : Except DtlsError Bytes :=
  if record.payload.length ≠ record.header.length.toNat then
    .error (.crypto "DTLS record header length does not match payload")
  else .ok (record.header.encode ++ record.payload)

/-- One turn of the loop of `parse_datagram`. The length sum cannot overflow,
so its check leaves no trace here. -/
def DtlsRecord.parseNext (bytes : Bytes) : Except DtlsError (DtlsRecord × Bytes) := do
  let header ← RecordHeader.parse bytes
  let finish := recordHeaderLen + header.length.toNat
  if bytes.length < finish then .error (.crypto "DTLS record payload is truncated")
  else return ({ header, payload := (bytes.take finish).drop recordHeaderLen }, bytes.drop finish)

variable {record : DtlsRecord}

theorem DtlsRecord.parseNext_shrinks {bytes rest : Bytes}
    (h : DtlsRecord.parseNext bytes = .ok (record, rest)) : rest.length < bytes.length := by
  obtain ⟨hdr, -, h⟩ := bind_ok.mp h
  dsimp only at h
  split at h
  · cases h
  · next hl =>
    cases h
    rw [length_drop]
    simp only [recordHeaderLen] at hl ⊢
    omega

def recordFramer : Framer DtlsError DtlsRecord := ⟨DtlsRecord.parseNext, DtlsRecord.parseNext_shrinks⟩

def DtlsRecord.parseDatagram (bytes : Bytes) : Except DtlsError (List DtlsRecord) := recordFramer.all bytes

/-- The records that survive encoding: the header states the payload length
and the sequence number has 48 bits. -/
def DtlsRecord.WellFormed (record : DtlsRecord) : Prop :=
  record.payload.length = record.header.length.toNat ∧ record.header.sequenceNumber.toNat < 2 ^ 48

def DtlsRecord.bytes (record : DtlsRecord) : Bytes := record.header.encode ++ record.payload

theorem DtlsRecord.encode_of_length
    (h : record.payload.length = record.header.length.toNat) : record.encode = .ok record.bytes := by
  simp [DtlsRecord.encode, h, DtlsRecord.bytes]

theorem DtlsRecord.frames_bytes (h : record.WellFormed) : recordFramer.Frames record.bytes record := by
  refine ⟨by simp [DtlsRecord.bytes, RecordHeader.encode], fun rest => ?_⟩
  have hl : record.bytes.length = recordHeaderLen + record.header.length.toNat := by
    simp [DtlsRecord.bytes, h.1]
  have hp : RecordHeader.parse (record.bytes ++ rest) = .ok record.header := by
    rw [DtlsRecord.bytes, append_assoc, RecordHeader.parse_encode record.header h.2]
  change DtlsRecord.parseNext (record.bytes ++ rest) = _
  simp only [DtlsRecord.parseNext, hp, bind, Except.bind, pure, Except.pure, ← hl]
  rw [if_neg (by simp), take_left, drop_left]
  simp [DtlsRecord.bytes]

theorem DtlsRecord.parseDatagram_flatMap {records : List DtlsRecord} (h : ∀ r ∈ records, r.WellFormed) :
    DtlsRecord.parseDatagram (records.flatMap DtlsRecord.bytes) = .ok records :=
  Framer.all_flatMap fun r hr => DtlsRecord.frames_bytes (h r hr)

/-- The record as the other end reads it: only 48 bits of the sequence number
travel. -/
def DtlsRecord.onWire (record : DtlsRecord) : DtlsRecord :=
  { record with
    header := { record.header with sequenceNumber := .ofNat (record.header.sequenceNumber.toNat % 2 ^ 48) } }

theorem DtlsRecord.onWire_of_wellFormed (h : record.WellFormed) : record.onWire = record := by
  rw [onWire, Nat.mod_eq_of_lt h.2, UInt64.ofNat_toNat]

theorem beBytes_mod_sequence (n : ℕ) : beBytes 6 (n % 2 ^ 48) = beBytes 6 n := by
  nth_rewrite 2 [← Nat.div_add_mod' n (2 ^ 48)]
  exact (beBytes_add_mul 6 _ _).symm

theorem DtlsRecord.toNat_sequenceNumber_onWire (record : DtlsRecord) :
    record.onWire.header.sequenceNumber.toNat = record.header.sequenceNumber.toNat % 2 ^ 48 :=
  UInt64.toNat_ofNat_of_lt' ((Nat.mod_lt _ (Nat.two_pow_pos 48)).trans (by decide))

theorem DtlsRecord.onWire_wellFormed
    (h : record.payload.length = record.header.length.toNat) : record.onWire.WellFormed := by
  refine ⟨h, ?_⟩
  rw [toNat_sequenceNumber_onWire]
  exact Nat.mod_lt _ (Nat.two_pow_pos 48)

theorem DtlsRecord.bytes_onWire (record : DtlsRecord) : record.onWire.bytes = record.bytes := by
  have hseq := toNat_sequenceNumber_onWire record
  simp only [DtlsRecord.bytes, RecordHeader.encode, hseq, beBytes_mod_sequence]
  rfl

theorem DtlsRecord.aeadAdditionalData_onWire (record : DtlsRecord) (plaintextLen : UInt16) :
    record.onWire.header.aeadAdditionalData plaintextLen = record.header.aeadAdditionalData plaintextLen := by
  have hseq := toNat_sequenceNumber_onWire record
  simp only [RecordHeader.aeadAdditionalData, hseq, beBytes_mod_sequence]
  rfl

theorem DtlsRecord.parseDatagram_onWire {rs : List DtlsRecord} (h : ∀ r ∈ rs, r.payload.length = r.header.length.toNat) :
    DtlsRecord.parseDatagram (rs.flatMap DtlsRecord.bytes) = .ok (rs.map DtlsRecord.onWire) := by
  have hbytes : rs.flatMap DtlsRecord.bytes = (rs.map DtlsRecord.onWire).flatMap DtlsRecord.bytes := by
    rw [flatMap_map]
    exact flatMap_congr fun r _ => (bytes_onWire r).symm
  rw [hbytes]
  refine parseDatagram_flatMap fun r hr => ?_
  obtain ⟨r', hr', rfl⟩ := mem_map.mp hr
  exact onWire_wellFormed (h r' hr')

theorem DtlsRecord.wellFormed_of_parseNext {bytes rest : Bytes}
    (h : DtlsRecord.parseNext bytes = .ok (record, rest)) : record.WellFormed := by
  obtain ⟨hdr, hp, h⟩ := bind_ok.mp h
  dsimp only at h
  split at h
  · cases h
  · next hl =>
    cases h
    refine ⟨?_, RecordHeader.sequenceNumber_of_parse hp⟩
    rw [length_drop, length_take]
    simp only [recordHeaderLen] at hl ⊢
    omega

theorem DtlsRecord.new_eq_ok {c : ContentType} {epoch : UInt16} {seq : UInt64} {payload : Bytes}
    (h : DtlsRecord.new c epoch seq payload = .ok record) : record.header.contentType = c ∧ record.header.epoch = epoch ∧
      record.header.sequenceNumber = seq ∧ record.payload = payload ∧
      record.payload.length = record.header.length.toNat := by
  simp only [DtlsRecord.new] at h
  split at h
  · cases h
  · next hl =>
    cases h
    simp only [UInt16.toNat_ofNat', true_and]
    omega

end ThreadCommissioner.Records
