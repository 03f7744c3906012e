import ThreadCommissioner.HandshakeMessages

namespace ThreadCommissioner.Drivers

open ByteStrings Computations Errors HandshakeMessages Records

variable {Addr TransportError : Type}

def maxDatagramSize : ℕ := 4096

inductive DriverError (TransportError : Type)
  | protocol (error : DtlsError)
  | transport (error : TransportError)
  | timeout

/-- What a driver that waits for a datagram gets: a datagram with its local
and remote address, the end of its patience, or a failure of the transport. A
send that fails ends a driver with the same error as a receive that does. -/
inductive Arrival (Addr TransportError : Type)
  | datagram (bytes : Bytes) (localAddr remote : Addr)
  | timeout
  | failure (error : TransportError)

/-- A datagram is parsed before its source is looked at. -/
def recvRecords : Arrival Addr TransportError → Except (DriverError TransportError) (List DtlsRecord × Addr × Addr)
  | .datagram bytes localAddr remote =>
    if maxDatagramSize < bytes.length then .error (.protocol (.crypto "DTLS datagram is too long"))
    else
      match DtlsRecord.parseDatagram bytes with
      | .ok records => .ok (records, localAddr, remote)
      | .error e => .error (.protocol e)
  | .timeout => .error .timeout
  | .failure e => .error (.transport e)

/-- The datagram that `send_records` hands to the transport. -/
def encodeRecords : List DtlsRecord → Except DtlsError Bytes
  | [] => .ok []
  | record :: records => do
    let bytes ← record.encode
    let rest ← encodeRecords records
    return bytes ++ rest

def decodeAlertError (record : DtlsRecord) : DtlsError :=
  let epoch := record.header.epoch
  let sequence := record.header.sequenceNumber
  match record.payload with
  | level :: description :: _ =>
    .crypto s!"DTLS alert epoch={epoch} seq={sequence} level={level} description={description}"
  | _ => .crypto s!"DTLS alert epoch={epoch} seq={sequence} received"

def datagramOf (records : List DtlsRecord) : Bytes := records.flatMap DtlsRecord.bytes

variable {records : List DtlsRecord}

theorem encodeRecords_of_length (h : ∀ r ∈ records, r.payload.length = r.header.length.toNat) :
    encodeRecords records = .ok (datagramOf records) := by
  induction records with
  | nil => rfl
  | cons record records ih =>
    rw [encodeRecords, DtlsRecord.encode_of_length (h record (by simp)), ok_bind, ih fun r hr => h r (by simp [hr]), ok_bind]
    rfl

theorem encodeRecords_of_wellFormed (h : ∀ r ∈ records, r.WellFormed) : encodeRecords records = .ok (datagramOf records) :=
  encodeRecords_of_length fun r hr => (h r hr).1

theorem recvRecords_of_wellFormed (h : ∀ r ∈ records, r.WellFormed)
    (hl : (datagramOf records).length ≤ maxDatagramSize) (addr remote : Addr) :
    recvRecords (.datagram (datagramOf records) addr remote : Arrival Addr TransportError) =
      .ok (records, addr, remote) := by
  rw [recvRecords, if_neg (Nat.not_lt.mpr hl), datagramOf, DtlsRecord.parseDatagram_flatMap h]

theorem recvRecords_eq_ok {arr : Arrival Addr TransportError} {addr remote : Addr}
    (h : recvRecords arr = .ok (records, addr, remote)) :
    ∃ bytes, arr = .datagram bytes addr remote ∧ DtlsRecord.parseDatagram bytes = .ok records := by
  cases arr with
  | datagram bytes localAddr' remote' =>
    rw [recvRecords] at h
    split at h
    · cases h
    · split at h
      · next hp =>
        cases h
        exact ⟨bytes, rfl, hp⟩
      · cases h
  | timeout => cases h
  | failure e => cases h

def changeCipherSpecRecord (sequence : UInt64) : DtlsRecord :=
  ⟨⟨.changeCipherSpec, dtls12Version, 0, sequence, 1⟩, [1]⟩

theorem changeCipherSpec_new (seq : UInt64) :
    DtlsRecord.new .changeCipherSpec 0 seq [1] = .ok (changeCipherSpecRecord seq) := rfl

theorem changeCipherSpec_wellFormed {seq : UInt64} (h : seq.toNat < 2 ^ 48) :
    (changeCipherSpecRecord seq).WellFormed := ⟨rfl, h⟩

theorem length_bytes_le {m : HandshakeMessage} (h : m.Short) (epoch : UInt16) (seq : UInt64) :
    (m.record epoch seq).bytes.length ≤ 1049 := by
  have hl := h.length_bytes
  rw [DtlsRecord.bytes, List.length_append, RecordHeader.length_encode, recordHeaderLen]
  exact Nat.add_le_add_left hl 13

theorem encode_record {m : HandshakeMessage} (h : m.Short) {epoch : UInt16} {seq : UInt64} (hs : seq.toNat < 2 ^ 48) :
    encodeRecords [m.record epoch seq] = .ok (datagramOf [m.record epoch seq]) :=
  encodeRecords_of_wellFormed (by simpa using h.record_wellFormed epoch hs)

end ThreadCommissioner.Drivers
