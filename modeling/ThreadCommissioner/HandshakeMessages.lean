import ThreadCommissioner.Records

namespace ThreadCommissioner.HandshakeMessages

open ByteStrings Computations Errors Framing List Records

inductive HandshakeType
  | helloRequest
  | clientHello
  | serverHello
  | helloVerifyRequest
  | certificate
  | serverKeyExchange
  | certificateRequest
  | serverHelloDone
  | certificateVerify
  | clientKeyExchange
  | finished
  deriving DecidableEq, Repr

def HandshakeType.toByte : HandshakeType → UInt8
  | .helloRequest => 0
  | .clientHello => 1
  | .serverHello => 2
  | .helloVerifyRequest => 3
  | .certificate => 11
  | .serverKeyExchange => 12
  | .certificateRequest => 13
  | .serverHelloDone => 14
  | .certificateVerify => 15
  | .clientKeyExchange => 16
  | .finished => 20

def HandshakeType.tryFrom (value : UInt8) : Except DtlsError HandshakeType :=
  match value with
  | 0 => .ok .helloRequest
  | 1 => .ok .clientHello
  | 2 => .ok .serverHello
  | 3 => .ok .helloVerifyRequest
  | 11 => .ok .certificate
  | 12 => .ok .serverKeyExchange
  | 13 => .ok .certificateRequest
  | 14 => .ok .serverHelloDone
  | 15 => .ok .certificateVerify
  | 16 => .ok .clientKeyExchange
  | 20 => .ok .finished
  | _ => .error (.crypto "unknown DTLS handshake type")

@[simp] theorem HandshakeType.tryFrom_toByte (t : HandshakeType) : HandshakeType.tryFrom t.toByte = .ok t := by
  cases t <;> rfl

def HandshakeType.debug : HandshakeType → String
  | .helloRequest => "HelloRequest"
  | .clientHello => "ClientHello"
  | .serverHello => "ServerHello"
  | .helloVerifyRequest => "HelloVerifyRequest"
  | .certificate => "Certificate"
  | .serverKeyExchange => "ServerKeyExchange"
  | .certificateRequest => "CertificateRequest"
  | .serverHelloDone => "ServerHelloDone"
  | .certificateVerify => "CertificateVerify"
  | .clientKeyExchange => "ClientKeyExchange"
  | .finished => "Finished"

def maxU24 : ℕ := 0x00ffffff

def writeU24 (value : ℕ) : Except DtlsError Bytes :=
  if maxU24 < value then .error (.crypto "invalid 24-bit integer") else .ok (beBytes 3 value)

/-- The three 24-bit quantities are held in wider integers and checked on the
way in and out. -/
structure HandshakeHeader where
  messageType : HandshakeType
  length : ℕ
  messageSeq : UInt16
  fragmentOffset : ℕ
  fragmentLength : ℕ
  deriving DecidableEq, Repr

def handshakeHeaderLen : ℕ := 12

def HandshakeHeader.validate (h : HandshakeHeader) : Except DtlsError Unit :=
  if maxU24 < h.length ∨ maxU24 < h.fragmentOffset ∨ maxU24 < h.fragmentLength then
    .error (.crypto "DTLS handshake length exceeds 24-bit field")
  else if h.length < h.fragmentOffset + h.fragmentLength then
    .error (.crypto "DTLS handshake fragment exceeds message length")
  else .ok ()

def HandshakeHeader.parse (bytes : Bytes) : Except DtlsError HandshakeHeader :=
  if bytes.length < handshakeHeaderLen then .error (.crypto "DTLS handshake header is truncated")
  else do
    let messageType ← HandshakeType.tryFrom (bytes.headD 0)
    let header : HandshakeHeader := {
      messageType
      length := beNat ((bytes.drop 1).take 3)
      messageSeq := .ofNat (beNat ((bytes.drop 4).take 2))
      fragmentOffset := beNat ((bytes.drop 6).take 3)
      fragmentLength := beNat ((bytes.drop 9).take 3) }
    header.validate
    return header

def HandshakeHeader.encode (h : HandshakeHeader) : Except DtlsError Bytes := do
  h.validate
  let length ← writeU24 h.length
  let fragmentOffset ← writeU24 h.fragmentOffset
  let fragmentLength ← writeU24 h.fragmentLength
  return h.messageType.toByte ::
    (length ++ (beBytes 2 h.messageSeq.toNat ++ (fragmentOffset ++ fragmentLength)))

structure HandshakeFragment where
  header : HandshakeHeader
  fragment : Bytes
  deriving DecidableEq, Repr

def HandshakeFragment.parse (bytes : Bytes) : Except DtlsError HandshakeFragment := do
  let header ← HandshakeHeader.parse bytes
  let finish := handshakeHeaderLen + header.fragmentLength
  if bytes.length < finish then .error (.crypto "DTLS handshake fragment is truncated")
  else return { header, fragment := (bytes.take finish).drop handshakeHeaderLen }

def HandshakeFragment.encode (f : HandshakeFragment) : Except DtlsError Bytes :=
  if f.fragment.length ≠ f.header.fragmentLength then
    .error (.crypto "DTLS handshake fragment header length does not match payload")
  else do return (← f.header.encode) ++ f.fragment

structure HandshakeMessage where
  messageType : HandshakeType
  messageSeq : UInt16
  payload : Bytes
  deriving DecidableEq, Repr

def chunks (size : ℕ) (bs : Bytes) : List Bytes :=
  if bs.length = 0 ∨ size = 0 then []
  else bs.take size :: chunks size (bs.drop size)
termination_by bs.length
decreasing_by rw [List.length_drop]; omega

/-- An empty payload has no chunk and still makes one empty fragment. -/
def HandshakeMessage.fragment (m : HandshakeMessage) (maxFragmentLen : ℕ) :
    Except DtlsError (List HandshakeFragment) :=
  if maxFragmentLen = 0 then .error (.crypto "maximum handshake fragment length must be nonzero")
  else if maxU24 < m.payload.length then .error (.crypto "DTLS handshake message exceeds 24-bit length")
  else
    let fragments := (chunks maxFragmentLen m.payload).mapIdx fun idx fragment =>
      { header := {
          messageType := m.messageType
          length := m.payload.length
          messageSeq := m.messageSeq
          fragmentOffset := idx * maxFragmentLen
          fragmentLength := fragment.length }
        fragment : HandshakeFragment }
    .ok (if fragments.isEmpty then
      [{ header := ⟨m.messageType, 0, m.messageSeq, 0, 0⟩, fragment := [] }] else fragments)

def HandshakeMessage.encode (m : HandshakeMessage) : Except DtlsError Bytes := do
  match (← m.fragment (max m.payload.length 1)).head? with
  | none => .error (.crypto "missing handshake fragment")
  | some fragment => fragment.encode

def HandshakeMessage.transcriptBytes (m : HandshakeMessage) : Except DtlsError Bytes :=
  if 0xffffffff < m.payload.length then .error (.crypto "DTLS handshake message exceeds 24-bit length")
  else do
    let header : HandshakeHeader := ⟨m.messageType, m.payload.length, m.messageSeq, 0, m.payload.length⟩
    return (← header.encode) ++ m.payload

def HandshakeFragment.isWhole (f : HandshakeFragment) : Bool :=
  f.header.fragmentOffset = 0 ∧ f.header.fragmentLength = f.header.length

def HandshakeFragment.message (f : HandshakeFragment) : HandshakeMessage :=
  ⟨f.header.messageType, f.header.messageSeq, f.fragment⟩

def parseUnfragmentedHandshakeRecord (record : DtlsRecord) (expectedType : HandshakeType) :
    Except DtlsError HandshakeMessage :=
  if record.header.contentType ≠ .handshake then .error (.crypto "DTLS record is not a handshake record")
  else do
    let fragment ← HandshakeFragment.parse record.payload
    if handshakeHeaderLen + fragment.fragment.length ≠ record.payload.length then
      .error (.crypto "DTLS record contains trailing handshake bytes")
    else if fragment.header.messageType ≠ expectedType then
      .error (.crypto "unexpected DTLS handshake type")
    else if !fragment.isWhole then .error (.crypto "DTLS handshake message is fragmented")
    else return fragment.message

def HandshakeMessage.parseNext (bytes : Bytes) : Except DtlsError (HandshakeMessage × Bytes) := do
  let fragment ← HandshakeFragment.parse bytes
  if !fragment.isWhole then .error (.crypto "DTLS handshake message is fragmented")
  else return (fragment.message, bytes.drop (handshakeHeaderLen + fragment.fragment.length))

theorem HandshakeFragment.length_of_parse {bytes : Bytes} {f : HandshakeFragment}
    (h : HandshakeFragment.parse bytes = .ok f) :
    f.fragment.length = f.header.fragmentLength ∧ handshakeHeaderLen + f.fragment.length ≤ bytes.length := by
  obtain ⟨hdr, -, h⟩ := bind_ok.mp h
  dsimp only at h
  split at h
  · cases h
  · next hl =>
    cases h
    simp only [length_drop, length_take, handshakeHeaderLen] at hl ⊢
    omega

variable {m : HandshakeMessage}

theorem HandshakeMessage.parseNext_shrinks {bytes rest : Bytes}
    (h : HandshakeMessage.parseNext bytes = .ok (m, rest)) : rest.length < bytes.length := by
  obtain ⟨frag, hf, h⟩ := bind_ok.mp h
  have hl := (HandshakeFragment.length_of_parse hf).2
  split at h
  · cases h
  · cases h
    simp only [length_drop, handshakeHeaderLen] at hl ⊢
    omega

def messageFramer : Framer DtlsError HandshakeMessage :=
  ⟨HandshakeMessage.parseNext, HandshakeMessage.parseNext_shrinks⟩

def parseUnfragmentedHandshakeMessages (record : DtlsRecord) : Except DtlsError (List HandshakeMessage) :=
  if record.header.contentType ≠ .handshake then .error (.crypto "DTLS record is not a handshake record")
  else messageFramer.all record.payload

theorem parseMessages_of_parseRecord {r : DtlsRecord} {expectedType : HandshakeType}
    (h : parseUnfragmentedHandshakeRecord r expectedType = .ok m) :
    parseUnfragmentedHandshakeMessages r = .ok [m] ∧ m.messageType = expectedType := by
  rw [parseUnfragmentedHandshakeRecord] at h
  split at h
  · cases h
  · next ht =>
    obtain ⟨frag, hf, h⟩ := bind_ok.mp h
    split at h
    · cases h
    · next hlength =>
      split at h
      · cases h
      · next htype =>
        split at h
        · cases h
        · next hwhole =>
          cases h
          -- the one message fills the record, so nothing is left to parse
          have hnext : messageFramer.next r.payload = .ok (frag.message, []) := by
            change HandshakeMessage.parseNext r.payload = _
            rw [HandshakeMessage.parseNext, hf, ok_bind, if_neg hwhole, drop_of_length_le (not_not.mp hlength).ge]
            rfl
          have hne : r.payload ≠ [] := by
            intro hnil
            rw [hnil] at hlength
            exact hlength (by simp [handshakeHeaderLen])
          rw [parseUnfragmentedHandshakeMessages, if_neg ht]
          exact ⟨(Framer.all_of_next hne hnext).mpr messageFramer.all_nil, not_not.mp htype⟩

def HandshakeMessage.Fits (m : HandshakeMessage) : Prop := m.payload.length ≤ maxU24

def HandshakeMessage.header (m : HandshakeMessage) : HandshakeHeader :=
  ⟨m.messageType, m.payload.length, m.messageSeq, 0, m.payload.length⟩

def HandshakeMessage.bytes (m : HandshakeMessage) : Bytes :=
  m.messageType.toByte :: (beBytes 3 m.payload.length ++ (beBytes 2 m.messageSeq.toNat ++
    (beBytes 3 0 ++ (beBytes 3 m.payload.length ++ m.payload))))

@[simp] theorem HandshakeMessage.length_bytes (m : HandshakeMessage) :
    m.bytes.length = handshakeHeaderLen + m.payload.length := by
  simp [HandshakeMessage.bytes, handshakeHeaderLen]; omega

theorem HandshakeHeader.validate_whole {t : HandshakeType} {seq : UInt16} {len : ℕ} (h : len ≤ maxU24) :
    (HandshakeHeader.mk t len seq 0 len).validate = .ok () := by
  simp [HandshakeHeader.validate, maxU24] at h ⊢
  omega

theorem HandshakeHeader.encode_whole {t : HandshakeType} {seq : UInt16} {len : ℕ} (h : len ≤ maxU24) :
    (HandshakeHeader.mk t len seq 0 len).encode =
      .ok (t.toByte :: (beBytes 3 len ++ (beBytes 2 seq.toNat ++ (beBytes 3 0 ++ beBytes 3 len)))) := by
  simp only [HandshakeHeader.encode, HandshakeHeader.validate_whole h, writeU24, Nat.not_lt.mpr h,
    Nat.not_lt.mpr (Nat.zero_le maxU24), if_false, bind, Except.bind, pure, Except.pure]

variable {bs : Bytes}

theorem HandshakeHeader.length_of_encode {hdr : HandshakeHeader} (h : hdr.encode = .ok bs) : hdr.length ≤ maxU24 := by
  obtain ⟨⟨⟩, hv, -⟩ := bind_ok.mp h
  simp only [HandshakeHeader.validate] at hv
  split at hv
  · cases hv
  · next hl => omega

theorem HandshakeMessage.transcriptBytes_eq_ok : m.transcriptBytes = .ok bs ↔ m.Fits ∧ bs = m.bytes := by
  have hfits : m.Fits → m.transcriptBytes = .ok m.bytes := by
    intro hm
    have hl : ¬ 0xffffffff < m.payload.length := by
      simp only [HandshakeMessage.Fits, maxU24] at hm; omega
    simp only [HandshakeMessage.transcriptBytes, hl, if_false, HandshakeHeader.encode_whole hm, bind,
      Except.bind, pure, Except.pure, HandshakeMessage.bytes, cons_append, append_assoc]
  constructor
  · intro h
    have hm : m.Fits := by
      simp only [HandshakeMessage.transcriptBytes] at h
      split at h
      · cases h
      · obtain ⟨encoded, he, -⟩ := bind_ok.mp h
        exact HandshakeHeader.length_of_encode he
    rw [hfits hm] at h
    exact ⟨hm, (Except.ok.inj h).symm⟩
  · rintro ⟨hm, rfl⟩
    exact hfits hm

theorem chunks_whole (h : bs ≠ []) : chunks bs.length bs = [bs] := by
  have hl : bs.length ≠ 0 := by simpa using h
  rw [chunks, if_neg (by simpa using h), take_length, drop_length, chunks, if_pos (by simp)]

section Fitting

variable (hm : m.Fits)

include hm

theorem HandshakeMessage.fragment_whole : m.fragment (max m.payload.length 1) = .ok [⟨m.header, m.payload⟩] := by
  have hl : ¬ maxU24 < m.payload.length := Nat.not_lt.mpr hm
  have h0 : max m.payload.length 1 ≠ 0 := by omega
  rw [HandshakeMessage.fragment, if_neg h0, if_neg hl]
  by_cases hp : m.payload = []
  · rw [hp, chunks, if_pos (by simp)]
    simp [HandshakeMessage.header, hp]
  · have h1 : max m.payload.length 1 = m.payload.length := by
      have := length_pos_iff.mpr hp
      omega
    rw [h1, chunks_whole hp]
    simp [HandshakeMessage.header]

theorem HandshakeMessage.encode_of_fits : m.encode = .ok m.bytes := by
  simp only [HandshakeMessage.encode, HandshakeMessage.fragment_whole hm, bind, Except.bind, pure,
    Except.pure, List.head?_cons, HandshakeFragment.encode, HandshakeMessage.header,
    HandshakeHeader.encode_whole hm, ne_eq, not_true_eq_false, if_false]
  simp [HandshakeMessage.bytes]

variable (rest : Bytes)

theorem HandshakeMessage.header_fields : HandshakeHeader.mk m.messageType (beNat (((m.bytes ++ rest).drop 1).take 3))
      (.ofNat (beNat (((m.bytes ++ rest).drop 4).take 2))) (beNat (((m.bytes ++ rest).drop 6).take 3))
      (beNat (((m.bytes ++ rest).drop 9).take 3)) = m.header := by
  have hlen : m.payload.length < 256 ^ 3 := by
    simp only [HandshakeMessage.Fits, maxU24] at hm; omega
  simp [HandshakeMessage.bytes, HandshakeMessage.header, drop_append, drop_eq_nil_of_le,
    beNat_beBytes_of_lt hlen, beNat_beBytes]

theorem HandshakeHeader.parse_bytes : HandshakeHeader.parse (m.bytes ++ rest) = .ok m.header := by
  have hl : ¬ (m.bytes ++ rest).length < handshakeHeaderLen := by
    rw [length_append, HandshakeMessage.length_bytes]; omega
  have hv : m.header.validate = .ok () := HandshakeHeader.validate_whole hm
  have ht : HandshakeType.tryFrom ((m.bytes ++ rest).headD 0) = .ok m.messageType :=
    HandshakeType.tryFrom_toByte m.messageType
  rw [HandshakeHeader.parse, if_neg hl, ht, ok_bind, HandshakeMessage.header_fields hm rest]
  change (do m.header.validate; return m.header) = _
  rw [hv, ok_bind]
  rfl

theorem HandshakeFragment.parse_bytes : HandshakeFragment.parse (m.bytes ++ rest) = .ok ⟨m.header, m.payload⟩ := by
  have hf : handshakeHeaderLen + m.header.fragmentLength = m.bytes.length := by
    rw [HandshakeMessage.length_bytes]; rfl
  have hd : m.bytes.drop handshakeHeaderLen = m.payload := by
    simp [HandshakeMessage.bytes, handshakeHeaderLen, drop_append, drop_eq_nil_of_le]
  have hl : ¬ (m.bytes ++ rest).length < m.bytes.length := by
    rw [length_append]; omega
  simp only [HandshakeFragment.parse, HandshakeHeader.parse_bytes hm, bind, Except.bind, pure,
    Except.pure, hf, hl, if_false, take_left, hd]

theorem HandshakeMessage.frames_bytes : messageFramer.Frames m.bytes m := by
  refine ⟨by simp [HandshakeMessage.bytes], fun rest => ?_⟩
  change HandshakeMessage.parseNext (m.bytes ++ rest) = _
  have hw : (HandshakeFragment.mk m.header m.payload).isWhole = true := by
    simp [HandshakeFragment.isWhole, HandshakeMessage.header]
  simp only [HandshakeMessage.parseNext, HandshakeFragment.parse_bytes hm, bind, Except.bind, hw,
    Bool.not_true, Bool.false_eq_true, if_false, ← HandshakeMessage.length_bytes, drop_left]
  rfl

end Fitting

theorem HandshakeMessage.parse_flatMap {ms : List HandshakeMessage} (h : ∀ m ∈ ms, m.Fits) :
    messageFramer.all (ms.flatMap HandshakeMessage.bytes) = .ok ms :=
  Framer.all_flatMap fun m hm => HandshakeMessage.frames_bytes (h m hm)

theorem HandshakeMessage.flatMap_bytes_inj {ms ms' : List HandshakeMessage} (h : ∀ m ∈ ms, m.Fits)
    (h' : ∀ m ∈ ms', m.Fits) (heq : ms.flatMap HandshakeMessage.bytes = ms'.flatMap HandshakeMessage.bytes) : ms = ms' := by
  have hparse := parse_flatMap h
  rw [heq, parse_flatMap h'] at hparse
  exact (Except.ok.inj hparse).symm

theorem HandshakeMessage.parse_packed (ms : List HandshakeMessage) (h : ∀ m ∈ ms, m.Fits)
    (hl : (ms.flatMap HandshakeMessage.bytes).length ≤ 65535) (epoch : UInt16) (seq : UInt64) :
    ∃ r, DtlsRecord.new .handshake epoch seq (ms.flatMap HandshakeMessage.bytes) = .ok r ∧
      parseUnfragmentedHandshakeMessages r = .ok ms := by
  refine ⟨_, if_neg (Nat.not_lt.mpr hl), ?_⟩
  rw [parseUnfragmentedHandshakeMessages, if_neg (by simp)]
  exact parse_flatMap h

def HandshakeMessage.record (m : HandshakeMessage) (epoch : UInt16) (sequence : UInt64) : DtlsRecord :=
  ⟨⟨.handshake, dtls12Version, epoch, sequence, .ofNat m.bytes.length⟩, m.bytes⟩

/-- The messages of the handshake are short enough for every length field on
their way. -/
def HandshakeMessage.Short (m : HandshakeMessage) : Prop := m.payload.length ≤ 1024

namespace HandshakeMessage.Short

variable {m : HandshakeMessage} (h : m.Short)

include h

theorem fits : m.Fits := Nat.le_trans h (by decide)

theorem length_bytes : m.bytes.length ≤ 1036 := by
  rw [HandshakeMessage.length_bytes]
  exact Nat.add_le_add_left h 12

variable (epoch : UInt16) (seq : UInt64)

theorem new_record : DtlsRecord.new .handshake epoch seq m.bytes = .ok (m.record epoch seq) :=
  if_neg (Nat.not_lt.mpr (h.length_bytes.trans (by decide)))

theorem record_length : (m.record epoch seq).payload.length = (m.record epoch seq).header.length.toNat := by
  have hl := h.length_bytes
  simp only [HandshakeMessage.record, UInt16.toNat_ofNat']
  omega

theorem record_wellFormed {seq : UInt64} (hs : seq.toNat < 2 ^ 48) :
    (m.record epoch seq).WellFormed := ⟨h.record_length epoch seq, hs⟩

theorem parse_records : parseUnfragmentedHandshakeMessages (m.record epoch seq) = .ok [m] := by
  rw [parseUnfragmentedHandshakeMessages, if_neg (by simp [HandshakeMessage.record])]
  exact Framer.all_single (HandshakeMessage.frames_bytes h.fits)

theorem parse_record : parseUnfragmentedHandshakeRecord (m.record epoch seq) m.messageType = .ok m := by
  have hp := HandshakeFragment.parse_bytes h.fits []
  rw [append_nil] at hp
  rw [parseUnfragmentedHandshakeRecord, if_neg (by simp [HandshakeMessage.record]),
    show (m.record epoch seq).payload = m.bytes from rfl, hp, ok_bind,
    if_neg (by simp), if_neg (by simp [HandshakeMessage.header]),
    if_neg (by simp [HandshakeFragment.isWhole, HandshakeMessage.header])]
  rfl

end HandshakeMessage.Short

end ThreadCommissioner.HandshakeMessages
