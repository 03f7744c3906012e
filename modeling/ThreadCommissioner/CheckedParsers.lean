import ThreadCommissioner.BoundedAccess
import ThreadCommissioner.Hellos
import ThreadCommissioner.NetworkDataTrees

namespace ThreadCommissioner.CheckedParsers

open BoundedAccess ByteStrings Coap Computations Diagnostics Errors HandshakeMessages Hellos List
open NetworkDataTrees Readers Records Tlvs

section Tlvs

/-- The sum of the lengths cannot overflow, so its check leaves no trace here. -/
def parseOne (bytes : Bytes) : Bounded TlvError (TlvEntry × Bytes) := do
  if bytes.length < 2 then fail .bufferTooSmall
  else
    let ty ← byte bytes 0
    let lengthByte ← byte bytes 1
    let (length, headerLen) ←
      if lengthByte = extendedTlvMarker then
        if bytes.length < 4 then fail .bufferTooSmall else do pure (← number bytes 2 2, 4)
      else pure (lengthByte.toNat, 2)
    let finish := headerLen + length
    if bytes.length < finish then fail .bufferTooSmall
    else return (⟨ty, ← slice bytes headerLen finish⟩, ← slice bytes finish bytes.length)

def TlvSet.parse (bytes : Bytes) : Bounded TlvError TlvSet := do
  return ⟨← collect parseOne bytes.length bytes⟩

/-- The end of `parse_one`, after a header of the given length. -/
theorem cutValue_eq {bytes : Bytes} {headerLen : ℕ} (h : headerLen ≤ bytes.length) (ty : UInt8) (length : ℕ) :
    (if bytes.length < headerLen + length then fail .bufferTooSmall
      else do return (⟨ty, ← slice bytes headerLen (headerLen + length)⟩, ← slice bytes (headerLen + length) bytes.length) :
        Bounded TlvError (TlvEntry × Bytes)) = safe (do
        ensure (length ≤ (bytes.drop headerLen).length) TlvError.bufferTooSmall
        return (⟨ty, (bytes.drop headerLen).take length⟩, (bytes.drop headerLen).drop length)) := by
  have hlen : (bytes.drop headerLen).length = bytes.length - headerLen := length_drop
  by_cases hshort : bytes.length < headerLen + length
  · rw [if_pos hshort, ensure, if_neg (by omega)]
    rfl
  · have hle : headerLen + length ≤ bytes.length := Nat.le_of_not_lt hshort
    rw [if_neg hshort, slice_add hle, slice_to_end hle, ensure_true (by omega), drop_drop]
    rfl

theorem parseOne_eq (bytes : Bytes) : parseOne bytes = safe (Tlvs.parseOne bytes) := by
  rcases bytes with _ | ⟨ty, _ | ⟨lengthByte, rest⟩⟩
  · rfl
  · rfl
  · have hlong : ¬ (ty :: lengthByte :: rest).length < 2 := by simp
    have hty : (byte (ty :: lengthByte :: rest) 0 : Bounded TlvError UInt8) = safe (.ok ty) := rfl
    have hlengthByte : (byte (ty :: lengthByte :: rest) 1 : Bounded TlvError UInt8) = safe (.ok lengthByte) := rfl
    rw [parseOne, if_neg hlong, hty, safe_ok_bind, hlengthByte, safe_ok_bind, Tlvs.parseOne, readLength]
    by_cases hmarker : lengthByte = extendedTlvMarker
    · by_cases hshort : rest.length < 2
      · have hheader : (ty :: lengthByte :: rest).length < 4 := by
          simp only [length_cons]
          omega
        rw [if_pos hmarker, if_pos hmarker, if_pos hheader, if_pos hshort]
        rfl
      · have hheader : 4 ≤ (ty :: lengthByte :: rest).length := by
          simp only [length_cons]
          omega
        rw [if_pos hmarker, if_pos hmarker, if_neg (Nat.not_lt.mpr hheader), if_neg hshort, number_of_le hheader]
        exact cutValue_eq hheader ty _
    · rw [if_neg hmarker, if_neg hmarker]
      exact cutValue_eq (Nat.le_of_not_lt hlong) ty _

theorem TlvSet.parse_eq (bytes : Bytes) : TlvSet.parse bytes = safe (Tlvs.TlvSet.parse bytes) := by
  rw [TlvSet.parse, collect_eq_all (F := tlvFramer) parseOne_eq]
  exact safe_bind fun _ _ => rfl

end Tlvs

section Messages

def decodeExtendedNibble (nibble : UInt8) (bytes : Bytes) : Bounded Error (UInt16 × ℕ) :=
  if nibble ≤ 12 then pure (nibble.toUInt16, 0)
  else if nibble = 13 then
    match bytes.head? with
    | some byte => pure (byte.toUInt16 + 13, 1)
    | none => fail (.dataset "CoAP option extension is truncated")
  else if nibble = 14 then
    if bytes.length < 2 then fail (.dataset "CoAP option extension is truncated")
    else do
      let value ← number bytes 0 2
      if value + 269 < 2 ^ 16 then pure (.ofNat (value + 269), 2) else fail (.dataset "CoAP option extension overflow")
  else fail (.dataset "reserved CoAP option nibble")

def decodeOption (lastNumber : UInt16) (first : UInt8) (afterHeader : Bytes) : Bounded Error (CoapOption × Bytes) := do
  let (delta, usedDelta) ← decodeExtendedNibble (first >>> 4) afterHeader
  let afterDelta ← slice afterHeader usedDelta afterHeader.length
  let (length, usedLen) ← decodeExtendedNibble (first &&& 0x0f) afterDelta
  let afterLength ← slice afterDelta usedLen afterDelta.length
  if afterLength.length < length.toNat then fail (.dataset "CoAP option value is truncated")
  else if lastNumber.toNat + delta.toNat < 2 ^ 16 then
    return (⟨lastNumber + delta, ← slice afterLength 0 length.toNat⟩,
      ← slice afterLength length.toNat afterLength.length)
  else fail (.dataset "CoAP option number overflow")

/-- The loop over the option region, for at most so many turns. -/
def decodeOptions : ℕ → UInt16 → Bytes → Bounded Error (List CoapOption × Bytes)
  | _, _, [] => pure ([], [])
  | 0, _, _ :: _ => lost
  | turns + 1, lastNumber, first :: afterHeader =>
    if first = 0xff then pure ([], afterHeader)
    else do
      let (option, rest) ← decodeOption lastNumber first afterHeader
      let (options, payload) ← decodeOptions turns option.number rest
      return (option :: options, payload)

def CoapMessage.decode (bytes : Bytes) : Bounded Error CoapMessage := do
  if bytes.length < 4 then fail (.dataset "CoAP header is truncated")
  else
    let first ← byte bytes 0
    if first >>> 6 ≠ 1 then fail (.dataset "unsupported CoAP version")
    else
      let tokenLen := (first &&& 0x0f).toNat
      if 8 < tokenLen ∨ bytes.length < 4 + tokenLen then fail (.dataset "invalid CoAP token length")
      else
        let ty ← safe (CoapType.tryFrom (first >>> 4 &&& 0x03))
        let code ← byte bytes 1
        let messageId ← number bytes 2 2
        let token ← slice bytes 4 (4 + tokenLen)
        let rest ← slice bytes (4 + tokenLen) bytes.length
        let (options, payload) ← decodeOptions rest.length 0 rest
        return ⟨ty, ⟨code⟩, .ofNat messageId, token, options, payload⟩

variable {nibble first : UInt8} {bytes afterHeader rest : Bytes} {last : UInt16}

theorem decodeExtendedNibble_eq (nibble : UInt8) (bytes : Bytes) :
    decodeExtendedNibble nibble bytes = safe (Coap.decodeExtendedNibble nibble bytes) := by
  unfold decodeExtendedNibble Coap.decodeExtendedNibble
  split
  · rfl
  · split
    · cases bytes <;> rfl
    · split
      · split
        · rfl
        · next hlong =>
          rw [number_of_le (by omega), safe_ok_bind, drop_zero]
          dsimp only
          split <;> rfl
      · rfl

theorem used_le_of_decode {value : UInt16} {used : ℕ} (h : Coap.decodeExtendedNibble nibble bytes = .ok (value, used)) :
    used ≤ bytes.length := by
  unfold Coap.decodeExtendedNibble at h
  split at h
  · cases h
    exact Nat.zero_le _
  · split at h
    · split at h
      · cases h
        exact Nat.le_add_left _ _
      · cases h
    · split at h
      · split at h
        · cases h
        · next hlong =>
          dsimp only at h
          split at h
          · cases h
            omega
          · cases h
      · cases h

theorem decodeOption_eq (last : UInt16) (first : UInt8) (afterHeader : Bytes) :
    decodeOption last first afterHeader = safe (Coap.decodeOption last first afterHeader) := by
  rw [decodeOption, decodeExtendedNibble_eq]
  refine safe_bind ?_
  rintro ⟨delta, usedDelta⟩ hdelta
  dsimp only
  rw [slice_to_end (used_le_of_decode hdelta), safe_ok_bind, decodeExtendedNibble_eq]
  refine safe_bind ?_
  rintro ⟨length, usedLen⟩ hlen
  dsimp only
  rw [slice_to_end (used_le_of_decode hlen), safe_ok_bind]
  generalize (afterHeader.drop usedDelta).drop usedLen = afterLength
  by_cases hshort : afterLength.length < length.toNat
  · rw [if_pos hshort, ensure, if_neg (Nat.not_le.mpr hshort)]
    rfl
  · have hle : length.toNat ≤ afterLength.length := Nat.le_of_not_lt hshort
    rw [if_neg hshort, ensure_true hle, ok_bind]
    by_cases hnumber : last.toNat + delta.toNat < 2 ^ 16
    · rw [if_pos hnumber, ensure_true hnumber, slice_of_le (Nat.zero_le _) hle, slice_to_end hle]
      rfl
    · rw [if_neg hnumber, ensure, if_neg hnumber]
      rfl

theorem decodeOptions_eq {turns : ℕ} (h : rest.length ≤ turns) (last : UInt16) :
    decodeOptions turns last rest = safe (Coap.decodeOptions last rest) := by
  fun_induction Coap.decodeOptions last rest generalizing turns with
  | case1 last => cases turns <;> rfl
  | case2 last afterHeader =>
    cases turns with
    | zero => cases h
    | succ turns => rfl
  | case3 last first afterHeader hmarker e hoption =>
    cases turns with
    | zero => cases h
    | succ turns =>
      rw [decodeOptions, if_neg hmarker, decodeOption_eq, hoption]
      rfl
  | case4 last first afterHeader hmarker option rest hoption hle e hrest ih =>
    cases turns with
    | zero => cases h
    | succ turns =>
      rw [length_cons] at h
      rw [decodeOptions, if_neg hmarker, decodeOption_eq, hoption, safe_ok_bind]
      dsimp only
      rw [ih (by omega), hrest]
      rfl
  | case5 last first afterHeader hmarker option rest hoption hle options payload hrest ih =>
    cases turns with
    | zero => cases h
    | succ turns =>
      rw [length_cons] at h
      rw [decodeOptions, if_neg hmarker, decodeOption_eq, hoption, safe_ok_bind]
      dsimp only
      rw [ih (by omega), hrest]
      rfl

theorem CoapMessage.decode_eq (bytes : Bytes) : CoapMessage.decode bytes = safe (Coap.CoapMessage.decode bytes) := by
  rcases bytes with _ | ⟨first, _ | ⟨code, _ | ⟨high, _ | ⟨low, rest⟩⟩⟩⟩
  · rfl
  · rfl
  · rfl
  · rfl
  · have hfirst : (byte (first :: code :: high :: low :: rest) 0 : Bounded Error UInt8) = safe (.ok first) := rfl
    have hcode : (byte (first :: code :: high :: low :: rest) 1 : Bounded Error UInt8) = safe (.ok code) := rfl
    have hlen : (first :: code :: high :: low :: rest).length = 4 + rest.length := by
      simp only [length_cons]
      omega
    rw [CoapMessage.decode, if_neg (by omega), hfirst, safe_ok_bind, Coap.CoapMessage.decode]
    by_cases hversion : first >>> 6 = 1
    · rw [if_neg (not_not.mpr hversion), ensure_true hversion, ok_bind]
      dsimp only
      generalize (first &&& 0x0f).toNat = tokenLen
      by_cases htoken : tokenLen ≤ 8 ∧ tokenLen ≤ rest.length
      · have hle : 4 + tokenLen ≤ (first :: code :: high :: low :: rest).length := by omega
        have hdrop : (first :: code :: high :: low :: rest).drop (4 + tokenLen) = rest.drop tokenLen := by
          rw [← drop_drop]
          rfl
        rw [if_neg (by omega), ensure_true htoken, ok_bind]
        refine safe_bind fun ty _ => ?_
        rw [hcode, safe_ok_bind, number_of_le (by omega), safe_ok_bind, slice_add hle, safe_ok_bind, slice_to_end hle,
          safe_ok_bind, hdrop, decodeOptions_eq le_rfl]
        exact safe_bind fun _ _ => rfl
      · rw [if_pos (by omega), ensure, if_neg htoken]
        rfl
    · rw [if_pos hversion, ensure, if_neg hversion]
      rfl

end Messages

section Handshakes

def RecordHeader.parse (bytes : Bytes) : Bounded DtlsError RecordHeader := do
  if bytes.length < recordHeaderLen then fail (.crypto "DTLS record header is truncated")
  else
    let sequenceNumber ← number bytes 5 6
    let contentType ← safe (ContentType.tryFrom (← byte bytes 0))
    return {
      contentType
      version := .ofNat (← number bytes 1 2)
      epoch := .ofNat (← number bytes 3 2)
      sequenceNumber := .ofNat sequenceNumber
      length := .ofNat (← number bytes 11 2) }

/-- One turn of the loop of `parse_datagram`. -/
def DtlsRecord.parseNext (bytes : Bytes) : Bounded DtlsError (DtlsRecord × Bytes) := do
  let header ← RecordHeader.parse bytes
  let finish := recordHeaderLen + header.length.toNat
  if bytes.length < finish then fail (.crypto "DTLS record payload is truncated")
  else return ({ header, payload := ← slice bytes recordHeaderLen finish }, ← slice bytes finish bytes.length)

def DtlsRecord.parseDatagram (bytes : Bytes) : Bounded DtlsError (List DtlsRecord) :=
  collect DtlsRecord.parseNext bytes.length bytes

/-- The bytes of a 24-bit number are cut out before they are read. -/
def readU24 (bytes : Bytes) (start : ℕ) : Bounded DtlsError ℕ := do number (← slice bytes start (start + 3)) 0 3

def HandshakeHeader.parse (bytes : Bytes) : Bounded DtlsError HandshakeHeader := do
  if bytes.length < handshakeHeaderLen then fail (.crypto "DTLS handshake header is truncated")
  else
    let messageType ← safe (HandshakeType.tryFrom (← byte bytes 0))
    let header : HandshakeHeader := {
      messageType
      length := ← readU24 bytes 1
      messageSeq := .ofNat (← number bytes 4 2)
      fragmentOffset := ← readU24 bytes 6
      fragmentLength := ← readU24 bytes 9 }
    safe header.validate
    return header

def HandshakeFragment.parse (bytes : Bytes) : Bounded DtlsError HandshakeFragment := do
  let header ← HandshakeHeader.parse bytes
  let finish := handshakeHeaderLen + header.fragmentLength
  if bytes.length < finish then fail (.crypto "DTLS handshake fragment is truncated")
  else return { header, fragment := ← slice bytes handshakeHeaderLen finish }

/-- One turn of the loop of `parse_unfragmented_handshake_messages`. -/
def HandshakeMessage.parseNext (bytes : Bytes) : Bounded DtlsError (HandshakeMessage × Bytes) := do
  let fragment ← HandshakeFragment.parse bytes
  if fragment.header.fragmentOffset ≠ 0 ∨ fragment.header.fragmentLength ≠ fragment.header.length then
    fail (.crypto "DTLS handshake message is fragmented")
  else
    let consumed := handshakeHeaderLen + fragment.fragment.length
    return (⟨fragment.header.messageType, fragment.header.messageSeq, fragment.fragment⟩,
      ← slice bytes consumed bytes.length)

def parseUnfragmentedHandshakeMessages (record : DtlsRecord) : Bounded DtlsError (List HandshakeMessage) :=
  if record.header.contentType ≠ .handshake then fail (.crypto "DTLS record is not a handshake record")
  else collect HandshakeMessage.parseNext record.payload.length record.payload

variable (bytes : Bytes)

theorem byte_zero {ε : Type} {bytes : Bytes} (h : 0 < bytes.length) :
    (byte bytes 0 : Bounded ε UInt8) = safe (.ok (bytes.headD 0)) := by
  cases bytes with
  | nil => cases h
  | cons first rest => rfl

theorem RecordHeader.parse_eq : RecordHeader.parse bytes = safe (Records.RecordHeader.parse bytes) := by
  rw [RecordHeader.parse, Records.RecordHeader.parse]
  by_cases hshort : bytes.length < recordHeaderLen
  · rw [if_pos hshort, if_pos hshort]
    rfl
  · have hlen : 13 ≤ bytes.length := Nat.le_of_not_lt hshort
    rw [if_neg hshort, if_neg hshort, number_of_le (by omega), safe_ok_bind, byte_zero (by omega), safe_ok_bind]
    refine safe_bind fun ty _ => ?_
    rw [number_of_le (by omega), safe_ok_bind, number_of_le (by omega), safe_ok_bind, number_of_le (by omega)]
    rfl

theorem DtlsRecord.parseNext_eq : DtlsRecord.parseNext bytes = safe (Records.DtlsRecord.parseNext bytes) := by
  rw [DtlsRecord.parseNext, RecordHeader.parse_eq]
  refine safe_bind fun hdr _ => ?_
  dsimp only
  split
  · rfl
  · next hlong =>
    have hle : recordHeaderLen + hdr.length.toNat ≤ bytes.length := Nat.le_of_not_lt hlong
    rw [slice_of_le (Nat.le_add_right _ _) hle, slice_to_end hle]
    rfl

theorem DtlsRecord.parseDatagram_eq : DtlsRecord.parseDatagram bytes = safe (Records.DtlsRecord.parseDatagram bytes) :=
  collect_eq_all (F := recordFramer) DtlsRecord.parseNext_eq bytes

theorem readU24_of_le {bytes : Bytes} {start : ℕ} (h : start + 3 ≤ bytes.length) :
    readU24 bytes start = safe (.ok (beNat ((bytes.drop start).take 3))) := by
  have hlen : ((bytes.drop start).take 3).length = 3 := by
    rw [length_take, length_drop]
    omega
  rw [readU24, slice_add h, safe_ok_bind, number_of_le (by omega), drop_zero, take_of_length_le hlen.le]

theorem HandshakeHeader.parse_eq : HandshakeHeader.parse bytes = safe (HandshakeMessages.HandshakeHeader.parse bytes) := by
  rw [HandshakeHeader.parse, HandshakeMessages.HandshakeHeader.parse]
  by_cases hshort : bytes.length < handshakeHeaderLen
  · rw [if_pos hshort, if_pos hshort]
    rfl
  · have hlen : 12 ≤ bytes.length := Nat.le_of_not_lt hshort
    rw [if_neg hshort, if_neg hshort, byte_zero (by omega), safe_ok_bind]
    refine safe_bind fun messageType _ => ?_
    rw [readU24_of_le (by omega), safe_ok_bind, number_of_le (by omega), safe_ok_bind, readU24_of_le (by omega),
      safe_ok_bind, readU24_of_le (by omega), safe_ok_bind]
    exact safe_bind fun _ _ => rfl

theorem HandshakeFragment.parse_eq :
    HandshakeFragment.parse bytes = safe (HandshakeMessages.HandshakeFragment.parse bytes) := by
  rw [HandshakeFragment.parse, HandshakeHeader.parse_eq]
  refine safe_bind fun hdr _ => ?_
  dsimp only
  split
  · rfl
  · next hlong =>
    rw [slice_of_le (Nat.le_add_right _ _) (Nat.le_of_not_lt hlong)]
    rfl

theorem HandshakeMessage.parseNext_eq :
    HandshakeMessage.parseNext bytes = safe (HandshakeMessages.HandshakeMessage.parseNext bytes) := by
  rw [HandshakeMessage.parseNext, HandshakeFragment.parse_eq]
  refine safe_bind fun frag hfragment => ?_
  have hle := (HandshakeFragment.length_of_parse hfragment).2
  by_cases hwhole : frag.header.fragmentOffset = 0 ∧ frag.header.fragmentLength = frag.header.length
  · have hflag : frag.isWhole = true := decide_eq_true hwhole
    rw [if_neg (by simp [hwhole.1, hwhole.2]), if_neg (by simp [hflag])]
    dsimp only
    rw [slice_to_end hle]
    rfl
  · have hflag : frag.isWhole = false := decide_eq_false hwhole
    rw [if_pos (by rwa [← not_and_or]), if_pos (by simp [hflag])]
    rfl

theorem parseUnfragmentedHandshakeMessages_eq (r : DtlsRecord) :
    parseUnfragmentedHandshakeMessages r = safe (HandshakeMessages.parseUnfragmentedHandshakeMessages r) := by
  rw [parseUnfragmentedHandshakeMessages, HandshakeMessages.parseUnfragmentedHandshakeMessages]
  split
  · rfl
  · exact collect_eq_all (F := messageFramer) HandshakeMessage.parseNext_eq r.payload

end Handshakes

section HelloMessages

def readExtension : CursorM DtlsError TlsExtension := do
  let extensionType ← Cursor.readU16 helloTruncated
  let data ← Cursor.readVecU16 helloTruncated
  return { extensionType, data }

def readExtensions : CursorM DtlsError (List TlsExtension) := do
  if (← Cursor.remaining) = 0 then return []
  else
    let extensionBytes ← Cursor.readVecU16 helloTruncated
    (Cursor.collect readExtension extensionBytes.length [] (.new extensionBytes) : Bounded DtlsError (List TlsExtension))

/-- `chunks_exact(2)`, each pair reached by its indices. -/
def cipherSuites (cipherBytes : Bytes) : Bounded DtlsError (List UInt16) :=
  (chunksExact 2 cipherBytes).mapM fun suite => do return .ofNat (← number suite 0 2)

def ClientHello.reader : CursorM DtlsError ClientHello := do
  let version ← Cursor.readU16 helloTruncated
  if version ≠ dtls12Version then
    (fail (.crypto "ClientHello version is not DTLS 1.2") : Bounded DtlsError Unit)
  let random ← Cursor.readArray helloTruncated 32
  let sessionId ← Cursor.readVecU8 helloTruncated
  let cookie ← Cursor.readVecU8 helloTruncated
  let cipherBytes ← Cursor.readVecU16 helloTruncated
  if cipherBytes.length % 2 ≠ 0 then
    (fail (.crypto "ClientHello cipher-suite vector has odd length") : Bounded DtlsError Unit)
  let cipherSuites ← (cipherSuites cipherBytes : Bounded DtlsError (List UInt16))
  let compressionMethods ← Cursor.readVecU8 helloTruncated
  let extensions ← readExtensions
  Cursor.finish helloTrailing
  return { random, sessionId, cookie, cipherSuites, compressionMethods, extensions }

def ClientHello.decode (bytes : Bytes) : Bounded DtlsError ClientHello := do
  let (hello, _) ← ClientHello.reader.run (.new bytes)
  return hello

def ServerHello.reader : CursorM DtlsError ServerHello := do
  let version ← Cursor.readU16 helloTruncated
  if version ≠ dtls12Version then
    (fail (.crypto "ServerHello version is not DTLS 1.2") : Bounded DtlsError Unit)
  let random ← Cursor.readArray helloTruncated 32
  let sessionId ← Cursor.readVecU8 helloTruncated
  let cipherSuite ← Cursor.readU16 helloTruncated
  let compressionMethod ← Cursor.readU8 helloTruncated
  let extensions ← readExtensions
  Cursor.finish helloTrailing
  return { random, sessionId, cipherSuite, compressionMethod, extensions }

def ServerHello.decode (bytes : Bytes) : Bounded DtlsError ServerHello := do
  let (hello, _) ← ServerHello.reader.run (.new bytes)
  return hello

theorem tracks_readExtension : Tracks readExtension Hellos.readExtension :=
  tracks_readU16.bind fun _ => tracks_readVecU16.bind fun _ => .pure _

theorem tracks_readExtensions : Tracks readExtensions Hellos.readExtensions := by
  refine tracks_remaining.bind fun left => .ite (.pure _) (tracks_readVecU16.bind fun extensionBytes => ?_)
  exact .lift (tracks_readExtension.collect_eq_all (F := extensionFramer) (fun _ => rfl) extensionBytes)

theorem cipherSuites_eq (cipherBytes : Bytes) : cipherSuites cipherBytes = safe (.ok (cipherSuitesOf cipherBytes)) := by
  have hsuite : ∀ suite ∈ chunksExact 2 cipherBytes,
      (do return .ofNat (← number suite 0 2) : Bounded DtlsError UInt16) = safe (.ok (.ofNat (beNat suite))) := by
    intro suite hsuite
    have hlen := length_of_mem_chunksExact hsuite
    rw [number_of_le (by omega), drop_zero, take_of_length_le hlen.le]
    rfl
  rw [cipherSuites, mapM_safe hsuite, except_mapM_of_ok fun _ _ => rfl]
  refine congrArg (fun suites => safe (.ok suites)) (map_chunksExact (by decide) ?_ ?_ cipherBytes)
  · intro suite rest hlen
    obtain ⟨high, low, rfl⟩ := length_eq_two.mp hlen
    rfl
  · intro value hlen
    rcases value with _ | ⟨only, _ | ⟨second, rest⟩⟩
    · rfl
    · rfl
    · simp only [length_cons] at hlen
      omega

theorem tracks_clientHello : Tracks ClientHello.reader Hellos.ClientHello.reader := by
  refine tracks_readU16.bind fun version => .check fun _ => ?_
  refine tracks_readArray.bind fun random => tracks_readVecU8.bind fun sid => ?_
  refine tracks_readVecU8.bind fun cookie => tracks_readVecU16.bind fun cipherBytes => .check fun _ => ?_
  rw [cipherSuites_eq]
  refine .lift_bind (tracks_readVecU8.bind fun compressionMethods => ?_)
  exact tracks_readExtensions.bind fun exts => tracks_finish.bind fun _ => .pure _

theorem tracks_serverHello : Tracks ServerHello.reader Hellos.ServerHello.reader := by
  refine tracks_readU16.bind fun version => .check fun _ => ?_
  refine tracks_readArray.bind fun random => tracks_readVecU8.bind fun sid => ?_
  refine tracks_readU16.bind fun cipherSuite => tracks_readU8.bind fun compressionMethod => ?_
  exact tracks_readExtensions.bind fun exts => tracks_finish.bind fun _ => .pure _

theorem ClientHello.decode_eq (bytes : Bytes) : ClientHello.decode bytes = safe (Hellos.ClientHello.decode bytes) :=
  tracks_clientHello.read bytes

theorem ServerHello.decode_eq (bytes : Bytes) : ServerHello.decode bytes = safe (Hellos.ServerHello.decode bytes) :=
  tracks_serverHello.read bytes

end HelloMessages

section NetworkDatas

def nextNetworkDataTlv (bytes : Bytes) : Bounded Error ((UInt8 × Bytes) × Bytes) := do
  if bytes.length < 2 then fail (.dataset "network data TLV header is truncated")
  else
    let first ← byte bytes 0
    let len ← byte bytes 1
    let afterHeader ← slice bytes 2 bytes.length
    if afterHeader.length < len.toNat then fail (.dataset "network data TLV value is truncated")
    else return ((first >>> 1, ← slice afterHeader 0 len.toNat), ← slice afterHeader len.toNat afterHeader.length)

def decodeHasRoute (value : Bytes) : Bounded Error (List HasRouteEntry) := do
  safe (wholeEntries value 3 "HasRoute")
  (chunksExact 3 value).mapM fun chunk => do
    return {
      rloc16 := .ofNat (← number chunk 0 2)
      routerPreference := (← byte chunk 2) >>> 6 &&& 0x03
      isNat64 := bitSet (← byte chunk 2) 5 }

def decodeBorderRouter (value : Bytes) : Bounded Error (List BorderRouterEntry) := do
  safe (wholeEntries value 4 "BorderRouter")
  (chunksExact 4 value).mapM fun chunk => do
    return {
      rloc16 := .ofNat (← number chunk 0 2)
      prefixPreference := (← byte chunk 2) >>> 6 &&& 0x03
      isPreferred := bitSet (← byte chunk 2) 5
      isSlaac := bitSet (← byte chunk 2) 4
      isDhcp := bitSet (← byte chunk 2) 3
      isConfigure := bitSet (← byte chunk 2) 2
      isDefaultRoute := bitSet (← byte chunk 2) 1
      isOnMesh := bitSet (← byte chunk 2) 0
      isNdDns := bitSet (← byte chunk 3) 7
      isDp := bitSet (← byte chunk 3) 6 }

def prefixSubTlv (entry : PrefixEntry) (tlv : UInt8 × Bytes) : Bounded Error PrefixEntry :=
  if tlv.1 = networkDataHasRoute then do
    return { entry with hasRoute := entry.hasRoute ++ (← decodeHasRoute tlv.2) }
  else if tlv.1 = networkDataBorderRouter then do
    return { entry with borderRouters := entry.borderRouters ++ (← decodeBorderRouter tlv.2) }
  else if tlv.1 = networkData6LowpanContext then do
    return { entry with sixLowPanContext := some (← safe (decodeSixLowPanContext tlv.2)) }
  else pure entry

def decodePrefixEntry (value : Bytes) : Bounded Error PrefixEntry := do
  if value.length < 2 then fail (.dataset "Prefix entry is truncated")
  else
    let domainId ← byte value 0
    let prefixBitLength ← byte value 1
    let prefixLen := (prefixBitLength.toNat + 7) / 8
    let subTlvOffset := 2 + prefixLen
    if value.length < subTlvOffset then fail (.dataset "Prefix bytes are truncated")
    else
      let prefixBytes ← slice value 2 subTlvOffset
      let subTlvs ← slice value subTlvOffset value.length
      scan nextNetworkDataTlv prefixSubTlv subTlvs.length { domainId, prefixBitLength, prefixBytes } subTlvs

def NetworkData.decode (value : Bytes) : Bounded Error NetworkData := do
  let prefixes ← scan nextNetworkDataTlv (fun prefixes tlv =>
    if tlv.1 = networkDataPrefix then do return prefixes ++ [← decodePrefixEntry tlv.2] else pure prefixes)
    value.length [] value
  return { prefixes }

theorem nextNetworkDataTlv_eq (bytes : Bytes) : nextNetworkDataTlv bytes = safe (Diagnostics.nextNetworkDataTlv bytes) := by
  rcases bytes with _ | ⟨first, _ | ⟨len, afterHeader⟩⟩
  · rfl
  · rfl
  · have hlong : 2 ≤ (first :: len :: afterHeader).length := by simp
    have hfirst : (byte (first :: len :: afterHeader) 0 : Bounded Error UInt8) = safe (.ok first) := rfl
    have hlen : (byte (first :: len :: afterHeader) 1 : Bounded Error UInt8) = safe (.ok len) := rfl
    have hafter : (first :: len :: afterHeader).drop 2 = afterHeader := rfl
    rw [nextNetworkDataTlv, if_neg (Nat.not_lt.mpr hlong), hfirst, safe_ok_bind, hlen, safe_ok_bind, slice_to_end hlong,
      safe_ok_bind, hafter, Diagnostics.nextNetworkDataTlv]
    split
    · rfl
    · next hvalue =>
      have hle : len.toNat ≤ afterHeader.length := Nat.le_of_not_lt hvalue
      rw [slice_of_le (Nat.zero_le _) hle, slice_to_end hle]
      rfl

theorem wholeEntries_eq {α : Type} {size : ℕ} {value : Bytes} {name : String} {f : Bytes → Bounded Error α} {g : Bytes → α}
    (h : ∀ chunk : Bytes, chunk.length = size → f chunk = safe (.ok (g chunk))) :
    (do safe (wholeEntries value size name); (chunksExact size value).mapM f : Bounded Error (List α)) =
      safe (do wholeEntries value size name; return (chunksExact size value).map g) := by
  refine safe_bind fun _ _ => ?_
  rw [mapM_safe fun chunk hchunk => h chunk (length_of_mem_chunksExact hchunk), except_mapM_of_ok fun _ _ => rfl]
  rfl

variable (value : Bytes)

theorem decodeHasRoute_eq : decodeHasRoute value = safe (Diagnostics.decodeHasRoute value) := by
  refine wholeEntries_eq fun chunk hchunk => ?_
  obtain ⟨high, low, flags, rfl⟩ := length_eq_three.mp hchunk
  rfl

theorem decodeBorderRouter_eq : decodeBorderRouter value = safe (Diagnostics.decodeBorderRouter value) := by
  refine wholeEntries_eq fun chunk hchunk => ?_
  obtain ⟨high, rest, rfl, hrest⟩ := length_eq_succ_iff.mp hchunk
  obtain ⟨low, first, second, rfl⟩ := length_eq_three.mp hrest
  rfl

theorem prefixSubTlv_eq (entry : PrefixEntry) (tlv : UInt8 × Bytes) :
    prefixSubTlv entry tlv = safe (Diagnostics.prefixSubTlv entry tlv) := by
  rw [prefixSubTlv, Diagnostics.prefixSubTlv, decodeHasRoute_eq, decodeBorderRouter_eq]
  split
  · exact safe_bind fun _ _ => rfl
  · split
    · exact safe_bind fun _ _ => rfl
    · split
      · exact safe_bind fun _ _ => rfl
      · rfl

theorem decodePrefixEntry_eq : decodePrefixEntry value = safe (Diagnostics.decodePrefixEntry value) := by
  rcases value with _ | ⟨domainId, _ | ⟨prefixBitLength, rest⟩⟩
  · rfl
  · rfl
  · have hlong : 2 ≤ (domainId :: prefixBitLength :: rest).length := by simp
    have hdomain : (byte (domainId :: prefixBitLength :: rest) 0 : Bounded Error UInt8) = safe (.ok domainId) := rfl
    have hbits : (byte (domainId :: prefixBitLength :: rest) 1 : Bounded Error UInt8) = safe (.ok prefixBitLength) := rfl
    have hlen : (domainId :: prefixBitLength :: rest).length = 2 + rest.length := by
      simp only [length_cons]
      omega
    rw [decodePrefixEntry, if_neg (Nat.not_lt.mpr hlong), hdomain, safe_ok_bind, hbits, safe_ok_bind,
      Diagnostics.decodePrefixEntry]
    dsimp only
    generalize (prefixBitLength.toNat + 7) / 8 = prefixLen
    by_cases hshort : rest.length < prefixLen
    · rw [if_pos (by omega), if_pos hshort]
      rfl
    · have hle : 2 + prefixLen ≤ (domainId :: prefixBitLength :: rest).length := by omega
      have hdrop : (domainId :: prefixBitLength :: rest).drop (2 + prefixLen) = rest.drop prefixLen := by
        rw [← drop_drop]
        rfl
      rw [if_neg (by omega), if_neg hshort, slice_add hle, safe_ok_bind, slice_to_end hle, safe_ok_bind, hdrop]
      exact scan_eq_fold (F := networkDataTlvs) nextNetworkDataTlv_eq prefixSubTlv_eq le_rfl _

theorem NetworkData.decode_eq : NetworkData.decode value = safe (Diagnostics.NetworkData.decode value) := by
  have hstep : ∀ (prefixes : List PrefixEntry) (tlv : UInt8 × Bytes),
      (if tlv.1 = networkDataPrefix then do return prefixes ++ [← decodePrefixEntry tlv.2] else pure prefixes :
        Bounded Error (List PrefixEntry)) =
        safe (if tlv.1 = networkDataPrefix then do return prefixes ++ [← Diagnostics.decodePrefixEntry tlv.2]
          else .ok prefixes) := by
    intro prefixes tlv
    split
    · rw [decodePrefixEntry_eq]
      exact safe_bind fun _ _ => rfl
    · rfl
  rw [NetworkData.decode, scan_eq_fold (F := networkDataTlvs) nextNetworkDataTlv_eq hstep le_rfl]
  exact safe_bind fun _ _ => rfl

end NetworkDatas

end ThreadCommissioner.CheckedParsers
