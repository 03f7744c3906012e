import ThreadCommissioner.HandshakeMessages
import ThreadCommissioner.Readers

namespace ThreadCommissioner.Hellos

open ByteStrings Computations Errors Framing HandshakeMessages List Readers Records

def tlsEcjpakeWithAes128Ccm8 : UInt16 := 0xc0ff

def tlsEmptyRenegotiationInfoScsv : UInt16 := 0x00ff

def tlsCompressionNull : UInt8 := 0

def extensionMaxFragmentLength : UInt16 := 1

def extensionSupportedGroups : UInt16 := 10

def extensionEcPointFormats : UInt16 := 11

def extensionSignatureAlgorithms : UInt16 := 13

def extensionEcjpakeKkpp : UInt16 := 256

structure TlsExtension where
  extensionType : UInt16
  data : Bytes
  deriving DecidableEq, Repr

def supportedGroupsExtension : TlsExtension := ⟨extensionSupportedGroups, [0x00, 0x02, 0x00, 23]⟩

def signatureAlgorithmsExtension : TlsExtension := ⟨extensionSignatureAlgorithms, [0x00, 0x02, 0x04, 0x03]⟩

def ecPointFormatsExtension : TlsExtension := ⟨extensionEcPointFormats, [0x01, 0]⟩

def maxFragmentLengthExtension : TlsExtension := ⟨extensionMaxFragmentLength, [0x02]⟩

def findExtension (extensions : List TlsExtension) (extensionType : UInt16) : Option Bytes :=
  (extensions.find? fun extension => extension.extensionType == extensionType).map TlsExtension.data

def validateU8Len (len : ℕ) (field : String) : Except DtlsError Unit :=
  if 255 < len then .error (.crypto (field ++ " exceeds 255 bytes")) else .ok ()

def validateU16Len (len : ℕ) (field : String) : Except DtlsError Unit :=
  if 65535 < len then .error (.crypto (field ++ " exceeds 65535 bytes")) else .ok ()

def TlsExtension.bytes (extension : TlsExtension) : Bytes :=
  beBytes 2 extension.extensionType.toNat ++ (beBytes 2 extension.data.length ++ extension.data)

/-- The length-prefixed extension block that ends a hello message. -/
def appendExtensions (out : Bytes) (extensions : List TlsExtension) : Except DtlsError Bytes := do
  extensions.forM fun extension => validateU16Len extension.data.length "TLS extension"
  let encoded := extensions.flatMap TlsExtension.bytes
  validateU16Len encoded.length "TLS extensions"
  return out ++ (beBytes 2 encoded.length ++ encoded)

def helloTruncated : DtlsError := .crypto "DTLS structure is truncated"

def helloTrailing : DtlsError := .crypto "trailing bytes after DTLS structure"

def readExtension : Reader DtlsError TlsExtension := do
  let extensionType ← readU16 helloTruncated
  let data ← readVecU16 helloTruncated
  return { extensionType, data }

theorem readExtension_shrinks {bs rest : Bytes} {ext : TlsExtension}
    (h : Reader.next readExtension bs = .ok (ext, rest)) : rest.length < bs.length := by
  simp only [Reader.next] at h
  split at h
  · next hr =>
    cases h
    obtain ⟨type, s, ht, hr⟩ := bind_eq_ok.mp hr
    obtain ⟨data, s', hd, hr⟩ := bind_eq_ok.mp hr
    cases hr
    have h1 := length_of_readU16 ht
    have h2 := length_of_readVecU16 hd
    omega
  · cases h

def extensionFramer : Framer DtlsError TlsExtension := ⟨Reader.next readExtension, readExtension_shrinks⟩

def readExtensions : Reader DtlsError (List TlsExtension) := do
  if (← remaining) = 0 then return []
  else
    let extensionBytes ← readVecU16 helloTruncated
    extensionFramer.all extensionBytes

structure ClientHello where
  random : ByteVector 32
  sessionId : Bytes
  cookie : Bytes
  cipherSuites : List UInt16
  compressionMethods : Bytes
  extensions : List TlsExtension
  deriving DecidableEq

def ClientHello.threadProfile (random : ByteVector 32) (cookie : Bytes) : ClientHello where
  random := random
  sessionId := []
  cookie := cookie
  cipherSuites := [tlsEcjpakeWithAes128Ccm8, tlsEmptyRenegotiationInfoScsv]
  compressionMethods := [tlsCompressionNull]
  extensions := [supportedGroupsExtension, signatureAlgorithmsExtension, ecPointFormatsExtension]

def ClientHello.setEcjpakeKkpp (hello : ClientHello) (kkpp : Bytes) : ClientHello :=
  { hello with
    extensions := hello.extensions.filter (fun extension =>
        extension.extensionType != extensionEcjpakeKkpp &&
          extension.extensionType != extensionMaxFragmentLength) ++
      [⟨extensionEcjpakeKkpp, kkpp⟩, maxFragmentLengthExtension] }

def ClientHello.threadProfileWithEcjpake (random : ByteVector 32) (cookie kkpp : Bytes) : ClientHello :=
  (ClientHello.threadProfile random cookie).setEcjpakeKkpp kkpp

def ClientHello.ecjpakeKkpp (hello : ClientHello) : Option Bytes :=
  findExtension hello.extensions extensionEcjpakeKkpp

def ClientHello.encode (hello : ClientHello) : Except DtlsError Bytes := do
  validateU8Len hello.sessionId.length "ClientHello session_id"
  validateU8Len hello.cookie.length "ClientHello cookie"
  validateU8Len hello.compressionMethods.length "ClientHello compression methods"
  validateU16Len (hello.cipherSuites.length * 2) "ClientHello cipher suites"
  appendExtensions
    (beBytes 2 dtls12Version.toNat ++ (hello.random.toList ++
      (UInt8.ofNat hello.sessionId.length :: (hello.sessionId ++
        (UInt8.ofNat hello.cookie.length :: (hello.cookie ++
          (beBytes 2 (hello.cipherSuites.length * 2) ++
            (hello.cipherSuites.flatMap (fun suite => beBytes 2 suite.toNat) ++
              (UInt8.ofNat hello.compressionMethods.length :: hello.compressionMethods)))))))))
    hello.extensions

/-- `chunks_exact(2)`, each pair read as a big-endian `u16`. -/
def cipherSuitesOf : Bytes → List UInt16
  | a :: b :: rest => .ofNat (beNat [a, b]) :: cipherSuitesOf rest
  | _ => []

def ClientHello.reader : Reader DtlsError ClientHello := do
  let version ← readU16 helloTruncated
  if version ≠ dtls12Version then throw (.crypto "ClientHello version is not DTLS 1.2")
  let random ← readArray helloTruncated 32
  let sessionId ← readVecU8 helloTruncated
  let cookie ← readVecU8 helloTruncated
  let cipherBytes ← readVecU16 helloTruncated
  if cipherBytes.length % 2 ≠ 0 then throw (.crypto "ClientHello cipher-suite vector has odd length")
  let cipherSuites := cipherSuitesOf cipherBytes
  let compressionMethods ← readVecU8 helloTruncated
  let extensions ← readExtensions
  finish helloTrailing
  return { random, sessionId, cookie, cipherSuites, compressionMethods, extensions }

def ClientHello.decode (bytes : Bytes) : Except DtlsError ClientHello := ClientHello.reader.read bytes

structure HelloVerifyRequest where
  serverVersion : UInt16
  cookie : Bytes
  deriving DecidableEq, Repr

def HelloVerifyRequest.encode (request : HelloVerifyRequest) : Except DtlsError Bytes := do
  validateU8Len request.cookie.length "HelloVerifyRequest cookie"
  return beBytes 2 request.serverVersion.toNat ++ (UInt8.ofNat request.cookie.length :: request.cookie)

def HelloVerifyRequest.reader : Reader DtlsError HelloVerifyRequest := do
  let serverVersion ← readU16 helloTruncated
  let cookie ← readVecU8 helloTruncated
  finish helloTrailing
  return { serverVersion, cookie }

def HelloVerifyRequest.decode (bytes : Bytes) : Except DtlsError HelloVerifyRequest :=
  HelloVerifyRequest.reader.read bytes

structure ServerHello where
  random : ByteVector 32
  sessionId : Bytes
  cipherSuite : UInt16
  compressionMethod : UInt8
  extensions : List TlsExtension
  deriving DecidableEq

def ServerHello.validateThreadProfile (hello : ServerHello) : Except DtlsError Unit :=
  if hello.cipherSuite ≠ tlsEcjpakeWithAes128Ccm8 then
    .error (.crypto "ServerHello selected an unsupported cipher suite")
  else if hello.compressionMethod ≠ tlsCompressionNull then
    .error (.crypto "ServerHello selected an unsupported compression method")
  else .ok ()

def ServerHello.ecjpakeKkpp (hello : ServerHello) : Option Bytes :=
  findExtension hello.extensions extensionEcjpakeKkpp

def ServerHello.encode (hello : ServerHello) : Except DtlsError Bytes := do
  validateU8Len hello.sessionId.length "ServerHello session_id"
  appendExtensions
    (beBytes 2 dtls12Version.toNat ++ (hello.random.toList ++
      (UInt8.ofNat hello.sessionId.length :: (hello.sessionId ++
        (beBytes 2 hello.cipherSuite.toNat ++ [hello.compressionMethod])))))
    hello.extensions

def ServerHello.reader : Reader DtlsError ServerHello := do
  let version ← readU16 helloTruncated
  if version ≠ dtls12Version then throw (.crypto "ServerHello version is not DTLS 1.2")
  let random ← readArray helloTruncated 32
  let sessionId ← readVecU8 helloTruncated
  let cipherSuite ← readU16 helloTruncated
  let compressionMethod ← readU8 helloTruncated
  let extensions ← readExtensions
  finish helloTrailing
  return { random, sessionId, cipherSuite, compressionMethod, extensions }

def ServerHello.decode (bytes : Bytes) : Except DtlsError ServerHello := ServerHello.reader.read bytes

structure DtlsClientHelloState where
  random : ByteVector 32
  cookie : Bytes
  ecjpakeKkpp : Option Bytes
  nextRecordSequence : UInt64
  nextMessageSequence : UInt16
  lastClientHelloSequence : Option UInt16

def DtlsClientHelloState.new (random : ByteVector 32) : DtlsClientHelloState where
  random := random
  cookie := []
  ecjpakeKkpp := none
  nextRecordSequence := 0
  nextMessageSequence := 0
  lastClientHelloSequence := none

def DtlsClientHelloState.withEcjpakeKkpp (random : ByteVector 32) (kkpp : Bytes) : DtlsClientHelloState :=
  { DtlsClientHelloState.new random with ecjpakeKkpp := some kkpp }

def DtlsClientHelloState.clientHello (state : DtlsClientHelloState) : ClientHello :=
  match state.ecjpakeKkpp with
  | some kkpp => .threadProfileWithEcjpake state.random state.cookie kkpp
  | none => .threadProfile state.random state.cookie

/-- The message sequence advances before the hello is encoded, the record
sequence only after the record is built. -/
def nextClientHelloRecord : EStateM DtlsError DtlsClientHelloState DtlsRecord := do
  let state ← get
  let messageSeq := state.nextMessageSequence
  set { state with nextMessageSequence := messageSeq + 1, lastClientHelloSequence := some messageSeq }
  let payload ← state.clientHello.encode
  let encoded ← (HandshakeMessage.mk .clientHello messageSeq payload).encode
  let record ← DtlsRecord.new .handshake 0 state.nextRecordSequence encoded
  modify fun state => { state with nextRecordSequence := state.nextRecordSequence + 1 }
  return record

def handleHelloVerifyRequest (record : DtlsRecord) :
    EStateM DtlsError DtlsClientHelloState HelloVerifyRequest := do
  let handshake ← parseUnfragmentedHandshakeRecord record .helloVerifyRequest
  ensure (some handshake.messageSeq = (← get).lastClientHelloSequence)
    (DtlsError.crypto "HelloVerifyRequest sequence does not match ClientHello")
  let helloVerify ← HelloVerifyRequest.decode handshake.payload
  ensure (helloVerify.serverVersion = dtls12Version)
    (DtlsError.crypto "HelloVerifyRequest version is not DTLS 1.2")
  modify fun state => { state with cookie := helloVerify.cookie }
  return helloVerify

def ExtensionsFit (extensions : List TlsExtension) : Prop :=
  (∀ extension ∈ extensions, extension.data.length ≤ 65535) ∧
    (extensions.flatMap TlsExtension.bytes).length ≤ 65535

def extensionBlock (extensions : List TlsExtension) : Bytes :=
  beBytes 2 (extensions.flatMap TlsExtension.bytes).length ++ extensions.flatMap TlsExtension.bytes

theorem validateU8Len_of_le {len : ℕ} (h : len ≤ 255) (field : String) :
    validateU8Len len field = .ok () := if_neg (Nat.not_lt.mpr h)

theorem validateU16Len_of_le {len : ℕ} (h : len ≤ 65535) (field : String) :
    validateU16Len len field = .ok () := if_neg (Nat.not_lt.mpr h)

variable {extensions : List TlsExtension} {state : DtlsClientHelloState} {request : HelloVerifyRequest}

theorem validateExtensions (h : ∀ ext ∈ extensions, ext.data.length ≤ 65535) :
    (extensions.forM fun ext => validateU16Len ext.data.length "TLS extension") = .ok () := by
  induction extensions with
  | nil => rfl
  | cons ext rest ih =>
    rw [List.forM, validateU16Len_of_le (h ext (by simp)), ok_bind]
    exact ih fun e he => h e (by simp [he])

theorem appendExtensions_of_fits (h : ExtensionsFit extensions) (out : Bytes) :
    appendExtensions out extensions = .ok (out ++ extensionBlock extensions) := by
  rw [appendExtensions, validateExtensions h.1, ok_bind]
  dsimp only
  rw [validateU16Len_of_le h.2, ok_bind]
  rfl

theorem TlsExtension.frames_bytes {extension : TlsExtension} (h : extension.data.length ≤ 65535) :
    extensionFramer.Frames extension.bytes extension := by
  refine ⟨by simp [TlsExtension.bytes, ← length_pos_iff], fun rest => ?_⟩
  have hr : readExtension.run (extension.bytes ++ rest) = .ok extension rest := by
    rw [readExtension, TlsExtension.bytes, append_assoc, append_assoc,
      bind_of_ok (readU16_append _ _ _), bind_of_ok (readVecU16_append _ (by omega) _)]
    rfl
  change Reader.next readExtension (extension.bytes ++ rest) = _
  rw [Reader.next, hr]

theorem readExtensions_nil : readExtensions.run [] = .ok [] [] := rfl

theorem readExtensions_block (h : ExtensionsFit extensions) :
    readExtensions.run (extensionBlock extensions) = .ok extensions [] := by
  have hl : (extensionBlock extensions).length ≠ 0 := by simp [extensionBlock]
  have ha : extensionFramer.all (extensions.flatMap TlsExtension.bytes) = .ok extensions :=
    Framer.all_flatMap fun e he => TlsExtension.frames_bytes (h.1 e he)
  have hv := readVecU16_append helloTruncated (Nat.lt_succ_of_le h.2) []
  rw [append_nil, ← extensionBlock] at hv
  rw [readExtensions, bind_of_ok (remaining_run _), if_neg hl, bind_of_ok hv, ha]
  rfl

structure ClientHello.Fits (hello : ClientHello) : Prop where
  sessionId : hello.sessionId.length ≤ 255
  cookie : hello.cookie.length ≤ 255
  cipherSuites : hello.cipherSuites.length * 2 ≤ 65535
  compressionMethods : hello.compressionMethods.length ≤ 255
  extensions : ExtensionsFit hello.extensions

def ClientHello.fields (hello : ClientHello) : Bytes :=
  beBytes 2 dtls12Version.toNat ++ (hello.random.toList ++
    (UInt8.ofNat hello.sessionId.length :: (hello.sessionId ++
      (UInt8.ofNat hello.cookie.length :: (hello.cookie ++
        (beBytes 2 (hello.cipherSuites.length * 2) ++
          (hello.cipherSuites.flatMap (fun suite => beBytes 2 suite.toNat) ++
            (UInt8.ofNat hello.compressionMethods.length :: hello.compressionMethods))))))))

def ClientHello.bytes (hello : ClientHello) : Bytes :=
  beBytes 2 dtls12Version.toNat ++ (hello.random.toList ++
    (UInt8.ofNat hello.sessionId.length :: (hello.sessionId ++
      (UInt8.ofNat hello.cookie.length :: (hello.cookie ++
        (beBytes 2 (hello.cipherSuites.length * 2) ++
          (hello.cipherSuites.flatMap (fun suite => beBytes 2 suite.toNat) ++
            (UInt8.ofNat hello.compressionMethods.length :: (hello.compressionMethods ++
              extensionBlock hello.extensions)))))))))

theorem ClientHello.bytes_eq_append (hello : ClientHello) :
    hello.bytes = hello.fields ++ extensionBlock hello.extensions := by
  simp [ClientHello.bytes, ClientHello.fields]

variable {hello : ClientHello}

theorem ClientHello.encode_of_fits (h : hello.Fits) : hello.encode = .ok hello.bytes := by
  rw [ClientHello.encode, validateU8Len_of_le h.sessionId, ok_bind, validateU8Len_of_le h.cookie,
    ok_bind, validateU8Len_of_le h.compressionMethods, ok_bind,
    validateU16Len_of_le h.cipherSuites, ok_bind, appendExtensions_of_fits h.extensions]
  simp [ClientHello.bytes]

theorem length_cipherSuites (suites : List UInt16) :
    (suites.flatMap fun suite => beBytes 2 suite.toNat).length = suites.length * 2 := by
  induction suites with
  | nil => rfl
  | cons suite suites ih => simp [ih]; ring

theorem cipherSuitesOf_flatMap (suites : List UInt16) :
    cipherSuitesOf (suites.flatMap fun suite => beBytes 2 suite.toNat) = suites := by
  induction suites with
  | nil => rfl
  | cons suite suites ih =>
    change UInt16.ofNat (beNat (beBytes 2 suite.toNat)) ::
      cipherSuitesOf (suites.flatMap fun suite => beBytes 2 suite.toNat) = _
    rw [uint16_ofNat_beBytes, ih]

theorem ClientHello.decode_fields_append {block : Bytes} (h : hello.Fits)
    (hblock : readExtensions.run block = .ok hello.extensions []) :
    ClientHello.decode (hello.fields ++ block) = .ok hello := by
  have hl := length_cipherSuites hello.cipherSuites
  have hlt : (hello.cipherSuites.flatMap fun suite => beBytes 2 suite.toNat).length < 65536 := by
    rw [hl]
    exact Nat.lt_succ_of_le h.cipherSuites
  have hv := readVecU16_append helloTruncated hlt
  rw [hl] at hv
  have hr : ClientHello.reader.run (hello.fields ++ block) = .ok hello [] := by
    simp only [ClientHello.fields, append_assoc, cons_append]
    rw [ClientHello.reader, bind_of_ok (readU16_append _ _ _), if_neg (by simp), bind_of_ok (readArray_append _ _ _),
      bind_of_ok (readVecU8_append _ (Nat.lt_succ_of_le h.sessionId) _),
      bind_of_ok (readVecU8_append _ (Nat.lt_succ_of_le h.cookie) _), bind_of_ok (hv _),
      if_neg (by simp [hl]), bind_of_ok (readVecU8_append _ (Nat.lt_succ_of_le h.compressionMethods) _),
      bind_of_ok hblock, bind_of_ok (finish_nil _), cipherSuitesOf_flatMap]
    rfl
  rw [ClientHello.decode, Reader.read, hr]
  rfl

theorem ClientHello.decode_bytes (h : hello.Fits) : ClientHello.decode hello.bytes = .ok hello := by
  rw [hello.bytes_eq_append]
  exact ClientHello.decode_fields_append h (readExtensions_block h.extensions)

section ThreadProfile

variable {random : ByteVector 32} {cookie kkpp : Bytes}

theorem threadProfileWithEcjpake_extensions : (ClientHello.threadProfileWithEcjpake random cookie kkpp).extensions =
      [supportedGroupsExtension, signatureAlgorithmsExtension, ecPointFormatsExtension,
        ⟨extensionEcjpakeKkpp, kkpp⟩, maxFragmentLengthExtension] := rfl

theorem length_threadProfileWithEcjpake : (ClientHello.threadProfileWithEcjpake random cookie kkpp).bytes.length =
      77 + cookie.length + kkpp.length := by
  rw [ClientHello.bytes, threadProfileWithEcjpake_extensions]
  simp [ClientHello.threadProfileWithEcjpake, ClientHello.threadProfile, ClientHello.setEcjpakeKkpp,
    extensionBlock, TlsExtension.bytes, supportedGroupsExtension, signatureAlgorithmsExtension,
    ecPointFormatsExtension, maxFragmentLengthExtension]
  omega

theorem threadProfileWithEcjpake_fits (hc : cookie.length ≤ 255) (hk : kkpp.length ≤ 1000) :
    (ClientHello.threadProfileWithEcjpake random cookie kkpp).Fits := by
  refine ⟨Nat.zero_le _, hc, show 2 * 2 ≤ 65535 by decide, show 1 ≤ 255 by decide, ?_, ?_⟩
  · rw [threadProfileWithEcjpake_extensions]
    simp [supportedGroupsExtension, signatureAlgorithmsExtension, ecPointFormatsExtension, maxFragmentLengthExtension]
    omega
  · rw [threadProfileWithEcjpake_extensions]
    simp [TlsExtension.bytes, supportedGroupsExtension, signatureAlgorithmsExtension,
      ecPointFormatsExtension, maxFragmentLengthExtension]
    omega

end ThreadProfile

def DtlsClientHelloState.message (state : DtlsClientHelloState) : HandshakeMessage :=
  ⟨.clientHello, state.nextMessageSequence, state.clientHello.bytes⟩

def DtlsClientHelloState.advance (state : DtlsClientHelloState) : DtlsClientHelloState :=
  { state with
    nextRecordSequence := state.nextRecordSequence + 1
    nextMessageSequence := state.nextMessageSequence + 1
    lastClientHelloSequence := some state.nextMessageSequence }

theorem nextClientHelloRecord_of_fits (h : state.clientHello.Fits) (hs : state.message.Short) :
    nextClientHelloRecord.run state = .ok (state.message.record 0 state.nextRecordSequence) state.advance := by
  have he : (HandshakeMessage.mk .clientHello state.nextMessageSequence state.clientHello.bytes).encode =
      .ok state.message.bytes := HandshakeMessage.encode_of_fits hs.fits
  rw [nextClientHelloRecord, get_bind, set_bind, lift_bind_of_ok (ClientHello.encode_of_fits h),
    lift_bind_of_ok he, lift_bind_of_ok (hs.new_record _ _), modify_bind]
  rfl

def HelloVerifyRequest.bytes (request : HelloVerifyRequest) : Bytes :=
  beBytes 2 request.serverVersion.toNat ++ (UInt8.ofNat request.cookie.length :: request.cookie)

theorem HelloVerifyRequest.encode_of_le (h : request.cookie.length ≤ 255) : request.encode = .ok request.bytes := by
  rw [HelloVerifyRequest.encode, validateU8Len_of_le h, ok_bind]
  rfl

@[simp] theorem HelloVerifyRequest.length_bytes (request : HelloVerifyRequest) :
    request.bytes.length = 3 + request.cookie.length := by
  simp [HelloVerifyRequest.bytes]
  omega

theorem HelloVerifyRequest.decode_bytes (h : request.cookie.length ≤ 255) :
    HelloVerifyRequest.decode request.bytes = .ok request := by
  have hv := readVecU8_append helloTruncated (Nat.lt_succ_of_le h) []
  rw [append_nil] at hv
  have hr : HelloVerifyRequest.reader.run request.bytes = .ok request [] := by
    rw [HelloVerifyRequest.reader, HelloVerifyRequest.bytes, bind_of_ok (readU16_append _ _ _),
      bind_of_ok hv, bind_of_ok (finish_nil _)]
    rfl
  rw [HelloVerifyRequest.decode, Reader.read, hr]
  rfl

def ServerHello.fields (hello : ServerHello) : Bytes :=
  beBytes 2 dtls12Version.toNat ++ (hello.random.toList ++
    (UInt8.ofNat hello.sessionId.length :: (hello.sessionId ++
      (beBytes 2 hello.cipherSuite.toNat ++ [hello.compressionMethod]))))

def ServerHello.bytes (hello : ServerHello) : Bytes :=
  beBytes 2 dtls12Version.toNat ++ (hello.random.toList ++
    (UInt8.ofNat hello.sessionId.length :: (hello.sessionId ++
      (beBytes 2 hello.cipherSuite.toNat ++ (hello.compressionMethod :: extensionBlock hello.extensions)))))

theorem ServerHello.bytes_eq_append (hello : ServerHello) :
    hello.bytes = hello.fields ++ extensionBlock hello.extensions := by
  simp [ServerHello.bytes, ServerHello.fields]

variable {hello : ServerHello}

theorem ServerHello.encode_of_fits (hs : hello.sessionId.length ≤ 255) (he : ExtensionsFit hello.extensions) :
    hello.encode = .ok hello.bytes := by
  rw [ServerHello.encode, validateU8Len_of_le hs, ok_bind, appendExtensions_of_fits he]
  simp [ServerHello.bytes]

theorem ServerHello.decode_fields_append (hs : hello.sessionId.length ≤ 255) {block : Bytes}
    (hblock : readExtensions.run block = .ok hello.extensions []) :
    ServerHello.decode (hello.fields ++ block) = .ok hello := by
  have hr : ServerHello.reader.run (hello.fields ++ block) = .ok hello [] := by
    simp only [ServerHello.fields, append_assoc, cons_append, nil_append]
    rw [ServerHello.reader, bind_of_ok (readU16_append _ _ _), if_neg (by simp),
      bind_of_ok (readArray_append _ _ _), bind_of_ok (readVecU8_append _ (Nat.lt_succ_of_le hs) _),
      bind_of_ok (readU16_append _ _ _), bind_of_ok (readU8_cons _ _ _), bind_of_ok hblock, bind_of_ok (finish_nil _)]
    rfl
  rw [ServerHello.decode, Reader.read, hr]
  rfl

theorem ServerHello.decode_bytes (hs : hello.sessionId.length ≤ 255) (he : ExtensionsFit hello.extensions) :
    ServerHello.decode hello.bytes = .ok hello := by
  rw [hello.bytes_eq_append]
  exact ServerHello.decode_fields_append hs (readExtensions_block he)

def verifyRequestMessage (messageSeq : UInt16) (cookie : Bytes) : HandshakeMessage :=
  ⟨.helloVerifyRequest, messageSeq, HelloVerifyRequest.bytes ⟨dtls12Version, cookie⟩⟩

theorem verifyRequest_short {cookie : Bytes} (h : cookie.length ≤ 255) (seq : UInt16) :
    (verifyRequestMessage seq cookie).Short := by
  simp only [HandshakeMessage.Short, verifyRequestMessage, HelloVerifyRequest.length_bytes]
  omega

theorem handleHelloVerifyRequest_eq_ok {r : DtlsRecord} {state' : DtlsClientHelloState} :
    (handleHelloVerifyRequest r).run state = .ok request state' ↔
      ∃ m, parseUnfragmentedHandshakeRecord r .helloVerifyRequest = .ok m ∧
        some m.messageSeq = state.lastClientHelloSequence ∧
        HelloVerifyRequest.decode m.payload = .ok request ∧ request.serverVersion = dtls12Version ∧
        state' = { state with cookie := request.cookie } := by
  simp only [handleHelloVerifyRequest, lift_bind_ok, get_bind, ensure_eq_ok, exists_const, modify_bind,
    run_pure, EStateM.Result.ok.injEq]
  constructor
  · rintro ⟨m, hp, hseq, _, hd, hv, rfl, rfl⟩
    exact ⟨m, hp, hseq, hd, hv, rfl⟩
  · rintro ⟨m, hp, hseq, hd, hv, rfl⟩
    exact ⟨m, hp, hseq, request, hd, hv, rfl, rfl⟩

theorem handleHelloVerifyRequest_of_bytes {seq : UInt16} {cookie : Bytes}
    (hseq : state.lastClientHelloSequence = some seq) (hc : cookie.length ≤ 255) (sequence : UInt64) :
    (handleHelloVerifyRequest ((verifyRequestMessage seq cookie).record 0 sequence)).run state =
      .ok ⟨dtls12Version, cookie⟩ { state with cookie } :=
  handleHelloVerifyRequest_eq_ok.mpr ⟨_, (verifyRequest_short hc seq).parse_record 0 sequence, hseq.symm,
    HelloVerifyRequest.decode_bytes hc, rfl, rfl⟩

end ThreadCommissioner.Hellos
