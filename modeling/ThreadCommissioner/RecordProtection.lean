import ThreadCommissioner.Primitives
import ThreadCommissioner.Records

namespace ThreadCommissioner.RecordProtection

open ByteStrings Computations Errors List Primitives Records

def ccmNonce (fixedIv : ByteVector 4) (explicit : ByteVector 8) : ByteVector 12 :=
  ⟨fixedIv.toList ++ explicit.toList, by simp⟩

def explicitNonce (epoch : UInt16) (sequenceNumber : UInt64) : ByteVector 8 :=
  ⟨beBytes 2 epoch.toNat ++ beBytes 6 sequenceNumber.toNat, by simp⟩

def dtlsCcmNonce (fixedIv : ByteVector 4) (epoch : UInt16) (sequenceNumber : UInt64) :
    Except DtlsError (ByteVector 12) :=
  if 0x0000ffffffffffff < sequenceNumber then
    .error (.crypto "DTLS record sequence number exceeds 48 bits")
  else .ok (ccmNonce fixedIv (explicitNonce epoch sequenceNumber))

/-- The associated data of a protected record, which carries its sequence number. -/
def recordAad (contentType : ContentType) (epoch : UInt16) (sequenceNumber : UInt64) (plaintextLen : ℕ) : Bytes :=
  (RecordHeader.mk contentType dtls12Version epoch sequenceNumber 0).aeadAdditionalData (.ofNat plaintextLen)

def protectedRecord (contentType : ContentType) (epoch : UInt16) (sequenceNumber : UInt64)
    (ciphertext : Bytes) : DtlsRecord where
  header := ⟨contentType, dtls12Version, epoch, sequenceNumber, .ofNat (8 + ciphertext.length)⟩
  payload := (explicitNonce epoch sequenceNumber).toList ++ ciphertext

/-- The nonce, the associated data and the ciphertext that opening a record
hands to the cipher. -/
def Presents (fixedIv : ByteVector 4) (record : DtlsRecord) (nonce : ByteVector 12) (aad ciphertext : Bytes) :
    Prop :=
  ∃ explicit : ByteVector 8, record.payload = explicit.toList ++ ciphertext ∧
    nonce = ccmNonce fixedIv explicit ∧
    aad = record.header.aeadAdditionalData (.ofNat (ciphertext.length - 8))

theorem drop_ccmNonce (fixedIv : ByteVector 4) (explicit : ByteVector 8) :
    (ccmNonce fixedIv explicit).toList.drop 4 = explicit.toList := by
  change (fixedIv.toList ++ explicit.toList).drop 4 = explicit.toList
  rw [drop_left' fixedIv.toList_length]

variable {fixedIv : ByteVector 4} {epoch : UInt16} {seq : UInt64} {nonce : ByteVector 12}
  {key : ByteVector 16} {aad plaintext cipher : Bytes} {ty : ContentType} {r : DtlsRecord}

theorem dtlsCcmNonce_eq_ok : dtlsCcmNonce fixedIv epoch seq = .ok nonce ↔
      seq.toNat < 2 ^ 48 ∧ nonce = ccmNonce fixedIv (explicitNonce epoch seq) := by
  have hs : 0x0000ffffffffffff < seq ↔ ¬ seq.toNat < 2 ^ 48 := by
    rw [UInt64.lt_iff_toNat_lt, show (0x0000ffffffffffff : UInt64).toNat = 2 ^ 48 - 1 from rfl]
    omega
  rw [dtlsCcmNonce]
  split
  · next h => simp only [reduceCtorEq, hs.mp h, false_and]
  · next h =>
    rw [hs, not_not] at h
    simp only [Except.ok.injEq, h, true_and, eq_comm]

theorem protectedRecord_wellFormed (hs : seq.toNat < 2 ^ 48) (hl : 8 + cipher.length ≤ 65535) :
    (protectedRecord ty epoch seq cipher).WellFormed := by
  refine ⟨?_, hs⟩
  simp only [protectedRecord, length_append, List.Vector.toList_length, UInt16.toNat_ofNat']
  omega

theorem ccmNonce_inj {fixedIv' : ByteVector 4} {explicit explicit' : ByteVector 8}
    (h : ccmNonce fixedIv explicit = ccmNonce fixedIv' explicit') : fixedIv = fixedIv' ∧ explicit = explicit' := by
  have hbytes : fixedIv.toList ++ explicit.toList = fixedIv'.toList ++ explicit'.toList := congrArg List.Vector.toList h
  obtain ⟨hiv, hexplicit⟩ := append_inj hbytes (by simp)
  exact ⟨List.Vector.eq _ _ hiv, List.Vector.eq _ _ hexplicit⟩

/-- What a record hands to the cipher tells its IV and all of the record that
travels, the stated length apart. -/
theorem Presents.fields (h : Presents fixedIv r nonce aad cipher) {fixedIv' : ByteVector 4} {record' : DtlsRecord}
    (h' : Presents fixedIv' record' nonce aad cipher) : fixedIv = fixedIv' ∧ r.payload = record'.payload ∧
      r.header.contentType = record'.header.contentType ∧ r.header.version = record'.header.version ∧
      r.header.epoch = record'.header.epoch ∧ r.onWire.header.sequenceNumber = record'.onWire.header.sequenceNumber := by
  obtain ⟨explicit, hp, hn, ha⟩ := h
  obtain ⟨explicit', hp', hn', ha'⟩ := h'
  obtain ⟨hiv, hexplicit⟩ := ccmNonce_inj (hn.symm.trans hn')
  have hlt : ∀ r : DtlsRecord, r.onWire.header.sequenceNumber.toNat < 2 ^ 48 := by
    intro r
    rw [DtlsRecord.toNat_sequenceNumber_onWire]
    exact Nat.mod_lt _ (Nat.two_pow_pos 48)
  rw [← DtlsRecord.aeadAdditionalData_onWire] at ha ha'
  refine ⟨hiv, by rw [hp, hp', hexplicit], ?_⟩
  exact RecordHeader.aeadAdditionalData_inj (hlt r) (hlt record') (ha.symm.trans ha')

theorem Presents.inj (h : Presents fixedIv r nonce aad cipher) {record' : DtlsRecord}
    (h' : Presents fixedIv record' nonce aad cipher) (hr : r.WellFormed) (hr' : record'.WellFormed) : r = record' := by
  obtain ⟨-, hpayload, htype, hversion, hepoch, hseq⟩ := h.fields h'
  rw [DtlsRecord.onWire_of_wellFormed hr, DtlsRecord.onWire_of_wellFormed hr'] at hseq
  have hlen : r.header.length = record'.header.length := by
    rw [← UInt16.toNat_inj, ← hr.1, ← hr'.1, hpayload]
  obtain ⟨⟨type, version, epoch, seq, len⟩, payload⟩ := r
  obtain ⟨⟨type', version', epoch', seq', len'⟩, payload'⟩ := record'
  dsimp only at htype hversion hepoch hseq hlen hpayload
  rw [htype, hversion, hepoch, hseq, hlen, hpayload]

theorem Presents.unique (h : Presents fixedIv r nonce aad cipher) {nonce' : ByteVector 12} {aad' ciphertext' : Bytes}
    (h' : Presents fixedIv r nonce' aad' ciphertext') : nonce = nonce' ∧ aad = aad' ∧ cipher = ciphertext' := by
  obtain ⟨explicit, hp, hn, ha⟩ := h
  obtain ⟨explicit', hp', hn', ha'⟩ := h'
  obtain ⟨hexplicit, hciphertext⟩ := append_inj (hp.symm.trans hp') (by simp)
  have hexplicit := List.Vector.eq _ _ hexplicit
  exact ⟨by rw [hn, hn', hexplicit], by rw [ha, ha', hciphertext], hciphertext⟩

variable [Suite]

def encrypt (key : ByteVector 16) (nonce : ByteVector 12) (aad plaintext : Bytes) : Except DtlsError Bytes :=
  match Suite.ccmEncrypt key nonce aad plaintext with
  | some ciphertext => .ok ciphertext
  | none => .error (.crypto "AES-CCM encryption failed")

def decrypt (key : ByteVector 16) (nonce : ByteVector 12) (aad ciphertext : Bytes) : Except DtlsError Bytes :=
  match Suite.ccmDecrypt key nonce aad ciphertext with
  | some plaintext => .ok plaintext
  | none => .error (.crypto "AES-CCM authentication failed")

def protectAes128Ccm8Record (contentType : ContentType) (epoch : UInt16) (sequenceNumber : UInt64)
    (key : ByteVector 16) (fixedIv : ByteVector 4) (plaintext : Bytes) : Except DtlsError DtlsRecord :=
  if 65535 < plaintext.length then .error (.crypto "DTLS plaintext is too long")
  else do
    let nonce ← dtlsCcmNonce fixedIv epoch sequenceNumber
    let ciphertext ← encrypt key nonce (recordAad contentType epoch sequenceNumber plaintext.length) plaintext
    DtlsRecord.new contentType epoch sequenceNumber (nonce.toList.drop 4 ++ ciphertext)

def openAes128Ccm8Record (record : DtlsRecord) (key : ByteVector 16) (fixedIv : ByteVector 4) :
    Except DtlsError Bytes :=
  if h : record.payload.length < 8 + 8 then .error (.crypto "DTLS AES-CCM record payload is too short")
  else
    let encrypted := record.payload.drop 8
    let plaintextLen := encrypted.length - 8
    if 65535 < plaintextLen then .error (.crypto "DTLS plaintext length exceeds 16 bits")
    else
      let nonce := ccmNonce fixedIv ⟨record.payload.take 8, by rw [List.length_take]; omega⟩
      decrypt key nonce (record.header.aeadAdditionalData (.ofNat plaintextLen)) encrypted

theorem encrypt_eq_ok : encrypt key nonce aad plaintext = .ok cipher ↔
      Suite.ccmEncrypt key nonce aad plaintext = some cipher := by
  rw [encrypt]
  split <;> simp_all

theorem protect_eq_ok : protectAes128Ccm8Record ty epoch seq key fixedIv plaintext = .ok r ↔
      seq.toNat < 2 ^ 48 ∧ plaintext.length + 16 ≤ 65535 ∧ ∃ cipher,
        Suite.ccmEncrypt key (ccmNonce fixedIv (explicitNonce epoch seq))
          (recordAad ty epoch seq plaintext.length) plaintext = some cipher ∧ r = protectedRecord ty epoch seq cipher := by
  have hnew : ∀ cipher, Suite.ccmEncrypt key (ccmNonce fixedIv (explicitNonce epoch seq))
        (recordAad ty epoch seq plaintext.length) plaintext = some cipher → (DtlsRecord.new ty epoch seq
        ((ccmNonce fixedIv (explicitNonce epoch seq)).toList.drop 4 ++ cipher) = .ok r ↔
        plaintext.length + 16 ≤ 65535 ∧ r = protectedRecord ty epoch seq cipher) := by
    intro cipher hc
    have hl := Suite.length_ccmEncrypt _ _ _ _ _ hc
    rw [drop_ccmNonce, DtlsRecord.new]
    split
    · next h =>
      simp only [length_append, List.Vector.toList_length] at h
      simp only [reduceCtorEq, false_iff, not_and]
      omega
    · next h =>
      simp only [length_append, List.Vector.toList_length] at h
      simp only [Except.ok.injEq, protectedRecord, length_append, List.Vector.toList_length,
        eq_comm (a := r), show plaintext.length + 16 ≤ 65535 by omega, true_and]
  constructor
  · intro h
    rw [protectAes128Ccm8Record] at h
    split at h
    · cases h
    · obtain ⟨nonce, hn, h⟩ := bind_ok.mp h
      obtain ⟨hs, rfl⟩ := dtlsCcmNonce_eq_ok.mp hn
      obtain ⟨cipher, hc, h⟩ := bind_ok.mp h
      rw [encrypt_eq_ok] at hc
      obtain ⟨hl, hr⟩ := (hnew cipher hc).mp h
      exact ⟨hs, hl, cipher, hc, hr⟩
  · rintro ⟨hs, hl, cipher, hc, hr⟩
    rw [protectAes128Ccm8Record, if_neg (by omega), dtlsCcmNonce_eq_ok.mpr ⟨hs, rfl⟩, ok_bind, encrypt_eq_ok.mpr hc, ok_bind]
    exact (hnew cipher hc).mpr ⟨hl, hr⟩

theorem exists_protect (key : ByteVector 16) (fixedIv : ByteVector 4) (hs : seq.toNat < 2 ^ 48)
    (hl : plaintext.length + 16 ≤ 65535) : ∃ cipher, protectAes128Ccm8Record ty epoch seq key fixedIv plaintext =
      .ok (protectedRecord ty epoch seq cipher) := by
  obtain ⟨cipher, hc⟩ := Option.isSome_iff_exists.mp (Suite.ccmEncrypt_isSome key
    (ccmNonce fixedIv (explicitNonce epoch seq))
    (recordAad ty epoch seq plaintext.length) plaintext (by omega))
  exact ⟨cipher, protect_eq_ok.mpr ⟨hs, hl, cipher, hc, rfl⟩⟩

theorem decrypt_eq_ok : decrypt key nonce aad cipher = .ok plaintext ↔
      Suite.ccmDecrypt key nonce aad cipher = some plaintext := by
  rw [decrypt]
  split <;> simp_all

/-- A record opens exactly if it splits into an explicit nonce and a sealed
part that authenticates under its own header. -/
theorem open_eq_ok : openAes128Ccm8Record r key fixedIv = .ok plaintext ↔
      ∃ (explicit : ByteVector 8) (encrypted : Bytes), r.payload = explicit.toList ++ encrypted ∧
        8 ≤ encrypted.length ∧ encrypted.length ≤ 65543 ∧ Suite.ccmDecrypt key (ccmNonce fixedIv explicit)
          (r.header.aeadAdditionalData (.ofNat (encrypted.length - 8))) encrypted = some plaintext := by
  constructor
  · intro h
    rw [openAes128Ccm8Record] at h
    split at h
    · cases h
    · next hp =>
      dsimp only at h
      split at h
      · cases h
      · next hl =>
        refine ⟨⟨r.payload.take 8, by rw [length_take]; omega⟩, r.payload.drop 8,
          (take_append_drop 8 _).symm, ?_, ?_, decrypt_eq_ok.mp h⟩
        · rw [length_drop]; omega
        · omega
  · obtain ⟨hdr, payload⟩ := r
    rintro ⟨explicit, encrypted, rfl, h8, hl, hd⟩
    have he : explicit.toList.length = 8 := explicit.toList_length
    have hp : ¬ (explicit.toList ++ encrypted).length < 8 + 8 := by rw [length_append]; omega
    have hdrop : (explicit.toList ++ encrypted).drop 8 = encrypted := drop_left' he
    have hv : (⟨(explicit.toList ++ encrypted).take 8, by rw [length_take]; omega⟩ : ByteVector 8) =
        explicit := List.Vector.eq _ _ (take_left' he)
    rw [openAes128Ccm8Record, dif_neg hp]
    dsimp only
    rw [hv, hdrop, if_neg (by omega)]
    exact decrypt_eq_ok.mpr hd

theorem open_protect (h : protectAes128Ccm8Record ty epoch seq key fixedIv plaintext = .ok r) :
    openAes128Ccm8Record r key fixedIv = .ok plaintext := by
  obtain ⟨-, hl, cipher, hc, rfl⟩ := protect_eq_ok.mp h
  have hlen := Suite.length_ccmEncrypt _ _ _ _ _ hc
  refine open_eq_ok.mpr ⟨explicitNonce epoch seq, cipher, rfl, by omega, by omega, ?_⟩
  rw [hlen, Nat.add_sub_cancel]
  exact Suite.ccmDecrypt_ccmEncrypt _ _ _ _ _ hc

theorem exists_presents_of_open (h : openAes128Ccm8Record r key fixedIv = .ok plaintext) :
    ∃ nonce aad cipher, Presents fixedIv r nonce aad cipher ∧ Suite.ccmDecrypt key nonce aad cipher = some plaintext := by
  obtain ⟨explicit, encrypted, hp, -, -, hd⟩ := open_eq_ok.mp h
  exact ⟨_, _, encrypted, ⟨explicit, hp, rfl, rfl⟩, hd⟩

theorem protect_wellFormed (h : protectAes128Ccm8Record ty epoch seq key fixedIv plaintext = .ok r) : r.WellFormed := by
  obtain ⟨hs, hl, cipher, hc, rfl⟩ := protect_eq_ok.mp h
  have hlen := Suite.length_ccmEncrypt _ _ _ _ _ hc
  exact protectedRecord_wellFormed hs (by omega)

theorem header_of_protect (h : protectAes128Ccm8Record ty epoch seq key fixedIv plaintext = .ok r) :
    r.header.contentType = ty ∧ r.header.epoch = epoch ∧ r.bytes.length = plaintext.length + 29 := by
  obtain ⟨-, -, cipher, hc, rfl⟩ := protect_eq_ok.mp h
  have hlen := Suite.length_ccmEncrypt _ _ _ _ _ hc
  refine ⟨rfl, rfl, ?_⟩
  rw [DtlsRecord.bytes, length_append, RecordHeader.length_encode, recordHeaderLen, protectedRecord,
    length_append, List.Vector.toList_length, hlen]
  omega

end ThreadCommissioner.RecordProtection
