import ThreadCommissioner.RecordProtection
import ThreadCommissioner.Residues

namespace ThreadCommissioner.RecordBinding

open ByteStrings List Primitives RecordProtection Records Residues

section Binding

variable [Suite]

/-- One use of a key: a record that was protected under it. -/
structure Protection (key : ByteVector 16) where
  contentType : ContentType
  epoch : UInt16
  sequenceNumber : UInt64
  fixedIv : ByteVector 4
  plaintext : Bytes
  record : DtlsRecord
  produces : protectAes128Ccm8Record contentType epoch sequenceNumber key fixedIv plaintext = .ok record

variable {key : ByteVector 16}

namespace Protection

def nonce (use : Protection key) : ByteVector 12 := ccmNonce use.fixedIv (explicitNonce use.epoch use.sequenceNumber)

def Seals (use : Protection key) (nonce : ByteVector 12) (aad ciphertext : Bytes) : Prop :=
  nonce = use.nonce ∧ aad = recordAad use.contentType use.epoch use.sequenceNumber use.plaintext.length ∧
    Suite.ccmEncrypt key nonce aad use.plaintext = some ciphertext

theorem presents_iff_seals (use : Protection key) {nonce : ByteVector 12} {aad ciphertext : Bytes} :
    Presents use.fixedIv use.record nonce aad ciphertext ↔ use.Seals nonce aad ciphertext := by
  obtain ⟨-, -, sealedBytes, hsealed, hr⟩ := protect_eq_ok.mp use.produces
  have hlen := Suite.length_ccmEncrypt _ _ _ _ _ hsealed
  have hpresents : Presents use.fixedIv use.record use.nonce
      (recordAad use.contentType use.epoch use.sequenceNumber use.plaintext.length) sealedBytes := by
    refine ⟨explicitNonce use.epoch use.sequenceNumber, by rw [hr]; rfl, rfl, ?_⟩
    rw [hr, hlen, Nat.add_sub_cancel]
    rfl
  constructor
  · intro h
    obtain ⟨rfl, rfl, rfl⟩ := h.unique hpresents
    exact ⟨rfl, rfl, hsealed⟩
  · rintro ⟨rfl, rfl, h⟩
    rw [Option.some.inj (h.symm.trans hsealed)]
    exact hpresents

theorem header_record (use : Protection key) :
    use.record.header.contentType = use.contentType ∧ use.record.header.version = dtls12Version ∧
      use.record.header.epoch = use.epoch ∧ use.record.header.sequenceNumber = use.sequenceNumber ∧
      use.sequenceNumber.toNat < 2 ^ 48 := by
  obtain ⟨hseq, -, cipher, -, hr⟩ := protect_eq_ok.mp use.produces
  rw [hr]
  exact ⟨rfl, rfl, rfl, rfl, hseq⟩

end Protection

def NoncesOnce (uses : List (Protection key)) : Prop := (uses.map Protection.nonce).Nodup

/-- The cipher is ideal for a record: what the record hands to it opens only if
it was produced in one of the uses of the key. -/
def Authentic (uses : List (Protection key)) (fixedIv : ByteVector 4) (record : DtlsRecord) : Prop :=
  ∀ nonce aad ciphertext plaintext, Presents fixedIv record nonce aad ciphertext →
    Suite.ccmDecrypt key nonce aad ciphertext = some plaintext → ∃ use ∈ uses, use.Seals nonce aad ciphertext

/-- The record carries the fields of a protected one. Of the sequence number only
48 bits are read when a record is opened. -/
def Carries (use : Protection key) (record : DtlsRecord) : Prop :=
  record.header.contentType = use.record.header.contentType ∧ record.header.version = use.record.header.version ∧
    record.header.epoch = use.record.header.epoch ∧
    record.header.sequenceNumber.toNat % 2 ^ 48 = use.record.header.sequenceNumber.toNat ∧
    record.payload = use.record.payload

variable {uses : List (Protection key)} {record : DtlsRecord}

theorem exists_use_of_open {fixedIv : ByteVector 4} {plaintext : Bytes} (hideal : Authentic uses fixedIv record)
    (h : openAes128Ccm8Record record key fixedIv = .ok plaintext) :
    ∃ use ∈ uses, use.fixedIv = fixedIv ∧ Carries use record ∧ use.plaintext = plaintext := by
  obtain ⟨nonce, aad, ciphertext, hpresents, hdecrypt⟩ := exists_presents_of_open h
  obtain ⟨use, hmem, hseals⟩ := hideal nonce aad ciphertext plaintext hpresents hdecrypt
  obtain ⟨hiv, hpayload, htype, hversion, hepoch, hseq⟩ := hpresents.fields (use.presents_iff_seals.mpr hseals)
  have hplaintext := Suite.ccmDecrypt_ccmEncrypt _ _ _ _ _ hseals.2.2
  rw [← UInt64.toNat_inj, DtlsRecord.toNat_sequenceNumber_onWire, DtlsRecord.toNat_sequenceNumber_onWire,
    use.header_record.2.2.2.1, Nat.mod_eq_of_lt use.header_record.2.2.2.2] at hseq
  refine ⟨use, hmem, hiv.symm, ⟨htype, hversion, hepoch, ?_, hpayload⟩, Option.some.inj (hplaintext.symm.trans hdecrypt)⟩
  rw [hseq, use.header_record.2.2.2.1]

theorem use_unique (honce : NoncesOnce uses) {use use' : Protection key} (hmem : use ∈ uses) (hmem' : use' ∈ uses)
    (hiv : use.fixedIv = use'.fixedIv) (h : Carries use record) (h' : Carries use' record) : use = use' := by
  obtain ⟨-, -, hepoch, hseq, -⟩ := h
  obtain ⟨-, -, hepoch', hseq', -⟩ := h'
  rw [use.header_record.2.2.1] at hepoch
  rw [use'.header_record.2.2.1] at hepoch'
  rw [use.header_record.2.2.2.1] at hseq
  rw [use'.header_record.2.2.2.1] at hseq'
  have hnumber := UInt64.toNat_inj.mp (hseq.symm.trans hseq')
  apply inj_on_of_nodup_map honce hmem hmem'
  rw [Protection.nonce, Protection.nonce, hiv, ← hepoch, ← hepoch', hnumber]

theorem authentic_of_presents {use : Protection key} (hmem : use ∈ uses)
    (h : ∀ {nonce aad cipher}, Presents use.fixedIv record nonce aad cipher →
      Presents use.fixedIv use.record nonce aad cipher) : Authentic uses use.fixedIv record :=
  fun _ _ _ _ hpresents _ => ⟨use, hmem, use.presents_iff_seals.mp (h hpresents)⟩

/-- Protection succeeds up to the limits of the wire, what is protected comes back,
and what opens is one protected record with all its fields. -/
theorem protected_records_are_bound (key : ByteVector 16) :
    (∀ (contentType : ContentType) (epoch : UInt16) (sequenceNumber : UInt64) (fixedIv : ByteVector 4) (plaintext : Bytes),
      ((∃ record, protectAes128Ccm8Record contentType epoch sequenceNumber key fixedIv plaintext = .ok record) ↔
        sequenceNumber.toNat < 2 ^ 48 ∧ plaintext.length ≤ 65519) ∧
      ∀ record, protectAes128Ccm8Record contentType epoch sequenceNumber key fixedIv plaintext = .ok record →
        ∃ bytes, record.encode = .ok bytes ∧ DtlsRecord.parseDatagram bytes = .ok [record] ∧
          openAes128Ccm8Record record key fixedIv = .ok plaintext) ∧
      ∀ (uses : List (Protection key)) (fixedIv : ByteVector 4) (record : DtlsRecord) (plaintext : Bytes),
        NoncesOnce uses → Authentic uses fixedIv record →
        openAes128Ccm8Record record key fixedIv = .ok plaintext →
        ∃! use, use ∈ uses ∧ use.fixedIv = fixedIv ∧ use.plaintext = plaintext ∧
          record.header.contentType = use.record.header.contentType ∧
          record.header.version = use.record.header.version ∧ record.header.epoch = use.record.header.epoch ∧
          record.payload = use.record.payload ∧
          record.header.sequenceNumber.toNat % 2 ^ 48 = use.record.header.sequenceNumber.toNat ∧
          (record.header.sequenceNumber.toNat < 2 ^ 48 →
            record.header.sequenceNumber = use.record.header.sequenceNumber) := by
  refine ⟨fun contentType epoch sequenceNumber fixedIv plaintext => ⟨⟨?_, ?_⟩, fun record h => ?_⟩, ?_⟩
  · rintro ⟨record, h⟩
    obtain ⟨hseq, hlen, -⟩ := protect_eq_ok.mp h
    exact ⟨hseq, by omega⟩
  · rintro ⟨hseq, hlen⟩
    obtain ⟨ciphertext, h⟩ := exists_protect key fixedIv hseq (by omega : plaintext.length + 16 ≤ 65535)
    exact ⟨_, h⟩
  · have hwell := protect_wellFormed h
    have hparsed := DtlsRecord.parseDatagram_flatMap (forall_mem_singleton.mpr hwell)
    rw [flatMap_singleton] at hparsed
    exact ⟨record.bytes, DtlsRecord.encode_of_length hwell.1, hparsed, open_protect h⟩
  · intro uses fixedIv record plaintext honce hideal hopen
    obtain ⟨use, hmem, hiv, hcarries, hplaintext⟩ := exists_use_of_open hideal hopen
    obtain ⟨htype, hversion, hepoch, hseq, hpayload⟩ := hcarries
    refine ⟨use, ⟨hmem, hiv, hplaintext, htype, hversion, hepoch, hpayload, hseq, fun hlt => ?_⟩, ?_⟩
    · rw [Nat.mod_eq_of_lt hlt] at hseq
      exact UInt64.toNat_inj.mp hseq
    · rintro use' ⟨hmem', hiv', -, htype', hversion', hepoch', hpayload', hseq', -⟩
      exact use_unique honce hmem' hmem (hiv'.trans hiv.symm) ⟨htype', hversion', hepoch', hseq', hpayload'⟩
        ⟨htype, hversion, hepoch, hseq, hpayload⟩

end Binding

section Witness

attribute [local instance] residues

def firstUse : Protection (padTo 16 []) where
  contentType := .applicationData
  epoch := 1
  sequenceNumber := 0
  fixedIv := padTo 4 []
  plaintext := [7]
  record := protectedRecord .applicationData 1 0 (7 :: tag)
  produces := rfl

def secondUse : Protection (padTo 16 []) where
  contentType := .handshake
  epoch := 1
  sequenceNumber := 1
  fixedIv := padTo 4 []
  plaintext := [8, 9]
  record := protectedRecord .handshake 1 1 (8 :: 9 :: tag)
  produces := rfl

theorem uses_once : NoncesOnce [firstUse, secondUse] := by
  change (List.map Protection.nonce [firstUse, secondUse]).Nodup
  decide

/-- The second of two records opens as itself only. -/
theorem protected_records_are_bound_residues :
    ∃! use, use ∈ [firstUse, secondUse] ∧ use.fixedIv = secondUse.fixedIv ∧ use.plaintext = [8, 9] ∧
      secondUse.record.header.contentType = use.record.header.contentType ∧
      secondUse.record.header.version = use.record.header.version ∧
      secondUse.record.header.epoch = use.record.header.epoch ∧ secondUse.record.payload = use.record.payload ∧
      secondUse.record.header.sequenceNumber.toNat % 2 ^ 48 = use.record.header.sequenceNumber.toNat ∧
      (secondUse.record.header.sequenceNumber.toNat < 2 ^ 48 →
        secondUse.record.header.sequenceNumber = use.record.header.sequenceNumber) :=
  (protected_records_are_bound _).2 [firstUse, secondUse] secondUse.fixedIv secondUse.record [8, 9] uses_once
    (authentic_of_presents (by simp) id) (open_protect secondUse.produces)

/-- The record with a number beyond the 48 bits that are read of it. -/
def wideRecord : DtlsRecord :=
  { firstUse.record with header := { firstUse.record.header with sequenceNumber := 0x1000000000000 } }

/-- Opening does not look at the upper bits of the number in a record that was
not read from the wire. -/
theorem wide_record_opens :
    NoncesOnce [firstUse, secondUse] ∧ Authentic [firstUse, secondUse] firstUse.fixedIv wideRecord ∧
      openAes128Ccm8Record wideRecord (padTo 16 []) firstUse.fixedIv = .ok [7] ∧
      ∀ use ∈ [firstUse, secondUse], use.record.header.sequenceNumber ≠ wideRecord.header.sequenceNumber := by
  refine ⟨uses_once, authentic_of_presents mem_cons_self id, ?_, ?_⟩
  · have hsame : openAes128Ccm8Record wideRecord (padTo 16 []) firstUse.fixedIv =
        openAes128Ccm8Record firstUse.record (padTo 16 []) firstUse.fixedIv := rfl
    rw [hsame]
    exact open_protect firstUse.produces
  · simp only [forall_mem_cons]
    exact ⟨by decide, by decide, forall_mem_nil _⟩

end Witness

end ThreadCommissioner.RecordBinding
