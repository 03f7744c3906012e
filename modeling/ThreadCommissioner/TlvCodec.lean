import ThreadCommissioner.Tlvs

namespace ThreadCommissioner.TlvCodec

open ByteStrings Computations Framing List Tlvs

/-- An entry as it stands on the wire: with a length of one byte, or with the
marker and a length of two. -/
structure TlvForm where
  entry : TlvEntry
  extended : Bool
  fits : entry.value.length ≤ if extended then maxExtendedTlvLength else maxStandardTlvLength

def TlvForm.bytes (form : TlvForm) : Bytes :=
  (if form.extended then form.entry.ty :: extendedTlvMarker :: beBytes 2 form.entry.value.length
    else [form.entry.ty, UInt8.ofNat form.entry.value.length]) ++ form.entry.value

/-- The extended form is used where the standard one would do. -/
def TlvForm.Overlong (form : TlvForm) : Prop := form.extended = true ∧ form.entry.value.length ≤ maxStandardTlvLength

variable (form : TlvForm)

theorem TlvForm.value_length_le : form.entry.value.length ≤ maxExtendedTlvLength := by
  have hfits := form.fits
  split at hfits
  · exact hfits
  · exact hfits.trans (by decide)

theorem TlvForm.bytes_eq {form : TlvForm} (h : ¬ form.Overlong) : form.bytes = form.entry.bytes := by
  have hfits := form.fits
  by_cases hextended : form.extended = true
  · have hlong : ¬ form.entry.value.length ≤ maxStandardTlvLength := fun hle => h ⟨hextended, hle⟩
    rw [TlvForm.bytes, TlvEntry.bytes, if_pos hextended, if_neg hlong]
  · rw [if_neg hextended] at hfits
    rw [TlvForm.bytes, TlvEntry.bytes, if_neg hextended, if_pos hfits]

theorem TlvForm.length_bytes_of_overlong {form : TlvForm} (h : form.Overlong) :
    form.entry.bytes.length < form.bytes.length := by
  rw [TlvForm.bytes, TlvEntry.bytes, if_pos h.1, if_pos h.2]
  simp

theorem TlvForm.length_bytes_le : form.entry.bytes.length ≤ form.bytes.length := by
  by_cases h : form.Overlong
  · exact (TlvForm.length_bytes_of_overlong h).le
  · rw [TlvForm.bytes_eq h]

theorem TlvForm.parseOne_bytes (rest : Bytes) : parseOne (form.bytes ++ rest) = .ok (form.entry, rest) := by
  have hfits := form.fits
  by_cases hextended : form.extended = true
  · rw [if_pos hextended] at hfits
    rw [TlvForm.bytes, if_pos hextended, cons_append, cons_append, cons_append, cons_append, append_assoc]
    exact parseOne_of_readLength (readLength_extended hfits _)
  · rw [if_neg hextended] at hfits
    rw [TlvForm.bytes, if_neg hextended, append_assoc]
    exact parseOne_of_readLength (readLength_standard hfits _)

theorem exists_form_of_readLength {ty lengthByte : UInt8} {tail value : Bytes} {length : ℕ}
    (h : readLength lengthByte tail = .ok (length, value)) (hlen : length ≤ value.length) :
    ∃ form : TlvForm, form.entry = ⟨ty, value.take length⟩ ∧ ty :: lengthByte :: tail = form.bytes ++ value.drop length := by
  have htake : (value.take length).length = length := by rw [length_take, min_eq_left hlen]
  rw [readLength] at h
  split at h
  · next hmarker =>
    split at h
    · cases h
    · next htail =>
      cases h
      have hwidth : (tail.take 2).length = 2 := by rw [length_take, min_eq_left (Nat.not_lt.mp htail)]
      have hlt := beNat_lt (tail.take 2)
      have hbytes := beBytes_beNat (tail.take 2)
      rw [hwidth] at hlt hbytes
      have hfits : beNat (tail.take 2) ≤ maxExtendedTlvLength := Nat.le_of_lt_succ hlt
      refine ⟨⟨⟨ty, _⟩, true, htake.trans_le hfits⟩, rfl, ?_⟩
      rw [TlvForm.bytes, if_pos rfl]
      dsimp only
      rw [htake, hbytes, hmarker]
      simp
  · next hmarker =>
    cases h
    have hne : lengthByte.toNat ≠ 255 := fun heq => hmarker (UInt8.toNat_inj.mp heq)
    have hlt := lengthByte.toNat_lt
    have hfits : lengthByte.toNat ≤ maxStandardTlvLength := by
      rw [maxStandardTlvLength]
      omega
    refine ⟨⟨⟨ty, _⟩, false, htake.trans_le hfits⟩, rfl, ?_⟩
    rw [TlvForm.bytes, if_neg Bool.false_ne_true]
    dsimp only
    rw [htake, UInt8.ofNat_toNat]
    simp

theorem exists_form_of_parseOne {bytes rest : Bytes} {entry : TlvEntry} (h : parseOne bytes = .ok (entry, rest)) :
    ∃ form : TlvForm, form.entry = entry ∧ bytes = form.bytes ++ rest := by
  unfold parseOne at h
  split at h
  · obtain ⟨⟨length, value⟩, hread, h⟩ := bind_ok.mp h
    obtain ⟨_, hlen, h⟩ := bind_ok.mp h
    cases h
    exact exists_form_of_readLength hread (ensure_eq_ok.mp hlen)
  · cases h

theorem parse_forms (forms : List TlvForm) : TlvSet.parse (forms.flatMap TlvForm.bytes) = .ok ⟨forms.map TlvForm.entry⟩ := by
  have hall : tlvFramer.all (forms.flatMap TlvForm.bytes) = .ok (forms.map TlvForm.entry) := by
    refine Framer.all_forms forms fun form _ => ⟨?_, form.parseOne_bytes⟩
    rw [TlvForm.bytes]
    split <;> simp
  rw [TlvSet.parse, hall]
  rfl

theorem exists_forms_of_parse {bytes : Bytes} {tlvs : TlvSet} (h : TlvSet.parse bytes = .ok tlvs) :
    ∃ forms : List TlvForm, forms.map TlvForm.entry = tlvs.entries ∧ bytes = forms.flatMap TlvForm.bytes := by
  obtain ⟨es, hall, h⟩ := bind_ok.mp h
  cases h
  exact Framer.exists_flatMap exists_form_of_parseOne hall

theorem encodeEntries_of_le {es : List TlvEntry} (h : ∀ entry ∈ es, entry.value.length ≤ maxExtendedTlvLength) :
    encodeEntries es = .ok (es.flatMap TlvEntry.bytes) := by
  induction es with
  | nil => rfl
  | cons entry es ih =>
    obtain ⟨hentry, hes⟩ := forall_mem_cons.mp h
    rw [encodeEntries, TlvEntry.encode_of_le hentry, ok_bind, ih hes]
    rfl

theorem flatMap_bytes_iff (forms : List TlvForm) :
    (forms.map TlvForm.entry).flatMap TlvEntry.bytes = forms.flatMap TlvForm.bytes ↔ ∀ form ∈ forms, ¬ form.Overlong := by
  rw [flatMap_map]
  constructor
  · intro heq form hmem hform
    have hlt := sum_lt_sum (fun form : TlvForm => form.entry.bytes.length) (fun form => form.bytes.length)
      (fun form _ => form.length_bytes_le) ⟨form, hmem, TlvForm.length_bytes_of_overlong hform⟩
    have hlen := congrArg List.length heq
    rw [length_flatMap, length_flatMap] at hlen
    exact hlt.ne hlen
  · intro h
    exact flatMap_congr fun form hmem => (TlvForm.bytes_eq (h form hmem)).symm

/-- Some entry of the bytes has the extended form where the standard one would
do. -/
def Overlong (bytes : Bytes) : Prop :=
  ∃ forms : List TlvForm, bytes = forms.flatMap TlvForm.bytes ∧ ∃ form ∈ forms, form.Overlong

/-- What is encoded is parsed again, and what is parsed is encoded as it was
unless an entry had a longer form than it needs. -/
theorem tlv_stream_laws :
    (∀ tlvs : TlvSet, (∃ bytes, tlvs.encode = .ok bytes) ↔ ∀ entry ∈ tlvs.entries, entry.value.length ≤ 65535) ∧
      (∀ (tlvs : TlvSet) (bytes : Bytes), tlvs.encode = .ok bytes → TlvSet.parse bytes = .ok tlvs) ∧
      ∀ (bytes : Bytes) (tlvs : TlvSet), TlvSet.parse bytes = .ok tlvs →
        (tlvs.encode = .ok bytes ↔ ¬ Overlong bytes) ∧
          ∃ bytes', tlvs.encode = .ok bytes' ∧ TlvSet.parse bytes' = .ok tlvs := by
  refine ⟨fun tlvs => ⟨?_, fun h => ⟨_, encodeEntries_of_le h⟩⟩, fun tlvs bytes h => ?_, fun bytes tlvs h => ?_⟩
  · rintro ⟨bytes, h⟩
    exact (encodeEntries_eq_ok h).1
  · obtain ⟨hle, rfl⟩ := encodeEntries_eq_ok h
    exact TlvSet.parse_flatMap hle
  · obtain ⟨forms, hentries, rfl⟩ := exists_forms_of_parse h
    have hle : ∀ entry ∈ tlvs.entries, entry.value.length ≤ maxExtendedTlvLength := by
      rw [← hentries]
      intro entry hmem
      obtain ⟨form, -, rfl⟩ := mem_map.mp hmem
      exact form.value_length_le
    have hencode : tlvs.encode = .ok (tlvs.entries.flatMap TlvEntry.bytes) := encodeEntries_of_le hle
    refine ⟨?_, _, hencode, TlvSet.parse_flatMap hle⟩
    rw [hencode, Except.ok.injEq]
    constructor
    · -- any other way to cut the bytes into forms gives the same entries
      rintro heq ⟨forms', hforms', form, hmem, hform⟩
      have hparse := parse_forms forms'
      rw [← hforms', h, Except.ok.injEq] at hparse
      rw [hparse, hforms'] at heq
      exact (flatMap_bytes_iff forms').mp heq form hmem hform
    · intro hnot
      rw [← hentries]
      exact (flatMap_bytes_iff forms).mpr fun form hmem hform => hnot ⟨forms, rfl, form, hmem, hform⟩

def emptyExtended : TlvForm := ⟨⟨7, []⟩, true, Nat.zero_le _⟩

/-- An empty value in the extended form is not encoded as it was. -/
theorem tlv_stream_laws_overlong :
    TlvSet.parse [7, 0xff, 0, 0] = .ok ⟨[⟨7, []⟩]⟩ ∧ TlvSet.encode ⟨[⟨7, []⟩]⟩ ≠ .ok [7, 0xff, 0, 0] ∧
      TlvSet.encode ⟨[⟨7, []⟩]⟩ = .ok [7, 0] ∧ TlvSet.parse [7, 0] = .ok ⟨[⟨7, []⟩]⟩ := by
  have hparse : TlvSet.parse [7, 0xff, 0, 0] = .ok ⟨[⟨7, []⟩]⟩ := parse_forms [emptyExtended]
  have hencode : TlvSet.encode ⟨[⟨7, []⟩]⟩ = .ok [7, 0] := rfl
  obtain ⟨-, hround, hlaws⟩ := tlv_stream_laws
  refine ⟨hparse, fun heq => ?_, hencode, hround _ _ hencode⟩
  exact (hlaws _ _ hparse).1.mp heq ⟨[emptyExtended], rfl, emptyExtended, mem_cons_self, rfl, Nat.zero_le _⟩

end ThreadCommissioner.TlvCodec
