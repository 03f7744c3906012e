import ThreadCommissioner.Coap

namespace ThreadCommissioner.CoapCodec

open ByteStrings Coap Computations List

section Nibbles

theorem nibble_table : ∀ high low : Fin 16,
    (UInt8.ofNat high.val <<< 4 ||| UInt8.ofNat low.val) >>> 4 = UInt8.ofNat high.val ∧
      (UInt8.ofNat high.val <<< 4 ||| UInt8.ofNat low.val) &&& 0x0f = UInt8.ofNat low.val := by
  decide +kernel

theorem exists_nibble {value : UInt8} (h : value < 16) : ∃ i : Fin 16, value = UInt8.ofNat i.val :=
  ⟨⟨value.toNat, h⟩, UInt8.ofNat_toNat.symm⟩

theorem nibbles {high low : UInt8} (hhigh : high < 16) (hlow : low < 16) :
    (high <<< 4 ||| low) >>> 4 = high ∧ (high <<< 4 ||| low) &&& 0x0f = low := by
  obtain ⟨i, rfl⟩ := exists_nibble hhigh
  obtain ⟨j, rfl⟩ := exists_nibble hlow
  exact nibble_table i j

theorem encodeExtendedNibble_lt (value : UInt16) : (encodeExtendedNibble value).1 < 15 := by
  unfold encodeExtendedNibble
  split
  · next h =>
    have hvalue : value.toNat ≤ 12 := h
    have hbyte : value.toUInt8.toNat = value.toNat := by
      rw [UInt16.toNat_toUInt8]
      omega
    change value.toUInt8.toNat < 15
    omega
  · split
    · exact (by decide : (13 : UInt8) < 15)
    · exact (by decide : (14 : UInt8) < 15)

theorem decodeExtendedNibble_encodeExtendedNibble (value : UInt16) (rest : Bytes) :
    decodeExtendedNibble (encodeExtendedNibble value).1 ((encodeExtendedNibble value).2 ++ rest) =
      .ok (value, (encodeExtendedNibble value).2.length) := by
  have hlt : value.toNat < 2 ^ 16 := value.toNat_lt
  by_cases h12 : value ≤ 12
  · have hvalue : value.toNat ≤ 12 := h12
    have hbyte : value.toUInt8.toNat = value.toNat := by
      rw [UInt16.toNat_toUInt8]
      omega
    have hle : value.toUInt8 ≤ 12 := by
      change value.toUInt8.toNat ≤ 12
      omega
    simp only [encodeExtendedNibble, if_pos h12, decodeExtendedNibble, if_pos hle, length_nil]
    congr 2
    apply UInt16.toNat_inj.mp
    rw [UInt8.toNat_toUInt16, hbyte]
  · have h12' : ¬ value.toNat ≤ 12 := h12
    by_cases h268 : value ≤ 268
    · have hvalue : value.toNat ≤ 268 := h268
      have hsub : (value - 13).toNat = value.toNat - 13 := UInt16.toNat_sub_of_le _ _ (by change 13 ≤ value.toNat; omega)
      simp only [encodeExtendedNibble, if_neg h12, if_pos h268, decodeExtendedNibble, cons_append, length_cons,
        length_nil, if_true]
      rw [if_neg (by decide)]
      congr 2
      apply UInt16.toNat_inj.mp
      rw [UInt16.toNat_add, UInt8.toNat_toUInt16, UInt16.toNat_toUInt8, hsub]
      change ((value.toNat - 13) % 2 ^ 8 + 13) % 2 ^ 16 = value.toNat
      omega
    · have h268' : ¬ value.toNat ≤ 268 := h268
      have hsub : (value - 269).toNat = value.toNat - 269 := UInt16.toNat_sub_of_le _ _ (by change 269 ≤ value.toNat; omega)
      have hwidth : (beBytes 2 (value - 269).toNat).length = 2 := length_beBytes 2 _
      have hread : beNat (beBytes 2 (value - 269).toNat) = value.toNat - 269 := by
        rw [hsub, beNat_beBytes_of_lt (by omega)]
      have hnot : ¬ ((beBytes 2 (value - 269).toNat) ++ rest).length < 2 := by
        rw [length_append, hwidth]
        omega
      simp only [encodeExtendedNibble, if_neg h12, if_neg h268, decodeExtendedNibble]
      have hvalue : UInt16.ofNat (value.toNat - 269 + 269) = value := by
        rw [Nat.sub_add_cancel (by omega), UInt16.ofNat_toNat]
      rw [if_neg (by decide), if_neg (by decide), if_pos trivial, if_neg hnot, take_left' hwidth, hread,
        if_pos (by omega), hwidth, hvalue]

end Nibbles

section Options

variable {last : UInt16} {option : CoapOption} {opts : List CoapOption}

theorem encodeOptionHeader_eq_ok {delta : UInt16} {length : ℕ} {hdr : Bytes}
    (h : encodeOptionHeader delta length = .ok hdr) : length < 2 ^ 16 ∧
      hdr = ((encodeExtendedNibble delta).1 <<< 4 ||| (encodeExtendedNibble (.ofNat length)).1) ::
        ((encodeExtendedNibble delta).2 ++ (encodeExtendedNibble (.ofNat length)).2) := by
  by_cases hlen : length < 2 ^ 16
  · simp only [encodeOptionHeader, ensure_true hlen, ok_bind] at h
    exact ⟨hlen, (Except.ok.inj h).symm⟩
  · simp only [encodeOptionHeader, ensure, if_neg hlen] at h
    cases h

theorem decodeOption_encodeOptionHeader {delta : UInt16} {hdr : Bytes}
    (hnumber : last ≤ option.number) (hdelta : delta = option.number - last)
    (h : encodeOptionHeader delta option.value.length = .ok hdr) (rest : Bytes) :
    ∃ first afterHeader, hdr ++ option.value ++ rest = first :: afterHeader ∧ first ≠ 0xff ∧
      decodeOption last first afterHeader = .ok (option, rest) := by
  obtain ⟨hlen, rfl⟩ := encodeOptionHeader_eq_ok h
  have hshort : ∀ value, (encodeExtendedNibble value).1 < 16 := fun value =>
    UInt8.lt_trans (encodeExtendedNibble_lt value) (by decide)
  have hnibbles := nibbles (hshort delta) (hshort (.ofNat option.value.length))
  refine ⟨_, _, by simp only [cons_append, append_assoc]; rfl, ?_, ?_⟩
  · -- the nibbles of 0xff are reserved
    intro hmarker
    have hhigh := hnibbles.1
    rw [hmarker] at hhigh
    have := encodeExtendedNibble_lt delta
    rw [← hhigh] at this
    exact absurd this (by decide)
  · have hvalue : (UInt16.ofNat option.value.length).toNat = option.value.length := by
      rw [UInt16.toNat_ofNat']
      omega
    have hsub : delta.toNat = option.number.toNat - last.toNat := by
      rw [hdelta]
      exact UInt16.toNat_sub_of_le _ _ hnumber
    have hle : last.toNat ≤ option.number.toNat := hnumber
    have hlt : option.number.toNat < 2 ^ 16 := option.number.toNat_lt
    have hadd : last + delta = option.number := by
      apply UInt16.toNat_inj.mp
      rw [UInt16.toNat_add, hsub]
      omega
    rw [decodeOption, hnibbles.1, hnibbles.2, decodeExtendedNibble_encodeExtendedNibble, ok_bind]
    dsimp only
    rw [drop_left' rfl, decodeExtendedNibble_encodeExtendedNibble, ok_bind]
    dsimp only
    rw [drop_left' rfl, hvalue, ensure_true (by simp), ok_bind, ensure_true (by omega), ok_bind, hadd,
      take_left' rfl, drop_left' rfl]
    rfl

theorem decodeOptions_cons {first : UInt8} {afterHeader rest payload : Bytes} (hfirst : first ≠ 0xff)
    (hoption : decodeOption last first afterHeader = .ok (option, rest))
    (hrest : decodeOptions option.number rest = .ok (opts, payload)) :
    decodeOptions last (first :: afterHeader) = .ok (option :: opts, payload) := by
  rw [decodeOptions, if_neg hfirst]
  split
  · next heq => cases hoption.symm.trans heq
  · next heq =>
    cases hoption.symm.trans heq
    rw [hrest]

/-- What ends the options: the end of the message, or the marker and the
payload after it. -/
def ending (payload : Bytes) : Bytes := if payload = [] then [] else 0xff :: payload

theorem decodeOptions_ending (payload : Bytes) : decodeOptions last (ending payload) = .ok ([], payload) := by
  rw [ending]
  split
  · next h => rw [h, decodeOptions]
  · rw [decodeOptions, if_pos rfl]

theorem decodeOptions_append {bytes tail payload : Bytes} (h : encodeOptions last opts = .ok bytes)
    (htail : ∀ number, decodeOptions number tail = .ok ([], payload)) :
    decodeOptions last (bytes ++ tail) = .ok (opts, payload) := by
  induction opts generalizing last bytes with
  | nil =>
    cases h
    exact htail last
  | cons option opts ih =>
    obtain ⟨_, hnumber, h⟩ := bind_ok.mp h
    obtain ⟨hdr, hheader, h⟩ := bind_ok.mp h
    obtain ⟨rest, hrest, h⟩ := bind_ok.mp h
    cases h
    obtain ⟨first, afterHeader, hsplit, hfirst, hoption⟩ :=
      decodeOption_encodeOptionHeader (ensure_eq_ok.mp hnumber) rfl hheader (rest ++ tail)
    rw [append_assoc, hsplit]
    exact decodeOptions_cons hfirst hoption (ih hrest)

end Options

theorem first_byte_table : ∀ (ty : CoapType) (length : Fin 9),
    ((0x01 : UInt8) <<< 6 ||| ty.toByte <<< 4 ||| UInt8.ofNat length.val) >>> 6 = 1 ∧
      (((0x01 : UInt8) <<< 6 ||| ty.toByte <<< 4 ||| UInt8.ofNat length.val) &&& 0x0f).toNat = length.val ∧
      CoapType.tryFrom (((0x01 : UInt8) <<< 6 ||| ty.toByte <<< 4 ||| UInt8.ofNat length.val) >>> 4 &&& 0x03) = .ok ty := by
  intro ty
  cases ty <;> decide +kernel

def framed (message : CoapMessage) (region : Bytes) : Bytes :=
  ((0x01 : UInt8) <<< 6 ||| message.ty.toByte <<< 4 ||| UInt8.ofNat message.token.length)
    :: message.code.byte :: beBytes 2 message.messageId.toNat ++ message.token ++ region

variable {m : CoapMessage}

theorem encode_eq_ok {wire : Bytes} : m.encode = .ok wire ↔ m.token.length ≤ 8 ∧
      ∃ opts, encodeOptions 0 (sortedOptions m.options) = .ok opts ∧ wire = framed m (opts ++ ending m.payload) := by
  constructor
  · intro h
    obtain ⟨_, htoken, h⟩ := bind_ok.mp h
    obtain ⟨opts, hopts, h⟩ := bind_ok.mp h
    cases h
    exact ⟨ensure_eq_ok.mp htoken, opts, hopts, by simp [framed, ending]⟩
  · rintro ⟨htoken, opts, hopts, rfl⟩
    rw [CoapMessage.encode, ensure_true htoken, ok_bind, hopts, ok_bind]
    simp [framed, ending, pure, Except.pure]

theorem decode_framed {region payload : Bytes} {options : List CoapOption}
    (htoken : m.token.length ≤ 8) (h : decodeOptions 0 region = .ok (options, payload)) :
    CoapMessage.decode (framed m region) = .ok { m with options, payload } := by
  obtain ⟨hversion, hlen, hty⟩ := first_byte_table m.ty ⟨m.token.length, by omega⟩
  have hid : UInt16.ofNat (beNat (beBytes 2 m.messageId.toNat)) = m.messageId := uint16_ofNat_beBytes m.messageId
  obtain ⟨idHigh, idLow, hbytes⟩ := length_eq_two.mp (length_beBytes 2 m.messageId.toNat)
  rw [hbytes] at hid
  rw [framed, hbytes]
  simp only [cons_append, nil_append]
  rw [CoapMessage.decode, ensure_true hversion, ok_bind]
  dsimp only at hlen hty ⊢
  rw [hlen, ensure_true ⟨htoken, by simp⟩, ok_bind, hty, ok_bind, drop_left' rfl, take_left' rfl, h, hid]
  rfl

theorem decode_encode {wire : Bytes} (h : m.encode = .ok wire) :
    CoapMessage.decode wire = .ok { m with options := sortedOptions m.options } := by
  obtain ⟨htoken, options, hoptions, rfl⟩ := encode_eq_ok.mp h
  exact decode_framed htoken (decodeOptions_append hoptions fun _ => decodeOptions_ending m.payload)

end ThreadCommissioner.CoapCodec
