import Mathlib.Data.Bool.AllAny
import ThreadCommissioner.DatasetJson

namespace ThreadCommissioner.TextForms

open ByteStrings Computations DatasetJson JoinerCommands List Requests Texts
open ThreadCommissioner.Topology (hexDigit lowerHex lowerHexText digits_lt formatRloc16 decimalText)

section Trimming

/-- A character that stands for itself in a text and is not a space. -/
def Visible (byte : UInt8) : Prop := 0x20 < byte ∧ byte < 0x80

instance : DecidablePred Visible := fun byte => by
  unfold Visible
  infer_instance

theorem trimFront_of_visible {characters : List Bytes} {bs : Bytes}
    (hcharacters : ∀ character ∈ characters, ∃ byte, character.head? = some byte ∧ ¬ Visible byte)
    (h : ∀ byte ∈ bs, Visible byte) (count : ℕ) : trimFront characters count bs = bs := by
  cases count with
  | zero => rfl
  | succ count =>
    have hnone : characters.find? (·.isPrefixOf bs) = none := by
      rw [List.find?_eq_none]
      intro character hmem hfront
      obtain ⟨byte, hhead, hbyte⟩ := hcharacters character hmem
      obtain ⟨rest, rfl⟩ := isPrefixOf_iff_prefix.mp hfront
      cases character with
      | nil => cases hhead
      | cons first character =>
        cases hhead
        exact hbyte (h _ mem_cons_self)
    rw [trimFront, hnone]

theorem trim_of_visible {bs : Bytes} (h : ∀ byte ∈ bs, Visible byte) : trim bs = bs := by
  have hspaces : ∀ character ∈ whitespaces, ∃ byte, character.head? = some byte ∧ ¬ Visible byte := by decide
  have hreversed : ∀ character ∈ whitespaces.map List.reverse, ∃ byte, character.head? = some byte ∧ ¬ Visible byte := by
    decide
  have hback : ∀ byte ∈ bs.reverse, Visible byte := fun byte hmem => h byte (mem_reverse.mp hmem)
  simp only [trim, trimFront_of_visible hspaces h, trimFront_of_visible hreversed hback, reverse_reverse]

end Trimming

section Digits

theorem digitOf_hexDigit {digit : ℕ} (h : digit < 16) : digitOf 16 (hexDigit digit) = some digit := by
  have htable : ∀ digit : Fin 16, digitOf 16 (hexDigit digit.val) = some digit.val := by decide
  exact htable ⟨digit, h⟩

variable (bytes : Bytes)

theorem lower_lowerHex : ∀ byte ∈ lowerHex bytes, byte ∈ ascii "0123456789abcdef" ∧ Visible byte ∧ byte ≠ 0x2b := by
  have htable : ∀ digit : Fin 16, hexDigit digit.val ∈ ascii "0123456789abcdef" ∧ Visible (hexDigit digit.val) ∧
      hexDigit digit.val ≠ 0x2b := by decide
  intro byte hbyte
  obtain ⟨source, -, hbyte⟩ := mem_flatMap.mp hbyte
  obtain ⟨hhigh, hlow⟩ := digits_lt source
  rcases mem_cons.mp hbyte with rfl | hbyte
  · exact htable ⟨_, hhigh⟩
  · rw [mem_singleton.mp hbyte]
    exact htable ⟨_, hlow⟩

theorem lowerHex_cons (byte : UInt8) (bytes : Bytes) :
    lowerHex (byte :: bytes) = hexDigit (byte.toNat / 16) :: hexDigit (byte.toNat % 16) :: lowerHex bytes := rfl

/-- The digits have no `0x` in front of them to be left out. -/
theorem parseHex_encode [Hex] : parseHex (Hex.encode bytes) = .ok bytes := by
  have hdigits : ∀ byte ∈ ascii "0123456789abcdef", Visible byte ∧ byte ≠ 0x78 := all_iff_forall_prop.mp (by decide)
  have hlower := fun byte hbyte => hdigits byte (Hex.encode_lower bytes byte hbyte)
  have hmark : (Hex.encode bytes).bytes.take 2 ≠ ascii "0x" := by
    intro heq
    have hmem : (0x78 : UInt8) ∈ (Hex.encode bytes).bytes.take 2 := heq ▸ (by decide : (0x78 : UInt8) ∈ ascii "0x")
    exact (hlower _ (mem_of_mem_take hmem)).2 rfl
  have htrim := trim_of_visible fun byte hbyte => (hlower byte hbyte).1
  simp only [parseHex, htrim, if_neg hmark, Hex.decode_encode]

def decodePairs : Bytes → Option Bytes
  | [] => some []
  | [_] => none
  | high :: low :: rest => do return .ofNat ((← digitOf 16 high) * 16 + (← digitOf 16 low)) :: (← decodePairs rest)

theorem decodePairs_lowerHex : decodePairs (lowerHex bytes) = some bytes := by
  induction bytes with
  | nil => rfl
  | cons byte bytes ih =>
    obtain ⟨hhigh, hlow⟩ := digits_lt byte
    have hbyte : UInt8.ofNat (byte.toNat / 16 * 16 + byte.toNat % 16) = byte := by
      rw [Nat.div_add_mod', UInt8.ofNat_toNat]
    rw [lowerHex_cons, decodePairs, digitOf_hexDigit hhigh, digitOf_hexDigit hlow, ih]
    exact congrArg some (congrArg (· :: bytes) hbyte)

/-- The digits alone, without the texts of failures. -/
@[reducible] def plainHex : Hex where
  encode := lowerHexText
  decode digits := okOr (decodePairs digits) ""
  encode_lower bytes byte hbyte := (lower_lowerHex bytes byte hbyte).1
  decode_encode bytes := okOr_eq_ok.mpr (decodePairs_lowerHex bytes)

/-- One round of the loop of `from_str_radix`. -/
def addDigit (bound value : ℕ) (byte : UInt8) : Option ℕ := do
  let digit ← digitOf 16 byte
  let value := value * 16 + digit
  if value < bound then some value else none

theorem addDigit_hexDigit {bound value digit : ℕ} (hdigit : digit < 16) (h : value * 16 + digit < bound) :
    addDigit bound value (hexDigit digit) = some (value * 16 + digit) := by
  rw [addDigit, digitOf_hexDigit hdigit]
  exact if_pos h

/-- The value of the digits of `bytes`, read after those of `value`. -/
theorem foldlM_addDigit {bound : ℕ} (value : ℕ) (h : value * 256 ^ bytes.length + beNat bytes < bound) :
    (lowerHex bytes).foldlM (addDigit bound) value = some (value * 256 ^ bytes.length + beNat bytes) := by
  induction bytes generalizing value with
  | nil => simp [lowerHex, beNat]
  | cons byte bytes ih =>
    obtain ⟨hhigh, hlow⟩ := digits_lt byte
    have hvalue : value * 256 ^ (byte :: bytes).length + beNat (byte :: bytes) =
        (value * 256 + byte.toNat) * 256 ^ bytes.length + beNat bytes := by
      rw [length_cons, beNat, pow_succ]
      ring
    have hpos : 0 < 256 ^ bytes.length := Nat.pow_pos (by decide)
    have hle : value * 256 + byte.toNat ≤ (value * 256 + byte.toNat) * 256 ^ bytes.length := Nat.le_mul_of_pos_right _ hpos
    have hbyte : (value * 16 + byte.toNat / 16) * 16 + byte.toNat % 16 = value * 256 + byte.toNat := by omega
    rw [hvalue] at h ⊢
    rw [lowerHex_cons, foldlM_cons, addDigit_hexDigit hhigh (by omega), Option.bind_eq_bind, Option.bind_some,
      foldlM_cons, addDigit_hexDigit hlow (by omega), Option.bind_eq_bind, Option.bind_some, hbyte]
    exact ih _ h

theorem fromStrRadix_lowerHex {bound : ℕ} {bytes : Bytes} (hne : bytes ≠ []) (h : beNat bytes < bound) :
    fromStrRadix 16 bound (lowerHex bytes) = some (beNat bytes) := by
  have hsign : (lowerHex bytes).head? ≠ some 0x2b := fun hhead =>
    (lower_lowerHex bytes _ (List.mem_of_mem_head? hhead)).2.2 rfl
  have hdigits : lowerHex bytes ≠ [] := by
    obtain ⟨byte, rest, rfl⟩ := exists_cons_of_ne_nil hne
    exact cons_ne_nil _ _
  have hfold := foldlM_addDigit bytes 0 (by rwa [zero_mul, zero_add])
  rw [zero_mul, zero_add] at hfold
  rw [fromStrRadix, if_neg hsign]
  exact (if_neg hdigits).trans hfold

theorem parsePanid_formatRloc16 (panid : UInt16) : parsePanid (formatRloc16 panid) = .ok panid := by
  have hmark : ∀ byte ∈ ascii "0x", Visible byte := all_iff_forall_prop.mp (by decide)
  have htrim : trim (formatRloc16 panid).bytes = ascii "0x" ++ lowerHex (beBytes 2 panid.toNat) := by
    refine trim_of_visible fun byte hbyte => ?_
    rcases mem_append.mp hbyte with hbyte | hbyte
    · exact hmark byte hbyte
    · exact (lower_lowerHex _ byte hbyte).2.1
  have hvalue : beNat (beBytes 2 panid.toNat) = panid.toNat := beNat_beBytes_of_lt panid.toNat_lt
  have hnumber : fromStrRadix 16 (2 ^ 16) (lowerHex (beBytes 2 panid.toNat)) = some panid.toNat := by
    have hne : beBytes 2 panid.toNat ≠ [] := cons_ne_nil _ _
    rw [fromStrRadix_lowerHex hne (hvalue.trans_lt panid.toNat_lt), hvalue]
  have hlength : (ascii "0x").length = 2 := by decide
  have htake : (ascii "0x" ++ lowerHex (beBytes 2 panid.toNat)).take 2 = ascii "0x" := take_left' hlength
  have hdrop : (ascii "0x" ++ lowerHex (beBytes 2 panid.toNat)).drop 2 = lowerHex (beBytes 2 panid.toNat) :=
    drop_left' hlength
  rw [parsePanid]
  refine okOr_eq_ok.mpr ?_
  rw [htrim, htake, hdrop, if_pos (Or.inl rfl), hnumber, Option.map_some, UInt16.ofNat_toNat]

end Digits

section Addresses

/-- An address is read back from its text, which has only hexadecimal digits,
colons and dots. -/
structure RoundTrips [AddressTexts] : Prop where
  parse_display : ∀ address, AddressTexts.parse (AddressTexts.display address) = some address
  display_plain : ∀ address, ∀ byte ∈ (AddressTexts.display address).bytes, byte ∈ ascii "0123456789abcdef:."

theorem fromUtf8_bytes (text : Text) : fromUtf8 text.bytes = some text := by
  rw [fromUtf8, dif_pos text.valid]

theorem takeWhile_append_of_stop {bs : Bytes} {stop : UInt8} (h : ∀ byte ∈ bs, byte ≠ stop) (rest : Bytes) :
    (bs ++ stop :: rest).takeWhile (· ≠ stop) = bs := by
  rw [takeWhile_append_of_pos (by simpa using h), takeWhile_cons_of_neg (by simp), append_nil]

theorem take_ofFn_getD (mesh : ByteVector 8) :
    (List.Vector.ofFn fun i : Fin 16 => mesh.toList.getD i 0).toList.take 8 = mesh.toList := by
  refine List.ext_getElem (by simp) fun i hi hi' => ?_
  simp only [List.getElem_take, List.Vector.toList_ofFn, List.getElem_ofFn]
  exact List.getD_eq_getElem _ _ hi'

variable [AddressTexts]

theorem parseMeshLocalPrefix_string (h : RoundTrips) (mesh : ByteVector 8) :
    parseMeshLocalPrefix (meshLocalPrefixString mesh) = .ok mesh.toList := by
  have hplain : ∀ byte ∈ ascii "0123456789abcdef:.", Visible byte ∧ byte ≠ 0x2f := all_iff_forall_prop.mp (by decide)
  have hdisplay := fun byte hbyte => hplain byte (h.display_plain
    (List.Vector.ofFn fun i => mesh.toList.getD i 0) byte hbyte)
  have hbytes : (meshLocalPrefixString mesh).bytes =
      (AddressTexts.display (List.Vector.ofFn fun i => mesh.toList.getD i 0)).bytes ++ 0x2f :: (decimalText 64).bytes := rfl
  have htrim := trim_of_visible fun byte hbyte => (hdisplay byte hbyte).1
  refine bind_ok.mpr ⟨_, okOr_eq_ok.mpr ?_, congrArg Except.ok (take_ofFn_getD mesh)⟩
  rw [hbytes, takeWhile_append_of_stop (fun byte hbyte => (hdisplay byte hbyte).2), htrim, fromUtf8_bytes]
  exact h.parse_display _

end Addresses

end ThreadCommissioner.TextForms
