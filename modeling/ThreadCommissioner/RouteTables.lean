import Mathlib.Data.Nat.Bitwise
import ThreadCommissioner.Diagnostics

namespace ThreadCommissioner.RouteTables

open ByteStrings Diagnostics List

section Masks

/-- Bit `position` of a mask, counted from the most significant bit of its first byte. -/
def maskBit (mask : Bytes) (position : ℕ) : Bool := (byteAt mask (position / 8)).toNat.testBit (7 - position % 8)

def setBitsOfByte (byte : UInt8) : ℕ := (List.range 8).countP byte.toNat.testBit

def setBits (bytes : Bytes) : ℕ := (bytes.map setBitsOfByte).sum

variable (byte : UInt8)

/-- The test of the source looks at one bit. -/
theorem and_shift_ne_zero {shift : ℕ} (h : shift < 8) :
    byte &&& (0x80 : UInt8) >>> UInt8.ofNat shift ≠ 0 ↔ byte.toNat.testBit (7 - shift) = true := by
  have htable : ∀ shift : Fin 8, ((0x80 : UInt8) >>> UInt8.ofNat shift.val).toNat = 2 ^ (7 - shift.val) := by decide
  rw [Ne, ← UInt8.toNat_inj, UInt8.toNat_and, htable ⟨shift, h⟩, Nat.and_two_pow]
  cases byte.toNat.testBit (7 - shift) <;> simp

variable (mask : Bytes)

theorem maskedIds_eq : maskedIds mask = (List.range 64).filter (maskBit mask) := by
  apply filter_congr
  intro bit _
  have hbit := and_shift_ne_zero (byteAt mask (bit / 8)) (Nat.mod_lt bit (by decide : 0 < 8))
  rw [maskBit, Bool.eq_iff_iff, decide_eq_true_eq, hbit]

theorem mem_maskedIds {mask : Bytes} {pos : ℕ} : pos ∈ maskedIds mask ↔ pos < 64 ∧ maskBit mask pos = true := by
  rw [maskedIds_eq, mem_filter, mem_range]

theorem pairwise_maskedIds : (maskedIds mask).Pairwise (· < ·) := by
  rw [maskedIds_eq]
  exact pairwise_lt_range.filter _

theorem countP_maskBit_head : (List.range 8).countP (maskBit (byte :: mask)) = setBitsOfByte byte := by
  -- the bits of a byte are numbered from its most significant one
  have hreverse : (List.range 8).reverse = (List.range 8).map fun position => 7 - position := by decide
  rw [setBitsOfByte, ← countP_reverse, hreverse, countP_map]
  apply countP_congr
  intro position hposition
  have hlt := mem_range.mp hposition
  have hsub : 7 - position < 8 := by omega
  rw [Function.comp_apply, maskBit, Nat.div_eq_of_lt hsub, Nat.mod_eq_of_lt hsub, Nat.sub_sub_self (by omega)]
  rfl

theorem maskBit_cons (position : ℕ) : maskBit (byte :: mask) (8 + position) = maskBit mask position := by
  have hdiv : (8 + position) / 8 = position / 8 + 1 := by omega
  have hmod : (8 + position) % 8 = position % 8 := by omega
  rw [maskBit, maskBit, hdiv, hmod]
  rfl

/-- A mask of `n` bytes has as many members as it has set bits. -/
theorem countP_maskBit : (List.range (8 * mask.length)).countP (maskBit mask) = setBits mask := by
  induction mask with
  | nil => rfl
  | cons byte mask ih =>
    have hlen : 8 * (byte :: mask).length = 8 + 8 * mask.length := by
      rw [length_cons]
      omega
    have htail : maskBit (byte :: mask) ∘ (8 + ·) = maskBit mask := funext (maskBit_cons byte mask)
    rw [hlen, range_add, countP_append, countP_maskBit_head, countP_map, htail, ih]
    simp [setBits]

theorem length_maskedIds {mask : Bytes} (h : mask.length = 8) : (maskedIds mask).length = setBits mask := by
  rw [maskedIds_eq, ← countP_eq_length_filter, ← countP_maskBit, h]

end Masks

section Entries

def entryOf (routerId : ℕ) (byte : UInt8) : RouteDataEntry where
  routerId := .ofNat routerId
  outgoingLinkQuality := byte >>> 6 &&& 0x03
  incomingLinkQuality := byte >>> 4 &&& 0x03
  routeCost := byte &&& 0x0f

theorem toNat_fields (routerId : ℕ) (byte : UInt8) : (entryOf routerId byte).outgoingLinkQuality.toNat = byte.toNat / 64 ∧
      (entryOf routerId byte).incomingLinkQuality.toNat = byte.toNat / 16 % 4 ∧
      (entryOf routerId byte).routeCost.toNat = byte.toNat % 16 := by
  have hlt := byte.toNat_lt
  have hlow : ∀ n, n &&& 3 = n % 4 := fun n => Nat.and_two_pow_sub_one_eq_mod n 2
  have hcost : ∀ n, n &&& 15 = n % 16 := fun n => Nat.and_two_pow_sub_one_eq_mod n 4
  refine ⟨?_, ?_, ?_⟩
  · change (byte >>> 6 &&& 0x03).toNat = _
    rw [UInt8.toNat_and, UInt8.toNat_shiftRight]
    change byte.toNat >>> 6 &&& 3 = _
    rw [hlow, Nat.shiftRight_eq_div_pow]
    omega
  · change (byte >>> 4 &&& 0x03).toNat = _
    rw [UInt8.toNat_and, UInt8.toNat_shiftRight]
    change byte.toNat >>> 4 &&& 3 = _
    rw [hlow, Nat.shiftRight_eq_div_pow]
  · change (byte &&& 0x0f).toNat = _
    rw [UInt8.toNat_and]
    exact hcost _

def packed (entry : RouteDataEntry) : UInt8 :=
  .ofNat (entry.outgoingLinkQuality.toNat * 64 + entry.incomingLinkQuality.toNat * 16 + entry.routeCost.toNat)

theorem packed_entryOf (routerId : ℕ) (byte : UInt8) : packed (entryOf routerId byte) = byte := by
  obtain ⟨hout, hin, hcost⟩ := toNat_fields routerId byte
  have hsum : byte.toNat / 64 * 64 + byte.toNat / 16 % 4 * 16 + byte.toNat % 16 = byte.toNat := by omega
  rw [packed, hout, hin, hcost, hsum, UInt8.ofNat_toNat]

def rebuilt (route : Route64) : Bytes := route.idSequence :: (route.mask.toList ++ route.routeData.map packed)

end Entries

theorem decodeRoute64_cons (idSequence : UInt8) (mask : ByteVector 8) (routeBytes : Bytes) :
    decodeRoute64 (idSequence :: (mask.toList ++ routeBytes)) = if routeBytes.length ≠ (maskedIds mask.toList).length then
        let entries := routeBytes.length
        let ids := (maskedIds mask.toList).length
        .error (.dataset s!"Route64 route data has {entries} entries but the mask assigns {ids} router IDs")
      else .ok ⟨idSequence, mask, ((maskedIds mask.toList).zip routeBytes).map fun pair => entryOf pair.1 pair.2⟩ := by
  have hmask : mask.toList.length = 8 := mask.toList_length
  have hlen : ¬ (idSequence :: (mask.toList ++ routeBytes)).length < routerIdMaskLen + 1 := by
    rw [length_cons, length_append, hmask, routerIdMaskLen]
    omega
  have htake : ((idSequence :: (mask.toList ++ routeBytes)).drop 1).take routerIdMaskLen = mask.toList := take_left' hmask
  have hdrop : (idSequence :: (mask.toList ++ routeBytes)).drop (1 + routerIdMaskLen) = routeBytes := by
    rw [Nat.add_comm, drop_succ_cons]
    exact drop_left' hmask
  have hvector : ∀ h, (⟨((idSequence :: (mask.toList ++ routeBytes)).drop 1).take routerIdMaskLen, h⟩ : ByteVector 8) = mask :=
    fun _ => List.Vector.eq _ _ htake
  rw [decodeRoute64, dif_neg hlen]
  dsimp only
  rw [hvector, hdrop]
  rfl

variable {route : Route64}

variable {value : Bytes}

/-- What `decode_route64` accepts, and what it makes of it. -/
theorem decodeRoute64_eq_ok : decodeRoute64 value = .ok route ↔
      ∃ (idSequence : UInt8) (mask : ByteVector 8) (routeBytes : Bytes),
        value = idSequence :: (mask.toList ++ routeBytes) ∧ routeBytes.length = setBits mask.toList ∧
        route = ⟨idSequence, mask, ((maskedIds mask.toList).zip routeBytes).map fun pair => entryOf pair.1 pair.2⟩ := by
  constructor
  · intro h
    by_cases hlen : value.length < routerIdMaskLen + 1
    · rw [decodeRoute64, dif_pos hlen] at h
      cases h
    · cases value with
      | nil => exact absurd hlen (by decide)
      | cons idSequence rest =>
        have hrest : 8 ≤ rest.length := by
          rw [length_cons, routerIdMaskLen] at hlen
          omega
        have hmask : (rest.take 8).length = 8 := by rw [length_take, min_eq_left hrest]
        refine ⟨idSequence, ⟨rest.take 8, hmask⟩, rest.drop 8, by simp, ?_⟩
        rw [← take_append_drop 8 rest] at h
        have hcons := decodeRoute64_cons idSequence ⟨rest.take 8, hmask⟩ (rest.drop 8)
        rw [List.Vector.toList_mk] at hcons ⊢
        rw [hcons] at h
        split at h
        · cases h
        · next hcount =>
          rw [not_not, length_maskedIds hmask] at hcount
          exact ⟨hcount, (Except.ok.inj h).symm⟩
  · rintro ⟨idSequence, mask, routeBytes, rfl, hcount, rfl⟩
    rw [decodeRoute64_cons, if_neg (not_not_intro (hcount.trans (length_maskedIds mask.toList_length).symm))]

theorem routerIds_of_decode (h : decodeRoute64 value = .ok route) :
    route.routeData.map (·.routerId.toNat) = maskedIds route.mask.toList := by
  obtain ⟨idSequence, mask, routeBytes, rfl, hcount, rfl⟩ := decodeRoute64_eq_ok.mp h
  have hlengths : (maskedIds mask.toList).length ≤ routeBytes.length := by
    rw [hcount, length_maskedIds mask.toList_length]
  have hids : ((maskedIds mask.toList).zip routeBytes).map Prod.fst = maskedIds mask.toList := map_fst_zip hlengths
  have hnumber : ∀ id ∈ maskedIds mask.toList, (UInt8.ofNat id).toNat = id := by
    intro id hid
    obtain ⟨hlt, -⟩ := mem_maskedIds.mp hid
    rw [UInt8.toNat_ofNat']
    omega
  rw [map_map]
  change ((maskedIds mask.toList).zip routeBytes).map ((fun id => (UInt8.ofNat id).toNat) ∘ Prod.fst) = _
  rw [← map_map, hids, map_congr_left hnumber, map_id']

theorem rebuilt_of_decode (h : decodeRoute64 value = .ok route) : rebuilt route = value := by
  obtain ⟨idSequence, mask, routeBytes, rfl, hcount, rfl⟩ := decodeRoute64_eq_ok.mp h
  have hlengths : routeBytes.length ≤ (maskedIds mask.toList).length := by
    rw [hcount, length_maskedIds mask.toList_length]
  have hpacked : packed ∘ (fun pair : ℕ × UInt8 => entryOf pair.1 pair.2) = Prod.snd :=
    funext fun pair => packed_entryOf pair.1 pair.2
  rw [rebuilt, map_map, hpacked, map_snd_zip hlengths]

theorem exists_decodeRoute64_iff (value : Bytes) :
    (∃ route, decodeRoute64 value = .ok route) ↔ value.length = 9 + setBits ((value.drop 1).take 8) := by
  constructor
  · rintro ⟨route, h⟩
    obtain ⟨idSequence, mask, routeBytes, rfl, hcount, -⟩ := decodeRoute64_eq_ok.mp h
    have htake : (mask.toList ++ routeBytes).take 8 = mask.toList := take_left' mask.toList_length
    rw [drop_succ_cons, drop_zero, htake, ← hcount, length_cons, length_append, mask.toList_length]
    omega
  · intro hlen
    cases value with
    | nil => exact absurd hlen (by decide)
    | cons idSequence rest =>
      rw [drop_succ_cons, drop_zero, length_cons] at hlen
      have hmask : (rest.take 8).length = 8 := by
        rw [length_take]
        omega
      refine ⟨_, decodeRoute64_eq_ok.mpr ⟨idSequence, ⟨rest.take 8, hmask⟩, rest.drop 8, by simp, ?_, rfl⟩⟩
      rw [List.Vector.toList_mk, length_drop]
      omega

/-- A Route64 value is accepted if there is a byte of route data for each bit of
its mask; the entries are those bytes in the order of the bits, and nothing of
the value is lost. -/
theorem route64_mask_and_data_line_up (value : Bytes) :
    ((∃ route, decodeRoute64 value = .ok route) ↔ value.length = 9 + setBits ((value.drop 1).take 8)) ∧
      ∀ route, decodeRoute64 value = .ok route →
        (∀ position, position ∈ route.routeData.map (·.routerId.toNat) ↔
          position < 64 ∧ (byteAt value (1 + position / 8)).toNat.testBit (7 - position % 8) = true) ∧
        (route.routeData.map (·.routerId.toNat)).Pairwise (· < ·) ∧
        9 + route.routeData.length = value.length ∧
        (∀ i entry, route.routeData[i]? = some entry → ∃ byte, value[9 + i]? = some byte ∧
          entry.outgoingLinkQuality.toNat = byte.toNat / 64 ∧
          entry.incomingLinkQuality.toNat = byte.toNat / 16 % 4 ∧ entry.routeCost.toNat = byte.toNat % 16) ∧
        rebuilt route = value := by
  refine ⟨exists_decodeRoute64_iff value, fun route h => ⟨fun position => ?_, ?_, ?_, fun i entry hentry => ?_, rebuilt_of_decode h⟩⟩
  · rw [routerIds_of_decode h, mem_maskedIds]
    obtain ⟨idSequence, mask, routeBytes, rfl, hcount, rfl⟩ := decodeRoute64_eq_ok.mp h
    refine and_congr_right fun hlt => ?_
    have hindex : position / 8 < mask.toList.length := by
      rw [mask.toList_length]
      omega
    rw [maskBit, Nat.add_comm, byteAt, byteAt, getD_cons_succ, getD_append _ _ _ _ hindex]
  · rw [routerIds_of_decode h]
    exact pairwise_maskedIds _
  · have hvalue := rebuilt_of_decode h
    rw [← hvalue, rebuilt, length_cons, length_append, length_map, route.mask.toList_length]
    omega
  · obtain ⟨idSequence, mask, routeBytes, rfl, hcount, rfl⟩ := decodeRoute64_eq_ok.mp h
    rw [List.getElem?_map, Option.map_eq_some_iff] at hentry
    obtain ⟨⟨id, byte⟩, hpair, rfl⟩ := hentry
    obtain ⟨-, hbyte⟩ := List.getElem?_zip_eq_some.mp hpair
    refine ⟨byte, ?_, toNat_fields id byte⟩
    rw [show 9 + i = (8 + i) + 1 by omega, List.getElem?_cons_succ,
      List.getElem?_append_right (by rw [mask.toList_length]; omega), mask.toList_length, Nat.add_sub_cancel_left]
    exact hbyte

def twoRoutes : Bytes := [7, 0x80, 0, 0, 0, 0, 0, 0, 1, 0x5a, 0xb1]

theorem route64_mask_and_data_line_up_two : ∃ route, decodeRoute64 twoRoutes = .ok route ∧
    (route.routeData.map (·.routerId.toNat)).Pairwise (· < ·) ∧ rebuilt route = twoRoutes := by
  obtain ⟨haccepted, hresult⟩ := route64_mask_and_data_line_up twoRoutes
  obtain ⟨route, hroute⟩ := haccepted.mpr (by decide)
  obtain ⟨-, hsorted, -, -, hrebuilt⟩ := hresult route hroute
  exact ⟨route, hroute, hsorted, hrebuilt⟩

end ThreadCommissioner.RouteTables
