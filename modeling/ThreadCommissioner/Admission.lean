import Mathlib.Data.List.GetD
import ThreadCommissioner.Steering

namespace ThreadCommissioner.Admission

open ByteStrings List Steering

section Bits

variable {data data' : Bytes} {bit other : ℕ}

/-- The bit that `set_bit` sets. -/
def bitAt (data : Bytes) (bit : ℕ) : Bool := (data.getD (data.length - 1 - bit / 8) 0).toNat.testBit (bit % 8)

theorem length_setBit (data : Bytes) (bit : ℕ) : (setBit data bit).length = data.length := length_modify _ _ _

theorem mask_table : ∀ i k : Fin 8, ((1 : UInt8) <<< UInt8.ofNat i.val).toNat.testBit k.val = decide (k = i) := by decide

theorem testBit_mask (bit other : ℕ) :
    ((1 : UInt8) <<< UInt8.ofNat (bit % 8)).toNat.testBit (other % 8) = decide (other % 8 = bit % 8) := by
  have htable := mask_table ⟨bit % 8, Nat.mod_lt _ (by decide)⟩ ⟨other % 8, Nat.mod_lt _ (by decide)⟩
  simpa using htable

theorem bitAt_setBit (hbit : bit < data.length * 8) (hother : other < data.length * 8) :
    bitAt (setBit data bit) other = (bitAt data other || decide (other = bit)) := by
  have hindex : data.length - 1 - other / 8 < data.length := by omega
  rw [bitAt, bitAt, length_setBit, setBit, List.getD_eq_getElem?_getD, List.getElem?_modify,
    List.getElem?_eq_getElem hindex, getD_eq_getElem _ _ hindex]
  by_cases hsame : other / 8 = bit / 8
  · have hiff : other % 8 = bit % 8 ↔ other = bit := by omega
    rw [Option.map_eq_map, Option.map_some, Option.getD_some, if_pos (by rw [hsame]), UInt8.toNat_or, Nat.testBit_or,
      testBit_mask]
    simp only [hiff]
  · have hne : data.length - 1 - bit / 8 ≠ data.length - 1 - other / 8 := by omega
    have hdistinct : other ≠ bit := fun heq => hsame (by rw [heq])
    simp [hne, hdistinct]

theorem eq_of_bitAt_eq (hlen : data.length = data'.length)
    (h : ∀ bit, bit < data.length * 8 → bitAt data bit = bitAt data' bit) : data = data' := by
  refine ext_getElem hlen fun i hi hi' => ?_
  apply UInt8.toNat_inj.mp
  apply Nat.eq_of_testBit_eq
  intro k
  by_cases hk : k < 8
  · have hbit := h ((data.length - 1 - i) * 8 + k) (by omega)
    have hquotient : ((data.length - 1 - i) * 8 + k) / 8 = data.length - 1 - i := by omega
    have hremainder : ((data.length - 1 - i) * 8 + k) % 8 = k := by omega
    have hindex : data.length - 1 - (data.length - 1 - i) = i := by omega
    rw [bitAt, bitAt, ← hlen, hquotient, hremainder, hindex, getD_eq_getElem _ _ hi, getD_eq_getElem _ _ hi'] at hbit
    exact hbit
  · have hsmall : ∀ byte : UInt8, byte.toNat < 2 ^ k := fun byte =>
      lt_of_lt_of_le byte.toNat_lt (Nat.pow_le_pow_right (by decide) (Nat.not_lt.mp hk))
    rw [Nat.testBit_lt_two_pow (hsmall _), Nat.testBit_lt_two_pow (hsmall _)]

end Bits

section Filters

variable {data : Bytes} {joinerId other : Bytes} {bit : ℕ}

def bloomBits (length : ℕ) (joinerId : Bytes) : List ℕ :=
  [(crc16 0x1021 joinerId).toNat % (length * 8), (crc16 0x8005 joinerId).toNat % (length * 8)]

def Admits (data joinerId : Bytes) : Prop := ∀ bit ∈ bloomBits data.length joinerId, bitAt data bit = true

instance (data joinerId : Bytes) : Decidable (Admits data joinerId) := by
  unfold Admits
  infer_instance

theorem lt_of_mem_bloomBits {length : ℕ} (hlen : 0 < length) (h : bit ∈ bloomBits length joinerId) : bit < length * 8 := by
  have hpos : 0 < length * 8 := by omega
  rcases mem_cons.mp h with rfl | h
  · exact Nat.mod_lt _ hpos
  · rw [mem_singleton.mp h]
    exact Nat.mod_lt _ hpos

theorem length_computeBloomFilter (data joinerId : Bytes) : (computeBloomFilter data joinerId).length = data.length := by
  simp only [computeBloomFilter, length_setBit]

theorem bitAt_computeBloomFilter (hbit : bit < data.length * 8) :
    bitAt (computeBloomFilter data joinerId) bit = (bitAt data bit || decide (bit ∈ bloomBits data.length joinerId)) := by
  have hlen : 0 < data.length := by omega
  have hccitt : (crc16 0x1021 joinerId).toNat % (data.length * 8) < data.length * 8 := Nat.mod_lt _ (by omega)
  have hansi : (crc16 0x8005 joinerId).toNat % (data.length * 8) < data.length * 8 := Nat.mod_lt _ (by omega)
  simp only [computeBloomFilter]
  rw [bitAt_setBit (by rwa [length_setBit]) (by rwa [length_setBit]), bitAt_setBit hccitt hbit, Bool.or_assoc]
  simp [bloomBits]

theorem admits_computeBloomFilter (hlen : 0 < data.length) (joinerId : Bytes) :
    Admits (computeBloomFilter data joinerId) joinerId := by
  intro bit hbit
  rw [length_computeBloomFilter] at hbit
  rw [bitAt_computeBloomFilter (lt_of_mem_bloomBits hlen hbit)]
  simp [hbit]

theorem Admits.computeBloomFilter (hlen : 0 < data.length) (h : Admits data other) (joinerId : Bytes) :
    Admits (Steering.computeBloomFilter data joinerId) other := by
  intro bit hbit
  rw [length_computeBloomFilter] at hbit
  rw [bitAt_computeBloomFilter (lt_of_mem_bloomBits hlen hbit), h bit hbit]
  rfl

theorem admits_wildcard (joinerId : Bytes) : Admits [0xff] joinerId := by
  intro bit hbit
  have htable : ∀ bit : Fin 8, bitAt [0xff] bit.val = true := by decide
  exact htable ⟨bit, lt_of_mem_bloomBits (by decide) hbit⟩

def filterOf (joinerIds : List Bytes) : Bytes :=
  joinerIds.foldl Steering.computeBloomFilter (List.replicate maxSteeringDataLen 0)

variable (joinerIds : List Bytes)

theorem filterOf_concat (joinerId : Bytes) :
    filterOf (joinerIds ++ [joinerId]) = Steering.computeBloomFilter (filterOf joinerIds) joinerId := by
  rw [filterOf, foldl_concat]
  rfl

theorem length_filterOf : (filterOf joinerIds).length = maxSteeringDataLen := by
  induction joinerIds using List.reverseRecOn with
  | nil => exact length_replicate
  | append_singleton joinerIds joinerId ih => rw [filterOf_concat, length_computeBloomFilter, ih]

theorem bitAt_filterOf (hbit : bit < maxSteeringDataLen * 8) :
    bitAt (filterOf joinerIds) bit = true ↔ ∃ joinerId ∈ joinerIds, bit ∈ bloomBits maxSteeringDataLen joinerId := by
  induction joinerIds using List.reverseRecOn with
  | nil =>
    have htable : ∀ bit : Fin (maxSteeringDataLen * 8), bitAt (filterOf []) bit.val = false := by decide +kernel
    rw [htable ⟨bit, hbit⟩]
    simp
  | append_singleton joinerIds joinerId ih =>
    have hlen := length_filterOf joinerIds
    rw [filterOf_concat, bitAt_computeBloomFilter (by rwa [hlen]), Bool.or_eq_true, ih, hlen]
    simp only [decide_eq_true_eq, mem_append, mem_singleton]
    constructor
    · rintro (⟨joiner, hmem, hjoiner⟩ | hjoiner)
      · exact ⟨joiner, .inl hmem, hjoiner⟩
      · exact ⟨joinerId, .inr rfl, hjoiner⟩
    · rintro ⟨joiner, hmem | rfl, hjoiner⟩
      · exact .inl ⟨joiner, hmem, hjoiner⟩
      · exact .inr hjoiner

theorem admits_filterOf {joinerIds : List Bytes} (h : joinerId ∈ joinerIds) : Admits (filterOf joinerIds) joinerId := by
  intro bit hbit
  rw [length_filterOf] at hbit
  exact (bitAt_filterOf joinerIds (lt_of_mem_bloomBits (by decide) hbit)).mpr ⟨joinerId, h, hbit⟩

/-- Two lists of joiners have the same filter exactly if the filter of each
admits the joiners of the other. -/
theorem filterOf_eq_iff {joinerIds joinerIds' : List Bytes} : filterOf joinerIds = filterOf joinerIds' ↔
      (∀ joinerId ∈ joinerIds, Admits (filterOf joinerIds') joinerId) ∧
        ∀ joinerId ∈ joinerIds', Admits (filterOf joinerIds) joinerId := by
  constructor
  · intro heq
    exact ⟨fun joinerId hmem => heq ▸ admits_filterOf hmem, fun joinerId hmem => heq ▸ admits_filterOf hmem⟩
  · rintro ⟨hforth, hback⟩
    have hincluded : ∀ {ids ids' : List Bytes}, (∀ joinerId ∈ ids, Admits (filterOf ids') joinerId) →
        ∀ bit, bit < maxSteeringDataLen * 8 → bitAt (filterOf ids) bit = true → bitAt (filterOf ids') bit = true := by
      intro ids ids' hids bit hbit hset
      obtain ⟨joinerId, hmem, hjoiner⟩ := (bitAt_filterOf ids hbit).mp hset
      exact hids joinerId hmem bit (by rwa [length_filterOf])
    refine eq_of_bitAt_eq (by rw [length_filterOf, length_filterOf]) fun bit hbit => ?_
    rw [length_filterOf] at hbit
    exact Bool.eq_iff_iff.mpr ⟨hincluded hforth bit hbit, hincluded hback bit hbit⟩

end Filters

end ThreadCommissioner.Admission
