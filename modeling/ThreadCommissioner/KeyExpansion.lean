import ThreadCommissioner.BlockStreams
import ThreadCommissioner.KeySchedule
import ThreadCommissioner.Residues

namespace ThreadCommissioner.KeyExpansion

open BlockStreams ByteStrings KeySchedule List Primitives Residues

section Expansion

variable [Suite]

/-- `A(i)`, from the label and the seed. -/
def chain (secret labelSeed : Bytes) : ℕ → Bytes
  | 0 => labelSeed
  | i + 1 => (hmacSha256 secret (chain secret labelSeed i)).toList

/-- `HMAC(secret, A(i + 1) || label || seed)`. -/
def expansionBlock (secret labelSeed : Bytes) (i : ℕ) : Bytes :=
  (hmacSha256 secret (chain secret labelSeed (i + 1) ++ labelSeed)).toList

theorem length_expansionBlock (secret labelSeed : Bytes) (i : ℕ) : (expansionBlock secret labelSeed i).length = 32 :=
  List.Vector.toList_length _

/-- From the `n`-th round on the loop goes on with the stream; by induction on
the bytes that are missing. -/
theorem prfLoop_blocks (secret labelSeed : Bytes) {outLen count : ℕ} (h : outLen ≤ 32 * count) (n : ℕ) :
    prfLoop secret labelSeed outLen (blocks (expansionBlock secret labelSeed) n)
        (hmacSha256 secret (chain secret labelSeed n)) = (blocks (expansionBlock secret labelSeed) count).take outLen := by
  have hsize := length_expansionBlock secret labelSeed
  induction hmissing : outLen - 32 * n using Nat.strong_induction_on generalizing n with
  | _ missing ih =>
    rw [prfLoop, length_blocks hsize]
    split
    · next hlt =>
      have hnext : blocks (expansionBlock secret labelSeed) n ++
          (hmacSha256 secret ((hmacSha256 secret (chain secret labelSeed n)).toList ++ labelSeed)).toList =
            blocks (expansionBlock secret labelSeed) (n + 1) := (blocks_succ n).symm
      rw [hnext]
      exact ih (outLen - 32 * (n + 1)) (by omega) (n + 1) rfl
    · next hge => exact take_blocks hsize h (Nat.le_of_not_lt hge)

theorem tls12Prf_eq_take (secret label seed : Bytes) {outLen count : ℕ} (h : outLen ≤ 32 * count) :
    (tls12Prf secret label seed outLen).toList = (blocks (expansionBlock secret (label ++ seed)) count).take outLen :=
  prfLoop_blocks secret (label ++ seed) h 0

theorem tls12Prf_isPrefix (secret label seed : Bytes) {m n : ℕ} (h : m ≤ n) :
    (tls12Prf secret label seed m).toList <+: (tls12Prf secret label seed n).toList := by
  have hm : m ≤ 32 * n := by omega
  have hn : n ≤ 32 * n := by omega
  rw [tls12Prf_eq_take secret label seed hm, tls12Prf_eq_take secret label seed hn]
  exact take_prefix_take_left h

/-- The keys and the fixed parts of the nonces in the order in which they are derived. -/
def Tls12Aes128Ccm8KeyBlock.bytes (keyBlock : Tls12Aes128Ccm8KeyBlock) : Bytes :=
  keyBlock.clientWriteKey.toList ++ keyBlock.serverWriteKey.toList ++ keyBlock.clientWriteIv.toList ++
    keyBlock.serverWriteIv.toList

theorem bytes_deriveAes128Ccm8KeyBlock (masterSecret : ByteVector 48) (clientRandom serverRandom : ByteVector 32) :
    Tls12Aes128Ccm8KeyBlock.bytes (deriveAes128Ccm8KeyBlock masterSecret clientRandom serverRandom) =
      (keyExpansion masterSecret clientRandom serverRandom).toList := by
  generalize hbytes : keyExpansion masterSecret clientRandom serverRandom = bytes
  have hend : bytes.toList.drop 40 = [] := drop_eq_nil_of_le bytes.toList_length.le
  have hcut : ∀ start len : ℕ, (bytes.toList.drop start).take len ++ bytes.toList.drop (start + len) =
      bytes.toList.drop start := fun start len => fieldAt_append start len bytes.toList
  rw [deriveAes128Ccm8KeyBlock, hbytes]
  change (bytes.toList.drop 0).take 16 ++ (bytes.toList.drop 16).take 16 ++ (bytes.toList.drop 32).take 4 ++
    (bytes.toList.drop 36).take 4 = bytes.toList
  have hiv : (bytes.toList.drop 36).take 4 = bytes.toList.drop 36 := by
    have h := hcut 36 4
    rwa [hend, append_nil] at h
  rw [hiv, append_assoc, append_assoc, hcut 32 4, hcut 16 16, hcut 0 16]
  rfl

/-- The expansion is the stream of the specification, cut off, and the KEK is
derived from the key block of the same session. -/
theorem prf_is_the_hmac_stream :
    (∀ (secret label seed : Bytes) (outLen count : ℕ), outLen ≤ 32 * count →
      (tls12Prf secret label seed outLen).toList =
        (blocks (expansionBlock secret (label ++ seed)) count).take outLen) ∧
      (∀ (secret label seed : Bytes) (m n : ℕ), m ≤ n →
        (tls12Prf secret label seed m).toList <+: (tls12Prf secret label seed n).toList) ∧
      ∀ (masterSecret : ByteVector 48) (clientRandom serverRandom : ByteVector 32),
        (deriveJoinerRouterKek masterSecret clientRandom serverRandom).toList =
          (sha256 (Tls12Aes128Ccm8KeyBlock.bytes
            (deriveAes128Ccm8KeyBlock masterSecret clientRandom serverRandom))).toList.take 16 := by
  refine ⟨fun secret label seed outLen count h => tls12Prf_eq_take secret label seed h,
    fun secret label seed m n h => tls12Prf_isPrefix secret label seed h, fun masterSecret clientRandom serverRandom => ?_⟩
  rw [bytes_deriveAes128Ccm8KeyBlock]
  rfl

end Expansion

section Witness

attribute [local instance] residues

/-- The residues stand for HMAC by a function that keeps the front of its input. -/
theorem prf_is_the_hmac_stream_residues :
    (tls12Prf [] [1] [2] 40).toList = (blocks (expansionBlock [] [1, 2]) 2).take 40 ∧
      (tls12Prf [] [1] [2] 12).toList <+: (tls12Prf [] [1] [2] 40).toList := by
  obtain ⟨hstream, hshorter, -⟩ := prf_is_the_hmac_stream
  exact ⟨hstream [] [1] [2] 40 2 (by decide), hshorter [] [1] [2] 12 40 (by decide)⟩

end Witness

end ThreadCommissioner.KeyExpansion
