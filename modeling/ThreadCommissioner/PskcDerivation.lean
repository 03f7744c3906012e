import ThreadCommissioner.BlockStreams
import ThreadCommissioner.Computations
import ThreadCommissioner.Errors

namespace ThreadCommissioner.PskcDerivation

open BlockStreams ByteStrings Computations Errors List Texts

section Model

def zeroBlock : ByteVector 16 := List.Vector.replicate 16 0

def xorBlock (t u : ByteVector 16) : ByteVector 16 := List.Vector.map₂ (· ^^^ ·) t u

/-- `out[offset..offset + len].copy_from_slice(bytes)`. -/
def copyInto (out : Bytes) (offset : ℕ) (bytes : Bytes) : Bytes :=
  out.take offset ++ bytes ++ out.drop (offset + bytes.length)

theorem length_copyInto {out bytes : Bytes} {offset : ℕ} (h : offset + bytes.length ≤ out.length) :
    (copyInto out offset bytes).length = out.length := by
  simp only [copyInto, length_append, length_take, length_drop]
  omega

/-- AES-CMAC under a key of 16 bytes, from the crates `aes` and `cmac`. -/
class AesCmac where
  mac : ByteVector 16 → Bytes → ByteVector 16

variable [AesCmac]

/-- The key always has the length that the cipher takes, so the error branch of
the source cannot be reached and is not represented. -/
def aesCmacPrf128 (key message : Bytes) : ByteVector 16 :=
  if h : key.length = 16 then AesCmac.mac ⟨key, h⟩ message else AesCmac.mac (AesCmac.mac zeroBlock key) message

/-- One round of the loop over the iterations, with its variables `u` and `t`. -/
def iteration (password : Bytes) (s : ByteVector 16 × ByteVector 16) : ByteVector 16 × ByteVector 16 :=
  let u := aesCmacPrf128 password s.1.toList
  (u, xorBlock s.2 u)

def derivedBlock (password salt : Bytes) (iterations blockCounter : UInt32) : ByteVector 16 :=
  let input := salt ++ beBytes 4 blockCounter.toNat
  let u := aesCmacPrf128 password input
  ((iteration password)^[iterations.toNat - 1] (u, u)).2

variable (password salt : Bytes)

theorem length_take_derivedBlock (iterations blockCounter : UInt32) (room : ℕ) :
    ((derivedBlock password salt iterations blockCounter).toList.take (min room 16)).length = min room 16 := by
  rw [length_take, List.Vector.toList_length]
  omega

def fillBlocks (password salt : Bytes) (iterations : UInt32) (out : Bytes) (offset : ℕ) (blockCounter : UInt32) :
    Except Error Unit × Bytes :=
  if offset < out.length then
    let len := min (out.length - offset) 16
    let filled := copyInto out offset ((derivedBlock password salt iterations blockCounter).toList.take len)
    if blockCounter.toNat + 1 < 2 ^ 32 then fillBlocks password salt iterations filled (offset + len) (blockCounter + 1)
    else (.error (.crypto "PBKDF2 block counter overflow"), filled)
  else (.ok (), out)
termination_by out.length - offset
decreasing_by
  have hlength := length_take_derivedBlock password salt iterations blockCounter (out.length - offset)
  rw [length_copyInto (by rw [hlength]; omega)]
  omega

def pbkdf2AesCmacPrf128 (password salt : Bytes) (iterations : UInt32) (out : Bytes) : Except Error Unit × Bytes :=
  if iterations = 0 then (.error (.crypto "PBKDF2 iteration count must be nonzero"), out)
  else fillBlocks password salt iterations out 0 1

theorem length_fillBlocks (iterations : UInt32) (out : Bytes) (offset : ℕ) (blockCounter : UInt32) :
    (fillBlocks password salt iterations out offset blockCounter).2.length = out.length := by
  fun_induction fillBlocks password salt iterations out offset blockCounter with
  | case1 out offset blockCounter hlt len filled hcounter ih =>
    have hlen := length_take_derivedBlock password salt iterations blockCounter (out.length - offset)
    rw [ih]
    exact length_copyInto (by rw [hlen]; omega)
  | case2 out offset blockCounter hlt len filled hcounter =>
    have hlen := length_take_derivedBlock password salt iterations blockCounter (out.length - offset)
    exact length_copyInto (by rw [hlen]; omega)
  | case3 out offset blockCounter hge => rfl

theorem length_pbkdf2 (iterations : UInt32) (out : Bytes) :
    (pbkdf2AesCmacPrf128 password salt iterations out).2.length = out.length := by
  rw [pbkdf2AesCmacPrf128]
  split
  · rfl
  · exact length_fillBlocks password salt iterations out 0 1

def minCommissionerCredentialLen : ℕ := 6

def maxCommissionerCredentialLen : ℕ := 255

def maxNetworkNameLen : ℕ := 16

def pskcIterations : UInt32 := 16384

def pskcSalt (networkName : Text) (extendedPanId : ByteVector 8) : Bytes :=
  ascii "Thread" ++ extendedPanId.toList ++ networkName.bytes

theorem length_filled (passphrase salt : Bytes) :
    (pbkdf2AesCmacPrf128 passphrase salt pskcIterations (List.replicate 16 0)).2.length = 16 :=
  (length_pbkdf2 _ _ _ _).trans length_replicate

def generatePskc (passphrase networkName : Text) (extendedPanId : ByteVector 8) : Except Error (ByteVector 16) := do
  ensure (minCommissionerCredentialLen ≤ passphrase.bytes.length ∧ passphrase.bytes.length ≤ maxCommissionerCredentialLen)
    (Error.dataset s!"passphrase length must be in [{minCommissionerCredentialLen}, {maxCommissionerCredentialLen}]")
  ensure (networkName.bytes.length ≤ maxNetworkNameLen)
    (Error.dataset s!"network name is longer than {maxNetworkNameLen} bytes")
  let salt := pskcSalt networkName extendedPanId
  (pbkdf2AesCmacPrf128 passphrase.bytes salt pskcIterations (List.replicate 16 0)).1
  let out : ByteVector 16 :=
    ⟨(pbkdf2AesCmacPrf128 passphrase.bytes salt pskcIterations (List.replicate 16 0)).2, length_filled _ _⟩
  return out

end Model

section Specification

theorem zero_xorBlock (u : ByteVector 16) : xorBlock zeroBlock u = u := by
  refine List.Vector.ext fun k => ?_
  rw [xorBlock, List.Vector.get_map₂, zeroBlock, List.Vector.get_replicate, UInt8.zero_xor]

theorem copyInto_append (front rest bytes : Bytes) :
    copyInto (front ++ rest) front.length bytes = front ++ bytes ++ rest.drop bytes.length := by
  rw [copyInto, take_left, ← drop_drop, drop_left]

variable [AesCmac] (password salt : Bytes)

/-- `U(j + 1)` of the block with number `i`. -/
def prfChain (i : ℕ) : ℕ → ByteVector 16
  | 0 => aesCmacPrf128 password (salt ++ beBytes 4 i)
  | j + 1 => aesCmacPrf128 password (prfChain i j).toList

/-- The exclusive or of `U(1)` to `U(count)`. -/
def xorChain (i count : ℕ) : ByteVector 16 := ((List.range count).map (prfChain password salt i)).foldl xorBlock zeroBlock

/-- The block `T(i + 1)` of the stream. -/
def streamBlock (count i : ℕ) : Bytes := (xorChain password salt (i + 1) count).toList

theorem xorChain_one (i : ℕ) : xorChain password salt i 1 = prfChain password salt i 0 := zero_xorBlock _

theorem xorChain_succ (i count : ℕ) :
    xorChain password salt i (count + 1) = xorBlock (xorChain password salt i count) (prfChain password salt i count) := by
  rw [xorChain, range_succ, map_append, foldl_append]
  rfl

/-- After some rounds `u` is the last of the chain and `t` the exclusive or. -/
theorem iterate_iteration (i rounds : ℕ) :
    (iteration password)^[rounds] (prfChain password salt i 0, prfChain password salt i 0) =
      (prfChain password salt i rounds, xorChain password salt i (rounds + 1)) := by
  induction rounds with
  | zero =>
    rw [xorChain_one]
    rfl
  | succ rounds ih =>
    rw [Function.iterate_succ_apply', ih, xorChain_succ password salt i (rounds + 1)]
    rfl

variable {iterations blockCounter : UInt32} {i : ℕ}

theorem derivedBlock_eq (h : iterations ≠ 0) (hi : blockCounter.toNat = i + 1) :
    (derivedBlock password salt iterations blockCounter).toList = streamBlock password salt iterations.toNat i := by
  have hpos : iterations.toNat ≠ 0 := fun hzero => h (UInt32.toNat_inj.mp hzero)
  have hrounds : iterations.toNat - 1 + 1 = iterations.toNat := Nat.succ_pred hpos
  have hiterate := iterate_iteration password salt (i + 1) (iterations.toNat - 1)
  rw [derivedBlock, hi]
  change ((iteration password)^[iterations.toNat - 1] (prfChain password salt (i + 1) 0, prfChain password salt (i + 1) 0)).2.toList = _
  rw [hiterate, hrounds]
  rfl

theorem length_streamBlock (count i : ℕ) : (streamBlock password salt count i).length = 16 := List.Vector.toList_length _

theorem fillBlocks_of_le {out : Bytes} {offset : ℕ} (h : out.length ≤ offset) :
    fillBlocks password salt iterations out offset blockCounter = (.ok (), out) := by
  rw [fillBlocks, if_neg (Nat.not_lt.mpr h)]

theorem fillBlocks_step (h : iterations ≠ 0) (hi : blockCounter.toNat = i + 1) (hcounter : i + 2 < 2 ^ 32)
    {rest : Bytes} (hrest : rest ≠ []) :
    fillBlocks password salt iterations (blocks (streamBlock password salt iterations.toNat) i ++ rest) (16 * i) blockCounter =
      fillBlocks password salt iterations (blocks (streamBlock password salt iterations.toNat) i ++
        (streamBlock password salt iterations.toNat i).take (min rest.length 16) ++ rest.drop (min rest.length 16))
        (16 * i + min rest.length 16) (blockCounter + 1) := by
  have hlen := length_blocks (length_streamBlock password salt iterations.toNat) i
  have hpos : 0 < rest.length := length_pos_iff.mpr hrest
  have hroom : (blocks (streamBlock password salt iterations.toNat) i ++ rest).length - 16 * i = rest.length := by
    rw [length_append, hlen]
    omega
  have hpart := length_take_derivedBlock password salt iterations blockCounter rest.length
  rw [fillBlocks, if_pos (by rw [length_append, hlen]; omega), hroom]
  dsimp only
  rw [if_pos (by omega), derivedBlock_eq password salt h hi, ← hlen, copyInto_append]
  rw [derivedBlock_eq password salt h hi] at hpart
  rw [hpart]

/-- The loop fills the rest of the buffer with the stream; by induction on how
much of it is left. -/
theorem fillBlocks_eq (h : iterations ≠ 0) {count : ℕ} (hi : blockCounter.toNat = i + 1) {rest : Bytes}
    (hlimit : 16 * i + rest.length ≤ 16 * (2 ^ 32 - 2)) (hcount : 16 * i + rest.length ≤ 16 * count) :
    fillBlocks password salt iterations (blocks (streamBlock password salt iterations.toNat) i ++ rest) (16 * i) blockCounter =
      (.ok (), (blocks (streamBlock password salt iterations.toNat) count).take (16 * i + rest.length)) := by
  have hsize := length_streamBlock password salt iterations.toNat
  induction hleft : rest.length using Nat.strong_induction_on generalizing i blockCounter rest with
  | _ left ih =>
    subst hleft
    have hfilled := length_blocks hsize i
    by_cases hempty : rest = []
    · subst hempty
      have hall : (blocks (streamBlock password salt iterations.toNat) i).take (16 * i) =
          blocks (streamBlock password salt iterations.toNat) i := take_of_length_le hfilled.le
      rw [append_nil, length_nil, Nat.add_zero] at *
      rw [fillBlocks_of_le password salt hfilled.le, ← hall]
      exact congrArg _ (take_blocks hsize hcount le_rfl)
    · have hpos : 0 < rest.length := length_pos_iff.mpr hempty
      rw [fillBlocks_step password salt h hi (by omega) hempty]
      by_cases hwhole : 16 ≤ rest.length
      · -- a whole block fits
        have hblock : (streamBlock password salt iterations.toNat i).take 16 = streamBlock password salt iterations.toNat i :=
          take_of_length_le (hsize i).le
        have hnext : (blockCounter + 1).toNat = i + 1 + 1 := by
          rw [UInt32.toNat_add, hi]
          exact Nat.mod_eq_of_lt (by simp only [UInt32.reduceToNat]; omega)
        have hdrop : (rest.drop 16).length = rest.length - 16 := length_drop
        have hsum : 16 * (i + 1) + (rest.length - 16) = 16 * i + rest.length := by omega
        have hrun := ih (rest.length - 16) (by omega) hnext (by rw [hdrop]; omega) (by rw [hdrop]; omega) hdrop
        rw [hsum] at hrun
        rw [Nat.min_eq_right hwhole, hblock, ← blocks_succ]
        exact hrun
      · -- the last block is cut
        have hmin : min rest.length 16 = rest.length := by omega
        have hpart : ((streamBlock password salt iterations.toNat i).take rest.length).length = rest.length := by
          rw [length_take, hsize]
          omega
        rw [hmin, drop_length, append_nil, fillBlocks_of_le password salt (by rw [length_append, hfilled, hpart])]
        have hcut := take_blocks hsize (show 16 * i + rest.length ≤ 16 * (i + 1) by omega) hcount
        rw [hcut, blocks_succ, ← hfilled, take_length_add_append]

theorem pbkdf2_eq (h : iterations ≠ 0) {out : Bytes} {count : ℕ} (hlimit : out.length ≤ 16 * (2 ^ 32 - 2))
    (hcount : out.length ≤ 16 * count) : pbkdf2AesCmacPrf128 password salt iterations out =
      (.ok (), (blocks (streamBlock password salt iterations.toNat) count).take out.length) := by
  have hfill : fillBlocks password salt iterations (blocks _ 0 ++ out) (16 * 0) 1 =
      (.ok (), (blocks (streamBlock password salt iterations.toNat) count).take (16 * 0 + out.length)) :=
    fillBlocks_eq password salt h rfl (by omega) (by omega)
  rw [Nat.mul_zero, Nat.zero_add, blocks_zero, nil_append] at hfill
  rw [pbkdf2AesCmacPrf128, if_neg h, hfill]

/-- The buffer is filled with the stream of the specification, and it is not
touched without iterations. -/
theorem pbkdf2_fills_with_the_stream (out : Bytes) :
    (∀ (iterations : UInt32) (count : ℕ), 1 ≤ iterations → out.length ≤ 16 * (2 ^ 32 - 2) → out.length ≤ 16 * count →
      pbkdf2AesCmacPrf128 password salt iterations out =
        (.ok (), (blocks (streamBlock password salt iterations.toNat) count).take out.length)) ∧
      pbkdf2AesCmacPrf128 password salt 0 out = (.error (.crypto "PBKDF2 iteration count must be nonzero"), out) := by
  refine ⟨fun iterations count hone hlimit hcount => ?_, rfl⟩
  have hne : iterations ≠ 0 := by
    rintro rfl
    exact absurd hone (by decide)
  exact pbkdf2_eq password salt hne hlimit hcount

theorem pbkdf2_pskc : pbkdf2AesCmacPrf128 password salt pskcIterations (List.replicate 16 0) =
      (.ok (), (xorChain password salt 1 16384).toList) := by
  have hsize := length_streamBlock password salt 16384 0
  have hfilled := pbkdf2_eq password salt (show pskcIterations ≠ 0 by decide)
    (show (List.replicate 16 (0 : UInt8)).length ≤ 16 * (2 ^ 32 - 2) by decide)
    (show (List.replicate 16 (0 : UInt8)).length ≤ 16 * 1 by decide)
  rw [hfilled, blocks_succ, blocks_zero, nil_append, length_replicate]
  exact congrArg _ (take_of_length_le hsize.le)

theorem generatePskc_of_filled {passphrase networkName : Text} {extendedPanId : ByteVector 8} {pskc block : ByteVector 16}
    (hpskc : pbkdf2AesCmacPrf128 passphrase.bytes (pskcSalt networkName extendedPanId) pskcIterations
      (List.replicate 16 0) = (.ok (), block.toList)) : generatePskc passphrase networkName extendedPanId = .ok pskc ↔
      (6 ≤ passphrase.bytes.length ∧ passphrase.bytes.length ≤ 255) ∧ networkName.bytes.length ≤ 16 ∧ pskc = block := by
  simp only [generatePskc, bind_ok, ensure_eq_ok, exists_const, hpskc, true_and]
  constructor
  · rintro ⟨hpassphrase, hname, hout⟩
    cases hout
    exact ⟨hpassphrase, hname, rfl⟩
  · rintro ⟨hpassphrase, hname, rfl⟩
    exact ⟨hpassphrase, hname, rfl⟩

theorem generatePskc_eq_ok {passphrase networkName : Text} {extendedPanId : ByteVector 8} {pskc : ByteVector 16} :
    generatePskc passphrase networkName extendedPanId = .ok pskc ↔
      (6 ≤ passphrase.bytes.length ∧ passphrase.bytes.length ≤ 255) ∧ networkName.bytes.length ≤ 16 ∧
        pskc = xorChain passphrase.bytes (pskcSalt networkName extendedPanId) 1 16384 :=
  generatePskc_of_filled (pbkdf2_pskc passphrase.bytes (pskcSalt networkName extendedPanId))

end Specification

section Witness

@[reducible] def sumCmac : AesCmac := ⟨fun key message => List.Vector.replicate 16 ((key.toList ++ message).foldl (· + ·) 0)⟩

attribute [local instance] sumCmac

/-- The last of two blocks is cut. -/
theorem pbkdf2_fills_with_the_stream_cut :
    pbkdf2AesCmacPrf128 [1] [2] 3 (List.replicate 20 0) = (.ok (), (blocks (streamBlock [1] [2] 3) 2).take 20) :=
  (pbkdf2_fills_with_the_stream [1] [2] (List.replicate 20 0)).1 3 2 (by decide) (by decide) (by decide)

end Witness

end ThreadCommissioner.PskcDerivation
