import ThreadCommissioner.KeySchedule
import ThreadCommissioner.RecordProtection
import ThreadCommissioner.ReplayWindow

namespace ThreadCommissioner.Sessions

open ByteStrings Computations Errors KeySchedule Primitives RecordProtection Records ReplayWindow

inductive SessionRole
  | client
  | server
  deriving DecidableEq, Repr

def SessionRole.peer : SessionRole → SessionRole
  | .client => .server
  | .server => .client

/-- The key and the fixed nonce part under which a side protects its records. -/
def writeKeys (keyBlock : Tls12Aes128Ccm8KeyBlock) : SessionRole → ByteVector 16 × ByteVector 4
  | .client => (keyBlock.clientWriteKey, keyBlock.clientWriteIv)
  | .server => (keyBlock.serverWriteKey, keyBlock.serverWriteIv)

structure SessionState where
  keyMaterial : ThreadDtlsKeyMaterial
  role : SessionRole
  nextApplicationSequence : UInt64
  applicationReplay : DtlsReplayWindow

def SessionState.new (keyMaterial : ThreadDtlsKeyMaterial) (role : SessionRole) : SessionState where
  keyMaterial
  role
  nextApplicationSequence := 1
  applicationReplay := .new

abbrev SessionM (α : Type) := EStateM DtlsError SessionState α

theorem toNat_next {seq : UInt64} (h : seq.toNat < 2 ^ 48) : (seq + 1).toNat = seq.toNat + 1 := by
  rw [UInt64.toNat_add]
  exact Nat.mod_eq_of_lt (Nat.lt_of_le_of_lt h (by decide))

variable [Suite]

def sealRecord (keyBlock : Tls12Aes128Ccm8KeyBlock) (sender : SessionRole) (sequence : UInt64)
    (plaintext : Bytes) : Except DtlsError DtlsRecord :=
  protectAes128Ccm8Record .applicationData 1 sequence (writeKeys keyBlock sender).1 (writeKeys keyBlock sender).2
    plaintext

def unsealRecord (keyBlock : Tls12Aes128Ccm8KeyBlock) (sender : SessionRole) (record : DtlsRecord) :
    Except DtlsError Bytes :=
  openAes128Ccm8Record record (writeKeys keyBlock sender).1 (writeKeys keyBlock sender).2

def protectApplicationData (plaintext : Bytes) : SessionM DtlsRecord := do
  let s ← get
  let record ← sealRecord s.keyMaterial.keyBlock s.role s.nextApplicationSequence plaintext
  modify fun s => { s with nextApplicationSequence := s.nextApplicationSequence + 1 }
  return record

def openApplicationData (record : DtlsRecord) : SessionM (Option Bytes) := do
  let s ← get
  if s.applicationReplay.hasSeen record.header.sequenceNumber then return none
  else
    let plaintext ← unsealRecord s.keyMaterial.keyBlock s.role.peer record
    modify fun s => { s with applicationReplay := s.applicationReplay.markSeen record.header.sequenceNumber }
    return some plaintext

theorem sequenceNumber_of_sealRecord {keyBlock : Tls12Aes128Ccm8KeyBlock} {sender : SessionRole}
    {seq : UInt64} {plain : Bytes} {r : DtlsRecord} (h : sealRecord keyBlock sender seq plain = .ok r) :
    r.header.sequenceNumber = seq ∧ seq.toNat < 2 ^ 48 := by
  obtain ⟨hs, -, cipher, -, rfl⟩ := protect_eq_ok.mp h
  exact ⟨rfl, hs⟩

section Specification

variable {s t : SessionState} {plain : Bytes} {r : DtlsRecord} {e : DtlsError}

theorem protectApplicationData_eq_ok : (protectApplicationData plain).run s = .ok r t ↔
      sealRecord s.keyMaterial.keyBlock s.role s.nextApplicationSequence plain = .ok r ∧
      t = { s with nextApplicationSequence := s.nextApplicationSequence + 1 } := by
  simp only [protectApplicationData, get_bind, lift_bind_ok, modify_bind, run_pure, EStateM.Result.ok.injEq]
  constructor
  · rintro ⟨_, hr, rfl, rfl⟩
    exact ⟨hr, rfl⟩
  · rintro ⟨hr, rfl⟩
    exact ⟨r, hr, rfl, rfl⟩

theorem protectApplicationData_eq_error : (protectApplicationData plain).run s = .error e t ↔
      sealRecord s.keyMaterial.keyBlock s.role s.nextApplicationSequence plain = .error e ∧ t = s := by
  simp only [protectApplicationData, get_bind, lift_bind_eq_error, modify_bind, run_pure, reduceCtorEq,
    and_false, exists_false, or_false]

theorem openApplicationData_eq_some : (openApplicationData r).run s = .ok (some plain) t ↔
      s.applicationReplay.hasSeen r.header.sequenceNumber = false ∧
      unsealRecord s.keyMaterial.keyBlock s.role.peer r = .ok plain ∧
      t = { s with applicationReplay := s.applicationReplay.markSeen r.header.sequenceNumber } := by
  rw [openApplicationData, get_bind]
  split
  · next h => simp [h]
  · next h =>
    simp only [lift_bind_ok, modify_bind, run_pure, EStateM.Result.ok.injEq, Option.some.injEq]
    constructor
    · rintro ⟨_, hu, rfl, rfl⟩
      exact ⟨by simpa using h, hu, rfl⟩
    · rintro ⟨-, hu, rfl⟩
      exact ⟨plain, hu, rfl, rfl⟩

theorem openApplicationData_eq_none : (openApplicationData r).run s = .ok none t ↔
      s.applicationReplay.hasSeen r.header.sequenceNumber = true ∧ t = s := by
  rw [openApplicationData, get_bind]
  split
  · next h => simp [h, eq_comm]
  · next h =>
    simp only [lift_bind_ok, modify_bind, run_pure, EStateM.Result.ok.injEq, reduceCtorEq, false_and,
      and_false, exists_const, h]

theorem openApplicationData_eq_error (h : (openApplicationData r).run s = .error e t) : t = s := by
  rw [openApplicationData, get_bind] at h
  split at h
  · cases h
  · rcases lift_bind_eq_error.mp h with ⟨-, h⟩ | ⟨plain, -, h⟩
    · exact h
    · rw [modify_bind] at h
      cases h

end Specification

end ThreadCommissioner.Sessions
