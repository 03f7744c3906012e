import ThreadCommissioner.HandshakeMessages
import ThreadCommissioner.Primitives

namespace ThreadCommissioner.KeySchedule

open ByteStrings Computations Errors HandshakeMessages Primitives

structure HandshakeTranscript where
  bytes : Bytes
  deriving DecidableEq

def HandshakeTranscript.new : HandshakeTranscript := ⟨[]⟩

def HandshakeTranscript.push (t : HandshakeTranscript) (m : HandshakeMessage) :
    Except DtlsError HandshakeTranscript := do
  return ⟨t.bytes ++ (← m.transcriptBytes)⟩

theorem HandshakeTranscript.push_eq_ok {t t' : HandshakeTranscript} {m : HandshakeMessage} :
    t.push m = .ok t' ↔ m.Fits ∧ t' = ⟨t.bytes ++ m.bytes⟩ := by
  constructor
  · intro h
    obtain ⟨bs, hb, h⟩ := bind_ok.mp h
    obtain ⟨hm, rfl⟩ := HandshakeMessage.transcriptBytes_eq_ok.mp hb
    exact ⟨hm, (Except.ok.inj h).symm⟩
  · rintro ⟨hm, rfl⟩
    rw [HandshakeTranscript.push, HandshakeMessage.transcriptBytes_eq_ok.mpr ⟨hm, rfl⟩]
    rfl

theorem finished_fits (mseq : UInt16) (verifyData : ByteVector 12) :
    (HandshakeMessage.mk .finished mseq verifyData.toList).Fits := by
  rw [HandshakeMessage.Fits, List.Vector.toList_length]
  decide

variable [Suite]

structure Tls12Aes128Ccm8KeyBlock where
  clientWriteKey : ByteVector 16
  serverWriteKey : ByteVector 16
  clientWriteIv : ByteVector 4
  serverWriteIv : ByteVector 4
  deriving DecidableEq

structure ThreadDtlsKeyMaterial where
  masterSecret : ByteVector 48
  keyBlock : Tls12Aes128Ccm8KeyBlock
  deriving DecidableEq

/-- The expansion loop of P_SHA-256. HMAC takes keys of every length, so the
error branches of the source cannot be reached and are not represented. -/
def prfLoop (secret labelSeed : Bytes) (outLen : ℕ) (out : Bytes) (a : ByteVector 32) : Bytes :=
  if out.length < outLen then
    prfLoop secret labelSeed outLen (out ++ (hmacSha256 secret (a.toList ++ labelSeed)).toList)
      (hmacSha256 secret a.toList)
  else out.take outLen
termination_by outLen - out.length
decreasing_by simp only [List.length_append, List.Vector.toList_length]; omega

theorem length_prfLoop (secret labelSeed : Bytes) (outLen : ℕ) (out : Bytes) (a : ByteVector 32) :
    (prfLoop secret labelSeed outLen out a).length = outLen := by
  fun_induction prfLoop secret labelSeed outLen out a with
  | case1 out a h ih => exact ih
  | case2 out a h => rw [List.length_take]; omega

def tls12Prf (secret label seed : Bytes) (outLen : ℕ) : ByteVector outLen :=
  ⟨prfLoop secret (label ++ seed) outLen [] (hmacSha256 secret (label ++ seed)), length_prfLoop _ _ _ _ _⟩

def deriveMasterSecret (preMasterSecret : Bytes) (clientRandom serverRandom : ByteVector 32) : ByteVector 48 :=
  tls12Prf preMasterSecret (ascii "master secret") (clientRandom.toList ++ serverRandom.toList) 48

def keyExpansion (masterSecret : ByteVector 48) (clientRandom serverRandom : ByteVector 32) : ByteVector 40 :=
  tls12Prf masterSecret.toList (ascii "key expansion") (serverRandom.toList ++ clientRandom.toList) 40

def deriveAes128Ccm8KeyBlock (masterSecret : ByteVector 48) (clientRandom serverRandom : ByteVector 32) :
    Tls12Aes128Ccm8KeyBlock :=
  let bytes := keyExpansion masterSecret clientRandom serverRandom
  { clientWriteKey := slice bytes 0 16 (by omega)
    serverWriteKey := slice bytes 16 16 (by omega)
    clientWriteIv := slice bytes 32 4 (by omega)
    serverWriteIv := slice bytes 36 4 (by omega) }

/-- The two derivation steps that both ends run on their shared secret. -/
def keyMaterialOf (preMasterSecret clientRandom serverRandom : ByteVector 32) : ThreadDtlsKeyMaterial :=
  let masterSecret := deriveMasterSecret preMasterSecret.toList clientRandom serverRandom
  { masterSecret, keyBlock := deriveAes128Ccm8KeyBlock masterSecret clientRandom serverRandom }

def deriveJoinerRouterKek (masterSecret : ByteVector 48) (clientRandom serverRandom : ByteVector 32) :
    ByteVector 16 :=
  slice (sha256 (keyExpansion masterSecret clientRandom serverRandom).toList) 0 16 (by omega)

inductive FinishedRole
  | client
  | server
  deriving DecidableEq, Repr

def FinishedRole.label : FinishedRole → Bytes
  | .client => ascii "client finished"
  | .server => ascii "server finished"

def finishedVerifyData (masterSecret : ByteVector 48) (role : FinishedRole) (handshakeHash : ByteVector 32) :
    ByteVector 12 :=
  tls12Prf masterSecret.toList role.label handshakeHash.toList 12

def HandshakeTranscript.finishedVerifyData (t : HandshakeTranscript) (masterSecret : ByteVector 48)
    (role : FinishedRole) : ByteVector 12 :=
  KeySchedule.finishedVerifyData masterSecret role (sha256 t.bytes)

/-- The transcript of a list of messages that all fit their length field. -/
def HandshakeTranscript.ofMessages (ms : List HandshakeMessage) : HandshakeTranscript :=
  ⟨ms.flatMap HandshakeMessage.bytes⟩

end ThreadCommissioner.KeySchedule
