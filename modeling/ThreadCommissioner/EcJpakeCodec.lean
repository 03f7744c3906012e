import ThreadCommissioner.EcJpake
import ThreadCommissioner.Readers

namespace ThreadCommissioner.EcJpakeCodec

open ByteStrings Computations EcJpake Errors List Primitives Readers Residues Schnorr

section Codec

def validateTlsU8Len (len : ℕ) (name : String) : Except DtlsError Unit :=
  if 255 < len then .error (.crypto (name ++ " exceeds 255 bytes")) else .ok ()

def trimScalarBytes (bytes : ByteVector 32) : Bytes :=
  bytes.toList.drop (min (bytes.toList.findIdx (· ≠ 0)) 31)

theorem length_trimScalarBytes (bytes : ByteVector 32) :
    0 < (trimScalarBytes bytes).length ∧ (trimScalarBytes bytes).length ≤ 32 := by
  rw [trimScalarBytes, length_drop, bytes.toList_length]
  omega

theorem replicate_trimScalarBytes (bytes : ByteVector 32) :
    List.replicate (32 - (trimScalarBytes bytes).length) 0 ++ trimScalarBytes bytes = bytes.toList := by
  have hl := bytes.toList_length
  have hz : ∀ n ≤ bytes.toList.findIdx (· ≠ 0), n ≤ 32 → List.replicate n (0 : UInt8) = bytes.toList.take n := by
    intro n hn hn'
    refine (eq_replicate_iff.mpr ⟨by rw [length_take, hl]; omega, fun b hb => ?_⟩).symm
    obtain ⟨i, hi, rfl⟩ := mem_take_iff_getElem.mp hb
    have hlt : i < bytes.toList.findIdx (· ≠ 0) := by omega
    simpa using not_of_lt_findIdx hlt
  rw [trimScalarBytes, length_drop, hl]
  have h32 : 32 - (32 - min (bytes.toList.findIdx (· ≠ 0)) 31) = min (bytes.toList.findIdx (· ≠ 0)) 31 := by
    omega
  rw [h32, hz _ (Nat.min_le_left _ _) (by omega), take_append_drop]

theorem findIdx_replicate {b : UInt8} (hb : b ≠ 0) (zeros : ℕ) (tail : Bytes) :
    (List.replicate zeros 0 ++ b :: tail).findIdx (· ≠ 0) = zeros := by
  induction zeros with
  | zero => simp [findIdx_cons, hb]
  | succ zeros ih =>
    rw [replicate_succ, cons_append, findIdx_cons, ih]
    rfl

theorem trimScalarBytes_of_replicate {bytes : ByteVector 32} {zeros : ℕ} {b : UInt8} {tail : Bytes} (hb : b ≠ 0)
    (h : bytes.toList = List.replicate zeros 0 ++ b :: tail) : trimScalarBytes bytes = b :: tail := by
  have hlength : zeros + (tail.length + 1) = 32 := by
    rw [← bytes.toList_length, h]
    simp
  rw [trimScalarBytes, h, findIdx_replicate hb, Nat.min_eq_left (by omega)]
  simp

theorem trimScalarBytes_zero {bytes : ByteVector 32} (h : bytes.toList = List.replicate 32 0) :
    trimScalarBytes bytes = [0] := by
  rw [trimScalarBytes, h]
  rfl

def secp256r1CurveParams : Bytes := [0x03, 0x00, 0x17]

def ecjpakeTruncated : DtlsError := .crypto "ECJPAKE structure is truncated"

def ecjpakeTrailing : DtlsError := .crypto "trailing bytes after ECJPAKE structure"

def readOpaqueU8 (name : String) : Reader DtlsError Bytes := do
  let len ← readU8 ecjpakeTruncated
  if len.toNat = 0 then throw (.crypto (name ++ " is empty"))
  readExact ecjpakeTruncated len.toNat

def readSecp256r1CurveParams : Reader DtlsError Unit := do
  let curveType ← readU8 ecjpakeTruncated
  let namedCurve ← readU16 ecjpakeTruncated
  if curveType ≠ 0x03 ∨ namedCurve ≠ 0x0017 then
    throw (.crypto "ECJPAKE key exchange does not use secp256r1")

def opaqueU8 (bs : Bytes) : Bytes := UInt8.ofNat bs.length :: bs

theorem readOpaqueU8_append {bs : Bytes} (h0 : 0 < bs.length) (h1 : bs.length ≤ 255) (name : String) (rest : Bytes) :
    (readOpaqueU8 name).run (opaqueU8 bs ++ rest) = .ok bs rest := by
  have hn : (UInt8.ofNat bs.length).toNat = bs.length := by
    rw [UInt8.toNat_ofNat']; omega
  rw [readOpaqueU8, opaqueU8, cons_append, bind_of_ok (readU8_cons _ _ _), if_neg (by omega)]
  exact readExact_append hn.symm

theorem readSecp256r1CurveParams_append (rest : Bytes) :
    readSecp256r1CurveParams.run (secp256r1CurveParams ++ rest) = .ok () rest := by
  have h : (readU16 ecjpakeTruncated).run ([0x00, 0x17] ++ rest) = .ok 0x0017 rest :=
    readU16_append ecjpakeTruncated 0x0017 rest
  rw [readSecp256r1CurveParams, secp256r1CurveParams, cons_append, bind_of_ok (readU8_cons _ _ _),
    bind_of_ok h, if_neg (by decide)]
  rfl

variable [Suite]

def writeTlsPoint (point : Bytes) : Except DtlsError Bytes := do
  let parsed ← pointFromBytes point
  let canonical := pointToBytes parsed
  validateTlsU8Len canonical.length "EC point"
  return UInt8.ofNat canonical.length :: canonical

def encodeTls (proof : SchnorrProof) : Except DtlsError Bytes := do
  let v ← writeTlsPoint proof.v
  let r := trimScalarBytes proof.r
  validateTlsU8Len r.length "Schnorr scalar"
  if r.isEmpty then .error (.crypto "Schnorr scalar must not be empty")
  else return v ++ (UInt8.ofNat r.length :: r)

def writeKeyKp (point : Bytes) (proof : SchnorrProof) : Except DtlsError Bytes := do
  return (← writeTlsPoint point) ++ (← encodeTls proof)

def encodeTlsKkpp (message : RoundOne) : Except DtlsError Bytes := do
  return (← writeKeyKp message.g1 message.proof1) ++ (← writeKeyKp message.g2 message.proof2)

def encodeTlsKeyExchange (message : RoundTwo) (includeCurveParams : Bool) : Except DtlsError Bytes := do
  return (if includeCurveParams then secp256r1CurveParams else []) ++ (← writeKeyKp message.point message.proof)

def readTlsPoint : Reader DtlsError Bytes := do
  let point ← readOpaqueU8 "EC point"
  let parsed ← pointFromBytes point
  return pointToBytes parsed

def readProof (participantId : Bytes) : Reader DtlsError SchnorrProof := do
  let v ← readTlsPoint
  let rBytes ← readOpaqueU8 "Schnorr scalar"
  if rBytes.isEmpty then throw (.crypto "Schnorr scalar must not be empty")
  if h : 32 < rBytes.length then throw (.crypto "Schnorr scalar exceeds 32 bytes")
  else
    let r : ByteVector 32 := ⟨List.replicate (32 - rBytes.length) 0 ++ rBytes, by simp; omega⟩
    let _ ← scalarFromRepr r
    return { v, r, proverId := participantId }

def readKeyKp (participantId : Bytes) : Reader DtlsError (Bytes × SchnorrProof) := do
  let point ← readTlsPoint
  let proof ← readProof participantId
  return (point, proof)

def kkppReader (participantId : Bytes) : Reader DtlsError RoundOne := do
  let (g1, proof1) ← readKeyKp participantId
  let (g2, proof2) ← readKeyKp participantId
  finish ecjpakeTrailing
  return { g1, g2, proof1, proof2, participantId }

def decodeTlsKkpp (bytes participantId : Bytes) : Except DtlsError RoundOne := do
  let out ← (kkppReader participantId).read bytes
  let g1 ← pointFromBytes out.g1
  let g2 ← pointFromBytes out.g2
  out.proof1.verify generator g1 out.participantId []
  out.proof2.verify generator g2 out.participantId []
  return out

def keyExchangeReader (participantId : Bytes) (expectCurveParams : Bool) : Reader DtlsError RoundTwo := do
  if expectCurveParams then readSecp256r1CurveParams
  let (point, proof) ← readKeyKp participantId
  finish ecjpakeTrailing
  return { point, proof }

def decodeTlsKeyExchange (bytes participantId : Bytes) (expectCurveParams : Bool) :
    Except DtlsError RoundTwo :=
  (keyExchangeReader participantId expectCurveParams).read bytes

def IsPoint (bs : Bytes) : Prop := ∃ p : Point, p ≠ 0 ∧ bs = pointToBytes p

/-- Proofs as they are generated: a proper commitment and a reduced response. -/
def IsProof (proof : SchnorrProof) : Prop := IsPoint proof.v ∧ ∃ k : Scalar, proof.r = scalarBytes k

def keyKpBytes (point : Bytes) (proof : SchnorrProof) : Bytes :=
  opaqueU8 point ++ (opaqueU8 proof.v ++ opaqueU8 (trimScalarBytes proof.r))

variable {bs point pid : Bytes} {proof : SchnorrProof}

theorem IsPoint.length (h : IsPoint bs) : bs.length = 65 := by
  obtain ⟨p, hp, rfl⟩ := h
  exact Suite.length_toEncodedPoint p hp

theorem writeTlsPoint_of_isPoint (h : IsPoint bs) : writeTlsPoint bs = .ok (opaqueU8 bs) := by
  have hl := h.length
  obtain ⟨p, hp, rfl⟩ := h
  rw [writeTlsPoint, pointFromBytes_pointToBytes hp, ok_bind]
  dsimp only
  rw [validateTlsU8Len, if_neg (by omega), ok_bind]
  rfl

theorem encodeTls_of_isProof (h : IsProof proof) :
    encodeTls proof = .ok (opaqueU8 proof.v ++ opaqueU8 (trimScalarBytes proof.r)) := by
  obtain ⟨h0, h32⟩ := length_trimScalarBytes proof.r
  rw [encodeTls, writeTlsPoint_of_isPoint h.1, ok_bind]
  dsimp only
  rw [validateTlsU8Len, if_neg (by omega), ok_bind, if_neg (by simp [length_pos_iff.mp h0])]
  rfl

theorem writeKeyKp_of_honest (hp : IsPoint point) (hz : IsProof proof) :
    writeKeyKp point proof = .ok (keyKpBytes point proof) := by
  rw [writeKeyKp, writeTlsPoint_of_isPoint hp, ok_bind, encodeTls_of_isProof hz, ok_bind]
  rfl

theorem length_keyKpBytes_le (hp : IsPoint point) (hz : IsProof proof) : (keyKpBytes point proof).length ≤ 165 := by
  have h1 := hp.length
  have h2 := hz.1.length
  have h3 := (length_trimScalarBytes proof.r).2
  simp only [keyKpBytes, opaqueU8, length_append, length_cons]
  omega

theorem readTlsPoint_append (h : IsPoint bs) (rest : Bytes) : readTlsPoint.run (opaqueU8 bs ++ rest) = .ok bs rest := by
  have hl := h.length
  obtain ⟨p, hp, rfl⟩ := h
  rw [readTlsPoint, bind_of_ok (readOpaqueU8_append (by omega) (by omega) _ _),
    pointFromBytes_pointToBytes hp, bind_of_ok (run_lift_ok _ _)]
  rfl

theorem readProof_append (h : IsProof proof) (hid : proof.proverId = pid) (rest : Bytes) :
    (readProof pid).run (opaqueU8 proof.v ++ (opaqueU8 (trimScalarBytes proof.r) ++ rest)) = .ok proof rest := by
  subst hid
  obtain ⟨h0, h32⟩ := length_trimScalarBytes proof.r
  obtain ⟨hv, k, hk⟩ := h
  have hr : ∀ hlen, (⟨List.replicate (32 - (trimScalarBytes proof.r).length) 0 ++ trimScalarBytes proof.r,
      hlen⟩ : ByteVector 32) = proof.r := fun hlen =>
    List.Vector.eq _ _ (replicate_trimScalarBytes proof.r)
  rw [readProof, bind_of_ok (readTlsPoint_append hv _), bind_of_ok (readOpaqueU8_append h0 (by omega) _ _),
    if_neg (by simp [length_pos_iff.mp h0]), dif_neg (by omega)]
  dsimp only
  rw [hr, hk, scalarFromRepr_scalarBytes, bind_of_ok (run_lift_ok _ _), ← hk]
  rfl

theorem readKeyKp_append (hp : IsPoint point) (hz : IsProof proof) (hid : proof.proverId = pid)
    (rest : Bytes) : (readKeyKp pid).run (keyKpBytes point proof ++ rest) = .ok (point, proof) rest := by
  rw [readKeyKp, keyKpBytes, append_assoc, append_assoc,
    bind_of_ok (readTlsPoint_append hp _), bind_of_ok (readProof_append hz hid _)]
  rfl

theorem isProof_generate {base : Point} (hb : base ≠ 0) (x : Scalar) (publicPoint : Point)
    (proverId otherInfo : Bytes) (rng : Rng) : IsProof (SchnorrProof.generate base x publicPoint proverId otherInfo rng).1 :=
  ⟨⟨_, smul_ne_zero (randomScalar_ne_zero rng) hb, rfl⟩, _, rfl⟩

def kkppBytes (message : RoundOne) : Bytes :=
  keyKpBytes message.g1 message.proof1 ++ keyKpBytes message.g2 message.proof2

def keyExchangeBytes (message : RoundTwo) (includeCurveParams : Bool) : Bytes :=
  (if includeCurveParams then secp256r1CurveParams else []) ++ keyKpBytes message.point message.proof

theorem decodeTlsKeyExchange_bytes {message : RoundTwo} (hp : IsPoint message.point) (hz : IsProof message.proof)
    (hid : message.proof.proverId = pid) (curve : Bool) :
    decodeTlsKeyExchange (keyExchangeBytes message curve) pid curve = .ok message := by
  have h := readKeyKp_append hp hz hid []
  rw [append_nil] at h
  have hrun : (keyExchangeReader pid curve).run (keyExchangeBytes message curve) = .ok message [] := by
    cases curve with
    | false =>
      simp only [keyExchangeReader, keyExchangeBytes, Bool.false_eq_true, if_false, nil_append]
      rw [bind_of_ok h, bind_of_ok (finish_nil _)]
      rfl
    | true =>
      simp only [keyExchangeReader, keyExchangeBytes, if_true]
      rw [bind_of_ok (readSecp256r1CurveParams_append _), bind_of_ok h, bind_of_ok (finish_nil _)]
      rfl
  rw [decodeTlsKeyExchange, Reader.read, hrun]
  rfl

section Honest

variable {party : EcJpakeParty} {base : Point}

/-- The messages of a party are well formed and carry its own identity. -/
structure WellFormed (message : RoundOne) : Prop where
  g1 : IsPoint message.g1
  g2 : IsPoint message.g2
  proof1 : IsProof message.proof1
  proof2 : IsProof message.proof2
  prover1 : message.proof1.proverId = message.participantId
  prover2 : message.proof2.proverId = message.participantId

theorem roundOne_wellFormed (h1 : party.x1 ≠ 0) (h2 : party.x2 ≠ 0) (rng : Rng) : WellFormed (party.roundOne rng).1 where
  g1 := ⟨_, smul_generator_ne_zero h1, rfl⟩
  g2 := ⟨_, smul_generator_ne_zero h2, rfl⟩
  proof1 := isProof_generate generator_ne_zero _ _ _ _ _
  proof2 := isProof_generate generator_ne_zero _ _ _ _ _
  prover1 := rfl
  prover2 := rfl

theorem encodeTlsKeyExchange_secondRound (hb : base ≠ 0) (hx : party.x2 * party.secret ≠ 0) (rng : Rng) (curve : Bool) :
    encodeTlsKeyExchange (party.secondRound base rng).1 curve = .ok (keyExchangeBytes (party.secondRound base rng).1 curve) ∧
      (keyExchangeBytes (party.secondRound base rng).1 curve).length ≤ 168 := by
  have hp : IsPoint (party.secondRound base rng).1.point := ⟨_, smul_ne_zero hx hb, rfl⟩
  have hz : IsProof (party.secondRound base rng).1.proof := isProof_generate hb _ _ _ _ _
  refine ⟨?_, ?_⟩
  · rw [encodeTlsKeyExchange, writeKeyKp_of_honest hp hz, ok_bind]
    rfl
  · have hl := length_keyKpBytes_le hp hz
    rw [keyExchangeBytes, length_append]
    cases curve <;> simp [secp256r1CurveParams] <;> omega

theorem decodeTlsKeyExchange_secondRound (hb : base ≠ 0) (hx : party.x2 * party.secret ≠ 0) (rng : Rng) (curve : Bool) :
    decodeTlsKeyExchange (keyExchangeBytes (party.secondRound base rng).1 curve) party.participantId curve =
      .ok (party.secondRound base rng).1 :=
  decodeTlsKeyExchange_bytes ⟨_, smul_ne_zero hx hb, rfl⟩ (isProof_generate hb _ _ _ _ _) rfl curve

variable {message : RoundOne}

variable (h : WellFormed message)

include h

theorem encodeTlsKkpp_of_wellFormed :
    encodeTlsKkpp message = .ok (kkppBytes message) ∧ (kkppBytes message).length ≤ 330 := by
  refine ⟨?_, ?_⟩
  · rw [encodeTlsKkpp, writeKeyKp_of_honest h.g1 h.proof1, ok_bind, writeKeyKp_of_honest h.g2 h.proof2, ok_bind]
    rfl
  · have hl1 := length_keyKpBytes_le h.g1 h.proof1
    have hl2 := length_keyKpBytes_le h.g2 h.proof2
    rw [kkppBytes, length_append]
    omega

theorem kkppReader_bytes : (kkppReader message.participantId).read (kkppBytes message) = .ok message := by
  have h2 := readKeyKp_append h.g2 h.proof2 h.prover2 []
  rw [append_nil] at h2
  have hrun : (kkppReader message.participantId).run (kkppBytes message) = .ok message [] := by
    rw [kkppReader, kkppBytes, bind_of_ok (readKeyKp_append h.g1 h.proof1 h.prover1 _), bind_of_ok h2,
      bind_of_ok (finish_nil _)]
    rfl
  rw [Reader.read, hrun]
  rfl

theorem decodeTlsKkpp_of_verified (hv : verifyRoundOne message = .ok ()) :
    decodeTlsKkpp (kkppBytes message) message.participantId = .ok message := by
  obtain ⟨g1, hg1, hv⟩ := bind_ok.mp hv
  obtain ⟨g2, hg2, hv⟩ := bind_ok.mp hv
  split at hv
  · cases hv
  · obtain ⟨⟨⟩, hv1, hv2⟩ := bind_ok.mp hv
    rw [decodeTlsKkpp, kkppReader_bytes h, ok_bind, hg1, ok_bind, hg2, ok_bind, hv1, ok_bind, hv2, ok_bind]
    rfl

end Honest

section RoundTrips

/-- What is written of the message is read back as the message itself. -/
def KkppReturns (message : RoundOne) (participantId : Bytes) : Prop :=
  ∃ bytes, encodeTlsKkpp message = .ok bytes ∧ decodeTlsKkpp bytes participantId = .ok message

def KeyExchangeReturns (message : RoundTwo) (participantId : Bytes) (curve : Bool) : Prop :=
  ∃ bytes, encodeTlsKeyExchange message curve = .ok bytes ∧
    decodeTlsKeyExchange bytes participantId curve = .ok message

theorem kkppReturns_of_verified {m : RoundOne} (h : WellFormed m)
    (hv : verifyRoundOne m = .ok ()) : KkppReturns m m.participantId :=
  ⟨kkppBytes m, (encodeTlsKkpp_of_wellFormed h).1, decodeTlsKkpp_of_verified h hv⟩

theorem keyExchangeReturns_of_isProof {m : RoundTwo} (hp : IsPoint m.point) (hz : IsProof m.proof)
    (curve : Bool) : KeyExchangeReturns m m.proof.proverId curve := by
  refine ⟨keyExchangeBytes m curve, ?_, decodeTlsKeyExchange_bytes hp hz rfl curve⟩
  rw [encodeTlsKeyExchange, writeKeyKp_of_honest hp hz, ok_bind]
  rfl

/-- The messages of honest parties survive their journey, and so does any
well-formed message whose proofs verify, however its response is trimmed. -/
theorem ecjpake_messages_return :
    (∀ party : EcJpakeParty, party.Constructed →
      (∀ rng, KkppReturns (party.roundOne rng).1 party.participantId) ∧
        ∀ own peer rng two rng', party.roundTwo own peer rng = .ok (two, rng') →
          ∀ curve, KeyExchangeReturns two party.participantId curve) ∧
    (∀ message : RoundOne, WellFormed message → verifyRoundOne message = .ok () →
      KkppReturns message message.participantId) ∧
    (∀ (p : Point) (v : Point) (r : Scalar) (proverId : Bytes) (curve : Bool), p ≠ 0 → v ≠ 0 →
      KeyExchangeReturns ⟨pointToBytes p, pointToBytes v, scalarBytes r, proverId⟩ proverId curve) ∧
    (∀ proof : SchnorrProof, IsProof proof → encodeTls proof =
      .ok (UInt8.ofNat proof.v.length :: proof.v ++
        UInt8.ofNat (trimScalarBytes proof.r).length :: trimScalarBytes proof.r)) ∧
    ∀ r : ByteVector 32, (r.toList = List.replicate 32 0 → trimScalarBytes r = [0]) ∧
      ∀ zeros b tail, b ≠ 0 → r.toList = List.replicate zeros 0 ++ b :: tail → trimScalarBytes r = b :: tail := by
  refine ⟨?_, ?_, ?_, ?_, ?_⟩
  · intro party hparty
    obtain ⟨hx1, hx2, hsecret⟩ := hparty.ne_zero
    refine ⟨?_, ?_⟩
    · intro rng
      exact kkppReturns_of_verified (roundOne_wellFormed hx1 hx2 rng) (verifyRoundOne_roundOne hx1 hx2 rng)
    · intro own peer rng two rng' h curve
      obtain ⟨base, _, _, hbase, htwo⟩ := roundTwo_eq_ok h
      have hone := congrArg Prod.fst htwo
      subst hone
      refine ⟨_, (encodeTlsKeyExchange_secondRound hbase (mul_ne_zero hx2 hsecret) rng curve).1, ?_⟩
      exact decodeTlsKeyExchange_secondRound hbase (mul_ne_zero hx2 hsecret) rng curve
  · exact fun message => kkppReturns_of_verified
  · intro p v r proverId curve hp hv
    exact keyExchangeReturns_of_isProof ⟨p, hp, rfl⟩ ⟨⟨v, hv, rfl⟩, r, rfl⟩ curve
  · exact fun proof => encodeTls_of_isProof
  · exact fun r => ⟨trimScalarBytes_zero, fun zeros b tail => trimScalarBytes_of_replicate⟩

end RoundTrips

end Codec

section Witness

attribute [local instance] residues

def residueZero : RoundOne := (EcJpakeParty.roundOne ⟨.client, ascii "id", 2, 1, 1⟩ (residueRng [5])).1

theorem ecjpake_messages_return_zero :
    residueZero.proof1.r.toList = List.replicate 32 0 ∧ trimScalarBytes residueZero.proof1.r = [0] ∧
      KkppReturns residueZero (ascii "id") ∧
      KeyExchangeReturns ⟨pointToBytes generator, pointToBytes generator, scalarBytes 0, ascii "id"⟩ (ascii "id") true := by
  have hzero : residueZero.proof1.r.toList = List.replicate 32 0 := by decide +kernel
  have hone : (1 : ZMod 7) ≠ 0 := by decide
  have hsecret : scalarFromSecret [2] = (2 : ZMod 7) := by decide +kernel
  have hparty : EcJpakeParty.Constructed ⟨.client, ascii "id", 2, 1, 1⟩ := by
    refine .inr ⟨.client, ascii "id", [2], scalarBytes 1, scalarBytes 1, ?_⟩
    rw [EcJpakeParty.newWithScalars, scalarFromRepr_scalarBytes, ok_bind, ok_bind, if_neg hone,
      if_neg hone, hsecret]
    rfl
  obtain ⟨hhonest, -, hexchange, -, htrim⟩ := ecjpake_messages_return
  exact ⟨hzero, (htrim _).1 hzero, (hhonest _ hparty).1 _, hexchange _ _ 0 _ true hone hone⟩

end Witness

end ThreadCommissioner.EcJpakeCodec
