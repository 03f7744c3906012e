import ThreadCommissioner.KekGate

namespace ThreadCommissioner.Nonces

open ByteStrings ClientDriver ClientHandshake Coap Computations Drivers Errors HandshakeAgreement HandshakeMessages List
open Hellos JoinerSessions JoinerSteps KekGate KeySchedule Primitives RecordProtection Records ServerDriver
open JoinerExchange Residues ServerHandshake Sessions Texts

section Numbers

/-- The records of epoch one in the datagrams, as the other end reads them. -/
def sealedIn (datagrams : List Bytes) : List DtlsRecord :=
  datagrams.flatMap fun datagram =>
    match DtlsRecord.parseDatagram datagram with
    | .ok records => records.filter (·.header.epoch = 1)
    | .error _ => []

/-- The nonce with which a record is protected under keys with the given fixed part. -/
def sealNonce (fixedIv : ByteVector 4) (record : DtlsRecord) : Bytes := fixedIv.toList ++ record.payload.take 8

/-- No nonce is used twice, whatever keys the records are protected under. -/
def NoncesDistinct (records : List DtlsRecord) : Prop :=
  records.Pairwise fun r r' => ∀ iv iv' : ByteVector 4, sealNonce iv r ≠ sealNonce iv' r'

def explicitBytes (n : ℕ) : Bytes := (explicitNonce 1 (.ofNat n)).toList

def Ascending (low high : ℕ) (records : List DtlsRecord) : Prop :=
  ∃ numbers : List ℕ, records.map (·.payload.take 8) = numbers.map explicitBytes ∧
    numbers.Pairwise (· < ·) ∧ ∀ n ∈ numbers, low ≤ n ∧ n < high

variable {low low' mid high high' : ℕ} {records records' : List DtlsRecord}

theorem ascending_nil (low high : ℕ) : Ascending low high [] := ⟨[], rfl, .nil, by simp⟩

theorem Ascending.mono (h : Ascending low high records) (hlow : low' ≤ low) (hhigh : high ≤ high') :
    Ascending low' high' records := by
  obtain ⟨numbers, hmap, hsorted, hbounds⟩ := h
  exact ⟨numbers, hmap, hsorted, fun n hn => ⟨hlow.trans (hbounds n hn).1, (hbounds n hn).2.trans_le hhigh⟩⟩

theorem Ascending.append (h : Ascending low mid records) (h' : Ascending mid high records') (hlow : low ≤ mid)
    (hhigh : mid ≤ high) : Ascending low high (records ++ records') := by
  obtain ⟨numbers, hmap, hsorted, hbounds⟩ := h
  obtain ⟨numbers', hmap', hsorted', hbounds'⟩ := h'
  refine ⟨numbers ++ numbers', by rw [map_append, map_append, hmap, hmap'], ?_, fun n hn => ?_⟩
  · refine pairwise_append.mpr ⟨hsorted, hsorted', fun n hn m hm => ?_⟩
    exact (hbounds n hn).2.trans_le (hbounds' m hm).1
  · rcases mem_append.mp hn with hn | hn
    · exact ⟨(hbounds n hn).1, (hbounds n hn).2.trans_le hhigh⟩
    · exact ⟨hlow.trans (hbounds' n hn).1, (hbounds' n hn).2⟩

theorem explicitBytes_inj {n m : ℕ} (hn : n < 2 ^ 48) (hm : m < 2 ^ 48) (h : explicitBytes n = explicitBytes m) : n = m := by
  have hbytes := (append_inj h (by simp)).2
  rw [UInt64.toNat_ofNat_of_lt' (hn.trans (by decide)), UInt64.toNat_ofNat_of_lt' (hm.trans (by decide)),
    beBytes_inj hn hm] at hbytes
  exact hbytes

theorem Ascending.distinct (h : Ascending low high records) (hhigh : high ≤ 2 ^ 48) : NoncesDistinct records := by
  obtain ⟨numbers, hmap, hsorted, hbounds⟩ := h
  have hpairs : (records.map (·.payload.take 8)).Pairwise (· ≠ ·) := by
    rw [hmap, pairwise_map]
    refine hsorted.imp_of_mem fun {n m} hn hm hlt heq => ?_
    have := explicitBytes_inj ((hbounds n hn).2.trans_le hhigh) ((hbounds m hm).2.trans_le hhigh) heq
    omega
  refine (pairwise_map.mp hpairs).imp fun hne iv iv' heq => hne ?_
  exact (append_inj heq (by simp)).2

end Numbers

section Wire

theorem sealedIn_append (dgrams more : List Bytes) :
    sealedIn (dgrams ++ more) = sealedIn dgrams ++ sealedIn more := flatMap_append

variable {records : List DtlsRecord}

theorem sealedIn_datagram (h : ∀ r ∈ records, r.payload.length = r.header.length.toNat) :
    sealedIn [datagramOf records] = (records.map DtlsRecord.onWire).filter (·.header.epoch = 1) := by
  rw [sealedIn, flatMap_singleton, datagramOf, DtlsRecord.parseDatagram_onWire h]

theorem sealedIn_plaintext (h : ∀ r ∈ records, r.payload.length = r.header.length.toNat)
    (hepoch : ∀ r ∈ records, r.header.epoch = 0) : sealedIn [datagramOf records] = [] := by
  rw [sealedIn_datagram h, filter_eq_nil_iff]
  intro r hr
  obtain ⟨r', hr', rfl⟩ := mem_map.mp hr
  have hzero : r'.onWire.header.epoch = 0 := hepoch r' hr'
  rw [hzero]
  decide

theorem encodeRecords_eq_ok {bytes : Bytes} (h : encodeRecords records = .ok bytes) :
    (∀ r ∈ records, r.payload.length = r.header.length.toNat) ∧ bytes = datagramOf records := by
  induction records generalizing bytes with
  | nil =>
    cases h
    exact ⟨by simp, rfl⟩
  | cons record records ih =>
    obtain ⟨first, hfirst, h⟩ := bind_ok.mp h
    obtain ⟨rest, hrest, h⟩ := bind_ok.mp h
    cases h
    obtain ⟨hlengths, rfl⟩ := ih hrest
    rw [DtlsRecord.encode] at hfirst
    split at hfirst
    · cases hfirst
    · next hlength =>
      cases hfirst
      exact ⟨forall_mem_cons.mpr ⟨not_not.mp hlength, hlengths⟩, rfl⟩

theorem record_length {m : HandshakeMessage} (h : m.bytes.length ≤ 65535) (epoch : UInt16) (seq : UInt64) :
    (m.record epoch seq).payload.length = (m.record epoch seq).header.length.toNat := by
  rw [HandshakeMessage.record, UInt16.toNat_ofNat_of_lt' (Nat.lt_succ_of_le h)]

theorem sealedIn_flight {shello kex hdone : HandshakeMessage}
    (h₁ : shello.bytes.length ≤ 65535) (h₂ : kex.bytes.length ≤ 65535) (h₃ : hdone.bytes.length ≤ 65535) (seq : UInt64) :
    sealedIn [datagramOf [shello.record 0 seq, kex.record 0 (seq + 1), hdone.record 0 (seq + 1 + 1)]] = [] := by
  refine sealedIn_plaintext (fun r hr => ?_) (fun r hr => ?_)
  · simp only [mem_cons, not_mem_nil, or_false] at hr
    rcases hr with rfl | rfl | rfl
    · exact record_length h₁ _ _
    · exact record_length h₂ _ _
    · exact record_length h₃ _ _
  · simp only [mem_cons, not_mem_nil, or_false] at hr
    rcases hr with rfl | rfl | rfl <;> rfl

variable [Suite]

theorem ascending_protect {ty : ContentType} {seq : UInt64} {key : ByteVector 16}
    {fixedIv : ByteVector 4} {plain : Bytes} {r : DtlsRecord}
    (h : protectAes128Ccm8Record ty 1 seq key fixedIv plain = .ok r) : Ascending seq.toNat (seq.toNat + 1) [r] := by
  obtain ⟨hs, hl, cipher, hc, rfl⟩ := protect_eq_ok.mp h
  refine ⟨[seq.toNat], ?_, pairwise_singleton _ _, by simp⟩
  rw [map_singleton, map_singleton, explicitBytes, UInt64.ofNat_toNat]
  exact congrArg (fun bs => [bs]) (take_left' (List.Vector.toList_length _))

theorem sealedIn_protected {record : DtlsRecord} {ty : ContentType} {seq : UInt64} {key : ByteVector 16}
    {fixedIv : ByteVector 4} {plain : Bytes} (h : ∀ r ∈ records, r.payload.length = r.header.length.toNat)
    (hepoch : ∀ r ∈ records, r.header.epoch = 0) (hprot : protectAes128Ccm8Record ty 1 seq key fixedIv plain = .ok record) :
    sealedIn [datagramOf (records ++ [record])] = [record] := by
  have hwire := DtlsRecord.onWire_of_wellFormed (protect_wellFormed hprot)
  have hone : record.header.epoch = 1 := (header_of_protect hprot).2.1
  have hplain : (records.map DtlsRecord.onWire).filter (·.header.epoch = 1) = [] := by
    rw [← sealedIn_datagram h]
    exact sealedIn_plaintext h hepoch
  have hall : ∀ r ∈ records ++ [record], r.payload.length = r.header.length.toNat := by
    intro r hr
    rcases mem_append.mp hr with hr | hr
    · exact h r hr
    · rw [mem_singleton.mp hr]
      exact (protect_wellFormed hprot).1
  rw [sealedIn_datagram hall, map_append, filter_append, hplain, nil_append, map_singleton, hwire, filter_singleton, hone]
  rfl

end Wire

section Joiner

variable [Suite] {H : Type}

def transmitted (events : List JoinerSessionEvent) : List Bytes :=
  events.filterMap fun
    | .transmit datagram _ => some datagram
    | _ => none

/-- The counter of protected records has not passed its range, and the flight
that may be repeated holds none. -/
def Tidy (session : JoinerSession) : Prop :=
  session.epoch1Sequence.toNat ≤ 2 ^ 48 ∧ sealedIn [session.serverFlight] = []

/-- What is sent on the way from one state to another is numbered by the
counter. -/
structure Sends (s t : Feed H) : Prop where
  tidy : Tidy t.session
  le : s.session.epoch1Sequence.toNat ≤ t.session.epoch1Sequence.toNat
  pushed : ∃ events, t.events = s.events ++ events ∧
    Ascending s.session.epoch1Sequence.toNat t.session.epoch1Sequence.toNat (sealedIn (transmitted events))

variable {s t u : Feed H}

theorem Sends.trans (h : Sends s t) (h' : Sends t u) : Sends s u := by
  obtain ⟨-, hle, evs, hevents, hsent⟩ := h
  obtain ⟨htidy, hle', events', hevents', hsent'⟩ := h'
  refine ⟨htidy, hle.trans hle', evs ++ events', by rw [hevents', hevents, append_assoc], ?_⟩
  rw [transmitted, filterMap_append, sealedIn_append]
  exact hsent.append hsent' hle hle'

theorem sends_plaintext (h : Tidy s.session) {evs : List JoinerSessionEvent}
    (hevents : t.events = s.events ++ evs) (hplain : sealedIn (transmitted evs) = [])
    (hcounter : t.session.epoch1Sequence = s.session.epoch1Sequence)
    (hflight : sealedIn [t.session.serverFlight] = []) : Sends s t := by
  refine ⟨⟨by rw [hcounter]; exact h.1, hflight⟩, by rw [hcounter], evs, hevents, ?_⟩
  rw [hplain]
  exact ascending_nil _ _

variable {key : ByteVector 16} {fixedIv : ByteVector 4} {plaintext : Bytes} {m : HandshakeMessage}

theorem sends_protected (h : Tidy s.session) {evs : List JoinerSessionEvent} {ty : ContentType} {r : DtlsRecord}
    (hprot : protectAes128Ccm8Record ty 1 s.session.epoch1Sequence key fixedIv plaintext = .ok r)
    (hevents : t.events = s.events ++ evs)
    (hsealed : Ascending s.session.epoch1Sequence.toNat (s.session.epoch1Sequence.toNat + 1) (sealedIn (transmitted evs)))
    (hcounter : t.session.epoch1Sequence = s.session.epoch1Sequence + 1)
    (hflight : t.session.serverFlight = s.session.serverFlight) : Sends s t := by
  obtain ⟨hs, -⟩ := protect_eq_ok.mp hprot
  have hnext : t.session.epoch1Sequence.toNat = s.session.epoch1Sequence.toNat + 1 := by
    rw [hcounter, toNat_next hs]
  refine ⟨⟨by omega, by rw [hflight]; exact h.2⟩, by omega, evs, hevents, ?_⟩
  rw [hnext]
  exact hsealed

theorem sealedIn_challenge (cookies : DtlsCookieGenerator) (random : ByteVector 32) (mseq : UInt16) (seq : UInt64) :
    sealedIn [((verifyRequestMessage mseq (cookies.cookie random).toList).record 0 seq).bytes] = [] := by
  have hcookie : (cookies.cookie random).toList.length ≤ 255 := by
    rw [List.Vector.toList_length]
    decide
  have hshort := verifyRequest_short hcookie mseq
  have hlength := record_length (hshort.length_bytes.trans (by decide)) 0 seq
  have hplain := sealedIn_plaintext (forall_mem_singleton.mpr hlength) (forall_mem_singleton.mpr rfl)
  rwa [datagramOf, flatMap_singleton] at hplain

theorem sealedIn_finish {seq sequence' : UInt64} {fin : DtlsRecord}
    (h : protectAes128Ccm8Record .handshake 1 sequence' key fixedIv plaintext = .ok fin) :
    sealedIn [datagramOf [changeCipherSpecRecord seq, fin]] = [fin] :=
  sealedIn_protected (forall_mem_singleton.mpr rfl) (forall_mem_singleton.mpr rfl) h

theorem sealedIn_answer {seq : UInt64} {resp : DtlsRecord}
    (h : protectAes128Ccm8Record .applicationData 1 seq key fixedIv plaintext = .ok resp) :
    sealedIn [resp.bytes] = [resp] := by
  have hdatagram : sealedIn [datagramOf ([] ++ [resp])] = [resp] := sealedIn_protected (by simp) (by simp) h
  rwa [nil_append, datagramOf, flatMap_singleton] at hdatagram

theorem plaintextStep_sends (h : Tidy s.session) (hstep : PlaintextStep m s t) : Sends s t := by
  cases hstep with
  | challenged htype hphase hdecode hverify =>
    exact sends_plaintext h rfl (sealedIn_challenge _ _ _ _) rfl h.2
  | accepted htype hphase hdecode hverify hflight h₁ h₂ h₃ =>
    have hplain := sealedIn_flight h₁ h₂ h₃ s.session.epoch0Sequence
    exact sends_plaintext h rfl hplain rfl hplain
  | repeated htype hphase => exact sends_plaintext h rfl h.2 rfl h.2
  | exchanged htype hphase hexchange hderive =>
    exact sends_plaintext h (append_nil _).symm rfl rfl h.2

theorem quiet_sends (h : Tidy s.session) (hquiet : Quiet s t) : Sends s t := by
  obtain ⟨hs, epoch0, rng, -, rfl⟩ := hquiet
  exact sends_plaintext h (append_nil _).symm rfl rfl h.2

theorem finishedStep_sends (h : Tidy s.session) (hstep : FinishedStep m s t) : Sends s t := by
  cases hstep with
  | skipped htype => exact sends_plaintext h (append_nil _).symm rfl rfl h.2
  | @verified keys checked hs sfin fin htype hkeys hverify hbuild hprot =>
    have hsealed : sealedIn (transmitted [.transmit (datagramOf
        [changeCipherSpecRecord s.session.epoch0Sequence, fin]) false, .connected]) = [fin] := sealedIn_finish hprot
    refine sends_protected h hprot (finish_events s hs fin) ?_ rfl rfl
    rw [hsealed]
    exact ascending_protect hprot

theorem confirms_sends {ms : List HandshakeMessage} (h : Tidy s.session) (hconfirms : Confirms ms s t) : Sends s t := by
  induction hconfirms with
  | done s => exact quiet_sends h (.refl s)
  | stopped hfail => exact quiet_sends h hfail
  | next hstep hrest ih =>
    have hfirst := finishedStep_sends h hstep
    exact hfirst.trans (ih hfirst.tidy)

theorem handleFinished_exhausted (htype : m.messageType = .finished)
    (h : 2 ^ 48 ≤ s.session.epoch1Sequence.toNat) : ∃ e t, (handleFinished m).run s = .error e t := by
  cases hrun : (handleFinished m).run s with
  | ok r t =>
    cases handleFinished_eq_ok.mp hrun with
    | skipped hother => exact absurd htype hother
    | verified _ _ _ _ hprotect => exact absurd (protect_eq_ok.mp hprotect).1 (Nat.not_lt.mpr h)
  | error e t => exact ⟨e, t, rfl⟩

theorem answerJoinFin_exhausted (req : CoapMessage) (info : JoinerFinalizeInfo) (acc : Bool)
    (h : 2 ^ 48 ≤ s.session.epoch1Sequence.toNat) : ∃ e, (answerJoinFin req info acc).run s = .error e s := by
  cases hrun : (answerJoinFin req info acc).run s with
  | ok r t =>
    obtain ⟨_, _, _, -, -, hprot, -⟩ := answerJoinFin_eq_ok.mp hrun
    exact absurd (protect_eq_ok.mp hprot).1 (Nat.not_lt.mpr h)
  | error e t =>
    obtain rfl := answerJoinFin_fails req info acc s e t hrun
    exact ⟨e, rfl⟩

variable [JoinerHandler H]

theorem applicationStep_sends {r : DtlsRecord} (h : Tidy s.session) (hstep : ApplicationStep r s t) : Sends s t := by
  cases hstep with
  | ignored => exact quiet_sends h (.refl s)
  | @answered plaintext payload req info keys resp hphase hopen hdec hpath hinfo hkeys henc
      hprotect =>
      have hsession := consult_session s info
      refine sends_protected h hprotect (answered_events s info resp) ?_ ?_ ?_
      · have hsealed : sealedIn (transmitted (.transmit resp.bytes (consult s info).1 ::
            if s.session.phase = .finalized then [] else [.finalized (consult s info).1 info])) = [resp] := by
          split <;> exact sealedIn_answer hprotect
        rw [hsealed]
        exact ascending_protect hprotect
      · change (consult s info).2.session.epoch1Sequence + 1 = _
        rw [hsession]
      · change (consult s info).2.session.serverFlight = _
        rw [hsession]

theorem move_sends {item : Item} (h : Tidy s.session) (hmove : Move s item t) : Sends s t := by
  cases hmove with
  | quiet hquiet => exact quiet_sends h hquiet
  | plaintext hstep => exact plaintextStep_sends h hstep
  | confirmed hopens hconfirms => exact confirms_sends h hconfirms
  | cipherSpec hpayload => exact sends_plaintext h (append_nil _).symm rfl rfl h.2
  | application hstep => exact applicationStep_sends h hstep
  | consulted info =>
    have hsession := consult_session s info
    have hevents : (consult s info).2.events = s.events ++ [] := by
      rw [consult_events, append_nil]
    refine sends_plaintext h hevents rfl ?_ ?_
    · rw [hsession]
    · rw [hsession]
      exact h.2

theorem receive_sends (encap : Bytes) {party : Party H} (h : Tidy party.session) :
    Sends party.feed (finalState (((datagramItems encap).forM handleItem).run party.feed)) :=
  rounds_induction (P := fun _ s => Sends party.feed s)
    (fun _ item s hs => hs.trans (move_sends hs.tidy (handleItem_move item s))) []
    (quiet_sends h (.refl party.feed)) (datagramItems encap)

/-- The datagrams of the calls that succeed, in the order they are sent. -/
def sentBy (outcomes : List (Except Error (List JoinerSessionEvent))) : List Bytes :=
  (successes outcomes).flatMap transmitted

theorem run_sends (dgrams : List Bytes) (party : Party H) (h : Tidy party.session) :
    Tidy (runAll receive dgrams party).1.session ∧
      party.session.epoch1Sequence.toNat ≤ (runAll receive dgrams party).1.session.epoch1Sequence.toNat ∧
      Ascending party.session.epoch1Sequence.toNat (runAll receive dgrams party).1.session.epoch1Sequence.toNat
        (sealedIn (sentBy (runAll receive dgrams party).2)) := by
  induction dgrams generalizing party with
  | nil => exact ⟨h, le_rfl, ascending_nil _ _⟩
  | cons dgram dgrams ih =>
    obtain ⟨htidy, hle, events, hevents, hsent⟩ := receive_sends dgram h
    have hfinal := congrArg Party.session (finalState_receive dgram party)
    have hnext : (finalState ((receive dgram).run party)).session =
        (finalState (((datagramItems dgram).forM handleItem).run party.feed)).session := hfinal
    rw [← hnext] at htidy hle hsent
    obtain ⟨htidy', hle', hsent'⟩ := ih _ htidy
    refine ⟨htidy', hle.trans hle', ?_⟩
    rw [runAll]
    cases hrun : (receive dgram).run party with
    | ok pushed next =>
      have hpushed : pushed = events := (receive_eq_ok hrun).trans hevents
      rw [hrun] at hsent hsent' hle hle'
      rw [← hpushed] at hsent
      have hsplit : sentBy (outcome (EStateM.Result.ok pushed next) :: (runAll receive dgrams next).2) =
          transmitted pushed ++ sentBy (runAll receive dgrams next).2 := rfl
      dsimp only
      rw [finalState, hsplit, sealedIn_append]
      exact hsent.append hsent' hle hle'
    | error e next =>
      rw [hrun] at hsent' hle hle'
      exact hsent'.mono hle le_rfl

end Joiner

section Session

variable [Suite]

theorem protect_ascending (plaintexts : List Bytes) (sess : SessionState)
    (h : sess.nextApplicationSequence.toNat ≤ 2 ^ 48) : Ascending sess.nextApplicationSequence.toNat (2 ^ 48)
      (successes (runAll protectApplicationData plaintexts sess).2) := by
  induction plaintexts generalizing sess with
  | nil => exact ascending_nil _ _
  | cons plaintext plaintexts ih =>
    rw [runAll]
    cases hrun : (protectApplicationData plaintext).run sess with
    | ok record next =>
      obtain ⟨hseal, rfl⟩ := protectApplicationData_eq_ok.mp hrun
      obtain ⟨-, hs⟩ := sequenceNumber_of_sealRecord hseal
      have hnext := toNat_next hs
      have hrest := ih { sess with nextApplicationSequence := sess.nextApplicationSequence + 1 }
        (by dsimp only; omega)
      dsimp only at hrest
      rw [hnext] at hrest
      exact (ascending_protect hseal).append hrest (by omega) hs
    | error e next =>
      obtain ⟨-, rfl⟩ := protectApplicationData_eq_error.mp hrun
      exact ih _ h

theorem protect_exhausted (plaintexts : List Bytes) {sess : SessionState}
    (h : 2 ^ 48 ≤ sess.nextApplicationSequence.toNat) : (runAll protectApplicationData plaintexts sess).1 = sess ∧
      ∀ res ∈ (runAll protectApplicationData plaintexts sess).2, ∃ e, res = .error e := by
  induction plaintexts with
  | nil => exact ⟨rfl, by simp [runAll]⟩
  | cons plaintext plaintexts ih =>
    rw [runAll]
    cases hrun : (protectApplicationData plaintext).run sess with
    | ok record next =>
      obtain ⟨hseal, -⟩ := protectApplicationData_eq_ok.mp hrun
      exact absurd (sequenceNumber_of_sealRecord hseal).2 (Nat.not_lt.mpr h)
    | error e next =>
      obtain ⟨-, rfl⟩ := protectApplicationData_eq_error.mp hrun
      exact ⟨ih.1, forall_mem_cons.mpr ⟨⟨e, rfl⟩, ih.2⟩⟩

theorem session_distinct {handshakeRecords : List DtlsRecord} (h : Ascending 0 1 handshakeRecords)
    (keys : ThreadDtlsKeyMaterial) (role : SessionRole) (plaintexts : List Bytes) : NoncesDistinct (handshakeRecords ++
      successes (runAll protectApplicationData plaintexts (.new keys role)).2) := by
  have hsession : Ascending 1 (2 ^ 48) (successes (runAll protectApplicationData plaintexts (.new keys role)).2) :=
    protect_ascending plaintexts (.new keys role) (show 1 ≤ 2 ^ 48 by decide)
  exact (h.append hsession (by decide) (by decide)).distinct le_rfl

end Session

section Client

theorem sealedIn_clientHello {state state' : DtlsClientHelloState} {r : DtlsRecord} {dgram : Bytes}
    (h : nextClientHelloRecord.run state = .ok r state') (henc : encodeRecords [r] = .ok dgram) : sealedIn [dgram] = [] := by
  rw [nextClientHelloRecord, get_bind, set_bind] at h
  obtain ⟨payload, -, h⟩ := lift_bind_ok.mp h
  obtain ⟨encoded, -, h⟩ := lift_bind_ok.mp h
  obtain ⟨built, hnew, h⟩ := lift_bind_ok.mp h
  rw [modify_bind] at h
  cases h
  obtain ⟨hlength, rfl⟩ := encodeRecords_eq_ok henc
  exact sealedIn_plaintext hlength (forall_mem_singleton.mpr (DtlsRecord.new_eq_ok hnew).2.1)

variable [Suite] {Addr TransportError : Type} [DecidableEq Addr]

def ClientSealed (records : List DtlsRecord) : ConnectStage TransportError → Prop
  | .helloVerify _ _ => records = []
  | .serverFlight _ _ => records = []
  | .serverFinished _ _ _ => Ascending 0 1 records
  | .connected _ session => Ascending 0 1 records ∧ ∃ keys, session = .new keys .client
  | .failed _ => True

variable {rng : Rng} {progress : Progress TransportError}

theorem begin_sealed {pskc : Bytes} (h : begin pskc rng = .ok progress) :
    ClientSealed (sealedIn progress.sent) progress.stage := by
  obtain ⟨helloState, -, h⟩ := bind_ok.mp h
  obtain ⟨⟨r, helloState'⟩, hr, h⟩ := bind_ok.mp h
  obtain ⟨dgram, henc, h⟩ := bind_ok.mp h
  cases h
  exact sealedIn_clientHello (exec_eq_ok.mp hr) henc

theorem afterHelloVerify_sealed {hs : ThreadDtlsHandshake} {helloState : DtlsClientHelloState}
    (h : afterHelloVerify hs helloState rng = .ok progress) : ClientSealed (sealedIn progress.sent) progress.stage := by
  obtain ⟨⟨r, helloState'⟩, hr, h⟩ := bind_ok.mp h
  obtain ⟨chello, -, h⟩ := bind_ok.mp h
  obtain ⟨⟨_, hs'⟩, -, h⟩ := bind_ok.mp h
  obtain ⟨dgram, henc, h⟩ := bind_ok.mp h
  cases h
  exact sealedIn_clientHello (exec_eq_ok.mp hr) henc

theorem afterServerFlight_sealed {hs : ThreadDtlsHandshake} {helloState : DtlsClientHelloState}
    (h : afterServerFlight hs helloState rng = .ok progress) : ClientSealed (sealedIn progress.sent) progress.stage := by
  obtain ⟨_, _, _, keys, _, _, _, kex, changeCipherSpec, _, fin, dgram, -, -, -, -, hkeyExchange,
    hcipherSpec, -, hprotect, henc, rfl⟩ := afterServerFlight_eq_ok.mp h
  obtain ⟨hlengths, rfl⟩ := encodeRecords_eq_ok henc
  have hfirst := DtlsRecord.new_eq_ok hkeyExchange
  have hsecond := DtlsRecord.new_eq_ok hcipherSpec
  have hplain : ∀ r ∈ [kex, changeCipherSpec], r.payload.length = r.header.length.toNat := by
    simp only [forall_mem_cons, hfirst.2.2.2.2, hsecond.2.2.2.2, not_mem_nil, false_implies, implies_true, and_self]
  have hepoch : ∀ r ∈ [kex, changeCipherSpec], r.header.epoch = 0 := by
    simp only [forall_mem_cons, hfirst.2.1, hsecond.2.1, not_mem_nil, false_implies, implies_true, and_self]
  change Ascending 0 1 (sealedIn [datagramOf ([kex, changeCipherSpec] ++ [fin])])
  rw [sealedIn_protected hplain hepoch hprotect]
  exact ascending_protect hprotect

theorem process_sealed {rs : List DtlsRecord} {stage : ConnectStage TransportError} {before : List DtlsRecord}
    (hsealed : ClientSealed before stage) (h : process rng rs stage = .ok progress) :
    ClientSealed (before ++ sealedIn progress.sent) progress.stage := by
  cases stage with
  | helloVerify hs helloState =>
    obtain ⟨⟨done, helloState'⟩, -, h⟩ := bind_ok.mp h
    obtain rfl : before = [] := hsealed
    cases done with
    | some _ => exact afterHelloVerify_sealed h
    | none =>
      cases h
      rfl
  | serverFlight hs helloState =>
    obtain ⟨⟨done, hs'⟩, -, h⟩ := bind_ok.mp h
    obtain rfl : before = [] := hsealed
    cases done with
    | some _ => exact afterServerFlight_sealed h
    | none =>
      cases h
      rfl
  | serverFinished hs keys saw =>
    obtain ⟨⟨done, hs', saw'⟩, -, h⟩ := bind_ok.mp h
    have hnone : before ++ sealedIn [] = before := append_nil before
    cases done with
    | some _ =>
      cases h
      exact ⟨by rw [hnone]; exact hsealed, keys, rfl⟩
    | none =>
      cases h
      rw [hnone]
      exact hsealed
  | connected hs session =>
    cases h
    exact ⟨by rw [sealedIn, flatMap_nil, append_nil]; exact hsealed.1, hsealed.2⟩
  | failed e =>
    cases h
    trivial

theorem client_sealed (peer : Addr) (pskc : Bytes) (rng : Rng) (arrs : List (Arrival Addr TransportError)) :
    ClientSealed (sealedIn ((Client.start peer pskc rng).run arrs).outbox)
      ((Client.start peer pskc rng).run arrs).stage := by
  have hstart : ClientSealed (sealedIn (Client.start peer pskc rng : Client Addr TransportError).outbox)
      (Client.start peer pskc rng : Client Addr TransportError).stage := by
    rw [Client.start]
    cases hbegin : (begin pskc rng : Except DtlsError (Progress TransportError)) with
    | ok progress => exact begin_sealed hbegin
    | error e => trivial
  rw [Client.run]
  refine List.foldlRecOn (motive := fun client : Client Addr TransportError => ClientSealed (sealedIn client.outbox) client.stage) arrs
    Client.step hstart fun client hclient arr _ => ?_
  rw [Client.step]
  split
  · split
    · trivial
    · split
      · cases hprocess : process client.rng _ client.stage with
        | ok progress =>
          rw [Client.settle, sealedIn_append]
          exact process_sealed hclient hprocess
        | error e => trivial
      · exact hclient
  · exact hclient

end Client

section Server

variable {Addr TransportError : Type}

def sealedTo (out : Outbound Addr) : List DtlsRecord := sealedIn (out.sent.map Prod.snd)

variable {peer : Addr} {rs : List DtlsRecord} {out out' : Outbound Addr} {m : HandshakeMessage}
  {record : DtlsRecord}

theorem sendRecords_sealed (h : (sendRecords peer rs).run out = .ok () out') :
    (∀ r ∈ rs, r.payload.length = r.header.length.toNat) ∧ sealedTo out' = sealedTo out ++ sealedIn [datagramOf rs] := by
  obtain ⟨dgram, henc, h⟩ := lift_bind_ok.mp h
  cases h
  obtain ⟨hlengths, rfl⟩ := encodeRecords_eq_ok henc
  refine ⟨hlengths, ?_⟩
  simp only [sealedTo, map_append, sealedIn_append]
  rfl

theorem sendRecords_plaintext (hepoch : ∀ r ∈ rs, r.header.epoch = 0)
    (h : (sendRecords peer rs).run out = .ok () out') : sealedTo out' = sealedTo out := by
  obtain ⟨hlengths, hsealed⟩ := sendRecords_sealed h
  rw [hsealed, sealedIn_plaintext hlengths hepoch, append_nil]

theorem flightRecord_sealed (h : (flightRecord m).run out = .ok record out') :
    record.header.epoch = 0 ∧ sealedTo out' = sealedTo out := by
  rw [flightRecord, get_bind] at h
  obtain ⟨encoded, -, h⟩ := lift_bind_ok.mp h
  obtain ⟨built, hnew, h⟩ := lift_bind_ok.mp h
  rw [modify_bind] at h
  cases h
  exact ⟨(DtlsRecord.new_eq_ok hnew).2.1, rfl⟩

variable [Suite] {s s' : Flight Addr}

def ServerSealed (records : List DtlsRecord) : AcceptStage Addr TransportError → Prop
  | .clientHello _ => records = []
  | .clientFlight _ _ _ _ _ => records = []
  | .accepted _ _ _ _ => Ascending 0 1 records
  | .failed _ => True

theorem clientHelloMessage_sealed {cookies : DtlsCookieGenerator} {r : Option HandshakeMessage}
    (h : (clientHelloMessage cookies peer m).run out = .ok r out') : sealedTo out' = sealedTo out := by
  rw [clientHelloMessage] at h
  split at h
  · obtain ⟨hello, -, h⟩ := lift_bind_ok.mp h
    split at h
    · cases h
      rfl
    · obtain ⟨payload, -, h⟩ := lift_bind_ok.mp h
      obtain ⟨encoded, -, h⟩ := lift_bind_ok.mp h
      rw [get_bind] at h
      obtain ⟨record, hnew, h⟩ := lift_bind_ok.mp h
      rw [modify_bind] at h
      obtain ⟨_, _, hsend, h⟩ := bind_eq_ok.mp h
      cases h
      have hplain := sendRecords_plaintext (forall_mem_singleton.mpr (DtlsRecord.new_eq_ok hnew).2.1) hsend
      exact hplain
  · cases h
    rfl

theorem clientHelloRecord_sealed {cookies : DtlsCookieGenerator} {r : Option HandshakeMessage}
    (h : (clientHelloRecord cookies peer record).run out = .ok r out') : sealedTo out' = sealedTo out := by
  rw [clientHelloRecord] at h
  split at h
  · obtain ⟨ms, -, h⟩ := lift_bind_ok.mp h
    exact forEach_within (R := fun out out' => sealedTo out' = sealedTo out) (fun _ => rfl)
      (fun h h' => h'.trans h) (fun _ _ _ _ => clientHelloMessage_sealed) h
  · cases h
    rfl

theorem commit_sealed {server : Server Addr TransportError} (h : sealedTo server.out = []) (addr peer : Addr)
    (chello : HandshakeMessage) : ServerSealed (sealedTo (server.commit addr peer chello).out)
      (server.commit addr peer chello).stage := by
  rw [Server.commit]
  dsimp only
  split
  · trivial
  · split
    · trivial
    · next out hsend =>
      obtain ⟨first, out₁, h₁, hsend⟩ := bind_eq_ok.mp hsend
      obtain ⟨second, out₂, h₂, hsend⟩ := bind_eq_ok.mp hsend
      obtain ⟨third, out₃, h₃, hsend⟩ := bind_eq_ok.mp hsend
      obtain ⟨he₁, hs₁⟩ := flightRecord_sealed h₁
      obtain ⟨he₂, hs₂⟩ := flightRecord_sealed h₂
      obtain ⟨he₃, hs₃⟩ := flightRecord_sealed h₃
      have hepoch : ∀ r ∈ [first, second, third], r.header.epoch = 0 := by
        simp only [forall_mem_cons, he₁, he₂, he₃, not_mem_nil, false_implies, implies_true, and_self]
      exact (sendRecords_plaintext hepoch hsend).trans (hs₃.trans (hs₂.trans (hs₁.trans h)))

/-- What the wait for the client's Finished has protected after a record. -/
def FlightSealed (r : Option Unit) (s : Flight Addr) : Prop :=
  match r with
  | none => sealedTo s.out = []
  | some _ => Ascending 0 1 (sealedTo s.out)

variable {r : Option Unit}

theorem clientKeyExchangeMessage_sealed (h : (clientKeyExchangeMessage m).run s = .ok r s') : r = none ∧ s'.out = s.out := by
  obtain ⟨rfl, -, hs, keys, -, -, rfl⟩ := clientKeyExchangeMessage_eq_ok.mp h
  exact ⟨rfl, rfl⟩

theorem clientFlightRecord_sealed (hs : sealedTo s.out = [])
    (h : (clientFlightRecord peer record).run s = .ok r s') : FlightSealed r s' := by
  rcases clientFlightRecord_cases h with ⟨rfl, rfl⟩ | ⟨-, -, messages, -, h⟩ | ⟨-, -, -, rfl, rfl⟩ | ⟨-, -, h⟩
  · exact hs
  · have hout : s'.out = s.out := forEach_within (R := fun s s' : Flight Addr => s'.out = s.out) (fun _ => rfl)
      (fun h h' => h'.trans h) (fun _ _ _ _ h => (clientKeyExchangeMessage_sealed h).2) h
    cases r with
    | none =>
      rw [FlightSealed, hout]
      exact hs
    | some _ =>
      -- a key exchange never ends the wait
      obtain ⟨_, _, _, _, -, -, h⟩ := forEach_eq_some (P := fun _ _ => True) (fun _ _ _ _ _ _ _ => trivial) [] trivial h
      cases (clientKeyExchangeMessage_sealed h).1
  · exact hs
  · obtain ⟨rfl, -, keys, _, _, _, _, _, _, changeCipherSpec, _, fin, out, -, -, -, -, -, -, hcipherSpec, -,
      hprotect, hsend, rfl⟩ := clientFinishedRecord_eq_ok.mp h
    have hnew := DtlsRecord.new_eq_ok hcipherSpec
    obtain ⟨-, hsealed⟩ := sendRecords_sealed hsend
    change Ascending 0 1 (sealedTo out)
    have hdatagram : sealedIn [datagramOf ([changeCipherSpec] ++ [fin])] = [fin] :=
      sealedIn_protected (forall_mem_singleton.mpr hnew.2.2.2.2) (forall_mem_singleton.mpr hnew.2.1) hprotect
    rw [singleton_append] at hdatagram
    rw [hsealed, hs, hdatagram]
    exact ascending_protect hprotect

theorem clientFlight_sealed (hs : sealedTo s.out = [])
    (h : (forEach (clientFlightRecord peer) rs).run s = .ok r s') : FlightSealed r s' := by
  cases r with
  | none =>
    exact forEach_eq_none (P := fun _ (s : Flight Addr) => sealedTo s.out = [])
      (fun _ _ _ _ _ hs h => clientFlightRecord_sealed hs h) [] hs h
  | some u =>
    obtain ⟨_, _, _, v, -, hv, h⟩ := forEach_eq_some (P := fun _ (s : Flight Addr) => sealedTo s.out = [])
      (fun _ _ _ _ _ hs h => clientFlightRecord_sealed hs h) [] hs h
    exact clientFlightRecord_sealed hv h

variable [DecidableEq Addr]

theorem server_sealed (pskc : Bytes) (rng : Rng) (arrs : List (Arrival Addr TransportError)) :
    ServerSealed (sealedTo ((Server.start pskc rng).run arrs).out) ((Server.start pskc rng).run arrs).stage := by
  rw [Server.run]
  refine List.foldlRecOn (motive := fun server : Server Addr TransportError => ServerSealed (sealedTo server.out) server.stage) arrs
    Server.step rfl fun server hserver arr _ => ?_
  rw [Server.step]
  split
  · next cookies hstage =>
    rw [hstage] at hserver
    split
    · trivial
    · split
      · trivial
      · next hhello =>
        have hkept := forEach_within (R := fun out out' : Outbound Addr => sealedTo out' = sealedTo out)
          (fun _ => rfl) (fun h h' => h'.trans h) (fun _ _ _ _ => clientHelloRecord_sealed) hhello
        dsimp only
        rw [hstage, ServerSealed, hkept]
        exact hserver
      · next hhello =>
        have hkept := forEach_within (R := fun out out' : Outbound Addr => sealedTo out' = sealedTo out)
          (fun _ => rfl) (fun h h' => h'.trans h) (fun _ _ _ _ => clientHelloRecord_sealed) hhello
        exact commit_sealed (hkept.trans hserver) _ _ _
  · next addr peer handshake saw keyMaterial hstage =>
    rw [hstage] at hserver
    split
    · trivial
    · split
      · split
        · trivial
        · next hflight => exact clientFlight_sealed (s := ⟨handshake, saw, keyMaterial, server.out⟩) hserver hflight
        · next hflight =>
          have hsealed := clientFlight_sealed (s := ⟨handshake, saw, keyMaterial, server.out⟩) hserver hflight
          split
          · exact hsealed
          · trivial
      · rw [hstage]
        exact hserver
  · exact hserver

end Server

section Runs

variable [Suite] {Addr TransportError H : Type} [DecidableEq Addr] [JoinerHandler H]

theorem tidy_new (iid : ByteVector 8) (port loc : UInt16) (pskd : Text) (now : ℕ)
    (rng : Rng) : Tidy (JoinerSession.new iid port loc pskd now rng).1 := by
  have hnone : sealedIn [datagramOf []] = [] := sealedIn_plaintext (by simp) (by simp)
  exact ⟨Nat.zero_le _, hnone⟩

end Runs

section Witness

attribute [local instance] residues

/-- An honest joiner is sent the Finished and the answer to its JOIN_FIN. -/
theorem joined_sealed : ∃ (dgrams : List Bytes) (fin answer : DtlsRecord), [fin, answer] <:+
    sealedIn (sentBy (runAll receive dgrams (⟨residueSession, .new, residueRng []⟩ : Party StaticJoinerHandler)).2) := by
  obtain ⟨k⟩ := Ready.nonempty_sealed residueDraws_ready
  obtain ⟨req, hreq⟩ := exists_sealsJoinFin k.keys exampleJoinFin (by decide)
  obtain ⟨resp, hresp⟩ := exists_sealsAnswer k.keys exampleJoinFin true
  have hrun : runAll receive k.handshake (⟨residueSession, .new, residueRng []⟩ : Party StaticJoinerHandler) = _ :=
    k.runAll_handshake residueDraws_ready residueSession_fresh StaticJoinerHandler.new
  have hjoin := k.receive_joinFin residueSession_fresh hreq hresp StaticJoinerHandler.new rfl
  obtain ⟨payload, -, hprot⟩ := hresp
  have hsent : sentBy (runAll receive (k.handshake ++ [datagramOf [req]])
      (⟨residueSession, .new, residueRng []⟩ : Party StaticJoinerHandler)).2 =
      [datagramOf [(verifyRequestMessage 0 residueDraws.cookie).record 0 0], flightOf residueDraws] ++
        [datagramOf [changeCipherSpecRecord 4, k.serverFinished]] ++ [resp.bytes] := by
    rw [runAll_append, hrun, runAll, hjoin]
    rfl
  refine ⟨k.handshake ++ [datagramOf [req]], k.serverFinished, resp, ?_⟩
  rw [hsent, sealedIn_append, sealedIn_append, sealedIn_finish k.protectServer, sealedIn_answer hprot, append_assoc]
  exact suffix_append _ _

end Witness

end ThreadCommissioner.Nonces
