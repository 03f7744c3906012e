import ThreadCommissioner.Decisions

namespace ThreadCommissioner.Retransmissions

open ByteStrings Coap Computations Decisions Drivers Framing HandshakeAgreement HandshakeMessages Hellos List
open JoinerExchange JoinerRuns JoinerSessions JoinerSteps KekGate KeySchedule Meshcop Primitives
open RecordProtection Records Residues Texts

section Twins

def isReport : JoinerSessionEvent → Bool
  | .transmit _ _ => false
  | _ => true

/-- What the events tell the application: connections and decisions. -/
def reports (events : List JoinerSessionEvent) : List JoinerSessionEvent := events.filter isReport

theorem reports_append (evs more : List JoinerSessionEvent) :
    reports (evs ++ more) = reports evs ++ reports more := filter_append _ _

theorem toNat_succ_le (n : UInt64) : (n + 1).toNat ≤ n.toNat + 1 := by
  rw [UInt64.toNat_add]
  exact Nat.mod_le _ _

variable [Suite] {H : Type}

/-- The session with other counters and another flight to repeat. -/
def recount (session : JoinerSession) (epoch0 epoch1 : UInt64) (flight : Bytes) : JoinerSession :=
  { session with epoch0Sequence := epoch0, epoch1Sequence := epoch1, serverFlight := flight }

/-- Two calls in progress that differ in what they send and in nothing else. -/
def Twin (s s' : Feed H) : Prop :=
  ∃ epoch0 epoch1 flight events,
    s' = ⟨recount s.session epoch0 epoch1 flight, s.handler, s.rng, events⟩ ∧ reports events = reports s.events

variable {s s' t : Feed H}

theorem Twin.refl (s : Feed H) : Twin s s := ⟨_, _, _, _, rfl, rfl⟩

variable {message : HandshakeMessage} {r : DtlsRecord}

theorem Twin.plaintext (h : Twin s s') (hstep : PlaintextStep message s t) :
    ∃ t', PlaintextStep message s' t' ∧ Twin t t' := by
  obtain ⟨epoch0, epoch1, flight, evs, rfl, hreports⟩ := h
  cases hstep with
  | challenged htype hphase hdecode hverify =>
    refine ⟨_, .challenged htype hphase hdecode hverify, _, _, _, _, rfl, ?_⟩
    simp only [challenge, push, countPlaintext, reports_append, hreports]
    rfl
  | accepted htype hphase hdecode hverify hflight h₁ h₂ h₃ =>
    refine ⟨_, .accepted htype hphase hdecode hverify hflight h₁ h₂ h₃, _, _, _, _, rfl, ?_⟩
    simp only [accept, push, reports_append, hreports]
    rfl
  | repeated htype hphase =>
    refine ⟨_, .repeated htype hphase, _, _, _, _, rfl, ?_⟩
    simp only [push, reports_append, hreports]
    rfl
  | exchanged htype hphase hexchange hderive =>
    exact ⟨_, .exchanged htype hphase hexchange hderive, _, _, _, _, rfl, hreports⟩

theorem exists_protect_at {ty : ContentType} {seq sequence' : UInt64} {key : ByteVector 16}
    {fixedIv : ByteVector 4} {plain : Bytes} (h : protectAes128Ccm8Record ty 1 seq key fixedIv plain = .ok r)
    (hroom : sequence'.toNat < 2 ^ 48) :
    ∃ record', protectAes128Ccm8Record ty 1 sequence' key fixedIv plain = .ok record' := by
  obtain ⟨-, hl, -⟩ := protect_eq_ok.mp h
  obtain ⟨cipher, hprot⟩ : ∃ cipher, protectAes128Ccm8Record ty 1 sequence' key fixedIv plain =
      .ok (protectedRecord ty 1 sequence' cipher) := exists_protect _ _ hroom hl
  exact ⟨_, hprot⟩

theorem Twin.finished (h : Twin s s') (hstep : FinishedStep message s t)
    (hroom : s'.session.epoch1Sequence.toNat < 2 ^ 48) : ∃ t', FinishedStep message s' t' ∧ Twin t t' := by
  obtain ⟨epoch0, epoch1, flight, evs, rfl, hreports⟩ := h
  cases hstep with
  | skipped htype => exact ⟨_, .skipped htype, _, _, _, _, rfl, hreports⟩
  | verified htype hkeys hverify hbuild hprot =>
    obtain ⟨fin, hprotect'⟩ := exists_protect_at hprot hroom
    refine ⟨_, .verified htype hkeys hverify hbuild hprotect', _, _, _, _, rfl, ?_⟩
    simp only [finish, push, reports_append, hreports]
    rfl

theorem finishedStep_spends (hstep : FinishedStep message s t) :
    t.session.epoch1Sequence.toNat ≤ s.session.epoch1Sequence.toNat + 1 := by
  cases hstep with
  | skipped => exact Nat.le_succ _
  | verified => exact toNat_succ_le _

theorem Twin.confirms {ms : List HandshakeMessage} (h : Twin s s') (hrun : (ms.forM handleFinished).run s = .ok () t)
    (hroom : s'.session.epoch1Sequence.toNat + ms.length ≤ 2 ^ 48) :
    ∃ t', (ms.forM handleFinished).run s' = .ok () t' ∧ Twin t t' ∧
      t'.session.epoch1Sequence.toNat ≤ s'.session.epoch1Sequence.toNat + ms.length := by
  induction ms generalizing s s' with
  | nil =>
    cases hrun
    exact ⟨s', rfl, h, le_rfl⟩
  | cons message ms ih =>
    rw [length_cons] at hroom
    obtain ⟨_, u, hfirst, hrest⟩ := bind_eq_ok.mp hrun
    obtain ⟨u', hstep, htwin⟩ := h.finished (handleFinished_eq_ok.mp hfirst) (by omega)
    have hspent := finishedStep_spends hstep
    obtain ⟨t', hrest', htwin', hle⟩ := ih htwin hrest (by omega)
    refine ⟨t', bind_eq_ok.mpr ⟨(), u', handleFinished_eq_ok.mpr hstep, hrest'⟩, htwin', ?_⟩
    rw [length_cons]
    omega

variable [JoinerHandler H]

theorem consult_recount (s : Feed H) (epoch0 epoch1 : UInt64) (flight : Bytes) (evs : List JoinerSessionEvent)
    (info : JoinerFinalizeInfo) : consult ⟨recount s.session epoch0 epoch1 flight, s.handler, s.rng, evs⟩ info =
      ((consult s info).1, ⟨recount (consult s info).2.session epoch0 epoch1 flight, (consult s info).2.handler,
        (consult s info).2.rng, evs⟩) := by
  rcases consult_cases s info with ⟨accepted, hdecision, hconsult⟩ | ⟨accepted, handler, hdecision, hasked, hconsult⟩
  · have hdecision' : (recount s.session epoch0 epoch1 flight).finalizeDecision = some accepted := hdecision
    rw [hconsult, consult, hdecision']
  · have hdecision' : (recount s.session epoch0 epoch1 flight).finalizeDecision = none := hdecision
    have hasked' : JoinerHandler.onJoinerFinalize s.handler (recount s.session epoch0 epoch1 flight).joinerId info =
        (accepted, handler) := hasked
    rw [hconsult, consult, hdecision']
    simp only [hasked']
    rfl

theorem Twin.application (h : Twin s s') (hstep : ApplicationStep r s t)
    (hroom : s'.session.epoch1Sequence.toNat < 2 ^ 48) : ∃ t', ApplicationStep r s' t' ∧ Twin t t' := by
  obtain ⟨epoch0, epoch1, flight, evs, rfl, hreports⟩ := h
  cases hstep with
  | ignored hphase hopen hdec hpath hother =>
    exact ⟨_, .ignored hphase hopen hdec hpath hother, _, _, _, _, rfl, hreports⟩
  | @answered plain payload req info keys resp hphase hopen hdec hpath hinfo hkeys henc
      hprot =>
      have hconsult := consult_recount s epoch0 epoch1 flight evs info
      obtain ⟨response', hprotect'⟩ := exists_protect_at hprot hroom
      refine ⟨_, .answered hphase hopen hdec hpath hinfo hkeys (by rw [hconsult]; exact henc) hprotect', ?_⟩
      rw [hconsult]
      refine ⟨_, _, _, _, rfl, ?_⟩
      rw [answered_events]
      simp only [recount, reports_append, hreports, consult_session]
      rfl

theorem opensTo_length_le {sess : JoinerSession} {ms : List HandshakeMessage}
    (h : OpensTo r sess ms) : ms.length ≤ 65535 := by
  obtain ⟨-, -, plain, plainRec, -, hnew, hparse⟩ := h
  obtain ⟨htype, -, -, -, hlen⟩ := DtlsRecord.new_eq_ok hnew
  rw [parseUnfragmentedHandshakeMessages, if_neg (not_not.mpr htype)] at hparse
  have hle := Framer.length_of_all hparse
  have hlt := plainRec.header.length.toNat_lt
  omega

/-- What one item may use of the counter of protected records: a full record
of Finished messages. -/
def itemRoom : ℕ := 65536

theorem Twin.item {item : Item} (h : Twin s s') (hrun : (handleItem item).run s = .ok () t)
    (hroom : s'.session.epoch1Sequence.toNat + itemRoom ≤ 2 ^ 48) : ∃ t', (handleItem item).run s' = .ok () t' ∧ Twin t t' ∧
      t'.session.epoch1Sequence.toNat ≤ s'.session.epoch1Sequence.toNat + itemRoom := by
  rw [itemRoom] at hroom ⊢
  cases item with
  | malformed error => cases hrun
  | message message =>
    obtain ⟨t', hstep, htwin⟩ := h.plaintext (handlePlaintextHandshake_eq_ok.mp hrun)
    refine ⟨t', handlePlaintextHandshake_eq_ok.mpr hstep, htwin, ?_⟩
    cases hstep <;> exact Nat.le_add_right _ _
  | encrypted r =>
    rcases handleEncryptedHandshake_eq_ok.mp hrun with ⟨hphase, rfl⟩ | ⟨messages, hopens, hms⟩
    · have hphase' : s'.session.phase ≠ .awaitingClientFlight := by
        obtain ⟨epoch0, epoch1, flight, evs, rfl, -⟩ := h
        exact hphase
      exact ⟨s', handleEncryptedHandshake_eq_ok.mpr (.inl ⟨hphase', rfl⟩), h, Nat.le_add_right _ _⟩
    · have hopens' : OpensTo r s'.session messages := by
        obtain ⟨epoch0, epoch1, flight, evs, rfl, -⟩ := h
        exact hopens
      have hlen := opensTo_length_le hopens
      obtain ⟨t', hmessages', htwin, hle⟩ := h.confirms hms (by omega)
      exact ⟨t', handleEncryptedHandshake_eq_ok.mpr (.inr ⟨messages, hopens', hmessages'⟩), htwin, by omega⟩
  | changeCipherSpec r =>
    obtain ⟨_, hpayload, hrun⟩ := lift_bind_ok.mp hrun
    cases hrun
    obtain ⟨epoch0, epoch1, flight, evs, rfl, hreports⟩ := h
    refine ⟨_, lift_bind_ok.mpr ⟨(), hpayload, rfl⟩, ⟨_, _, _, _, rfl, hreports⟩, Nat.le_add_right _ _⟩
  | application r =>
    obtain ⟨t', hstep, htwin⟩ := h.application (handleApplicationData_eq_ok.mp hrun) (by omega)
    refine ⟨t', handleApplicationData_eq_ok.mpr hstep, htwin, ?_⟩
    cases hstep with
    | ignored => exact Nat.le_add_right _ _
    | @answered _ _ _ info =>
      have hle := toNat_succ_le (consult s' info).2.session.epoch1Sequence
      have hsame : (consult s' info).2.session.epoch1Sequence = s'.session.epoch1Sequence := by rw [consult_session]
      rw [hsame] at hle
      change ((consult s' info).2.session.epoch1Sequence + 1).toNat ≤ _
      rw [hsame]
      omega
  | alert r => cases hrun
  | ignored r =>
    cases hrun
    exact ⟨s', rfl, h, Nat.le_add_right _ _⟩

end Twins

section Copies

theorem established_of_rank {phase : JoinerSessionPhase} (h : 2 ≤ rank phase) : phase = .connected ∨ phase = .finalized := by
  cases phase with
  | awaitingClientHello => exact absurd h (by decide)
  | awaitingClientFlight => exact absurd h (by decide)
  | connected => exact .inl rfl
  | finalized => exact .inr rfl

theorem rank_injective {phase phase' : JoinerSessionPhase} (h : rank phase = rank phase') : phase = phase' := by
  cases phase <;> cases phase' <;> first | rfl | cases h

theorem rank_le (phase : JoinerSessionPhase) : rank phase ≤ 3 := by cases phase <;> decide

variable [Suite]

/-- What a session remembers of an application data record it has handled:
it would handle it the same way again, with the decision it has taken. -/
inductive Remembers (session : JoinerSession) (record : DtlsRecord) : Prop
  | ignored {plaintext : Bytes} {request : CoapMessage} {path : Option Text} (hphase : 2 ≤ rank session.phase)
      (hopen : session.openRecord record = .ok plaintext) (hdecode : CoapMessage.decode plaintext = .ok request)
      (hpath : request.uriPath = .ok path) (hother : path ≠ some Uri.joinFin)
  | answered {plaintext payload : Bytes} {request : CoapMessage} {info : JoinerFinalizeInfo} {accepted : Bool}
      {keyMaterial : ThreadDtlsKeyMaterial} (hphase : session.phase = .finalized)
      (hopen : session.openRecord record = .ok plaintext) (hdecode : CoapMessage.decode plaintext = .ok request)
      (hpath : request.uriPath = .ok (some Uri.joinFin)) (hinfo : parseJoinFin request = .ok info)
      (hkeys : session.keyMaterial = some keyMaterial) (hdecision : session.finalizeDecision = some accepted)
      (hencode : (joinFinResponse request accepted).encode = .ok payload) (hlength : payload.length + 16 ≤ 65535)

/-- What holds of an item from the moment it has been handled. -/
def Seen (session : JoinerSession) : Item → Prop
  | .malformed _ => False
  | .message message => session.phase = .awaitingClientHello →
      ∃ hello, ClientHello.decode message.payload = .ok hello ∧ session.cookie.verify hello.random hello.cookie = false
  | .encrypted _ => True
  | .changeCipherSpec record => record.payload = [1] ∧ session.sawClientChangeCipherSpec = true
  | .application record => Remembers session record
  | .alert _ => False
  | .ignored _ => True

/-- The items a session can take a second time: a ClientHello until the key
exchange is over, a Finished once it is. -/
def Harmless (session : JoinerSession) : Item → Prop
  | .message message => message.messageType = .clientHello ∧
      (session.phase = .awaitingClientHello ∨ session.phase = .awaitingClientFlight)
  | .encrypted _ => session.phase ≠ .awaitingClientFlight
  | _ => True

/-- What a session never takes back. -/
structure Kept (session session' : JoinerSession) : Prop where
  phase : rank session.phase ≤ rank session'.phase
  cookie : session'.cookie = session.cookie
  saw : session.sawClientChangeCipherSpec = true → session'.sawClientChangeCipherSpec = true
  keys : 2 ≤ rank session.phase → session'.keyMaterial = session.keyMaterial
  decision : ∀ {accepted}, session.finalizeDecision = some accepted → session'.finalizeDecision = some accepted

variable {H : Type} {s s' t : Feed H}

theorem Twin.trans (h : Twin s s') (h' : Twin s' t) : Twin s t := by
  obtain ⟨epoch0, epoch1, flight, evs, rfl, hreports⟩ := h
  obtain ⟨epoch0', epoch1', flight', events', rfl, hreports'⟩ := h'
  exact ⟨epoch0', epoch1', flight', events', rfl, hreports'.trans hreports⟩

theorem answer_again (hphase : s.session.phase = .finalized) (info : JoinerFinalizeInfo) (acc : Bool)
    (resp : DtlsRecord) : answer s info acc resp =
      ⟨recount s.session s.session.epoch0Sequence (s.session.epoch1Sequence + 1) s.session.serverFlight, s.handler,
        s.rng, s.events ++ [.transmit resp.bytes acc]⟩ := by
  rw [answer, recount, hphase, if_pos rfl]

variable [JoinerHandler H] {item : Item}

theorem move_kept (h : Move s item t) : Kept s.session t.session := by
  have hrank := move_rank h
  have hdecided : ∀ {accepted}, s.session.finalizeDecision = some accepted →
      t.session.finalizeDecision = some accepted := fun hs => h.decided hs
  cases h with
  | quiet hquiet =>
    obtain ⟨handshake, epoch0, rng, -, rfl⟩ := hquiet
    exact ⟨hrank, rfl, id, fun _ => rfl, hdecided⟩
  | plaintext hstep =>
    cases hstep with
    | challenged => exact ⟨hrank, rfl, id, fun _ => rfl, hdecided⟩
    | accepted => exact ⟨hrank, rfl, id, fun _ => rfl, hdecided⟩
    | repeated => exact ⟨hrank, rfl, id, fun _ => rfl, hdecided⟩
    | exchanged htype hphase =>
      refine ⟨hrank, rfl, id, fun hlate => ?_, hdecided⟩
      rw [hphase] at hlate
      exact absurd hlate (by decide)
  | confirmed hopens hconfirms =>
    have hframe := hconfirms.frame
    exact ⟨hrank, hframe.cookie, fun hsaw => hframe.sawClientChangeCipherSpec.trans hsaw,
      fun _ => hframe.keyMaterial, hdecided⟩
  | cipherSpec hpayload => exact ⟨hrank, rfl, fun _ => rfl, fun _ => rfl, hdecided⟩
  | consulted info =>
    refine ⟨hrank, ?_, ?_, ?_, hdecided⟩ <;> rw [consult_session]
    · exact id
    · exact fun _ => rfl
  | application hstep =>
    cases hstep with
    | ignored => exact ⟨hrank, rfl, id, fun _ => rfl, hdecided⟩
    | @answered _ _ _ info =>
      have hconsult := consult_session s info
      refine ⟨hrank, ?_, ?_, ?_, hdecided⟩ <;> dsimp only [answer] <;> rw [hconsult]
      · exact id
      · exact fun _ => rfl

variable {sess session' : JoinerSession}

theorem Remembers.kept {record : DtlsRecord} (h : Remembers sess record) (hkept : Kept sess session') :
    Remembers session' record := by
  have hopens : 2 ≤ rank sess.phase → session'.openRecord record = sess.openRecord record := fun hlate => by
    rw [JoinerSession.openRecord, JoinerSession.openRecord, JoinerSession.keyMaterialRequired,
      JoinerSession.keyMaterialRequired, hkept.keys hlate]
  cases h with
  | ignored hphase hopen hdecode hpath hother =>
    exact .ignored (hphase.trans hkept.phase) ((hopens hphase).trans hopen) hdecode hpath hother
  | answered hphase hopen hdecode hpath hinfo hkeys hdecision hencode hlen =>
    have hlate : 2 ≤ rank sess.phase := by
      rw [hphase]
      decide
    have hphase' : session'.phase = .finalized := by
      have hrank := hkept.phase
      rw [hphase] at hrank
      exact rank_injective (le_antisymm (rank_le _) hrank)
    exact .answered hphase' ((hopens hlate).trans hopen) hdecode hpath hinfo ((hkept.keys hlate).trans hkeys)
      (hkept.decision hdecision) hencode hlen

theorem Seen.kept (h : Seen sess item) (hkept : Kept sess session') : Seen session' item := by
  cases item with
  | malformed error => exact h
  | message message =>
    intro hphase
    have hrank := hkept.phase
    rw [hphase] at hrank
    rw [hkept.cookie]
    exact h (rank_injective (Nat.le_zero.mp hrank))
  | encrypted record => exact h
  | changeCipherSpec record => exact ⟨h.1, hkept.saw h.2⟩
  | application record => exact Remembers.kept h hkept
  | alert record => exact h
  | ignored record => exact h

theorem seen_of_handled (h : (handleItem item).run s = .ok () t) : Seen t.session item := by
  cases item with
  | malformed error => cases h
  | message message =>
    intro hphase
    cases handlePlaintextHandshake_eq_ok.mp h with
    | challenged htype hfirst hdec hverify => exact ⟨_, hdec, hverify⟩
    | accepted => cases hphase
    | repeated htype hfirst => cases hfirst.symm.trans hphase
    | exchanged htype hfirst => cases hfirst.symm.trans hphase
  | encrypted record => trivial
  | changeCipherSpec record =>
    obtain ⟨_, hpayload, hrun⟩ := lift_bind_ok.mp h
    cases hrun
    exact ⟨ensure_eq_ok.mp hpayload, rfl⟩
  | application record =>
    cases handleApplicationData_eq_ok.mp h with
    | ignored hphase hopen hdec hpath hother =>
      refine .ignored ?_ hopen hdec hpath hother
      rcases hphase with hphase | hphase <;> rw [hphase] <;> decide
    | @answered _ _ _ info _ resp hphase hopen hdec hpath hinfo hkeys henc hprot =>
      obtain ⟨-, hlen, -⟩ := protect_eq_ok.mp hprot
      have hkeys' : (consult s info).2.session.keyMaterial = s.session.keyMaterial := by rw [consult_session]
      have hopen' : (answer (consult s info).2 info (consult s info).1 resp).session.openRecord record =
          s.session.openRecord record := by
        rw [JoinerSession.openRecord, JoinerSession.openRecord, JoinerSession.keyMaterialRequired,
          JoinerSession.keyMaterialRequired]
        simp only [answer, hkeys']
      exact .answered rfl (hopen'.trans hopen) hdec hpath hinfo (hkeys'.trans hkeys) (consult_decision s info)
        henc hlen
  | alert record => cases h
  | ignored record => trivial

theorem exists_copied (hseen : Seen s.session item) (hharmless : Harmless s.session item)
    (hroom : s.session.epoch1Sequence.toNat < 2 ^ 48) : ∃ t, (handleItem item).run s = .ok () t ∧ Twin s t ∧
      t.session.epoch1Sequence.toNat ≤ s.session.epoch1Sequence.toNat + 1 := by
  cases item with
  | malformed error => exact hseen.elim
  | message message =>
    obtain ⟨htype, hphase | hphase⟩ := hharmless
    · obtain ⟨hello, hdec, hverify⟩ := hseen hphase
      refine ⟨_, handlePlaintextHandshake_eq_ok.mpr (.challenged htype hphase hdec hverify), ?_, Nat.le_succ _⟩
      refine ⟨_, _, _, _, rfl, ?_⟩
      simp only [countPlaintext, reports_append]
      exact append_nil _
    · refine ⟨_, handlePlaintextHandshake_eq_ok.mpr (.repeated htype hphase), ?_, Nat.le_succ _⟩
      refine ⟨_, _, _, _, rfl, ?_⟩
      simp only [reports_append]
      exact append_nil _
  | encrypted record =>
    exact ⟨s, handleEncryptedHandshake_eq_ok.mpr (.inl ⟨hharmless, rfl⟩), .refl s, Nat.le_succ _⟩
  | changeCipherSpec record =>
    obtain ⟨hpayload, hsaw⟩ := hseen
    have hrun : (handleItem (.changeCipherSpec record)).run s =
        .ok () { s with session := { s.session with sawClientChangeCipherSpec := true } } :=
      lift_bind_ok.mpr ⟨(), ensure_eq_ok.mpr hpayload, rfl⟩
    rw [← hsaw] at hrun
    exact ⟨s, hrun, .refl s, Nat.le_succ _⟩
  | application record =>
    cases hseen with
    | ignored hphase hopen hdec hpath hother =>
      exact ⟨s, handleApplicationData_eq_ok.mpr (.ignored (established_of_rank hphase) hopen hdec hpath hother),
        .refl s, Nat.le_succ _⟩
    | @answered plain payload req info acc keys hphase hopen hdec hpath hinfo hkeys hdecision
        hencode hlen =>
        have hconsult := consult_of_decided hdecision info
        obtain ⟨cipher, hprot⟩ : ∃ cipher, protectAes128Ccm8Record .applicationData 1
            s.session.epoch1Sequence keys.keyBlock.serverWriteKey keys.keyBlock.serverWriteIv payload =
              .ok (protectedRecord .applicationData 1 s.session.epoch1Sequence cipher) := exists_protect _ _ hroom hlen
        refine ⟨_, handleApplicationData_eq_ok.mpr (.answered (.inr hphase) hopen hdec hpath hinfo hkeys
          (by rw [hconsult]; exact hencode) hprot), ?_, ?_⟩
        · rw [hconsult, answer_again hphase]
          refine ⟨_, _, _, _, rfl, ?_⟩
          rw [reports_append]
          exact append_nil _
        · rw [hconsult]
          exact toNat_succ_le _
  | alert record => exact hseen.elim
  | ignored record => exact ⟨s, rfl, .refl s, Nat.le_succ _⟩

/-- A call in progress and its twin, with the items the twin has seen and how
many more it has room for. -/
structure Tracks (seen : List Item) (items : ℕ) (s s' : Feed H) : Prop where
  twin : Twin s s'
  seen : ∀ item ∈ seen, Seen s'.session item
  room : s'.session.epoch1Sequence.toNat + itemRoom * items ≤ 2 ^ 48

variable {seen : List Item} {count : ℕ}

theorem Tracks.original (h : Tracks seen (count + 1) s s') (hrun : (handleItem item).run s = .ok () t) :
    ∃ t', (handleItem item).run s' = .ok () t' ∧ Tracks (seen ++ [item]) count t t' := by
  have hroom := h.room
  rw [Nat.mul_add_one] at hroom
  obtain ⟨t', hrun', htwin, hle⟩ := h.twin.item hrun (by omega)
  refine ⟨t', hrun', htwin, fun other hother => ?_, by omega⟩
  rcases mem_append.mp hother with hother | hother
  · exact (h.seen other hother).kept (move_kept (move_of_ok hrun'))
  · rw [mem_singleton.mp hother]
    exact seen_of_handled hrun'

theorem Tracks.copy (h : Tracks seen (count + 1) s s') (hseen : item ∈ seen) (hharmless : Harmless s'.session item) :
    ∃ t', (handleItem item).run s' = .ok () t' ∧ Tracks seen count s t' ∧ t'.session.phase = s'.session.phase := by
  have hroom := h.room
  rw [Nat.mul_add_one, itemRoom] at hroom
  obtain ⟨t', hrun', htwin, hle⟩ := exists_copied (h.seen item hseen) hharmless (by omega)
  refine ⟨t', hrun', ⟨h.twin.trans htwin, fun other hother => ?_, by rw [itemRoom]; omega⟩, ?_⟩
  · exact (h.seen other hother).kept (move_kept (move_of_ok hrun'))
  · obtain ⟨epoch0, epoch1, flight, evs, rfl, -⟩ := htwin
    rfl

theorem Tracks.originals {items : List Item} (h : Tracks seen (count + items.length) s s')
    (hrun : (items.forM handleItem).run s = .ok () t) :
    ∃ t', (items.forM handleItem).run s' = .ok () t' ∧ Tracks (seen ++ items) count t t' := by
  induction items generalizing seen s s' with
  | nil =>
    cases hrun
    rw [append_nil]
    exact ⟨s', rfl, h⟩
  | cons item items ih =>
    obtain ⟨_, u, hfirst, hrest⟩ := bind_eq_ok.mp hrun
    obtain ⟨u', hfirst', htracks⟩ := Tracks.original h hfirst
    obtain ⟨t', hrest', htracks'⟩ := ih htracks hrest
    rw [append_assoc] at htracks'
    exact ⟨t', bind_eq_ok.mpr ⟨(), u', hfirst', hrest'⟩, htracks'⟩

theorem Harmless.of_phase (h : Harmless sess item) (hphase : session'.phase = sess.phase) : Harmless session' item := by
  cases item with
  | message message => exact ⟨h.1, hphase ▸ h.2⟩
  | encrypted record => exact fun hflight => h (hphase.symm.trans hflight)
  | malformed error => trivial
  | changeCipherSpec record => trivial
  | application record => trivial
  | alert record => trivial
  | ignored record => trivial

theorem Tracks.copies {items : List Item} (h : Tracks seen (count + items.length) s s')
    (hitems : ∀ item ∈ items, item ∈ seen ∧ Harmless s'.session item) :
    ∃ t', (items.forM handleItem).run s' = .ok () t' ∧ Tracks seen count s t' := by
  induction items generalizing s' with
  | nil => exact ⟨s', rfl, h⟩
  | cons item items ih =>
    obtain ⟨⟨hseen, hharmless⟩, hrest⟩ := forall_mem_cons.mp hitems
    obtain ⟨u', hfirst', htracks, hphase⟩ := Tracks.copy h hseen hharmless
    obtain ⟨t', hrest', htracks'⟩ := ih htracks fun other hother =>
      ⟨(hrest other hother).1, Harmless.of_phase (hrest other hother).2 hphase⟩
    exact ⟨t', bind_eq_ok.mpr ⟨(), u', hfirst', hrest'⟩, htracks'⟩

end Copies

section Runs

theorem emitted_ok (events : List JoinerSessionEvent) : emitted [.ok events] = events := append_nil events

variable [Suite] {H : Type}

variable {s s' t : Feed H} {party party' : Party H} {sent : List Bytes} {count : ℕ}

theorem Tracks.restart {seen : List Item} (h : Tracks seen count s s') : Tracks seen count s.party.feed s'.party.feed := by
  obtain ⟨⟨epoch0, epoch1, flight, evs, rfl, hreports⟩, hseen, hroom⟩ := h
  exact ⟨⟨_, _, _, _, rfl, rfl⟩, hseen, hroom⟩

theorem Twin.reports_eq (h : Twin s s') : reports s'.events = reports s.events := by
  obtain ⟨epoch0, epoch1, flight, evs, rfl, hreports⟩ := h
  exact hreports

variable [JoinerHandler H]

/-- A datagram of the joiner, or a copy of an earlier one. -/
inductive Input
  | original (datagram : Bytes)
  | copy (datagram : Bytes)

def Input.datagram : Input → Bytes
  | .original datagram => datagram
  | .copy datagram => datagram

def originals : List Input → List Bytes
  | [] => []
  | .original datagram :: inputs => datagram :: originals inputs
  | .copy _ :: inputs => originals inputs

def Repeats (sent : List Bytes) : List Input → Prop
  | [] => True
  | .original datagram :: inputs => Repeats (sent ++ [datagram]) inputs
  | .copy datagram :: inputs => datagram ∈ sent ∧ Repeats sent inputs

/-- Every copy finds the session able to take its items a second time. -/
def HarmlessCopies : Party H → List Input → Prop
  | _, [] => True
  | party, .original datagram :: inputs => HarmlessCopies (finalState ((receive datagram).run party)) inputs
  | party, .copy datagram :: inputs =>
    (∀ item ∈ datagramItems datagram, Harmless party.session item) ∧
      HarmlessCopies (finalState ((receive datagram).run party)) inputs

def itemCount (inputs : List Input) : ℕ := (inputs.map fun input => (datagramItems input.datagram).length).sum

theorem tracks_run {inputs : List Input}
    (h : Tracks (sent.flatMap datagramItems) (itemCount inputs) party.feed party'.feed) (hrepeats : Repeats sent inputs)
    (hharmless : HarmlessCopies party' inputs)
    (hok : ∀ outcome ∈ (runAll receive (originals inputs) party).2, outcome.isOk = true) :
    (∀ outcome ∈ (runAll receive (inputs.map Input.datagram) party').2, outcome.isOk = true) ∧
      Twin (runAll receive (originals inputs) party).1.feed (runAll receive (inputs.map Input.datagram) party').1.feed ∧
      reports (emitted (runAll receive (inputs.map Input.datagram) party').2) =
        reports (emitted (runAll receive (originals inputs) party).2) := by
  induction inputs generalizing sent party party' with
  | nil => exact ⟨fun _ hmem => (nomatch hmem), h.twin, rfl⟩
  | cons input inputs ih =>
    have hcount : itemCount (input :: inputs) = itemCount inputs + (datagramItems input.datagram).length := by
      rw [itemCount, map_cons, sum_cons, Nat.add_comm]
      rfl
    rw [hcount] at h
    cases input with
    | original datagram =>
      change Tracks _ (itemCount inputs + (datagramItems datagram).length) _ _ at h
      obtain ⟨hfirst, hrest⟩ := forall_mem_cons.mp hok
      obtain ⟨t, hrun⟩ := forM_of_receive_isOk hfirst
      obtain ⟨t', hrun', htracks⟩ := h.originals hrun
      rw [receive_of_forM hrun] at hrest
      rw [HarmlessCopies, receive_of_forM hrun'] at hharmless
      have hsent : (sent ++ [datagram]).flatMap datagramItems =
          sent.flatMap datagramItems ++ datagramItems datagram := by simp
      obtain ⟨hall, htwin, hreports⟩ := ih (hsent ▸ htracks.restart) hrepeats hharmless hrest
      rw [originals, map_cons, runAll, runAll, Input.datagram, receive_of_forM hrun, receive_of_forM hrun']
      refine ⟨forall_mem_cons.mpr ⟨rfl, hall⟩, htwin, ?_⟩
      dsimp only [outcome, finalState] at hreports ⊢
      rw [emitted_cons, emitted_cons (.ok t.events), reports_append, reports_append, emitted_ok, emitted_ok,
        htracks.twin.reports_eq, hreports]
    | copy datagram =>
      change Tracks _ (itemCount inputs + (datagramItems datagram).length) _ _ at h
      obtain ⟨hmem, hrepeats⟩ := hrepeats
      obtain ⟨hitems, hharmless⟩ := hharmless
      obtain ⟨t', hrun', htracks⟩ := h.copies fun item hitem =>
        ⟨mem_flatMap.mpr ⟨datagram, hmem, hitem⟩, hitems item hitem⟩
      rw [receive_of_forM hrun'] at hharmless
      obtain ⟨hall, htwin, hreports⟩ := ih htracks.restart hrepeats hharmless hok
      rw [originals, map_cons, runAll, Input.datagram, receive_of_forM hrun']
      refine ⟨forall_mem_cons.mpr ⟨rfl, hall⟩, htwin, ?_⟩
      dsimp only [outcome, finalState] at hreports ⊢
      rw [emitted_cons, reports_append, emitted_ok, htracks.twin.reports_eq]
      exact hreports

/-- A joiner that repeats itself. If the session takes all datagrams of a run,
it takes them also with copies among them that find it able to, and ends in
the same phase, with the same keys, and with the same reports. -/
theorem copies_are_tolerated (joinerIid : ByteVector 8) (joinerUdpPort joinerRouterLocator : UInt16) (pskd : Text)
    (now : ℕ) (rng rng' : Rng) (handler : H) (inputs : List Input) (start : Party H)
    (hstart : start = freshParty joinerIid joinerUdpPort joinerRouterLocator pskd now rng rng' handler)
    (hok : ∀ outcome ∈ (runAll receive (originals inputs) start).2, outcome.isOk = true) (hrepeats : Repeats [] inputs)
    (hharmless : HarmlessCopies start inputs) (hroom : itemCount inputs ≤ 2 ^ 32) :
    let base := runAll receive (originals inputs) start
    let run := runAll receive (inputs.map Input.datagram) start
    (∀ outcome ∈ run.2, outcome.isOk = true) ∧ run.1.session.phase = base.1.session.phase ∧
      run.1.session.keyMaterial = base.1.session.keyMaterial ∧
      run.1.session.finalizeDecision = base.1.session.finalizeDecision ∧
      reports (emitted run.2) = reports (emitted base.2) := by
  intro base run
  have hcounter : start.session.epoch1Sequence = 0 := by
    rw [hstart]
    rfl
  have htracks : Tracks (([] : List Bytes).flatMap datagramItems) (itemCount inputs) start.feed start.feed := by
    refine ⟨.refl _, fun _ hmem => (nomatch hmem), ?_⟩
    change start.session.epoch1Sequence.toNat + _ ≤ _
    rw [hcounter, itemRoom]
    change 0 + _ ≤ _
    omega
  obtain ⟨hall, htwin, hreports⟩ := tracks_run htracks hrepeats hharmless hok
  obtain ⟨epoch0, epoch1, flight, events, hfeed, -⟩ := htwin
  have hsession : run.1.session = recount base.1.session epoch0 epoch1 flight := congrArg Feed.session hfeed
  rw [hsession]
  exact ⟨hall, rfl, rfl, rfl, hreports⟩

theorem receive_refuses {dgram : Bytes} {m : HandshakeMessage} {rest : List Item}
    (hitems : datagramItems dgram = .message m :: rest) (hphase : 2 ≤ rank party.session.phase) :
    (outcome ((receive dgram).run party)).isOk = false := by
  rw [Bool.eq_false_iff]
  intro hok
  obtain ⟨t, hrun⟩ := forM_of_receive_isOk hok
  rw [hitems] at hrun
  obtain ⟨_, u, hfirst, -⟩ := bind_eq_ok.mp hrun
  have hearly : rank party.feed.session.phase < 2 := by
    cases handlePlaintextHandshake_eq_ok.mp hfirst with
    | challenged htype hother => rw [hother]; decide
    | accepted htype hother => rw [hother]; decide
    | repeated htype hother => rw [hother]; decide
    | exchanged htype hother => rw [hother]; decide
  exact absurd hphase (Nat.not_le.mpr hearly)

end Runs

section Honest

variable [Suite] {d : Draws} {secret : Bytes}

theorem handshake_items (k : Sealed d) (h : Ready d secret) :
    k.handshake.map (fun dgram => (datagramItems dgram).length) = [1, 1, 3] := by
  have hempty : ([] : Bytes).length ≤ 255 := Nat.zero_le _
  have hfirst := h.pair.honestClient.helloMessage_short hempty 0
  have hsecond : d.hello.Short := h.pair.honestClient.helloMessage_short Draws.cookie_le 1
  rw [Sealed.handshake, Sealed.keyFlight, map_cons, map_cons, map_singleton,
    datagramItems_message hfirst (by decide), datagramItems_message hsecond (by decide), Ready.flight_items h k.protectClient]
  rfl

variable {H : Type} [JoinerHandler H] {base : JoinerSession}

theorem exists_joined (k : Sealed d) (h : Ready d secret) (hb : Fresh d base) {acc : Bool} {handler handler' : H}
    (hdecide : JoinerHandler.onJoinerFinalize handler base.joinerId exampleJoinFin.info = (acc, handler')) :
    ∃ req run, SealsJoinFin k.keys 1 exampleJoinFin req ∧
      runAll receive (k.handshake ++ [datagramOf [req]]) (⟨base, handler, d.serverRng⟩ : Party H) = run ∧
      (∀ outcome ∈ run.2, outcome.isOk = true) ∧ run.1.session.phase = .finalized ∧
      reports (emitted run.2) = [.connected, .finalized acc exampleJoinFin.info] := by
  obtain ⟨req, hreq⟩ := exists_sealsJoinFin k.keys exampleJoinFin (by decide)
  obtain ⟨resp, hresp⟩ := exists_sealsAnswer k.keys exampleJoinFin acc
  have hjoin := k.receive_joinFin hb hreq hresp handler hdecide
  refine ⟨req, _, hreq, rfl, ?_⟩
  rw [runAll_append, k.runAll_handshake h hb handler, runAll, hjoin]
  refine ⟨fun outcome houtcome => ?_, rfl, rfl⟩
  simp only [runAll, cons_append, nil_append, mem_cons, not_mem_nil, or_false] at houtcome
  rcases houtcome with rfl | rfl | rfl | rfl <;> rfl

end Honest

section Witness

attribute [local instance] residues

theorem decided_new : JoinerHandler.onJoinerFinalize StaticJoinerHandler.new residueSession.joinerId exampleJoinFin.info =
    (true, .new) := rfl

/-- The last datagram of a joiner that has completed, again. -/
theorem copies_are_tolerated_residues :
    ∃ (datagrams : List Bytes) (request : Bytes) (inputs : List Input) (start : Party StaticJoinerHandler),
      start = freshParty (List.Vector.replicate 8 0) 1000 0x0400 residuePskd 0 (residueRng []) (residueRng []) .new ∧
      inputs = datagrams.map .original ++ [.original request, .copy request] ∧
      (∀ outcome ∈ (runAll receive (originals inputs) start).2, outcome.isOk = true) ∧
      (∀ outcome ∈ (runAll receive (inputs.map Input.datagram) start).2, outcome.isOk = true) ∧
      (runAll receive (inputs.map Input.datagram) start).1.session.phase = .finalized ∧
      reports (emitted (runAll receive (inputs.map Input.datagram) start).2) =
        [.connected, .finalized true exampleJoinFin.info] := by
  obtain ⟨k⟩ := Ready.nonempty_sealed residueDraws_ready
  obtain ⟨request, run, hrequest, hrun, hok, hphase, hreports⟩ :=
    exists_joined k residueDraws_ready residueSession_fresh decided_new
  let start : Party StaticJoinerHandler :=
    freshParty (List.Vector.replicate 8 0) 1000 0x0400 residuePskd 0 (residueRng []) (residueRng []) .new
  let inputs : List Input := k.handshake.map .original ++ [.original (datagramOf [request]), .copy (datagramOf [request])]
  have hbase : runAll receive (originals inputs) start = run := hrun
  rw [← hbase] at hok hphase hreports
  have hrepeats : Repeats [] inputs := ⟨mem_append_right _ (mem_singleton_self _), trivial⟩
  have hharmless : HarmlessCopies start inputs := by
    refine ⟨?_, trivial⟩
    rw [joinFin_items hrequest]
    intro item hitem
    rw [mem_singleton.mp hitem]
    trivial
  have hroom : itemCount inputs ≤ 2 ^ 32 := by
    have hitems := handshake_items k residueDraws_ready
    have hlast : (datagramItems (datagramOf [request])).length = 1 := by rw [joinFin_items hrequest]; rfl
    rw [itemCount, map_append, map_map, sum_append]
    change (k.handshake.map fun datagram => (datagramItems datagram).length).sum +
      [(datagramItems (datagramOf [request])).length, (datagramItems (datagramOf [request])).length].sum ≤ _
    rw [hitems, hlast]
    decide
  obtain ⟨hall, hphase', -, -, hreports'⟩ := copies_are_tolerated (List.Vector.replicate 8 0) 1000 0x0400 residuePskd 0
    (residueRng []) (residueRng []) .new inputs start rfl hok hrepeats hharmless hroom
  exact ⟨_, _, inputs, start, rfl, rfl, hok, hall, hphase'.trans hphase, hreports'.trans hreports⟩

/-- The flight that carries the Finished of an honest joiner, again: the
session is connected and refuses it. -/
theorem copy_of_flight_fails_residues :
    ∃ (inputs : List Input) (start : Party StaticJoinerHandler),
      start = freshParty (List.Vector.replicate 8 0) 1000 0x0400 residuePskd 0 (residueRng []) (residueRng []) .new ∧
      Repeats [] inputs ∧ (∀ outcome ∈ (runAll receive (originals inputs) start).2, outcome.isOk = true) ∧
      (runAll receive (originals inputs) start).1.session.phase = .finalized ∧
      reports (emitted (runAll receive (originals inputs) start).2) = [.connected, .finalized true exampleJoinFin.info] ∧
      ∃ outcome ∈ (runAll receive (inputs.map Input.datagram) start).2, outcome.isOk = false := by
  obtain ⟨k⟩ := Ready.nonempty_sealed residueDraws_ready
  obtain ⟨request, run, hrequest, hrun, hok, hphase, hreports⟩ :=
    exists_joined k residueDraws_ready residueSession_fresh decided_new
  let start : Party StaticJoinerHandler :=
    freshParty (List.Vector.replicate 8 0) 1000 0x0400 residuePskd 0 (residueRng []) (residueRng []) .new
  let inputs : List Input := k.handshake.map .original ++ [.copy k.keyFlight, .original (datagramOf [request])]
  have hbase : runAll receive (originals inputs) start = run := hrun
  rw [← hbase] at hok hphase hreports
  have hshaken := k.runAll_handshake residueDraws_ready residueSession_fresh StaticJoinerHandler.new
  have hrefused : (outcome ((receive k.keyFlight).run (k.connected residueSession StaticJoinerHandler.new))).isOk =
      false := receive_refuses (Ready.flight_items residueDraws_ready k.protectClient) le_rfl
  refine ⟨inputs, start, rfl, ⟨mem_append_right _ (mem_singleton_self _), trivial⟩, hok, hphase, hreports, ?_⟩
  change ∃ outcome ∈ (runAll receive (k.handshake ++ [k.keyFlight, datagramOf [request]]) start).2, outcome.isOk = false
  rw [runAll_append, show runAll receive k.handshake start = _ from hshaken]
  exact ⟨_, mem_append_right _ mem_cons_self, hrefused⟩

end Witness

end ThreadCommissioner.Retransmissions
