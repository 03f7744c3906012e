import ThreadCommissioner.JoinerRuns
import ThreadCommissioner.Nonces

namespace ThreadCommissioner.Decisions

open ByteStrings Computations HandshakeMessages JoinerRuns JoinerSessions JoinerSteps KekGate List
open KeySchedule Nonces Primitives RecordProtection Records Texts

section Recording

variable {H : Type}

/-- A handler that keeps the decisions it has taken. -/
structure Recorded (H : Type) where
  handler : H
  decisions : List Bool

instance [JoinerHandler H] : JoinerHandler (Recorded H) where
  joinerPskd recorded joinerId :=
    let (pskd, handler) := JoinerHandler.joinerPskd recorded.handler joinerId
    (pskd, { recorded with handler })
  onJoinerConnected recorded joinerId :=
    { recorded with handler := JoinerHandler.onJoinerConnected recorded.handler joinerId }
  onJoinerFinalize recorded joinerId info :=
    let (accepted, handler) := JoinerHandler.onJoinerFinalize recorded.handler joinerId info
    (accepted, ⟨handler, recorded.decisions ++ [accepted]⟩)

end Recording

section Phases

def rank : JoinerSessionPhase → ℕ
  | .awaitingClientHello => 0
  | .awaitingClientFlight => 1
  | .connected => 2
  | .finalized => 3

variable [Suite] {H : Type} [JoinerHandler H] {s t : Feed H} {item : Item}

theorem move_rank (h : Move s item t) : rank s.session.phase ≤ rank t.session.phase := by
  cases h with
  | quiet hquiet =>
    obtain ⟨hs, epoch0, rng, -, rfl⟩ := hquiet
    exact le_rfl
  | plaintext hstep =>
    cases hstep with
    | accepted htype hphase =>
      rw [hphase]
      exact Nat.zero_le _
    | challenged => exact le_rfl
    | repeated => exact le_rfl
    | exchanged => exact le_rfl
  | confirmed hopens hconfirms =>
    rcases hconfirms.frame.phase with hphase | hphase
    · rw [hphase]
    · rw [hphase, hopens.1]
      decide
  | cipherSpec hpayload => exact le_rfl
  | consulted info => rw [consult_session]
  | application hstep =>
    cases hstep with
    | ignored => exact le_rfl
    | answered hphase =>
      change _ ≤ rank .finalized
      rcases hphase with hphase | hphase
      · rw [hphase]
        decide
      · rw [hphase]

theorem receive_rank (dgram : Bytes) (party : Party H) :
    rank party.session.phase ≤ rank (finalState ((receive dgram).run party)).session.phase := by
  have hrun := rounds_induction (P := fun (_ : List (Visit H)) (t : Feed H) => rank party.session.phase ≤ rank t.session.phase)
    (fun _ item s hs => hs.trans (move_rank (handleItem_move item s))) []
    (show rank party.session.phase ≤ rank party.feed.session.phase from le_rfl) (datagramItems dgram)
  rw [finalState_receive]
  exact hrun

theorem move_finalized (h : Move s item t) (hphase : s.session.phase = .finalized) :
    t.session.phase = .finalized ∧ t.session.keyMaterial = s.session.keyMaterial := by
  cases h with
  | quiet hquiet =>
    obtain ⟨hs, epoch0, rng, -, rfl⟩ := hquiet
    exact ⟨hphase, rfl⟩
  | plaintext hstep =>
    cases hstep with
    | challenged => exact ⟨hphase, rfl⟩
    | accepted htype hother => cases hphase.symm.trans hother
    | repeated => exact ⟨hphase, rfl⟩
    | exchanged htype hother => cases hphase.symm.trans hother
  | confirmed hopens hconfirms => cases hphase.symm.trans hopens.1
  | cipherSpec hpayload => exact ⟨hphase, rfl⟩
  | consulted info =>
    rw [consult_session]
    exact ⟨hphase, rfl⟩
  | application hstep =>
    cases hstep with
    | ignored => exact ⟨hphase, rfl⟩
    | @answered _ _ _ info =>
      refine ⟨rfl, ?_⟩
      change (consult s info).2.session.keyMaterial = _
      rw [consult_session]

/-- The handler is asked when there is no decision, and its decision recorded. -/
def Consults (s t : Feed H) : Prop :=
  (t.handler = s.handler ∧ t.session.finalizeDecision = s.session.finalizeDecision) ∨
  (s.session.finalizeDecision = none ∧ ∃ info,
    t.handler = (JoinerHandler.onJoinerFinalize s.handler s.session.joinerId info).2 ∧
    t.session.finalizeDecision = some (JoinerHandler.onJoinerFinalize s.handler s.session.joinerId info).1)

theorem consult_consults (s : Feed H) (info : JoinerFinalizeInfo) : Consults s (consult s info).2 := by
  rcases consult_cases s info with ⟨accepted, hd, hc⟩ | ⟨accepted, handler, hnone, hask, hc⟩
  · exact .inl ⟨by rw [hc], by rw [hc]⟩
  · exact .inr ⟨hnone, info, by rw [hc, hask], by rw [hc, hask]⟩

theorem move_consults (h : Move s item t) : Consults s t := by
  cases h with
  | quiet hquiet =>
    obtain ⟨hs, epoch0, rng, -, rfl⟩ := hquiet
    exact .inl ⟨rfl, rfl⟩
  | plaintext hstep => cases hstep <;> exact .inl ⟨rfl, rfl⟩
  | confirmed hopens hconfirms => exact .inl ⟨hconfirms.frame.handler, hconfirms.frame.finalizeDecision⟩
  | cipherSpec hpayload => exact .inl ⟨rfl, rfl⟩
  | consulted info => exact consult_consults s info
  | application hstep =>
    cases hstep with
    | ignored => exact .inl ⟨rfl, rfl⟩
    | @answered _ _ _ info => exact consult_consults s info

end Phases

section Stories

/-- The records of application data in a datagram, which carry the answers of
a session. -/
def responsesIn (datagram : Bytes) : List DtlsRecord :=
  (sealedIn [datagram]).filter (·.header.contentType = .applicationData)

/-- An event of the handshake: it neither answers a JOIN_FIN.req nor reports a
decision, and carries no KEK. -/
def Plain : JoinerSessionEvent → Prop
  | .transmit datagram includeKek => includeKek = false ∧ responsesIn datagram = []
  | .connected => True
  | .finalized _ _ => False

theorem plain_of_sealedIn {dgram : Bytes} (h : sealedIn [dgram] = []) : Plain (.transmit dgram false) := by
  refine ⟨rfl, ?_⟩
  rw [responsesIn, h]
  rfl

variable [Suite]

/-- The datagram carries one answer to a JOIN_FIN.req, under the session's
write key, and the State TLV in it states the decision. -/
def Answers (keyMaterial : ThreadDtlsKeyMaterial) (accepted : Bool) (datagram : Bytes) : Prop :=
  ∃ response request payload, responsesIn datagram = [response] ∧
    openAes128Ccm8Record response keyMaterial.keyBlock.serverWriteKey keyMaterial.keyBlock.serverWriteIv =
      .ok payload ∧
    (joinFinResponse request accepted).encode = .ok payload

/-- The events of a session that has answered: those of the handshake, the
first answer, with or without the report of the decision, and from then on
answers of the same decision. -/
def Told (keyMaterial : ThreadDtlsKeyMaterial) (accepted : Bool) (events : List JoinerSessionEvent) : Prop :=
  ∃ before datagram report after, events = before ++ .transmit datagram accepted :: (report ++ after) ∧
    (∀ event ∈ before, Plain event) ∧ Answers keyMaterial accepted datagram ∧
    (report = [] ∨ ∃ info, report = [.finalized accepted info]) ∧
    ∀ event ∈ after, Plain event ∨ ∃ datagram, event = .transmit datagram accepted ∧ Answers keyMaterial accepted datagram

def Story (session : JoinerSession) (events : List JoinerSessionEvent) : Prop :=
  (∀ event ∈ events, Plain event) ∨
  (session.phase = .finalized ∧ ∃ keyMaterial accepted, session.keyMaterial = some keyMaterial ∧
    session.finalizeDecision = some accepted ∧ Told keyMaterial accepted events)

variable {keys : ThreadDtlsKeyMaterial} {acc : Bool} {sess : JoinerSession}
  {evs more : List JoinerSessionEvent}

theorem Told.append (h : Told keys acc evs) (hmore : ∀ event ∈ more, Plain event ∨
      ∃ dgram, event = .transmit dgram acc ∧ Answers keys acc dgram) : Told keys acc (evs ++ more) := by
  obtain ⟨before, dgram, report, after, rfl, hbefore, hanswers, hreport, hafter⟩ := h
  refine ⟨before, dgram, report, after ++ more, by simp, hbefore, hanswers, hreport, fun event he => ?_⟩
  rcases mem_append.mp he with he | he
  · exact hafter event he
  · exact hmore event he

theorem Story.plain (h : Story sess evs) (hmore : ∀ event ∈ more, Plain event) : Story sess (evs ++ more) := by
  rcases h with h | ⟨hphase, keys, acc, hkeys, hdecision, htold⟩
  · left
    intro event he
    exact (mem_append.mp he).elim (h event) (hmore event)
  · exact .inr ⟨hphase, keys, acc, hkeys, hdecision, htold.append fun event he => .inl (hmore event he)⟩

end Stories

section Steps

variable [Suite] {H : Type} {s t : Feed H}

def PushesPlain (s t : Feed H) : Prop := ∃ pushed, t.events = s.events ++ pushed ∧ ∀ event ∈ pushed, Plain event

theorem pushesPlain_of_eq (h : t.events = s.events) : PushesPlain s t := ⟨[], by rw [h, append_nil], by simp⟩

theorem confirms_plain {ms : List HandshakeMessage} (h : Confirms ms s t) : PushesPlain s t := by
  induction h with
  | done s => exact pushesPlain_of_eq rfl
  | stopped hfail => exact pushesPlain_of_eq hfail.events
  | @next m ms s t u hstep hrest ih =>
    obtain ⟨pushed, hpushed, hall⟩ := ih
    cases hstep with
    | skipped htype => exact ⟨pushed, hpushed, hall⟩
    | @verified keys checked hs sfin fin htype hkeys hverify hbuild hprot =>
      rw [finish_events, append_assoc] at hpushed
      refine ⟨_, hpushed, fun event he => ?_⟩
      rcases mem_append.mp he with he | he
      · rcases mem_cons.mp he with rfl | he
        · refine ⟨rfl, ?_⟩
          rw [responsesIn, sealedIn_finish hprot, filter_singleton, (header_of_protect hprot).1]
          rfl
        · rw [mem_singleton.mp he]
          trivial
      · exact hall event he

variable [JoinerHandler H] {item : Item} {past : List JoinerSessionEvent}

theorem Story.move (h : Story s.session past) (hmove : Move s item t) : Story t.session past := by
  rcases h with h | ⟨hphase, keys, accepted, hkeys, hdecision, htold⟩
  · exact .inl h
  · obtain ⟨hphase', hkeys'⟩ := move_finalized hmove hphase
    exact .inr ⟨hphase', keys, accepted, hkeys'.trans hkeys, hmove.decided hdecision, htold⟩

/-- An answer is pushed, and the report of the decision with the first. -/
def PushesAnswer (s t : Feed H) : Prop :=
  ∃ keyMaterial accepted datagram info, s.session.keyMaterial = some keyMaterial ∧
    t.session.keyMaterial = some keyMaterial ∧ t.session.finalizeDecision = some accepted ∧
    t.session.phase = .finalized ∧ Answers keyMaterial accepted datagram ∧
    t.events = s.events ++ .transmit datagram accepted ::
      if s.session.phase = .finalized then [] else [.finalized accepted info]

theorem move_pushes (htidy : Tidy s.session) (hmove : Move s item t) : PushesPlain s t ∨ PushesAnswer s t := by
  cases hmove with
  | quiet hquiet => exact .inl (pushesPlain_of_eq hquiet.events)
  | plaintext hstep =>
    left
    cases hstep with
    | challenged =>
      exact ⟨_, rfl, forall_mem_singleton.mpr (plain_of_sealedIn (sealedIn_challenge _ _ _ _))⟩
    | accepted _ _ _ _ _ h₁ h₂ h₃ =>
      exact ⟨_, rfl, forall_mem_singleton.mpr (plain_of_sealedIn (sealedIn_flight h₁ h₂ h₃ _))⟩
    | repeated => exact ⟨_, rfl, forall_mem_singleton.mpr (plain_of_sealedIn htidy.2)⟩
    | exchanged => exact pushesPlain_of_eq rfl
  | confirmed hopens hconfirms => exact .inl (confirms_plain hconfirms)
  | cipherSpec hpayload => exact .inl (pushesPlain_of_eq rfl)
  | consulted info => exact .inl (pushesPlain_of_eq (consult_events s info))
  | application hstep =>
    cases hstep with
    | ignored => exact .inl (pushesPlain_of_eq rfl)
    | @answered plaintext payload request info keys response hphase hopen hdec hpath hinfo hkeys henc
        hprotect =>
        refine .inr ⟨keys, (consult s info).1, response.bytes, info, hkeys, ?_, consult_decision s info, rfl,
          ⟨response, request, payload, ?_, open_protect hprotect, henc⟩, answered_events s info response⟩
        · change (consult s info).2.session.keyMaterial = _
          rw [consult_session]
          exact hkeys
        · rw [responsesIn, sealedIn_answer hprotect, filter_singleton, (header_of_protect hprotect).1]
          rfl

theorem Story.push (htidy : Tidy s.session) (h : Story s.session (past ++ s.events)) (hmove : Move s item t) :
    Story t.session (past ++ t.events) := by
  rcases move_pushes htidy hmove with ⟨pushed, hpushed, hplain⟩ | ⟨keys, acc, datagram, info, hkeys, hkeys',
    hdecision, hphase, hanswers, hpushed⟩
  · rw [hpushed, ← append_assoc]
    exact (h.move hmove).plain hplain
  · rw [hpushed, ← append_assoc]
    refine .inr ⟨hphase, keys, acc, hkeys', hdecision, ?_⟩
    rcases h with h | ⟨hfinal, keyMaterial', accepted', hkeys'', hdecision', htold⟩
    · -- the first answer that is sent; an earlier one may have been dropped with its call
      refine ⟨past ++ s.events, datagram, _, [], by rw [append_nil], h, hanswers, ?_, by simp⟩
      split
      · exact .inl rfl
      · exact .inr ⟨info, rfl⟩
    · obtain rfl : keys = keyMaterial' := Option.some.inj (hkeys.symm.trans hkeys'')
      obtain rfl : acc = accepted' := Option.some.inj (hdecision.symm.trans (hmove.decided hdecision'))
      rw [if_pos hfinal]
      exact htold.append (forall_mem_singleton.mpr (.inr ⟨datagram, rfl, hanswers⟩))

end Steps

section Runs

variable [Suite] {H : Type} [JoinerHandler H]

/-- What holds between two calls: the decisions of the handler are the recorded
one, and the events tell the story of the session. -/
structure Decided (past : List JoinerSessionEvent) (party : Party (Recorded H)) : Prop where
  tidy : Tidy party.session
  recorded : party.handler.decisions = party.session.finalizeDecision.toList
  story : Story party.session past

theorem recorded_move {s t : Feed (Recorded H)} {item : Item} (hmove : Move s item t)
    (h : s.handler.decisions = s.session.finalizeDecision.toList) :
    t.handler.decisions = t.session.finalizeDecision.toList := by
  rcases move_consults hmove with ⟨hhandler, hdecision⟩ | ⟨hnone, info, hhandler, hdecision⟩
  · rw [hhandler, hdecision, h]
  · rw [hnone] at h
    rw [hhandler, hdecision]
    change s.handler.decisions ++ _ = _
    rw [h]
    rfl

theorem Decided.run {past : List JoinerSessionEvent} {party : Party (Recorded H)} (h : Decided past party)
    (dgrams : List Bytes) : Decided (past ++ emitted (runAll receive dgrams party).2) (runAll receive dgrams party).1 := by
  refine run_invariant (I := Decided) (C := fun _ => True) ?_ ?_ h dgrams fun _ _ => trivial
  · rintro past s item t hmove - ⟨htidy, hrecorded, hstory⟩
    exact ⟨(move_sends htidy hmove).tidy, recorded_move hmove hrecorded, hstory.move hmove⟩
  · rintro past s item t hmove - ⟨htidy, hrecorded, hstory⟩
    exact ⟨(move_sends htidy hmove).tidy, recorded_move hmove hrecorded, hstory.push htidy hmove⟩

end Runs

end ThreadCommissioner.Decisions
