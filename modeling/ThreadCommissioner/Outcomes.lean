import ThreadCommissioner.RelayIsolation

namespace ThreadCommissioner.Outcomes

open ByteStrings Commissioners Computations Errors HandshakeMessages JoinerExchange JoinerSessions JoinerSteps KekGate
open List Primitives Records RelayIsolation RelaySessions ServerDriver ServerHandshake Texts

section Soundness

variable [Suite]

/-- What holds of a session all of whose payloads were taken. -/
structure Sound (session : JoinerSession) : Prop where
  decided : session.phase = .finalized → session.finalizeDecision.isSome
  random : session.keyMaterial.isSome → session.handshake.clientRandom.isSome

theorem sound_new (iid : ByteVector 8) (port loc : UInt16) (pskd : Text) (now : ℕ)
    (rng : Rng) : Sound (JoinerSession.new iid port loc pskd now rng).1 := ⟨nofun, nofun⟩

theorem Sound.joinerRouterKek {sess : JoinerSession} (h : Sound sess) (hkeys : sess.keyMaterial.isSome) :
    ∃ kek, sess.joinerRouterKek = .ok kek := by
  obtain ⟨keys, hkey⟩ := Option.isSome_iff_exists.mp hkeys
  obtain ⟨clientRandom, hrandom⟩ := Option.isSome_iff_exists.mp (h.random hkeys)
  refine ⟨KeySchedule.deriveJoinerRouterKek keys.masterSecret clientRandom sess.handshake.serverRandom, ?_⟩
  rw [JoinerSession.joinerRouterKek, keyMaterialRequired_eq_ok.mpr hkey, ok_bind,
    ThreadDtlsServerHandshake.deriveJoinerRouterKek, hrandom]
  rfl

variable {H : Type} {s t : Feed H} {message : HandshakeMessage}

theorem flight_random {hs hs' : ThreadDtlsServerHandshake} {rng rng' : Rng} {shello kex hdone : HandshakeMessage}
    (h : (buildServerFlight message).run (hs, rng) = .ok (shello, kex, hdone) (hs', rng')) : hs'.clientRandom.isSome := by
  obtain ⟨hello, hs₁, hs₂, hs₃, h₁, h₂, h₃, h₄⟩ := buildServerFlight_eq_ok.mp h
  obtain ⟨hrandom, _, _, -, -, -, -, rfl⟩ := buildServerHello_eq_ok.mp h₂
  obtain ⟨_, _, _, -, -, -, -, -, rfl⟩ := buildServerKeyExchange_eq_ok.mp h₃
  obtain ⟨-, rfl⟩ := buildServerHelloDone_eq_ok.mp h₄
  exact hrandom

theorem plaintext_sound (hstep : PlaintextStep message s t) (h : Sound s.session) : Sound t.session := by
  cases hstep with
  | challenged => exact ⟨h.decided, h.random⟩
  | accepted _ _ _ _ hflight => exact ⟨nofun, fun _ => flight_random hflight⟩
  | repeated => exact h
  | exchanged htype hphase hexchange hderive =>
    obtain ⟨_, _, clientRandom, _, -, -, hrandom, -⟩ := deriveKeyMaterial_eq_ok.mp hderive
    exact ⟨h.decided, fun _ => Option.isSome_iff_exists.mpr ⟨clientRandom, hrandom⟩⟩

theorem finished_sound (hstep : FinishedStep message s t) (h : Sound s.session) : Sound t.session := by
  cases hstep with
  | skipped htype => exact h
  | verified htype hkeys hverify hbuild hprotect =>
    obtain ⟨-, -, -, rfl⟩ := verifyClientFinished_eq_ok.mp hverify
    obtain ⟨-, rfl⟩ := buildServerFinished_eq_ok.mp hbuild
    exact ⟨nofun, h.random⟩

theorem sound_forM {ms : List HandshakeMessage} (hrun : (ms.forM handleFinished).run s = .ok () t)
    (h : Sound s.session) : Sound t.session := by
  induction ms generalizing s with
  | nil =>
    cases hrun
    exact h
  | cons message ms ih =>
    obtain ⟨_, u, hstep, hrun⟩ := bind_eq_ok.mp hrun
    exact ih hrun (finished_sound (handleFinished_eq_ok.mp hstep) h)

variable [JoinerHandler H] {item : Item}

theorem application_sound {r : DtlsRecord} (hstep : ApplicationStep r s t) (h : Sound s.session) : Sound t.session := by
  cases hstep with
  | ignored => exact h
  | @answered _ _ _ info =>
    change Sound { (consult s info).2.session with phase := _, epoch1Sequence := _ }
    rw [consult_session]
    exact ⟨fun _ => rfl, h.random⟩

theorem handled_sound (hrun : (handleItem item).run s = .ok () t) (h : Sound s.session) : Sound t.session := by
  cases item with
  | malformed error => cases hrun
  | message message => exact plaintext_sound (handlePlaintextHandshake_eq_ok.mp hrun) h
  | encrypted record =>
    rcases handleEncryptedHandshake_eq_ok.mp hrun with ⟨-, rfl⟩ | ⟨messages, -, hrun⟩
    · exact h
    · exact sound_forM hrun h
  | changeCipherSpec record =>
    obtain ⟨_, -, hrun⟩ := lift_bind_ok.mp hrun
    cases hrun
    exact ⟨h.decided, h.random⟩
  | application record => exact application_sound (handleApplicationData_eq_ok.mp hrun) h
  | alert record => cases hrun
  | ignored record =>
    cases hrun
    exact h

end Soundness

section Reports

variable [Suite] {H : Type} {s t : Feed H}

theorem confirms_connected {ms : List HandshakeMessage} (h : Confirms ms s t)
    (hbefore : s.session.phase ≠ .connected) (hafter : t.session.phase = .connected) :
    JoinerSessionEvent.connected ∈ t.events := by
  induction h with
  | done s => exact absurd hafter hbefore
  | stopped hfail =>
    obtain ⟨hs, epoch0, rng, -, rfl⟩ := hfail
    exact absurd hafter hbefore
  | next hstep hrest ih =>
    cases hstep with
    | skipped htype => exact ih hbefore hafter
    | verified htype hkeys hverify hbuild hprotect =>
      obtain ⟨pushed, hpushed, -⟩ := hrest.events
      rw [hpushed, finish_events]
      simp

/-- Each message of the record passes in the state that it finds. -/
inductive Finishes : List HandshakeMessage → Feed H → Feed H → Prop
  | nil (s : Feed H) : Finishes [] s s
  | cons {message : HandshakeMessage} {messages : List HandshakeMessage} {s t u : Feed H}
      (hstep : FinishedStep message s t) (hrest : Finishes messages t u) : Finishes (message :: messages) s u

theorem finishes_iff {ms : List HandshakeMessage} : Finishes ms s t ↔ (ms.forM handleFinished).run s = .ok () t := by
  constructor
  · intro h
    induction h with
    | nil s => rfl
    | cons hstep hrest ih => exact bind_eq_ok.mpr ⟨(), _, handleFinished_eq_ok.mpr hstep, ih⟩
  · intro hrun
    induction ms generalizing s with
    | nil =>
      cases hrun
      exact .nil _
    | cons message ms ih =>
      obtain ⟨_, u, hstep, hrun⟩ := bind_eq_ok.mp hrun
      exact .cons (handleFinished_eq_ok.mp hstep) (ih hrun)

variable [JoinerHandler H] {item : Item}

theorem move_events (h : Move s item t) : s.events <+: t.events := by
  cases h with
  | quiet hquiet => rw [hquiet.events]
  | plaintext hstep =>
    cases hstep with
    | challenged => exact prefix_append _ _
    | accepted => exact prefix_append _ _
    | repeated => exact prefix_append _ _
    | exchanged => exact prefix_rfl
  | confirmed hopens hconfirms =>
    obtain ⟨pushed, hpushed, -⟩ := hconfirms.events
    rw [hpushed]
    exact prefix_append _ _
  | cipherSpec hpayload => exact prefix_rfl
  | consulted info => rw [consult_events]
  | application hstep =>
    cases hstep with
    | ignored => exact prefix_rfl
    | @answered _ _ _ info _ resp =>
      rw [answered_events]
      exact prefix_append _ _

theorem move_keys (h : Move s item t) (hkeys : s.session.keyMaterial.isSome) : t.session.keyMaterial.isSome := by
  cases h with
  | quiet hquiet =>
    obtain ⟨hs, epoch0, rng, -, rfl⟩ := hquiet
    exact hkeys
  | plaintext hstep =>
    cases hstep with
    | challenged => exact hkeys
    | accepted => exact hkeys
    | repeated => exact hkeys
    | exchanged => rfl
  | confirmed hopens hconfirms => rwa [hconfirms.frame.keyMaterial]
  | cipherSpec hpayload => exact hkeys
  | consulted info => rwa [consult_session]
  | application hstep =>
    cases hstep with
    | ignored => exact hkeys
    | @answered _ _ _ info =>
      change (consult s info).2.session.keyMaterial.isSome
      rwa [consult_session]

theorem move_connected (h : Move s item t) (hbefore : s.session.phase ≠ .connected)
    (hafter : t.session.phase = .connected) : JoinerSessionEvent.connected ∈ t.events := by
  cases h with
  | quiet hquiet =>
    obtain ⟨hs, epoch0, rng, -, rfl⟩ := hquiet
    exact absurd hafter hbefore
  | plaintext hstep =>
    cases hstep with
    | challenged => exact absurd hafter hbefore
    | accepted => cases hafter
    | repeated => exact absurd hafter hbefore
    | exchanged => exact absurd hafter hbefore
  | confirmed hopens hconfirms => exact confirms_connected hconfirms hbefore hafter
  | cipherSpec hpayload => exact absurd hafter hbefore
  | consulted info =>
    rw [consult_session] at hafter
    exact absurd hafter hbefore
  | application hstep =>
    cases hstep with
    | ignored => exact absurd hafter hbefore
    | answered => cases hafter

theorem handled_decision (hrun : (handleItem item).run s = .ok () t) (hsound : Sound s.session) {accepted : Bool}
    (hnone : s.session.finalizeDecision = none) (hsome : t.session.finalizeDecision = some accepted) :
    ∃ info, (JoinerHandler.onJoinerFinalize s.handler s.session.joinerId info).1 = accepted ∧
      JoinerSessionEvent.finalized accepted info ∈ t.events := by
  have hsame : t.session.finalizeDecision ≠ s.session.finalizeDecision := by
    rw [hnone, hsome]
    exact nofun
  have hanswered : ∀ r, item = .application r →
      ∃ info, (JoinerHandler.onJoinerFinalize s.handler s.session.joinerId info).1 = accepted ∧
        JoinerSessionEvent.finalized accepted info ∈ t.events := by
    rintro r rfl
    cases handleApplicationData_eq_ok.mp hrun with
    | ignored => exact absurd rfl hsame
    | @answered _ _ _ info _ resp hphase =>
      have hconnected : s.session.phase ≠ .finalized := by
        intro hfinalized
        have := hsound.decided hfinalized
        rw [hnone] at this
        cases this
      obtain rfl : (consult s info).1 = accepted := Option.some.inj ((consult_decision s info).symm.trans hsome)
      refine ⟨info, ?_, ?_⟩
      · rw [consult, hnone]
      · rw [answered_events, if_neg hconnected]
        simp
  cases move_of_ok hrun with
  | quiet hquiet =>
    obtain ⟨hs, epoch0, rng, -, rfl⟩ := hquiet
    exact absurd rfl hsame
  | plaintext hstep => cases hstep <;> exact absurd rfl hsame
  | confirmed hopens hconfirms => exact absurd hconfirms.frame.finalizeDecision hsame
  | cipherSpec hpayload => exact absurd rfl hsame
  | consulted info => exact hanswered _ rfl
  | application hstep => exact hanswered _ rfl

/-- The items that a session takes in a state. -/
inductive Taken (s : Feed H) : Item → Prop
  | message {message : HandshakeMessage} {t : Feed H} (hstep : PlaintextStep message s t) : Taken s (.message message)
  | late {record : DtlsRecord} (hphase : s.session.phase ≠ .awaitingClientFlight) : Taken s (.encrypted record)
  | finished {record : DtlsRecord} {messages : List HandshakeMessage} {t : Feed H}
      (hopens : OpensTo record s.session messages) (hfinishes : Finishes messages s t) : Taken s (.encrypted record)
  | changeCipherSpec {record : DtlsRecord} (hpayload : record.payload = [1]) : Taken s (.changeCipherSpec record)
  | application {record : DtlsRecord} {t : Feed H} (hstep : ApplicationStep record s t) : Taken s (.application record)
  | ignored (record : DtlsRecord) : Taken s (.ignored record)

theorem taken_iff : Taken s item ↔ ∃ u t, (handleItem item).run s = .ok u t := by
  constructor
  · intro h
    cases h with
    | message hstep => exact ⟨(), _, handlePlaintextHandshake_eq_ok.mpr hstep⟩
    | late hphase => exact ⟨(), s, handleEncryptedHandshake_eq_ok.mpr (.inl ⟨hphase, rfl⟩)⟩
    | finished hopens hfinishes =>
      exact ⟨(), _, handleEncryptedHandshake_eq_ok.mpr (.inr ⟨_, hopens, finishes_iff.mp hfinishes⟩)⟩
    | changeCipherSpec hpayload => exact ⟨(), _, lift_bind_ok.mpr ⟨(), ensure_true hpayload _, rfl⟩⟩
    | application hstep => exact ⟨(), _, handleApplicationData_eq_ok.mpr hstep⟩
    | ignored record => exact ⟨(), s, rfl⟩
  · rintro ⟨_, t, hrun⟩
    cases item with
    | malformed error => cases hrun
    | message message => exact .message (handlePlaintextHandshake_eq_ok.mp hrun)
    | encrypted record =>
      rcases handleEncryptedHandshake_eq_ok.mp hrun with ⟨hphase, -⟩ | ⟨messages, hopens, hrun⟩
      · exact .late hphase
      · exact .finished hopens (finishes_iff.mpr hrun)
    | changeCipherSpec record =>
      obtain ⟨_, hpayload, -⟩ := lift_bind_ok.mp hrun
      exact .changeCipherSpec (ensure_eq_ok.mp hpayload)
    | application record => exact .application (handleApplicationData_eq_ok.mp hrun)
    | alert record => cases hrun
    | ignored record => exact .ignored record

theorem taken_of_receive {payload : Bytes} {party party' : Party H} {evs : List JoinerSessionEvent}
    (hrun : (receive payload).run party = .ok evs party') {v : Visit H} (hv : v ∈ visitsOf payload party) :
    Taken v.before v.item := by
  obtain ⟨t, hforM⟩ := forM_of_receive_isOk (show (outcome ((receive payload).run party)).isOk = true by rw [hrun]; rfl)
  exact taken_iff.mpr (ok_of_mem_rounds hforM hv)

theorem receive_of_taken {payload : Bytes} {party : Party H} {v : Visit H} {later : List (Visit H)}
    (hsuffix : v :: later <:+ visitsOf payload party) (h : ∀ w ∈ v :: later, Taken w.before w.item) :
    ∃ evs party', (receive payload).run party = .ok evs party' := by
  obtain ⟨_, t, hforM⟩ := forM_of_rounds hsuffix fun w hw => taken_iff.mp (h w hw)
  exact ⟨_, _, receive_of_forM hforM⟩

def Completes (v : Visit H) : Prop := v.before.session.phase ≠ .connected ∧ v.after.session.phase = .connected

/-- The session after some visits none of which failed. -/
structure Progress (past : List (Visit H)) (s : Feed H) : Prop where
  sound : Sound s.session
  kek : ∀ datagram, JoinerSessionEvent.transmit datagram true ∈ s.events → s.session.keyMaterial.isSome
  completed : ∀ v ∈ past, Completes v → JoinerSessionEvent.connected ∈ s.events
  decided : ∀ v ∈ past, ∀ accepted, DecidedAt accepted v → ∃ info,
    (JoinerHandler.onJoinerFinalize v.before.handler v.before.session.joinerId info).1 = accepted ∧
      JoinerSessionEvent.finalized accepted info ∈ s.events

theorem progress_start {party : Party H} (h : Sound party.session) : Progress [] party.feed where
  sound := h
  kek _ hmem := nomatch (show _ ∈ [] from hmem)
  completed _ hmem := nomatch hmem
  decided _ hmem := nomatch hmem

theorem Progress.step {past : List (Visit H)} (h : Progress past s) (hrun : (handleItem item).run s = .ok () t) :
    Progress (past ++ [⟨s, item, t⟩]) t := by
  have hmove := move_of_ok hrun
  have hevents := (move_events hmove).subset
  refine ⟨handled_sound hrun h.sound, fun dgram hmem => ?_, ?_, ?_⟩
  · rcases kek_of_move hmove hmem with hmem | ⟨-, -, keyMaterial, hkeys, -⟩
    · exact move_keys hmove (h.kek dgram hmem)
    · exact move_keys hmove (by rw [hkeys]; rfl)
  · refine forall_mem_append.mpr ⟨fun v hv hcompletes => hevents (h.completed v hv hcompletes), ?_⟩
    exact forall_mem_singleton.mpr fun hcompletes => move_connected hmove hcompletes.1 hcompletes.2
  · refine forall_mem_append.mpr ⟨fun v hv acc hdecided => ?_, ?_⟩
    · obtain ⟨info, hasked, hmem⟩ := h.decided v hv acc hdecided
      exact ⟨info, hasked, hevents hmem⟩
    · exact forall_mem_singleton.mpr fun acc hdecided =>
        handled_decision hrun h.sound hdecided.1 hdecided.2.1

theorem progress_of_receive {payload : Bytes} {party party' : Party H} {events : List JoinerSessionEvent}
    (hrun : (receive payload).run party = .ok events party') (h : Sound party.session) :
    ∃ s : Feed H, Progress (visitsOf payload party) s ∧ s.session = party'.session ∧ s.events = events := by
  obtain ⟨s, hforM⟩ := forM_of_receive_isOk (show (outcome ((receive payload).run party)).isOk = true by rw [hrun]; rfl)
  rw [receive_of_forM hforM] at hrun
  cases hrun
  refine ⟨s, ?_, rfl, rfl⟩
  exact rounds_of_forM (P := Progress) (fun past item s t hpast hstep => hpast.step hstep) []
    (progress_start h) hforM

theorem sound_receive {payload : Bytes} {party party' : Party H} {events : List JoinerSessionEvent}
    (hrun : (receive payload).run party = .ok events party') (h : Sound party.session) : Sound party'.session := by
  obtain ⟨s, hprogress, hsession, -⟩ := progress_of_receive hrun h
  exact hsession ▸ hprogress.sound

end Reports

section Queueing

variable [Suite] {H : Type} [JoinerHandler H]

/-- The event the commissioner queues for an event of a session. -/
def announcement (joinerId : ByteVector 8) : JoinerSessionEvent → Option CommissionerEvent
  | .transmit _ _ => none
  | .connected => some (.joinerConnected joinerId)
  | .finalized accepted info => some (.joinerFinalized joinerId accepted info)

theorem dispatchEvents_queued {sess : JoinerSession} (jid : ByteVector 8) {evs : List JoinerSessionEvent}
    (hkek : ∀ dgram, JoinerSessionEvent.transmit dgram true ∈ evs → ∃ kek, sess.joinerRouterKek = .ok kek)
    (d : Dispatch H) : (dispatchEvents sess jid evs d).queuedEvents =
      d.queuedEvents ++ evs.filterMap (announcement jid) := by
  induction evs generalizing d with
  | nil => exact (append_nil _).symm
  | cons event evs ih =>
    have hrest : ∀ dgram, JoinerSessionEvent.transmit dgram true ∈ evs → ∃ kek, sess.joinerRouterKek = .ok kek :=
      fun dgram hmem => hkek dgram (mem_cons_of_mem _ hmem)
    cases event with
    | transmit dgram includeKek =>
      rw [dispatchEvents]
      cases includeKek with
      | false => exact ih hrest _
      | true =>
        obtain ⟨kek, hok⟩ := hkek dgram mem_cons_self
        rw [if_pos rfl, hok]
        exact ih hrest _
    | connected =>
      rw [dispatchEvents, ih hrest, append_assoc]
      rfl
    | finalized accepted info =>
      rw [dispatchEvents, ih hrest, append_assoc]
      rfl

variable {c : Commissioner H} {payload : Bytes}

theorem driveSession_events (jid : ByteVector 8) {sess : JoinerSession}
    (hflight : sess.serverFlight.length ≤ Tlvs.maxExtendedTlvLength) (handler : H) (payload : Bytes) (c : Commissioner H) :
    ∃ queued, (finalState ((driveSession jid sess handler payload).run c)).events = c.events ++ queued := by
  cases hrun : (receive payload).run ⟨sess, handler, c.rng⟩ with
  | error e party =>
    rw [driveSession_of_error hrun]
    exact ⟨[], (append_nil _).symm⟩
  | ok events party =>
    obtain ⟨mid, sends, outs, heq, -⟩ := driveSession_dispatched jid hflight hrun
    rw [heq]
    exact ⟨_, rfl⟩

theorem driveSession_queues {jid : ByteVector 8} {party party' : Party H} {events : List JoinerSessionEvent}
    (hflight : party.session.serverFlight.length ≤ Tlvs.maxExtendedTlvLength) (hrng : c.rng = party.rng)
    (hsound : Sound party.session) (hrun : (receive payload).run party = .ok events party') :
    (finalState ((driveSession jid party.session party.handler payload).run c)).events =
      c.events ++ events.filterMap (announcement jid) := by
  obtain ⟨s, hprogress, hsession, hevents⟩ := progress_of_receive hrun hsound
  have hkek : ∀ dgram, JoinerSessionEvent.transmit dgram true ∈ events →
      ∃ kek, party'.session.joinerRouterKek = .ok kek := by
    intro dgram hmem
    rw [← hevents] at hmem
    rw [← hsession]
    exact hprogress.sound.joinerRouterKek (hprogress.kek dgram hmem)
  have htaken : (receive payload).run ⟨party.session, party.handler, c.rng⟩ = .ok events party' := by rw [hrng, ← hrun]
  obtain ⟨mid, sends, outs, heq, -⟩ := driveSession_dispatched jid hflight htaken
  rw [heq]
  change c.events ++ (dispatchEvents party'.session jid events ⟨party'.handler, [], [], false⟩).queuedEvents = _
  rw [dispatchEvents_queued jid hkek, nil_append]

theorem events_of_error {port loc : UInt16} {iid : ByteVector 8} {party party' : Party H}
    {e : Error} (h : taker port loc iid c = some party) (hrun : (receive payload).run party = .error e party') :
    (finalState ((handleRelayRx port loc iid payload).run c)).events = c.events := by
  obtain ⟨c₁, hfeeds, hdrive⟩ := handleRelayRx_of_taker h payload
  have hfailed : (receive payload).run ⟨party.session, party.handler, c₁.rng⟩ = .error e party' := by
    rw [hfeeds.rng, ← hrun]
  rw [hdrive, driveSession_of_error hfailed]
  exact hfeeds.same.2.2.1

/-- The outcomes of the visits are among the events queued since. -/
def Queues (joinerId : ByteVector 8) (visits : List (Visit H)) (before after : List CommissionerEvent) : Prop :=
  ∃ queued, after = before ++ queued ∧
    (∀ v ∈ visits, Completes v → .joinerConnected joinerId ∈ queued) ∧
    ∀ v ∈ visits, ∀ accepted, DecidedAt accepted v → ∃ info,
      (JoinerHandler.onJoinerFinalize v.before.handler v.before.session.joinerId info).1 = accepted ∧
        .joinerFinalized joinerId accepted info ∈ queued

def Eventful (v : Visit H) : Prop := Completes v ∨ ∃ accepted, DecidedAt accepted v

/-- No item is refused from one on that brings an outcome about. -/
def Undisturbed (visits : List (Visit H)) : Prop :=
  ∀ v later, v :: later <:+ visits → Eventful v → ∀ w ∈ v :: later, Taken w.before w.item

/-- What a joiner's datagram brings about is queued exactly if the session
takes everything in it from there on. -/
theorem outcomes_are_queued_iff (start : Commissioner H) (hempty : start.joinerSessions = fun _ => none)
    (steps : List (RelayStep H)) (joinerUdpPort joinerRouterLocator : UInt16) (joinerIid : ByteVector 8)
    (payload : Bytes) (party : Party H)
    (hparty : taker joinerUdpPort joinerRouterLocator joinerIid (runAll RelayStep.run steps start).1 = some party) :
    Queues (joinerIdFromIid joinerIid) (visitsOf payload party) (runAll RelayStep.run steps start).1.events
        (finalState ((handleRelayRx joinerUdpPort joinerRouterLocator joinerIid payload).run
          (runAll RelayStep.run steps start).1)).events ↔
      Undisturbed (visitsOf payload party) := by
  have hstored := allStored_run steps (allStored_of_empty hempty)
  have hsessions : ∀ joinerId session, (runAll RelayStep.run steps start).1.joinerSessions joinerId = some session →
      Sound session := by
    refine holds_run sound_new (fun _ _ _ _ => sound_receive) steps (allStored_of_empty hempty) ?_
    intro joinerId session hsession
    rw [hempty] at hsession
    cases hsession
  obtain ⟨c₁, hfeeds, hdrive⟩ := handleRelayRx_of_taker hparty payload
  obtain ⟨-, -, hevents, -, -⟩ := hfeeds.same
  constructor
  · rintro ⟨queued, hqueued, hcompleted, hdecided⟩ v later hsuffix hevent
    cases hrun : (receive payload).run party with
    | ok events party' => exact fun w hw => taken_of_receive hrun (hsuffix.subset hw)
    | error e party' =>
      rw [events_of_error hparty hrun] at hqueued
      obtain rfl : queued = [] := self_eq_append_right.mp hqueued
      have hv := hsuffix.subset mem_cons_self
      rcases hevent with hcompletes | ⟨accepted, hdecides⟩
      · cases hcompleted v hv hcompletes
      · obtain ⟨info, -, hmem⟩ := hdecided v hv accepted hdecides
        cases hmem
  · rw [hdrive, ← hevents]
    intro htaken
    by_cases hevent : ∃ v ∈ visitsOf payload party, Eventful v
    · obtain ⟨v, hv, hevent⟩ := hevent
      obtain ⟨earlier, later, hvisits⟩ := append_of_mem hv
      have hsuffix : v :: later <:+ visitsOf payload party := ⟨earlier, hvisits.symm⟩
      obtain ⟨events, party', hrun⟩ := receive_of_taken hsuffix (htaken v later hsuffix hevent)
      have hsound := hfeeds.holds sound_new hsessions
      obtain ⟨s, hprogress, -, rfl⟩ := progress_of_receive hrun hsound
      refine ⟨s.events.filterMap (announcement (joinerIdFromIid joinerIid)),
        driveSession_queues (hfeeds.stored_born hstored payload).1.flight hfeeds.rng hsound hrun,
        fun v hv hcompletes => ?_, fun v hv accepted hdecides => ?_⟩
      · exact mem_filterMap.mpr ⟨.connected, hprogress.completed v hv hcompletes, rfl⟩
      · obtain ⟨info, hasked, hmem⟩ := hprogress.decided v hv accepted hdecides
        exact ⟨info, hasked, mem_filterMap.mpr ⟨.finalized accepted info, hmem, rfl⟩⟩
    · obtain ⟨queued, hqueued⟩ := driveSession_events (joinerIdFromIid joinerIid)
        (hfeeds.stored_born hstored payload).1.flight party.handler payload c₁
      exact ⟨queued, hqueued, fun v hv hcompletes => (hevent ⟨v, hv, .inl hcompletes⟩).elim,
        fun v hv accepted hdecides => (hevent ⟨v, hv, .inr ⟨accepted, hdecides⟩⟩).elim⟩

end Queueing

section Swallowed

open Drivers HandshakeAgreement

variable [Suite] {H : Type} [JoinerHandler H] {d : Draws} {secret : Bytes} {base : JoinerSession}

/-- A session that is connected after a datagram, and was not before, was
connected by one of its visits. -/
theorem exists_completes (payload : Bytes) (party : Party H) (hbefore : party.session.phase ≠ .connected)
    (hafter : (finalState ((receive payload).run party)).session.phase = .connected) :
    ∃ v ∈ visitsOf payload party, Completes v := by
  let P (past : List (Visit H)) (t : Feed H) : Prop := t.session.phase = .connected → ∃ v ∈ past, Completes v
  have hstep : ∀ past item s, P past s → P (past ++ [⟨s, item, finalState ((handleItem item).run s)⟩])
      (finalState ((handleItem item).run s)) := by
    intro past item s hs hphase
    by_cases hconn : s.session.phase = .connected
    · obtain ⟨v, hv, hcompletes⟩ := hs hconn
      exact ⟨v, mem_append_left _ hv, hcompletes⟩
    · exact ⟨_, mem_append_right _ (mem_singleton_self _), hconn, hphase⟩
  have hstart : P [] party.feed := fun hphase => absurd hphase hbefore
  rw [finalState_receive] at hafter
  exact rounds_induction hstep [] hstart (datagramItems payload) hafter

def alertRecord (sequence : UInt64) : DtlsRecord := ⟨⟨.alert, dtls12Version, 0, sequence, 2⟩, [2, 0]⟩

/-- The last flight of an honest joiner, with an alert behind it. -/
def alertedFlight (k : Sealed d) : Bytes :=
  datagramOf ([d.clientKeyExchange.record 0 2, changeCipherSpecRecord 3, k.clientFinished] ++ [alertRecord 4])

theorem receive_alertedFlight (k : Sealed d) (h : Ready d secret) (hb : Fresh d base) (handler : H) (rng : Rng) :
    (receive (alertedFlight k)).run (⟨flownSession d base, handler, rng⟩ : Party H) =
      .error (joinerAlert (alertRecord 4)) ⟨connectedSession d k.keys base, handler, rng⟩ := by
  have hwell := Ready.flight_wellFormed h k.protectClient
  have halert : (alertRecord 4).WellFormed := ⟨rfl, by decide⟩
  have hitems : datagramItems (alertedFlight k) = [.message d.clientKeyExchange,
      .changeCipherSpec (changeCipherSpecRecord 3), .encrypted k.clientFinished, .alert (alertRecord 4)] := by
    have hflight := Ready.flight_items h k.protectClient
    rw [datagramItems_of_wellFormed hwell] at hflight
    rw [alertedFlight, datagramItems_of_wellFormed (forall_mem_append.mpr ⟨hwell, by simpa using halert⟩),
      flatMap_append, hflight]
    rfl
  have hexchange : (handleItem (.message d.clientKeyExchange)).run (⟨flownSession d base, handler, rng, []⟩ : Feed H) =
      .ok () ⟨exchangedSession d k.keys base, handler, rng, []⟩ := Ready.handle_keyExchange h k.derived rng []
  have hcipher := handle_cipherSpec 3 (⟨exchangedSession d k.keys base, handler, rng, []⟩ : Feed H)
  have hforM : ((datagramItems (alertedFlight k)).forM handleItem).run
      (⟨flownSession d base, handler, rng⟩ : Party H).feed = .error (joinerAlert (alertRecord 4))
        ⟨connectedSession d k.keys base, handler, rng,
          [.transmit (datagramOf [changeCipherSpecRecord 4, k.serverFinished]) false, .connected]⟩ := by
    rw [hitems]
    exact (forM_cons_of_ok hexchange).trans ((forM_cons_of_ok hcipher).trans
      (forM_cons_of_ok (handle_sealedFinished hb k.protectClient k.protectServer rng)))
  exact receive_of_forM_error hforM

end Swallowed

section Witness

open Residues

attribute [local instance] residues

def flownSteps : List (RelayStep StaticJoinerHandler) :=
  .setHandler (StaticJoinerHandler.new.enableAll residuePskd) ::
    helloSteps relayedDraws 1000 0x0400 (List.Vector.replicate 8 0)

theorem taker_flown : ∃ rng,
    taker 1000 0x0400 (List.Vector.replicate 8 0) (runAll RelayStep.run flownSteps residueCommissioner).1 =
      some ⟨flownSession relayedDraws residueSession, StaticJoinerHandler.new.enableAll residuePskd, rng⟩ := by
  let enabled : Commissioner StaticJoinerHandler :=
    { residueCommissioner with joinerHandler := some (StaticJoinerHandler.new.enableAll residuePskd) }
  have htaker : taker 1000 0x0400 (List.Vector.replicate 8 0) enabled =
      some ⟨residueSession, StaticJoinerHandler.new.enableAll residuePskd, relayedDraws.serverRng⟩ := rfl
  have hkeeps := keeps_flown htaker relayedDraws_ready relayedDraws_fresh (Nat.zero_le _)
  exact ⟨_, hkeeps.taker 1000 0x0400⟩

/-- The flight of an honest joiner connects it, and the connection is reported. -/
theorem outcomes_are_queued_residues :
    ∃ payload party,
      taker 1000 0x0400 (List.Vector.replicate 8 0) (runAll RelayStep.run flownSteps residueCommissioner).1 = some party ∧
      (∃ v ∈ visitsOf payload party, Completes v) ∧
      Queues (joinerIdFromIid (List.Vector.replicate 8 0)) (visitsOf payload party)
        (runAll RelayStep.run flownSteps residueCommissioner).1.events
        (finalState ((handleRelayRx 1000 0x0400 (List.Vector.replicate 8 0) payload).run
          (runAll RelayStep.run flownSteps residueCommissioner).1)).events := by
  obtain ⟨k⟩ := Ready.nonempty_sealed relayedDraws_ready
  obtain ⟨rng, htaker⟩ := taker_flown
  have hflight : (receive k.keyFlight).run (⟨flownSession relayedDraws residueSession,
      StaticJoinerHandler.new.enableAll residuePskd, rng⟩ : Party StaticJoinerHandler) = _ :=
    Ready.receive_flight relayedDraws_ready relayedDraws_fresh k.derived k.protectClient k.protectServer rng
  refine ⟨k.keyFlight, _, htaker, exists_completes _ _ nofun ?_, ?_⟩
  · rw [hflight]
    rfl
  · refine (outcomes_are_queued_iff residueCommissioner rfl flownSteps _ _ _ _ _ htaker).mpr ?_
    exact fun v later hsuffix _ w hw => taken_of_receive hflight (hsuffix.subset hw)

/-- With an alert behind the same flight in its datagram, the joiner connects
and nobody is told. -/
theorem connection_is_swallowed_residues :
    ∃ payload party,
      taker 1000 0x0400 (List.Vector.replicate 8 0) (runAll RelayStep.run flownSteps residueCommissioner).1 = some party ∧
      (∃ v ∈ visitsOf payload party, Completes v) ∧
      ¬ Queues (joinerIdFromIid (List.Vector.replicate 8 0)) (visitsOf payload party)
        (runAll RelayStep.run flownSteps residueCommissioner).1.events
        (finalState ((handleRelayRx 1000 0x0400 (List.Vector.replicate 8 0) payload).run
          (runAll RelayStep.run flownSteps residueCommissioner).1)).events := by
  obtain ⟨k⟩ := Ready.nonempty_sealed relayedDraws_ready
  obtain ⟨rng, htaker⟩ := taker_flown
  have halerted := receive_alertedFlight k relayedDraws_ready relayedDraws_fresh
    (StaticJoinerHandler.new.enableAll residuePskd) rng
  obtain ⟨v, hv, hcompletes⟩ : ∃ v ∈ visitsOf (alertedFlight k) (⟨flownSession relayedDraws residueSession,
      StaticJoinerHandler.new.enableAll residuePskd, rng⟩ : Party StaticJoinerHandler), Completes v := by
    refine exists_completes _ _ nofun ?_
    rw [halerted]
    rfl
  refine ⟨alertedFlight k, _, htaker, ⟨v, hv, hcompletes⟩, ?_⟩
  rintro ⟨queued, hqueued, hconnected, -⟩
  rw [events_of_error htaker halerted] at hqueued
  obtain rfl : queued = [] := self_eq_append_right.mp hqueued
  cases hconnected v hv hcompletes

end Witness

end ThreadCommissioner.Outcomes
