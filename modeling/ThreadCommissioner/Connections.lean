import ThreadCommissioner.Decisions

namespace ThreadCommissioner.Connections

open ByteStrings Computations Decisions Drivers HandshakeAgreement HandshakeMessages HonestExchange List
open JoinerExchange JoinerRuns JoinerSessions JoinerSteps KekGate KeySchedule Nonces Primitives RecordProtection Records
open Residues ServerHandshake Texts

section Counts

def connections (events : List JoinerSessionEvent) : ℕ := events.count .connected

/-- The protected handshake records that are sent, which carry the Finished
messages of the server. -/
def finishedIn (events : List JoinerSessionEvent) : List DtlsRecord :=
  (sealedIn (transmitted events)).filter (·.header.contentType = .handshake)

def finishedOf (messages : List HandshakeMessage) : List HandshakeMessage := messages.filter (·.messageType = .finished)

theorem connections_append (evs more : List JoinerSessionEvent) :
    connections (evs ++ more) = connections evs + connections more := count_append

theorem finishedIn_append (evs more : List JoinerSessionEvent) :
    finishedIn (evs ++ more) = finishedIn evs ++ finishedIn more := by
  rw [finishedIn, transmitted, filterMap_append, sealedIn_append, filter_append]
  rfl

end Counts

section Steps

variable [Suite] {H : Type} {s t : Feed H} {item : Item} {messages : List HandshakeMessage}

/-- The Finished carries the verify data of the joiner over the transcript. -/
def Verifies (keys : ThreadDtlsKeyMaterial) (transcript : HandshakeTranscript) (message : HandshakeMessage) : Prop :=
  (transcript.finishedVerifyData keys.masterSecret .client).toList = message.payload

/-- The transcript with the Finished and the one that answers it. -/
def answered (keys : ThreadDtlsKeyMaterial) (transcript : HandshakeTranscript) (message : HandshakeMessage) :
    HandshakeTranscript :=
  let taken : HandshakeTranscript := ⟨transcript.bytes ++ message.bytes⟩
  let answer : HandshakeMessage := ⟨.finished, 4, (taken.finishedVerifyData keys.masterSecret .server).toList⟩
  ⟨taken.bytes ++ answer.bytes⟩

/-- The first Finished verifies, and the second one over what the first has
made of the transcript. -/
def VerifyInTurn (session : JoinerSession) (messages : List HandshakeMessage) : Prop :=
  ∃ keys first second later, session.keyMaterial = some keys ∧ finishedOf messages = first :: second :: later ∧
    Verifies keys session.handshake.transcript first ∧
    Verifies keys (answered keys session.handshake.transcript first) second

def Connects (s t : Feed H) (n : ℕ) : Prop :=
  ∃ pushed, t.events = s.events ++ pushed ∧ connections pushed = n ∧ (finishedIn pushed).length = n

theorem connects_zero (h : t.events = s.events) : Connects s t 0 := ⟨[], by rw [h, append_nil], rfl, rfl⟩

theorem connects_transmit {dgram : Bytes} {includeKek : Bool}
    (h : t.events = s.events ++ [.transmit dgram includeKek]) (hsealed : sealedIn [dgram] = []) : Connects s t 0 := by
  refine ⟨_, h, rfl, ?_⟩
  change ((sealedIn [dgram]).filter _).length = 0
  rw [hsealed]
  rfl

theorem confirms_connects (h : Confirms messages s t) : ∃ n, Connects s t n ∧ (n ≠ 0 →
    t.session.phase = .connected ∧ ∃ keys first rest, s.session.keyMaterial = some keys ∧
      finishedOf messages = first :: rest ∧ Verifies keys s.session.handshake.transcript first ∧
      (2 ≤ n → VerifyInTurn s.session messages)) := by
  induction h with
  | done s => exact ⟨0, connects_zero rfl, fun h => absurd rfl h⟩
  | stopped hfail => exact ⟨0, connects_zero hfail.events, fun h => absurd rfl h⟩
  | @next m messages s t u hstep hrest ih =>
    obtain ⟨n, ⟨pushed, hpushed, hcount, hsent⟩, hverified⟩ := ih
    cases hstep with
    | skipped htype =>
      have hskip : finishedOf (m :: messages) = finishedOf messages := filter_cons_of_neg (by simpa using htype)
      refine ⟨n, ⟨pushed, hpushed, hcount, hsent⟩, ?_⟩
      rw [VerifyInTurn, hskip]
      exact hverified
    | @verified keys checked hs sfin fin htype hkeys hverify hbuild hprot =>
      obtain ⟨-, hpayload, -, rfl⟩ := verifyClientFinished_eq_ok.mp hverify
      obtain ⟨rfl, rfl⟩ := buildServerFinished_eq_ok.mp hbuild
      have htake : finishedOf (m :: messages) = m :: finishedOf messages := filter_cons_of_pos (by simpa using htype)
      rw [finish_events, append_assoc] at hpushed
      have hone : finishedIn [.transmit (datagramOf [changeCipherSpecRecord s.session.epoch0Sequence, fin])
          false, .connected] = [fin] := by
        change (sealedIn [datagramOf [changeCipherSpecRecord s.session.epoch0Sequence, fin]]).filter _ = _
        rw [sealedIn_finish hprot, filter_singleton, (header_of_protect hprot).1]
        rfl
      refine ⟨n + 1, ⟨_, hpushed, ?_, ?_⟩, fun _ => ⟨hrest.frame.phase.elim id id, keys, m, _, hkeys, htake,
        hpayload, fun htwo => ?_⟩⟩
      · rw [connections_append, hcount, Nat.add_comm]
        rfl
      · rw [finishedIn_append, length_append, hone, hsent, Nat.add_comm]
        rfl
      · -- the rest begins with another one that verifies
        obtain ⟨-, keys', second, later, hkeys', hrest, hsecond, -⟩ := hverified (by omega)
        obtain rfl : keys = keys' := Option.some.inj (hkeys.symm.trans hkeys')
        exact ⟨keys, m, second, later, hkeys, htake.trans (congrArg _ hrest), hpayload, hsecond⟩

variable [JoinerHandler H]

theorem move_connects (htidy : Tidy s.session) (hmove : Move s item t) :
    Connects s t 0 ∨ ∃ record messages n, item = .encrypted record ∧ OpensTo record s.session messages ∧
      Connects s t n ∧ t.session.phase = .connected ∧ (2 ≤ n → VerifyInTurn s.session messages) := by
  cases hmove with
  | quiet hquiet => exact .inl (connects_zero hquiet.events)
  | plaintext hstep =>
    left
    cases hstep with
    | challenged => exact connects_transmit rfl (sealedIn_challenge _ _ _ _)
    | accepted _ _ _ _ _ h₁ h₂ h₃ => exact connects_transmit rfl (sealedIn_flight h₁ h₂ h₃ _)
    | repeated => exact connects_transmit rfl htidy.2
    | exchanged => exact connects_zero rfl
  | @confirmed record messages _ hopens hconfirms =>
    obtain ⟨n, hconnects, hverified⟩ := confirms_connects hconfirms
    by_cases hzero : n = 0
    · exact .inl (hzero ▸ hconnects)
    · obtain ⟨hphase, _, _, _, -, -, -, htwo⟩ := hverified hzero
      exact .inr ⟨record, messages, n, rfl, hopens, hconnects, hphase, htwo⟩
  | cipherSpec hpayload => exact .inl (connects_zero rfl)
  | consulted info => exact .inl (connects_zero (consult_events s info))
  | application hstep =>
    left
    cases hstep with
    | ignored => exact connects_zero rfl
    | @answered plaintext payload request info keyMaterial response hphase hopen hdec hpath hinfo hkeys henc
        hprotect =>
        refine ⟨_, answered_events s info response, ?_, ?_⟩
        · split <;> rfl
        · have hsealed : sealedIn (transmitted (.transmit response.bytes (consult s info).1 ::
              if s.session.phase = .finalized then [] else [.finalized (consult s info).1 info])) = [response] := by
            split <;> exact sealedIn_answer hprotect
          rw [finishedIn, hsealed, filter_singleton, (header_of_protect hprotect).1]
          rfl

end Steps

section Runs

variable [Suite] {H : Type} [JoinerHandler H]

/-- Of the encrypted record, where it opens, no two Finished verify in turn. -/
def SingleFinished (v : Visit H) : Prop :=
  ∀ record messages, v.item = .encrypted record → OpensTo record v.before.session messages →
    ¬ VerifyInTurn v.before.session messages

/-- A session has connected once when it is past its handshake, and not
before. -/
structure ConnectedOnce (past : List JoinerSessionEvent) (party : Party H) : Prop where
  tidy : Tidy party.session
  count : connections past ≤ if 2 ≤ rank party.session.phase then 1 else 0
  finished : (finishedIn past).length = connections past

theorem ConnectedOnce.move {past : List JoinerSessionEvent} {s t : Feed H} {item : Item}
    (h : ConnectedOnce past s.party) (hmove : Move s item t) : ConnectedOnce past t.party := by
  refine ⟨(move_sends h.tidy hmove).tidy, h.count.trans ?_, h.finished⟩
  have hrank := move_rank hmove
  change (if 2 ≤ rank s.session.phase then 1 else 0) ≤ if 2 ≤ rank t.session.phase then 1 else 0
  split
  · rw [if_pos (by omega)]
  · exact Nat.zero_le _

theorem ConnectedOnce.push {past : List JoinerSessionEvent} {s t : Feed H} {item : Item}
    (h : ConnectedOnce (past ++ s.events) s.party) (hmove : Move s item t) (hsingle : SingleFinished ⟨s, item, t⟩) :
    ConnectedOnce (past ++ t.events) t.party := by
  have hkept := h.move hmove
  have htidy : Tidy s.session := h.tidy
  rcases move_connects htidy hmove with ⟨pushed, hpushed, hcount, hsent⟩ |
    ⟨r, ms, n, hitem, hopens, ⟨pushed, hpushed, hcount, hsent⟩, hphase, htwo⟩
  · rw [hpushed, ← append_assoc]
    refine ⟨hkept.tidy, ?_, ?_⟩
    · rw [connections_append, hcount]
      exact hkept.count
    · rw [finishedIn_append, length_append, connections_append, hkept.finished, hcount, hsent]
  · -- the session was still in its handshake, so nothing has been reported before
    have hnone : connections (past ++ s.events) = 0 := by
      have hcount := h.count
      have hwaiting : ¬ 2 ≤ rank s.party.session.phase := by
        change ¬ 2 ≤ rank s.session.phase
        rw [hopens.1]
        decide
      rw [if_neg hwaiting] at hcount
      exact Nat.le_zero.mp hcount
    have hone : ¬ 2 ≤ n := fun hn => hsingle r ms hitem hopens (htwo hn)
    rw [hpushed, ← append_assoc]
    refine ⟨hkept.tidy, ?_, ?_⟩
    · change _ ≤ if 2 ≤ rank t.session.phase then 1 else 0
      rw [connections_append, hnone, hcount, hphase, if_pos (by decide)]
      omega
    · rw [finishedIn_append, length_append, connections_append, h.finished, hcount, hsent]

/-- When no two Finished of one record verify in turn, a session connects at
most once and sends at most one Finished of its own. -/
theorem connects_at_most_once (joinerIid : ByteVector 8) (joinerUdpPort joinerRouterLocator : UInt16) (pskd : Text)
    (now : ℕ) (rng rng' : Rng) (handler : H) (datagrams : List Bytes) (start : Party H)
    (hstart : start = freshParty joinerIid joinerUdpPort joinerRouterLocator pskd now rng rng' handler)
    (hsingle : ∀ v ∈ history datagrams start, SingleFinished v) :
    connections (emitted (runAll receive datagrams start).2) ≤ 1 ∧
      (finishedIn (emitted (runAll receive datagrams start).2)).length ≤ 1 := by
  have hfresh : ConnectedOnce [] start := by
    rw [hstart]
    exact ⟨tidy_new joinerIid joinerUdpPort joinerRouterLocator pskd now rng, Nat.zero_le _, rfl⟩
  have hrun := run_invariant (I := ConnectedOnce) (C := SingleFinished)
    (fun _ _ _ _ hmove _ h => h.move hmove) (fun _ _ _ _ hmove hv h => h.push hmove hv) hfresh datagrams hsingle
  rw [nil_append] at hrun
  have hcount : connections (emitted (runAll receive datagrams start).2) ≤ 1 := by
    refine hrun.count.trans ?_
    split
    · exact le_rfl
    · exact Nat.zero_le _
  exact ⟨hcount, hrun.finished.trans_le hcount⟩

end Runs

section Twice

variable [Suite] {H : Type} {d : Draws} {keys : ThreadDtlsKeyMaterial} {base : JoinerSession}

/-- The transcript as it stands once the server has confirmed the handshake. -/
def confirmedMessages (d : Draws) (keys : ThreadDtlsKeyMaterial) : List HandshakeMessage :=
  d.beforeFinished ++ [d.clientFinished keys] ++ [d.serverFinished keys]

/-- A second Finished of the joiner, over the transcript that the first has
grown. -/
def secondFinished (d : Draws) (keys : ThreadDtlsKeyMaterial) : HandshakeMessage :=
  ⟨.finished, 4, ((HandshakeTranscript.ofMessages (confirmedMessages d keys)).finishedVerifyData keys.masterSecret
    .client).toList⟩

def secondAnswer (d : Draws) (keys : ThreadDtlsKeyMaterial) : HandshakeMessage :=
  ⟨.finished, 4, ((HandshakeTranscript.ofMessages (confirmedMessages d keys ++ [secondFinished d keys])).finishedVerifyData
    keys.masterSecret .server).toList⟩

theorem handle_secondFinished (base : JoinerSession) {fin : DtlsRecord} (handler : H) (rng : Rng)
    (evs : List JoinerSessionEvent)
    (hfinished : protectAes128Ccm8Record .handshake 1 1 keys.keyBlock.serverWriteKey keys.keyBlock.serverWriteIv
      (secondAnswer d keys).bytes = .ok fin) :
    ∃ feed : Feed H, (handleFinished (secondFinished d keys)).run ⟨connectedSession d keys base, handler, rng, evs⟩ =
        .ok () feed ∧ feed.events = evs ++ [.transmit (datagramOf [changeCipherSpecRecord 5, fin]) false, .connected] := by
  have hfit : (secondFinished d keys).Short := Draws.finished_short _ _
  have hverify : (verifyClientFinished (secondFinished d keys) keys).run (d.keyedServer (confirmedMessages d keys)) =
      .ok () (d.keyedServer (confirmedMessages d keys ++ [secondFinished d keys])) :=
    verifyClientFinished_eq_ok.mpr ⟨rfl, rfl, hfit.fits, (Draws.record_keyedServer _ _).symm⟩
  have hbuild : (buildServerFinished 4 keys).run
      (d.keyedServer (confirmedMessages d keys ++ [secondFinished d keys])) = .ok (secondAnswer d keys)
        (d.keyedServer (confirmedMessages d keys ++ [secondFinished d keys] ++ [secondAnswer d keys])) :=
    buildServerFinished_eq_ok.mpr ⟨rfl, (Draws.record_keyedServer _ _).symm⟩
  exact ⟨_, handleFinished_eq_ok.mpr (.verified rfl rfl hverify hbuild hfinished), finish_events _ _ _⟩

variable [JoinerHandler H]

theorem sealed_connects_twice {secret : Bytes} (k : Sealed d) (h : Ready d secret) (hb : Fresh d base)
    (handler : H) : ∃ dgram, connections (emitted (runAll receive (k.handshake.take 2 ++ [dgram])
      (⟨base, handler, d.serverRng⟩ : Party H)).2) = 2 := by
  have hfirst : (d.clientFinished k.keys).Short := Draws.finished_short _ _
  have hsecond : (secondFinished d k.keys).Short := Draws.finished_short _ _
  have hanswer : (secondAnswer d k.keys).Short := Draws.finished_short _ _
  let plaintext := [d.clientFinished k.keys, secondFinished d k.keys].flatMap HandshakeMessage.bytes
  have hlength : plaintext.length ≤ 2072 := by
    have h₁ := hfirst.length_bytes
    have h₂ := hsecond.length_bytes
    simp only [plaintext, flatMap_cons, flatMap_nil, append_nil, length_append]
    omega
  obtain ⟨cipher, hsealed⟩ : ∃ cipher, protectAes128Ccm8Record .handshake 1 0 k.keys.keyBlock.clientWriteKey
      k.keys.keyBlock.clientWriteIv plaintext = .ok (protectedRecord .handshake 1 0 cipher) :=
    exists_protect _ _ (by decide) (by omega)
  obtain ⟨ciphertext', hfinished⟩ : ∃ cipher, protectAes128Ccm8Record .handshake 1 1
      k.keys.keyBlock.serverWriteKey k.keys.keyBlock.serverWriteIv (secondAnswer d k.keys).bytes =
        .ok (protectedRecord .handshake 1 1 cipher) :=
    exists_protect _ _ (by decide) (by have := hanswer.length_bytes; omega)
  let rng := (roundTwoOf d.server.ecjpake d.client.ecjpake d.serverRng).2
  obtain ⟨feed, hfeed, hevents⟩ := handle_secondFinished base handler rng
    ([] ++ [.transmit (datagramOf [changeCipherSpecRecord 4, k.serverFinished]) false, .connected]) hfinished
  obtain ⟨plainRec, hnew, hparse⟩ := HandshakeMessage.parse_packed
    [d.clientFinished k.keys, secondFinished d k.keys] (by simp [hfirst.fits, hsecond.fits])
    (hlength.trans (by decide)) 1 0
  have hrun : (handleItem (.encrypted (protectedRecord .handshake 1 0 cipher))).run
      (⟨keyedSession d k.keys base, handler, rng, []⟩ : Feed H) = .ok () feed := by
    rw [handleItem_encrypted rfl rfl (openRecord_keyed hsealed) hnew hparse]
    exact (bind_of_ok (handle_clientFinished hb k.protectServer rng [])).trans (bind_of_ok hfeed)
  have hflight := Ready.receive_keyed h k.derived hsealed hrun
  refine ⟨datagramOf [d.clientKeyExchange.record 0 2, changeCipherSpecRecord 3, protectedRecord .handshake 1 0 cipher], ?_⟩
  rw [Sealed.handshake, take_succ_cons, take_succ_cons, take_zero, cons_append, cons_append,
    nil_append, runAll, Ready.receive_hello h hb, runAll, finalState, Ready.receive_cookie h hb, runAll, finalState, hflight]
  change connections ([_] ++ ([_] ++ (feed.events ++ []))) = 2
  rw [hevents]
  rfl

end Twice

section Honest

variable [Suite] {H : Type} {d : Draws} {base : JoinerSession} {secret : Bytes}

theorem singleFinished_of_message {m : HandshakeMessage} {s t : Feed H} :
    SingleFinished ⟨s, .message m, t⟩ := fun _ _ hitem _ => nomatch hitem

theorem singleFinished_keyed (k : Sealed d) {handler : H} {rng : Rng} {events : List JoinerSessionEvent} {t : Feed H} :
    SingleFinished ⟨⟨keyedSession d k.keys base, handler, rng, events⟩, .encrypted k.clientFinished, t⟩ := by
  rintro record messages hitem ⟨-, -, plaintext, plainRecord, hopen, hnew, hparse⟩
  have hfit : (d.clientFinished k.keys).Short := Draws.finished_short _ _
  obtain rfl : k.clientFinished = record := Item.encrypted.inj hitem
  obtain rfl : (d.clientFinished k.keys).bytes = plaintext :=
    ok_unique (openRecord_keyed k.protectClient) hopen
  obtain rfl : (d.clientFinished k.keys).record 1 0 = plainRecord := ok_unique (hfit.new_record 1 0) hnew
  obtain rfl : [d.clientFinished k.keys] = messages := ok_unique (hfit.parse_records 1 0) hparse
  rintro ⟨_, _, _, _, -, htwo, -⟩
  cases htwo

variable [JoinerHandler H]

theorem sealed_single (k : Sealed d) (h : Ready d secret) (hb : Fresh d base) (handler : H) :
    ∀ v ∈ history k.handshake (⟨base, handler, d.serverRng⟩ : Party H), SingleFinished v := by
  have hempty : ([] : Bytes).length ≤ 255 := Nat.zero_le _
  have hfirst := h.pair.honestClient.helloMessage_short hempty 0
  have hsecond : d.hello.Short := h.pair.honestClient.helloMessage_short Draws.cookie_le 1
  let rng := (roundTwoOf d.server.ecjpake d.client.ecjpake d.serverRng).2
  have hexchange : (handleItem (.message d.clientKeyExchange)).run (⟨flownSession d base, handler, rng, []⟩ : Feed H) =
      .ok () ⟨exchangedSession d k.keys base, handler, rng, []⟩ := Ready.handle_keyExchange h k.derived rng []
  have hcipher := handle_cipherSpec 3 (⟨exchangedSession d k.keys base, handler, rng, []⟩ : Feed H)
  obtain ⟨s, t, s', t', u, hflight⟩ : ∃ s t s' t' u, visitsOf k.keyFlight
      (⟨flownSession d base, handler, rng⟩ : Party H) =
        [⟨s, .message d.clientKeyExchange, t⟩, ⟨s', .changeCipherSpec (changeCipherSpecRecord 3), t'⟩,
          ⟨⟨keyedSession d k.keys base, handler, rng, []⟩, .encrypted k.clientFinished, u⟩] := by
    rw [visitsOf, Sealed.keyFlight, Ready.flight_items h k.protectClient]
    have hlast := (rounds_cons_of_ok hcipher [.encrypted k.clientFinished]).trans
      (congrArg (List.cons _) (rounds_singleton _ _ _))
    exact ⟨_, _, _, _, _, (rounds_cons_of_ok hexchange _).trans (congrArg (List.cons _) hlast)⟩
  rw [Sealed.handshake, history, Ready.receive_hello h hb, history, finalState, Ready.receive_cookie h hb, history,
    finalState, hflight, visitsOf, datagramItems_message hfirst (by decide), rounds_singleton, visitsOf,
    datagramItems_message hsecond (by decide), rounds_singleton]
  refine forall_mem_cons.mpr ⟨singleFinished_of_message, forall_mem_cons.mpr ⟨singleFinished_of_message, ?_⟩⟩
  refine forall_mem_cons.mpr ⟨singleFinished_of_message, forall_mem_cons.mpr ⟨(fun _ _ h _ => by cases h), ?_⟩⟩
  exact forall_mem_cons.mpr ⟨singleFinished_keyed k, forall_mem_nil _⟩

end Honest

section Witness

attribute [local instance] residues

theorem connects_at_most_once_residues :
    ∃ (datagrams : List Bytes) (start : Party StaticJoinerHandler),
      start = freshParty (List.Vector.replicate 8 0) 1000 0x0400 residuePskd 0 (residueRng []) (residueRng []) .new ∧
      (∀ v ∈ history datagrams start, SingleFinished v) ∧ .connected ∈ emitted (runAll receive datagrams start).2 ∧
      connections (emitted (runAll receive datagrams start).2) ≤ 1 ∧
      (finishedIn (emitted (runAll receive datagrams start).2)).length ≤ 1 := by
  obtain ⟨k⟩ := Ready.nonempty_sealed residueDraws_ready
  have hsingle := sealed_single k residueDraws_ready residueSession_fresh StaticJoinerHandler.new
  have hrun := k.runAll_handshake residueDraws_ready residueSession_fresh StaticJoinerHandler.new
  refine ⟨k.handshake, _, rfl, hsingle, ?_, connects_at_most_once (List.Vector.replicate 8 0) 1000 0x0400 residuePskd 0
    (residueRng []) (residueRng []) .new k.handshake _ rfl hsingle⟩
  have hemitted := congrArg (fun result => JoinerSessionEvent.connected ∈ emitted result.2) hrun
  exact hemitted.mpr (by simp [emitted, successes])

theorem connects_twice_residues :
    ∃ datagrams : List Bytes, connections (emitted (runAll receive datagrams
      (freshParty (List.Vector.replicate 8 0) 1000 0x0400 residuePskd 0 (residueRng []) (residueRng [])
        StaticJoinerHandler.new)).2) = 2 := by
  obtain ⟨k⟩ := Ready.nonempty_sealed residueDraws_ready
  obtain ⟨datagram, h⟩ := sealed_connects_twice k residueDraws_ready residueSession_fresh StaticJoinerHandler.new
  exact ⟨_, h⟩

end Witness

end ThreadCommissioner.Connections
