import ThreadCommissioner.RelaySessions

namespace ThreadCommissioner.RelayIsolation

open ByteStrings Commissioners Computations JoinerSessions List Primitives RelaySessions Tlvs

section Feeding

variable [Suite] {H : Type} [JoinerHandler H]

def creates (c : Commissioner H) (joinerId : ByteVector 8) : Bool :=
  match c.joinerHandler with
  | none => false
  | some handler =>
    (sweep c.joinerSessions c.now joinerId).isNone && (JoinerHandler.joinerPskd handler joinerId).1.isSome

/-- The session that takes the payload of a notification, with the handler it
asks. -/
def taker (joinerUdpPort joinerRouterLocator : UInt16) (joinerIid : ByteVector 8) (c : Commissioner H) :
    Option (Party H) :=
  match c.joinerHandler with
  | none => none
  | some handler =>
    match sweep c.joinerSessions c.now (joinerIdFromIid joinerIid) with
    | some session => some ⟨session, handler, c.rng⟩
    | none =>
      match JoinerHandler.joinerPskd handler (joinerIdFromIid joinerIid) with
      | (none, _) => none
      | (some pskd, handler) =>
        let (session, rng) := JoinerSession.new joinerIid joinerUdpPort joinerRouterLocator pskd c.now c.rng
        some ⟨session, handler, rng⟩

/-- Where the session that takes a payload comes from, and the state it takes
it in. -/
structure Feeds (c : Commissioner H) (joinerUdpPort joinerRouterLocator : UInt16) (joinerIid : ByteVector 8)
    (party : Party H) (c₁ : Commissioner H) : Prop where
  stored : c₁.joinerSessions (joinerIdFromIid joinerIid) = some party.session
  others : ∀ other, other ≠ joinerIdFromIid joinerIid →
    c₁.joinerSessions other = sweep c.joinerSessions c.now other
  rng : c₁.rng = party.rng
  same : c₁.now = c.now ∧ c₁.sent = c.sent ∧ c₁.events = c.events ∧ c₁.dtlsSession = c.dtlsSession ∧
    c₁.network = c.network
  origin : (creates c (joinerIdFromIid joinerIid) = false ∧
      c.joinerSessions (joinerIdFromIid joinerIid) = some party.session ∧ party.session.expired c.now = false) ∨
    (creates c (joinerIdFromIid joinerIid) = true ∧ ∃ pskd,
      party.session = (JoinerSession.new joinerIid joinerUdpPort joinerRouterLocator pskd c.now c.rng).1)

theorem handleRelayRx_cases (port loc : UInt16) (iid : ByteVector 8) (payload : Bytes) (c : Commissioner H) :
    (taker port loc iid c = none ∧ creates c (joinerIdFromIid iid) = false ∧
      ∃ joinerHandler, (handleRelayRx port loc iid payload).run c =
        .ok () { c with joinerSessions := sweep c.joinerSessions c.now, joinerHandler }) ∨
    ∃ party c₁, taker port loc iid c = some party ∧ Feeds c port loc iid party c₁ ∧
      (handleRelayRx port loc iid payload).run c =
        (driveSession (joinerIdFromIid iid) party.session party.handler payload).run c₁ := by
  rw [handleRelayRx, modify_bind, get_bind, creates, taker]
  cases hhandler : c.joinerHandler with
  | none =>
    exact .inl ⟨rfl, rfl, none, rfl⟩
  | some handler =>
    dsimp only
    cases hsess : sweep c.joinerSessions c.now (joinerIdFromIid iid) with
    | some session =>
      obtain ⟨hstored, hlive⟩ := Option.filter_eq_some_iff.mp hsess
      refine .inr ⟨⟨session, handler, c.rng⟩,
        { c with joinerSessions := sweep c.joinerSessions c.now, joinerHandler := some handler }, rfl,
        ⟨hsess, fun other _ => rfl, rfl, ⟨rfl, rfl, rfl, rfl, rfl⟩, .inl ⟨?_, hstored, ?_⟩⟩, rfl⟩
      · rw [creates, hhandler, hsess]
        rfl
      · simpa using hlive
    | none =>
      cases hpskd : JoinerHandler.joinerPskd handler (joinerIdFromIid iid) with
      | mk pskd handler' =>
        cases pskd with
        | none => exact .inl ⟨rfl, rfl, some handler', rfl⟩
        | some pskd =>
          let created := JoinerSession.new iid port loc pskd c.now c.rng
          refine .inr ⟨⟨created.1, handler', created.2⟩, { c with
            joinerHandler := some handler'
            rng := created.2
            joinerSessions := Function.update (sweep c.joinerSessions c.now) (joinerIdFromIid iid) (some created.1) }, rfl,
            ⟨Function.update_self _ _ _, fun other hother => Function.update_of_ne hother _ _, rfl,
              ⟨rfl, rfl, rfl, rfl, rfl⟩, .inr ⟨?_, pskd, rfl⟩⟩, rfl⟩
          simp only [creates, hhandler, hsess, hpskd, Option.isNone_none, Option.isSome_some, Bool.and_self]

variable {c : Commissioner H} {port loc : UInt16} {iid : ByteVector 8} {payload : Bytes}
  {party : Party H}

theorem Feeds.live {c₁ : Commissioner H} (h : Feeds c port loc iid party c₁) : c.now < party.session.expiresAt := by
  rcases h.origin with ⟨-, -, hlive⟩ | ⟨-, pskd, hnew⟩
  · simpa [JoinerSession.expired] using hlive
  · rw [hnew]
    exact Nat.lt_add_of_pos_right (by decide)

theorem handleRelayRx_of_taker (h : taker port loc iid c = some party) (payload : Bytes) :
    ∃ c₁, Feeds c port loc iid party c₁ ∧ (handleRelayRx port loc iid payload).run c =
        (driveSession (joinerIdFromIid iid) party.session party.handler payload).run c₁ := by
  rcases handleRelayRx_cases port loc iid payload c with
    ⟨hnone, -⟩ | ⟨party', c₁, hsome, hfeeds, hrun⟩
  · cases hnone.symm.trans h
  · obtain rfl : party' = party := Option.some.inj (hsome.symm.trans h)
    exact ⟨c₁, hfeeds, hrun⟩

theorem reliable_of_taker (h : taker port loc iid c = some party)
    (hflight : party.session.serverFlight.length ≤ maxExtendedTlvLength) (payload : Bytes) (hc : Reliable c) :
    Reliable (finalState ((handleRelayRx port loc iid payload).run c)) := by
  obtain ⟨c₁, hfeeds, hdrive⟩ := handleRelayRx_of_taker h payload
  obtain ⟨-, -, -, hdtls, hnetwork⟩ := hfeeds.same
  obtain ⟨c', hrun, hc'⟩ : ∃ c', _ ∧ Reliable c' := driveSession_succeeds hflight party.handler payload
    ⟨hdtls.trans hc.1, hnetwork ▸ hc.2⟩
  rw [hdrive, hrun]
  exact hc'

/-- The commissioner keeps the session, and the handler it asks. -/
structure Keeps (joinerId : ByteVector 8) (party : Party H) (c : Commissioner H) : Prop where
  session : c.joinerSessions joinerId = some party.session
  handler : c.joinerHandler = some party.handler
  rng : c.rng = party.rng
  live : c.now < party.session.expiresAt
  flight : party.session.serverFlight.length ≤ maxExtendedTlvLength

theorem Keeps.taker (h : Keeps (joinerIdFromIid iid) party c) (port loc : UInt16) : taker port loc iid c = some party := by
  have hswept : sweep c.joinerSessions c.now (joinerIdFromIid iid) = some party.session := by
    rw [sweep, h.session]
    exact Option.filter_eq_some_iff.mpr ⟨rfl, by simpa [JoinerSession.expired] using h.live⟩
  simp only [RelayIsolation.taker, h.handler, hswept, h.rng]

theorem keeps_of_taker (h : RelayIsolation.taker port loc iid c = some party)
    (hflight : party.session.serverFlight.length ≤ maxExtendedTlvLength) {evs : List JoinerSessionEvent}
    {party' : Party H} (hrun : (receive payload).run party = .ok evs party')
    (hplain : ∀ dgram, JoinerSessionEvent.transmit dgram true ∉ evs) : Keeps (joinerIdFromIid iid) { party' with
        handler := (dispatchEvents party'.session (joinerIdFromIid iid) evs ⟨party'.handler, [], [], false⟩).handler }
      (finalState ((handleRelayRx port loc iid payload).run c)) := by
  obtain ⟨c₁, hfeeds, hdrive⟩ := handleRelayRx_of_taker h payload
  have htaken : (receive payload).run ⟨party.session, party.handler, c₁.rng⟩ = .ok evs party' := by
    rw [hfeeds.rng, ← hrun]
  have hsame : SameTarget party.session party'.session := by
    have hsame := sameTarget_receive payload party
    rwa [hrun] at hsame
  have hd := dispatchEvents_plain party'.session (joinerIdFromIid iid) hplain ⟨party'.handler, [], [], false⟩
  obtain ⟨mid, sends, outs, heq, -⟩ := driveSession_dispatched (joinerIdFromIid iid) hflight htaken
  have hkept : (finalState ((driveSession (joinerIdFromIid iid) party.session party.handler payload).run
      c₁)).joinerSessions (joinerIdFromIid iid) = some party'.session := by
    rw [heq]
    simp only [dispatched, Function.update_self, hd]
    rfl
  have hdriven := (driveSession_driven hflight c₁ party.handler payload).remains _ hkept
  rw [hdrive]
  refine ⟨hkept, by rw [heq]; rfl, by rw [heq]; rfl, ?_, hdriven.2⟩
  rw [heq]
  change c₁.now < party'.session.expiresAt
  rw [hfeeds.same.1, hsame.expiresAt]
  exact hfeeds.live

theorem Keeps.relay (h : Keeps (joinerIdFromIid iid) party c) (port loc : UInt16)
    {evs : List JoinerSessionEvent} {party' : Party H} (hrun : (receive payload).run party = .ok evs party')
    (hplain : ∀ dgram, JoinerSessionEvent.transmit dgram true ∉ evs) : Keeps (joinerIdFromIid iid) { party' with
        handler := (dispatchEvents party'.session (joinerIdFromIid iid) evs ⟨party'.handler, [], [], false⟩).handler }
      (finalState ((handleRelayRx port loc iid payload).run c)) := keeps_of_taker (h.taker port loc) h.flight hrun hplain

end Feeding

section Runs

/-- What is recorded when a session is created. -/
structure Birth where
  joinerIid : ByteVector 8
  joinerUdpPort : UInt16
  joinerRouterLocator : UInt16
  time : ℕ

def lastBirth (joinerId : ByteVector 8) (born : List Birth) : Option Birth :=
  (born.filter fun birth => joinerIdFromIid birth.joinerIid = joinerId).getLast?

theorem lastBirth_append (jid : ByteVector 8) (born more : List Birth) :
    lastBirth jid (born ++ more) = (lastBirth jid more).or (lastBirth jid born) := by
  rw [lastBirth, filter_append, List.getLast?_append]
  rfl

theorem joinerIdFromIid_injective : Function.Injective joinerIdFromIid := by
  intro iid iid' h
  have hhead := congrArg List.Vector.head h
  have htail := congrArg List.Vector.tail h
  simp only [joinerIdFromIid, List.Vector.head_cons, List.Vector.tail_cons] at hhead htail
  rw [← List.Vector.cons_head_tail iid, ← List.Vector.cons_head_tail iid', htail, (UInt8.xor_left_inj _).mp hhead]

variable [Suite] {H : Type}

inductive RelayStep (H : Type)
  | relayRx (joinerUdpPort joinerRouterLocator : UInt16) (joinerIid : ByteVector 8) (payload : Bytes)
  | setHandler (handler : H)
  | clearHandler
  | advance (elapsed : ℕ)

/-- The session was created as recorded. -/
structure Born (birth : Birth) (session : JoinerSession) : Prop where
  joinerIid : session.joinerIid = birth.joinerIid
  joinerUdpPort : session.joinerUdpPort = birth.joinerUdpPort
  joinerRouterLocator : session.joinerRouterLocator = birth.joinerRouterLocator
  expiresAt : session.expiresAt = birth.time + joinerSessionTimeout

/-- What is true of every session in the map. -/
structure Stored (born : List Birth) (joinerId : ByteVector 8) (session : JoinerSession) : Prop where
  keyed : session.joinerId = joinerId
  derived : joinerIdFromIid session.joinerIid = joinerId
  birth : ∃ birth, lastBirth joinerId born = some birth ∧ Born birth session
  flight : session.serverFlight.length ≤ maxExtendedTlvLength

def AllStored (born : List Birth) (c : Commissioner H) : Prop :=
  ∀ joinerId session, c.joinerSessions joinerId = some session → Stored born joinerId session

variable {born : List Birth} {c : Commissioner H}

theorem allStored_of_empty (h : c.joinerSessions = fun _ => none) : AllStored [] c := by
  intro jid sess hsess
  rw [h] at hsess
  cases hsess

theorem AllStored.sweep {jid : ByteVector 8} {session : JoinerSession} (h : AllStored born c)
    (hsession : sweep c.joinerSessions c.now jid = some session) : Stored born jid session :=
  h jid session (Option.filter_eq_some_iff.mp hsession).1

variable [JoinerHandler H]

def RelayStep.run : RelayStep H → CommissionerM H Unit
  | .relayRx joinerUdpPort joinerRouterLocator joinerIid payload =>
    handleRelayRx joinerUdpPort joinerRouterLocator joinerIid payload
  | .setHandler handler => setJoinerHandler handler
  | .clearHandler => clearJoinerHandler
  | .advance elapsed => modify fun c => { c with now := c.now + elapsed }

def birthsOf (c : Commissioner H) : RelayStep H → List Birth
  | .relayRx joinerUdpPort joinerRouterLocator joinerIid _ =>
    if creates c (joinerIdFromIid joinerIid) then [⟨joinerIid, joinerUdpPort, joinerRouterLocator, c.now⟩] else []
  | _ => []

def births : List (RelayStep H) → Commissioner H → List Birth
  | [], _ => []
  | step :: steps, c => birthsOf c step ++ births steps (finalState (step.run.run c))

variable {joinerId : ByteVector 8} {session : JoinerSession}

theorem Stored.sameTarget {session' : JoinerSession} (h : Stored born joinerId session)
    (hsame : SameTarget session session') (hflight : session'.serverFlight.length ≤ maxExtendedTlvLength) :
    Stored born joinerId session' := by
  obtain ⟨birth, hbirth, hborn⟩ := h.birth
  refine ⟨hsame.joinerId.trans h.keyed, hsame.joinerIid ▸ h.derived, ⟨birth, hbirth, ?_⟩, hflight⟩
  exact ⟨hsame.joinerIid.trans hborn.joinerIid, hsame.joinerUdpPort.trans hborn.joinerUdpPort,
    hsame.joinerRouterLocator.trans hborn.joinerRouterLocator, hsame.expiresAt.trans hborn.expiresAt⟩

theorem Stored.append (h : Stored born joinerId session) {more : List Birth}
    (hmore : ∀ birth ∈ more, joinerIdFromIid birth.joinerIid ≠ joinerId) : Stored (born ++ more) joinerId session := by
  obtain ⟨birth, hbirth, hborn⟩ := h.birth
  have hnone : lastBirth joinerId more = none := by
    rw [lastBirth, filter_eq_nil_iff.mpr (by simpa using hmore)]
    rfl
  exact ⟨h.keyed, h.derived, ⟨birth, by rw [lastBirth_append, hnone]; exact hbirth, hborn⟩, h.flight⟩

theorem Feeds.stored_born {port loc : UInt16} {iid : ByteVector 8}
    {party : Party H} {c₁ : Commissioner H} (h : Feeds c port loc iid party c₁)
    (hstored : AllStored born c) (payload : Bytes) :
    Stored (born ++ birthsOf c (.relayRx port loc iid payload)) (joinerIdFromIid iid)
      party.session ∧ c.now < party.session.expiresAt := by
  rcases h.origin with ⟨hcreates, hsession, -⟩ | ⟨hcreates, pskd, hnew⟩
  · rw [birthsOf, hcreates, if_neg (by decide), append_nil]
    exact ⟨hstored _ _ hsession, h.live⟩
  · refine ⟨?_, h.live⟩
    rw [birthsOf, hcreates, if_pos rfl, hnew]
    refine ⟨rfl, rfl, ⟨⟨iid, port, loc, c.now⟩, ?_, rfl, rfl, rfl, rfl⟩, Nat.zero_le _⟩
    rw [lastBirth_append]
    simp [lastBirth]

theorem mem_birthsOf {port loc : UInt16} {iid : ByteVector 8} {payload : Bytes}
    {birth : Birth} (h : birth ∈ birthsOf c (.relayRx port loc iid payload)) : birth.joinerIid = iid := by
  rw [birthsOf] at h
  split at h
  · rw [mem_singleton.mp h]
  · cases h

theorem allStored_step (h : AllStored born c) (step : RelayStep H) :
    AllStored (born ++ birthsOf c step) (finalState (step.run.run c)) := by
  cases step with
  | relayRx port locator iid payload =>
    have hother : ∀ other, other ≠ joinerIdFromIid iid → ∀ session, Stored born other session →
        Stored (born ++ birthsOf c (.relayRx port locator iid payload)) other session := by
      intro other hne session hsess
      refine hsess.append fun birth hbirth => ?_
      rw [mem_birthsOf hbirth]
      exact hne.symm
    rw [RelayStep.run]
    rcases handleRelayRx_cases port locator iid payload c with
      ⟨-, hcreates, joinerHandler, hrun⟩ | ⟨party, c₁, -, hfeeds, hrun⟩
    · rw [hrun, birthsOf, hcreates, if_neg (by decide), append_nil]
      exact fun joinerId session hsess => h.sweep hsess
    · obtain ⟨hborn, -⟩ := hfeeds.stored_born h payload
      have hdriven : Driven (joinerIdFromIid iid) party.session c₁
          (finalState ((driveSession (joinerIdFromIid iid) party.session party.handler payload).run c₁)) :=
        driveSession_driven hborn.flight c₁ party.handler payload
      rw [hrun]
      intro joinerId session' hsession'
      by_cases hid : joinerId = joinerIdFromIid iid
      · subst hid
        obtain ⟨hsame, hflight⟩ := hdriven.remains session' hsession'
        exact hborn.sameTarget hsame hflight
      · rw [hdriven.others joinerId hid, hfeeds.others joinerId hid] at hsession'
        exact hother joinerId hid session' (h.sweep hsession')
  | setHandler handler => exact (append_nil born).symm ▸ h
  | clearHandler => exact fun joinerId session hsess => nomatch hsess
  | advance elapsed => exact (append_nil born).symm ▸ h

theorem allStored_run (steps : List (RelayStep H)) (h : AllStored born c) :
    AllStored (born ++ births steps c) (runAll RelayStep.run steps c).1 := by
  induction steps generalizing born c with
  | nil =>
    rw [births, append_nil]
    exact h
  | cons step steps ih =>
    rw [births, ← append_assoc]
    exact ih (allStored_step h step)

section Invariants

variable {S : JoinerSession → Prop}
  (hnew : ∀ iid port locator pskd now rng,
    S (JoinerSession.new iid port locator pskd now rng).1)
  (hreceive : ∀ payload (party : Party H) events party', (receive payload).run party = .ok events party' →
    S party.session → S party'.session)

include hnew

theorem Feeds.holds {port locator : UInt16} {iid : ByteVector 8} {party : Party H}
    {c₁ : Commissioner H} (hfeeds : Feeds c port locator iid party c₁)
    (h : ∀ joinerId session, c.joinerSessions joinerId = some session → S session) : S party.session := by
  rcases hfeeds.origin with ⟨-, hsession, -⟩ | ⟨-, pskd, heq⟩
  · exact h _ _ hsession
  · rw [heq]
    exact hnew _ _ _ _ _ _

include hreceive

theorem holds_step (hstored : AllStored born c)
    (h : ∀ joinerId session, c.joinerSessions joinerId = some session → S session) (step : RelayStep H) :
    ∀ joinerId session, (finalState (step.run.run c)).joinerSessions joinerId = some session → S session := by
  have hswept : ∀ joinerId session, sweep c.joinerSessions c.now joinerId = some session → S session :=
    fun joinerId session hsess => h joinerId session (Option.filter_eq_some_iff.mp hsess).1
  cases step with
  | relayRx port locator iid payload =>
    rw [RelayStep.run]
    rcases handleRelayRx_cases port locator iid payload c with
      ⟨-, -, joinerHandler, hrun⟩ | ⟨party, c₁, -, hfeeds, hrun⟩
    · rw [hrun]
      exact hswept
    · have hflight := (hfeeds.stored_born hstored payload).1.flight
      rw [hrun]
      intro joinerId session hsess
      by_cases hid : joinerId = joinerIdFromIid iid
      · subst hid
        obtain ⟨evs, party', htaken, rfl⟩ := driveSession_remains hflight hsess
        exact hreceive _ _ _ _ htaken (hfeeds.holds hnew h)
      · rw [(driveSession_driven hflight c₁ party.handler payload).others joinerId hid, hfeeds.others joinerId hid] at hsess
        exact hswept joinerId session hsess
  | setHandler handler => exact h
  | clearHandler => exact fun joinerId session hsess => nomatch hsess
  | advance elapsed => exact h

theorem holds_run (steps : List (RelayStep H)) (hstored : AllStored born c)
    (h : ∀ joinerId session, c.joinerSessions joinerId = some session → S session) :
    ∀ joinerId session, (runAll RelayStep.run steps c).1.joinerSessions joinerId = some session → S session := by
  induction steps generalizing born c with
  | nil => exact h
  | cons step steps ih => exact ih (allStored_step hstored step) (holds_step hnew hreceive hstored h step)

end Invariants

/-- What a RLY_RX.ntf does in a state whose sessions were created as `born` says. -/
structure Isolated (born : List Birth) (joinerUdpPort joinerRouterLocator : UInt16) (joinerIid : ByteVector 8)
    (payload : Bytes) (c : Commissioner H) : Prop where
  keyed : ∀ c' ∈ [c, finalState ((handleRelayRx joinerUdpPort joinerRouterLocator joinerIid payload).run c)],
    ∀ joinerId session, c'.joinerSessions joinerId = some session →
      session.joinerId = joinerId ∧ joinerIdFromIid session.joinerIid = joinerId
  others : ∀ joinerId, joinerId ≠ joinerIdFromIid joinerIid →
    (finalState ((handleRelayRx joinerUdpPort joinerRouterLocator joinerIid payload).run c)).joinerSessions joinerId =
      (c.joinerSessions joinerId).filter fun session => c.now < session.expiresAt
  deadlines : ∀ joinerId session, c.joinerSessions joinerId = some session → ∃ birth,
    lastBirth joinerId born = some birth ∧ session.expiresAt = birth.time + 80 * 10 ^ 9
  /- The payload reaches no session, or one that is before its deadline. -/
  fed : (∃ joinerHandler, (handleRelayRx joinerUdpPort joinerRouterLocator joinerIid payload).run c =
      .ok () { c with joinerSessions := sweep c.joinerSessions c.now, joinerHandler }) ∨
    ∃ party c₁, taker joinerUdpPort joinerRouterLocator joinerIid c = some party ∧
      Feeds c joinerUdpPort joinerRouterLocator joinerIid party c₁ ∧ c.now < party.session.expiresAt ∧
      (handleRelayRx joinerUdpPort joinerRouterLocator joinerIid payload).run c =
        (driveSession (joinerIdFromIid joinerIid) party.session party.handler payload).run c₁
  sent : ∃ outgoing,
    (finalState ((handleRelayRx joinerUdpPort joinerRouterLocator joinerIid payload).run c)).sent = c.sent ++ outgoing ∧
    ∀ message ∈ outgoing, ∃ birth,
      lastBirth (joinerIdFromIid joinerIid)
        (born ++ birthsOf c (.relayRx joinerUdpPort joinerRouterLocator joinerIid payload)) = some birth ∧
      birth.joinerIid = joinerIid ∧ Relays joinerIid birth.joinerUdpPort birth.joinerRouterLocator message
  succeeds : Reliable c → ∃ c', (handleRelayRx joinerUdpPort joinerRouterLocator joinerIid payload).run c = .ok () c'

theorem isolated_of_allStored (h : AllStored born c) (port loc : UInt16) (iid : ByteVector 8) (payload : Bytes) :
    Isolated born port loc iid payload c := by
  have hkeyed : ∀ c' ∈ [c, finalState ((handleRelayRx port loc iid payload).run c)],
      ∀ joinerId session, c'.joinerSessions joinerId = some session →
        session.joinerId = joinerId ∧ joinerIdFromIid session.joinerIid = joinerId := by
    have hafter := allStored_step h (.relayRx port loc iid payload)
    intro c' hc' joinerId session hsess
    rcases mem_pair.mp hc' with rfl | rfl
    · exact ⟨(h _ _ hsess).keyed, (h _ _ hsess).derived⟩
    · exact ⟨(hafter _ _ hsess).keyed, (hafter _ _ hsess).derived⟩
  have hdeadlines : ∀ joinerId session, c.joinerSessions joinerId = some session → ∃ birth,
      lastBirth joinerId born = some birth ∧ session.expiresAt = birth.time + 80 * 10 ^ 9 := by
    intro joinerId session hsess
    obtain ⟨birth, hbirth, hborn⟩ := (h _ _ hsess).birth
    exact ⟨birth, hbirth, hborn.expiresAt⟩
  have hswept : ∀ joinerId, sweep c.joinerSessions c.now joinerId =
      (c.joinerSessions joinerId).filter fun session => c.now < session.expiresAt := by
    intro joinerId
    simp only [sweep, JoinerSession.expired, ← decide_not, Nat.not_le]
  rcases handleRelayRx_cases port loc iid payload c with
    ⟨-, -, joinerHandler, hrun⟩ | ⟨party, c₁, htaker, hfeeds, hrun⟩
  · refine ⟨hkeyed, fun joinerId _ => ?_, hdeadlines, .inl ⟨joinerHandler, hrun⟩, ⟨[], ?_, fun _ hmem => nomatch hmem⟩,
      fun _ => ⟨_, hrun⟩⟩
    · rw [hrun, ← hswept]
      rfl
    · rw [hrun, append_nil]
      rfl
  · obtain ⟨hstored, hlive⟩ := hfeeds.stored_born h payload
    obtain ⟨hnow, hsent, -, hdtls, hnetwork⟩ := hfeeds.same
    have hdriven : Driven (joinerIdFromIid iid) party.session c₁
        (finalState ((driveSession (joinerIdFromIid iid) party.session party.handler payload).run c₁)) :=
      driveSession_driven hstored.flight c₁ party.handler payload
    obtain ⟨birth, hbirth, hborn⟩ := hstored.birth
    have hiid : party.session.joinerIid = iid := joinerIdFromIid_injective hstored.derived
    refine ⟨hkeyed, fun joinerId hid => ?_, hdeadlines, .inr ⟨party, c₁, htaker, hfeeds, hlive, hrun⟩, ?_, fun hc => ?_⟩
    · rw [hrun, hdriven.others joinerId hid, hfeeds.others joinerId hid, hswept]
    · obtain ⟨outs, houtgoing, hrelays⟩ := hdriven.outgoing
      refine ⟨outs, by rw [hrun, houtgoing, hsent], fun m hmem => ⟨birth, hbirth, ?_, ?_⟩⟩
      · rw [← hborn.joinerIid, hiid]
      · have hmessage := hrelays m hmem
        rwa [hiid, hborn.joinerUdpPort, hborn.joinerRouterLocator] at hmessage
    · rw [hrun]
      obtain ⟨c', hdrive, -⟩ : ∃ c', _ ∧ Reliable c' := driveSession_succeeds hstored.flight party.handler payload
        ⟨hdtls.trans hc.1, hnetwork ▸ hc.2⟩
      exact ⟨c', hdrive⟩

/-- Whatever notifications, handler changes and waits led to a state, a further
notification concerns the session of its own joiner only. -/
theorem relayed_datagrams_are_isolated (start : Commissioner H) (hempty : start.joinerSessions = fun _ => none)
    (steps : List (RelayStep H)) (joinerUdpPort joinerRouterLocator : UInt16) (joinerIid : ByteVector 8)
    (payload : Bytes) :
    Isolated (births steps start) joinerUdpPort joinerRouterLocator joinerIid payload
      (runAll RelayStep.run steps start).1 := by
  exact isolated_of_allStored (allStored_run steps (allStored_of_empty hempty)) _ _ _ _

end Runs

section Honest

open HandshakeAgreement HonestExchange JoinerExchange

theorem transmit_kek_notMem (dgram datagram' : Bytes) :
    JoinerSessionEvent.transmit dgram true ∉ [JoinerSessionEvent.transmit datagram' false] := by
  intro hmem
  cases mem_singleton.mp hmem

variable [Suite] {H : Type} [JoinerHandler H] {d : Draws} {secret : Bytes} {base : JoinerSession}

def helloSteps (d : Draws) (joinerUdpPort joinerRouterLocator : UInt16) (joinerIid : ByteVector 8) : List (RelayStep H) :=
  [.relayRx joinerUdpPort joinerRouterLocator joinerIid (Drivers.datagramOf [(helloMessage d.client 0 []).record 0 0]),
    .relayRx joinerUdpPort joinerRouterLocator joinerIid (Drivers.datagramOf [d.hello.record 0 1])]

theorem keeps_challenged {c : Commissioner H} {port loc : UInt16} {iid : ByteVector 8}
    {handler : H} (htaker : taker port loc iid c = some ⟨base, handler, d.serverRng⟩)
    (h : Ready d secret) (hb : Fresh d base) (hflight : base.serverFlight.length ≤ maxExtendedTlvLength) :
    Keeps (joinerIdFromIid iid) ⟨challengedSession base, handler, d.serverRng⟩ (finalState ((handleRelayRx port loc iid
        (Drivers.datagramOf [(helloMessage d.client 0 []).record 0 0])).run c)) :=
  keeps_of_taker htaker hflight (Ready.receive_hello h hb d.serverRng) fun dgram => transmit_kek_notMem dgram _

theorem keeps_flown {c : Commissioner H} {port loc : UInt16} {iid : ByteVector 8}
    {handler : H} (htaker : taker port loc iid c = some ⟨base, handler, d.serverRng⟩)
    (h : Ready d secret) (hb : Fresh d base) (hflight : base.serverFlight.length ≤ maxExtendedTlvLength) :
    Keeps (joinerIdFromIid iid)
      ⟨flownSession d base, handler, (roundTwoOf d.server.ecjpake d.client.ecjpake d.serverRng).2⟩
      (runAll RelayStep.run (helloSteps d port loc iid) c).1 := by
  have hfirst := keeps_challenged htaker h hb hflight
  exact hfirst.relay port loc (Ready.receive_cookie h hb) fun dgram =>
    transmit_kek_notMem dgram _

end Honest

section Witness

open JoinerExchange Residues

attribute [local instance] residues

/-- A commissioner with an established session to its border agent and no joiners yet. -/
def residueCommissioner : Commissioner StaticJoinerHandler :=
  { borderAgent := .v4 (List.Vector.replicate 4 0)
    state := .active
    sessionId := some 1
    dtlsSession := true
    nextMessageId := 0
    events := []
    meshLocalPrefix := some (List.Vector.replicate 8 0)
    joinerHandler := none
    joinerSessions := fun _ => none
    now := 0
    rng := residueRng []
    sent := []
    network := ⟨[], [], []⟩ }

def residueSteps : List (RelayStep StaticJoinerHandler) :=
  [.setHandler (StaticJoinerHandler.new.enableAll residuePskd), .relayRx 1000 0x0400 (List.Vector.replicate 8 0) [22],
    .advance 5]

/-- The malformed datagram removes the session, so the hello creates one anew. -/
theorem relayed_datagrams_are_isolated_residues :
    Reliable (runAll RelayStep.run residueSteps residueCommissioner).1 ∧
      births residueSteps residueCommissioner = [⟨List.Vector.replicate 8 0, 1000, 0x0400, 0⟩] ∧
      creates (runAll RelayStep.run residueSteps residueCommissioner).1
        (joinerIdFromIid (List.Vector.replicate 8 0)) = true ∧
      Isolated (births residueSteps residueCommissioner) 1000 0x0800 (List.Vector.replicate 8 0)
        (Drivers.datagramOf [(HonestExchange.helloMessage residueDraws.client 0 []).record 0 0])
        (runAll RelayStep.run residueSteps residueCommissioner).1 := by
  have hsends : (runAll RelayStep.run residueSteps residueCommissioner).1.network.sends = [] := by decide +kernel
  refine ⟨⟨by decide +kernel, ?_⟩, rfl, by decide +kernel, ?_⟩
  · rw [hsends]
    exact forall_mem_nil _
  · exact relayed_datagrams_are_isolated residueCommissioner rfl residueSteps _ _ _ _

/-- The draws of an honest joiner, and of the session a notification creates
for it. -/
def relayedDraws : HandshakeAgreement.Draws :=
  joinerDraws residuePskd (residueRng []) residueSession
    (JoinerSession.new (List.Vector.replicate 8 0) 1000 0x0400 residuePskd 0 (residueRng [])).2

theorem relayedDraws_ready : HandshakeAgreement.Ready relayedDraws residuePskd.bytes :=
  ready_new _ _ _ _ _ _ _ _ residueDraws_ready.pair.matched

theorem relayedDraws_fresh : Fresh relayedDraws residueSession := fresh_new _ _ _ _ _ _ _ _

end Witness

end ThreadCommissioner.RelayIsolation
