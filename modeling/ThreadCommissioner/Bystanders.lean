import ThreadCommissioner.CookieExchange
import ThreadCommissioner.Strangers

namespace ThreadCommissioner.Bystanders

open ByteStrings Computations CookieExchange Drivers HandshakeAgreement HandshakeMessages Hellos KeySchedule List
  Primitives RecordProtection Records Residues ServerDriver ServerHandshake Strangers

section Bystanders

variable {Addr TransportError : Type}

theorem flightRecord_eq_ok {m : HandshakeMessage} {out out' : Outbound Addr} {r : DtlsRecord} :
    (flightRecord m).run out = .ok r out' ↔ ∃ encoded, m.encode = .ok encoded ∧
        DtlsRecord.new .handshake 0 out.nextEpochZeroRecord encoded = .ok r ∧
        out' = { out with nextEpochZeroRecord := out.nextEpochZeroRecord + 1 } := by
  rw [flightRecord, get_bind]
  simp only [lift_bind_ok, modify_bind, run_pure, EStateM.Result.ok.injEq]
  constructor
  · rintro ⟨encoded, henc, _, hnew, rfl, rfl⟩
    exact ⟨encoded, henc, hnew, rfl⟩
  · rintro ⟨encoded, henc, hnew, rfl⟩
    exact ⟨encoded, henc, r, hnew, rfl, rfl⟩

theorem flightRecord_anywhere {m : HandshakeMessage} {out out' : Outbound Addr} {r : DtlsRecord}
    (h : (flightRecord m).run out = .ok r out') (other : Outbound Addr) :
    ∃ record' other', (flightRecord m).run other = .ok record' other' ∧
      record'.payload.length = record'.header.length.toNat := by
  obtain ⟨encoded, henc, hnew, -⟩ := flightRecord_eq_ok.mp h
  have hsize : ¬ 65535 < encoded.length := by
    intro hlong
    rw [DtlsRecord.new, if_pos hlong] at hnew
    cases hnew
  have hnew' : DtlsRecord.new .handshake 0 other.nextEpochZeroRecord encoded = .ok _ := if_neg hsize
  exact ⟨_, _, flightRecord_eq_ok.mpr ⟨encoded, henc, hnew', rfl⟩, (DtlsRecord.new_eq_ok hnew').2.2.2.2⟩

theorem follows_sendFlight {peer : Addr} (a b c : HandshakeMessage) : Follows (fun _ _ => True) (do
      let first ← flightRecord a
      let second ← flightRecord b
      let third ← flightRecord c
      sendRecords peer [first, second, third] : OutboundM Addr Unit) := by
  intro out r out' h other _
  obtain ⟨_, _, h₁, h⟩ := bind_eq_ok.mp h
  obtain ⟨_, _, h₂, h⟩ := bind_eq_ok.mp h
  obtain ⟨_, _, h₃, h⟩ := bind_eq_ok.mp h
  obtain ⟨first, other₁, h₁, hl₁⟩ := flightRecord_anywhere h₁ other
  obtain ⟨second, other₂, h₂, hl₂⟩ := flightRecord_anywhere h₂ other₁
  obtain ⟨third, other₃, h₃, hl₃⟩ := flightRecord_anywhere h₃ other₂
  rw [bind_of_ok h₁, bind_of_ok h₂, bind_of_ok h₃, sendRecords_of_length (by simp [hl₁, hl₂, hl₃])]
  exact ⟨_, rfl, trivial⟩

def IsChallenge (bytes : Bytes) : Prop :=
  ∃ messageSeq cookie sequence, bytes = verifyRequestDatagram messageSeq cookie sequence

def SentTo (peer : Option Addr) (sent : List (Addr × Bytes)) : Prop :=
  ∀ entry ∈ sent, some entry.1 = peer ∨ IsChallenge entry.2

theorem SentTo.snoc {sent : List (Addr × Bytes)} (h : SentTo none sent) (peer : Addr) (flight : Bytes) :
    SentTo (some peer) (sent ++ [(peer, flight)]) := by
  intro entry hm
  rcases mem_append.mp hm with hm | hm
  · rcases h entry hm with hnone | hchallenge
    · cases hnone
    · exact .inr hchallenge
  · cases mem_singleton.mp hm
    exact .inl rfl

variable [Suite]

section Quiet

variable (cookies : DtlsCookieGenerator)

/-- The message is no hello, or one that decodes and does not return its cookie. -/
def QuietMessage (message : HandshakeMessage) : Prop :=
  message.messageType = .clientHello →
    ∃ hello, ClientHello.decode message.payload = .ok hello ∧ cookies.verify hello.random hello.cookie = false

def QuietRecord (record : DtlsRecord) : Prop :=
  record.header.epoch = 0 ∧ record.header.contentType = .handshake →
    ∃ messages, parseUnfragmentedHandshakeMessages record = .ok messages ∧ ∀ m ∈ messages, QuietMessage cookies m

/-- The datagram decodes down to its hellos, and none of them returns its cookie. -/
def Harmless (arrival : Arrival Addr TransportError) : Prop :=
  ∃ records localAddr source, recvRecords arrival = .ok (records, localAddr, source) ∧
    ∀ r ∈ records, QuietRecord cookies r

variable {cookies} {source : Addr} {message : HandshakeMessage} {record : DtlsRecord}

theorem quietMessage_iff (message : HandshakeMessage) (out : Outbound Addr) :
    (∃ out', (clientHelloMessage cookies source message).run out = .ok none out') ↔ QuietMessage cookies message := by
  by_cases ht : message.messageType = .clientHello
  · cases hd : ClientHello.decode message.payload with
    | error e =>
      constructor
      · rintro ⟨out', h⟩
        rw [clientHelloMessage, if_pos ht, hd] at h
        cases h
      · intro h
        obtain ⟨hello, hok, -⟩ := h ht
        cases hd.symm.trans hok
    | ok hello =>
      by_cases hv : cookies.verify hello.random hello.cookie = true
      · constructor
        · rintro ⟨out', h⟩
          rw [clientHelloMessage_accept ht hd hv] at h
          cases h
        · intro h
          obtain ⟨hello', hok, hv'⟩ := h ht
          cases hd.symm.trans hok
          cases hv.symm.trans hv'
      · constructor
        · exact fun _ _ => ⟨hello, hd, by simpa using hv⟩
        · exact fun _ => ⟨_, clientHelloMessage_challenge ht hd hv⟩
  · constructor
    · exact fun _ h => absurd h ht
    · intro _
      rw [clientHelloMessage, if_neg ht]
      exact ⟨out, rfl⟩

theorem quietRecord_iff (record : DtlsRecord) (out : Outbound Addr) :
    (∃ out', (clientHelloRecord cookies source record).run out = .ok none out') ↔ QuietRecord cookies record := by
  rw [clientHelloRecord]
  by_cases hr : record.header.epoch = 0 ∧ record.header.contentType = .handshake
  · rw [if_pos hr]
    constructor
    · rintro ⟨out', h⟩ -
      obtain ⟨ms, hp, h⟩ := lift_bind_ok.mp h
      exact ⟨ms, hp, (forEach_none_iff quietMessage_iff).mp ⟨out', h⟩⟩
    · intro h
      obtain ⟨ms, hp, hquiet⟩ := h hr
      rw [lift_bind_of_ok hp]
      exact (forEach_none_iff quietMessage_iff).mpr hquiet
  · rw [if_neg hr]
    exact ⟨fun _ h => absurd h hr, fun _ => ⟨out, rfl⟩⟩

end Quiet

section Following

variable {peer : Addr} {cookies : DtlsCookieGenerator}

theorem follows_clientHelloMessage (m : HandshakeMessage) :
    Follows (fun _ _ => True) (clientHelloMessage cookies peer m) := by
  intro out r out' h other _
  by_cases ht : m.messageType = .clientHello
  · cases hd : ClientHello.decode m.payload with
    | error e =>
      rw [clientHelloMessage, if_pos ht, hd] at h
      cases h
    | ok hello =>
      by_cases hv : cookies.verify hello.random hello.cookie = true
      · rw [clientHelloMessage_accept ht hd hv] at h
        cases h
        exact ⟨other, clientHelloMessage_accept ht hd hv, trivial⟩
      · rw [clientHelloMessage_challenge ht hd hv] at h
        cases h
        exact ⟨_, clientHelloMessage_challenge ht hd hv, trivial⟩
  · rw [clientHelloMessage, if_neg ht] at h ⊢
    cases h
    exact ⟨other, rfl, trivial⟩

variable (record : DtlsRecord)

theorem follows_clientHelloRecord : Follows (fun _ _ => True) (clientHelloRecord cookies peer record) := by
  rw [clientHelloRecord]
  split
  · exact .lift_bind fun ms => .forEach follows_clientHelloMessage ms
  · exact follows_pure none

/-- Two states of the handshake that differ in what was sent so far. -/
def SentApart (s s' : Flight Addr) : Prop := s' = { s with out := s'.out }

theorem follows_clientKeyExchangeMessage (m : HandshakeMessage) :
    Follows SentApart (clientKeyExchangeMessage m : FlightM Addr (Option Unit)) := by
  intro s r t h s' he
  obtain ⟨rfl, hs, keys, hrun, hkey, rfl⟩ := clientKeyExchangeMessage_eq_ok.mp h
  rw [he]
  exact ⟨_, clientKeyExchangeMessage_eq_ok.mpr ⟨rfl, hs, keys, hrun, hkey, rfl⟩, rfl⟩

theorem follows_clientFinishedRecord : Follows SentApart (clientFinishedRecord peer record) := by
  intro s r t h s' he
  obtain ⟨rfl, hsaw, keys, plain, plainRec, fin, verified, sfin, hs, changeCipherSpec,
    encoded, protectedFinished, out, hkeys, hopen, hnew, hparse, hverify, hbuild, hccs, hencode, hprotect, hsend,
    rfl⟩ := clientFinishedRecord_eq_ok.mp h
  have hlength : ∀ r ∈ [changeCipherSpecRecord s'.out.nextEpochZeroRecord, protectedFinished],
      r.payload.length = r.header.length.toNat := by
    simp only [forall_mem_cons]
    exact ⟨rfl, (protect_wellFormed hprotect).1, forall_mem_nil _⟩
  rw [he]
  refine ⟨_, clientFinishedRecord_eq_ok.mpr ⟨rfl, hsaw, keys, plain, plainRec, fin, verified,
    sfin, hs, _, encoded, protectedFinished, _, hkeys, hopen, hnew, hparse, hverify, hbuild,
    changeCipherSpec_new _, hencode, hprotect, sendRecords_of_length hlength, rfl⟩, rfl⟩

theorem follows_clientFlightRecord : Follows SentApart (clientFlightRecord peer record) := by
  rw [clientFlightRecord]
  split
  · split
    · exact .lift_bind fun ms => .forEach follows_clientKeyExchangeMessage ms
    · split
      · exact follows_clientFinishedRecord record
      · exact follows_pure none
  · split
    · refine .lift_bind fun _ => .bind ?_ fun _ => follows_pure none
      intro s r t h s' he
      cases h
      rw [he]
      exact ⟨_, rfl, rfl⟩
    · exact follows_pure none
  · intro s r t h
    cases h
  · exact follows_pure none

end Following

section Runs

variable {server : Server Addr TransportError} {arr : Arrival Addr TransportError}
  {arrivals : List (Arrival Addr TransportError)} {client : Addr} {cookies : DtlsCookieGenerator}

theorem commit_follows {addr peer : Addr} {m : HandshakeMessage}
    (hok : ∀ e, (server.commit addr peer m).stage ≠ .failed e) (out : Outbound Addr) :
    ∃ out', Server.commit { server with out } addr peer m = { server.commit addr peer m with out := out' } := by
  rw [Server.commit] at hok
  rw [Server.commit, Server.commit]
  dsimp only at hok ⊢
  split at hok
  · exact absurd rfl (hok _)
  · split at hok
    · exact absurd rfl (hok _)
    · next hsend =>
      obtain ⟨out', hsend', -⟩ := follows_sendFlight _ _ _ _ _ _ hsend out trivial
      rw [hsend']
      exact ⟨out', rfl⟩

variable [DecidableEq Addr]

theorem step_follows (hok : ∀ e, (server.step arr).stage ≠ .failed e) (out : Outbound Addr) :
    ∃ out', Server.step { server with out } arr = { server.step arr with out := out' } := by
  cases hstage : server.stage with
  | clientHello generator =>
    rcases step_hello_cases hstage arr with
      ⟨e, he, -⟩ | ⟨rs, addr, peer, hread, ⟨out₁, hloop, he⟩ | ⟨message, out₁, hloop, he⟩⟩
    · exact absurd he (hok e)
    · obtain ⟨out₂, hloop', -⟩ := Follows.forEach follows_clientHelloRecord _ _ _ _ hloop out trivial
      refine ⟨out₂, ?_⟩
      rw [he]
      simp only [Server.step, hstage, hread, hloop']
    · obtain ⟨out₂, hloop', -⟩ := Follows.forEach follows_clientHelloRecord _ _ _ _ hloop out trivial
      rw [he] at hok ⊢
      obtain ⟨out₃, hcommit⟩ := commit_follows hok out₂
      refine ⟨out₃, ?_⟩
      rw [← hcommit]
      simp only [Server.step, hstage, hread, hloop']
  | clientFlight addr peer handshake saw keyMaterial =>
    simp only [Server.step, hstage] at hok ⊢
    cases hread : recvRecords arr with
    | error e =>
      rw [hread] at hok
      exact absurd rfl (hok e)
    | ok received =>
      obtain ⟨rs, atAddr, source⟩ := received
      rw [hread] at hok
      dsimp only at hok ⊢
      by_cases hsource : source = peer
      · rw [if_pos hsource] at hok
        rw [if_pos hsource, if_pos hsource]
        cases hloop : (forEach (clientFlightRecord peer) rs).run
            ⟨handshake, saw, keyMaterial, server.out⟩ with
        | error e s =>
          rw [hloop] at hok
          exact absurd rfl (hok _)
        | ok result s =>
          rw [hloop] at hok
          obtain ⟨s', hloop', he⟩ := Follows.forEach follows_clientFlightRecord _ _ _ _ hloop
            ⟨handshake, saw, keyMaterial, out⟩ rfl
          rw [hloop', he]
          cases result with
          | none => exact ⟨s'.out, rfl⟩
          | some u =>
            dsimp only at hok ⊢
            cases hkeys : s.keyMaterial with
            | none =>
              rw [hkeys] at hok
              exact absurd rfl (hok _)
            | some keys => exact ⟨s'.out, rfl⟩
      · rw [if_neg hsource, if_neg hsource]
        exact ⟨out, by rw [hstage]⟩
  | accepted addr peer handshake keyMaterial =>
    simp only [Server.step, hstage]
    exact ⟨out, rfl⟩
  | failed e => exact absurd (by simp only [Server.step, hstage]) (hok e)

theorem failed_run {e : DriverError TransportError} (h : server.stage = .failed e)
    (arrivals : List (Arrival Addr TransportError)) : (server.run arrivals).stage = .failed e := by
  induction arrivals generalizing server with
  | nil => exact h
  | cons arr arrivals ih =>
    refine ih ?_
    simp only [Server.step, h]

theorem run_follows (hok : ∀ e, (server.run arrivals).stage ≠ .failed e) (out : Outbound Addr) :
    ∃ out', Server.run { server with out } arrivals = { server.run arrivals with out := out' } := by
  induction arrivals generalizing server out with
  | nil => exact ⟨out, rfl⟩
  | cons arr arrivals ih =>
    have hstep : ∀ e, (server.step arr).stage ≠ .failed e := fun e he => hok e (failed_run he arrivals)
    obtain ⟨out₁, hstep⟩ := step_follows hstep out
    obtain ⟨out₂, hrun⟩ := ih hok out₁
    refine ⟨out₂, ?_⟩
    rw [← hstep] at hrun
    exact hrun

/-- The acceptor failed, or it has committed to an address that is not the
client's. -/
def Lost (client : Addr) (server : Server Addr TransportError) : Prop :=
  match server.stage with
  | .clientHello _ => False
  | .clientFlight _ peer _ _ _ => peer ≠ client
  | .accepted _ peer _ _ => peer ≠ client
  | .failed _ => True

theorem Lost.step (h : Lost client server) (arr : Arrival Addr TransportError) : Lost client (server.step arr) := by
  rw [Lost] at h
  cases hstage : server.stage with
  | clientHello generator =>
    rw [hstage] at h
    exact h.elim
  | clientFlight addr peer handshake saw keyMaterial =>
    rw [hstage] at h
    simp only [Server.step, hstage]
    split
    · exact trivial
    · split
      · split
        · exact trivial
        · exact h
        · split
          · exact h
          · exact trivial
      · rw [Lost, hstage]
        exact h
  | accepted addr peer handshake keyMaterial =>
    rw [hstage] at h
    simp only [Server.step, hstage]
    rw [Lost, hstage]
    exact h
  | failed e =>
    simp only [Server.step, hstage]
    rw [Lost, hstage]
    exact trivial

theorem Lost.run (h : Lost client server) (arrivals : List (Arrival Addr TransportError)) :
    Lost client (server.run arrivals) := by
  induction arrivals generalizing server with
  | nil => exact h
  | cons arr arrivals ih => exact ih (h.step arr)

theorem step_harmless (hstage : server.stage = .clientHello cookies) (h : Harmless cookies arr) :
    ∃ out, server.step arr = { server with out } := by
  obtain ⟨rs, addr, source, hread, hquiet⟩ := h
  obtain ⟨out, hloop⟩ : ∃ out, (forEach (clientHelloRecord cookies source) rs).run server.out = .ok none out :=
    (forEach_none_iff quietRecord_iff).mpr hquiet
  exact ⟨out, by simp only [Server.step, hstage, hread, hloop]⟩

theorem step_harmful (hstage : server.stage = .clientHello cookies) (hstranger : fromStranger client arr = true)
    (h : ¬ Harmless cookies arr) : Lost client (server.step arr) := by
  rcases step_hello_cases hstage arr with
    ⟨e, he, -⟩ | ⟨records, addr, source, hread, ⟨out, hloop, -⟩ | ⟨message, out, -, he⟩⟩
  · rw [Lost, he]
    exact trivial
  · exact absurd ⟨records, addr, source, hread, (forEach_none_iff quietRecord_iff).mp ⟨out, hloop⟩⟩ h
  · rw [he, Lost]
    rcases Server.commit_cases { server with out } addr source message with ⟨e, he⟩ | ⟨_, _, _, -, he⟩
    · rw [he]
      exact trivial
    · rw [he]
      exact source_ne hstranger hread

/-- Datagrams of others during the search for a cookie: with harmless ones the
acceptor stands where it would without them, up to what it sent, and with one
that is not the client has lost it. -/
theorem run_strangers (hwait : (server.run (withoutStrangers client arrivals)).stage = .clientHello cookies) :
    ((∀ a ∈ arrivals, fromStranger client a = true → Harmless cookies a) ∧
      ∃ out, server.run arrivals = { server.run (withoutStrangers client arrivals) with out }) ∨
    (¬ (∀ a ∈ arrivals, fromStranger client a = true → Harmless cookies a) ∧ Lost client (server.run arrivals)) := by
  induction arrivals generalizing server with
  | nil => exact .inl ⟨forall_mem_nil _, server.out, rfl⟩
  | cons arr arrivals ih =>
    have hstage : server.stage = .clientHello cookies := stage_of_run hwait
    rw [forall_mem_cons]
    by_cases hstranger : fromStranger client arr = true
    · have hfilter : withoutStrangers client (arr :: arrivals) = withoutStrangers client arrivals := by
        simp [withoutStrangers, hstranger]
      rw [hfilter] at hwait ⊢
      by_cases hharmless : Harmless cookies arr
      · obtain ⟨out, hstep⟩ := step_harmless hstage hharmless
        obtain ⟨out', hfollow⟩ := run_follows (fun e he => by cases hwait.symm.trans he) out
        have hwait' : (Server.run { server with out } (withoutStrangers client arrivals)).stage = .clientHello cookies := by
          rw [hfollow]
          exact hwait
        change (_ ∧ ∃ out, Server.run (server.step arr) arrivals = _) ∨
          (_ ∧ Lost client (Server.run (server.step arr) arrivals))
        rw [hstep]
        rcases ih hwait' with ⟨hall, out₁, hrun⟩ | ⟨hnot, hlost⟩
        · refine .inl ⟨⟨fun _ => hharmless, hall⟩, out₁, ?_⟩
          rw [hrun, hfollow]
        · exact .inr ⟨fun h => hnot h.2, hlost⟩
      · refine .inr ⟨fun h => hharmless (h.1 hstranger), ?_⟩
        exact (step_harmful hstage hstranger hharmless).run arrivals
    · have hfilter : withoutStrangers client (arr :: arrivals) = arr :: withoutStrangers client arrivals := by
        simp [withoutStrangers, hstranger]
      rw [hfilter] at hwait ⊢
      rcases ih hwait with ⟨hall, out, hrun⟩ | ⟨hnot, hlost⟩
      · exact .inl ⟨⟨fun h => absurd h hstranger, hall⟩, out, hrun⟩
      · exact .inr ⟨fun h => hnot h.2, hlost⟩

end Runs

section Addresses

def Addressed (server : Server Addr TransportError) : Prop :=
  match server.stage with
  | .clientHello _ => SentTo none server.out.sent
  | .clientFlight _ peer _ _ _ => SentTo (some peer) server.out.sent
  | .accepted _ peer _ _ => SentTo (some peer) server.out.sent
  | .failed _ => True

variable {server : Server Addr TransportError} {cookies : DtlsCookieGenerator} {peer : Addr}

theorem SentTo.challenges {out : Outbound Addr} (h : SentTo none out.sent) (heard : List (HeardHello Addr)) :
    SentTo none (heard.foldl (challenge cookies) out).sent := by
  intro entry hm
  rcases heard_of_mem_sent hm with hm | ⟨e, -, sequence, rfl⟩
  · exact h entry hm
  · exact .inr ⟨_, _, _, rfl⟩

def SendsTo (peer : Addr) (s s' : Flight Addr) : Prop :=
  ∀ entry ∈ s'.out.sent, entry ∈ s.out.sent ∨ entry.1 = peer

theorem SendsTo.trans {a b c : Flight Addr} (h : SendsTo peer a b) (h' : SendsTo peer b c) : SendsTo peer a c := by
  intro entry hm
  rcases h' entry hm with hm | hpeer
  · exact h entry hm
  · exact .inr hpeer

theorem sendsTo_clientFlightRecord {record : DtlsRecord} {s s' : Flight Addr} {r : Option Unit}
    (h : (clientFlightRecord peer record).run s = .ok r s') : SendsTo peer s s' := by
  rcases clientFlightRecord_cases h with
    ⟨-, rfl⟩ | ⟨-, -, messages, -, h⟩ | ⟨-, -, -, -, rfl⟩ | ⟨-, -, h⟩
  · exact fun entry hm => .inl hm
  · refine forEach_within (fun _ _ hm => .inl hm) SendsTo.trans ?_ h
    intro m s r s' h
    obtain ⟨-, hs, keyMaterial, -, -, rfl⟩ := clientKeyExchangeMessage_eq_ok.mp h
    exact fun entry hm => .inl hm
  · exact fun entry hm => .inl hm
  · obtain ⟨-, -, keys, _, _, _, _, _, hs, _, _, _, out, -, -, -, -, -, -, -, -, -, hsend, rfl⟩ :=
      clientFinishedRecord_eq_ok.mp h
    obtain ⟨dgram, -, hsend⟩ := lift_bind_ok.mp hsend
    cases hsend
    intro entry hm
    rcases mem_append.mp hm with hm | hm
    · exact .inl hm
    · cases mem_singleton.mp hm
      exact .inr rfl

theorem SentTo.flight {rs : List DtlsRecord} {s s' : Flight Addr} {r : Option Unit}
    (h : SentTo (some peer) s.out.sent) (hrun : (forEach (clientFlightRecord peer) rs).run s = .ok r s') :
    SentTo (some peer) s'.out.sent := by
  have hsends : SendsTo peer s s' :=
    forEach_within (fun _ _ hm => .inl hm) SendsTo.trans (fun _ _ _ _ h => sendsTo_clientFlightRecord h) hrun
  intro entry hm
  rcases hsends entry hm with hm | rfl
  · exact h entry hm
  · exact .inl rfl

variable [DecidableEq Addr]

theorem Addressed.step (h : Addressed server) (arr : Arrival Addr TransportError) : Addressed (server.step arr) := by
  rw [Addressed] at h
  cases hstage : server.stage with
  | clientHello generator =>
    rw [hstage] at h
    rcases step_hello_cases hstage arr with
      ⟨e, he, -⟩ | ⟨records, addr, source, hread, ⟨out, hloop, he⟩ | ⟨m, out, hloop, he⟩⟩
    · rw [Addressed, he]
      exact trivial
    · obtain ⟨-, hout⟩ := answered_forEach (fun _ _ _ _ => answered_record) hloop
      rw [he, Addressed, hstage, hout]
      exact SentTo.challenges h _
    · obtain ⟨earlier, hello, later, -, -, -, -, -, hout⟩ := answered_forEach (fun _ _ _ _ => answered_record) hloop
      rw [he]
      by_cases hfail : ∃ e, (Server.commit { server with out } addr source m).stage = .failed e
      · obtain ⟨e, hfail⟩ := hfail
        rw [Addressed, hfail]
        exact trivial
      · obtain ⟨hs, flight, hstage', hsent⟩ := commit_sent fun e he => hfail ⟨e, he⟩
        rw [Addressed, hstage', hsent, hout]
        exact (SentTo.challenges h earlier).snoc source flight
  | clientFlight addr peer hs saw keyMaterial =>
    rw [hstage] at h
    simp only [Server.step, hstage]
    split
    · exact trivial
    · split
      · split
        · exact trivial
        · next hrun => exact SentTo.flight h hrun
        · next hrun =>
          split
          · exact SentTo.flight h hrun
          · exact trivial
      · rw [Addressed, hstage]
        exact h
  | accepted addr peer hs keyMaterial =>
    rw [hstage] at h
    simp only [Server.step, hstage]
    rw [Addressed, hstage]
    exact h
  | failed e =>
    simp only [Server.step, hstage]
    rw [Addressed, hstage]
    exact trivial

theorem addressed_run (pskc : Bytes) (rng : Rng) (arrs : List (Arrival Addr TransportError)) :
    Addressed ((Server.start pskc rng).run arrs) := by
  have hstart : Addressed (Server.start pskc rng : Server Addr TransportError) := forall_mem_nil _
  exact foldl_induction (P := fun _ server => Addressed server) hstart (fun _ arr _ h => h.step arr) arrs

end Addresses

variable [DecidableEq Addr]

/-- A hello without a cookie is answered from any address, and commits to none. -/
theorem harmless_firstHello {secret : Bytes} {crng srng : Rng}
    (h : Ready (drawsOf secret crng srng) secret) {client source : Addr} (hne : source ≠ client) (addr : Addr) :
    Harmless (DtlsCookieGenerator.new srng).1
      (firstHello (drawsOf secret crng srng) addr source : Arrival Addr TransportError) := by
  have hstage : (Server.start secret srng : Server Addr TransportError).stage =
      .clientHello (DtlsCookieGenerator.new srng).1 := rfl
  have hstranger : fromStranger client
      (firstHello (drawsOf secret crng srng) addr source : Arrival Addr TransportError) = true := decide_eq_true hne
  have hrun := @Ready.run_firstHello _ Addr TransportError _ _ _ _ h addr source
  rw [Server.run, foldl_cons, foldl_nil] at hrun
  by_contra hharmful
  have hlost := step_harmful hstage hstranger hharmful
  rw [hrun] at hlost
  exact hlost

end Bystanders

section Residues

attribute [local instance] residues

def residueByte : Arrival ℕ Unit := .datagram [0] 0 2

end Residues

end ThreadCommissioner.Bystanders
