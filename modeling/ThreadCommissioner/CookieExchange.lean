import ThreadCommissioner.HandshakeAgreement

namespace ThreadCommissioner.CookieExchange

open ByteStrings Computations Drivers HandshakeAgreement HandshakeMessages Hellos List Primitives Records Residues
  ServerDriver ServerHandshake

section Exchange

variable {Addr TransportError : Type}

/-- A hello that the acceptor decoded while it looks for a returned cookie. -/
structure HeardHello (Addr : Type) where
  source : Addr
  messageSeq : UInt16
  hello : ClientHello

def hellosOfMessage (source : Addr) (message : HandshakeMessage) : List (HeardHello Addr) :=
  if message.messageType = .clientHello then
    match ClientHello.decode message.payload with
    | .ok hello => [⟨source, message.messageSeq, hello⟩]
    | .error _ => []
  else []

def hellosOfRecord (source : Addr) (record : DtlsRecord) : List (HeardHello Addr) :=
  if record.header.epoch = 0 ∧ record.header.contentType = .handshake then
    match parseUnfragmentedHandshakeMessages record with
    | .ok messages => messages.flatMap (hellosOfMessage source)
    | .error _ => []
  else []

def hellosOf (arrival : Arrival Addr TransportError) : List (HeardHello Addr) :=
  match recvRecords arrival with
  | .ok (records, _, source) => records.flatMap (hellosOfRecord source)
  | .error _ => []

theorem hellosOf_eq {arr : Arrival Addr TransportError} {rs : List DtlsRecord} {addr source : Addr}
    (h : recvRecords arr = .ok (rs, addr, source)) : hellosOf arr = rs.flatMap (hellosOfRecord source) := by
  simp only [hellosOf, h]

def verifyRequestDatagram (messageSeq : UInt16) (cookie : Bytes) (sequence : UInt64) : Bytes :=
  datagramOf [(verifyRequestMessage messageSeq cookie).record 0 sequence]

theorem verifyRequestDatagram_inj {seq messageSeq' : UInt16} {cookie cookie' : Bytes}
    {sequence sequence' : UInt64} (hcookie : cookie.length ≤ 255) (hcookie' : cookie'.length ≤ 255)
    (h : verifyRequestDatagram seq cookie sequence = verifyRequestDatagram messageSeq' cookie' sequence') :
    cookie = cookie' := by
  have hshort := verifyRequest_short hcookie seq
  have hshort' := verifyRequest_short hcookie' messageSeq'
  have hbytes : (verifyRequestMessage seq cookie).bytes = (verifyRequestMessage messageSeq' cookie').bytes := by
    simp only [verifyRequestDatagram, datagramOf, flatMap_cons, flatMap_nil, append_nil, DtlsRecord.bytes] at h
    exact (append_inj h (by simp)).2
  have hrecord : (verifyRequestMessage seq cookie).record 0 0 = (verifyRequestMessage messageSeq' cookie').record 0 0 := by
    simp only [HandshakeMessage.record, hbytes]
  have hmessage := hshort.parse_records 0 0
  rw [hrecord, hshort'.parse_records 0 0] at hmessage
  have hpayload := congrArg HandshakeMessage.payload (List.cons.inj (Except.ok.inj hmessage)).1
  have hdecode : HelloVerifyRequest.decode (HelloVerifyRequest.bytes ⟨dtls12Version, cookie⟩) =
      .ok ⟨dtls12Version, cookie⟩ := HelloVerifyRequest.decode_bytes hcookie
  have hdecode' : HelloVerifyRequest.decode (HelloVerifyRequest.bytes ⟨dtls12Version, cookie'⟩) =
      .ok ⟨dtls12Version, cookie'⟩ := HelloVerifyRequest.decode_bytes hcookie'
  have hsame : HelloVerifyRequest.bytes ⟨dtls12Version, cookie'⟩ = HelloVerifyRequest.bytes ⟨dtls12Version, cookie⟩ :=
    hpayload
  rw [hsame, hdecode] at hdecode'
  exact congrArg HelloVerifyRequest.cookie (Except.ok.inj hdecode')

theorem sent_flightRecord {m : HandshakeMessage} {r : DtlsRecord} {out out' : Outbound Addr}
    (h : (flightRecord m).run out = .ok r out') : out'.sent = out.sent := by
  rw [flightRecord, get_bind] at h
  obtain ⟨_, -, h⟩ := lift_bind_ok.mp h
  obtain ⟨_, -, h⟩ := lift_bind_ok.mp h
  rw [modify_bind] at h
  cases h
  rfl

variable [Suite]

variable (cookies : DtlsCookieGenerator) (source : Addr)

def HeardHello.echoes (heard : HeardHello Addr) : Bool := cookies.verify heard.hello.random heard.hello.cookie

def challenge (out : Outbound Addr) (heard : HeardHello Addr) : Outbound Addr where
  nextEpochZeroRecord := out.nextEpochZeroRecord + 1
  sent := out.sent ++ [(heard.source, verifyRequestDatagram heard.messageSeq
    (cookies.cookie heard.hello.random).toList out.nextEpochZeroRecord)]

/-- What became of a list of hellos: all were challenged, or those before the
first that returned its cookie. -/
def Answered (heard : List (HeardHello Addr)) (out : Outbound Addr) :
    Option HandshakeMessage → Outbound Addr → Prop
  | none, out' => (∀ h ∈ heard, h.echoes cookies = false) ∧ out' = heard.foldl (challenge cookies) out
  | some message, out' => ∃ earlier h later, heard = earlier ++ h :: later ∧
      (∀ e ∈ earlier, e.echoes cookies = false) ∧ h.echoes cookies = true ∧ h.source = source ∧
      ClientHello.decode message.payload = .ok h.hello ∧ out' = earlier.foldl (challenge cookies) out

variable {cookies source} {out out' : Outbound Addr} {message : HandshakeMessage} {record : DtlsRecord}
  {r : Option HandshakeMessage}

theorem answered_message (h : (clientHelloMessage cookies source message).run out = .ok r out') :
    Answered cookies source (hellosOfMessage source message) out r out' := by
  by_cases ht : message.messageType = .clientHello
  · cases hd : ClientHello.decode message.payload with
    | error e =>
      rw [clientHelloMessage, if_pos ht, hd] at h
      cases h
    | ok hello =>
      have hheard : hellosOfMessage source message = [⟨source, message.messageSeq, hello⟩] := by
        simp only [hellosOfMessage, if_pos ht, hd]
      rw [hheard]
      by_cases hv : cookies.verify hello.random hello.cookie = true
      · rw [clientHelloMessage_accept ht hd hv] at h
        cases h
        exact ⟨[], _, [], rfl, forall_mem_nil _, hv, rfl, hd, rfl⟩
      · rw [clientHelloMessage_challenge ht hd hv] at h
        cases h
        exact ⟨by simpa [HeardHello.echoes] using hv, rfl⟩
  · have hheard : hellosOfMessage source message = [] := if_neg ht
    rw [clientHelloMessage, if_neg ht] at h
    cases h
    rw [hheard]
    exact ⟨forall_mem_nil _, rfl⟩

theorem answered_forEach {α : Type} {body : α → OutboundM Addr (Option HandshakeMessage)}
    {heard : α → List (HeardHello Addr)}
    (hbody : ∀ a out r out', (body a).run out = .ok r out' → Answered cookies source (heard a) out r out')
    {as : List α} (h : (forEach body as).run out = .ok r out') : Answered cookies source (as.flatMap heard) out r out' := by
  induction as generalizing out with
  | nil =>
    cases h
    exact ⟨forall_mem_nil _, rfl⟩
  | cons a as ih =>
    obtain ⟨r₁, out₁, ha, h⟩ := bind_eq_ok.mp h
    have hfirst := hbody a out r₁ out₁ ha
    rw [flatMap_cons]
    cases r₁ with
    | some message =>
      cases h
      obtain ⟨earlier, heardHello, later, hsplit, hrest⟩ := hfirst
      refine ⟨earlier, heardHello, later ++ as.flatMap heard, ?_, hrest⟩
      rw [hsplit, append_assoc, cons_append]
    | none =>
      obtain ⟨hnone, rfl⟩ := hfirst
      have htail := ih h
      cases r with
      | none =>
        obtain ⟨hnone', rfl⟩ := htail
        refine ⟨fun e he => ?_, ?_⟩
        · rcases mem_append.mp he with he | he
          · exact hnone e he
          · exact hnone' e he
        · rw [foldl_append]
      | some message =>
        obtain ⟨earlier, heardHello, later, hsplit, hnone', hecho, hsource, hdec, rfl⟩ := htail
        refine ⟨heard a ++ earlier, heardHello, later, ?_, fun e he => ?_, hecho, hsource, hdec, ?_⟩
        · rw [hsplit, append_assoc]
        · rcases mem_append.mp he with he | he
          · exact hnone e he
          · exact hnone' e he
        · rw [foldl_append]

theorem answered_record (h : (clientHelloRecord cookies source record).run out = .ok r out') :
    Answered cookies source (hellosOfRecord source record) out r out' := by
  rw [clientHelloRecord] at h
  by_cases hr : record.header.epoch = 0 ∧ record.header.contentType = .handshake
  · rw [if_pos hr] at h
    obtain ⟨ms, hp, h⟩ := lift_bind_ok.mp h
    have hheard : hellosOfRecord source record = ms.flatMap (hellosOfMessage source) := by
      simp only [hellosOfRecord, if_pos hr, hp]
    rw [hheard]
    exact answered_forEach (fun _ _ _ _ => answered_message) h
  · rw [if_neg hr] at h
    cases h
    have hheard : hellosOfRecord source record = [] := if_neg hr
    rw [hheard]
    exact ⟨forall_mem_nil _, rfl⟩

section Steps

variable {server : Server Addr TransportError} {arr : Arrival Addr TransportError}
  {arrs : List (Arrival Addr TransportError)}

theorem commit_stage_ne (addr peer : Addr) (chello : HandshakeMessage) (generator : DtlsCookieGenerator) :
    (server.commit addr peer chello).stage ≠ .clientHello generator := by
  intro h
  rcases server.commit_cases addr peer chello with ⟨e, he⟩ | ⟨_, _, _, -, he⟩
  · cases h.symm.trans he
  · cases h.symm.trans he

variable [DecidableEq Addr]

theorem step_hello_cases (hstage : server.stage = .clientHello cookies) (arr : Arrival Addr TransportError) :
    (∃ e, (server.step arr).stage = .failed e ∧ ∀ rs addr peer out', recvRecords arr = .ok (rs, addr, peer) →
        (forEach (clientHelloRecord cookies peer) rs).run server.out ≠ .ok none out') ∨
    ∃ rs addr peer, recvRecords arr = .ok (rs, addr, peer) ∧
      ((∃ out', (forEach (clientHelloRecord cookies peer) rs).run server.out = .ok none out' ∧
        server.step arr = { server with out := out' }) ∨
      ∃ message out', (forEach (clientHelloRecord cookies peer) rs).run server.out = .ok (some message) out' ∧
        server.step arr = Server.commit { server with out := out' } addr peer message) := by
  simp only [Server.step, hstage]
  cases hread : recvRecords arr with
  | error e => exact .inl ⟨e, rfl, fun _ _ _ _ h => by cases h⟩
  | ok received =>
    obtain ⟨rs, addr, peer⟩ := received
    dsimp only
    cases hloop : (forEach (clientHelloRecord cookies peer) rs).run server.out with
    | error e out' =>
      refine .inl ⟨.protocol e, rfl, fun records' localAddr' peer' out'' h h' => ?_⟩
      cases h
      cases hloop.symm.trans h'
    | ok result out' =>
      refine .inr ⟨rs, addr, peer, rfl, ?_⟩
      cases result with
      | none => exact .inl ⟨out', hloop, rfl⟩
      | some message => exact .inr ⟨message, out', hloop, rfl⟩

theorem stage_of_step (h : (server.step arr).stage = .clientHello cookies) : server.stage = .clientHello cookies := by
  cases hstage : server.stage with
  | clientHello generator =>
    rcases step_hello_cases hstage arr with
      ⟨e, he, -⟩ | ⟨records, addr, peer, -, ⟨out', -, he⟩ | ⟨message, out', -, he⟩⟩
    · cases h.symm.trans he
    · rw [he] at h
      exact hstage.symm.trans h
    · rw [he] at h
      exact absurd h (commit_stage_ne _ _ _ _)
  | clientFlight addr peer handshake saw keyMaterial =>
    simp only [Server.step, hstage] at h
    split at h
    · cases h
    · split at h
      · split at h
        · cases h
        · cases h
        · split at h
          · cases h
          · cases h
      · cases hstage.symm.trans h
  | accepted addr peer handshake keyMaterial =>
    simp only [Server.step, hstage] at h
    cases h
  | failed e =>
    simp only [Server.step, hstage] at h
    cases h

theorem stage_of_run (h : (server.run arrs).stage = .clientHello cookies) : server.stage = .clientHello cookies := by
  induction arrs generalizing server with
  | nil => exact h
  | cons arr arrs ih => exact stage_of_step (ih h)

/-- While the acceptor looks for a cookie it has challenged every hello it heard,
in order, and done nothing else. -/
theorem out_of_run (h : (server.run arrs).stage = .clientHello cookies) :
    (∀ e ∈ arrs.flatMap hellosOf, e.echoes cookies = false) ∧
      server.run arrs = { server with out := (arrs.flatMap hellosOf).foldl (challenge cookies) server.out } := by
  induction arrs generalizing server with
  | nil => exact ⟨forall_mem_nil _, rfl⟩
  | cons arr arrs ih =>
    have hstage := stage_of_run h
    change (Server.run (server.step arr) arrs).stage = _ at h
    have hnext : (server.step arr).stage = .clientHello cookies := stage_of_run h
    rcases step_hello_cases hstage arr with
      ⟨e, he, -⟩ | ⟨records, addr, peer, hread, ⟨out', hloop, he⟩ | ⟨message, out', -, he⟩⟩
    · cases hnext.symm.trans he
    · obtain ⟨hnone, hout⟩ := answered_forEach (fun _ _ _ _ => answered_record) hloop
      rw [← hellosOf_eq hread] at hnone hout
      obtain ⟨hnone', hrun⟩ := ih h
      rw [he] at hrun
      refine ⟨fun e hm => ?_, ?_⟩
      · rw [flatMap_cons] at hm
        rcases mem_append.mp hm with hm | hm
        · exact hnone e hm
        · exact hnone' e hm
      · rw [flatMap_cons, foldl_append, ← hout]
        exact (congrArg (Server.run · arrs) he).trans hrun
    · rw [he] at hnext
      exact absurd hnext (commit_stage_ne _ _ _ _)

end Steps

section Challenges

variable {heard : List (HeardHello Addr)}

theorem mem_sent_of_mem {entry : Addr × Bytes} (h : entry ∈ out.sent) :
    entry ∈ (heard.foldl (challenge cookies) out).sent := by
  induction heard generalizing out with
  | nil => exact h
  | cons e heard ih => exact ih (mem_append_left _ h)

theorem mem_sent_of_heard {e : HeardHello Addr} (h : e ∈ heard) :
    ∃ seq, (e.source, verifyRequestDatagram e.messageSeq (cookies.cookie e.hello.random).toList seq) ∈
      (heard.foldl (challenge cookies) out).sent := by
  induction heard generalizing out with
  | nil => cases h
  | cons e' heard ih =>
    rcases mem_cons.mp h with rfl | h
    · have hm : (e.source, verifyRequestDatagram e.messageSeq (cookies.cookie e.hello.random).toList
          out.nextEpochZeroRecord) ∈ (challenge cookies out e).sent := mem_append_right _ (mem_singleton.mpr rfl)
      rw [foldl_cons]
      exact ⟨_, mem_sent_of_mem hm⟩
    · exact ih h

theorem heard_of_mem_sent {entry : Addr × Bytes} (h : entry ∈ (heard.foldl (challenge cookies) out).sent) :
    entry ∈ out.sent ∨ ∃ e ∈ heard, ∃ seq, entry =
      (e.source, verifyRequestDatagram e.messageSeq (cookies.cookie e.hello.random).toList seq) := by
  induction heard generalizing out with
  | nil => exact .inl h
  | cons e heard ih =>
    rcases ih h with h | ⟨e', he', seq, rfl⟩
    · rcases mem_append.mp h with h | h
      · exact .inl h
      · exact .inr ⟨e, mem_cons_self, _, mem_singleton.mp h⟩
    · exact .inr ⟨e', mem_cons_of_mem e he', seq, rfl⟩

theorem cookie_length_le (cookies : DtlsCookieGenerator) (random : ByteVector 32) :
    (cookies.cookie random).toList.length ≤ 255 := by
  rw [List.Vector.toList_length]
  decide

theorem challenged_iff {peer : Addr} {hello : HeardHello Addr} (h : hello.echoes cookies = true) :
    (∃ seq sequence, (peer, verifyRequestDatagram seq hello.hello.cookie sequence) ∈
        (heard.foldl (challenge cookies) ⟨0, []⟩).sent) ↔
      ∃ e ∈ heard, e.source = peer ∧ (cookies.cookie e.hello.random).toList = hello.hello.cookie := by
  constructor
  · rintro ⟨seq, sequence, hm⟩
    rcases heard_of_mem_sent hm with hm | ⟨e, he, sequence', heq⟩
    · cases hm
    · obtain ⟨rfl, hbytes⟩ := Prod.mk.inj heq
      have hcookie : (cookies.cookie hello.hello.random).toList = hello.hello.cookie := eq_of_beq h
      refine ⟨e, he, rfl, (verifyRequestDatagram_inj ?_ (cookie_length_le _ _) hbytes).symm⟩
      rw [← hcookie]
      exact cookie_length_le _ _
  · rintro ⟨e, he, rfl, hcookie⟩
    obtain ⟨sequence, hm⟩ : ∃ sequence, (e.source, verifyRequestDatagram e.messageSeq
        (cookies.cookie e.hello.random).toList sequence) ∈ (heard.foldl (challenge cookies) ⟨0, []⟩).sent :=
      mem_sent_of_heard he
    rw [hcookie] at hm
    exact ⟨e.messageSeq, sequence, hm⟩

end Challenges

theorem commit_sent {server : Server Addr TransportError} {addr peer : Addr} {chello : HandshakeMessage}
    (h : ∀ e, (server.commit addr peer chello).stage ≠ .failed e) :
    ∃ hs flight, (server.commit addr peer chello).stage = .clientFlight addr peer hs false none ∧
      (server.commit addr peer chello).out.sent = server.out.sent ++ [(peer, flight)] := by
  rw [Server.commit] at h ⊢
  dsimp only at h ⊢
  split
  · next hrun =>
    rw [hrun] at h
    exact absurd rfl (h _)
  · next hrun =>
    rw [hrun] at h
    dsimp only at h
    split
    · next hsend =>
      rw [hsend] at h
      exact absurd rfl (h _)
    · next hsend =>
      obtain ⟨first, out₁, h₁, hsend⟩ := bind_eq_ok.mp hsend
      obtain ⟨second, out₂, h₂, hsend⟩ := bind_eq_ok.mp hsend
      obtain ⟨third, out₃, h₃, hsend⟩ := bind_eq_ok.mp hsend
      obtain ⟨dgram, -, hsend⟩ := lift_bind_ok.mp hsend
      cases hsend
      refine ⟨_, dgram, rfl, ?_⟩
      rw [← sent_flightRecord h₁, ← sent_flightRecord h₂, ← sent_flightRecord h₃]

variable [DecidableEq Addr]

/-- The acceptor commits to the address of the first hello that returns its
cookie. Before its flight it had sent that cookie to that address exactly when
a hello with the same cookie had come from there: the cookie covers the random
alone, so one that was sent elsewhere serves as well. -/
theorem committed_challenged_iff (pskc : Bytes) (rng : Rng) (before : List (Arrival Addr TransportError))
    (arrival : Arrival Addr TransportError) (localAddr peer : Addr) (handshake : ThreadDtlsServerHandshake)
    (hwait : ((Server.start pskc rng).run before).stage = .clientHello (DtlsCookieGenerator.new rng).1)
    (hcommit : ((Server.start pskc rng).run (before ++ [arrival])).stage =
      .clientFlight localAddr peer handshake false none) :
    ∃ earlier hello later sent flight,
      (before ++ [arrival]).flatMap hellosOf = earlier ++ hello :: later ∧
      (∀ e ∈ earlier, e.echoes (DtlsCookieGenerator.new rng).1 = false) ∧
      hello.echoes (DtlsCookieGenerator.new rng).1 = true ∧ hello.source = peer ∧
      ((Server.start pskc rng).run (before ++ [arrival])).out.sent = sent ++ [(peer, flight)] ∧
      ((∃ messageSeq sequence, (peer, verifyRequestDatagram messageSeq hello.hello.cookie sequence) ∈ sent) ↔
        ∃ e ∈ earlier, e.source = peer ∧
          ((DtlsCookieGenerator.new rng).1.cookie e.hello.random).toList = hello.hello.cookie) := by
  obtain ⟨hnone, hrun⟩ := out_of_run hwait
  rw [Server.run, foldl_append] at hcommit ⊢
  change ((Server.run (.start pskc rng) before).step arrival).stage = _ at hcommit
  change ∃ earlier hello later sent flight, _ ∧ _ ∧ _ ∧ _ ∧
    ((Server.run (.start pskc rng) before).step arrival).out.sent = _ ∧ _
  rcases step_hello_cases hwait arrival with
    ⟨e, he, -⟩ | ⟨records, atAddr, source, hread, ⟨out', -, he⟩ | ⟨message, out', hloop, he⟩⟩
  · cases hcommit.symm.trans he
  · rw [he] at hcommit
    cases hwait.symm.trans hcommit
  · rw [he] at hcommit ⊢
    obtain ⟨handshake', flight, hstage, hsent⟩ := commit_sent (by
      intro e hfailed
      cases hcommit.symm.trans hfailed)
    cases hcommit.symm.trans hstage
    obtain ⟨earlier, hello, later, hsplit, hnone', hecho, hsource, -, hout⟩ :=
      answered_forEach (fun _ _ _ _ => answered_record) hloop
    rw [hrun] at hout
    have hall : out' = (before.flatMap hellosOf ++ earlier).foldl (challenge (DtlsCookieGenerator.new rng).1) ⟨0, []⟩ := by
      rw [foldl_append]
      exact hout
    refine ⟨before.flatMap hellosOf ++ earlier, hello, later, out'.sent, flight, ?_, ?_, hecho, hsource, hsent, ?_⟩
    · rw [flatMap_append, flatMap_singleton, hellosOf_eq hread, hsplit, append_assoc]
    · intro e hm
      rcases mem_append.mp hm with hm | hm
      · exact hnone e hm
      · exact hnone' e hm
    · rw [hall]
      exact challenged_iff hecho

theorem run_returned {secret : Bytes} {crng srng : Rng}
    (h : Ready (drawsOf secret crng srng) secret) (addr first second : Addr) : ∃ hs rng flight,
      (Server.start secret srng : Server Addr TransportError).run [firstHello (drawsOf secret crng srng) addr first,
            secondHello (drawsOf secret crng srng) addr second] = ⟨secret, rng, .clientFlight addr second hs false none,
          ⟨4, [(first, verifyRequestDatagram 0 (drawsOf secret crng srng).cookie 0), (second, flight)]⟩⟩ :=
  ⟨_, _, _, h.run_secondHello addr first second⟩

end Exchange

section Residues

attribute [local instance] residues

abbrev residueDraws : Draws := drawsOf [1, 2, 3] (residueRng []) (residueRng [])

theorem ready_residues : Ready residueDraws [1, 2, 3] := drawsOf_ready matched_residues

theorem committed_challenged_residues :
    ∃ (earlier : List (HeardHello ℕ)) (hello : HeardHello ℕ) (later : List (HeardHello ℕ)) (sent : List (ℕ × Bytes))
      (flight : Bytes),
      ([firstHello residueDraws 0 1, secondHello residueDraws 0 1] : List (Arrival ℕ Unit)).flatMap hellosOf =
        earlier ++ hello :: later ∧
      ((Server.start [1, 2, 3] (residueRng []) : Server ℕ Unit).run
        [firstHello residueDraws 0 1, secondHello residueDraws 0 1]).out.sent = sent ++ [(1, flight)] ∧
      ((∃ messageSeq sequence, (1, verifyRequestDatagram messageSeq hello.hello.cookie sequence) ∈ sent) ↔
        ∃ e ∈ earlier, e.source = 1 ∧
          ((DtlsCookieGenerator.new (residueRng [])).1.cookie e.hello.random).toList = hello.hello.cookie) := by
  have hfirst := @Ready.run_firstHello _ ℕ Unit _ _ _ _ ready_residues 0 1
  obtain ⟨handshake, rng, flight, hsecond⟩ := @run_returned ℕ Unit _ _ _ _ _ ready_residues 0 1 1
  have hcommit : ((Server.start [1, 2, 3] (residueRng []) : Server ℕ Unit).run
      ([firstHello residueDraws 0 1] ++ [secondHello residueDraws 0 1])).stage =
      .clientFlight 0 1 handshake false none := by
    rw [singleton_append, hsecond]
  obtain ⟨earlier, hello, later, sent, flight, hheard, -, -, -, hsent, hiff⟩ :=
    committed_challenged_iff [1, 2, 3] (residueRng []) [firstHello residueDraws 0 1] (secondHello residueDraws 0 1)
      0 1 handshake (congrArg Server.stage hfirst) hcommit
  rw [singleton_append] at hheard hsent
  exact ⟨earlier, hello, later, sent, flight, hheard, hsent, hiff⟩

/-- A client that was asked for its cookie at one address returns it from
another, and the acceptor commits to an address it never asked. -/
theorem unchallenged_commit_residues :
    ∃ handshake flight,
      ((Server.start [1, 2, 3] (residueRng []) : Server ℕ Unit).run
        [firstHello residueDraws 0 1, secondHello residueDraws 0 2]).stage =
        .clientFlight 0 2 handshake false none ∧
      ((Server.start [1, 2, 3] (residueRng []) : Server ℕ Unit).run
        [firstHello residueDraws 0 1, secondHello residueDraws 0 2]).out.sent =
        [(1, verifyRequestDatagram 0 residueDraws.cookie 0), (2, flight)] := by
  obtain ⟨handshake, rng, flight, hsecond⟩ := @run_returned ℕ Unit _ _ _ _ _ ready_residues 0 1 2
  refine ⟨handshake, flight, ?_, ?_⟩
  · rw [hsecond]
  · rw [hsecond]

end Residues

end ThreadCommissioner.CookieExchange
