import ThreadCommissioner.HandshakeAgreement

namespace ThreadCommissioner.PeerAuthentication

open ByteStrings ClientDriver ClientHandshake Computations Drivers EcJpake EcJpakeCodec Errors HandshakeMessages List
  HandshakeAgreement Hellos KeySchedule Primitives RecordProtection Records Residues Schnorr ServerDriver
  ServerHandshake Sessions

section Heard

variable {Addr TransportError : Type} [DecidableEq Addr]

def recordsFrom (peer : Addr) (arrival : Arrival Addr TransportError) : List DtlsRecord :=
  match recvRecords arrival with
  | .ok (records, _, source) => if source = peer then records else []
  | .error _ => []

def heardFrom (peer : Addr) (arrivals : List (Arrival Addr TransportError)) : List DtlsRecord :=
  arrivals.flatMap (recordsFrom peer)

theorem heardFrom_concat (peer : Addr) (arrivals : List (Arrival Addr TransportError))
    (arrival : Arrival Addr TransportError) :
    heardFrom peer (arrivals ++ [arrival]) = heardFrom peer arrivals ++ recordsFrom peer arrival := by
  simp [heardFrom]

theorem recordsFrom_of_ok {peer : Addr} {arr : Arrival Addr TransportError} {records : List DtlsRecord}
    {addr : Addr} (h : recvRecords arr = .ok (records, addr, peer)) : recordsFrom peer arr = records := by
  rw [recordsFrom, h]
  exact if_pos rfl

end Heard

def Carries (record : DtlsRecord) (message : HandshakeMessage) : Prop :=
  record.header.contentType = .handshake ∧
    ∃ messages, parseUnfragmentedHandshakeMessages record = .ok messages ∧ message ∈ messages

def IsChangeCipherSpec (record : DtlsRecord) : Prop :=
  record.header.contentType = .changeCipherSpec ∧ record.payload = [1]

section Evidence

variable [Suite]

/-- An encrypted record that opens under the keys and holds the Finished. -/
def BringsFinished (record : DtlsRecord) (key : ByteVector 16) (fixedIv : ByteVector 4)
    (finished : HandshakeMessage) : Prop :=
  record.header.contentType = .handshake ∧ record.header.epoch = 1 ∧ finished.messageType = .finished ∧
    ∃ plaintext plainRecord messages, openAes128Ccm8Record record key fixedIv = .ok plaintext ∧
      DtlsRecord.new .handshake 1 0 plaintext = .ok plainRecord ∧
      parseUnfragmentedHandshakeMessages plainRecord = .ok messages ∧ finished ∈ messages

/-- The proofs of both messages of the peer verify, and the messages give the
secret. -/
structure Proven (party : EcJpakeParty) (own one : RoundOne) (two : RoundTwo) (secret : ByteVector 32) : Prop where
  roundOne : verifyRoundOne one = .ok ()
  roundTwo : ∃ base point, party.secondRoundBase own one party.role.peerRole = .ok base ∧
    pointFromBytes two.point = .ok point ∧ two.proof.verify base point one.participantId [] = .ok ()
  secret : party.finish own one two = .ok secret

theorem proven_of_finish {party : EcJpakeParty} {own one : RoundOne} {two : RoundTwo} {secret : ByteVector 32}
    (h : party.finish own one two = .ok secret) : Proven party own one two secret := by
  obtain ⟨shared, hshared, -⟩ := bind_ok.mp h
  obtain ⟨base, point, -, hone, hbase, hpoint, htwo, -, -⟩ := sharedPoint_eq_ok.mp hshared
  exact ⟨hone, ⟨base, point, hbase, hpoint, htwo⟩, h⟩

section Client

variable {start hs hs' : ThreadDtlsHandshake} {heard more : List DtlsRecord} {record : DtlsRecord}
  {m : HandshakeMessage} {r : Option Unit}

/-- A ServerHello among the records brought the server's first message. -/
def ServerHelloHeard (heard : List DtlsRecord) (one : RoundOne) (random : ByteVector 32) : Prop :=
  ∃ record ∈ heard, ∃ message hello kkpp, Carries record message ∧ message.messageType = .serverHello ∧
    ServerHello.decode message.payload = .ok hello ∧ hello.random = random ∧ hello.ecjpakeKkpp = some kkpp ∧
    decodeTlsKkpp kkpp threadServerId = .ok one

def ServerKeyExchangeHeard (heard : List DtlsRecord) (two : RoundTwo) : Prop :=
  ∃ record ∈ heard, ∃ message, Carries record message ∧ message.messageType = .serverKeyExchange ∧
    decodeTlsKeyExchange message.payload threadServerId true = .ok two

/-- What the client knows of the server it has heard. -/
structure ClientLearned (start : ThreadDtlsHandshake) (heard : List DtlsRecord) (hs : ThreadDtlsHandshake) :
    Prop where
  ecjpake : hs.ecjpake = start.ecjpake
  clientRoundOne : hs.clientRoundOne = start.clientRoundOne
  clientRandom : hs.clientRandom = start.clientRandom
  hello : ∀ one, hs.serverRoundOne = some one → ∃ random, hs.serverRandom = some random ∧
    ServerHelloHeard heard one random
  keyExchange : ∀ two, hs.serverRoundTwo = some two → ServerKeyExchangeHeard heard two

theorem ClientLearned.mono (h : ClientLearned start heard hs) (more : List DtlsRecord) :
    ClientLearned start (heard ++ more) hs := by
  refine ⟨h.ecjpake, h.clientRoundOne, h.clientRandom, ?_, ?_⟩
  · intro one hone
    obtain ⟨random, hr, record, hmem, hrest⟩ := h.hello one hone
    exact ⟨random, hr, record, mem_append_left more hmem, hrest⟩
  · intro two htwo
    obtain ⟨record, hmem, hrest⟩ := h.keyExchange two htwo
    exact ⟨record, mem_append_left more hmem, hrest⟩

theorem ClientLearned.recorded (h : ClientLearned start heard hs) (m : HandshakeMessage) :
    ClientLearned start heard (hs.record m) := ⟨h.1, h.2, h.3, h.4, h.5⟩

theorem ClientLearned.learnMessage (h : ClientLearned start heard hs) (hmem : record ∈ heard)
    (hcarries : Carries record m) (hrun : (serverFlightMessage m).run hs = .ok r hs') : ClientLearned start heard hs' := by
  rcases serverFlightMessage_cases hrun with ⟨-, hello, hrun⟩ | ⟨-, two, hrun⟩ | ⟨-, hrun⟩
  · obtain ⟨ht, hd, -, kkpp, one, hk, ho, -, rfl⟩ := handleServerHello_eq_ok.mp hrun
    refine ⟨h.ecjpake, h.clientRoundOne, h.clientRandom, ?_, h.keyExchange⟩
    intro one' hone
    cases hone
    exact ⟨hello.random, rfl, record, hmem, m, hello, kkpp, hcarries, ht, hd, rfl, hk, ho⟩
  · obtain ⟨ht, hd, -, rfl⟩ := handleServerKeyExchange_eq_ok.mp hrun
    refine ⟨h.ecjpake, h.clientRoundOne, h.clientRandom, h.hello, ?_⟩
    intro two' htwo
    cases htwo
    exact ⟨record, hmem, m, hcarries, ht, hd⟩
  · obtain ⟨-, -, rfl⟩ := handleServerHelloDone_eq_ok.mp hrun
    exact h.recorded m

theorem ClientLearned.learnRecord (h : ClientLearned start heard hs)
    (hrun : (serverFlightRecord record).run hs = .ok r hs') : ClientLearned start (heard ++ [record]) hs' := by
  rcases serverFlightRecord_cases hrun with ⟨ht, ms, hp, hrun⟩ | ⟨-, rfl⟩
  · have hmem : record ∈ heard ++ [record] := by simp
    have hstep : ∀ (passed : List HandshakeMessage) m s t, m ∈ ms →
        ClientLearned start (heard ++ [record]) s → (serverFlightMessage m).run s = .ok none t →
        ClientLearned start (heard ++ [record]) t := fun _ m s t hm hs hrun => hs.learnMessage hmem ⟨ht, ms, hp, hm⟩ hrun
    cases r with
    | none =>
      exact forEach_eq_none (P := fun _ s => ClientLearned start (heard ++ [record]) s) hstep []
        (h.mono [record]) hrun
    | some u =>
      obtain ⟨before, m, after, s, rfl, hs, hm⟩ :=
        forEach_eq_some (P := fun _ s => ClientLearned start (heard ++ [record]) s) hstep []
          (h.mono [record]) hrun
      exact hs.learnMessage hmem ⟨ht, _, hp, by simp⟩ hm
  · exact h.mono [record]

variable {TransportError : Type}

/-- The server has proved that it knows the secret: its messages and proofs
came first, then a ChangeCipherSpec, and then its Finished. The keys of the
session are those that opened the Finished. -/
def ServerAuthenticated (start : ThreadDtlsHandshake) (heard : List DtlsRecord) (hs : ThreadDtlsHandshake)
    (session : SessionState) : Prop :=
  ∃ flight middle record after, heard = flight ++ middle ++ record :: after ∧
    ∃ one two random secret keys, ServerHelloHeard flight one random ∧ ServerKeyExchangeHeard flight two ∧
      Proven start.ecjpake start.clientRoundOne one two secret ∧
      keys = keyMaterialOf secret start.clientRandom random ∧
      (∃ changeCipherSpec ∈ middle, IsChangeCipherSpec changeCipherSpec) ∧
      ∃ (finished : HandshakeMessage) (transcript : HandshakeTranscript),
        BringsFinished record keys.keyBlock.serverWriteKey keys.keyBlock.serverWriteIv finished ∧
        finished.payload = (HandshakeTranscript.finishedVerifyData transcript keys.masterSecret .server).toList ∧
        hs.transcript.bytes = transcript.bytes ++ finished.bytes ∧ session = .new keys .client

def ClientHeard (start : ThreadDtlsHandshake) (heard : List DtlsRecord) : ConnectStage TransportError → Prop
  | .helloVerify hs _ => hs = start
  | .serverFlight hs _ => ClientLearned start heard hs
  | .serverFinished hs keyMaterial saw => ∃ flight rest, heard = flight ++ rest ∧ ClientLearned start flight hs ∧
      hs.deriveKeyMaterial = .ok keyMaterial ∧ (saw = true → ∃ record ∈ rest, IsChangeCipherSpec record)
  | .connected hs session => ServerAuthenticated start heard hs session
  | .failed _ => True

/-- The wait for the Finished: it goes on with the same handshake, or it ends
with the last of the records it has looked at. -/
theorem heard_finished {keys : ThreadDtlsKeyMaterial} {saw saw' : Bool} {flight rest rs : List DtlsRecord}
    (hlearned : ClientLearned start flight hs) (hkeys : hs.deriveKeyMaterial = .ok keys)
    (hsaw : saw = true → ∃ record ∈ rest, IsChangeCipherSpec record)
    (hrun : (forEach (serverFinishedRecord keys) rs).run (hs, saw) = .ok r (hs', saw')) :
    (r = none ∧ hs' = hs ∧ (saw' = true → ∃ record ∈ rest ++ rs, IsChangeCipherSpec record)) ∨
    (r = some () ∧ ServerAuthenticated start (flight ++ rest ++ rs) hs' (.new keys .client)) := by
  let P (passed : List DtlsRecord) (s : ThreadDtlsHandshake × Bool) : Prop :=
    s.1 = hs ∧ (s.2 = true → ∃ record ∈ rest ++ passed, IsChangeCipherSpec record)
  have hstart : P [] (hs, saw) := ⟨rfl, by rwa [append_nil]⟩
  have hstep : ∀ passed record s t, record ∈ rs → P passed s →
      (serverFinishedRecord keys record).run s = .ok none t → P (passed ++ [record]) t := by
    rintro passed record ⟨hs₁, saw₁⟩ ⟨hs₂, saw₂⟩ - ⟨rfl, hp⟩ hbody
    rcases serverFinishedRecord_cases hbody with ⟨-, rfl, rfl⟩ | ⟨-, rfl, ht, hpayload⟩ | ⟨hr, -⟩
    · refine ⟨rfl, fun hsaw => ?_⟩
      obtain ⟨ccs, hmem, hccs⟩ := hp hsaw
      exact ⟨ccs, by rw [← append_assoc]; exact mem_append_left _ hmem, hccs⟩
    · exact ⟨rfl, fun _ => ⟨record, by simp, ht, hpayload⟩⟩
    · cases hr
  cases r with
  | none => exact .inl ⟨rfl, forEach_eq_none (P := P) hstep [] hstart hrun⟩
  | some u =>
    obtain ⟨before, record, after, ⟨hs₁, saw₁⟩, rfl, ⟨rfl, hp⟩, hbody⟩ := forEach_eq_some (P := P) hstep [] hstart hrun
    rcases serverFinishedRecord_cases hbody with ⟨hr, -⟩ | ⟨hr, -⟩ | ⟨-, hsaw, ht, he, plaintext, plainRecord,
      messages, m, hopen, hnew, hparse, hm, hverify⟩
    · cases hr
    · cases hr
    · obtain ⟨htype, hdata, -, rfl⟩ := verifyServerFinished_eq_ok.mp hverify
      obtain ⟨one, two, random, secret, hone, htwo, hrandom, hfinish, hmaterial⟩ := clientKeyMaterial_eq_ok.mp hkeys
      obtain ⟨random', hrandom', hheard⟩ := hlearned.hello one hone
      obtain rfl : random = random' := Option.some.inj (hrandom.symm.trans hrandom')
      rw [hlearned.ecjpake, hlearned.clientRoundOne] at hfinish
      rw [hlearned.clientRandom] at hmaterial
      refine .inr ⟨rfl, flight, rest ++ before, record, after, by simp, one, two, random, secret, keys,
        hheard, hlearned.keyExchange two htwo, proven_of_finish hfinish, hmaterial, hp hsaw, m, hs₁.transcript,
        ⟨ht, he, htype, plaintext, plainRecord, messages, hopen, hnew, hparse, hm⟩, hdata.symm, rfl, rfl⟩

theorem ServerAuthenticated.mono {session : SessionState} (h : ServerAuthenticated start heard hs session)
    (more : List DtlsRecord) : ServerAuthenticated start (heard ++ more) hs session := by
  obtain ⟨flight, middle, record, after, rfl, hrest⟩ := h
  exact ⟨flight, middle, record, after ++ more, by simp, hrest⟩

theorem ClientLearned.flight {rs : List DtlsRecord} (h : ClientLearned start heard hs)
    (hrun : (forEach serverFlightRecord rs).run hs = .ok r hs') : ClientLearned start (heard ++ rs) hs' := by
  have hstep : ∀ passed record s t, record ∈ rs → ClientLearned start (heard ++ passed) s →
      (serverFlightRecord record).run s = .ok none t → ClientLearned start (heard ++ (passed ++ [record])) t := by
    intro passed record s t _ hs hbody
    rw [← append_assoc]
    exact hs.learnRecord hbody
  have hstart : ClientLearned start (heard ++ []) hs := by rwa [append_nil]
  cases r with
  | none => exact forEach_eq_none (P := fun passed s => ClientLearned start (heard ++ passed) s) hstep [] hstart hrun
  | some u =>
    obtain ⟨before, record, after, s, rfl, hs, hbody⟩ :=
      forEach_eq_some (P := fun passed s => ClientLearned start (heard ++ passed) s) hstep [] hstart hrun
    have := (hs.learnRecord hbody).mono after
    simpa using this

theorem ClientHeard.process {rng : Rng} {rs : List DtlsRecord} {stage : ConnectStage TransportError}
    {progress : Progress TransportError} (hone : start.serverRoundOne = none) (htwo : start.serverRoundTwo = none)
    (h : ClientHeard start heard stage) (hrun : ClientDriver.process rng rs stage = .ok progress) :
    ClientHeard start (heard ++ rs) progress.stage := by
  cases stage with
  | helloVerify handshake helloState =>
    obtain ⟨⟨done, helloState'⟩, -, hrun⟩ := bind_ok.mp hrun
    obtain rfl : handshake = start := h
    cases done with
    | none =>
      cases hrun
      rfl
    | some u =>
      obtain ⟨chello, helloState'', hstage⟩ := afterHelloVerify_stage hrun
      rw [hstage]
      -- nothing of the server is known yet
      exact ⟨rfl, rfl, rfl, fun _ h => (nomatch hone.symm.trans h), fun _ h => (nomatch htwo.symm.trans h)⟩
  | serverFlight handshake helloState =>
    obtain ⟨⟨done, handshake'⟩, hflight, hrun⟩ := bind_ok.mp hrun
    have hlearned : ClientLearned start (heard ++ rs) handshake' := ClientLearned.flight h (exec_eq_ok.mp hflight)
    cases done with
    | none =>
      cases hrun
      exact hlearned
    | some u =>
      obtain ⟨cke, keyed, rng', keys, fin, hs', -, -, -, -, -, -, hexchange, hkeys, hfinished, -, -, -, -, -, -,
        rfl⟩ := afterServerFlight_eq_ok.mp hrun
      obtain ⟨-, -, -, -, -, -, -, -, rfl⟩ := buildClientKeyExchange_eq_ok.mp hexchange
      obtain ⟨-, -, -, rfl⟩ := buildClientFinished_eq_ok.mp hfinished
      exact ⟨heard ++ rs, [], by simp, (hlearned.recorded cke).recorded fin, hkeys, fun hsaw => nomatch hsaw⟩
  | serverFinished handshake keys saw =>
    obtain ⟨⟨done, handshake', saw'⟩, hwait, hend⟩ := bind_ok.mp hrun
    obtain ⟨flight, rest, rfl, hlearned, hkeys, hsaw⟩ := h
    rcases heard_finished hlearned hkeys hsaw (exec_eq_ok.mp hwait) with ⟨hd, hhs, hccs⟩ | ⟨hd, hauth⟩
    · cases hd
      cases hhs
      cases hend
      exact ⟨flight, rest ++ rs, by simp, hlearned, hkeys, hccs⟩
    · cases hd
      cases hend
      exact hauth
  | connected handshake session =>
    cases hrun
    exact ServerAuthenticated.mono h rs
  | failed e =>
    cases hrun
    trivial

section Run

variable {Addr : Type} [DecidableEq Addr] {peer : Addr} {fed : List (Arrival Addr TransportError)}

theorem ClientHeard.mono {stage : ConnectStage TransportError} (h : ClientHeard start heard stage)
    (hstage : stage.isWaiting = false) (more : List DtlsRecord) : ClientHeard start (heard ++ more) stage := by
  cases stage with
  | helloVerify | serverFlight | serverFinished => cases hstage
  | connected hs session => exact ServerAuthenticated.mono h more
  | failed e => trivial

theorem ClientHeard.step {client : Client Addr TransportError} (hone : start.serverRoundOne = none)
    (htwo : start.serverRoundTwo = none) (h : client.peer = peer ∧ ClientHeard start (heardFrom peer fed) client.stage)
    (arr : Arrival Addr TransportError) : (client.step arr).peer = peer ∧
      ClientHeard start (heardFrom peer (fed ++ [arr])) (client.step arr).stage := by
  obtain ⟨rfl, h⟩ := h
  rw [heardFrom_concat, Client.step]
  by_cases hwait : client.stage.isWaiting = true
  · rw [if_pos hwait]
    cases hrecv : recvRecords arr with
    | error e => exact ⟨rfl, trivial⟩
    | ok received =>
      obtain ⟨rs, addr, source⟩ := received
      dsimp only
      by_cases hsource : source = client.peer
      · rw [if_pos hsource]
        rw [hsource] at hrecv
        rw [recordsFrom_of_ok hrecv]
        cases hprocess : ClientDriver.process client.rng rs client.stage with
        | error e => exact ⟨rfl, trivial⟩
        | ok progress => exact ⟨rfl, h.process hone htwo hprocess⟩
      · rw [if_neg hsource]
        have hnone : recordsFrom client.peer arr = [] := by
          rw [recordsFrom, hrecv]
          exact if_neg hsource
        rw [hnone, append_nil]
        exact ⟨rfl, h⟩
  · rw [if_neg hwait]
    exact ⟨rfl, h.mono (by simpa using hwait) _⟩

theorem clientHeard_run (peer : Addr) (pskc : Bytes) (rng : Rng) (arrs : List (Arrival Addr TransportError)) :
    ClientHeard (ThreadDtlsHandshake.new pskc rng).1 (heardFrom peer arrs)
      ((Client.start peer pskc rng).run arrs).stage := by
  let P (fed : List (Arrival Addr TransportError)) (client : Client Addr TransportError) : Prop :=
    client.peer = peer ∧ ClientHeard (ThreadDtlsHandshake.new pskc rng).1 (heardFrom peer fed) client.stage
  have hstart : P [] (.start peer pskc rng) := by
    rw [Client.start]
    cases hbegin : (begin pskc rng : Except DtlsError (Progress TransportError)) with
    | error e => exact ⟨rfl, trivial⟩
    | ok progress =>
      obtain ⟨helloState, -, hbegin⟩ := bind_ok.mp hbegin
      obtain ⟨_, -, hbegin⟩ := bind_ok.mp hbegin
      obtain ⟨_, -, hbegin⟩ := bind_ok.mp hbegin
      cases hbegin
      exact ⟨rfl, rfl⟩
  exact (foldl_induction (P := P) hstart (fun fed arr client h => ClientHeard.step rfl rfl h arr) arrs).2

end Run

end Client

section Server

variable {Addr TransportError : Type} {start hs hs' : ThreadDtlsServerHandshake} {cookies : DtlsCookieGenerator}
  {first rest heard : List DtlsRecord} {record : DtlsRecord} {m : HandshakeMessage} {r : Option Unit}

/-- A ClientHello with a cookie of the generator brought the client's first
message. -/
def ClientHelloHeard (cookies : DtlsCookieGenerator) (heard : List DtlsRecord) (one : RoundOne)
    (random : ByteVector 32) : Prop :=
  ∃ record ∈ heard, ∃ message hello kkpp, Carries record message ∧ record.header.epoch = 0 ∧
    message.messageType = .clientHello ∧ ClientHello.decode message.payload = .ok hello ∧
    cookies.verify hello.random hello.cookie = true ∧ hello.random = random ∧ hello.ecjpakeKkpp = some kkpp ∧
    decodeTlsKkpp kkpp threadClientId = .ok one

def ClientKeyExchangeHeard (heard : List DtlsRecord) (two : RoundTwo) : Prop :=
  ∃ record ∈ heard, ∃ message, Carries record message ∧ record.header.epoch = 0 ∧
    message.messageType = .clientKeyExchange ∧ decodeTlsKeyExchange message.payload threadClientId false = .ok two

/-- What the server knows of the client it has committed to: the hello came in
the `first` records and the rest in the others. -/
structure ServerLearned (start : ThreadDtlsServerHandshake) (cookies : DtlsCookieGenerator)
    (first rest : List DtlsRecord) (hs : ThreadDtlsServerHandshake) : Prop where
  ecjpake : hs.ecjpake = start.ecjpake
  serverRoundOne : hs.serverRoundOne = start.serverRoundOne
  serverRandom : hs.serverRandom = start.serverRandom
  hello : ∃ one random, hs.clientRoundOne = some one ∧ hs.clientRandom = some random ∧
    ClientHelloHeard cookies first one random
  keyExchange : ∀ two, hs.clientRoundTwo = some two → ClientKeyExchangeHeard rest two

structure FlightHeard (start : ThreadDtlsServerHandshake) (cookies : DtlsCookieGenerator)
    (first rest : List DtlsRecord) (hs : ThreadDtlsServerHandshake) (saw : Bool)
    (keyMaterial : Option ThreadDtlsKeyMaterial) : Prop where
  learned : ServerLearned start cookies first rest hs
  saw : saw = true → ∃ record ∈ rest, IsChangeCipherSpec record
  keys : ∀ keys, keyMaterial = some keys → hs.deriveKeyMaterial = .ok keys

/-- The client has proved that it knows the secret, as in the other direction.
The server's own Finished follows the client's in the transcript. -/
def ClientAuthenticated (start : ThreadDtlsServerHandshake) (cookies : DtlsCookieGenerator)
    (heard : List DtlsRecord) (hs : ThreadDtlsServerHandshake) (keys : ThreadDtlsKeyMaterial) : Prop :=
  ∃ first rest record after, heard = first ++ rest ++ record :: after ∧
    ∃ one two random secret, ClientHelloHeard cookies first one random ∧ ClientKeyExchangeHeard rest two ∧
      Proven start.ecjpake start.serverRoundOne one two secret ∧
      keys = keyMaterialOf secret random start.serverRandom ∧
      (∃ changeCipherSpec ∈ rest, IsChangeCipherSpec changeCipherSpec) ∧
      ∃ (finished : HandshakeMessage) (transcript : HandshakeTranscript) (own : HandshakeMessage),
        BringsFinished record keys.keyBlock.clientWriteKey keys.keyBlock.clientWriteIv finished ∧
        finished.payload = (HandshakeTranscript.finishedVerifyData transcript keys.masterSecret .client).toList ∧
        hs.transcript.bytes = transcript.bytes ++ finished.bytes ++ own.bytes

theorem FlightHeard.mono {saw : Bool} {keys : Option ThreadDtlsKeyMaterial}
    (h : FlightHeard start cookies first rest hs saw keys) (more : List DtlsRecord) :
    FlightHeard start cookies first (rest ++ more) hs saw keys := by
  refine ⟨⟨h.learned.ecjpake, h.learned.serverRoundOne, h.learned.serverRandom, h.learned.hello, ?_⟩, ?_, h.keys⟩
  · intro two htwo
    obtain ⟨record, hmem, hrest⟩ := h.learned.keyExchange two htwo
    exact ⟨record, mem_append_left more hmem, hrest⟩
  · intro hsaw
    obtain ⟨record, hmem, hccs⟩ := h.saw hsaw
    exact ⟨record, mem_append_left more hmem, hccs⟩

variable {s s' : Flight Addr}

theorem FlightHeard.learnMessage (h : FlightHeard start cookies first rest s.handshake s.sawChangeCipherSpec s.keyMaterial)
    (hmem : record ∈ rest) (hepoch : record.header.epoch = 0) (hcarries : Carries record m)
    (hrun : (clientKeyExchangeMessage m).run s = .ok r s') :
    FlightHeard start cookies first rest s'.handshake s'.sawChangeCipherSpec s'.keyMaterial := by
  obtain ⟨-, handshake, keys, hhandle, hkeys, rfl⟩ := clientKeyExchangeMessage_eq_ok.mp hrun
  obtain ⟨ht, two, hd, -, rfl⟩ := handleClientKeyExchange_eq_ok.mp hhandle
  refine ⟨⟨h.learned.ecjpake, h.learned.serverRoundOne, h.learned.serverRandom, h.learned.hello, ?_⟩, h.saw, ?_⟩
  · intro two' htwo
    cases htwo
    exact ⟨record, hmem, m, hcarries, hepoch, ht, hd⟩
  · intro keys' hkeys'
    cases hkeys'
    exact hkeys

theorem FlightHeard.learnRecord {peer : Addr}
    (h : FlightHeard start cookies first rest s.handshake s.sawChangeCipherSpec s.keyMaterial)
    (hrun : (clientFlightRecord peer record).run s = .ok none s') :
    FlightHeard start cookies first (rest ++ [record]) s'.handshake s'.sawChangeCipherSpec s'.keyMaterial := by
  rcases clientFlightRecord_cases hrun with ⟨-, rfl⟩ | ⟨ht, he, ms, hp, hrun⟩ | ⟨ht, -, hp, -, rfl⟩ |
    ⟨-, -, hrun⟩
  · exact h.mono [record]
  · exact forEach_eq_none
      (P := fun _ (t : Flight Addr) => FlightHeard start cookies first (rest ++ [record]) t.handshake
        t.sawChangeCipherSpec t.keyMaterial)
      (fun _ m u t hm hu hbody => hu.learnMessage (by simp) he ⟨ht, ms, hp, hm⟩ hbody) []
      (h.mono [record]) hrun
  · have := h.mono [record]
    exact ⟨this.learned, fun _ => ⟨record, by simp, ht, hp⟩, this.keys⟩
  · cases (clientFinishedRecord_eq_ok.mp hrun).1

theorem FlightHeard.finish {peer : Addr}
    (h : FlightHeard start cookies first rest s.handshake s.sawChangeCipherSpec s.keyMaterial)
    (hrun : (clientFlightRecord peer record).run s = .ok (some ()) s') (after : List DtlsRecord) :
    ∃ keys, s'.keyMaterial = some keys ∧
      ClientAuthenticated start cookies (first ++ rest ++ record :: after) s'.handshake keys := by
  rcases clientFlightRecord_cases hrun with ⟨hr, -⟩ | ⟨-, -, messages, -, hrun⟩ | ⟨-, -, -, hr, -⟩ | ⟨ht, he, hrun⟩
  · cases hr
  · obtain ⟨_, m, _, u, -, -, hbody⟩ := forEach_eq_some (P := fun _ _ => True) (fun _ _ _ _ _ _ _ => trivial) [] trivial hrun
    cases (clientKeyExchangeMessage_eq_ok.mp hbody).1
  · cases hr
  · obtain ⟨-, hsaw, keys, plain, plainRec, fin, verified, own, handshake, -, -, -, out, hkeys, hopen,
      hnew, hparse, hverify, hbuild, -, -, -, -, rfl⟩ := clientFinishedRecord_eq_ok.mp hrun
    obtain ⟨htype, hdata, -, rfl⟩ := verifyClientFinished_eq_ok.mp hverify
    obtain ⟨-, rfl⟩ := buildServerFinished_eq_ok.mp hbuild
    obtain ⟨one, two, random, secret, hone, htwo, hrandom, hfinish, hmaterial⟩ :=
      deriveKeyMaterial_eq_ok.mp (h.keys keys hkeys)
    obtain ⟨one', random', hone', hrandom', hheard⟩ := h.learned.hello
    obtain rfl : one = one' := Option.some.inj (hone.symm.trans hone')
    obtain rfl : random = random' := Option.some.inj (hrandom.symm.trans hrandom')
    rw [h.learned.ecjpake, h.learned.serverRoundOne] at hfinish
    rw [h.learned.serverRandom] at hmaterial
    exact ⟨keys, hkeys, first, rest, record, after, rfl, one, two, random, secret, hheard,
      h.learned.keyExchange two htwo, proven_of_finish hfinish, hmaterial, h.saw hsaw, fin,
      s.handshake.transcript, own, ⟨ht, he, htype, plain, plainRec, [fin], hopen, hnew,
        (parseMessages_of_parseRecord hparse).1, by simp⟩, hdata.symm, rfl⟩

theorem ClientAuthenticated.mono {keys : ThreadDtlsKeyMaterial}
    (h : ClientAuthenticated start cookies heard hs keys) (more : List DtlsRecord) :
    ClientAuthenticated start cookies (heard ++ more) hs keys := by
  obtain ⟨first, rest, record, after, rfl, hrest⟩ := h
  exact ⟨first, rest, record, after ++ more, by simp, hrest⟩

theorem flightHeard_of_commit {rng rng' : Rng} {flight : HandshakeMessage × HandshakeMessage × HandshakeMessage}
    {hello : ClientHello} (hfresh : start.clientRoundTwo = none) (hmem : record ∈ heard)
    (hepoch : record.header.epoch = 0) (hcarries : Carries record m) (hdec : ClientHello.decode m.payload = .ok hello)
    (hcookie : cookies.verify hello.random hello.cookie = true)
    (hrun : (buildServerFlight m).run (start, rng) = .ok flight (hs, rng')) :
    FlightHeard start cookies heard [] hs false none := by
  obtain ⟨sh, ske, shd⟩ := flight
  obtain ⟨hello', hs₁, hs₂, hs₃, h₁, h₂, h₃, h₄⟩ := buildServerFlight_eq_ok.mp hrun
  obtain ⟨ht, hd, -, -, kkpp, one, hk, ho, -, rfl⟩ := handleClientHello_eq_ok.mp h₁
  obtain ⟨-, -, -, -, -, -, -, rfl⟩ := buildServerHello_eq_ok.mp h₂
  obtain ⟨-, -, -, -, -, -, -, -, rfl⟩ := buildServerKeyExchange_eq_ok.mp h₃
  obtain ⟨-, rfl⟩ := buildServerHelloDone_eq_ok.mp h₄
  obtain rfl : hello' = hello := ok_unique hd hdec
  refine ⟨⟨rfl, rfl, rfl, ?_, ?_⟩, fun hsaw => (nomatch hsaw), fun _ hkeys => (nomatch hkeys)⟩
  · exact ⟨one, hello'.random, rfl, rfl, record, hmem, m, hello', kkpp, hcarries, hepoch, ht, hd, hcookie, rfl, hk, ho⟩
  · exact fun two htwo => nomatch hfresh.symm.trans htwo

section Run

theorem heard_clientFlight {peer : Addr} {rs : List DtlsRecord} {s s' : Flight Addr}
    (h : FlightHeard start cookies first rest s.handshake s.sawChangeCipherSpec s.keyMaterial)
    (hrun : (forEach (clientFlightRecord peer) rs).run s = .ok r s') :
    (r = none ∧ FlightHeard start cookies first (rest ++ rs) s'.handshake s'.sawChangeCipherSpec
      s'.keyMaterial) ∨ ∃ keys, r = some () ∧ s'.keyMaterial = some keys ∧
      ClientAuthenticated start cookies (first ++ rest ++ rs) s'.handshake keys := by
  let P (passed : List DtlsRecord) (t : Flight Addr) : Prop :=
    FlightHeard start cookies first (rest ++ passed) t.handshake t.sawChangeCipherSpec t.keyMaterial
  have hstart : P [] s := by
    change FlightHeard start cookies first (rest ++ []) _ _ _
    rwa [append_nil]
  have hstep : ∀ passed record t u, record ∈ rs → P passed t →
      (clientFlightRecord peer record).run t = .ok none u → P (passed ++ [record]) u := by
    intro passed record t u _ ht hbody
    change FlightHeard start cookies first (rest ++ (passed ++ [record])) _ _ _
    rw [← append_assoc]
    exact FlightHeard.learnRecord ht hbody
  cases r with
  | none => exact .inl ⟨rfl, forEach_eq_none (P := P) hstep [] hstart hrun⟩
  | some u =>
    obtain ⟨before, record, after, t, rfl, ht, hbody⟩ := forEach_eq_some (P := P) hstep [] hstart hrun
    obtain ⟨keys, hkeys, hauth⟩ := FlightHeard.finish ht hbody after
    exact .inr ⟨keys, rfl, hkeys, by simpa using hauth⟩

variable [DecidableEq Addr] {fed : List (Arrival Addr TransportError)}

/-- What the server has heard, and from whom, when it waits in a stage. -/
def ServerHeard (start : ThreadDtlsServerHandshake) (cookies : DtlsCookieGenerator)
    (fed : List (Arrival Addr TransportError)) (server : Server Addr TransportError) : Prop :=
  match server.stage with
  | .clientHello generator => generator = cookies ∧
      (ThreadDtlsServerHandshake.new server.pskc server.rng).1 = start
  | .clientFlight _ peer hs saw keyMaterial => ∃ first rest, heardFrom peer fed = first ++ rest ∧
      FlightHeard start cookies first rest hs saw keyMaterial
  | .accepted _ peer hs keys => ClientAuthenticated start cookies (heardFrom peer fed) hs keys
  | .failed _ => True

/-- The first wait: a datagram without a valid hello changes nothing that
matters, and one with it starts a handshake with its sender. -/
theorem serverHeard_hello {pskc : Bytes} {rng : Rng} {out : Outbound Addr} (hfresh : start.clientRoundTwo = none)
    (hstart : (ThreadDtlsServerHandshake.new pskc rng).1 = start) (arr : Arrival Addr TransportError) :
    ServerHeard start cookies (fed ++ [arr]) (Server.step ⟨pskc, rng, .clientHello cookies, out⟩ arr) := by
  simp only [Server.step]
  cases hrecv : recvRecords arr with
  | error e => trivial
  | ok received =>
    obtain ⟨rs, addr, peer⟩ := received
    dsimp only
    cases hrun : (forEach (clientHelloRecord cookies peer) rs).run out with
    | error e out' => trivial
    | ok r out' =>
      cases r with
      | none => exact ⟨rfl, hstart⟩
      | some m =>
        obtain ⟨record, hmem, hepoch, ht, hparse, -, hello, hdec, hcookie⟩ := clientHelloRecord_eq_some hrun
        rcases Server.commit_cases ⟨pskc, rng, .clientHello cookies, out'⟩ addr peer m with
          ⟨e, hstage⟩ | ⟨flight, handshake, rng', hbuild, hstage⟩
        · dsimp only
          rw [ServerHeard, hstage]
          trivial
        · dsimp only at hbuild ⊢
          rw [ServerHeard, hstage]
          have hpair : ThreadDtlsServerHandshake.new pskc rng =
              (start, (ThreadDtlsServerHandshake.new pskc rng).2) := Prod.ext hstart rfl
          rw [hpair] at hbuild
          have hheard : record ∈ heardFrom peer (fed ++ [arr]) := by
            rw [heardFrom_concat, recordsFrom_of_ok hrecv]
            exact mem_append_right _ hmem
          exact ⟨heardFrom peer (fed ++ [arr]), [], by simp,
            flightHeard_of_commit hfresh hheard hepoch ⟨ht, hparse⟩ hdec hcookie hbuild⟩

theorem serverHeard_flight {pskc : Bytes} {rng : Rng} {out : Outbound Addr} {addr peer : Addr} {saw : Bool}
    {keys : Option ThreadDtlsKeyMaterial} (hfirst : heardFrom peer fed = first ++ rest)
    (h : FlightHeard start cookies first rest hs saw keys) (arr : Arrival Addr TransportError) :
    ServerHeard start cookies (fed ++ [arr]) (Server.step ⟨pskc, rng, .clientFlight addr peer hs saw keys, out⟩ arr) := by
  simp only [Server.step]
  cases hrecv : recvRecords arr with
  | error e => trivial
  | ok received =>
    obtain ⟨records, receivedAt, source⟩ := received
    dsimp only
    by_cases hsource : source = peer
    · rw [if_pos hsource]
      rw [hsource] at hrecv
      have hheard : heardFrom peer (fed ++ [arr]) = first ++ rest ++ records := by
        rw [heardFrom_concat, recordsFrom_of_ok hrecv, hfirst]
      cases hrun : (forEach (clientFlightRecord peer) records).run ⟨hs, saw, keys, out⟩ with
      | error e s => trivial
      | ok r s =>
        rcases heard_clientFlight h hrun with ⟨rfl, hs⟩ | ⟨keys, rfl, hkeys, hauth⟩
        · exact ⟨first, rest ++ records, by rw [hheard, append_assoc], hs⟩
        · dsimp only
          rw [hkeys]
          change ClientAuthenticated start cookies (heardFrom peer (fed ++ [arr])) _ keys
          rwa [hheard]
    · rw [if_neg hsource]
      have hnone : recordsFrom peer arr = [] := by
        rw [recordsFrom, hrecv]
        exact if_neg hsource
      refine ⟨first, rest, ?_, h⟩
      rw [heardFrom_concat, hnone, append_nil, hfirst]

theorem ServerHeard.step {server : Server Addr TransportError} (hfresh : start.clientRoundTwo = none)
    (h : ServerHeard start cookies fed server) (arrival : Arrival Addr TransportError) :
    ServerHeard start cookies (fed ++ [arrival]) (server.step arrival) := by
  obtain ⟨pskc, rng, stage, out⟩ := server
  cases stage with
  | clientHello generator =>
    obtain ⟨rfl, hstart⟩ := h
    exact serverHeard_hello hfresh hstart arrival
  | clientFlight addr peer handshake saw keys =>
    obtain ⟨first, rest, hfirst, h⟩ := h
    exact serverHeard_flight hfirst h arrival
  | accepted addr peer handshake keys =>
    change ClientAuthenticated start cookies (heardFrom peer (fed ++ [arrival])) handshake keys
    rw [heardFrom_concat]
    exact ClientAuthenticated.mono h _
  | failed e => trivial

theorem serverHeard_run (pskc : Bytes) (rng : Rng) (arrs : List (Arrival Addr TransportError)) :
    ServerHeard (ThreadDtlsServerHandshake.new pskc (DtlsCookieGenerator.new rng).2).1
      (DtlsCookieGenerator.new rng).1 arrs ((Server.start pskc rng).run arrs) := by
  have hstart : ServerHeard (ThreadDtlsServerHandshake.new pskc (DtlsCookieGenerator.new rng).2).1
      (DtlsCookieGenerator.new rng).1 [] (Server.start pskc rng : Server Addr TransportError) := ⟨rfl, rfl⟩
  exact foldl_induction hstart (fun _ arr _ h => ServerHeard.step rfl h arr) arrs

end Run

end Server

/-- A flow returns a session only after its peer has proved, from its own
address, that it knows the secret; the session has the keys of those checks. -/
theorem session_requires_authentication {Addr TransportError : Type} [DecidableEq Addr] (pskc : Bytes) (rng : Rng)
    (arrivals : List (Arrival Addr TransportError)) :
    (∀ peer handshake session,
      ((Client.start peer pskc rng).run arrivals).stage = .connected handshake session →
      ServerAuthenticated (ThreadDtlsHandshake.new pskc rng).1 (heardFrom peer arrivals) handshake session) ∧
    ∀ localAddr peer handshake keys,
      ((Server.start pskc rng).run arrivals).stage = .accepted localAddr peer handshake keys →
      ClientAuthenticated (ThreadDtlsServerHandshake.new pskc (DtlsCookieGenerator.new rng).2).1
        (DtlsCookieGenerator.new rng).1 (heardFrom peer arrivals) handshake keys := by
  constructor
  · intro peer handshake session hstage
    have h := clientHeard_run peer pskc rng arrivals
    rwa [hstage] at h
  · intro localAddr peer handshake keys hstage
    have h := serverHeard_run pskc rng arrivals
    rwa [ServerHeard, hstage] at h

end Evidence

section Witness

attribute [local instance] residues

theorem session_requires_authentication_residues :
    (∃ (arrivals : List (Arrival Bool Unit)) (handshake : ThreadDtlsHandshake) (session : SessionState),
      ((Client.start false [1, 2, 3] (residueRng [])).run arrivals).stage = .connected handshake session ∧
      ServerAuthenticated (ThreadDtlsHandshake.new [1, 2, 3] (residueRng [])).1 (heardFrom false arrivals)
        handshake session) ∧
    ∃ (arrivals : List (Arrival Bool Unit)) (handshake : ThreadDtlsServerHandshake) (keys : ThreadDtlsKeyMaterial),
      ((Server.start [1, 2, 3] (residueRng [])).run arrivals).stage = .accepted false true handshake keys ∧
      ClientAuthenticated
        (ThreadDtlsServerHandshake.new [1, 2, 3] (DtlsCookieGenerator.new (residueRng [])).2).1
        (DtlsCookieGenerator.new (residueRng [])).1 (heardFrom true arrivals) handshake keys := by
  obtain ⟨arrivals, handshake, session, hclient⟩ := connected_residues
  obtain ⟨arrivals', handshake', keys, hserver⟩ := accepted_residues
  exact ⟨⟨arrivals, handshake, session, hclient,
      (session_requires_authentication [1, 2, 3] (residueRng []) arrivals).1 _ _ _ hclient⟩,
    arrivals', handshake', keys, hserver,
    (session_requires_authentication [1, 2, 3] (residueRng []) arrivals').2 _ _ _ _ hserver⟩

end Witness

end ThreadCommissioner.PeerAuthentication
