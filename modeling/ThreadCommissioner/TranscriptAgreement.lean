import ThreadCommissioner.HonestExchange

namespace ThreadCommissioner.TranscriptAgreement

open ByteStrings Computations Errors HandshakeMessages HonestExchange KeySchedule List Primitives
open ClientHandshake ServerHandshake Residues

section Recording

variable {σ : Type} {transcript : σ → HandshakeTranscript}

def SameTranscript (transcript : σ → HandshakeTranscript) (s t : σ) : Prop := transcript t = transcript s

/-- A call that succeeds appends its message to the transcript, and a call
that fails leaves the transcript alone. -/
structure Records (transcript : σ → HandshakeTranscript) (x : EStateM DtlsError σ HandshakeMessage) : Prop where
  appends : ∀ {s m t}, x.run s = .ok m t →
    m.Fits ∧ (transcript t).bytes = (transcript s).bytes ++ m.bytes
  keeps : FailsWithin (SameTranscript transcript) x

theorem transcript_of_records {ι : Type} {call : ι → EStateM DtlsError σ HandshakeMessage}
    (h : ∀ i, Records transcript (call i)) (calls : List ι) {s : σ} (hs : (transcript s).bytes = []) :
    (∀ m ∈ successes (runAll call calls s).2, m.Fits) ∧ (transcript (runAll call calls s).1).bytes =
        (successes (runAll call calls s).2).flatMap HandshakeMessage.bytes := by
  let P (s : σ) (ms : List HandshakeMessage) : Prop :=
    (∀ m ∈ ms, m.Fits) ∧ (transcript s).bytes = ms.flatMap HandshakeMessage.bytes
  have start : P s [] := ⟨by simp, hs⟩
  refine runAll_induction ?_ ?_ start calls
  · rintro i s ms m t ⟨hf, hb⟩ hrun
    obtain ⟨hm, ht⟩ := (h i).appends hrun
    refine ⟨fun m' hm' => ?_, by rw [ht, hb, flatMap_append, flatMap_singleton]⟩
    rcases mem_append.mp hm' with hm' | hm'
    · exact hf m' hm'
    · rw [mem_singleton.mp hm']
      exact hm
  · rintro i s ms e t ⟨hf, hb⟩ hrun
    have ht : transcript t = transcript s := (h i).keeps s e t hrun
    exact ⟨hf, by rw [ht, hb]⟩

variable {α β : Type} {x : EStateM DtlsError σ α} {f : α → EStateM DtlsError σ β}

theorem keeps_lift_bind (y : Except DtlsError α) (hf : ∀ a, FailsWithin (SameTranscript transcript) (f a)) :
    FailsWithin (SameTranscript transcript) (liftM y >>= f) :=
  .bind (fun h h' => h'.trans h) (respects_lift (R := SameTranscript transcript) (fun _ => rfl) y) hf

theorem keeps_get_bind {f : σ → EStateM DtlsError σ β} (hf : ∀ s, FailsWithin (SameTranscript transcript) (f s)) :
    FailsWithin (SameTranscript transcript) (get >>= f) := .bind (fun h h' => h'.trans h) (respects_get fun _ => rfl) hf

theorem keeps_modify_bind {g : σ → σ} {f : PUnit → EStateM DtlsError σ β}
    (hg : ∀ s, transcript (g s) = transcript s) (hf : FailsWithin (SameTranscript transcript) (f ⟨⟩)) :
    FailsWithin (SameTranscript transcript) (modify g >>= f) :=
  .bind (fun h h' => h'.trans h) (respects_modify hg) fun _ => hf

theorem keeps_zoom {τ : Type} (hx : FailsWithin (SameTranscript transcript) x) :
    FailsWithin (SameTranscript fun s : σ × τ => transcript s.1) (zoom Prod.fst (fun hs s => (hs, s.2)) id x) :=
  hx.zoom fun _ _ h => h

end Recording

section Agreement

variable [Suite]

section Server

theorem keeps_pushTranscript (m : HandshakeMessage) : FailsWithin (SameTranscript (·.transcript)) (pushTranscript m) :=
  keeps_get_bind fun _ => keeps_lift_bind _ fun _ _ _ _ h => nomatch h

theorem keeps_serverCall (call : ServerCall) : FailsWithin (SameTranscript fun s => s.1.transcript) call.run := by
  cases call with
  | handleClientHello m =>
    refine .bind_pure (keeps_zoom ?_) _
    refine keeps_lift_bind _ fun _ => keeps_lift_bind _ fun hello => keeps_lift_bind _ fun _ => ?_
    refine keeps_lift_bind _ fun _ => keeps_lift_bind _ fun kkpp => keeps_lift_bind _ fun one => ?_
    exact keeps_modify_bind (fun _ => rfl) (.bind_pure (keeps_pushTranscript m) _)
  | buildServerHello seq =>
    refine keeps_zoom (keeps_get_bind fun hs => keeps_lift_bind _ fun _ => ?_)
    refine keeps_lift_bind _ fun kkpp => keeps_lift_bind _ fun payload => ?_
    exact .bind_pure (keeps_pushTranscript _) _
  | buildServerKeyExchange seq =>
    rintro ⟨hs, rng⟩ e t h
    simp only [ServerCall.run, buildServerKeyExchange, get_bind, lift_bind_eq_error, set_bind] at h
    rcases h with ⟨-, rfl⟩ | ⟨one, -, ⟨-, rfl⟩ | ⟨two, -, ⟨-, rfl⟩ | ⟨payload, -, h⟩⟩⟩
    · rfl
    · rfl
    · rfl
    · exact FailsWithin.bind_pure (keeps_zoom (keeps_pushTranscript _)) _ (hs, two.2) e t h
  | buildServerHelloDone seq =>
    have h : FailsWithin (SameTranscript (·.transcript)) (buildServerHelloDone seq) := .bind_pure (keeps_pushTranscript _) _
    exact keeps_zoom h
  | handleClientKeyExchange m =>
    refine .bind_pure (keeps_zoom ?_) _
    refine keeps_lift_bind _ fun _ => keeps_lift_bind _ fun two => ?_
    exact keeps_modify_bind (fun _ => rfl) (keeps_pushTranscript m)
  | verifyClientFinished m keyMaterial =>
    refine .bind_pure (keeps_zoom ?_) _
    refine keeps_lift_bind _ fun _ => keeps_get_bind fun hs => keeps_lift_bind _ fun _ => ?_
    exact keeps_pushTranscript m
  | buildServerFinished seq keyMaterial =>
    exact keeps_zoom (keeps_get_bind fun hs => .bind_pure (keeps_pushTranscript _) _)

theorem records_serverCall (call : ServerCall) : Records (fun s => s.1.transcript) call.run := by
  refine ⟨?_, keeps_serverCall call⟩
  rintro ⟨hs, rng⟩ m ⟨hs', rng'⟩ h
  cases call with
  | handleClientHello message =>
    simp only [ServerCall.run, ServerHandshake.onHandshake, zoom_bind_ok, run_pure, handleClientHello_eq_ok] at h
    obtain ⟨_, _, ⟨-, -, -, -, _, _, -, -, hm, rfl⟩, h⟩ := h
    cases h
    exact ⟨hm, rfl⟩
  | buildServerHello seq =>
    simp only [ServerCall.run, ServerHandshake.onHandshake, zoom_eq_ok, buildServerHello_eq_ok] at h
    obtain ⟨_, ⟨-, _, _, -, -, -, hm, rfl⟩, h⟩ := h
    cases h
    exact ⟨hm, rfl⟩
  | buildServerKeyExchange seq =>
    obtain ⟨_, _, _, -, -, -, -, hm, rfl⟩ := buildServerKeyExchange_eq_ok.mp h
    exact ⟨hm, rfl⟩
  | buildServerHelloDone seq =>
    simp only [ServerCall.run, ServerHandshake.onHandshake, zoom_eq_ok, buildServerHelloDone_eq_ok] at h
    obtain ⟨_, ⟨rfl, rfl⟩, h⟩ := h
    cases h
    exact ⟨Nat.zero_le _, rfl⟩
  | handleClientKeyExchange message =>
    simp only [ServerCall.run, ServerHandshake.onHandshake, zoom_bind_ok, run_pure, handleClientKeyExchange_eq_ok] at h
    obtain ⟨_, _, ⟨-, _, -, hm, rfl⟩, h⟩ := h
    cases h
    exact ⟨hm, rfl⟩
  | verifyClientFinished message keyMaterial =>
    simp only [ServerCall.run, ServerHandshake.onHandshake, zoom_bind_ok, run_pure, verifyClientFinished_eq_ok] at h
    obtain ⟨_, _, ⟨-, -, hm, rfl⟩, h⟩ := h
    cases h
    exact ⟨hm, rfl⟩
  | buildServerFinished seq keyMaterial =>
    simp only [ServerCall.run, ServerHandshake.onHandshake, zoom_eq_ok, buildServerFinished_eq_ok] at h
    obtain ⟨_, ⟨rfl, rfl⟩, h⟩ := h
    cases h
    exact ⟨finished_fits _ _, rfl⟩

end Server

section Client

theorem keeps_recordTranscript (m : HandshakeMessage) : FailsWithin (SameTranscript (·.transcript)) (recordTranscript m) :=
  keeps_get_bind fun _ => keeps_lift_bind _ fun _ _ _ _ h => nomatch h

theorem keeps_clientCall (call : ClientCall) : FailsWithin (SameTranscript fun s => s.1.transcript) call.run := by
  cases call with
  | recordClientHello m =>
    refine .bind_pure (keeps_zoom ?_) _
    exact keeps_lift_bind _ fun _ => keeps_recordTranscript m
  | handleServerHello m =>
    refine .bind_pure (keeps_zoom ?_) _
    refine keeps_lift_bind _ fun _ => keeps_lift_bind _ fun hello => keeps_lift_bind _ fun _ => ?_
    refine keeps_lift_bind _ fun kkpp => keeps_lift_bind _ fun one => ?_
    exact keeps_modify_bind (fun _ => rfl) (.bind_pure (keeps_recordTranscript m) _)
  | handleServerKeyExchange m =>
    refine .bind_pure (keeps_zoom ?_) _
    refine keeps_lift_bind _ fun _ => keeps_lift_bind _ fun two => ?_
    exact keeps_modify_bind (fun _ => rfl) (.bind_pure (keeps_recordTranscript m) _)
  | handleServerHelloDone m =>
    refine .bind_pure (keeps_zoom ?_) _
    exact keeps_lift_bind _ fun _ => keeps_recordTranscript m
  | buildClientKeyExchange seq =>
    rintro ⟨hs, rng⟩ e t h
    simp only [ClientCall.run, buildClientKeyExchange, get_bind, lift_bind_eq_error, set_bind] at h
    rcases h with ⟨-, rfl⟩ | ⟨one, -, ⟨-, rfl⟩ | ⟨two, -, ⟨-, rfl⟩ | ⟨payload, -, h⟩⟩⟩
    · rfl
    · rfl
    · rfl
    · exact FailsWithin.bind_pure (keeps_zoom (keeps_recordTranscript _)) _ (hs, two.2) e t h
  | buildClientFinished seq =>
    refine keeps_zoom (keeps_get_bind fun hs => keeps_lift_bind _ fun verifyData => ?_)
    exact .bind_pure (keeps_recordTranscript _) _
  | verifyServerFinished m keyMaterial =>
    refine .bind_pure (keeps_zoom ?_) _
    refine keeps_lift_bind _ fun _ => keeps_get_bind fun hs => keeps_lift_bind _ fun _ => ?_
    exact keeps_recordTranscript m

theorem records_clientCall (call : ClientCall) : Records (fun s => s.1.transcript) call.run := by
  refine ⟨?_, keeps_clientCall call⟩
  rintro ⟨hs, rng⟩ m ⟨hs', rng'⟩ h
  cases call with
  | recordClientHello message =>
    simp only [ClientCall.run, ClientHandshake.onHandshake, zoom_bind_ok, run_pure, recordClientHello_eq_ok] at h
    obtain ⟨_, _, ⟨-, hm, rfl⟩, h⟩ := h
    cases h
    exact ⟨hm, rfl⟩
  | handleServerHello message =>
    simp only [ClientCall.run, ClientHandshake.onHandshake, zoom_bind_ok, run_pure, handleServerHello_eq_ok] at h
    obtain ⟨_, _, ⟨-, -, -, _, _, -, -, hm, rfl⟩, h⟩ := h
    cases h
    exact ⟨hm, rfl⟩
  | handleServerKeyExchange message =>
    simp only [ClientCall.run, ClientHandshake.onHandshake, zoom_bind_ok, run_pure, handleServerKeyExchange_eq_ok] at h
    obtain ⟨_, _, ⟨-, -, hm, rfl⟩, h⟩ := h
    cases h
    exact ⟨hm, rfl⟩
  | handleServerHelloDone message =>
    simp only [ClientCall.run, ClientHandshake.onHandshake, zoom_bind_ok, run_pure, handleServerHelloDone_eq_ok] at h
    obtain ⟨_, _, ⟨-, hm, rfl⟩, h⟩ := h
    cases h
    exact ⟨hm, rfl⟩
  | buildClientKeyExchange seq =>
    obtain ⟨_, _, _, -, -, -, -, hm, rfl⟩ := buildClientKeyExchange_eq_ok.mp h
    exact ⟨hm, rfl⟩
  | buildClientFinished seq =>
    simp only [ClientCall.run, ClientHandshake.onHandshake, zoom_eq_ok, buildClientFinished_eq_ok] at h
    obtain ⟨_, ⟨_, -, rfl, rfl⟩, h⟩ := h
    cases h
    exact ⟨finished_fits _ _, rfl⟩
  | verifyServerFinished message keyMaterial =>
    simp only [ClientCall.run, ClientHandshake.onHandshake, zoom_bind_ok, run_pure, verifyServerFinished_eq_ok] at h
    obtain ⟨_, _, ⟨-, -, hm, rfl⟩, h⟩ := h
    cases h
    exact ⟨hm, rfl⟩

end Client

/-- The hash and the PRF separate the inputs that the handshakes at hand give
them: no two of the transcripts have one hash, and no two of the triples of a
secret, a role and a transcript hash have one verify data. -/
structure CollisionFree (transcripts : Set Bytes) (secrets : Set (ByteVector 48)) : Prop where
  sha : Set.InjOn sha256 transcripts
  prf : Set.InjOn (fun t : ByteVector 48 × FinishedRole × ByteVector 32 => finishedVerifyData t.1 t.2.1 t.2.2)
    {t | t.1 ∈ secrets ∧ t.2.2 ∈ sha256 '' transcripts}

theorem CollisionFree.verifyData_inj {transcripts : Set Bytes} {secrets : Set (ByteVector 48)}
    (h : CollisionFree transcripts secrets) {t t' : HandshakeTranscript} {secret secret' : ByteVector 48}
    {role role' : FinishedRole} (ht : t.bytes ∈ transcripts) (ht' : t'.bytes ∈ transcripts)
    (hs : secret ∈ secrets) (hs' : secret' ∈ secrets)
    (heq : (t.finishedVerifyData secret role).toList = (t'.finishedVerifyData secret' role').toList) :
    role = role' ∧ t.bytes = t'.bytes := by
  have hp := @h.prf (secret, role, sha256 t.bytes) ⟨hs, t.bytes, ht, rfl⟩
    (secret', role', sha256 t'.bytes) ⟨hs', t'.bytes, ht', rfl⟩ (List.Vector.eq _ _ heq)
  simp only [Prod.mk.injEq] at hp
  exact ⟨hp.2.1, h.sha ht ht' hp.2.2⟩

theorem collisionFree_of_nodup {transcripts : List Bytes} {secret : ByteVector 48}
    (h : (([FinishedRole.client, .server].product transcripts).map fun t =>
      finishedVerifyData secret t.1 (sha256 t.2)).Nodup) : CollisionFree {t | t ∈ transcripts} {secret} := by
  have hroles : ∀ role : FinishedRole, role ∈ [FinishedRole.client, .server] := by
    intro role
    cases role <;> simp
  have hinj : ∀ role role' t t', t ∈ transcripts → t' ∈ transcripts →
      finishedVerifyData secret role (sha256 t) = finishedVerifyData secret role' (sha256 t') → role = role' ∧ t = t' :=
    fun role role' t t' ht ht' heq => Prod.mk.inj (inj_on_of_nodup_map h
      (mem_product.mpr ⟨hroles role, ht⟩) (mem_product.mpr ⟨hroles role', ht'⟩) heq)
  refine ⟨fun t ht t' ht' heq => (hinj .client .client t t' ht ht' (by rw [heq])).2, ?_⟩
  rintro ⟨_, role, _⟩ ⟨rfl, t, ht, rfl⟩ ⟨_, role', _⟩ ⟨rfl, t', ht', rfl⟩ heq
  obtain ⟨rfl, rfl⟩ := hinj role role' t t' ht ht' heq
  rfl

/-- The state of a client, and the messages it recorded, after any list of
calls, those that failed included. -/
def clientAfter (pskc : Bytes) (rng : Rng) (calls : List ClientCall) : ThreadDtlsHandshake :=
  (runAll ClientCall.run calls (ThreadDtlsHandshake.new pskc rng)).1.1

def clientMessages (pskc : Bytes) (rng : Rng) (calls : List ClientCall) : List HandshakeMessage :=
  successes (runAll ClientCall.run calls (ThreadDtlsHandshake.new pskc rng)).2

def serverAfter (sharedSecret : Bytes) (rng : Rng) (calls : List ServerCall) : ThreadDtlsServerHandshake :=
  (runAll ServerCall.run calls (ThreadDtlsServerHandshake.new sharedSecret rng)).1.1

def serverMessages (sharedSecret : Bytes) (rng : Rng) (calls : List ServerCall) : List HandshakeMessage :=
  successes (runAll ServerCall.run calls (ThreadDtlsServerHandshake.new sharedSecret rng)).2

theorem messages_eq_of_transcript {pskc secret : Bytes} {crng srng : Rng}
    {clientCalls : List ClientCall} {serverCalls : List ServerCall}
    (h : (clientAfter pskc crng clientCalls).transcript.bytes = (serverAfter secret srng serverCalls).transcript.bytes) :
    clientMessages pskc crng clientCalls = serverMessages secret srng serverCalls := by
  obtain ⟨hc, hcb⟩ := transcript_of_records records_clientCall clientCalls
    (s := ThreadDtlsHandshake.new pskc crng) rfl
  obtain ⟨hs, hsb⟩ := transcript_of_records records_serverCall serverCalls
    (s := ThreadDtlsServerHandshake.new secret srng) rfl
  exact HandshakeMessage.flatMap_bytes_inj hc hs (hcb.symm.trans (h.trans hsb))

/-- The Finished messages bind the transcripts. Whatever calls a client and a
server have answered, a Finished that the other side accepts under the same
master secret was built over the same list of messages, and a Finished of one
role is not accepted where the other role's is due. -/
theorem finished_binds_messages {transcripts : Set Bytes} {secrets : Set (ByteVector 48)}
    (h : CollisionFree transcripts secrets) :
    (∀ pskc sharedSecret clientRng serverRng clientCalls serverCalls,
      let client := clientAfter pskc clientRng clientCalls
      let server := serverAfter sharedSecret serverRng serverCalls
      client.transcript.bytes ∈ transcripts → server.transcript.bytes ∈ transcripts →
      ∀ messageSeq finished (clientKeys serverKeys : ThreadDtlsKeyMaterial) client' server',
      clientKeys.masterSecret = serverKeys.masterSecret → serverKeys.masterSecret ∈ secrets →
      (client.deriveKeyMaterial = .ok clientKeys →
        (buildClientFinished messageSeq).run client = .ok finished client' →
        (verifyClientFinished finished serverKeys).run server = .ok () server' →
        clientMessages pskc clientRng clientCalls = serverMessages sharedSecret serverRng serverCalls) ∧
      ((buildServerFinished messageSeq serverKeys).run server = .ok finished server' →
        (verifyServerFinished finished clientKeys).run client = .ok () client' →
        clientMessages pskc clientRng clientCalls = serverMessages sharedSecret serverRng serverCalls)) ∧
    (∀ (client client' other other' : ThreadDtlsHandshake) messageSeq finished
        (keys otherKeys : ThreadDtlsKeyMaterial),
      client.transcript.bytes ∈ transcripts → other.transcript.bytes ∈ transcripts →
      client.deriveKeyMaterial = .ok keys → keys.masterSecret ∈ secrets → otherKeys.masterSecret ∈ secrets →
      (buildClientFinished messageSeq).run client = .ok finished client' →
      (verifyServerFinished finished otherKeys).run other ≠ .ok () other') ∧
    (∀ (server server' other other' : ThreadDtlsServerHandshake) messageSeq finished
        (keys otherKeys : ThreadDtlsKeyMaterial),
      server.transcript.bytes ∈ transcripts → other.transcript.bytes ∈ transcripts →
      keys.masterSecret ∈ secrets → otherKeys.masterSecret ∈ secrets →
      (buildServerFinished messageSeq keys).run server = .ok finished server' →
      (verifyClientFinished finished otherKeys).run other ≠ .ok () other') := by
  refine ⟨?_, ?_, ?_⟩
  · intro pskc sharedSecret clientRng serverRng clientCalls serverCalls client server hc hs
      messageSeq finished clientKeys serverKeys client' server' hkeys hsecret
    have hsecret' : clientKeys.masterSecret ∈ secrets := hkeys ▸ hsecret
    refine ⟨?_, ?_⟩
    · intro hderive hbuild hverify
      obtain ⟨keys, hk, rfl, -⟩ := buildClientFinished_eq_ok.mp hbuild
      obtain rfl : clientKeys = keys := ok_unique hderive hk
      obtain ⟨-, hdata, -, -⟩ := verifyClientFinished_eq_ok.mp hverify
      obtain ⟨-, hbytes⟩ := h.verifyData_inj hs hc hsecret hsecret' hdata
      exact messages_eq_of_transcript hbytes.symm
    · intro hbuild hverify
      obtain ⟨rfl, -⟩ := buildServerFinished_eq_ok.mp hbuild
      obtain ⟨-, hdata, -, -⟩ := verifyServerFinished_eq_ok.mp hverify
      obtain ⟨-, hbytes⟩ := h.verifyData_inj hc hs hsecret' hsecret hdata
      exact messages_eq_of_transcript hbytes
  · intro client client' other other' messageSeq finished keys otherKeys hc ho hderive hk hk' hbuild hverify
    obtain ⟨keys', hkeys, rfl, -⟩ := buildClientFinished_eq_ok.mp hbuild
    obtain rfl : keys = keys' := ok_unique hderive hkeys
    obtain ⟨-, hdata, -, -⟩ := verifyServerFinished_eq_ok.mp hverify
    cases (h.verifyData_inj ho hc hk' hk hdata).1
  · intro server server' other other' messageSeq finished keys otherKeys hs ho hk hk' hbuild hverify
    obtain ⟨rfl, -⟩ := buildServerFinished_eq_ok.mp hbuild
    obtain ⟨-, hdata, -, -⟩ := verifyClientFinished_eq_ok.mp hverify
    cases (h.verifyData_inj ho hs hk' hk hdata).1

end Agreement

section Witness

/-- The hash is the length, and the MAC depends on both ends. -/
@[reducible] def mixing : Suite :=
  { residues with
    sha256 := fun bytes => padTo 32 (beBytes 32 bytes.length)
    hmacSha256 := fun _ bytes => padTo 32 (bytes.headD 0 :: bytes.reverse) }

attribute [local instance] mixing

def mixedRng : Rng where
  bytes i := padTo 32 [UInt8.ofNat i]
  scalars _ := 1
  nonzero _ := ⟨0, by decide⟩

def mixedHello : HandshakeMessage := helloMessage (ThreadDtlsHandshake.new [] mixedRng).1 0 []

def mixedHelloDone : HandshakeMessage := ⟨.serverHelloDone, 2, []⟩

def mixedKeys : ThreadDtlsKeyMaterial := keyMaterialOf (padTo 32 []) (padTo 32 []) (padTo 32 [])

def clientCalls : List ClientCall := [.recordClientHello mixedHello, .handleServerHelloDone mixedHelloDone]

def serverCalls : List ServerCall := [.handleClientHello mixedHello, .buildServerHelloDone 2]

def mixedFinished : HandshakeMessage :=
  ⟨.finished, 3, (HandshakeTranscript.finishedVerifyData ⟨mixedHello.bytes ++ mixedHelloDone.bytes⟩ mixedKeys.masterSecret
    .server).toList⟩

theorem mixed_transcripts : (clientAfter [] mixedRng clientCalls).transcript.bytes =
      mixedHello.bytes ++ mixedHelloDone.bytes ∧
    (serverAfter [] mixedRng serverCalls).transcript.bytes = mixedHello.bytes ++ mixedHelloDone.bytes := by
  decide +kernel

/-- Both sides have a ClientHello and a ServerHelloDone, and the ClientHello
alone is another transcript. -/
theorem finished_binds_messages_residues :
    ∃ client' server',
      (buildServerFinished 3 mixedKeys).run (serverAfter [] mixedRng serverCalls) = .ok mixedFinished server' ∧
      (verifyServerFinished mixedFinished mixedKeys).run (clientAfter [] mixedRng clientCalls) = .ok () client' ∧
      clientMessages [] mixedRng clientCalls = serverMessages [] mixedRng serverCalls := by
  have hfree : CollisionFree {t | t ∈ [mixedHello.bytes ++ mixedHelloDone.bytes, mixedHello.bytes]}
      {mixedKeys.masterSecret} := collisionFree_of_nodup (by decide +kernel)
  obtain ⟨hclient, hserver⟩ := mixed_transcripts
  have hdata : mixedFinished.payload = ((serverAfter [] mixedRng serverCalls).transcript.finishedVerifyData
      mixedKeys.masterSecret .server).toList := by
    rw [HandshakeTranscript.finishedVerifyData, hserver]
    rfl
  have hbuild : (buildServerFinished 3 mixedKeys).run (serverAfter [] mixedRng serverCalls) =
      .ok mixedFinished _ := buildServerFinished_eq_ok.mpr ⟨by rw [← hdata]; rfl, rfl⟩
  have hverify : (verifyServerFinished mixedFinished mixedKeys).run (clientAfter [] mixedRng clientCalls) =
      .ok () ((clientAfter [] mixedRng clientCalls).record mixedFinished) := by
    refine verifyServerFinished_eq_ok.mpr ⟨rfl, ?_, finished_fits _ _, rfl⟩
    rw [HandshakeTranscript.finishedVerifyData, hclient]
    rfl
  refine ⟨_, _, hbuild, hverify, ?_⟩
  refine ((finished_binds_messages hfree).1 _ _ _ _ _ _ ?_ ?_ _ _ _ _ _ _ rfl rfl).2 hbuild hverify
  · rw [hclient]
    exact mem_cons_self
  · rw [hserver]
    exact mem_cons_self

end Witness

end ThreadCommissioner.TranscriptAgreement
