import ThreadCommissioner.SessionState

namespace ThreadCommissioner.Durations

open ByteStrings Coap Commissioners Computations Datasets Diagnostics Errors Exchanges JoinerSessions List
open Meshcop Operations Primitives RelaySessions Requests SessionState Texts Tlvs

section Queues

variable [Suite] {H : Type} {c c₁ c₂ c₃ : Commissioner H}

/-- The results of keep-alives that are still queued were queued before. -/
def KeepsResponses (c c' : Commissioner H) : Prop :=
  ∀ result, .keepAliveResponse result ∈ c'.events → .keepAliveResponse result ∈ c.events

theorem KeepsResponses.refl (c : Commissioner H) : KeepsResponses c c := fun _ => id

theorem KeepsResponses.trans (h : KeepsResponses c₁ c₂) (h' : KeepsResponses c₂ c₃) : KeepsResponses c₁ c₃ :=
  fun res hmem => h res (h' res hmem)

theorem KeepsResponses.of_append {later : List CommissionerEvent} (h : c₁.events = c.events ++ later)
    (hlater : ∀ res, .keepAliveResponse res ∉ later) : KeepsResponses c c₁ := by
  intro res hmem
  rw [h, mem_append] at hmem
  exact hmem.resolve_right (hlater res)

theorem KeepsResponses.of_outgoing {P : CoapMessage → Prop} (h : Outgoing P c c₁) : KeepsResponses c c₁ := by
  obtain ⟨mid, sends, outs, rfl, -⟩ := h
  exact .refl c

variable [JoinerHandler H]

theorem driveSession_keepsResponses (jid : ByteVector 8) (sess : JoinerSession) (handler : H) (payload : Bytes) :
    Respects KeepsResponses (driveSession jid sess handler payload) := by
  intro c
  cases hrun : (receive payload).run ⟨sess, handler, c.rng⟩ with
  | error e party =>
    rw [driveSession_of_error hrun]
    exact .refl c
  | ok evs party =>
    have hlater : KeepsResponses c (dispatched c jid evs party) :=
      .of_append rfl fun res => notMem_dispatchEvents (by simp) (by simp) party.session evs not_mem_nil
    rw [driveSession_of_ok hrun]
    split
    · exact hlater
    · refine hlater.trans (Respects.forM .refl .trans (fun tx c => ?_) _ _)
      exact .of_outgoing (relayTransmission_relayed (P := fun _ => True) (fun _ => trivial) sess tx c)

theorem handleRelayRx_keepsResponses (port loc : UInt16) (iid : ByteVector 8) (payload : Bytes) : Respects KeepsResponses
      (handleRelayRx port loc iid payload : CommissionerM H Unit) := by
  refine .bind .trans (respects_modify fun c => .refl c) fun _ c => ?_
  rw [get_bind]
  dsimp only
  split
  · exact .refl c
  · split
    · exact driveSession_keepsResponses _ _ _ _ c
    · split
      · exact .refl c
      · rw [set_bind]
        exact driveSession_keepsResponses _ _ _ _ _

end Queues

section Limits

variable [Suite] {H : Type} {c c₁ c₂ c₃ : Commissioner H} {limit first second : ℕ}

/-- The handle after an operation that leaves its session alone. With a DTLS
session the operation has taken at most the limit. -/
structure Undisturbed (limit : ℕ) (c c' : Commissioner H) : Prop where
  session : SameSession c c'
  responses : KeepsResponses c c'
  clock : c.now ≤ c'.now
  dtlsSession : c.dtlsSession = true → c'.dtlsSession = true
  within : c.dtlsSession = true → c'.now ≤ c.now + limit

theorem Undisturbed.refl (limit : ℕ) (c : Commissioner H) : Undisturbed limit c c :=
  ⟨⟨rfl, rfl⟩, .refl c, le_rfl, id, fun _ => Nat.le_add_right _ _⟩

theorem Undisturbed.trans (h : Undisturbed first c₁ c₂) (h' : Undisturbed second c₂ c₃) :
    Undisturbed (first + second) c₁ c₃ where
  session := ⟨h'.session.1.trans h.session.1, h'.session.2.trans h.session.2⟩
  responses := h.responses.trans h'.responses
  clock := h.clock.trans h'.clock
  dtlsSession hdtls := h'.dtlsSession (h.dtlsSession hdtls)
  within hdtls := by
    have hfirst := h.within hdtls
    have hsecond := h'.within (h.dtlsSession hdtls)
    omega

theorem Undisturbed.mono (h : Undisturbed first c c₁) (hle : first ≤ second) : Undisturbed second c c₁ :=
  ⟨h.session, h.responses, h.clock, h.dtlsSession, fun hdtls => (h.within hdtls).trans (Nat.add_le_add_left hle _)⟩

theorem Undisturbed.idle (c : Commissioner H) (elapsed : ℕ) (network : Network) :
    Undisturbed elapsed c { c with now := c.now + elapsed, network } :=
  ⟨⟨rfl, rfl⟩, .refl c, Nat.le_add_right _ _, id, fun _ => le_rfl⟩

variable [JoinerHandler H]

theorem handling_undisturbed : Handling (fun _ => True) (Undisturbed 0 : Commissioner H → Commissioner H → Prop) where
  refl := .refl 0
  trans h h' := h.trans h'
  notified notification peerAddr c := by
    refine ⟨⟨rfl, rfl⟩, .of_append rfl fun res hmem => ?_, le_rfl, id, fun _ => le_rfl⟩
    cases notification with
    | datasetChanged | diagGetAnswer | panIdConflict | energyReport | relayRx => cases mem_singleton.mp hmem
  outgoing := by
    rintro c _ ⟨mid, sends, outs, rfl, -⟩
    exact ⟨⟨rfl, rfl⟩, .refl c, le_rfl, id, fun _ => le_rfl⟩
  relay port loc iid payload c := by
    obtain ⟨_, _, _, _, -, _, _, _, hfinal, -⟩ :=
      handleRelayRx_relayed (P := fun _ => True) (fun _ => trivial) port loc iid payload c
    have hresponses := handleRelayRx_keepsResponses port loc iid payload c
    rw [hfinal] at hresponses ⊢
    exact ⟨⟨rfl, rfl⟩, hresponses, le_rfl, id, fun _ => le_rfl⟩
  ack _ := trivial
  proxiedAck _ _ _ := trivial

end Limits

section Operations

variable [Suite] {H : Type} {α β : Type} {x : CommissionerM H α} {f : α → CommissionerM H β} {limit first second : ℕ}

/-- The operation takes at most the limit and leaves the session alone. -/
def Takes (limit : ℕ) (x : CommissionerM H α) : Prop := Respects (Undisturbed limit) x

theorem Takes.mono (h : Takes first x) (hle : first ≤ second) : Takes second x := fun c => (h c).mono hle

theorem Takes.bind (hx : Takes first x) (hf : ∀ a, Takes second (f a)) : Takes (first + second) (x >>= f) :=
  .andThen (fun h => h.mono (Nat.le_add_right _ _)) (fun h h' => h.trans h') hx hf

theorem Takes.after (hx : Takes 0 x) (hf : ∀ a, Takes limit (f a)) : Takes limit (x >>= f) :=
  (hx.bind hf).mono (Nat.zero_add limit).le

theorem Takes.before (hx : Takes limit x) (hf : ∀ a, Takes 0 (f a)) : Takes limit (x >>= f) := hx.bind hf

theorem Takes.reads (hx : Respects Eq x) (hf : ∀ a, Takes limit (f a)) : Takes limit (x >>= f) :=
  .read_bind (.refl limit) hx hf

theorem takes_pure (limit : ℕ) (a : α) : Takes limit (pure a : CommissionerM H α) := respects_pure (.refl limit) a

theorem takes_throw (limit : ℕ) (e : Error) : Takes limit (throw e : CommissionerM H α) := respects_throw (.refl limit) e

theorem takes_lift (limit : ℕ) (y : Except Error α) : Takes limit (liftM y : CommissionerM H α) :=
  respects_lift (.refl limit) y

theorem takes_modify {g : Commissioner H → Commissioner H} (h : ∀ c, Undisturbed limit c (g c)) :
    Takes limit (modify g : CommissionerM H PUnit) := respects_modify h

theorem ensureDtlsSession_takes : Takes 0 (ensureDtlsSession : CommissionerM H Unit) := by
  intro c
  rw [ensureDtlsSession, get_bind]
  split
  · exact .refl 0 c
  · next hdtls =>
    dsimp only
    split
    · exact ⟨⟨rfl, rfl⟩, .refl c, Nat.le_add_right _ _, id, fun h => absurd h hdtls⟩
    · split
      · exact ⟨⟨rfl, rfl⟩, .refl c, Nat.le_add_right _ _, id, fun h => absurd h hdtls⟩
      · exact ⟨⟨rfl, rfl⟩, .refl c, Nat.le_add_right _ _, fun _ => rfl, fun h => absurd h hdtls⟩

variable [JoinerHandler H]

theorem nextRequestIdentity_takes {f : UInt16 × Bytes → CommissionerM H β}
    (hf : ∀ mid token, Takes limit (f (mid, token))) : Takes limit (nextRequestIdentity >>= f) :=
  .after handling_undisturbed.nextRequestIdentity fun ⟨mid, token⟩ => hf mid token

variable (req : CoapMessage)

/-- By induction on what will arrive: each delivery takes its time off what
remains. -/
theorem awaitResponse_takes (inbox : List Delivery) (remaining : ℕ) :
    Takes remaining (awaitResponse req inbox remaining : CommissionerM H (Option CoapMessage)) := by
  induction inbox generalizing remaining with
  | nil =>
    rw [awaitResponse]
    exact .before (takes_modify fun c => .idle c remaining c.network) fun _ => takes_throw 0 _
  | cons delivery inbox ih =>
    rw [awaitResponse]
    split
    · exact .before (takes_modify fun c => .idle c remaining _) fun _ => takes_throw 0 _
    · next hle =>
      have hsum : delivery.elapsed + (remaining - delivery.elapsed) ≤ remaining := by omega
      refine .mono (.bind (takes_modify fun c => .idle c delivery.elapsed _) fun _ => ?_) hsum
      refine .after (takes_lift 0 _) fun responseWire => .after (takes_lift 0 _) fun m => ?_
      refine .after (handling_undisturbed.handleIncoming _ _) fun resp => ?_
      cases resp with
      | none => exact ih _
      | some resp => exact takes_pure _ _

theorem concludeExchange_takes (req m : CoapMessage) (waitForResponse : Bool) : Takes meshcopTimeout (do
      sendWire m
      if waitForResponse then awaitResponse req (← get).network.inbox meshcopTimeout
      else return none : CommissionerM H (Option CoapMessage)) := by
  refine .after (handling_undisturbed.sendWire trivial) fun _ => ?_
  split
  · exact .reads (respects_get fun _ => rfl) fun c => awaitResponse_takes req _ _
  · exact takes_pure _ _

theorem execute_takes (route : MeshcopRoute) (waitForResponse : Bool) :
    Takes meshcopTimeout (execute req route waitForResponse : CommissionerM H (Option CoapMessage)) := by
  refine .reads (respects_get fun _ => rfl) fun c => .after (takes_lift 0 _) fun _ => ?_
  refine .after (handling_undisturbed.wireMessage req route) fun m => ?_
  exact .after ensureDtlsSession_takes fun _ => concludeExchange_takes req m waitForResponse

theorem executeMeshcop_takes : Takes meshcopTimeout (executeMeshcop req : CommissionerM H CoapMessage) :=
  .before (execute_takes req _ _) fun _ => .after (takes_lift 0 _) fun _ => takes_lift 0 _

theorem executeProxied_takes (dest : Ipv6Addr) :
    Takes meshcopTimeout (executeProxied req dest : CommissionerM H CoapMessage) :=
  .before (execute_takes req _ _) fun _ => .after (takes_lift 0 _) fun _ => takes_lift 0 _

theorem asked_takes {built : Except Error CoapMessage} (read : CoapMessage → Except Error α) :
    Takes meshcopTimeout (do read (← executeMeshcop (← built)) : CommissionerM H α) :=
  .after (takes_lift 0 built) fun req => .before (executeMeshcop_takes req) fun resp => takes_lift 0 (read resp)

variable (dest : Ipv6Addr)

theorem proxied_takes {built : Except Error CoapMessage} (read : CoapMessage → Except Error α) :
    Takes meshcopTimeout (do read (← executeProxied (← built) dest) : CommissionerM H α) :=
  .after (takes_lift 0 built) fun req =>
    .before (executeProxied_takes req dest) fun resp => takes_lift 0 (read resp)

theorem getRawActiveDataset_takes (flags : DatasetFlags) :
    Takes meshcopTimeout (getRawActiveDataset flags : CommissionerM H Bytes) := by
  refine nextRequestIdentity_takes fun mid token => .after (takes_lift 0 _) fun req => ?_
  exact .before (executeMeshcop_takes req) fun _ => takes_pure 0 _

theorem getActiveDataset_takes (flags : DatasetFlags) :
    Takes meshcopTimeout (getActiveDataset flags : CommissionerM H Dataset) :=
  .before (getRawActiveDataset_takes flags) fun _ => takes_lift 0 _

theorem readDataset_takes (op : CommissionerOperation) (getTlvTypes : List UInt8) :
    Takes meshcopTimeout (readDataset op getTlvTypes : CommissionerM H Dataset) :=
  nextRequestIdentity_takes fun _ _ => asked_takes _

theorem writeDataset_takes (op : CommissionerOperation) (required : List (UInt8 × String)) (ds : Dataset) :
    Takes meshcopTimeout (writeDataset op required ds : CommissionerM H Unit) :=
  .after (takes_lift 0 _) fun _ => .reads sessionIdRequired_reads fun _ =>
    nextRequestIdentity_takes fun _ _ => asked_takes _

theorem requireMeshLocalPrefix_takes : Takes meshcopTimeout (requireMeshLocalPrefix : CommissionerM H (ByteVector 8)) := by
  refine .reads (respects_get fun _ => rfl) fun c => ?_
  split
  · exact takes_pure _ _
  · refine .before (getRawActiveDataset_takes _) fun raw => .after (takes_lift 0 _) fun ds => ?_
    refine .after (takes_lift 0 _) fun found => .after (takes_lift 0 _) fun mesh => ?_
    refine .after (takes_lift 0 _) fun _ => .after (takes_modify fun c => ?_) fun _ => takes_pure 0 _
    exact ⟨⟨rfl, rfl⟩, .refl c, le_rfl, id, fun _ => le_rfl⟩

theorem leaderAloc_takes : Takes meshcopTimeout (leaderAloc : CommissionerM H Ipv6Addr) :=
  .before requireMeshLocalPrefix_takes fun _ => takes_pure 0 _

theorem primaryBbrAloc_takes : Takes meshcopTimeout (primaryBbrAloc : CommissionerM H Ipv6Addr) :=
  .before requireMeshLocalPrefix_takes fun _ => takes_pure 0 _

theorem getCommissionerDataset_takes (flags : CommissionerDatasetFlags) :
    Takes (2 * meshcopTimeout) (getCommissionerDataset flags : CommissionerM H Dataset) := by
  rw [Nat.two_mul]
  exact .bind leaderAloc_takes fun leader => nextRequestIdentity_takes fun _ _ => proxied_takes leader _

theorem setCommissionerDataset_takes (ds : Dataset) :
    Takes (2 * meshcopTimeout) (setCommissionerDataset ds : CommissionerM H Unit) := by
  refine .reads sessionIdRequired_reads fun sid => .after (takes_lift 0 _) fun _ => ?_
  rw [Nat.two_mul]
  exact .bind leaderAloc_takes fun leader => nextRequestIdentity_takes fun _ _ => proxied_takes leader _

theorem enableJoiner_takes (jid : ByteVector 8) : Takes (4 * meshcopTimeout) (enableJoiner jid : CommissionerM H Unit) := by
  rw [show 4 * meshcopTimeout = 2 * meshcopTimeout + 2 * meshcopTimeout from rfl]
  exact .bind (getCommissionerDataset_takes _) fun _ => setCommissionerDataset_takes _

theorem enableAllJoiners_takes (enable : Bool) :
    Takes (2 * meshcopTimeout) (enableAllJoiners enable : CommissionerM H Unit) := setCommissionerDataset_takes _

theorem proxiedCommand_takes (build : UInt16 → UInt16 → Bytes → Except Error CoapMessage) :
    Takes meshcopTimeout (proxiedCommand dest build : CommissionerM H Unit) := by
  refine .reads sessionIdRequired_reads fun sid => nextRequestIdentity_takes fun mid token => ?_
  refine .after (takes_lift 0 _) fun req => .before (execute_takes req _ _) fun resp => ?_
  cases resp with
  | none => exact takes_pure 0 _
  | some resp => exact takes_lift 0 _

theorem registerMulticastListener_takes [AddressTexts] (addresses : List Text) (timeout : UInt32) :
    Takes (2 * meshcopTimeout) (registerMulticastListener addresses timeout : CommissionerM H UInt8) := by
  refine .reads sessionIdRequired_reads fun sid => .after (takes_lift 0 _) fun addresses => ?_
  rw [Nat.two_mul]
  refine .bind primaryBbrAloc_takes fun pbbr => nextRequestIdentity_takes fun mid token => ?_
  refine .after (takes_lift 0 _) fun req => .before (executeProxied_takes req pbbr) fun resp => ?_
  refine .after (takes_lift 0 _) fun tlvs => .after (takes_lift 0 _) fun status => ?_
  split
  · exact takes_pure 0 _
  · exact takes_throw 0 _

theorem diagnosticReset_takes (flags : UInt64) :
    Takes meshcopTimeout (diagnosticReset (some dest) flags : CommissionerM H Unit) := by
  refine .reads sessionIdRequired_reads fun _ => .after (takes_pure 0 dest) fun dest => ?_
  exact nextRequestIdentity_takes fun _ _ => proxied_takes dest _

theorem getDiagnostics_takes (flags : UInt64) :
    Takes meshcopTimeout (getDiagnostics dest flags : CommissionerM H NetDiagData) :=
  .reads sessionIdRequired_reads fun _ => .after (takes_lift 0 _) fun _ =>
    nextRequestIdentity_takes fun _ _ => proxied_takes dest _

end Operations

section Petitions

variable [Suite] {H : Type} {limit : ℕ}

def ConnectedBy (instant : ℕ) (c : Commissioner H) : Prop := c.dtlsSession = true ∧ c.now ≤ instant

theorem Takes.connectedBy {α : Type} {x : CommissionerM H α} (h : Takes limit x) (instant : ℕ) :
    Triple (ConnectedBy instant) (fun _ => ConnectedBy (instant + limit)) (fun c => c.now ≤ instant + limit) x := by
  rintro c ⟨hdtls, hnow⟩
  have hkept := h c
  have hwithin := hkept.within hdtls
  cases hrun : x.run c with
  | ok a c₁ =>
    rw [hrun] at hkept hwithin
    exact ⟨hkept.dtlsSession hdtls, hwithin.trans (Nat.add_le_add_right hnow limit)⟩
  | error e c₁ =>
    rw [hrun] at hwithin
    exact hwithin.trans (Nat.add_le_add_right hnow limit)

theorem ensureDtlsSession_connects (instant : ℕ) :
    Triple (fun c => c.now ≤ instant) (fun _ => ConnectedBy (instant + dtlsHandshakeTimeout))
      (fun c => c.now ≤ instant + dtlsHandshakeTimeout) (ensureDtlsSession : CommissionerM H Unit) := by
  intro c hnow
  rw [ensureDtlsSession, get_bind]
  split
  · next hdtls => exact ⟨hdtls, hnow.trans (Nat.le_add_right _ _)⟩
  · dsimp only
    split
    · exact Nat.add_le_add_right hnow _
    · next hintime =>
      have hend := Nat.add_le_add hnow (Nat.not_lt.mp hintime)
      split
      · exact hend
      · exact ⟨rfl, hend⟩

variable [JoinerHandler H]

theorem executeMeshcop_connects (req : CoapMessage) (instant : ℕ) :
    Triple (fun c => c.now ≤ instant) (fun _ => ConnectedBy (instant + dtlsHandshakeTimeout + meshcopTimeout))
      (fun c => c.now ≤ instant + dtlsHandshakeTimeout + meshcopTimeout)
      (executeMeshcop req : CommissionerM H CoapMessage) := by
  have hlater : ∀ c : Commissioner H, c.now ≤ instant + dtlsHandshakeTimeout →
      c.now ≤ instant + dtlsHandshakeTimeout + meshcopTimeout := fun _ h => h.trans (Nat.le_add_right _ _)
  have hrest : Triple (fun c => c.now ≤ instant) (fun _ => ConnectedBy (instant + dtlsHandshakeTimeout + meshcopTimeout))
      (fun c => c.now ≤ instant + dtlsHandshakeTimeout + meshcopTimeout) (do
        ensureDtlsSession
        sendWire req
        if true then awaitResponse req (← get).network.inbox meshcopTimeout
        else return none : CommissionerM H (Option CoapMessage)) := by
    refine .bind ((ensureDtlsSession_connects instant).weakenError hlater) fun _ => ?_
    exact (concludeExchange_takes req req true).connectedBy _
  have hexecute : Triple (fun c => c.now ≤ instant) (fun _ => ConnectedBy (instant + dtlsHandshakeTimeout + meshcopTimeout))
      (fun c => c.now ≤ instant + dtlsHandshakeTimeout + meshcopTimeout)
      (execute req .direct true : CommissionerM H (Option CoapMessage)) := by
    refine .get_bind fun c => .lift_bind (fun c h => hlater c (h.trans (Nat.le_add_right _ _))) fun _ => ?_
    rw [wireMessage, pure_bind]
    exact hrest
  exact .bind hexecute fun resp => .lift_bind (fun _ h => h.2) fun _ => triple_lift (fun _ h => h.2) _

theorem petition_lasts (cfg : CommissionerConfig) (c : Commissioner H) :
    (finalState ((petition cfg).run c)).now ≤ c.now + dtlsHandshakeTimeout + meshcopTimeout ∧
      ((finalState ((petition cfg).run c)).state = .active → c.state = .active ∨
        (finalState ((petition cfg).run c)).dtlsSession = true) ∧ KeepsResponses c (finalState ((petition cfg).run c)) := by
  by_cases hstate : c.state = .connected
  · by_cases hid : cfg.commissionerId.bytes.length ≤ maxExtendedTlvLength
    · obtain ⟨req, ⟨e, herror⟩ | ⟨answer, c₁, resp, hrun, hok⟩⟩ := petition_exchanges hid hstate
      · have hends := (executeMeshcop_connects req c.now).finalState (T := fun c' =>
          c'.now ≤ c.now + dtlsHandshakeTimeout + meshcopTimeout) (fun _ _ h => h.2) (fun _ h => h)
          (s := petitioner c) le_rfl
        rw [herror]
        exact ⟨hends, nofun, (executeMeshcop_takes req (petitioner c)).responses⟩
      · have hends := executeMeshcop_connects req c.now (petitioner c) le_rfl
        have hkept := (executeMeshcop_takes req).of_ok hrun
        rw [hrun] at hends
        rw [hok]
        exact ⟨hends.2, fun _ => .inr hends.1, hkept.responses⟩
    · obtain ⟨e, hrun⟩ := petition_of_long (Nat.not_le.mp hid) hstate
      rw [hrun]
      exact ⟨Nat.le_trans (Nat.le_add_right _ _) (Nat.le_add_right _ _), nofun, .refl c⟩
  · obtain ⟨e, hrun⟩ := petition_of_ne cfg hstate
    rw [hrun]
    exact ⟨Nat.le_trans (Nat.le_add_right _ _) (Nat.le_add_right _ _), .inl, .refl c⟩

end Petitions

section KeepAlives

variable [Suite] {H : Type} [JoinerHandler H]

theorem keepAlive_answered (c : Commissioner H) : (∃ e c₁, keepAlive.run c = .error e c₁ ∧ ∃ limit, Undisturbed limit c c₁) ∨
      ∃ res c₁, keepAlive.run c = .ok res (keptAlive res c₁) ∧ ∃ limit, Undisturbed limit c c₁ := by
  have hsome : Handling (fun _ => True) fun c c' : Commissioner H => ∃ limit, Undisturbed limit c c' := {
    refl := fun c => ⟨0, .refl 0 c⟩
    trans := fun ⟨_, h⟩ ⟨_, h'⟩ => ⟨_, h.trans h'⟩
    notified := fun note peerAddr c => ⟨0, handling_undisturbed.notified note peerAddr c⟩
    outgoing := fun h => ⟨0, handling_undisturbed.outgoing h⟩
    relay := fun port loc iid payload c => ⟨0, handling_undisturbed.relay port loc iid payload c⟩
    ack := fun _ => trivial
    proxiedAck := fun _ _ _ => trivial }
  exact keepAlive_concludes_of hsome (fun req c => ⟨_, executeMeshcop_takes req c⟩) c

end KeepAlives

end ThreadCommissioner.Durations
