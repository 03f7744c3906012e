import ThreadCommissioner.Collectors
import ThreadCommissioner.Revocation
import ThreadCommissioner.SessionState
import ThreadCommissioner.TextForms

namespace ThreadCommissioner.WalkTimes

open ByteStrings Coap Collectors Commissioners Computations Datasets Diagnostics Errors
open JoinerSessions Meshcop Operations Primitives Requests Residues Texts ThreadCommissioner.Topology

section Events

variable {interval petitioned : ℕ} {events : List WalkEvent} {event : WalkEvent}

def latestAcceptance (petitioned : ℕ) (events : List WalkEvent) : ℕ :=
  events.foldl (fun latest event =>
    match event with
    | .keepAlive _ (some accepted) => accepted
    | _ => latest) petitioned

/-- A keep-alive is sent, and a request has ended, before the interval is over. -/
def WithinInterval (interval latest : ℕ) : WalkEvent → Prop
  | .keepAlive sent _ => sent < latest + interval
  | .request _ started ended => latest ≤ started ∧ started ≤ ended ∧ ended < latest + interval

/-- Each event lies in the interval after the last acceptance before it. -/
def Timely (interval petitioned : ℕ) (events : List WalkEvent) : Prop :=
  ∀ before event after, events = before ++ event :: after →
    WithinInterval interval (latestAcceptance petitioned before) event

theorem timely_nil : Timely interval petitioned [] := by
  intro before event after h
  simp at h

theorem Timely.concat (h : Timely interval petitioned events)
    (hevent : WithinInterval interval (latestAcceptance petitioned events) event) :
    Timely interval petitioned (events ++ [event]) := by
  intro before event' after heq
  rcases concat_eq_append_cons heq with ⟨rfl, rfl⟩ | ⟨after', rfl⟩
  · exact hevent
  · exact h before event' after' rfl

theorem latestAcceptance_concat (petitioned : ℕ) (events : List WalkEvent) (event : WalkEvent) :
    latestAcceptance petitioned (events ++ [event]) = match event with
      | .keepAlive _ (some accepted) => accepted
      | _ => latestAcceptance petitioned events := by
  rw [latestAcceptance, List.foldl_concat]
  rfl

end Events

def EndsRequests {σ : Type} (client : Client σ) (nodeTimeout : ℕ) : Prop :=
  ∀ destination flags s,
    client.now s ≤ client.now (finalState ((client.getDiagnostics nodeTimeout destination flags).run s)) ∧
      client.now (finalState ((client.getDiagnostics nodeTimeout destination flags).run s)) ≤ client.now s + nodeTimeout

/-- Once the petition is accepted, the dataset is fetched within 5 s. -/
def EndsFetch {σ : Type} (client : Client σ) (s : σ) : Prop :=
  ∀ response s', client.petition.run s = .ok response s' →
    client.now s' ≤ client.now (finalState ((client.getActiveDataset datasetFlags).run s')) ∧
      client.now (finalState ((client.getActiveDataset datasetFlags).run s')) ≤ client.now s' + 5 * 10 ^ 9

section Walks

variable {σ : Type} (client : Client σ) (nodeTimeout petitioned : ℕ)

/-- The session of the walk has not lapsed. -/
structure OnTime (c : Collector σ) : Prop where
  timely : Timely client.keepaliveInterval petitioned c.events
  latest : latestAcceptance petitioned c.events = c.lastKeepAlive
  nodeTimeout_eq : c.nodeTimeout = nodeTimeout
  interval_eq : c.keepAliveInterval = client.keepaliveInterval
  since : c.lastKeepAlive ≤ client.now c.commissioner
  within : client.now c.commissioner < c.lastKeepAlive + client.keepaliveInterval

def Ready (c : Collector σ) : Prop :=
  OnTime client nodeTimeout petitioned c ∧
    client.now c.commissioner + nodeTimeout < c.lastKeepAlive + client.keepaliveInterval

def Ended (c : Collector σ) : Prop := Timely client.keepaliveInterval petitioned c.events

variable {client nodeTimeout petitioned}

theorem keepAliveBeforeRequest_ready (hinterval : client.keepaliveInterval ≤ durationMax)
    (hshorter : nodeTimeout < client.keepaliveInterval) :
    Triple (OnTime client nodeTimeout petitioned) (fun _ => Ready client nodeTimeout petitioned)
      (Ended client petitioned) (keepAliveBeforeRequest client) := by
  intro c hc
  -- the keep-alive, if there is one, is sent now
  have hsent : ∀ acc, WithinInterval client.keepaliveInterval (latestAcceptance petitioned c.events)
      (.keepAlive (client.now c.commissioner) acc) := by
    intro acc
    rw [hc.latest]
    exact hc.within
  rcases keepAliveBeforeRequest_cases client c with ⟨hcross, hrun⟩ | ⟨s, -, hrun⟩ | ⟨e, hrun⟩
  · rw [hrun]
    refine ⟨hc, ?_⟩
    have hsince := hc.since
    rw [requestMayCrossKeepaliveDeadline, decide_eq_false_iff_not, hc.nodeTimeout_eq, hc.interval_eq] at hcross
    omega
  · rw [hrun]
    have honTime : OnTime client nodeTimeout petitioned (keptAlive client c s) := by
      refine ⟨hc.timely.concat (hsent _), latestAcceptance_concat _ _ _, hc.nodeTimeout_eq, hc.interval_eq, le_rfl, ?_⟩
      change client.now s < client.now s + client.keepaliveInterval
      omega
    refine ⟨honTime, ?_⟩
    change client.now s + nodeTimeout < client.now s + client.keepaliveInterval
    omega
  · rw [hrun]
    exact hc.timely.concat (hsent _)

theorem diagQuery_onTime (hrequests : EndsRequests client nodeTimeout) (dest : Ipv6Addr) (flags : UInt64) :
    Triple (Ready client nodeTimeout petitioned) (fun _ => OnTime client nodeTimeout petitioned) (Ended client petitioned)
      (diagQuery client dest flags) := by
  rintro c ⟨hc, hroom⟩
  obtain ⟨hstarted, hended⟩ := hrequests dest flags c.commissioner
  rw [← hc.nodeTimeout_eq] at hstarted hended
  have hasked : OnTime client nodeTimeout petitioned (asked client c dest flags) := by
    refine ⟨hc.timely.concat ?_, ?_, hc.nodeTimeout_eq, hc.interval_eq, hc.since.trans hstarted, ?_⟩
    · rw [hc.latest]
      refine ⟨hc.since, hstarted, ?_⟩
      have heq := hc.nodeTimeout_eq
      omega
    · exact (latestAcceptance_concat _ _ _).trans hc.latest
    · have heq := hc.nodeTimeout_eq
      change client.now (finalState ((client.getDiagnostics c.nodeTimeout dest flags).run c.commissioner)) <
        c.lastKeepAlive + client.keepaliveInterval
      omega
  rw [diagQuery_run]
  cases usable (outcome ((client.getDiagnostics c.nodeTimeout dest flags).run c.commissioner)) with
  | ok answer => exact hasked
  | error e => exact hasked.timely

def Keeps {α : Type} (client : Client σ) (nodeTimeout petitioned : ℕ) (x : CollectorM σ α) : Prop :=
  Triple (OnTime client nodeTimeout petitioned) (fun _ => OnTime client nodeTimeout petitioned) (Ended client petitioned) x

theorem keeps_pure {α : Type} (a : α) : Keeps client nodeTimeout petitioned (pure a : CollectorM σ α) :=
  triple_pure fun _ hc => hc

theorem Keeps.lift_bind {α β : Type} {y : Except Error α} {f : α → CollectorM σ β}
    (hf : ∀ a, Keeps client nodeTimeout petitioned (f a)) : Keeps client nodeTimeout petitioned (liftM y >>= f) :=
  Triple.lift_bind (fun _ hc => hc.timely) hf

section Keeping

variable (hinterval : client.keepaliveInterval ≤ durationMax) (hshorter : nodeTimeout < client.keepaliveInterval)
  (hrequests : EndsRequests client nodeTimeout)

include hinterval hshorter

theorem keepAlive_keeps : Keeps client nodeTimeout petitioned (keepAliveBeforeRequest client) :=
  (keepAliveBeforeRequest_ready hinterval hshorter).weaken fun _ _ hready => hready.1

include hrequests

theorem Keeps.request {α : Type} {dest : Ipv6Addr} {flags : UInt64} {f : Option NetDiagData → CollectorM σ α}
    (hf : ∀ answer, Keeps client nodeTimeout petitioned (f answer)) :
    Keeps client nodeTimeout petitioned (keepAliveBeforeRequest client >>= fun _ => diagQuery client dest flags >>= f) :=
  (keepAliveBeforeRequest_ready hinterval hshorter).bind fun _ => (diagQuery_onTime hrequests dest flags).bind hf

variable (dest : Ipv6Addr)

theorem primeFor_keeps (attempts : ℕ) : Keeps client nodeTimeout petitioned (primeFor client dest attempts) := by
  induction attempts with
  | zero => exact keeps_pure _
  | succ attempts ih =>
    apply Keeps.request hinterval hshorter hrequests
    intro answer
    cases answer with
    | some data => exact keeps_pure _
    | none => exact ih

theorem collectBatches_keeps (stack : List (List UInt64)) (merged : NetDiagData) :
    Keeps client nodeTimeout petitioned (collectBatches client dest stack merged) := by
  induction stack, merged using collectBatches.induct with
  | case1 merged =>
    rw [collectBatches]
    exact keeps_pure _
  | case2 merged batch rest ihrest ihanswer ihsplit =>
    rw [collectBatches]
    by_cases hempty : combine batch = 0
    · simp only [if_pos hempty]
      exact (keepAlive_keeps hinterval hshorter).bind fun _ => ihrest
    · simp only [if_neg hempty]
      apply Keeps.request hinterval hshorter hrequests
      intro answer
      cases answer with
      | some data => exact ihanswer data
      | none =>
        by_cases hlength : 1 < batch.length
        · simp only [if_pos hlength]
          exact ihsplit hlength
        · simp only [if_neg hlength]
          exact ihrest

theorem collectDiag_keeps (tlvs : List UInt64) : Keeps client nodeTimeout petitioned (collectDiag client dest tlvs) := by
  refine (primeFor_keeps hinterval hshorter hrequests dest _).bind fun answer => ?_
  cases answer with
  | none => exact keeps_pure _
  | some primer => exact (collectBatches_keeps hinterval hshorter hrequests _ _ _).bind fun _ => keeps_pure _

variable [AddressTexts]

theorem askParent_keeps (rloc16 : UInt16) : Keeps client nodeTimeout petitioned (askParent client rloc16) := by
  by_cases hchild : (childId rloc16).isSome = true
  · rw [askParent, if_pos hchild]
    refine Triple.get_bind fun c => (collectDiag_keeps hinterval hshorter hrequests _ _).bind fun parent => ?_
    cases parent with
    | some data => exact keeps_pure _
    | none => exact keeps_pure _
  · rw [askParent, if_neg hchild]
    exact keeps_pure _

variable [Hex]

theorem askRouters_keeps (leader : UInt16) (rlocs : List UInt16) (found : NodeMap × AnswerMap) :
    Keeps client nodeTimeout petitioned (askRouters client leader rlocs found) := by
  induction rlocs generalizing found with
  | nil => exact keeps_pure _
  | cons rloc rlocs ih =>
    refine (keepAlive_keeps hinterval hshorter).bind fun _ => Triple.get_bind fun c => ?_
    refine (collectDiag_keeps hinterval hshorter hrequests _ _).bind fun answer => ?_
    cases answer with
    | some data => exact ih _
    | none => exact ih _

theorem askChildren_keeps (children : List (UInt16 × Node)) :
    Keeps client nodeTimeout petitioned (askChildren client children) := by
  induction children with
  | nil => exact keeps_pure _
  | cons child children ih =>
    refine (keepAlive_keeps hinterval hshorter).bind fun _ => Triple.get_bind fun c => ?_
    refine (collectDiag_keeps hinterval hshorter hrequests _ _).bind fun answer => ?_
    exact ih.bind fun _ => keeps_pure _

theorem collectTopology_keeps (borderAgent : Text) :
    Keeps client nodeTimeout petitioned (collectTopology client borderAgent) := by
  refine Triple.get_bind fun c => (collectDiag_keeps hinterval hshorter hrequests _ _).bind fun discovery => ?_
  refine Keeps.lift_bind fun discovery => Keeps.lift_bind fun leader => ?_
  refine (askRouters_keeps hinterval hshorter hrequests _ _ _).bind fun ⟨nodes, answers⟩ => ?_
  refine Triple.bind ?_ fun nodes => Triple.get_bind fun c => Keeps.lift_bind fun network => keeps_pure _
  exact (askChildren_keeps hinterval hshorter hrequests _).bind fun children => keeps_pure _

theorem collectNode_keeps (rloc16 : UInt16) : Keeps client nodeTimeout petitioned (collectNode client rloc16) := by
  refine Triple.get_bind fun c => (collectDiag_keeps hinterval hshorter hrequests _ _).bind fun answer => ?_
  cases answer with
  | some data => exact keeps_pure _
  | none => exact (askParent_keeps hinterval hshorter hrequests rloc16).bind fun fromParent => keeps_pure _

end Keeping

theorem start_eq_ok {s s' : σ} {c : Collector σ} (h : (start client nodeTimeout).run s = .ok c s') :
    nodeTimeout < client.keepaliveInterval ∧ ∃ resp s₁ ds, client.petition.run s = .ok resp s₁ ∧
      (client.getActiveDataset datasetFlags).run s₁ = .ok ds s' ∧ c.commissioner = s' ∧ c.nodeTimeout = nodeTimeout ∧
      c.keepAliveInterval = client.keepaliveInterval ∧ c.lastKeepAlive = client.now s₁ ∧ c.events = [] := by
  obtain ⟨_, hshorter, h⟩ := lift_bind_ok.mp h
  obtain ⟨resp, s₁, hpetition, h⟩ := bind_eq_ok.mp h
  rw [get_bind] at h
  obtain ⟨ds, s₂, hfetch, h⟩ := bind_eq_ok.mp h
  obtain ⟨found, -, h⟩ := lift_bind_ok.mp h
  obtain ⟨mesh, -, h⟩ := lift_bind_ok.mp h
  cases h
  exact ⟨Nat.lt_of_not_le (ensure_eq_ok.mp hshorter), resp, s₁, ds, hpetition, hfetch, rfl, rfl, rfl, rfl, rfl⟩

theorem start_onTime (hinterval : minKeepaliveInterval ≤ client.keepaliveInterval) {s s' : σ} {c : Collector σ}
    (hfetch : EndsFetch client s) (h : (start client nodeTimeout).run s = .ok c s') :
    ∃ resp s₁, client.petition.run s = .ok resp s₁ ∧ OnTime client nodeTimeout (client.now s₁) c := by
  obtain ⟨-, resp, s₁, ds, hpetition, hdataset, rfl, htimeout, hkeepAlive, hlast, hevents⟩ := start_eq_ok h
  have hends := hfetch resp s₁ hpetition
  rw [hdataset] at hends
  change client.now s₁ ≤ client.now c.commissioner ∧ client.now c.commissioner ≤ client.now s₁ + 5 * 10 ^ 9 at hends
  refine ⟨resp, s₁, hpetition, ?_, ?_, htimeout, hkeepAlive, ?_, ?_⟩
  · rw [hevents]
    exact timely_nil
  · rw [hevents, hlast]
    rfl
  · rw [hlast]
    exact hends.1
  · rw [hlast]
    rw [minKeepaliveInterval] at hinterval
    omega

/-- From the petition on, no walk lets the session lapse: each keep-alive is sent
within the interval after the last acceptance, and each request is over by then. -/
theorem walks_keep_the_session [AddressTexts] [Hex]
    (hvalid : minKeepaliveInterval ≤ client.keepaliveInterval ∧ client.keepaliveInterval ≤ maxKeepaliveInterval)
    (hrequests : EndsRequests client nodeTimeout) {s s' : σ} {c : Collector σ} (hfetch : EndsFetch client s)
    (hstart : (start client nodeTimeout).run s = .ok c s') :
    ∃ response s₁, client.petition.run s = .ok response s₁ ∧
      (∀ borderAgent, Timely client.keepaliveInterval (client.now s₁)
        (finalState ((collectTopology client borderAgent).run c)).events) ∧
      ∀ rloc16, Timely client.keepaliveInterval (client.now s₁) (finalState ((collectNode client rloc16).run c)).events := by
  have hinterval : client.keepaliveInterval ≤ durationMax := hvalid.2.trans (by decide)
  obtain ⟨hshorter, -⟩ := start_eq_ok hstart
  obtain ⟨response, s₁, hpetition, hc⟩ := start_onTime hvalid.1 hfetch hstart
  refine ⟨response, s₁, hpetition, fun borderAgent => ?_, fun rloc16 => ?_⟩
  · exact (collectTopology_keeps hinterval hshorter hrequests borderAgent).finalState (fun _ _ h => h.timely) (fun _ h => h) hc
  · exact (collectNode_keeps hinterval hshorter hrequests rloc16).finalState (fun _ _ h => h.timely) (fun _ h => h) hc

end Walks

section Handle

variable [Suite] {H : Type} [JoinerHandler H]

theorem clock_getDiagnostics (dest : Ipv6Addr) (flags : UInt64) :
    Respects (fun c c' : Commissioner H => c.now ≤ c'.now) (getDiagnostics dest flags) := by
  have hkept : Unconditional fun c c' : Commissioner H => c.now ≤ c'.now :=
    unconditional_of_volatile (fun _ => le_rfl) le_trans fun _ _ _ _ _ _ _ _ _ _ _ hnow _ => hnow
  exact (fetching_of_cached hkept fun _ _ => le_rfl).getDiagnostics dest flags

theorem commissioner_endsRequests (cfg : CommissionerConfig) (dropped : Commissioner H → Commissioner H) (limit : ℕ) :
    EndsRequests (commissionerClient cfg dropped) limit := by
  intro dest flags c
  have hclock := clock_getDiagnostics dest flags c
  change c.now ≤ (finalState (timeLimited dropped limit (getDiagnostics dest flags) c)).now ∧
    (finalState (timeLimited dropped limit (getDiagnostics dest flags) c)).now ≤ c.now + limit
  by_cases hintime : (finalState ((getDiagnostics dest flags).run c)).now ≤ c.now + limit
  · have hsame : finalState (timeLimited dropped limit (getDiagnostics dest flags) c) =
        finalState ((getDiagnostics dest flags).run c) := by
      rw [timeLimited, if_pos hintime]
      cases (getDiagnostics dest flags).run c <;> rfl
    rw [hsame]
    exact ⟨hclock, hintime⟩
  · rw [timeLimited, if_neg hintime]
    exact ⟨Nat.le_add_right _ _, le_rfl⟩

end Handle

section Example

open Revocation (leaderAnswer)
open SessionState

attribute [local instance] residues noTexts TextForms.plainHex

/-- The answer 2.04 of the border agent to the request with the token. -/
def agentAnswer (token payload : Bytes) : Delivery where
  elapsed := 10 ^ 9
  data := CoapMessage.encode ⟨.acknowledgement, .changed, 1, token, [], payload⟩

/-- The border agent accepts the petition, sends the dataset and accepts a
keep-alive, and the leader answers. -/
def walkHandle : Commissioner StaticJoinerHandler :=
  { residueHandle with
    network := ⟨[], [], [agentAnswer [0, 1] [tlvState, 1, 1, tlvCommissionerSessionId, 2, 0, 1],
      agentAnswer [0, 2] [tlvMeshLocalPrefix, 8, 0xfd, 0, 0, 0, 0, 0, 0, 0], agentAnswer [0, 3] [tlvState, 1, 1],
      leaderAnswer [0, 4] [DiagTlv.macAddress, 2, 0x04, 0x00]]⟩ }

def walkClient : Client (Commissioner StaticJoinerHandler) := commissionerClient ⟨asciiText 1, 40 * 10 ^ 9, false⟩ id

theorem isOk_eq_true {ε σ α : Type} {x : EStateM ε σ α} {s : σ} (h : (outcome (x.run s)).isOk = true) :
    ∃ a s', x.run s = .ok a s' := by
  cases hrun : x.run s with
  | ok a s' => exact ⟨a, s', rfl⟩
  | error e s' =>
    rw [hrun] at h
    cases h

theorem petition_walkHandle {resp : PetitionResponse} {c : Commissioner StaticJoinerHandler}
    (h : walkClient.petition.run walkHandle = .ok resp c) : c = finalState (walkClient.petition.run walkHandle) := by
  rw [h]
  rfl

/-- The requests may take so long that a keep-alive comes before the first. -/
theorem walks_keep_the_session_residues :
    ∃ c c', (start walkClient (39 * 10 ^ 9)).run walkHandle = .ok c c' ∧
      ((finalState ((collectTopology walkClient (asciiText 1)).run c)).events.take 2 =
        [.keepAlive (2 * 10 ^ 9) (some (3 * 10 ^ 9)), .request DiagFlags.macAddr (3 * 10 ^ 9) (3 * 10 ^ 9)]) ∧
      ∀ borderAgent, Timely (40 * 10 ^ 9) (10 ^ 9) (finalState ((collectTopology walkClient borderAgent).run c)).events := by
  obtain ⟨c, c', hstart⟩ : ∃ c c', (start walkClient (39 * 10 ^ 9)).run walkHandle = .ok c c' :=
    isOk_eq_true (by decide +kernel)
  have hevents : ((outcome ((start walkClient (39 * 10 ^ 9)).run walkHandle)).map fun c =>
      (finalState ((collectTopology walkClient (asciiText 1)).run c)).events.take 2) =
        .ok [.keepAlive (2 * 10 ^ 9) (some (3 * 10 ^ 9)), .request DiagFlags.macAddr (3 * 10 ^ 9) (3 * 10 ^ 9)] := by
    decide +kernel
  rw [hstart] at hevents
  have hrequests : EndsRequests walkClient (39 * 10 ^ 9) := commissioner_endsRequests _ _ _
  have hfetch : EndsFetch walkClient walkHandle := by
    intro response c₁ hpetition
    rw [petition_walkHandle hpetition]
    decide +kernel
  obtain ⟨response, c₁, hpetition, htopology, -⟩ := walks_keep_the_session (by decide) hrequests hfetch hstart
  have hnow : walkClient.now c₁ = 10 ^ 9 := by
    rw [petition_walkHandle hpetition]
    decide +kernel
  rw [hnow] at htopology
  exact ⟨c, c', hstart, Except.ok.inj hevents, htopology⟩

end Example

end ThreadCommissioner.WalkTimes
