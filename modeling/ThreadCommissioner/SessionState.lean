import ThreadCommissioner.Operations

namespace ThreadCommissioner.SessionState

open ByteStrings Coap Commissioners Computations Datasets Diagnostics Errors Exchanges JoinerSessions Meshcop Operations Primitives
open Requests Residues Texts Tlvs

section Sessions

variable [Suite] {H : Type} {c c₁ : Commissioner H}

def SameSession (c c' : Commissioner H) : Prop := c'.state = c.state ∧ c'.sessionId = c.sessionId

/-- There is a session ID exactly in the active state, and neither a DTLS
session nor a cached prefix in the disabled one. -/
structure Booked (c : Commissioner H) : Prop where
  active : c.sessionId.isSome = true ↔ c.state = .active
  disabled : c.state = .disabled → c.dtlsSession = false ∧ c.meshLocalPrefix = none

/-- The handle is disconnected. -/
structure Closed (c : Commissioner H) : Prop where
  state : c.state = .disabled
  sessionId : c.sessionId = none
  dtlsSession : c.dtlsSession = false
  meshLocalPrefix : c.meshLocalPrefix = none

theorem Booked.closed (h : Booked c) (hstate : c.state = .disabled) : Closed c where
  state := hstate
  sessionId := by
    rw [← Option.not_isSome_iff_eq_none, h.active, hstate]
    decide
  dtlsSession := (h.disabled hstate).1
  meshLocalPrefix := (h.disabled hstate).2

theorem Booked.sessionId_of_connected (h : Booked c) (hstate : c.state = .connected) : c.sessionId = none := by
  rw [← Option.not_isSome_iff_eq_none, h.active, hstate]
  decide

theorem Closed.booked (h : Closed c) : Booked c where
  active := by simp [h.sessionId, h.state]
  disabled _ := ⟨h.dtlsSession, h.meshLocalPrefix⟩

theorem closed_disconnected (c : Commissioner H) : Closed (disconnected c) := ⟨rfl, rfl, rfl, rfl⟩

theorem Booked.sameSession (h : Booked c) (hstate : c.state ≠ .disabled) (hsame : SameSession c c₁) : Booked c₁ where
  active := by rw [hsame.1, hsame.2, h.active]
  disabled hdisabled := absurd (hsame.1.symm.trans hdisabled) hstate

theorem booked_connected (borderAgent : IpAddr) (now : ℕ) (rng : Rng) (network : Network) :
    Booked (connected borderAgent now rng network : Commissioner H) where
  active := ⟨nofun, nofun⟩
  disabled := nofun

variable [JoinerHandler H]

theorem unconditional_sameSession : Unconditional (SameSession : Commissioner H → Commissioner H → Prop) :=
  unconditional_of_volatile (fun _ => ⟨rfl, rfl⟩) (fun h h' => ⟨h'.1.trans h.1, h'.2.trans h.2⟩)
    fun _ _ _ _ _ _ _ _ _ _ _ _ _ => ⟨rfl, rfl⟩

theorem fetching_sameSession : Fetching (SameSession : Commissioner H → Commissioner H → Prop) SameSession :=
  fetching_of_cached unconditional_sameSession fun _ _ => ⟨rfl, rfl⟩

end Sessions

section Closing

variable [Suite] {H : Type} {α β : Type} {x : CommissionerM H α} {f : α → CommissionerM H β}

/-- A closed handle is left as it is, but for the number of the next message. -/
def Untouched (c c' : Commissioner H) : Prop := Closed c → ∃ nextMessageId, c' = { c with nextMessageId }

theorem Untouched.refl (c : Commissioner H) : Untouched c c := fun _ => ⟨c.nextMessageId, rfl⟩

theorem Untouched.trans {c₁ c₂ c₃ : Commissioner H} (h : Untouched c₁ c₂) (h' : Untouched c₂ c₃) : Untouched c₁ c₃ := by
  intro hclosed
  obtain ⟨mid, rfl⟩ := h hclosed
  obtain ⟨messageId', rfl⟩ := h' ⟨hclosed.state, hclosed.sessionId, hclosed.dtlsSession, hclosed.meshLocalPrefix⟩
  exact ⟨messageId', rfl⟩

/-- On a closed handle the computation fails, and leaves it so. -/
def Fails (x : CommissionerM H α) : Prop :=
  ∀ c, Closed c → ∃ e nextMessageId, x.run c = .error e { c with nextMessageId }

theorem Fails.untouched (h : Fails x) : Respects Untouched x := by
  intro c hclosed
  obtain ⟨e, mid, hrun⟩ := h c hclosed
  rw [hrun]
  exact ⟨mid, rfl⟩

theorem Fails.bind (h : Fails x) (f : α → CommissionerM H β) : Fails (x >>= f) := by
  intro c hclosed
  obtain ⟨e, mid, hrun⟩ := h c hclosed
  exact ⟨e, mid, bind_of_error hrun⟩

theorem Fails.after (h : Respects Untouched x) (hf : ∀ a, Fails (f a)) : Fails (x >>= f) := by
  intro c hclosed
  cases hrun : x.run c with
  | error e c₁ =>
    obtain ⟨mid, rfl⟩ := h.of_error hrun hclosed
    exact ⟨e, mid, bind_of_error hrun⟩
  | ok a c₁ =>
    obtain ⟨mid, rfl⟩ := h.of_ok hrun hclosed
    have hclosed₁ : Closed { c with nextMessageId := mid } := ⟨hclosed.state, hclosed.sessionId, hclosed.dtlsSession, hclosed.meshLocalPrefix⟩
    obtain ⟨e, messageId', herror⟩ := hf a _ hclosed₁
    exact ⟨e, messageId', (bind_of_ok hrun).trans herror⟩

theorem fails_of_run (h : ∀ c, Closed c → ∃ e, x.run c = .error e c) : Fails x := by
  intro c hclosed
  obtain ⟨e, hrun⟩ := h c hclosed
  exact ⟨e, c.nextMessageId, hrun⟩

theorem fails_throw (e : Error) : Fails (throw e : CommissionerM H α) := fails_of_run fun _ _ => ⟨e, rfl⟩

theorem fails_lift_bind {y : Except Error α} (hf : ∀ a, Fails (f a)) : Fails (liftM y >>= f) :=
  .after (respects_lift .refl y) hf

theorem nextRequestIdentity_untouched : Respects Untouched (nextRequestIdentity : CommissionerM H _) :=
  fun c _ => ⟨c.nextMessageId + 1, rfl⟩

theorem fails_identified {f : UInt16 × Bytes → CommissionerM H β} (hf : ∀ mid token, Fails (f (mid, token))) :
    Fails (nextRequestIdentity >>= f) := .after nextRequestIdentity_untouched fun ⟨mid, token⟩ => hf mid token

theorem fails_sessionIdRequired : Fails (sessionIdRequired : CommissionerM H UInt16) := by
  refine fails_of_run fun c hclosed => ⟨.invalidState "commissioner session is not active", ?_⟩
  rw [sessionIdRequired, get_bind, hclosed.sessionId]
  rfl

theorem fails_ensureCanPetition : Fails (ensureCanPetition : CommissionerM H Unit) :=
  fails_of_run fun _ hclosed => ensureCanPetition_of_ne (by rw [hclosed.state]; decide)

variable [JoinerHandler H] (req : CoapMessage)

theorem fails_execute (route : MeshcopRoute) (waitForResponse : Bool) :
    Fails (execute req route waitForResponse : CommissionerM H (Option CoapMessage)) := by
  refine fails_of_run fun c hclosed => ⟨.invalidState "commissioner is disconnected", ?_⟩
  rw [execute, get_bind, hclosed.state]
  rfl

theorem fails_executeMeshcop : Fails (executeMeshcop req : CommissionerM H CoapMessage) := (fails_execute req _ _).bind _

theorem fails_executeProxied (dest : Ipv6Addr) :
    Fails (executeProxied req dest : CommissionerM H CoapMessage) := (fails_execute req _ _).bind _

theorem fails_getRawActiveDataset (flags : DatasetFlags) : Fails (getRawActiveDataset flags : CommissionerM H Bytes) :=
  fails_identified fun _ _ => fails_lift_bind fun req => (fails_executeMeshcop req).bind _

theorem fails_readDataset (op : CommissionerOperation) (getTlvTypes : List UInt8) :
    Fails (readDataset op getTlvTypes : CommissionerM H Dataset) :=
  fails_identified fun _ _ => fails_lift_bind fun req => (fails_executeMeshcop req).bind _

theorem requireMeshLocalPrefix_untouched : Respects Untouched (requireMeshLocalPrefix : CommissionerM H (ByteVector 8)) := by
  refine .bind .trans (respects_get .refl) fun c => ?_
  split
  · exact respects_pure .refl _
  · exact ((fails_getRawActiveDataset _).bind _).untouched

theorem fails_getCommissionerDataset (flags : CommissionerDatasetFlags) :
    Fails (getCommissionerDataset flags : CommissionerM H Dataset) := by
  have hleader : Respects Untouched (leaderAloc : CommissionerM H Ipv6Addr) :=
    .bind .trans requireMeshLocalPrefix_untouched fun _ => respects_pure .refl _
  refine .after hleader fun leader => ?_
  exact fails_identified fun _ _ => fails_lift_bind fun req => (fails_executeProxied req leader).bind _

/-- The operation talks to the network: it is not one that only changes the
handle, and does not find its event in the queue. -/
def Talks (c : Commissioner H) : Call H → Prop
  | .disconnect | .setJoinerHandler _ | .clearJoinerHandler => False
  | .nextEvent => c.events = []
  | _ => True

theorem fails_perform [AddressTexts] (cfg : CommissionerConfig) {call : Call H} (hevent : call ≠ .nextEvent)
    (htalks : ∃ c, Talks c call) : Fails (call.perform cfg) := by
  obtain ⟨c, htalks⟩ := htalks
  cases call with
  | disconnect | setJoinerHandler | clearJoinerHandler => exact htalks.elim
  | nextEvent => exact absurd rfl hevent
  | petition => exact (fails_ensureCanPetition.bind _).bind _
  | requestToken | setToken => exact (fails_throw _).bind _
  | getRawActiveDataset flags => exact (fails_getRawActiveDataset flags).bind _
  | getActiveDataset flags => exact ((fails_getRawActiveDataset flags).bind _).bind _
  | getPendingDataset | getBbrDataset => exact (fails_readDataset _ _).bind _
  | getCommissionerDataset flags => exact (fails_getCommissionerDataset flags).bind _
  | enableJoiner => exact ((fails_getCommissionerDataset _).bind _).bind _
  | setActiveDataset | setPendingDataset | setBbrDataset | setSecurePendingDataset =>
    exact .bind (fails_lift_bind fun _ => fails_sessionIdRequired.bind _) _
  | sendToJoiner =>
    refine .bind (fails_identified fun _ _ => fails_lift_bind fun req => ?_) _
    exact (fails_execute req _ _).bind _
  | keepAlive | resign | setCommissionerDataset | enableAllJoiners | announceBegin | panIdQuery | energyScan
  | registerMulticastListener | commandReenroll | commandDomainReset | commandMigrate | diagnosticGet | diagnosticReset
  | getDiagnostics => exact (fails_sessionIdRequired.bind _).bind _

end Closing

section Booking

variable [Suite] {H : Type} [JoinerHandler H] {c : Commissioner H}

/-- The petition that the operation is was granted the session ID. -/
def Grants (config : CommissionerConfig) (sessionId : UInt16) (call : Call H) (c : Commissioner H) : Prop :=
  call = .petition ∧ ∃ response c', (petition config).run c = .ok response c' ∧ response.sessionId = sessionId

/-- The session that an operation leaves. -/
structure Books (config : CommissionerConfig) (call : Call H) (c c' : Commissioner H) : Prop where
  booked : Booked c'
  granted : ∀ sessionId, c'.sessionId = some sessionId → c.sessionId = some sessionId ∨ Grants config sessionId call c

variable {cfg : CommissionerConfig} {call : Call H} {c' : Commissioner H}

theorem Books.of_sameSession (h : Booked c) (hstate : c.state ≠ .disabled) (hsame : SameSession c c') :
    Books cfg call c c' where
  booked := h.sameSession hstate hsame
  granted _ hsession := .inl (hsame.2.symm.trans hsession)

theorem Books.of_none (h : Booked c') (hnone : c'.sessionId = none) : Books cfg call c c' where
  booked := h
  granted _ hsession := nomatch hnone.symm.trans hsession

theorem Books.of_closed (h : Closed c') : Books cfg call c c' := .of_none h.booked h.sessionId

variable (cfg : CommissionerConfig)

theorem books_petition (h : Booked c) (hstate : c.state ≠ .disabled) :
    Books cfg .petition c (finalState ((petition cfg).run c)) := by
  by_cases hconnected : c.state = .connected
  · have hnone := h.sessionId_of_connected hconnected
    by_cases hid : cfg.commissionerId.bytes.length ≤ maxExtendedTlvLength
    · obtain ⟨c₁, hsame, ⟨e, hrun⟩ | ⟨resp, hrun⟩⟩ := petition_cases unconditional_sameSession hid hconnected
      · have hnone₁ : c₁.sessionId = none := hsame.2.trans hnone
        rw [hrun]
        exact .of_none ⟨by simp [finalState, hnone₁], by simp [finalState]⟩ hnone₁
      · rw [hrun]
        refine ⟨⟨⟨fun _ => rfl, fun _ => rfl⟩, by simp [finalState, accepted]⟩, fun sid hsession => .inr ⟨rfl, resp, _, hrun, ?_⟩⟩
        exact Option.some.inj hsession
    · obtain ⟨e, hrun⟩ := petition_of_long (Nat.not_le.mp hid) hconnected
      rw [hrun]
      exact .of_none ⟨by simp [finalState, hnone], by simp [finalState]⟩ hnone
  · obtain ⟨e, hrun⟩ := petition_of_ne cfg hconnected
    rw [hrun]
    exact .of_sameSession h hstate ⟨rfl, rfl⟩

theorem books_keepAlive (h : Booked c) (hstate : c.state ≠ .disabled) :
    Books cfg .keepAlive c (finalState (keepAlive.run c)) := by
  rcases keepAlive_concludes unconditional_sameSession c with ⟨e, c₁, hrun, hsame⟩ | ⟨result, c₁, hrun, hsame⟩
  · rw [hrun]
    exact .of_sameSession h hstate hsame
  · rw [hrun]
    by_cases hreject : result = .reject
    · rw [keptAlive, if_pos hreject]
      exact .of_none ⟨⟨nofun, nofun⟩, nofun⟩ rfl
    · rw [keptAlive, if_neg hreject]
      exact .of_sameSession h hstate hsame

theorem books_resign (h : Booked c) (hstate : c.state ≠ .disabled) : Books cfg .resign c (finalState (resign.run c)) := by
  rcases resign_concludes unconditional_sameSession c with ⟨e, c₁, hrun, hsame⟩ | ⟨_, c₁, hrun, -⟩
  · rw [hrun]
    exact .of_sameSession h hstate hsame
  · rw [hrun]
    exact .of_closed (closed_disconnected c₁)

theorem books_nextEvent (h : Booked c) (hstate : c.state ≠ .disabled) :
    Books cfg .nextEvent c (finalState (nextEvent.run c)) := by
  rcases nextEvent_cases unconditional_sameSession c with ⟨e, c₁, hrun, hsame⟩ | ⟨event, events, c₁, hrun, -, hsame⟩
  · rw [hrun]
    exact .of_sameSession h hstate hsame
  · rw [hrun]
    exact .of_sameSession h hstate hsame

end Booking

section Runs

variable [Suite] [AddressTexts] {H : Type} [JoinerHandler H] {c : Commissioner H} (cfg : CommissionerConfig)

theorem closed_perform (call : Call H) (h : Closed c) :
    Closed (finalState ((call.perform cfg).run c)) ∧ (finalState ((call.perform cfg).run c)).sent = c.sent ∧
      (Talks c call → ∃ e c', (call.perform cfg).run c = .error e c') := by
  have hfails : call ≠ .nextEvent → Talks c call → Closed (finalState ((call.perform cfg).run c)) ∧
      (finalState ((call.perform cfg).run c)).sent = c.sent ∧
      (Talks c call → ∃ e c', (call.perform cfg).run c = .error e c') := by
    intro hevent htalks
    obtain ⟨e, mid, hrun⟩ := fails_perform cfg hevent ⟨c, htalks⟩ c h
    rw [hrun]
    exact ⟨⟨h.state, h.sessionId, h.dtlsSession, h.meshLocalPrefix⟩, rfl, fun _ => ⟨e, _, rfl⟩⟩
  cases call with
  | disconnect => exact ⟨closed_disconnected c, rfl, False.elim⟩
  | setJoinerHandler => exact ⟨⟨h.state, h.sessionId, h.dtlsSession, h.meshLocalPrefix⟩, rfl, False.elim⟩
  | clearJoinerHandler => exact ⟨⟨h.state, h.sessionId, h.dtlsSession, h.meshLocalPrefix⟩, rfl, False.elim⟩
  | nextEvent =>
    cases hevents : c.events with
    | nil =>
      have hrun : nextEvent.run c = .error (.invalidState "DTLS session is not established") c := by
        rw [nextEvent, bind_of_ok (tryRecvQueuedEvent_of_nil hevents)]
        dsimp only
        rw [get_bind, h.dtlsSession]
        rfl
      rw [Call.perform, bind_of_error hrun]
      exact ⟨h, rfl, fun _ => ⟨_, c, rfl⟩⟩
    | cons event events =>
      have hrun : nextEvent.run c = .ok (some event) { c with events } := bind_of_ok (tryRecvQueuedEvent_of_cons hevents)
      rw [Call.perform, bind_of_ok hrun]
      refine ⟨⟨h.state, h.sessionId, h.dtlsSession, h.meshLocalPrefix⟩, rfl, fun htalks => ?_⟩
      cases hevents.symm.trans htalks
  | _ => exact hfails (by simp) trivial

theorem closed_step (step : Step H) (h : Closed c) :
    Closed (finalState ((step.perform cfg).run c)) ∧ (finalState ((step.perform cfg).run c)).sent = c.sent ∧
      (Talks c step.call → ∃ e c', (step.perform cfg).run c = .error e c') := by
  obtain ⟨hclosed, hsent, htalks⟩ := closed_perform cfg step.call
    (c := { c with now := c.now + step.elapsed, network := step.network }) ⟨h.state, h.sessionId, h.dtlsSession, h.meshLocalPrefix⟩
  refine ⟨hclosed, hsent, fun h => htalks ?_⟩
  cases hcall : step.call <;> rw [hcall] at h <;> exact h

theorem closed_run (steps : List (Step H)) (h : Closed c) :
    Closed (runAll (Step.perform cfg) steps c).1 ∧ (runAll (Step.perform cfg) steps c).1.sent = c.sent := by
  induction steps generalizing c with
  | nil => exact ⟨h, rfl⟩
  | cons step steps ih =>
    obtain ⟨hclosed, hsent, -⟩ := closed_step cfg step h
    obtain ⟨hrest, hsent'⟩ := ih hclosed
    exact ⟨hrest, hsent'.trans hsent⟩

theorem books_perform (call : Call H) (h : Booked c) : Books cfg call c (finalState ((call.perform cfg).run c)) := by
  by_cases hstate : c.state = .disabled
  · exact .of_closed (closed_perform cfg call (h.closed hstate)).1
  by_cases hexchanges : call.exchanges = true
  · exact .of_sameSession h hstate (fetching_sameSession.perform cfg hexchanges c)
  cases call with
  | petition =>
    rw [Call.perform, finalState_bind_pure]
    exact books_petition cfg h hstate
  | keepAlive =>
    rw [Call.perform, finalState_bind_pure]
    exact books_keepAlive cfg h hstate
  | resign =>
    rw [Call.perform, quietly, finalState_bind_pure]
    exact books_resign cfg h hstate
  | nextEvent =>
    rw [Call.perform, finalState_bind_pure]
    exact books_nextEvent cfg h hstate
  | disconnect => exact .of_closed (closed_disconnected c)
  | setJoinerHandler | clearJoinerHandler => exact .of_sameSession h hstate ⟨rfl, rfl⟩
  | enableJoiner jid =>
    have hgets := fetching_sameSession.getCommissionerDataset (H := H) CommissionerDatasetFlags.steeringData
    have hkept : Respects SameSession (enableJoiner jid : CommissionerM H Unit) :=
      fetching_sameSession.then_kept hgets fun _ => fetching_sameSession.setCommissionerDataset _
    rw [Call.perform, quietly, finalState_bind_pure]
    exact .of_sameSession h hstate (hkept c)
  | _ => exact absurd rfl hexchanges

theorem books_step (step : Step H) (h : Booked c) : Booked (finalState ((step.perform cfg).run c)) ∧
      ∀ sid, (finalState ((step.perform cfg).run c)).sessionId = some sid → c.sessionId = some sid ∨
          Grants cfg sid step.call { c with now := c.now + step.elapsed, network := step.network } := by
  have hbooks := books_perform cfg step.call
    (c := { c with now := c.now + step.elapsed, network := step.network }) ⟨h.active, h.disabled⟩
  exact ⟨hbooks.booked, hbooks.granted⟩

theorem booked_run (steps : List (Step H)) (h : Booked c) : Booked (runAll (Step.perform cfg) steps c).1 := by
  induction steps generalizing c with
  | nil => exact h
  | cons step steps ih => exact ih (books_step cfg step h).1

/-- A petition of the run was granted the session ID, and since then the handle
has been active under it. -/
def GrantedBy (config : CommissionerConfig) (start : Commissioner H) (steps : List (Step H)) (sessionId : UInt16) : Prop :=
  ∃ before step after, steps = before ++ step :: after ∧
    Grants config sessionId step.call
      { (runAll (Step.perform config) before start).1 with
        now := (runAll (Step.perform config) before start).1.now + step.elapsed
        network := step.network } ∧
    ∀ middle, middle <+: after →
      (runAll (Step.perform config) middle
        (finalState ((step.perform config).run (runAll (Step.perform config) before start).1))).1.state = .active ∧
      (runAll (Step.perform config) middle
        (finalState ((step.perform config).run (runAll (Step.perform config) before start).1))).1.sessionId = some sessionId

theorem grantedBy_of_sessionId (h : Booked c) (hnone : c.sessionId = none) {steps : List (Step H)} {sessionId : UInt16}
    (hsess : (runAll (Step.perform cfg) steps c).1.sessionId = some sessionId) : GrantedBy cfg c steps sessionId := by
  obtain ⟨before, step, after, rfl, hgrants, hall, -⟩ := runAll_origin
    (P := fun c : Commissioner H => c.sessionId = some sessionId) (K := fun _ _ => True)
    (fun step c h => (books_step cfg step h).1)
    (fun step c h hend => ((books_step cfg step h).2 sessionId hend).imp_left fun hbefore => ⟨hbefore, trivial⟩) h
    (by rw [hnone]; nofun) hsess
  refine ⟨before, step, after, rfl, hgrants, fun middle hmiddle => ⟨?_, hall middle hmiddle⟩⟩
  have hbooked := booked_run cfg middle (books_step cfg step (booked_run cfg before h)).1
  exact hbooked.active.mp (by rw [hall middle hmiddle]; rfl)

/-- In every run of operations there is a session ID exactly while the handle is
active, and it is that of the petition that made it so; once disabled, the
handle stays so, fails what talks to the network and sends nothing. -/
theorem session_bookkeeping (config : CommissionerConfig) (borderAgent : IpAddr) (now : ℕ) (rng : Rng)
    (network : Network) (steps : List (Step H)) :
    let start : Commissioner H := connected borderAgent now rng network
    let c := (runAll (Step.perform config) steps start).1
    (c.sessionId.isSome = true ↔ c.state = .active) ∧
      (∀ sessionId, c.sessionId = some sessionId → GrantedBy config start steps sessionId) ∧
      (c.state = .disabled → ∀ (later : List (Step H)) (step : Step H),
        let c' := (runAll (Step.perform config) later c).1
        c'.state = .disabled ∧ c'.sent = c.sent ∧
          (Talks c' step.call → ∃ e c'', (step.perform config).run c' = .error e c'')) := by
  intro start c
  have hstart : Booked start := booked_connected borderAgent now rng network
  have hbooked : Booked c := booked_run config steps hstart
  refine ⟨hbooked.active, fun sessionId => grantedBy_of_sessionId config hstart rfl, fun hdisabled later step => ?_⟩
  obtain ⟨hclosed, hsent⟩ := closed_run config later (hbooked.closed hdisabled)
  exact ⟨hclosed.state, hsent, (closed_step config step hclosed).2.2⟩

end Runs

section Petitions

variable [Suite] {H : Type} [JoinerHandler H] {c : Commissioner H}

/-- After the petition fails, if it does, the handle is connected and can
petition again. -/
def Retryable (config : CommissionerConfig) (c : Commissioner H) : Prop :=
  ∀ e c', (petition config).run c = .error e c' →
    c'.state = .connected ∧ c'.sessionId = none ∧ ensureCanPetition.run c' = .ok () c'

/-- A failed petition can be retried exactly if the commissioner ID fits into a
TLV. -/
theorem failed_petition_is_retryable_iff (config : CommissionerConfig) (hstate : c.state = .connected)
    (hnone : c.sessionId = none) :
    Retryable config c ↔ config.commissionerId.bytes.length ≤ maxExtendedTlvLength := by
  constructor
  · intro h
    by_contra hid
    obtain ⟨e, hrun⟩ := petition_of_long (Nat.not_le.mp hid) hstate
    cases (h e _ hrun).1
  · intro hid e c' hrun
    obtain ⟨c₁, hsame, ⟨e', hrun'⟩ | ⟨response, hrun'⟩⟩ := petition_cases unconditional_sameSession hid hstate
    · cases hrun'.symm.trans hrun
      exact ⟨rfl, hsame.2.trans hnone, ensureCanPetition_of_connected rfl⟩
    · cases hrun'.symm.trans hrun

end Petitions

section Example

attribute [local instance] residues

@[reducible] def noTexts : AddressTexts := ⟨fun _ => none, fun _ => ⟨[], utf8Valid_nil⟩⟩

def asciiText (n : ℕ) : Text := ⟨List.replicate n 0x61, by
  induction n with
  | zero => rfl
  | succ n ih => exact ih⟩

def residueHandle : Commissioner StaticJoinerHandler := connected (.v4 (List.Vector.replicate 4 0)) 0 (residueRng []) ⟨[], [], []⟩

theorem failed_petition_is_retryable_residues :
    residueHandle.state = .connected ∧ residueHandle.sessionId = none ∧
      Retryable ⟨asciiText 1, 30 * 10 ^ 9, false⟩ residueHandle :=
  ⟨rfl, rfl, (failed_petition_is_retryable_iff _ rfl rfl).mpr (by decide)⟩

/-- The configuration is valid, but its ID is one byte too long: the handle is
left petitioning, and refuses a second petition. -/
theorem failed_petition_is_stuck_residues :
    CommissionerConfig.validate ⟨asciiText 65536, 30 * 10 ^ 9, false⟩ = .ok () ∧ residueHandle.state = .connected ∧
      ∃ e c', (petition ⟨asciiText 65536, 30 * 10 ^ 9, false⟩).run residueHandle = .error e c' ∧
        c'.state = .petitioning ∧
        ensureCanPetition.run c' = .error (.invalidState "petition is already active") c' := by
  have hid : maxExtendedTlvLength < (asciiText 65536).bytes.length := by
    rw [asciiText, List.length_replicate]
    decide
  obtain ⟨e, hrun⟩ : ∃ e, (petition ⟨asciiText 65536, 30 * 10 ^ 9, false⟩).run residueHandle = .error e _ :=
    petition_of_long hid rfl
  exact ⟨rfl, rfl, e, _, hrun, rfl, rfl⟩

end Example

end ThreadCommissioner.SessionState
