import ThreadCommissioner.Operations
import ThreadCommissioner.Revocation

namespace ThreadCommissioner.JoinerInterleaving

open ByteStrings Commissioners Computations Drivers HandshakeAgreement HonestExchange JoinerExchange JoinerSessions List
open Operations Primitives Records RelayIsolation RelaySessions Residues Revocation

section Runs

variable [Suite]

/-- A step that neither relays a datagram of the joiner nor drops all sessions. -/
def Foreign (joinerIid : ByteVector 8) : RelayStep StaticJoinerHandler → Prop
  | .relayRx _ _ other _ => other ≠ joinerIid
  | .clearHandler => False
  | _ => True

def elapsedIn : RelayStep StaticJoinerHandler → ℕ
  | .advance elapsed => elapsed
  | _ => 0

/-- The session of the joiner waits for a datagram. -/
structure Awaits (joinerIid : ByteVector 8) (session : JoinerSession) (c : Commissioner StaticJoinerHandler) : Prop where
  born : ∃ born, AllStored born c
  kept : ∃ handler, Keeps (joinerIdFromIid joinerIid) ⟨session, handler, c.rng⟩ c
  reliable : Reliable c

/-- The commissioner once a datagram of the joiner has been relayed, and then
the others have taken their steps. -/
def relayed (joinerUdpPort joinerRouterLocator : UInt16) (joinerIid : ByteVector 8) (payload : Bytes)
    (others : List (RelayStep StaticJoinerHandler)) (c : Commissioner StaticJoinerHandler) :
    Commissioner StaticJoinerHandler :=
  (runAll RelayStep.run (.relayRx joinerUdpPort joinerRouterLocator joinerIid payload :: others) c).1

variable {c c₁ c₂ c₃ : Commissioner StaticJoinerHandler} {port loc : UInt16} {iid : ByteVector 8} {payload : Bytes}
  {sess : JoinerSession} {steps first second third : List (RelayStep StaticJoinerHandler)}

theorem now_relayRx : (finalState ((handleRelayRx port loc iid payload).run c)).now = c.now := by
  obtain ⟨_, _, _, _, -, _, _, _, hfinal, -⟩ :=
    handleRelayRx_relayed (P := fun _ => True) (fun _ => trivial) port loc iid payload c
  rw [hfinal]

theorem now_run : (runAll RelayStep.run steps c).1.now = c.now + (steps.map elapsedIn).sum := by
  induction steps generalizing c with
  | nil => rfl
  | cons step steps ih =>
    rw [map_cons, sum_cons, ← Nat.add_assoc]
    refine ih.trans (congrArg (· + _) ?_)
    cases step with
    | relayRx port loc iid payload => exact now_relayRx
    | setHandler | clearHandler | advance => rfl

theorem now_relayed (h₁ : relayed port loc iid payload steps c = c₁) : c₁.now = c.now + (steps.map elapsedIn).sum := by
  rw [← h₁, relayed, now_run, map_cons, sum_cons]
  exact congrArg (c.now + ·) (Nat.zero_add _)

theorem Awaits.step (h : Awaits iid sess c) {step : RelayStep StaticJoinerHandler} (hforeign : Foreign iid step)
    (hlive : (finalState (step.run.run c)).now < sess.expiresAt) : Awaits iid sess (finalState (step.run.run c)) := by
  obtain ⟨⟨born, hborn⟩, ⟨handler, hkept⟩, hc⟩ := h
  have hafter := allStored_step hborn step
  cases step with
  | relayRx port loc other payload =>
    have hne : joinerIdFromIid iid ≠ joinerIdFromIid other := fun heq => hforeign (joinerIdFromIid_injective heq).symm
    have hothers := (isolated_of_allStored hborn port loc other payload).others _ hne
    refine ⟨⟨_, hafter⟩, ⟨handler, hothers.trans ?_, (handler_handleRelayRx _ _ _ _ c).trans hkept.handler, rfl, hlive,
      hkept.flight⟩, ?_⟩
    · rw [hkept.session]
      exact Option.filter_eq_some_iff.mpr ⟨rfl, decide_eq_true hkept.live⟩
    · rcases handleRelayRx_cases port loc other payload c with
        ⟨-, -, joinerHandler, hrun⟩ | ⟨party, c₁, htaker, hfeeds, -⟩
      · rw [RelayStep.run, hrun]
        exact hc
      · exact reliable_of_taker htaker (hfeeds.stored_born hborn payload).1.flight payload hc
  | setHandler handler' => exact ⟨⟨_, hafter⟩, ⟨handler', hkept.session, rfl, rfl, hkept.live, hkept.flight⟩, hc⟩
  | clearHandler => exact hforeign.elim
  | advance elapsed => exact ⟨⟨_, hafter⟩, ⟨handler, hkept.session, hkept.handler, rfl, hlive, hkept.flight⟩, hc⟩

theorem Awaits.run (h : Awaits iid sess c) (hforeign : ∀ step ∈ steps, Foreign iid step)
    (hlive : (runAll RelayStep.run steps c).1.now < sess.expiresAt) : Awaits iid sess (runAll RelayStep.run steps c).1 := by
  induction steps generalizing c with
  | nil => exact h
  | cons step steps ih =>
    obtain ⟨hfirst, hrest⟩ := forall_mem_cons.mp hforeign
    refine ih (h.step hfirst ?_) hrest hlive
    exact (Nat.le_add_right _ _).trans_lt (now_run.symm.trans_lt hlive)

/-- A datagram of the joiner that is not answered with the KEK, and the steps
of the others up to the next one. -/
theorem awaits_relayed {party party' : Party StaticJoinerHandler} (htaker : taker port loc iid c = some party)
    (hborn : ∃ born, AllStored born c) (hc : Reliable c) {evs : List JoinerSessionEvent}
    (hrun : (receive payload).run party = .ok evs party') (hplain : ∀ dgram, JoinerSessionEvent.transmit dgram true ∉ evs)
    (hforeign : ∀ step ∈ steps, Foreign iid step) (h₁ : relayed port loc iid payload steps c = c₁)
    (hlive : c₁.now < party'.session.expiresAt) : Awaits iid party'.session c₁ := by
  obtain ⟨born, hborn⟩ := hborn
  obtain ⟨_, hfeeds, -⟩ := handleRelayRx_of_taker htaker payload
  have hflight := (hfeeds.stored_born hborn payload).1.flight
  have hkept := keeps_of_taker htaker hflight hrun hplain
  have hnext : Awaits iid party'.session (finalState ((handleRelayRx port loc iid payload).run c)) :=
    ⟨⟨_, allStored_step hborn (.relayRx port loc iid payload)⟩,
      ⟨_, hkept.session, hkept.handler, rfl, hkept.live, hkept.flight⟩, reliable_of_taker htaker hflight payload hc⟩
  subst h₁
  exact hnext.run hforeign hlive

end Runs

section Witness

attribute [local instance] residues

end Witness

end ThreadCommissioner.JoinerInterleaving
