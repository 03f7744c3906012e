import ThreadCommissioner.PrefixCache

namespace ThreadCommissioner.EventQueue

open Coap Commissioners Computations Exchanges JoinerSessions List Operations PrefixCache Primitives Requests Transport

section Order

variable [Suite] [AddressTexts] {H : Type} [JoinerHandler H] (config : CommissionerConfig)

/-- What was handed out in a run, and then what is still queued. -/
def passed (steps : List (Step H)) (c : Commissioner H) : List CommissionerEvent :=
  (runAll (Step.perform config) steps c).2.flatMap handedOut ++ (runAll (Step.perform config) steps c).1.events

theorem queued_first (steps : List (Step H)) (c : Commissioner H) : c.events <+: passed config steps c := by
  induction steps generalizing c with
  | nil => exact prefix_rfl
  | cons step steps ih =>
    obtain ⟨later, hlater, -⟩ := refreshes_perform config step.call
      { c with now := c.now + step.elapsed, network := step.network }
    obtain ⟨rest, hrest⟩ := ih (finalState ((step.perform config).run c))
    refine ⟨later ++ rest, ?_⟩
    calc c.events ++ (later ++ rest)
        = handedOut (outcome ((step.perform config).run c)) ++
            ((finalState ((step.perform config).run c)).events ++ rest) := by
          rw [← append_assoc, ← append_assoc]
          exact congrArg (· ++ rest) hlater.symm
      _ = passed config (step :: steps) c := by
          rw [hrest]
          exact (append_assoc _ _ _).symm

/-- In every run of operations no event is lost, handed out twice or overtaken:
what has been handed out or queued at some point is handed out in that order,
before all that is queued later. -/
theorem events_keep_their_order (steps more : List (Step H)) (c : Commissioner H) :
    passed config steps c <+: passed config (steps ++ more) c := by
  obtain ⟨rest, hrest⟩ := queued_first config more (runAll (Step.perform config) steps c).1
  refine ⟨rest, ?_⟩
  rw [passed, passed, runAll_append, flatMap_append, append_assoc, append_assoc, hrest]
  rfl

end Order

section Waiting

variable [Suite] {H : Type} [JoinerHandler H] {c : Commissioner H}

/-- An empty acknowledgement that arrives when the wait for it is about to end. -/
def lateAck : Delivery := ⟨meshcopTimeout, .ok [0x60, 0, 0, 0]⟩

theorem awaitEvent_lateAck (hevents : c.events = []) (inbox : List Delivery) : (awaitEvent (lateAck :: inbox)).run c =
      (awaitEvent inbox).run { c with now := c.now + meshcopTimeout, network := { c.network with inbox } } := by
  have hdecode : CoapMessage.decode [0x60, 0, 0, 0] = .ok (.emptyAck 0) := by decide +kernel
  have hintime : ¬ meshcopTimeout < lateAck.elapsed := lt_irrefl _
  have hincoming : ∀ c : Commissioner H, (handleIncoming none (.emptyAck 0)).run c = .ok none c := fun c => rfl
  rw [awaitEvent, if_neg hintime, modify_bind, lift_bind_of_ok (show lateAck.data = .ok [0x60, 0, 0, 0] from rfl),
    lift_bind_of_ok hdecode, bind_of_ok (hincoming _)]
  exact bind_of_ok (tryRecvQueuedEvent_of_nil
    (c := { c with now := c.now + meshcopTimeout, network := { c.network with inbox } }) hevents)

theorem awaitEvent_lateAcks (hevents : c.events = []) (n : ℕ) :
    c.now + n * meshcopTimeout ≤ (finalState ((awaitEvent (List.replicate n lateAck)).run c)).now := by
  induction n generalizing c with
  | zero =>
    rw [Nat.zero_mul]
    exact Nat.le_add_right _ _
  | succ n ih =>
    rw [replicate_succ, awaitEvent_lateAck hevents, Nat.succ_mul, Nat.add_comm (n * _), ← Nat.add_assoc]
    exact ih (c := { c with now := _, network := _ }) hevents

/-- The timeout does not bound the wait for an event: a border agent that sends
an acknowledgement within each timeout keeps it up for as long as it wants. -/
theorem event_wait_is_unbounded (hdtls : c.dtlsSession = true) (hevents : c.events = []) (n : ℕ)
    (hinbox : c.network.inbox = List.replicate n lateAck) :
    c.now + n * meshcopTimeout ≤ (finalState (nextEvent.run c)).now := by
  rw [nextEvent, bind_of_ok (tryRecvQueuedEvent_of_nil hevents)]
  dsimp only
  rw [get_bind, ensure_true hdtls]
  change _ ≤ (finalState ((awaitEvent c.network.inbox).run c)).now
  rw [hinbox]
  exact awaitEvent_lateAcks hevents n

end Waiting

section Witness

attribute [local instance] Residues.residues

theorem event_wait_is_unbounded_hour : 3600 * 10 ^ 9 ≤ (finalState (nextEvent.run
    { RelayIsolation.residueCommissioner with network := ⟨[], [], List.replicate 720 lateAck⟩ })).now := by
  exact (event_wait_is_unbounded rfl rfl 720 rfl).trans' (by decide)

end Witness

end ThreadCommissioner.EventQueue
