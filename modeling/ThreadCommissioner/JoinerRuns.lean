import ThreadCommissioner.KekGate

namespace ThreadCommissioner.JoinerRuns

open ByteStrings Computations Errors JoinerSessions JoinerSteps KekGate List Primitives Texts

def emitted (outcomes : List (Except Error (List JoinerSessionEvent))) : List JoinerSessionEvent :=
  (successes outcomes).flatten

theorem emitted_cons (first : Except Error (List JoinerSessionEvent))
    (rest : List (Except Error (List JoinerSessionEvent))) : emitted (first :: rest) = emitted [first] ++ emitted rest := by
  cases first with
  | ok events => simp only [emitted, successes, flatten_cons, flatten_nil, append_nil]
  | error e => rfl

variable [Suite] {H : Type}

def freshParty (joinerIid : ByteVector 8) (joinerUdpPort joinerRouterLocator : UInt16) (pskd : Text) (now : ℕ)
    (rng rng' : Rng) (handler : H) : Party H :=
  ⟨(JoinerSession.new joinerIid joinerUdpPort joinerRouterLocator pskd now rng).1, handler, rng'⟩

variable [JoinerHandler H]

section Invariants

variable {I : List JoinerSessionEvent → Party H → Prop} {C : Visit H → Prop}
  (hkeep : ∀ past s item t, Move s item t → C ⟨s, item, t⟩ → I past s.party → I past t.party)
  (hpush : ∀ past s item t, Move s item t → C ⟨s, item, t⟩ → I (past ++ s.events) s.party →
    I (past ++ t.events) t.party)

include hkeep hpush

/-- One call: the invariant of the events sent so far, and of the session,
goes on whether the call sends its events or fails. -/
theorem receive_invariant {past : List JoinerSessionEvent} {party : Party H} (h : I past party) (dgram : Bytes)
    (hvisits : ∀ v ∈ visitsOf dgram party, C v) :
    I (past ++ emitted [outcome ((receive dgram).run party)]) (finalState ((receive dgram).run party)) := by
  let P (visits : List (Visit H)) (t : Feed H) : Prop := (∀ v ∈ visits, C v) → I past t.party ∧ I (past ++ t.events) t.party
  have hstep : ∀ visits item t, P visits t → P (visits ++ [⟨t, item, finalState ((handleItem item).run t)⟩])
      (finalState ((handleItem item).run t)) := by
    intro visits item t ht hall
    obtain ⟨hbefore, hvisit⟩ := forall_mem_append.mp hall
    have hC := hvisit _ (mem_singleton_self _)
    obtain ⟨hpast, hevents⟩ := ht hbefore
    have hmove := handleItem_move item t
    exact ⟨hkeep past t item _ hmove hC hpast, hpush past t item _ hmove hC hevents⟩
  have hstart : P [] party.feed := by
    intro _
    change I past party ∧ I (past ++ []) party
    rw [append_nil]
    exact ⟨h, h⟩
  obtain ⟨hpast, hevents⟩ := rounds_induction hstep [] hstart (datagramItems dgram) hvisits
  have hfinal := finalState_receive dgram party
  cases hrun : (receive dgram).run party with
  | ok events next =>
    rw [hrun] at hfinal
    obtain rfl : next = _ := hfinal
    rw [← receive_eq_ok hrun] at hevents
    change I (past ++ (events ++ [])) _
    rw [append_nil]
    exact hevents
  | error e next =>
    rw [hrun] at hfinal
    obtain rfl : next = _ := hfinal
    change I (past ++ []) _
    rw [append_nil]
    exact hpast

theorem run_invariant {past : List JoinerSessionEvent} {party : Party H} (h : I past party) (dgrams : List Bytes)
    (hvisits : ∀ v ∈ history dgrams party, C v) :
    I (past ++ emitted (runAll receive dgrams party).2) (runAll receive dgrams party).1 := by
  induction dgrams generalizing past party with
  | nil =>
    change I (past ++ []) party
    rw [append_nil]
    exact h
  | cons datagram dgrams ih =>
    rw [history] at hvisits
    obtain ⟨hfirst, hlater⟩ := forall_mem_append.mp hvisits
    have hrest := ih (receive_invariant hkeep hpush h datagram hfirst) hlater
    rw [append_assoc] at hrest
    rw [runAll, emitted_cons]
    exact hrest

end Invariants

end ThreadCommissioner.JoinerRuns
