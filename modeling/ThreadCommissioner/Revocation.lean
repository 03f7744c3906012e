import ThreadCommissioner.Decisions
import ThreadCommissioner.Encapsulation
import ThreadCommissioner.JoinerCommands

namespace ThreadCommissioner.Revocation

open ByteStrings Coap Commissioners Computations Decisions Errors Exchanges JoinerCommands JoinerSessions JoinerSteps
open KekGate List Meshcop Primitives RelayIsolation RelaySessions Steering Texts Tlvs Transport

section Messages

variable {jid : ByteVector 8} {message : CoapMessage}

/-- A RLY_TX.ntf that carries a Joiner Router KEK for the joiner. -/
def CarriesKek (joinerId : ByteVector 8) (message : CoapMessage) : Prop :=
  message.uriPath = .ok (some Uri.relayTx) ∧ ∃ tlvs joinerIid, TlvSet.parse message.payload = .ok tlvs ∧
    tlvs.lastValue tlvJoinerIid = some (List.Vector.toList joinerIid) ∧ joinerIdFromIid joinerIid = joinerId ∧
    (tlvs.lastValue tlvJoinerRouterKek).isSome

theorem not_carriesKek_of_plain (h : Plain message) : ¬ CarriesKek jid message := fun hkek => h hkek.1

theorem not_carriesKek_of_relays {iid : ByteVector 8} {port loc : UInt16}
    (h : Relays iid port loc message) (hne : joinerIdFromIid iid ≠ jid) : ¬ CarriesKek jid message := by
  rintro ⟨-, tlvs, carried, hparse, hcarried, hid, -⟩
  obtain ⟨-, tlvs', hparse', hiid, -⟩ := h
  cases hparse.symm.trans hparse'
  have hsame : carried = iid := List.Vector.toList_injective (Option.some.inj (hcarried.symm.trans hiid))
  rw [hsame] at hid
  exact hne hid

end Messages

section Handlers

variable [Suite]

theorem handler_receive (payload : Bytes) (party : Party StaticJoinerHandler) :
    (finalState ((receive payload).run party)).handler = party.handler := by
  rw [finalState_receive]
  refine rounds_induction
    (P := fun (_ : List (Visit StaticJoinerHandler)) (t : Feed StaticJoinerHandler) => t.handler = party.handler)
    (fun _ item s hs => ?_) [] (show party.feed.handler = party.handler from rfl) (datagramItems payload)
  rcases move_consults (handleItem_move item s) with ⟨hhandler, -⟩ | ⟨-, info, hhandler, -⟩
  · exact hhandler.trans hs
  · exact hhandler.trans hs

theorem handler_dispatchEvents (sess : JoinerSession) (jid : ByteVector 8) (evs : List JoinerSessionEvent)
    (d : Dispatch StaticJoinerHandler) : (dispatchEvents sess jid evs d).handler = d.handler := by
  induction evs generalizing d with
  | nil => rfl
  | cons event evs ih =>
    cases event with
    | transmit datagram includeKek =>
      rw [dispatchEvents]
      split
      · split
        · exact ih _
        · rfl
      · exact ih _
    | connected => exact ih _
    | finalized accepted info => exact ih _

theorem relayTransmission_sends {H : Type} (sess : JoinerSession) (tx : Bytes × Option (ByteVector 16)) :
    Respects (Outgoing fun _ => True) (relayTransmission sess tx : CommissionerM H Unit) := by
  refine .bind .trans nextRequestIdentity_outgoing fun ⟨mid, token⟩ => ?_
  exact .lift_bind .refl fun relay => sendWire_outgoing trivial

theorem handler_driveSession (jid : ByteVector 8) (sess : JoinerSession) (handler : StaticJoinerHandler)
    (payload : Bytes) (c : Commissioner StaticJoinerHandler) :
    (finalState ((driveSession jid sess handler payload).run c)).joinerHandler = some handler := by
  have hkept := handler_receive payload ⟨sess, handler, c.rng⟩
  cases hrun : (receive payload).run ⟨sess, handler, c.rng⟩ with
  | error e party =>
    rw [hrun] at hkept
    rw [driveSession_of_error hrun]
    exact congrArg some hkept
  | ok evs party =>
    rw [hrun] at hkept
    have hdispatched : (dispatched c jid evs party).joinerHandler = some handler := by
      simp only [dispatched, handler_dispatchEvents]
      exact congrArg some hkept
    rw [driveSession_of_ok hrun]
    split
    · exact hdispatched
    · have hsends : ∀ transmissions, Respects (Outgoing fun _ => True)
          (List.forM transmissions (relayTransmission sess) : CommissionerM StaticJoinerHandler Unit) :=
        .forM .refl .trans (relayTransmission_sends sess)
      obtain ⟨mid, sends, outs, heq, -⟩ := hsends _ (dispatched c jid evs party)
      rw [heq]
      exact hdispatched

theorem handler_handleRelayRx (port loc : UInt16) (iid : ByteVector 8) (payload : Bytes)
    (c : Commissioner StaticJoinerHandler) :
    (finalState ((handleRelayRx port loc iid payload).run c)).joinerHandler = c.joinerHandler := by
  rw [handleRelayRx, modify_bind, get_bind]
  cases hhandler : c.joinerHandler with
  | none => rfl
  | some handler =>
    dsimp only
    split
    · exact handler_driveSession _ _ _ _ _
    · split
      · next asked hlookup => exact congrArg some (congrArg Prod.snd hlookup).symm
      · next pskd asked hlookup =>
        rw [set_bind, handler_driveSession]
        exact congrArg some (congrArg Prod.snd hlookup).symm

end Handlers

section Silence

variable [Suite] {jid : ByteVector 8} {c c' : Commissioner StaticJoinerHandler}

def Proper (c : Commissioner StaticJoinerHandler) : Prop :=
  ∀ joinerId session, c.joinerSessions joinerId = some session →
    joinerIdFromIid session.joinerIid = joinerId ∧ session.serverFlight.length ≤ maxExtendedTlvLength

/-- The joiner has no PSKd, and no session that is before its deadline. -/
structure Barred (joinerId : ByteVector 8) (c : Commissioner StaticJoinerHandler) : Prop where
  lookup : ∀ handler, c.joinerHandler = some handler → handler.pskdOf joinerId = none
  session : sweep c.joinerSessions c.now joinerId = none

/-- What happens to a barred joiner: it stays barred, and no KEK goes out for it. -/
def Silent (joinerId : ByteVector 8) (c c' : Commissioner StaticJoinerHandler) : Prop :=
  Proper c → Proper c' ∧ (Barred joinerId c → Barred joinerId c' ∧ ∃ outgoing, c'.sent = c.sent ++ outgoing ∧
    ∀ message ∈ outgoing, ¬ CarriesKek joinerId message)

theorem Silent.refl (c : Commissioner StaticJoinerHandler) : Silent jid c c :=
  fun hproper => ⟨hproper, fun hbarred => ⟨hbarred, [], (append_nil _).symm, fun _ hmem => nomatch hmem⟩⟩

theorem Silent.trans {c₁ c₂ c₃ : Commissioner StaticJoinerHandler} (h : Silent jid c₁ c₂)
    (h' : Silent jid c₂ c₃) : Silent jid c₁ c₃ := by
  intro hproper₁
  obtain ⟨hproper₂, hkept⟩ := h hproper₁
  obtain ⟨hproper₃, hkept'⟩ := h' hproper₂
  refine ⟨hproper₃, fun hbarred₁ => ?_⟩
  obtain ⟨hbarred₂, outs, hsent, hnone⟩ := hkept hbarred₁
  obtain ⟨hbarred₃, outgoing', hsent', hnone'⟩ := hkept' hbarred₂
  refine ⟨hbarred₃, outs ++ outgoing', ?_, forall_mem_append.mpr ⟨hnone, hnone'⟩⟩
  rw [hsent', hsent, append_assoc]

theorem sweep_eq_none_of_le {sessions : SessionMap} {now later : ℕ} (h : sweep sessions now jid = none)
    (hle : now ≤ later) : sweep sessions later jid = none := by
  simp only [sweep, Option.filter_eq_none_iff, JoinerSession.expired] at h ⊢
  intro sess hsess
  have hexpired := h sess hsess
  simp only [Bool.not_eq_true', decide_eq_false_iff_not, not_not] at hexpired ⊢
  exact hexpired.trans hle

theorem silent_of_same (hsessions : c'.joinerSessions = c.joinerSessions) (hhandler : c'.joinerHandler = c.joinerHandler)
    (hnow : c.now ≤ c'.now) {outs : List CoapMessage} (hsent : c'.sent = c.sent ++ outs)
    (hplain : ∀ m ∈ outs, Plain m) : Silent jid c c' := by
  intro hproper
  refine ⟨fun other sess hsess => hproper other sess (hsessions ▸ hsess), fun hbarred => ?_⟩
  refine ⟨⟨fun handler hsome => hbarred.lookup handler (hhandler ▸ hsome), ?_⟩, outs, hsent,
    fun m hmem => not_carriesKek_of_plain (hplain m hmem)⟩
  rw [hsessions]
  exact sweep_eq_none_of_le hbarred.session hnow

theorem taker_of_barred {iid : ByteVector 8} (h : Barred (joinerIdFromIid iid) c)
    (port loc : UInt16) : taker port loc iid c = none := by
  unfold taker
  cases hhandler : c.joinerHandler with
  | none => rfl
  | some handler =>
    have hlookup : JoinerHandler.joinerPskd handler (joinerIdFromIid iid) = (none, handler) :=
      congrArg (·, handler) (h.lookup handler hhandler)
    simp only [h.session, hlookup]

/-- A notification does nothing for a barred joiner, and what it makes the
commissioner send is for its own joiner. -/
theorem silent_handleRelayRx (port loc : UInt16) (iid : ByteVector 8) (payload : Bytes) : Respects (Silent jid)
      (handleRelayRx port loc iid payload : CommissionerM StaticJoinerHandler Unit) := by
  intro c hproper
  have hhandler := handler_handleRelayRx port loc iid payload c
  have hswept : ∀ other sess, sweep c.joinerSessions c.now other = some sess →
      joinerIdFromIid sess.joinerIid = other ∧ sess.serverFlight.length ≤ maxExtendedTlvLength :=
    fun other sess hsess => hproper other sess (Option.filter_eq_some_iff.mp hsess).1
  rcases handleRelayRx_cases port loc iid payload c with
    ⟨-, -, joinerHandler, hrun⟩ | ⟨party, c₁, htaker, hfeeds, hrun⟩
  · rw [hrun] at hhandler ⊢
    refine ⟨hswept, fun hbarred => ⟨⟨fun handler hsome => hbarred.lookup handler (hhandler ▸ hsome), ?_⟩, [],
      (append_nil _).symm, fun _ hmem => nomatch hmem⟩⟩
    change (sweep c.joinerSessions c.now jid).filter _ = none
    rw [hbarred.session]
    rfl
  · have hstored : joinerIdFromIid party.session.joinerIid = joinerIdFromIid iid ∧
        party.session.serverFlight.length ≤ maxExtendedTlvLength := by
      rcases hfeeds.origin with ⟨-, hsess, -⟩ | ⟨-, pskd, hnew⟩
      · exact hproper _ _ hsess
      · rw [hnew]
        exact ⟨rfl, Nat.zero_le _⟩
    have hdriven : Driven (joinerIdFromIid iid) party.session c₁
        (finalState ((driveSession (joinerIdFromIid iid) party.session party.handler payload).run c₁)) :=
      driveSession_driven hstored.2 c₁ party.handler payload
    rw [hrun] at hhandler ⊢
    refine ⟨fun other sess hsess => ?_, fun hbarred => ?_⟩
    · by_cases hother : other = joinerIdFromIid iid
      · subst hother
        obtain ⟨hsame, hflight⟩ := hdriven.remains sess hsess
        rw [hsame.joinerIid]
        exact ⟨hstored.1, hflight⟩
      · rw [hdriven.others other hother, hfeeds.others other hother] at hsess
        exact hswept other sess hsess
    · have hother : jid ≠ joinerIdFromIid iid := by
        rintro rfl
        cases htaker.symm.trans (taker_of_barred hbarred _ _)
      obtain ⟨outs, hsent, hrelays⟩ := hdriven.outgoing
      refine ⟨⟨fun handler hsome => hbarred.lookup handler (hhandler ▸ hsome), ?_⟩, outs, ?_, fun m hmem => ?_⟩
      · rw [sweep, hdriven.others jid hother, hfeeds.others jid hother, hbarred.session]
        rfl
      · rw [hsent, hfeeds.same.2.1]
      · refine not_carriesKek_of_relays (hrelays m hmem) ?_
        rw [hstored.1]
        exact hother.symm

theorem ambient_silent (jid : ByteVector 8) : Ambient (Silent jid) where
  refl := Silent.refl
  trans := Silent.trans
  idle _ _ _ _ _ _ hnow := silent_of_same rfl rfl hnow (append_nil _).symm fun _ hmem => nomatch hmem
  outgoing := by
    rintro c c' ⟨mid, sends, outs, rfl, hplain⟩
    exact silent_of_same rfl rfl le_rfl rfl hplain
  relay := silent_handleRelayRx

end Silence

section Commands

variable [Suite] {jid : ByteVector 8} {cli cli₁ cli₂ : Interpreter} {c : Commissioner StaticJoinerHandler}

/-- The commissioner of the interpreter is silent about a barred joiner, up to
the handler it is given at the end. -/
def Calm (joinerId : ByteVector 8) (cli cli' : Interpreter) : Prop :=
  match cli.commissioner with
  | none => cli'.commissioner = none
  | some c => ∃ c₁ joinerHandler, Silent joinerId c c₁ ∧ cli'.commissioner = some { c₁ with joinerHandler }

theorem calm_of_some (h : cli.commissioner = some c) {c₁ : Commissioner StaticJoinerHandler}
    (hsilent : Silent jid c c₁) (joinerHandler : Option StaticJoinerHandler)
    (h' : cli₁.commissioner = some { c₁ with joinerHandler }) : Calm jid cli cli₁ := by
  rw [Calm, h]
  exact ⟨c₁, joinerHandler, hsilent, h'⟩

theorem Calm.refl (jid : ByteVector 8) (cli : Interpreter) : Calm jid cli cli := by
  cases h : cli.commissioner with
  | none =>
    rw [Calm, h]
  | some c => exact calm_of_some h (.refl c) c.joinerHandler h

theorem commissioner_reinstall (h : cli.commissioner = some c) :
    cli.reinstallJoinerHandler.commissioner = some { c with joinerHandler := some cli.buildJoinerHandler } := by
  rw [Interpreter.reinstallJoinerHandler, h]
  rfl

section Performing

variable {α : Type} {op : CommissionerM StaticJoinerHandler α} {res : Except Error α}

theorem commissioner_perform (hrun : cli.perform c op = (res, cli₁)) : cli₁.commissioner = some (finalState (op.run c)) := by
  have hperformed : (cli.perform c op).2.commissioner = some (finalState (op.run c)) := rfl
  rwa [hrun] at hperformed

variable (hop : Respects (Silent jid) op) (h : cli.commissioner = some c)
  (hrun : cli.perform c op = (res, cli₁))

include hop h hrun

theorem calm_perform : Calm jid cli cli₁ :=
  calm_of_some h (hop c) (finalState (op.run c)).joinerHandler (commissioner_perform hrun)

theorem calm_perform_reinstall (hsame : cli₂.commissioner = cli₁.commissioner) : Calm jid cli cli₂.reinstallJoinerHandler :=
  calm_of_some h (hop c) (some cli₂.buildJoinerHandler)
    (commissioner_reinstall (hsame.trans (commissioner_perform hrun)))

end Performing

section Subcommands

variable (h : cli.commissioner = some c) (args : List Text)

include h

theorem calm_joinerEnable : Calm jid cli (cli.joinerEnable c args).2 := by
  unfold Interpreter.joinerEnable
  split
  · split
    · exact .refl jid cli
    · dsimp only
      split
      · next hrun => exact calm_perform (respects_enableJoiner (ambient_silent jid) _) h hrun
      · next hrun => exact calm_perform_reinstall (respects_enableJoiner (ambient_silent jid) _) h hrun rfl
  · exact .refl jid cli

theorem calm_joinerEnableAll : Calm jid cli (cli.joinerEnableAll c args).2 := by
  unfold Interpreter.joinerEnableAll
  split
  · split
    · next hrun => exact calm_perform (respects_enableAllJoiners (ambient_silent jid) _) h hrun
    · next hrun => exact calm_perform_reinstall (respects_enableAllJoiners (ambient_silent jid) _) h hrun rfl
  · exact .refl jid cli

theorem calm_joinerDisable : Calm jid cli (cli.joinerDisable args).2 := by
  unfold Interpreter.joinerDisable
  split
  · split
    · exact .refl jid cli
    · exact calm_of_some h (.refl c) _ (commissioner_reinstall h)
  · exact .refl jid cli

theorem calm_joinerDisableAll : Calm jid cli (cli.joinerDisableAll c).2 := by
  unfold Interpreter.joinerDisableAll
  exact calm_perform_reinstall (respects_enableAllJoiners (ambient_silent jid) false) h rfl rfl

theorem calm_joinerGetPort : Calm jid cli (cli.joinerGetPort c).2 := by
  unfold Interpreter.joinerGetPort
  split
  · next hrun =>
    have hcalm := calm_perform (respects_getCommissionerDataset (ambient_silent jid) _) h hrun
    split
    · exact hcalm
    · exact hcalm
  · next hrun => exact calm_perform (respects_getCommissionerDataset (ambient_silent jid) _) h hrun

theorem calm_joinerSetPort : Calm jid cli (cli.joinerSetPort c args).2 := by
  unfold Interpreter.joinerSetPort
  split
  · split
    · exact .refl jid cli
    · exact calm_perform (respects_setCommissionerDataset (ambient_silent jid) _) h rfl
  · exact .refl jid cli

end Subcommands

theorem calm_cmdJoiner (jid : ByteVector 8) (toks : List Text) (cli : Interpreter) :
    Calm jid cli (cli.cmdJoiner toks).2 := by
  unfold Interpreter.cmdJoiner
  split
  · split
    · exact .refl jid cli
    · split
      · exact .refl jid cli
      · cases h : cli.commissioner with
        | none => exact .refl jid cli
        | some c =>
          dsimp only
          split
          · exact calm_joinerEnable h _
          split
          · exact calm_joinerEnableAll h _
          split
          · exact calm_joinerDisable h _
          split
          · exact calm_joinerDisableAll h
          split
          · exact calm_joinerGetPort h
          split
          · exact calm_joinerSetPort h _
          · exact .refl jid cli
  · exact .refl jid cli

end Commands

section Runs

variable [Suite]

/-- What the command line goes through: joiner commands, messages that are
received between them, and time. -/
inductive CliStep
  | joiner (tokens : List Text)
  | received (message : CoapMessage)
  | advance (elapsed : ℕ)

def CliStep.run : CliStep → Interpreter → Interpreter
  | .joiner tokens, cli => (cli.cmdJoiner tokens).2
  | .received message, cli =>
    { cli with commissioner := cli.commissioner.map fun c => finalState ((handleIncoming none message).run c) }
  | .advance elapsed, cli =>
    { cli with commissioner := cli.commissioner.map fun c => { c with now := c.now + elapsed } }

def runSteps (steps : List CliStep) (cli : Interpreter) : Interpreter := steps.foldl (fun cli step => step.run cli) cli

theorem runSteps_cons (step : CliStep) (steps : List CliStep) (cli : Interpreter) :
    runSteps (step :: steps) cli = runSteps steps (step.run cli) := rfl

def lookedUp (joinerId : ByteVector 8) (cli : Interpreter) : Option Text :=
  cli.commissioner.bind fun c => c.joinerHandler.bind (·.pskdOf joinerId)

/-- The session of the joiner, if it has one before its deadline. -/
def liveSession (joinerId : ByteVector 8) (cli : Interpreter) : Option JoinerSession :=
  cli.commissioner.bind fun c => sweep c.joinerSessions c.now joinerId

def sentBy (cli : Interpreter) : List CoapMessage := (cli.commissioner.map (·.sent)).getD []

def Disables (joinerId : ByteVector 8) (tokens : List Text) : Prop :=
  ∃ command subcommand joinerType arguments, tokens = command :: subcommand :: joinerType :: arguments ∧
    (subcommand.bytes = ascii "disableall" ∨
      subcommand.bytes = ascii "disable" ∧ ∃ eui64Token eui64, arguments.head? = some eui64Token ∧
        parseU64 eui64Token = some eui64 ∧ computeJoinerId eui64 = joinerId)

/-- The command has disabled the joiner: it succeeded, and no lookup for the
joiner succeeds any more. -/
structure Disabled (joinerId : ByteVector 8) (tokens : List Text) (cli disabled : Interpreter) : Prop where
  command : Disables joinerId tokens
  done : ∃ value, cli.cmdJoiner tokens = (value, disabled) ∧ value.failed = false
  lookup : lookedUp joinerId disabled = none

def Revoked (joinerId : ByteVector 8) (disabled : Interpreter) : Prop :=
  ∀ steps : List CliStep,
    (∀ passed step coming, steps = passed ++ step :: coming → lookedUp joinerId (runSteps passed disabled) = none) →
    ∃ outgoing, sentBy (runSteps steps disabled) = sentBy disabled ++ outgoing ∧
      ∀ message ∈ outgoing, ¬ CarriesKek joinerId message

variable {jid : ByteVector 8} {cli cli' : Interpreter}

theorem calm_step (jid : ByteVector 8) (step : CliStep) (cli : Interpreter) : Calm jid cli (step.run cli) := by
  cases step with
  | joiner tokens => exact calm_cmdJoiner jid tokens cli
  | received message =>
    cases h : cli.commissioner with
    | none =>
      rw [Calm, h, CliStep.run, h]
      rfl
    | some c =>
      have hincoming : Respects (Silent jid) _ := (ambient_silent jid).surroundings.handleIncoming none message
      refine calm_of_some h (hincoming c) (finalState ((handleIncoming none message).run c)).joinerHandler ?_
      rw [CliStep.run, h]
      rfl
  | advance elapsed =>
    cases h : cli.commissioner with
    | none =>
      rw [Calm, h, CliStep.run, h]
      rfl
    | some c =>
      refine calm_of_some h ((ambient_silent jid).idle c (c.now + elapsed) c.network c.dtlsSession
        c.meshLocalPrefix c.events (Nat.le_add_right _ _)) c.joinerHandler ?_
      rw [CliStep.run, h]
      rfl

def AllProper (cli : Interpreter) : Prop := ∀ c, cli.commissioner = some c → Proper c

theorem Calm.allProper (h : Calm jid cli cli') (hproper : AllProper cli) : AllProper cli' := by
  intro c' hc'
  rw [Calm] at h
  split at h
  · cases h.symm.trans hc'
  · next c hc =>
    obtain ⟨c₁, joinerHandler, hsilent, hafter⟩ := h
    obtain rfl := Option.some.inj (hafter.symm.trans hc')
    exact (hsilent (hproper c hc)).1

theorem allProper_run (steps : List CliStep) (h : AllProper cli) : AllProper (runSteps steps cli) := by
  induction steps generalizing cli with
  | nil => exact h
  | cons step steps ih => exact ih ((calm_step (List.Vector.replicate 8 0) step cli).allProper h)

theorem Calm.silent (h : Calm jid cli cli') (hproper : AllProper cli) (hlive : liveSession jid cli = none)
    (hlookup : lookedUp jid cli = none) : liveSession jid cli' = none ∧ ∃ outgoing, sentBy cli' = sentBy cli ++ outgoing ∧
      ∀ message ∈ outgoing, ¬ CarriesKek jid message := by
  rw [Calm] at h
  split at h
  · next hnone =>
    refine ⟨?_, [], ?_, fun _ hmem => nomatch hmem⟩
    · rw [liveSession, h]
      rfl
    · rw [sentBy, sentBy, h, hnone]
      rfl
  · next c hc =>
    obtain ⟨c₁, joinerHandler, hsilent, hafter⟩ := h
    rw [liveSession, hc] at hlive
    rw [lookedUp, hc] at hlookup
    have hbarred : Barred jid c := by
      refine ⟨fun handler hhandler => ?_, hlive⟩
      change c.joinerHandler.bind _ = none at hlookup
      rwa [hhandler] at hlookup
    obtain ⟨hbarred₁, outgoing, hsent, hnone⟩ := (hsilent (hproper c hc)).2 hbarred
    refine ⟨?_, outgoing, ?_, hnone⟩
    · rw [liveSession, hafter]
      exact hbarred₁.session
    · rw [sentBy, sentBy, hafter, hc]
      exact hsent

theorem revoked_of_allProper (hproper : AllProper cli) (hlive : liveSession jid cli = none) : Revoked jid cli := by
  intro steps huntil
  induction steps generalizing cli with
  | nil => exact ⟨[], (append_nil _).symm, fun _ hmem => nomatch hmem⟩
  | cons step steps ih =>
    have hcalm := calm_step jid step cli
    obtain ⟨hlive', outgoing, hsent, hnone⟩ := hcalm.silent hproper hlive (huntil [] step steps rfl)
    obtain ⟨outgoing', hsent', hnone'⟩ := ih (hcalm.allProper hproper) hlive' fun passed next coming heq =>
      huntil (step :: passed) next coming (by rw [heq]; rfl)
    refine ⟨outgoing ++ outgoing', ?_, forall_mem_append.mpr ⟨hnone, hnone'⟩⟩
    rw [← append_assoc, ← hsent]
    exact hsent'

/-- In every run from a state without sessions, a joiner is revoked by the
command that disables it, if it has no session at that time. -/
theorem disabled_joiner_is_revoked (start disabled : Interpreter)
    (hstart : ∀ c, start.commissioner = some c → c.joinerSessions = fun _ => none) (before : List CliStep)
    (tokens : List Text) (joinerId : ByteVector 8) (h : Disabled joinerId tokens (runSteps before start) disabled)
    (hlive : liveSession joinerId disabled = none) : Revoked joinerId disabled := by
  have hproper : AllProper start := by
    intro c hc other session hsession
    rw [hstart c hc] at hsession
    cases hsession
  obtain ⟨value, hrun, -⟩ := h.done
  have hcalm := calm_cmdJoiner joinerId tokens (runSteps before start)
  rw [hrun] at hcalm
  exact revoked_of_allProper (hcalm.allProper (allProper_run before hproper)) hlive

end Runs

section Relaying

open Builders Encapsulation Incoming Notifications

def relayRxMessage (joinerUdpPort joinerRouterLocator : UInt16) (joinerIid : ByteVector 8) (payload : Bytes) :
    CoapMessage :=
  ⟨.nonConfirmable, .post, 0, [], pathOptions ["c", "rx"],
    (relayEntries joinerIid joinerUdpPort joinerRouterLocator payload none).flatMap TlvEntry.bytes⟩

variable [Suite] {H : Type} {c : Commissioner H}

theorem sendWire_sent {m : CoapMessage} {wire : Bytes} (h : m.encode = .ok wire) (hc : Reliable c) :
    ∃ c', (sendWire m).run c = .ok () c' ∧ c'.sent = c.sent ++ [m] := by
  obtain ⟨_, c₁, hrun, -⟩ := sendApplicationData_succeeds wire c hc
  obtain ⟨mid, sends, outs, hsame, hnone⟩ : Outgoing (fun _ => False) c c₁ := (sendApplicationData_outgoing wire).of_ok hrun
  have hempty : outs = [] := eq_nil_iff_forall_not_mem.mpr hnone
  refine ⟨{ c₁ with sent := c₁.sent ++ [m] }, ?_, ?_⟩
  · rw [sendWire, lift_bind_of_ok h, bind_of_ok hrun]
    rfl
  · rw [hsame, hempty, append_nil]

theorem relayTransmission_sent (sess : JoinerSession) {dgram : Bytes}
    (h : dgram.length ≤ maxExtendedTlvLength) (kek : Option (ByteVector 16)) (hc : Reliable c) :
    ∃ mid token c', (relayTransmission sess (dgram, kek)).run c = .ok () c' ∧
      c'.sent = c.sent ++ [relayTx mid token sess.joinerIid sess.joinerUdpPort sess.joinerRouterLocator
        dgram kek] := by
  have htoken : (beBytes 2 (c.nextMessageId + 1).toNat).length ≤ 8 := (length_beBytes _ _).le.trans (by decide)
  obtain ⟨wire, hwire⟩ := encode_relayTx (c.nextMessageId + 1) htoken sess.joinerIid sess.joinerUdpPort
    sess.joinerRouterLocator dgram kek
  have hidentified : Reliable { c with nextMessageId := c.nextMessageId + 1 } := hc
  obtain ⟨c', hrun, hsent⟩ := sendWire_sent hwire hidentified
  refine ⟨_, _, c', ?_, hsent⟩
  rw [relayTransmission, bind_of_ok (nextRequestIdentity_run c)]
  dsimp only
  rw [relayTxRequestWithKek_of_le h]
  exact hrun

variable [JoinerHandler H]

theorem received_relayRx {payload : Bytes} (h : payload.length ≤ maxExtendedTlvLength)
    (port loc : UInt16) (iid : ByteVector 8) {handler : H} (hhandler : c.joinerHandler = some handler) :
    finalState ((handleIncoming none (relayRxMessage port loc iid payload)).run c) =
      finalState ((handleRelayRx port loc iid payload).run c) := by
  have harrival : arrival (relayRxMessage port loc iid payload) = some (relayRxMessage port loc iid payload, none) := rfl
  have hparse : parseNotification (relayRxMessage port loc iid payload) = _ :=
    parseNotification_relayEntries h iid port loc none rfl rfl
  have hroute := routeUnsolicitedMessage_of_relay hparse hhandler
  rw [handleIncoming_eq, harrival]
  change finalState ((unsolicitedMessage none _).run c) = _
  cases hrun : (handleRelayRx port loc iid payload).run c with
  | ok r c' =>
    rw [unsolicitedMessage_of_routed (hroute.trans (bind_of_ok hrun))]
    rfl
  | error e c' => rw [unsolicitedMessage_of_error (hroute.trans (bind_of_error hrun))]; rfl

end Relaying

section Entrusting

open Builders Drivers HandshakeAgreement JoinerExchange RecordProtection Records

variable [Suite] {c : Commissioner StaticJoinerHandler} {port loc : UInt16}
  {iid : ByteVector 8} {party party' : Party StaticJoinerHandler} {payload dgram : Bytes}

theorem sent_of_accepted (htaker : taker port loc iid c = some party) (hc : Reliable c) {info : JoinerFinalizeInfo}
    (hrun : (receive payload).run party = .ok [.transmit dgram true, .finalized true info] party')
    {kek : ByteVector 16} (hkek : party'.session.joinerRouterKek = .ok kek)
    (hlen : dgram.length ≤ maxExtendedTlvLength) : ∃ mid token,
      (finalState ((handleRelayRx port loc iid payload).run c)).sent =
        c.sent ++ [relayTx mid token party.session.joinerIid party.session.joinerUdpPort
          party.session.joinerRouterLocator dgram (some kek)] := by
  obtain ⟨c₁, hfeeds, hdrive⟩ := handleRelayRx_of_taker htaker payload
  obtain ⟨-, hsent₁, -, hdtls, hnetwork⟩ := hfeeds.same
  have htaken : (receive payload).run ⟨party.session, party.handler, c₁.rng⟩ =
      .ok [.transmit dgram true, .finalized true info] party' := by
    rw [hfeeds.rng, ← hrun]
  have hd : dispatchEvents party'.session (joinerIdFromIid iid) [.transmit dgram true, .finalized true info]
      ⟨party'.handler, [], [], false⟩ =
        ⟨party'.handler, [(dgram, some kek)], [.joinerFinalized (joinerIdFromIid iid) true info], false⟩ := by
    rw [dispatchEvents, if_pos rfl, hkek]
    rfl
  have hdispatched : Reliable (dispatched c₁ (joinerIdFromIid iid) [.transmit dgram true, .finalized true info]
      party') := ⟨hdtls.trans hc.1, hnetwork ▸ hc.2⟩
  obtain ⟨mid, token, c', hsends, hsent⟩ := relayTransmission_sent party.session hlen (some kek) hdispatched
  refine ⟨mid, token, ?_⟩
  rw [hdrive, driveSession_of_ok htaken, hd, if_neg Bool.false_ne_true]
  change (finalState ((relayTransmission party.session (dgram, some kek) >>= fun _ => pure PUnit.unit).run _)).sent = _
  rw [bind_of_ok hsends]
  exact hsent.trans (congrArg (· ++ _) hsent₁)

/-- The JOIN_FIN.req of a connected joiner is answered with the KEK, whatever
the table of joiners has become. -/
theorem kek_of_joinFin {d : Draws} {base : JoinerSession} (k : Sealed d) (hb : Fresh d base)
    (hiid : base.joinerIid = iid) {handler : StaticJoinerHandler} {rng : Rng}
    (hkeeps : Keeps (joinerIdFromIid iid) { k.connected base handler with rng } c) (hc : Reliable c) {sequence : UInt64}
    {joinFin : JoinFin} {request : DtlsRecord} (hreq : SealsJoinFin k.keys sequence joinFin request) (port loc : UInt16) :
    ∃ message, (finalState ((handleRelayRx port loc iid
        (datagramOf [request])).run c)).sent = c.sent ++ [message] ∧ CarriesKek (joinerIdFromIid iid) message := by
  obtain ⟨response, hresp⟩ := exists_sealsAnswer k.keys joinFin true
  have hlen : response.bytes.length ≤ maxExtendedTlvLength := by
    obtain ⟨payload, henc, hprot⟩ := hresp
    have hpayload := length_joinFinResponse henc
    rw [(header_of_protect hprot).2.2, maxExtendedTlvLength]
    omega
  obtain ⟨messageId, token, hsent⟩ := sent_of_accepted (hkeeps.taker port loc) hc
    (k.receive_joinFin_of_rng hb hreq hresp handler rfl rng) rfl hlen
  refine ⟨_, hsent, uriPath_relayTx _ _ _ _ _ _ _, _, iid, parse_relayTx hlen _ _ _ _ _ _, ?_, rfl, rfl⟩
  rw [← hiid]
  rfl

theorem joinFin_short {keys : KeySchedule.ThreadDtlsKeyMaterial} {seq : UInt64} {req : DtlsRecord}
    (h : SealsJoinFin keys seq exampleJoinFin req) : (datagramOf [req]).length ≤ maxExtendedTlvLength := by
  have hlen := (header_of_protect h).2.2
  rw [datagramOf, flatMap_singleton, hlen]
  decide

section Connecting

variable {d : Draws} {secret : Bytes} {base : JoinerSession} {handler : StaticJoinerHandler}

theorem handshake_short (k : Sealed d) (h : Ready d secret) :
    ∀ payload ∈ k.handshake, payload.length ≤ maxExtendedTlvLength := by
  have hempty : ([] : Bytes).length ≤ 255 := Nat.zero_le _
  have hfit : ∀ {rs}, Carried rs → (datagramOf rs).length ≤ maxExtendedTlvLength :=
    fun hcarried => hcarried.2.trans (by decide)
  have hfirst : Carried [(HonestExchange.helloMessage d.client 0 []).record 0 0] :=
    carried_message (h.pair.honestClient.helloMessage_short hempty 0) (by decide)
  have hsecond : Carried [d.hello.record 0 1] :=
    carried_message (h.pair.honestClient.helloMessage_short Draws.cookie_le 1) (by decide)
  have hthird : Carried [d.clientKeyExchange.record 0 2, changeCipherSpecRecord 3, k.clientFinished] := by
    refine carried_of_forall le_rfl ?_
    simp only [forall_mem_cons]
    exact ⟨carried_record (h.pair.clientKeyExchange_short 2 d.clientRng) (by decide), carried_changeCipherSpec (by decide),
      carried_sealed (Draws.finished_short _ _) k.protectClient, forall_mem_nil _⟩
  simp only [Sealed.handshake, forall_mem_cons]
  exact ⟨hfit hfirst, hfit hsecond, hfit hthird, forall_mem_nil _⟩

theorem keeps_connected (k : Sealed d) (h : Ready d secret) (hb : Fresh d base)
    (htaker : taker port loc iid c = some ⟨base, handler, d.serverRng⟩)
    (hflight : base.serverFlight.length ≤ maxExtendedTlvLength) (hc : Reliable c) :
    Keeps (joinerIdFromIid iid) (k.connected base handler)
        (runAll RelayStep.run (k.handshake.map (.relayRx port loc iid)) c).1 ∧
      Reliable (runAll RelayStep.run (k.handshake.map (.relayRx port loc iid)) c).1 := by
  have hfirst := keeps_challenged htaker h hb hflight
  have hsecond := keeps_flown htaker h hb hflight
  have hthird := hsecond.relay port loc
    (Ready.receive_flight h hb k.derived k.protectClient k.protectServer _) (by simp)
  refine ⟨hthird, ?_⟩
  have hc₁ := reliable_of_taker htaker hflight (datagramOf [(HonestExchange.helloMessage d.client 0 []).record 0 0]) hc
  have hc₂ := reliable_of_taker (hfirst.taker port loc) hfirst.flight
    (datagramOf [d.hello.record 0 1]) hc₁
  exact reliable_of_taker (hsecond.taker port loc) hsecond.flight k.keyFlight hc₂

end Connecting

def relayedSteps (joinerUdpPort joinerRouterLocator : UInt16) (joinerIid : ByteVector 8) (payloads : List Bytes) :
    List CliStep :=
  payloads.map fun payload => .received (relayRxMessage joinerUdpPort joinerRouterLocator joinerIid payload)

theorem runSteps_relayed {payloads : List Bytes} (h : ∀ payload ∈ payloads, payload.length ≤ maxExtendedTlvLength)
    {cli : Interpreter} (hcli : cli.commissioner = some c) {handler : StaticJoinerHandler}
    (hhandler : c.joinerHandler = some handler) (port loc : UInt16) (iid : ByteVector 8) :
    runSteps (relayedSteps port loc iid payloads) cli = { cli with
        commissioner := some (runAll RelayStep.run (payloads.map (.relayRx port loc iid)) c).1 } := by
  induction payloads generalizing cli c with
  | nil =>
    change cli = { cli with commissioner := some c }
    rw [← hcli]
  | cons payload payloads ih =>
    obtain ⟨hpayload, hrest⟩ := forall_mem_cons.mp h
    have hstep : (CliStep.received (relayRxMessage port loc iid payload)).run cli = { cli with
          commissioner := some (finalState ((handleRelayRx port loc iid payload).run c)) } := by
      rw [CliStep.run, hcli, ← received_relayRx hpayload port loc iid hhandler]
      rfl
    rw [relayedSteps, map_cons, runSteps_cons, hstep, ← relayedSteps, ih hrest rfl ((handler_handleRelayRx _ _ _ _ _).trans hhandler)]
    rfl

end Entrusting

section Commanding

variable [Suite] {cli : Interpreter} {c : Commissioner StaticJoinerHandler}

def joinerTokens (subcommand : Text) (arguments : List Text) : List Text :=
  ⟨ascii "joiner", by decide⟩ :: subcommand :: ⟨ascii "meshcop", by decide⟩ :: arguments

def enableText : Text := ⟨ascii "enable", by decide⟩

def disableText : Text := ⟨ascii "disable", by decide⟩

theorem cmdJoiner_enable {eui pskd : Text} {eui64 : UInt64} (hcli : cli.commissioner = some c)
    (heui64 : parseU64 eui = some eui64) (hdone : outcome ((enableJoiner (computeJoinerId eui64)).run c) = .ok ()) :
    cli.cmdJoiner (joinerTokens enableText [eui, pskd]) = (.done, (Interpreter.insertPskd
        { cli with commissioner := some (finalState ((enableJoiner (computeJoinerId eui64)).run c)) }
        (computeJoinerId eui64) pskd).reinstallJoinerHandler) := by
  rw [joinerTokens, Interpreter.cmdJoiner, if_neg (by decide), if_neg (by decide), hcli]
  dsimp only
  rw [if_pos (by decide), Interpreter.joinerEnable, heui64]
  dsimp only [Interpreter.perform]
  rw [hdone]

theorem cmdJoiner_disable {eui : Text} {eui64 : UInt64} (hcli : cli.commissioner = some c)
    (heui64 : parseU64 eui = some eui64) : cli.cmdJoiner (joinerTokens disableText [eui]) =
      (.done, (cli.removePskd (computeJoinerId eui64)).reinstallJoinerHandler) := by
  rw [joinerTokens, Interpreter.cmdJoiner, if_neg (by decide), if_neg (by decide), hcli]
  dsimp only
  rw [if_neg (by decide), if_neg (by decide), if_pos (by decide), Interpreter.joinerDisable, heui64]

end Commanding

section Vacancy

variable [Suite]

def Vacant (c : Commissioner StaticJoinerHandler) : Prop :=
  (∀ handler, c.joinerHandler = some handler → ∀ joinerId, handler.pskdOf joinerId = none) ∧
    ∀ joinerId, c.joinerSessions joinerId = none

def StaysVacant (c c' : Commissioner StaticJoinerHandler) : Prop := Vacant c → Vacant c' ∧ c'.rng = c.rng

theorem ambient_staysVacant : Ambient StaysVacant where
  refl c hvacant := ⟨hvacant, rfl⟩
  trans h h' hvacant := ⟨(h' (h hvacant).1).1, (h' (h hvacant).1).2.trans (h hvacant).2⟩
  idle _ _ _ _ _ _ _ hvacant := ⟨hvacant, rfl⟩
  outgoing := by
    rintro c c' ⟨mid, sends, outs, rfl, -⟩ hvacant
    exact ⟨hvacant, rfl⟩
  relay := by
    intro port loc iid payload c hvacant
    have hhandler := handler_handleRelayRx port loc iid payload c
    have hswept : ∀ jid, sweep c.joinerSessions c.now jid = none := by
      intro jid
      rw [sweep, hvacant.2]
      rfl
    rcases handleRelayRx_cases port loc iid payload c with
      ⟨-, -, joinerHandler, hrun⟩ | ⟨party, c₁, htaker, -⟩
    · rw [hrun] at hhandler ⊢
      exact ⟨⟨fun handler hsome => hvacant.1 handler (hhandler ▸ hsome), hswept⟩, rfl⟩
    · have hbarred : Barred (joinerIdFromIid iid) c := ⟨fun handler hsome => hvacant.1 handler hsome _, hswept _⟩
      cases htaker.symm.trans (taker_of_barred hbarred _ _)

end Vacancy

section Witness

open HandshakeAgreement Incoming JoinerExchange Residues

attribute [local instance] residues

/-- The answer 2.04 of the leader to the request with the token. -/
def leaderAnswer (token payload : Bytes) : Delivery where
  elapsed := 0
  data := do (proxied (← CoapMessage.encode ⟨.acknowledgement, .changed, 1, token, [], payload⟩)).encode

/-- The commissioner once the command line has started it. The leader will
answer two requests. -/
def startedCommissioner : Commissioner StaticJoinerHandler :=
  { residueCommissioner with
    joinerHandler := some .new
    network := ⟨[], [], [leaderAnswer [0, 1] [], leaderAnswer [0, 3] [tlvState, 1, 1]]⟩ }

def residueCli : Interpreter := ⟨some startedCommissioner, [], none⟩

def zeroText : Text := ⟨ascii "0", by decide⟩

def residueIid : ByteVector 8 := List.Vector.replicate 8 0

theorem computeJoinerId_zero : computeJoinerId 0 = joinerIdFromIid residueIid := by decide +kernel

theorem parseU64_zero : parseU64 zeroText = some 0 := by decide +kernel

def enabledCommissioner : Commissioner StaticJoinerHandler :=
  { finalState ((enableJoiner (computeJoinerId 0)).run startedCommissioner) with
    joinerHandler := some ⟨none, [(computeJoinerId 0, residuePskd)]⟩ }

theorem enable_residues : residueCli.cmdJoiner (joinerTokens enableText [zeroText, residuePskd]) =
      (.done, ⟨some enabledCommissioner, [(computeJoinerId 0, residuePskd)], none⟩) := by
  have hdone : outcome ((enableJoiner (computeJoinerId 0)).run startedCommissioner) = .ok () := by decide +kernel
  rw [cmdJoiner_enable rfl parseU64_zero hdone]
  rfl

theorem enabled_vacant : (∀ jid, enabledCommissioner.joinerSessions jid = none) ∧
    enabledCommissioner.rng = residueRng [] := by
  have hvacant : Vacant startedCommissioner := by
    refine ⟨fun handler hhandler jid => ?_, fun jid => rfl⟩
    cases hhandler
    rfl
  have hkept : StaysVacant _ _ := respects_enableJoiner ambient_staysVacant (computeJoinerId 0) startedCommissioner
  obtain ⟨⟨-, hsessions⟩, hrng⟩ := hkept hvacant
  exact ⟨hsessions, hrng⟩

theorem swept_enabled (jid : ByteVector 8) :
    sweep enabledCommissioner.joinerSessions enabledCommissioner.now jid = none := by
  rw [sweep, enabled_vacant.1]
  rfl

theorem taker_enabled : taker 1000 0x0400 residueIid enabledCommissioner =
      some ⟨residueSession, ⟨none, [(computeJoinerId 0, residuePskd)]⟩, relayedDraws.serverRng⟩ := by
  have hnow : enabledCommissioner.now = 0 := by decide +kernel
  have hhandler : enabledCommissioner.joinerHandler = some ⟨none, [(computeJoinerId 0, residuePskd)]⟩ := rfl
  have hlookup : JoinerHandler.joinerPskd (⟨none, [(computeJoinerId 0, residuePskd)]⟩ : StaticJoinerHandler)
      (joinerIdFromIid residueIid) = (some residuePskd, ⟨none, [(computeJoinerId 0, residuePskd)]⟩) := by
    rw [← computeJoinerId_zero]
    simp [JoinerHandler.joinerPskd, StaticJoinerHandler.pskdOf]
  simp only [taker, hhandler, swept_enabled, hlookup]
  rw [hnow, enabled_vacant.2]
  rfl

theorem reliable_enabled : Reliable enabledCommissioner := by
  have hsends : enabledCommissioner.network.sends = [] := by decide +kernel
  refine ⟨by decide +kernel, ?_⟩
  rw [hsends]
  exact forall_mem_nil _

theorem disabled_residues {before : List CliStep} {c : Commissioner StaticJoinerHandler}
    (h : runSteps before residueCli = ⟨some c, [(computeJoinerId 0, residuePskd)], none⟩) :
    Disabled (computeJoinerId 0) (joinerTokens disableText [zeroText]) (runSteps before residueCli)
      ⟨some { c with joinerHandler := some .new }, [], none⟩ := by
  refine ⟨⟨_, _, _, _, rfl, .inr ⟨rfl, _, _, rfl, parseU64_zero, rfl⟩⟩, ⟨.done, ?_, rfl⟩, rfl⟩
  rw [h, cmdJoiner_disable rfl parseU64_zero]
  simp [Interpreter.removePskd, Interpreter.reinstallJoinerHandler, Interpreter.buildJoinerHandler]
  rfl

/-- A joiner that is disabled before it has tried to join is sent no KEK. -/
theorem disabled_joiner_is_revoked_residues :
    ∃ disabled, Disabled (computeJoinerId 0) (joinerTokens disableText [zeroText])
        (runSteps [.joiner (joinerTokens enableText [zeroText, residuePskd])] residueCli) disabled ∧
      liveSession (computeJoinerId 0) disabled = none ∧ Revoked (computeJoinerId 0) disabled := by
  have hreached : runSteps [.joiner (joinerTokens enableText [zeroText, residuePskd])] residueCli =
      ⟨some enabledCommissioner, [(computeJoinerId 0, residuePskd)], none⟩ := congrArg Prod.snd enable_residues
  have hdisabled := disabled_residues hreached
  have hlive : liveSession (computeJoinerId 0)
      ⟨some { enabledCommissioner with joinerHandler := some .new }, [], none⟩ = none := swept_enabled _
  refine ⟨_, hdisabled, hlive, ?_⟩
  refine disabled_joiner_is_revoked residueCli _ (fun c hc => ?_) _ _ _ hdisabled hlive
  cases hc
  rfl

/-- A joiner that has connected before it is disabled sends its JOIN_FIN.req
afterwards, and is sent the KEK. -/
theorem kek_after_disable_residues :
    ∃ before disabled, Disabled (computeJoinerId 0) (joinerTokens disableText [zeroText])
        (runSteps before residueCli) disabled ∧ ¬ Revoked (computeJoinerId 0) disabled := by
  obtain ⟨k⟩ := Ready.nonempty_sealed relayedDraws_ready
  obtain ⟨request, hrequest⟩ := exists_sealsJoinFin k.keys exampleJoinFin (by decide)
  obtain ⟨hkeeps, hreliable⟩ := keeps_connected k relayedDraws_ready relayedDraws_fresh taker_enabled (Nat.zero_le _)
    reliable_enabled
  let connected := (runAll RelayStep.run (k.handshake.map (.relayRx 1000 0x0400 residueIid)) enabledCommissioner).1
  have hreached : runSteps (.joiner (joinerTokens enableText [zeroText, residuePskd]) ::
      relayedSteps 1000 0x0400 residueIid k.handshake) residueCli =
        ⟨some connected, [(computeJoinerId 0, residuePskd)], none⟩ := by
    rw [runSteps_cons, CliStep.run, enable_residues]
    exact runSteps_relayed (handshake_short k relayedDraws_ready) rfl rfl _ _ _
  refine ⟨_, _, disabled_residues hreached, fun hrevoked => ?_⟩
  obtain ⟨outgoing, hsent, hnone⟩ := hrevoked (relayedSteps 1000 0x0400 residueIid [Drivers.datagramOf [request]]) (by
    intro passed step coming heq
    cases passed with
    | nil => rfl
    | cons first passed => simp [relayedSteps] at heq)
  have hdisabled : Keeps (joinerIdFromIid residueIid) (k.connected residueSession StaticJoinerHandler.new)
      { connected with joinerHandler := some StaticJoinerHandler.new } :=
    ⟨hkeeps.session, rfl, hkeeps.rng, hkeeps.live, hkeeps.flight⟩
  obtain ⟨message, hmessage, hkek⟩ := kek_of_joinFin k relayedDraws_fresh rfl hdisabled hreliable hrequest 1000 0x0400
  rw [runSteps_relayed (by simpa using joinFin_short hrequest) rfl rfl] at hsent
  have hsame : outgoing = [message] := append_cancel_left (hsent.symm.trans hmessage)
  refine hnone message (by rw [hsame]; exact mem_singleton_self _) ?_
  rw [computeJoinerId_zero]
  exact hkek

end Witness

end ThreadCommissioner.Revocation
