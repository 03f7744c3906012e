import ThreadCommissioner.CommandTimes
import ThreadCommissioner.WalkTimes

namespace ThreadCommissioner.KeepaliveRuns

open ByteStrings CommandTimes Commissioners Computations DatasetJson Durations Errors Exchanges Interpreters List
open JoinerCommands JoinerSessions Lines Meshcop Operations Primitives Requests Texts

section Callbacks

variable [Suite] {H : Type} [JoinerHandler H]

def Quiet (events : List CommissionerEvent) : Prop := ∀ result, .keepAliveResponse result ∉ events

theorem nextEvent_of_queued {c : Commissioner H} {event : CommissionerEvent} {later : List CommissionerEvent}
    (h : c.events = event :: later) : nextEvent.run c = .ok (some event) { c with events := later } := by
  have htaken : (tryRecvQueuedEvent : CommissionerM H _).run c = .ok (some event) { c with events := later } := by
    change EStateM.Result.ok c.events.head? { c with events := c.events.tail } = _
    rw [h]
    rfl
  exact bind_of_ok htaken

/-- The response behind the other events is found; by induction on these. -/
theorem awaitCallback_of_queued (before later : List CommissionerEvent) (hquiet : Quiet before) (res : ResultCode)
    {rounds : ℕ} (hrounds : before.length < rounds) {c : Commissioner H}
    (h : c.events = before ++ .keepAliveResponse res :: later) :
    (awaitCallback rounds).run c = .ok (before, res) { c with events := later } := by
  induction before generalizing rounds c with
  | nil =>
    obtain ⟨rounds, rfl⟩ := Nat.exists_eq_succ_of_ne_zero (Nat.ne_of_gt hrounds)
    exact bind_of_ok (nextEvent_of_queued h)
  | cons event before ih =>
    obtain ⟨rounds, rfl⟩ := Nat.exists_eq_succ_of_ne_zero (Nat.ne_of_gt (Nat.zero_lt_of_lt hrounds))
    have hrest := ih (fun res hmem => hquiet res (mem_cons_of_mem _ hmem))
      (Nat.lt_of_succ_lt_succ hrounds) (c := { c with events := before ++ .keepAliveResponse res :: later }) rfl
    have hnext := nextEvent_of_queued (c := c) h
    cases event with
    | keepAliveResponse other => exact absurd mem_cons_self (hquiet other)
    | _ => exact (bind_of_ok hnext).trans (bind_of_ok hrest)

theorem keepAliveAndCallback_of_ok {c c₁ : Commissioner H} {res : ResultCode}
    (h : keepAlive.run c = .ok res (keptAlive res c₁)) (hquiet : Quiet c₁.events) :
    keepAliveAndCallback.run c = .ok (res, c₁.events, res) { keptAlive res c₁ with events := [] } := by
  have hevents : (keptAlive res c₁).events = c₁.events ++ [.keepAliveResponse res] := by
    rw [keptAlive]
    split <;> rfl
  have hrounds : c₁.events.length < (keptAlive res c₁).events.length := by simp [hevents]
  have hawaited := awaitCallback_of_queued c₁.events [] hquiet res hrounds hevents
  exact (bind_of_ok h).trans (bind_of_ok hawaited)

theorem keepAliveAndCallback_of_error {c c₁ : Commissioner H} {e : Error} (h : keepAlive.run c = .error e c₁) :
    keepAliveAndCallback.run c = .error e c₁ := bind_of_error h

end Callbacks

section Keepalives

variable [Suite] {cli cli₁ : Repl} {c : Commissioner StaticJoinerHandler}

/-- What holds of the installed commissioner between turns. -/
structure Installed (cli : Repl) (c : Commissioner StaticJoinerHandler) : Prop where
  quiet : Quiet c.events
  connected : c.state = .active → c.dtlsSession = true
  synced : c.now = cli.now
  interval : minKeepaliveInterval ≤ cli.keepaliveInterval

/-- The keep-alive is armed exactly while the session is active. -/
structure Kept (cli : Repl) : Prop where
  armed : cli.keepaliveDeadline.isSome → ∃ c, cli.commissioner = some c ∧ c.state = .active
  rearmed : ∀ c, cli.commissioner = some c → c.state = .active → cli.overflowed = false → cli.keepaliveDeadline.isSome
  installed : ∀ c, cli.commissioner = some c → Installed cli c

theorem Kept.of_none (h : cli.commissioner = none) (hdue : cli.keepaliveDeadline = none) : Kept cli := by
  refine ⟨?_, ?_, ?_⟩
  · intro harmed
    rw [hdue] at harmed
    cases harmed
  · intro c hc
    cases h.symm.trans hc
  · intro c hc
    cases h.symm.trans hc

theorem Kept.new (cfg : CliConfig) (now : ℕ) : Kept (Repl.new cfg now) := .of_none rfl rfl

theorem Kept.of_idle (h : cli.commissioner = some c) (hstate : c.state ≠ .active) (hdue : cli.keepaliveDeadline = none)
    (hinst : Installed cli c) : Kept cli := by
  refine ⟨?_, ?_, ?_⟩
  · rw [hdue]
    nofun
  · rw [h]
    rintro _ ⟨⟩ hactive
    exact absurd hactive hstate
  · rw [h]
    rintro _ ⟨⟩
    exact hinst

theorem Kept.steady {limit : ℕ} (h : Kept cli) (hsteady : Steady limit cli cli₁) : Kept cli₁ := by
  have hsynced : Synced cli₁ := hsteady.synced fun c hc => (h.installed c hc).synced
  have hrel := hsteady.commissioner
  refine ⟨fun hdue => ?_, fun c₁ hc₁ hactive hoverflowed => ?_, fun c₁ hc₁ => ?_⟩
  · rw [hsteady.deadline] at hdue
    obtain ⟨c, hc, hactive⟩ := h.armed hdue
    rw [hc] at hrel
    generalize hinstalled : cli₁.commissioner = installed at hrel
    cases hrel with
    | some hundisturbed => exact ⟨_, rfl, hundisturbed.session.1.trans hactive⟩
  · rw [hc₁] at hrel
    generalize hinstalled : cli.commissioner = installed at hrel
    cases hrel with
    | some hundisturbed =>
      rw [hsteady.deadline]
      exact h.rearmed _ hinstalled (hundisturbed.session.1.symm.trans hactive) (hsteady.overflowed.symm.trans hoverflowed)
  · have hnow := hsynced c₁ hc₁
    rw [hc₁] at hrel
    generalize hinstalled : cli.commissioner = installed at hrel
    cases hrel with
    | some hundisturbed =>
      have hkept := h.installed _ hinstalled
      refine ⟨fun res hmem => hkept.quiet res (hundisturbed.responses res hmem), fun hactive => ?_, hnow, ?_⟩
      · exact hundisturbed.dtlsSession (hkept.connected (hundisturbed.session.1.symm.trans hactive))
      · rw [hsteady.interval]
        exact hkept.interval

theorem Kept.arrive (h : Kept cli) (turn : Turn) : Kept (cli.arrive turn) := by
  refine ⟨fun hdue => ?_, fun c₁ hc₁ => ?_, fun c₁ hc₁ => ?_⟩
  · obtain ⟨c, hc, hactive⟩ := h.armed hdue
    exact ⟨_, congrArg (Option.map _) hc, hactive⟩
  · obtain ⟨c, hc, rfl⟩ := Option.map_eq_some_iff.mp hc₁
    exact h.rearmed c hc
  · obtain ⟨c, hc, rfl⟩ := Option.map_eq_some_iff.mp hc₁
    have hinstalled := h.installed c hc
    exact ⟨hinstalled.quiet, hinstalled.connected, rfl, hinstalled.interval⟩

/-- A deadline that stands is at least the shortest interval ahead. -/
def Fresh (cli : Repl) : Prop :=
  ∀ deadline, cli.keepaliveDeadline = some deadline → cli.now + minKeepaliveInterval ≤ deadline

theorem Fresh.of_none (h : cli.keepaliveDeadline = none) : Fresh cli := by
  intro due hdue
  rw [h] at hdue
  cases hdue

def Ended (cli : Repl) : Prop := cli.keepaliveDeadline = none ∧ ∃ c, cli.commissioner = some c ∧ c.state = .disabled

/-- At most one keep-alive has been made, and if it has not been accepted then
the session has ended with it. -/
def Concluded (cli cli' : Repl) : Prop :=
  ∃ results, cli'.keepAlives = cli.keepAlives ++ results ∧ results.length ≤ 1 ∧
    ∀ result ∈ results, result ≠ .ok .accept → Ended cli'

theorem Concluded.of_eq (h : cli₁.keepAlives = cli.keepAlives) : Concluded cli cli₁ :=
  ⟨[], by rw [h, append_nil], Nat.zero_le 1, nofun⟩

variable [Instants]

theorem Kept.scheduleKeepalive (h : cli.commissioner = some c) (hinst : Installed cli c) : Kept cli.scheduleKeepalive := by
  by_cases hstate : c.state = .active
  · have hscheduled : cli.scheduleKeepalive = { cli with
          keepaliveDeadline := checkedAdd cli.now cli.keepaliveInterval
          overflowed := cli.overflowed || (checkedAdd cli.now cli.keepaliveInterval).isNone } := by
      rw [Repl.scheduleKeepalive, h]
      exact if_pos hstate
    rw [hscheduled]
    refine ⟨fun _ => ⟨c, h, hstate⟩, fun _ _ _ hoverflowed => ?_, ?_⟩
    · have hnone : (checkedAdd cli.now cli.keepaliveInterval).isNone = false := (Bool.or_eq_false_iff.mp hoverflowed).2
      exact Option.isSome_iff_ne_none.mpr fun heq => absurd (Option.isNone_iff_eq_none.mpr heq) (by rw [hnone]; nofun)
    · rw [h]
      rintro _ ⟨⟩
      exact ⟨hinst.quiet, hinst.connected, hinst.synced, hinst.interval⟩
  · have hscheduled : cli.scheduleKeepalive = { cli with keepaliveDeadline := none } := by
      rw [Repl.scheduleKeepalive, h]
      exact if_neg hstate
    rw [hscheduled]
    exact .of_idle h hstate rfl ⟨hinst.quiet, hinst.connected, hinst.synced, hinst.interval⟩

/-- The interpreter between a keep-alive with this result and what follows it. -/
def renewed (cli : Repl) (result : Except Error ResultCode) (c : Commissioner StaticJoinerHandler)
    (energyReports : List (IpAddr × UInt32 × Bytes)) (panidConflicts : List (IpAddr × UInt32 × UInt16)) : Repl :=
  { cli with
    keepaliveDeadline := none
    keepAlives := cli.keepAlives ++ [result]
    commissioner := some c
    now := c.now
    energyReports
    panidConflicts }

/-- A keep-alive is followed by the next deadline if it has been accepted, and by
the end of the session otherwise. -/
theorem handleScheduledKeepalive_concludes (hc : cli.commissioner = some c) (hactive : c.state = .active)
    (hquiet : Quiet c.events) : ∃ result c₁ energyReports panidConflicts, Quiet c₁.events ∧
      (result = .ok .accept ∧ (∃ limit, Undisturbed limit c c₁) ∧
          cli.handleScheduledKeepalive = (.ok (), (renewed cli result c₁ energyReports panidConflicts).scheduleKeepalive) ∨
        result ≠ .ok .accept ∧
          ∃ e, cli.handleScheduledKeepalive = (.error e, (renewed cli result c₁ energyReports panidConflicts).disconnect)) := by
  obtain ⟨e, c₁, hrun, limit, hundisturbed⟩ | ⟨result, c₁, hrun, limit, hundisturbed⟩ := keepAlive_answered c
  · have hcallback := keepAliveAndCallback_of_error hrun
    refine ⟨.error e, c₁, cli.energyReports, cli.panidConflicts, ?_, .inr ⟨by simp, e, ?_⟩⟩
    · exact fun result hmem => hquiet result (hundisturbed.responses result hmem)
    · simp [Repl.handleScheduledKeepalive, hc, hactive, Repl.perform, Interpreter.perform, hcallback, hrun, outcome,
        finalState, Repl.resume, renewed]
  · have hquiet₁ : Quiet c₁.events := fun result hmem => hquiet result (hundisturbed.responses result hmem)
    have hcallback := keepAliveAndCallback_of_ok hrun hquiet₁
    let resumed : Repl := renewed cli (.ok result) { keptAlive result c₁ with events := [] } cli.energyReports cli.panidConflicts
    obtain ⟨energyReports, panidConflicts, hrecorded⟩ := foldl_recordEvent c₁.events resumed
    have hconcluded : cli.handleScheduledKeepalive = resumed.concludeKeepalive result c₁.events result := by
      simp [Repl.handleScheduledKeepalive, hc, hactive, Repl.perform, Interpreter.perform, hcallback, hrun, outcome,
        finalState, Repl.resume, renewed, resumed]
    refine ⟨.ok result, { keptAlive result c₁ with events := [] }, energyReports, panidConflicts, fun _ => not_mem_nil, ?_⟩
    rw [hconcluded, Repl.concludeKeepalive.eq_def]
    dsimp only
    rw [hrecorded, if_neg (not_not.mpr rfl)]
    cases result with
    | accept => exact .inl ⟨rfl, ⟨limit, hundisturbed.trans (undisturbed_dequeue c₁ (nil_subset _))⟩, rfl⟩
    | reject => exact .inr ⟨by simp, _, rfl⟩
    | pending => exact .inr ⟨by simp, _, rfl⟩

theorem scheduleKeepalive_eq (cli : Repl) : ∃ overflowed due,
    cli.scheduleKeepalive = { cli with keepaliveDeadline := due, overflowed } ∧
      ∀ instant, due = some instant → instant = cli.now + cli.keepaliveInterval := by
  rw [Repl.scheduleKeepalive]
  split
  · exact ⟨cli.overflowed, none, rfl, nofun⟩
  split
  · refine ⟨_, _, rfl, fun instant hinstant => ?_⟩
    rw [checkedAdd] at hinstant
    split at hinstant
    · exact (Option.some.inj hinstant).symm
    · cases hinstant
  · exact ⟨cli.overflowed, none, rfl, nofun⟩

theorem Fresh.scheduleKeepalive (h : minKeepaliveInterval ≤ cli.keepaliveInterval) : Fresh cli.scheduleKeepalive := by
  obtain ⟨overflowed, due, heq, hinstant⟩ := scheduleKeepalive_eq cli
  rw [heq]
  intro instant hdue
  rw [hinstant instant hdue]
  exact Nat.add_le_add_left h cli.now

theorem handleScheduledKeepalive_keeps (h : Kept cli) (hdue : cli.keepaliveDeadline.isSome) :
    Kept cli.handleScheduledKeepalive.2 ∧ Fresh cli.handleScheduledKeepalive.2 ∧
      ∃ res, cli.handleScheduledKeepalive.2.keepAlives = cli.keepAlives ++ [res] ∧
        (res = .ok .accept ∨ cli.handleScheduledKeepalive.1 ≠ .ok () ∧ Ended cli.handleScheduledKeepalive.2) := by
  obtain ⟨c, hc, hactive⟩ := h.armed hdue
  have hinst := h.installed c hc
  obtain ⟨res, c₁, energyReports, panidConflicts, hquiet, ⟨haccept, ⟨limit, hundisturbed⟩, heq⟩ | ⟨-, e, heq⟩⟩ :=
    handleScheduledKeepalive_concludes hc hactive hinst.quiet
  · obtain ⟨overflowed, due, hscheduled, -⟩ := scheduleKeepalive_eq (renewed cli res c₁ energyReports panidConflicts)
    have hconnected : c₁.state = .active → c₁.dtlsSession = true := fun _ =>
      hundisturbed.dtlsSession (hinst.connected hactive)
    rw [heq]
    have hrenewed : Installed (renewed cli res c₁ energyReports panidConflicts) c₁ :=
      ⟨hquiet, hconnected, rfl, hinst.interval⟩
    refine ⟨Kept.scheduleKeepalive rfl hrenewed, Fresh.scheduleKeepalive hinst.interval, res, ?_, .inl haccept⟩
    rw [hscheduled]
    rfl
  · rw [heq]
    refine ⟨.of_idle rfl nofun rfl ⟨hquiet, nofun, rfl, hinst.interval⟩, .of_none rfl, res, rfl, .inr ⟨nofun, rfl, ?_⟩⟩
    exact ⟨_, rfl, rfl⟩

theorem refreshKeepaliveBeforeCommand_cases (cli : Repl) (toks : List Text) :
    cli.refreshKeepaliveBeforeCommand toks = (.ok (), cli) ∧
        (∀ due, cli.keepaliveDeadline = some due → commandMayWaitForCommissioner toks = true →
          toks.head?.bind Command.named ≠ some .start ∧ cli.now + commandKeepaliveHeadroom < due) ∨
      cli.keepaliveDeadline.isSome ∧ cli.refreshKeepaliveBeforeCommand toks = cli.handleScheduledKeepalive := by
  rw [Repl.refreshKeepaliveBeforeCommand]
  split
  · next hwait =>
    refine .inl ⟨rfl, fun _ _ htrue => ?_⟩
    rw [hwait] at htrue
    cases htrue
  split
  · next hdeadline =>
    refine .inl ⟨rfl, ?_⟩
    rw [hdeadline]
    nofun
  next due hdeadline =>
  rw [hdeadline]
  dsimp only
  split
  · next hahead =>
    refine .inl ⟨rfl, ?_⟩
    rintro _ ⟨⟩ -
    exact ⟨hahead.1, by omega⟩
  · exact .inr ⟨rfl, rfl⟩

theorem refreshKeepaliveBeforeCommand_keeps (h : Kept cli) (toks : List Text) :
    Kept (cli.refreshKeepaliveBeforeCommand toks).2 ∧
      ∃ results, (cli.refreshKeepaliveBeforeCommand toks).2.keepAlives = cli.keepAlives ++ results ∧ results.length ≤ 1 ∧
        ∀ res ∈ results, res = .ok .accept ∨ (cli.refreshKeepaliveBeforeCommand toks).1 ≠ .ok () ∧
          Ended (cli.refreshKeepaliveBeforeCommand toks).2 := by
  obtain ⟨heq, -⟩ | ⟨hdue, heq⟩ := refreshKeepaliveBeforeCommand_cases cli toks
  · rw [heq]
    exact ⟨h, [], (append_nil _).symm, Nat.zero_le 1, nofun⟩
  · obtain ⟨hkept, -, res, hkeepAlives, hresult⟩ := handleScheduledKeepalive_keeps h hdue
    rw [heq]
    refine ⟨hkept, [res], hkeepAlives, le_rfl, fun other hmem => ?_⟩
    rw [mem_singleton.mp hmem]
    exact hresult

end Keepalives

section Sessions

variable [Suite] {cli : Repl}

theorem connect_eq_ok {cfg : CommissionerConfig} {socket : Except Error Unit} {borderAgent : IpAddr} {now : ℕ} {rng : Rng}
    {network : Network} {c : Commissioner StaticJoinerHandler} (h : connect cfg socket borderAgent now rng network = .ok c) :
    minKeepaliveInterval ≤ cfg.keepaliveInterval ∧ c = connected borderAgent now rng network := by
  obtain ⟨_, hvalid, h⟩ := bind_ok.mp h
  obtain ⟨_, -, h⟩ := bind_ok.mp h
  obtain ⟨_, -, h⟩ := bind_ok.mp h
  exact ⟨(ensure_eq_ok.mp hvalid).1, (pure_eq_ok.mp h).symm⟩

theorem petitioned_lasts (connectOnly : Bool) (cfg : CommissionerConfig) {c : Commissioner StaticJoinerHandler}
    (hstate : c.state = .connected) (hquiet : Quiet c.events) :
    let started := finalState ((if connectOnly then pure () else do let _ ← petition cfg).run c)
    Quiet started.events ∧ (started.state = .active → started.dtlsSession = true) ∧
      started.now ≤ c.now + dtlsHandshakeTimeout + meshcopTimeout := by
  cases connectOnly with
  | true =>
    refine ⟨hquiet, fun hactive => ?_, Nat.le_trans (Nat.le_add_right _ _) (Nat.le_add_right _ _)⟩
    cases hstate.symm.trans hactive
  | false =>
    obtain ⟨hnow, hconn, hresponses⟩ := petition_lasts cfg c
    dsimp only
    rw [if_neg Bool.false_ne_true, finalState_bind_pure]
    refine ⟨fun res hmem => hquiet res (hresponses res hmem), fun hactive => ?_, hnow⟩
    exact (hconn hactive).resolve_left fun hbefore => by cases hstate.symm.trans hbefore

theorem cmdStop_eq (cli : Repl) :
    cli.cmdStop.2.commissioner = none ∧ cli.cmdStop.2.keepaliveDeadline = none ∧ cli.cmdStop.2.keepAlives = cli.keepAlives := by
  rw [Repl.cmdStop.eq_def]
  dsimp only
  split
  · next hc => exact ⟨hc, rfl, rfl⟩
  · exact ⟨rfl, rfl, rfl⟩

variable [Instants]

theorem cmdStart_cases [ConsoleTexts] (cli : Repl) (dial : Dial) (toks : List Text) : (cli.cmdStart dial toks).2 = cli ∨
      ∃ interval c, minKeepaliveInterval ≤ interval ∧ Quiet c.events ∧ (c.state = .active → c.dtlsSession = true) ∧
        c.now ≤ cli.now + dtlsHandshakeTimeout + meshcopTimeout ∧ (cli.cmdStart dial toks).2 = Repl.scheduleKeepalive
          { cli with keepaliveDeadline := none, commissioner := some c, now := c.now, keepaliveInterval := interval } := by
  rw [Repl.cmdStart.eq_def]
  split
  · next head host port flags =>
    dsimp only
    split
    · exact .inl rfl
    split
    · exact .inl rfl
    next config hconfig =>
    split
    · exact .inl rfl
    next commissioner hconnect =>
    obtain ⟨hinterval, rfl⟩ := connect_eq_ok hconnect
    obtain ⟨hquiet, hconn, hnow⟩ := petitioned_lasts
      ((head :: host :: port :: flags).any (Spells · "--connect-only")) config
      (c := finalState ((setJoinerHandler cli.buildJoinerHandler).run (connected _ cli.now dial.rng dial.network))) rfl nofun
    exact .inr ⟨config.keepaliveInterval, _, hinterval, hquiet, hconn, hnow, rfl⟩
  · exact .inl rfl

variable [AddressTexts] [ConsoleTexts] [Hex]

theorem dispatch_start (cli : Repl) (dial : Dial) {name : Text} (args : List Text) (h : Command.named name = some .start) :
    cli.dispatch dial name args = cli.cmdStart dial (name :: args) := by
  rw [Repl.dispatch, h]

theorem dispatch_stop (cli : Repl) (dial : Dial) {name : Text} (args : List Text) (h : Command.named name = some .stop) :
    cli.dispatch dial name args = cli.cmdStop := by
  rw [Repl.dispatch, h]

theorem dispatch_keeps (h : Kept cli) (dial : Dial) (name : Text) (args : List Text) :
    Kept (cli.dispatch dial name args).2 ∧ (cli.dispatch dial name args).2.keepAlives = cli.keepAlives := by
  by_cases hstart : Command.named name = some .start
  · rw [dispatch_start cli dial args hstart]
    obtain heq | ⟨interval, c, hinterval, hquiet, hconn, -, heq⟩ := cmdStart_cases cli dial (name :: args)
    · rw [heq]
      exact ⟨h, rfl⟩
    · obtain ⟨overflowed, due, hscheduled, -⟩ := scheduleKeepalive_eq
        { cli with keepaliveDeadline := none, commissioner := some c, now := c.now, keepaliveInterval := interval }
      rw [heq]
      refine ⟨Kept.scheduleKeepalive rfl ⟨hquiet, hconn, rfl, hinterval⟩, ?_⟩
      rw [hscheduled]
  · by_cases hstop : Command.named name = some .stop
    · rw [dispatch_stop cli dial args hstop]
      obtain ⟨hc, hdue, hkeepAlives⟩ := cmdStop_eq cli
      exact ⟨.of_none hc hdue, hkeepAlives⟩
    · have hsteady : Steady (allowance (name :: args)) cli (cli.dispatch dial name args).2 :=
        dispatch_steady dial name args hstart hstop
      exact ⟨h.steady hsteady, hsteady.keepAlives⟩

end Sessions

section Turns

variable [Suite] [AddressTexts] [ConsoleTexts] [Hex] [Instants] {cli start : Repl} {turn : Turn} {name : Text}
  {args : List Text}

/-- The turn dispatches this command, from the state in which the keep-alive has
been refreshed where that was needed. -/
def Dispatches (cli : Repl) (turn : Turn) (name : Text) (arguments : List Text) (start : Repl) : Prop :=
  cli.shouldExit = false ∧ ∃ line first others, turn.input = some line ∧ tokenize line = .ok (first :: others) ∧
    name = textOf first ∧ arguments = others.map textOf ∧ hasMultiNetworkFlag (name :: arguments) = false ∧
    (cli.arrive turn).refreshKeepaliveBeforeCommand (name :: arguments) = (.ok (), start)

/-- What can happen in a turn: nothing, a line without a command, a scheduled
keep-alive, a refresh that fails, or a command. -/
theorem turn_cases (cli : Repl) (turn : Turn) : (cli.turn turn).2 = cli ∨
      turn.input.isSome ∧ (cli.turn turn).2 = cli.arrive turn ∨
      turn.input = none ∧ cli.keepaliveDeadline.isSome ∧ (cli.turn turn).2 = (cli.arrive turn).handleScheduledKeepalive.2 ∨
      (∃ toks e, (cli.arrive turn).refreshKeepaliveBeforeCommand toks = (.error e, (cli.turn turn).2)) ∨
      ∃ name args start, Dispatches cli turn name args start ∧
        (cli.turn turn).2 = (start.dispatch turn.dial name args).2 := by
  rw [Repl.turn]
  split
  · exact .inl rfl
  next hexit =>
  split
  · next _ line hinput =>
    have hread : turn.input.isSome := by rw [hinput]; rfl
    rw [Repl.evaluateAndPrint]
    split
    · exact .inr (.inl ⟨hread, rfl⟩)
    · exact .inr (.inl ⟨hread, rfl⟩)
    · next first others htokens =>
      dsimp only
      split
      · exact .inr (.inl ⟨hread, rfl⟩)
      · next hflag =>
        split
        · next e _ hrefresh => exact .inr (.inr (.inr (.inl ⟨_, e, hrefresh⟩)))
        · next start hrefresh =>
          have hdispatches : Dispatches cli turn (textOf first) (others.map textOf) start :=
            ⟨Bool.eq_false_iff.mpr hexit, line, first, others, hinput, htokens, rfl, rfl,
              Bool.eq_false_iff.mpr hflag, hrefresh⟩
          exact .inr (.inr (.inr (.inr ⟨_, _, start, hdispatches, rfl⟩)))
  · exact .inl rfl
  · next deadline hinput hdeadline =>
    refine .inr (.inr (.inl ⟨hinput, by rw [hdeadline]; rfl, ?_⟩))
    split
    · next heq => rw [heq]
    · next heq => rw [heq]

theorem turn_keeps (h : Kept cli) (turn : Turn) : Kept (cli.turn turn).2 ∧ Concluded cli (cli.turn turn).2 := by
  obtain heq | ⟨-, heq⟩ | ⟨-, hdue, heq⟩ | ⟨toks, e, hrefresh⟩ | ⟨name, args, start, hdispatches, heq⟩ := turn_cases cli turn
  · rw [heq]
    exact ⟨h, .of_eq rfl⟩
  · rw [heq]
    exact ⟨h.arrive turn, .of_eq rfl⟩
  · obtain ⟨hkept, -, res, hkeepAlives, hresult⟩ := handleScheduledKeepalive_keeps (h.arrive turn) hdue
    rw [heq]
    refine ⟨hkept, [res], hkeepAlives, le_rfl, fun other hmem hne => ?_⟩
    rw [mem_singleton.mp hmem] at hne
    exact (hresult.resolve_left hne).2
  · obtain ⟨hkept, results, hkeepAlives, hlength, hresults⟩ := refreshKeepaliveBeforeCommand_keeps (h.arrive turn) toks
    rw [hrefresh] at hkept hkeepAlives hresults
    exact ⟨hkept, results, hkeepAlives, hlength, fun res hmem hne => ((hresults res hmem).resolve_left hne).2⟩
  · obtain ⟨-, line, first, others, -, -, -, -, -, hrefresh⟩ := hdispatches
    obtain ⟨hkept, results, hkeepAlives, hlength, hresults⟩ :=
      refreshKeepaliveBeforeCommand_keeps (h.arrive turn) (name :: args)
    rw [hrefresh] at hkept hkeepAlives hresults
    obtain ⟨hdispatched, hsame⟩ := dispatch_keeps hkept turn.dial name args
    rw [heq]
    refine ⟨hdispatched, results, hsame.trans hkeepAlives, hlength, fun res hmem hne => ?_⟩
    exact absurd rfl ((hresults res hmem).resolve_left hne).1

theorem Kept.after (h : Kept cli) (turns : List Turn) : Kept (cli.after turns) := by
  induction turns generalizing cli with
  | nil => exact h
  | cons turn turns ih => exact ih (turn_keeps h turn).1

/-- In every run, a keep-alive is armed between turns exactly while the installed
commissioner is active, unless the time of one could not be represented; and one
that is not accepted ends the session in its turn. -/
theorem keepalive_armed_iff_active (config : CliConfig) (now : ℕ) (turns : List Turn) :
    (((Repl.new config now).after turns).overflowed = false →
        (((Repl.new config now).after turns).keepaliveDeadline.isSome ↔
          ∃ c, ((Repl.new config now).after turns).commissioner = some c ∧ c.state = .active)) ∧
      ∀ turn, Concluded ((Repl.new config now).after turns) (((Repl.new config now).after turns).turn turn).2 := by
  have hkept := (Kept.new config now).after turns
  refine ⟨fun hoverflowed => ⟨hkept.armed, ?_⟩, fun turn => (turn_keeps hkept turn).2⟩
  rintro ⟨c, hc, hactive⟩
  exact hkept.rearmed c hc hactive hoverflowed

end Turns

section Times

/-- What any command can take, `start` included. -/
def longest (tokens : List Text) : ℕ :=
  if tokens.head?.bind Command.named = some .start then dtlsHandshakeTimeout + meshcopTimeout else allowance tokens

theorem longest_lt (toks : List Text) : longest toks < minKeepaliveInterval := by
  rw [longest]
  split
  · decide
  · rw [allowance]
    split <;> decide

theorem longest_of_not_waiting {toks : List Text} (h : commandMayWaitForCommissioner toks = false) : longest toks = 0 := by
  rw [longest, if_neg, allowance, h, if_neg Bool.false_ne_true]
  intro hstart
  rw [commandMayWaitForCommissioner, hstart] at h
  cases h

variable [Suite] {cli start : Repl} {turn : Turn} {name : Text} {args : List Text}

/-- When the turn comes. A line is read before the deadline, since that is looked
at first, and the keep-alive is made at the deadline or, if that has passed, at
once. -/
def Due (cli : Repl) (turn : Turn) : Prop :=
  match turn.input, cli.keepaliveDeadline with
  | some _, none => True
  | some _, some deadline => cli.now + turn.elapsed < deadline
  | none, some deadline => cli.now + turn.elapsed = max cli.now deadline
  | none, none => False

theorem Due.before {line : List Char} (h : Due cli turn) (hinput : turn.input = some line) :
    ∀ deadline, (cli.arrive turn).keepaliveDeadline = some deadline → (cli.arrive turn).now < deadline := by
  intro deadline hdeadline
  have hsome : cli.keepaliveDeadline = some deadline := hdeadline
  rw [Due, hinput, hsome] at h
  exact h

/-- The deadline while the command runs, which a stop clears first of all. -/
def standing (name : Text) (cli : Repl) : Option ℕ :=
  if Command.named name = some .stop then none else cli.keepaliveDeadline

def InTime (cli : Repl) : Prop := ∀ deadline, cli.keepaliveDeadline = some deadline → cli.now ≤ deadline

theorem Fresh.inTime (h : Fresh cli) : InTime cli := fun due hdue =>
  (Nat.le_add_right _ _).trans (h due hdue)

theorem Steady.now_le {limit : ℕ} {cli₁ : Repl} (h : Steady limit cli cli₁) (hkept : Kept cli)
    (hdue : cli.keepaliveDeadline.isSome) : cli₁.now ≤ cli.now + limit := by
  obtain ⟨c, hc, hactive⟩ := hkept.armed hdue
  have hinstalled := hkept.installed c hc
  have hsynced := h.synced fun c hc => (hkept.installed c hc).synced
  have hrel := h.commissioner
  rw [hc] at hrel
  cases hc₁ : cli₁.commissioner with
  | none =>
    rw [hc₁] at hrel
    cases hrel
  | some c₁ =>
    rw [hc₁] at hrel
    cases hrel with
    | some hundisturbed =>
      have hwithin := hundisturbed.within (hinstalled.connected hactive)
      rw [hinstalled.synced, hsynced c₁ hc₁] at hwithin
      exact hwithin

variable [Instants]

theorem ahead_of_refresh (hkept : Kept cli) {tokens : List Text}
    (hbefore : ∀ deadline, cli.keepaliveDeadline = some deadline → cli.now < deadline)
    (h : cli.refreshKeepaliveBeforeCommand tokens = (.ok (), start)) :
    ∀ deadline, start.keepaliveDeadline = some deadline → start.now + longest tokens < deadline := by
  intro deadline hdeadline
  obtain ⟨heq, hahead⟩ | ⟨hsome, heq⟩ := refreshKeepaliveBeforeCommand_cases cli tokens
  · obtain ⟨-, rfl⟩ := Prod.mk.inj (heq.symm.trans h)
    cases hwait : commandMayWaitForCommissioner tokens with
    | false =>
      rw [longest_of_not_waiting hwait]
      exact hbefore deadline hdeadline
    | true =>
      obtain ⟨hstart, hlt⟩ := hahead deadline hdeadline hwait
      rwa [longest, if_neg hstart, allowance, if_pos hwait]
  · obtain ⟨-, hfresh, -⟩ := handleScheduledKeepalive_keeps hkept hsome
    rw [← heq, h] at hfresh
    exact (Nat.add_lt_add_left (longest_lt tokens) start.now).trans_le (hfresh deadline hdeadline)

variable [AddressTexts] [ConsoleTexts] [Hex]

theorem dispatch_inTime (hkept : Kept cli)
    (h : ∀ deadline, cli.keepaliveDeadline = some deadline → cli.now + longest (name :: args) < deadline) (dial : Dial) :
    (∀ deadline, standing name cli = some deadline → (cli.dispatch dial name args).2.now < deadline) ∧
      InTime (cli.dispatch dial name args).2 := by
  by_cases hstart : Command.named name = some .start
  · have hnotStop : Command.named name ≠ some .stop := by simp [hstart]
    have hlongest : longest (name :: args) = dtlsHandshakeTimeout + meshcopTimeout := if_pos hstart
    rw [hlongest] at h
    rw [dispatch_start cli dial args hstart, standing, if_neg hnotStop]
    obtain heq | ⟨interval, c, hinterval, -, -, hnow, heq⟩ := cmdStart_cases cli dial (name :: args)
    · rw [heq]
      have hbefore : ∀ deadline, cli.keepaliveDeadline = some deadline → cli.now < deadline := fun deadline hdeadline =>
        (Nat.le_add_right _ _).trans_lt (h deadline hdeadline)
      exact ⟨hbefore, fun deadline hdeadline => (hbefore deadline hdeadline).le⟩
    · obtain ⟨overflowed, scheduled, hscheduled, -⟩ := scheduleKeepalive_eq
        { cli with keepaliveDeadline := none, commissioner := some c, now := c.now, keepaliveInterval := interval }
      rw [heq]
      refine ⟨fun deadline hdeadline => ?_, (Fresh.scheduleKeepalive hinterval).inTime⟩
      rw [hscheduled]
      exact hnow.trans_lt ((Nat.add_assoc _ _ _).trans_lt (h deadline hdeadline))
  · by_cases hstop : Command.named name = some .stop
    · rw [dispatch_stop cli dial args hstop, standing, if_pos hstop]
      exact ⟨nofun, (Fresh.of_none (cmdStop_eq cli).2.1).inTime⟩
    · have hsteady : Steady (allowance (name :: args)) cli (cli.dispatch dial name args).2 :=
        dispatch_steady dial name args hstart hstop
      have hlongest : longest (name :: args) = allowance (name :: args) := if_neg hstart
      have hends : ∀ deadline, cli.keepaliveDeadline = some deadline → (cli.dispatch dial name args).2.now < deadline := by
        intro deadline hdeadline
        have hlt := h deadline hdeadline
        rw [hlongest] at hlt
        exact (Steady.now_le hsteady hkept (by rw [hdeadline]; rfl)).trans_lt hlt
      rw [standing, if_neg hstop]
      refine ⟨hends, fun deadline hdeadline => (hends deadline ?_).le⟩
      rw [← hsteady.deadline]
      exact hdeadline

def Timed : Repl → List Turn → Prop
  | _, [] => True
  | cli, turn :: turns => Due cli turn ∧ Timed (cli.turn turn).2 turns

theorem dispatched_inTime (hkept : Kept cli) (hdue : Due cli turn) (h : Dispatches cli turn name args start) :
    (∀ deadline, standing name start = some deadline → (start.dispatch turn.dial name args).2.now < deadline) ∧
      InTime (start.dispatch turn.dial name args).2 := by
  obtain ⟨-, line, first, others, hinput, -, -, -, -, hrefresh⟩ := h
  have hstart := (refreshKeepaliveBeforeCommand_keeps (hkept.arrive turn) (name :: args)).1
  rw [hrefresh] at hstart
  exact dispatch_inTime hstart (ahead_of_refresh (hkept.arrive turn) (hdue.before hinput) hrefresh) turn.dial

theorem turn_inTime (hkept : Kept cli) (hinTime : InTime cli) (hdue : Due cli turn) : InTime (cli.turn turn).2 := by
  obtain heq | ⟨hread, heq⟩ | ⟨-, hdeadline, heq⟩ | ⟨toks, e, hrefresh⟩ | ⟨name, args, start, hdispatches, heq⟩ :=
    turn_cases cli turn
  · rw [heq]
    exact hinTime
  · obtain ⟨line, hinput⟩ := Option.isSome_iff_exists.mp hread
    rw [heq]
    exact fun due hdeadline => (hdue.before hinput due hdeadline).le
  · rw [heq]
    exact (handleScheduledKeepalive_keeps (hkept.arrive turn) hdeadline).2.1.inTime
  · obtain ⟨hok, -⟩ | ⟨hdeadline, hrefreshed⟩ := refreshKeepaliveBeforeCommand_cases (cli.arrive turn) toks
    · cases (Prod.mk.inj (hok.symm.trans hrefresh)).1
    · have hfresh := (handleScheduledKeepalive_keeps (hkept.arrive turn) hdeadline).2.1
      rw [← hrefreshed, hrefresh] at hfresh
      exact hfresh.inTime
  · rw [heq]
    exact (dispatched_inTime hkept hdue hdispatches).2

theorem Timed.after {turns : List Turn} {turn : Turn} (h : Timed cli (turns ++ [turn])) (hkept : Kept cli)
    (hinTime : InTime cli) : InTime (cli.after turns) ∧ Due (cli.after turns) turn := by
  induction turns generalizing cli with
  | nil => exact ⟨hinTime, h.1⟩
  | cons first turns ih => exact ih h.2 (turn_keeps hkept first).1 (turn_inTime hkept hinTime h.1)

/-- In every run whose turns come when they are due, a command ends before the
deadline that stands while it runs, and a scheduled keep-alive is made no later
than its deadline. -/
theorem command_ends_before_deadline (config : CliConfig) (now : ℕ) (turns : List Turn) (turn : Turn)
    (h : Timed (Repl.new config now) (turns ++ [turn])) :
    (∀ name arguments start deadline, Dispatches ((Repl.new config now).after turns) turn name arguments start →
        standing name start = some deadline → (start.dispatch turn.dial name arguments).2.now < deadline) ∧
      ∀ deadline, turn.input = none → ((Repl.new config now).after turns).keepaliveDeadline = some deadline →
        (((Repl.new config now).after turns).arrive turn).now ≤ deadline := by
  have hkept := (Kept.new config now).after turns
  obtain ⟨hinTime, hdue⟩ := h.after (.new config now) nofun
  refine ⟨fun name arguments start deadline hdispatches => (dispatched_inTime hkept hdue hdispatches).1 deadline, ?_⟩
  intro deadline hinput hdeadline
  have hnow := hinTime deadline hdeadline
  rw [Due, hinput, hdeadline] at hdue
  exact hdue.le.trans (max_le hnow le_rfl)

end Times

section Example

open Residues SessionState WalkTimes

@[reducible] def plainTexts : ConsoleTexts :=
  ⟨fun _ => some (.v4 (List.Vector.replicate 4 0)), fun _ => .error [], fun _ => [], fun _ => ⟨[], utf8Valid_nil⟩⟩

@[reducible] def longInstants : Instants := ⟨2 ^ 64⟩

attribute [local instance] residues noTexts plainTexts TextForms.plainHex longInstants

def exampleConfig : CliConfig := ⟨asciiText 1, false, 40, List.replicate 16 0, asciiText 1⟩

/-- A line is read, and the border agent of a new connection accepts its
petition. -/
def lineTurn (elapsed : ℕ) (line : List Char) : Turn where
  elapsed := elapsed
  network := ⟨[], [], []⟩
  dial := ⟨.ok (), residueRng [], ⟨[], [], [agentAnswer [0, 1] [tlvState, 1, 1, tlvCommissionerSessionId, 2, 0, 1]]⟩⟩
  input := some line

def started : Repl := (Repl.new exampleConfig 0).after [lineTurn 0 ['s', 't', 'a', 'r', 't', ' ', 'a', ' ', '1']]

theorem started_deadline : started.keepaliveDeadline = some (41 * 10 ^ 9) := by decide +kernel

def refusedTurn : Turn :=
  { lineTurn (40 * 10 ^ 9) [] with
    network := ⟨[], [], [agentAnswer [0, 2] [tlvState, 1, 0xff]]⟩
    input := none }

theorem keepalive_armed_iff_active_residues :
    started.overflowed = false ∧ (∃ c, started.commissioner = some c ∧ c.state = .active) ∧ Ended (started.turn refusedTurn).2 := by
  have hoverflowed : started.overflowed = false := by decide +kernel
  obtain ⟨hiff, hconcluded⟩ := keepalive_armed_iff_active exampleConfig 0
    [lineTurn 0 ['s', 't', 'a', 'r', 't', ' ', 'a', ' ', '1']]
  refine ⟨hoverflowed, (hiff hoverflowed).mp ?_, ?_⟩
  · exact (congrArg Option.isSome started_deadline).trans rfl
  · obtain ⟨results, hresults, -, hended⟩ := hconcluded refusedTurn
    have hbefore : started.keepAlives.map Except.toOption = [] := by decide +kernel
    have hafter : (started.turn refusedTurn).2.keepAlives.map Except.toOption = [some .reject] := by decide +kernel
    have hmap : results.map Except.toOption = [some .reject] := by
      rw [← hafter, ← nil_append (results.map _), ← hbefore, ← map_append]
      exact congrArg (List.map Except.toOption) hresults.symm
    obtain ⟨result, rfl, hresult⟩ := map_eq_singleton_iff.mp hmap
    refine hended result mem_cons_self fun haccept => ?_
    rw [haccept] at hresult
    cases hresult

/-- A dataset is asked for at six seconds, and no answer comes. -/
def readTurn : Turn :=
  lineTurn (5 * 10 ^ 9) ['o', 'p', 'd', 'a', 't', 'a', 's', 'e', 't', ' ', 'g', 'e', 't', ' ', 'a', 'c', 't', 'i', 'v', 'e']

def opdatasetName : Text := textOf ['o', 'p', 'd', 'a', 't', 'a', 's', 'e', 't']

def opdatasetArguments : List Text := [textOf ['g', 'e', 't'], textOf ['a', 'c', 't', 'i', 'v', 'e']]

theorem dispatches_readTurn : Dispatches started readTurn opdatasetName opdatasetArguments (started.arrive readTurn) := by
  have hnow : (started.arrive readTurn).now = 6 * 10 ^ 9 := by decide +kernel
  have hdeadline : (started.arrive readTurn).keepaliveDeadline = some (41 * 10 ^ 9) := started_deadline
  refine ⟨by decide +kernel, _, _, _, rfl, rfl, rfl, rfl, by decide +kernel, ?_⟩
  rw [Repl.refreshKeepaliveBeforeCommand, if_neg (by decide +kernel), hdeadline]
  dsimp only
  rw [hnow, if_pos (by decide +kernel)]

theorem command_ends_before_deadline_residues :
    Dispatches started readTurn opdatasetName opdatasetArguments (started.arrive readTurn) ∧
      standing opdatasetName (started.arrive readTurn) = some (41 * 10 ^ 9) ∧
      ((started.arrive readTurn).dispatch readTurn.dial opdatasetName opdatasetArguments).2.now < 41 * 10 ^ 9 := by
  have hstanding : standing opdatasetName (started.arrive readTurn) = some (41 * 10 ^ 9) := by
    rw [standing, if_neg (by decide +kernel)]
    exact started_deadline
  have hdue : Due started readTurn := by
    have hnow : started.now = 10 ^ 9 := by decide +kernel
    rw [Due, started_deadline, hnow]
    exact (by decide : 10 ^ 9 + 5 * 10 ^ 9 < 41 * 10 ^ 9)
  have htimed : Timed (Repl.new exampleConfig 0)
      ([lineTurn 0 ['s', 't', 'a', 'r', 't', ' ', 'a', ' ', '1']] ++ [readTurn]) := ⟨trivial, hdue, trivial⟩
  exact ⟨dispatches_readTurn, hstanding, (command_ends_before_deadline exampleConfig 0 _ readTurn htimed).1 _ _ _ _
    dispatches_readTurn hstanding⟩

end Example

end ThreadCommissioner.KeepaliveRuns
