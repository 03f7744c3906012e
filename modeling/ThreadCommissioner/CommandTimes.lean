import ThreadCommissioner.Durations
import ThreadCommissioner.Interpreters

namespace ThreadCommissioner.CommandTimes

open ByteStrings Commissioners DatasetJson Datasets Diagnostics Durations Exchanges Interpreters List
open JoinerCommands JoinerSessions Primitives Requests Texts

section Pumping

variable [Suite] {H : Type}

theorem undisturbed_dequeue (c : Commissioner H) {events : List CommissionerEvent} (h : events ⊆ c.events) :
    Undisturbed 0 c { c with events } := ⟨⟨rfl, rfl⟩, fun _ hmem => h hmem, le_rfl, id, fun _ => le_rfl⟩

variable [JoinerHandler H]

theorem takeDelivery_takes (delivery : Delivery) (inbox : List Delivery) :
    Takes delivery.elapsed (takeDelivery delivery inbox : CommissionerM H (Option CommissionerEvent)) := by
  refine .before (takes_modify fun c => .idle c delivery.elapsed _) fun _ => ?_
  refine .after (takes_lift 0 _) fun responseWire => .after (takes_lift 0 _) fun m => ?_
  refine .after (handling_undisturbed.handleIncoming none m) fun _ => ?_
  exact fun c => undisturbed_dequeue c (tail_subset c.events)

/-- By induction on what arrives: what a delivery takes is taken off the rest. -/
theorem pumpDeliveries_undisturbed (inbox : List Delivery) (remaining : ℕ) (c : Commissioner H) :
    Undisturbed remaining c (pumpDeliveries inbox remaining c).2 := by
  induction inbox generalizing remaining c with
  | nil => exact (Undisturbed.idle c (min remaining meshcopTimeout) c.network).mono (min_le_left _ _)
  | cons delivery inbox ih =>
    rw [pumpDeliveries]
    dsimp only
    split
    · exact (Undisturbed.idle c (min remaining meshcopTimeout) _).mono (min_le_left _ _)
    · next hwait =>
      have hle : delivery.elapsed ≤ remaining := (Nat.not_lt.mp hwait).trans (min_le_left _ _)
      have htaken := takeDelivery_takes delivery inbox c
      cases hrun : (takeDelivery delivery inbox).run c with
      | error e c₁ =>
        rw [hrun] at htaken
        exact htaken.mono hle
      | ok taken c₁ =>
        rw [hrun] at htaken
        have hsum : delivery.elapsed + (remaining - delivery.elapsed) ≤ remaining := by omega
        cases taken with
        | none => exact (htaken.trans (ih _ c₁)).mono hsum
        | some event =>
          dsimp only
          split
          · exact htaken.mono hle
          · have hdequeued := htaken.trans (undisturbed_dequeue c₁ (nil_subset _))
            exact (hdequeued.trans (ih _ { c₁ with events := [] })).mono hsum

theorem pumpEvents_undisturbed (duration : ℕ) (c : Commissioner H) : Undisturbed duration c (pumpEvents duration c).2 := by
  rw [pumpEvents]
  split
  · exact .refl duration c
  · have hdequeued := undisturbed_dequeue c (nil_subset c.events)
    split
    · exact hdequeued.mono (Nat.zero_le _)
    · have hpumped := pumpDeliveries_undisturbed c.network.inbox duration { c with events := [] }
      exact (hdequeued.trans hpumped).mono (Nat.zero_add duration).le

theorem setActiveField_takes (ds : Dataset) : Takes (2 * meshcopTimeout) (setActiveField ds : CommissionerM H Unit) := by
  rw [Nat.two_mul]
  refine .bind (getActiveDataset_takes _) fun current => .after (takes_lift 0 _) fun found => ?_
  exact writeDataset_takes _ _ _

end Pumping

section Steadiness

variable [Suite] {limit first second : ℕ} {cli cli₁ cli₂ : Repl}

def Synced (cli : Repl) : Prop := ∀ c, cli.commissioner = some c → c.now = cli.now

/-- The interpreter after a command that leaves the session and its deadline
alone and takes at most the limit. -/
structure Steady (limit : ℕ) (cli cli' : Repl) : Prop where
  deadline : cli'.keepaliveDeadline = cli.keepaliveDeadline
  interval : cli'.keepaliveInterval = cli.keepaliveInterval
  keepAlives : cli'.keepAlives = cli.keepAlives
  overflowed : cli'.overflowed = cli.overflowed
  commissioner : Option.Rel (Undisturbed limit) cli.commissioner cli'.commissioner
  synced : Synced cli → Synced cli'

section Installed

variable {installed installed₁ installed₂ : Option (Commissioner StaticJoinerHandler)}

theorem rel_refl (limit : ℕ) (installed : Option (Commissioner StaticJoinerHandler)) :
    Option.Rel (Undisturbed limit) installed installed := by
  cases installed with
  | none => exact .none
  | some c => exact .some (.refl limit c)

theorem rel_mono (h : Option.Rel (Undisturbed first) installed installed₁) (hle : first ≤ second) :
    Option.Rel (Undisturbed second) installed installed₁ := by
  cases h with
  | none => exact .none
  | some hkept => exact .some (hkept.mono hle)

theorem rel_trans (h : Option.Rel (Undisturbed first) installed installed₁)
    (h' : Option.Rel (Undisturbed second) installed₁ installed₂) :
    Option.Rel (Undisturbed (first + second)) installed installed₂ := by
  cases h with
  | none =>
    cases h'
    exact .none
  | some hkept =>
    cases h' with
    | some hkept' => exact .some (hkept.trans hkept')

end Installed

theorem Steady.refl (limit : ℕ) (cli : Repl) : Steady limit cli cli := ⟨rfl, rfl, rfl, rfl, rel_refl limit _, id⟩

theorem Steady.of_fields (limit : ℕ) (cli : Repl) (config : CliConfig) (energyReports : List (IpAddr × UInt32 × Bytes))
    (panidConflicts : List (IpAddr × UInt32 × UInt16)) (shouldExit : Bool) :
    Steady limit cli { cli with config, energyReports, panidConflicts, shouldExit } :=
  ⟨rfl, rfl, rfl, rfl, rel_refl limit _, id⟩

theorem Steady.mono (h : Steady first cli cli₁) (hle : first ≤ second) : Steady second cli cli₁ :=
  ⟨h.deadline, h.interval, h.keepAlives, h.overflowed, rel_mono h.commissioner hle, h.synced⟩

theorem Steady.trans (h : Steady first cli cli₁) (h' : Steady second cli₁ cli₂) : Steady (first + second) cli cli₂ where
  deadline := h'.deadline.trans h.deadline
  interval := h'.interval.trans h.interval
  keepAlives := h'.keepAlives.trans h.keepAlives
  overflowed := h'.overflowed.trans h.overflowed
  commissioner := rel_trans h.commissioner h'.commissioner
  synced hsynced := h'.synced (h.synced hsynced)

theorem foldl_recordEvent (evs : List CommissionerEvent) (cli : Repl) :
    ∃ energyReports panidConflicts, evs.foldl Repl.recordEvent cli = { cli with energyReports, panidConflicts } := by
  induction evs generalizing cli with
  | nil => exact ⟨cli.energyReports, cli.panidConflicts, rfl⟩
  | cons event evs ih =>
    obtain ⟨energyReports, panidConflicts, hrest⟩ := ih (cli.recordEvent event)
    refine ⟨energyReports, panidConflicts, ?_⟩
    rw [foldl_cons, hrest]
    cases event <;> rfl

theorem Steady.of_resume {interpreter : Interpreter}
    (h : Option.Rel (Undisturbed limit) cli.commissioner interpreter.commissioner) :
    Steady limit cli (cli.resume interpreter) := by
  refine ⟨rfl, rfl, rfl, rfl, h, fun _ c hc => ?_⟩
  have hsome : interpreter.commissioner = some c := hc
  rw [Repl.resume, hsome]
  rfl

theorem Steady.of_perform {α : Type} {c : Commissioner StaticJoinerHandler} (hc : cli.commissioner = some c)
    {op : CommissionerM StaticJoinerHandler α} (h : Takes limit op) : Steady limit cli (cli.perform c op).2 := by
  refine .of_resume ?_
  rw [hc]
  exact .some (h c)

theorem Steady.of_report {α : Type} {op : CommissionerM StaticJoinerHandler α} (h : Takes limit op)
    (render : α → CommandValue) : Steady limit cli (cli.report op render).2 := by
  rw [Repl.report]
  split
  · exact .refl limit cli
  · next c hc =>
    have hperformed := Steady.of_perform hc h
    split
    · next hrun =>
      rw [hrun] at hperformed
      exact hperformed
    · next hrun =>
      rw [hrun] at hperformed
      exact hperformed

theorem Steady.of_finish {op : CommissionerM StaticJoinerHandler Unit} (h : Takes limit op) :
    Steady limit cli (cli.finish op).2 := .of_report h _

theorem Steady.of_ifConnected {next : CommandValue × Repl} (h : Steady limit cli next.2) :
    Steady limit cli (cli.ifConnected next).2 := by
  rw [Repl.ifConnected]
  split
  · exact .refl limit cli
  · exact h

theorem Steady.of_pump (duration : ℕ) (cli : Repl) : Steady duration cli (cli.pump duration) := by
  rw [Repl.pump]
  split
  · exact .refl duration cli
  · next c hc =>
    obtain ⟨energyReports, panidConflicts, hrecorded⟩ := foldl_recordEvent (pumpEvents duration c).1
      (cli.resume { cli.toInterpreter with commissioner := some (pumpEvents duration c).2 })
    dsimp only
    rw [hrecorded]
    have hresumed : Steady duration cli
        (cli.resume { cli.toInterpreter with commissioner := some (pumpEvents duration c).2 }) := by
      refine .of_resume ?_
      rw [hc]
      exact .some (pumpEvents_undisturbed duration c)
    exact (hresumed.trans (.of_fields 0 _ _ energyReports panidConflicts _))

theorem Steady.of_finishAndPump {op : CommissionerM StaticJoinerHandler Unit} (h : Takes limit op) :
    Steady (limit + 3 * 10 ^ 9) cli (cli.finishAndPump op).2 := by
  have hfinished : Steady limit cli (cli.finish op).2 := .of_finish h
  rw [Repl.finishAndPump]
  dsimp only
  split
  · exact hfinished.mono (Nat.le_add_right _ _)
  · exact hfinished.trans (.of_pump _ _)

end Steadiness

theorem exchanges_le {exchanges : ℕ} (h : exchanges ≤ 4) : exchanges * meshcopTimeout ≤ commandKeepaliveHeadroom :=
  (Nat.mul_le_mul_right meshcopTimeout h).trans (by decide)

theorem exchange_le : meshcopTimeout ≤ commandKeepaliveHeadroom := by decide

theorem among_of_spells {words : List String} {word : String} {name sub : Text} {rest : List Text}
    (h : Spells sub word) (hmem : word ∈ words) : among words (name :: sub :: rest) = true :=
  any_eq_true.mpr ⟨word, hmem, decide_eq_true h⟩

section Joiners

variable [Suite] {limit : ℕ} {installed : Option (Commissioner StaticJoinerHandler)} {cli : Interpreter}
  {c : Commissioner StaticJoinerHandler}

theorem rel_reinstall (h : Option.Rel (Undisturbed limit) installed cli.commissioner) :
    Option.Rel (Undisturbed limit) installed cli.reinstallJoinerHandler.commissioner := by
  have hinstalled : Option.Rel (Undisturbed 0) cli.commissioner cli.reinstallJoinerHandler.commissioner := by
    rw [Interpreter.reinstallJoinerHandler]
    cases cli.commissioner with
    | none => exact .none
    | some c => exact .some ⟨⟨rfl, rfl⟩, .refl c, le_rfl, id, fun _ => le_rfl⟩
  exact rel_trans h hinstalled

theorem joinerDisable_rel (args : List Text) :
    Option.Rel (Undisturbed limit) cli.commissioner (cli.joinerDisable args).2.commissioner := by
  rw [Interpreter.joinerDisable.eq_def]
  split
  · split
    · exact rel_refl _ _
    · exact rel_reinstall (rel_refl limit cli.commissioner)
  · exact rel_refl _ _

section Subcommands

variable (hc : cli.commissioner = some c)

include hc

theorem rel_perform {α : Type} {op : CommissionerM StaticJoinerHandler α} (h : Takes limit op) :
    Option.Rel (Undisturbed limit) cli.commissioner (cli.perform c op).2.commissioner := by
  rw [hc]
  exact .some (h c)

variable (args : List Text)

theorem joinerEnable_rel : Option.Rel (Undisturbed (4 * meshcopTimeout)) cli.commissioner
      (cli.joinerEnable c args).2.commissioner := by
  rw [Interpreter.joinerEnable.eq_def]
  split
  · split
    · exact rel_refl _ _
    · next eui64 _ =>
      have hperformed := rel_perform hc (enableJoiner_takes (Steering.computeJoinerId eui64))
      dsimp only
      split
      · next hrun =>
        rw [hrun] at hperformed
        exact hperformed
      · next hrun =>
        rw [hrun] at hperformed
        exact rel_reinstall hperformed
  · exact rel_refl _ _

theorem joinerEnableAll_rel : Option.Rel (Undisturbed (2 * meshcopTimeout)) cli.commissioner
      (cli.joinerEnableAll c args).2.commissioner := by
  have hperformed := rel_perform hc (enableAllJoiners_takes true)
  rw [Interpreter.joinerEnableAll.eq_def]
  split
  · split
    · next hrun =>
      rw [hrun] at hperformed
      exact hperformed
    · next hrun =>
      rw [hrun] at hperformed
      exact rel_reinstall hperformed
  · exact rel_refl _ _

theorem joinerDisableAll_rel : Option.Rel (Undisturbed (2 * meshcopTimeout)) cli.commissioner
      (cli.joinerDisableAll c).2.commissioner := rel_reinstall (rel_perform hc (enableAllJoiners_takes false))

theorem joinerGetPort_rel :
    Option.Rel (Undisturbed (2 * meshcopTimeout)) cli.commissioner (cli.joinerGetPort c).2.commissioner := by
  have hperformed := rel_perform hc (getCommissionerDataset_takes CommissionerDatasetFlags.joinerUdpPort)
  rw [Interpreter.joinerGetPort]
  split
  · next hrun =>
    rw [hrun] at hperformed
    split
    · exact hperformed
    · exact hperformed
  · next hrun =>
    rw [hrun] at hperformed
    exact hperformed

theorem joinerSetPort_rel : Option.Rel (Undisturbed (2 * meshcopTimeout)) cli.commissioner
      (cli.joinerSetPort c args).2.commissioner := by
  rw [Interpreter.joinerSetPort.eq_def]
  split
  · split
    · exact rel_refl _ _
    · exact rel_perform hc (setCommissionerDataset_takes _)
  · exact rel_refl _ _

end Subcommands

theorem cmdJoiner_rel (name : Text) (args : List Text)
    (hwait : among ["enable", "enableall", "disableall", "getport", "setport"] (name :: args) = true →
      commandKeepaliveHeadroom ≤ limit) : Option.Rel (Undisturbed limit) cli.commissioner
      (Interpreter.cmdJoiner (name :: args) cli).2.commissioner := by
  rw [Interpreter.cmdJoiner.eq_def]
  split
  · next sub joinerType rest heq =>
    obtain ⟨-, rfl⟩ := List.cons.inj heq
    split
    · exact rel_refl _ _
    split
    · exact rel_refl _ _
    split
    · exact rel_refl _ _
    next c hc =>
    have hallowed : ∀ {word exchanges}, Spells sub word →
        word ∈ ["enable", "enableall", "disableall", "getport", "setport"] → exchanges ≤ 4 →
          exchanges * meshcopTimeout ≤ limit :=
      fun hword hmem hle => (exchanges_le hle).trans (hwait (among_of_spells hword hmem))
    split
    · next hword => exact rel_mono (joinerEnable_rel hc rest) (hallowed hword (by simp) le_rfl)
    split
    · next hword => exact rel_mono (joinerEnableAll_rel hc rest) (hallowed hword (by simp) (by decide))
    split
    · exact joinerDisable_rel rest
    split
    · next hword => exact rel_mono (joinerDisableAll_rel hc) (hallowed hword (by simp) (by decide))
    split
    · next hword => exact rel_mono (joinerGetPort_rel hc) (hallowed hword (by simp) (by decide))
    split
    · next hword => exact rel_mono (joinerSetPort_rel hc rest) (hallowed hword (by simp) (by decide))
    · exact rel_refl _ _
  · exact rel_refl _ _

end Joiners

section Commands

variable [Suite] {limit : ℕ} {cli : Repl}

theorem cmdBorderAgent_steady (name : Text) (args : List Text)
    (hwait : among ["get"] (name :: args) = true → commandKeepaliveHeadroom ≤ limit) :
    Steady limit cli (cli.cmdBorderAgent args).2 := by
  rw [Repl.cmdBorderAgent.eq_def]
  split
  · exact .refl _ _
  · next subcommand rest =>
    split
    · exact .refl _ _
    split
    · next hget =>
      split
      · have hallowed := (exchanges_le (by decide : 2 ≤ 4)).trans (hwait (among_of_spells hget (by simp)))
        exact .of_report ((getCommissionerDataset_takes _).mono hallowed) _
      · exact .refl _ _
    · exact .refl _ _

/-- A command that is answered by events takes an exchange and the three seconds
in which they are collected. -/
theorem pumping_steady (hwait : commandKeepaliveHeadroom ≤ limit) {op : CommissionerM StaticJoinerHandler Unit}
    (h : Takes meshcopTimeout op) : Steady limit cli (cli.finishAndPump op).2 :=
  (Steady.of_finishAndPump h).mono (Nat.le_trans (by decide) hwait)

section Datasets

variable [Hex]

theorem cmdConfig_steady (args : List Text) : Steady limit cli (cli.cmdConfig args).2 := by
  rw [Repl.cmdConfig.eq_def]
  split
  · split
    · exact .refl _ _
    split
    · split <;> exact .refl _ _
    split
    · split
      · exact .refl _ _
      split
      · exact .of_fields limit cli _ _ _ _
      split
      · exact .of_fields limit cli _ _ _ _
      · exact .refl _ _
    · exact .refl _ _
  · exact .refl _ _

variable [ConsoleTexts]

theorem cmdCommDataset_steady (name : Text) (args : List Text)
    (hwait : among ["get", "set"] (name :: args) = true → commandKeepaliveHeadroom ≤ limit) :
    Steady limit cli (cli.cmdCommDataset args).2 := by
  rw [Repl.cmdCommDataset.eq_def]
  split
  · exact .refl _ _
  · next sub rest =>
    have hallowed : ∀ {word}, Spells sub word → word ∈ ["get", "set"] → 2 * meshcopTimeout ≤ limit :=
      fun hword hmem => (exchanges_le (by decide)).trans (hwait (among_of_spells hword hmem))
    refine .of_ifConnected ?_
    split
    · next hget => exact .of_report ((getCommissionerDataset_takes _).mono (hallowed hget (by simp))) _
    split
    · next hset =>
      split
      · exact .refl _ _
      split
      · exact .refl _ _
      · exact .of_finish ((setCommissionerDataset_takes _).mono (hallowed hset (by simp)))
    · exact .refl _ _

theorem cmdBbrDataset_steady (name : Text) (args : List Text)
    (hwait : among ["get"] (name :: args) = true → commandKeepaliveHeadroom ≤ limit) :
    Steady limit cli (cli.cmdBbrDataset args).2 := by
  rw [Repl.cmdBbrDataset.eq_def]
  split
  · exact .refl _ _
  · next subcommand rest =>
    refine .of_ifConnected ?_
    split
    · next hget =>
      have hallowed := exchange_le.trans (hwait (among_of_spells hget (by simp)))
      exact .of_report ((readDataset_takes _ _).mono hallowed) _
    split
    · exact .refl _ _
    · exact .refl _ _

end Datasets

section Devices

variable [AddressTexts] (hwait : commandKeepaliveHeadroom ≤ limit)

include hwait

theorem cmdManaged_steady (needed : ℕ) {op : Ipv6Addr → List Text → CommissionerM StaticJoinerHandler Unit}
    (h : ∀ dst rest, Takes meshcopTimeout (op dst rest)) (args : List Text) :
    Steady limit cli (cli.cmdManaged needed op args).2 := by
  rw [Repl.cmdManaged.eq_def]
  split
  · exact .refl _ _
  · split
    · exact .refl _ _
    split
    · exact .refl _ _
    · exact .of_finish ((h _ _).mono (exchange_le.trans hwait))

theorem cmdMlr_steady (args : List Text) : Steady limit cli (cli.cmdMlr args).2 := by
  rw [Repl.cmdMlr]
  split
  · exact .refl _ _
  split
  · exact .refl _ _
  · exact .of_report ((registerMulticastListener_takes _ _).mono ((exchanges_le (by decide)).trans hwait)) _

theorem cmdAnnounce_steady (args : List Text) : Steady limit cli (cli.cmdAnnounce args).2 := by
  rw [Repl.cmdAnnounce.eq_def]
  split
  · split
    · exact .of_finish ((proxiedCommand_takes _ _).mono (exchange_le.trans hwait))
    · exact .refl _ _
  · exact .refl _ _

end Devices

variable [AddressTexts] [ConsoleTexts] (name : Text) (args : List Text)

theorem cmdPanid_steady (hwait : among ["query"] (name :: args) = true → commandKeepaliveHeadroom ≤ limit) :
    Steady limit cli (cli.cmdPanid args).2 := by
  rw [Repl.cmdPanid.eq_def]
  split
  · exact .refl _ _
  · next subcommand rest =>
    split
    · next hquery =>
      have hallowed := hwait (among_of_spells hquery (by simp))
      rw [Repl.panidQuery.eq_def]
      split
      · split
        · exact pumping_steady hallowed (proxiedCommand_takes _ _)
        · exact .refl _ _
      · exact .refl _ _
    split
    · exact .refl _ _
    · exact .refl _ _

theorem cmdEnergy_steady (hwait : among ["scan"] (name :: args) = true → commandKeepaliveHeadroom ≤ limit) :
    Steady limit cli (cli.cmdEnergy args).2 := by
  rw [Repl.cmdEnergy.eq_def]
  split
  · exact .refl _ _
  · next subcommand rest =>
    split
    · next hscan =>
      have hallowed := hwait (among_of_spells hscan (by simp))
      rw [Repl.energyScanCommand.eq_def]
      split
      · split
        · exact pumping_steady hallowed (proxiedCommand_takes _ _)
        · exact .refl _ _
      · exact .refl _ _
    split
    · exact .refl _ _
    · exact .refl _ _

variable [Hex]

theorem opDatasetWhole_steady (hwait : commandKeepaliveHeadroom ≤ limit) (isSet pending : Bool) (rest : List Text) :
    Steady limit cli (cli.opDatasetWhole isSet pending rest).2 := by
  have hallowed := exchange_le.trans hwait
  rw [Repl.opDatasetWhole.eq_def]
  split
  · split
    · exact .refl _ _
    split
    · exact .refl _ _
    · refine .of_finish ?_
      split
      · exact (writeDataset_takes _ _ _).mono hallowed
      · exact (writeDataset_takes _ _ _).mono hallowed
  · refine .of_report ?_ _
    split
    · exact (readDataset_takes _ _).mono hallowed
    · exact (getActiveDataset_takes _).mono hallowed

theorem opDatasetField_steady (hwait : commandKeepaliveHeadroom ≤ limit) (field : Text) (rest : List Text) :
    Steady limit cli (cli.opDatasetFieldSet field rest).2 ∧ Steady limit cli (cli.opDatasetFieldGet field).2 := by
  constructor
  · rw [Repl.opDatasetFieldSet]
    split
    · exact .of_finish ((setActiveField_takes _).mono ((exchanges_le (by decide)).trans hwait))
    · exact .refl _ _
    · exact .refl _ _
  · exact .of_report ((getActiveDataset_takes _).mono (exchange_le.trans hwait)) _

theorem cmdOpDataset_steady (hwait : among ["get", "set"] (name :: args) = true → commandKeepaliveHeadroom ≤ limit) :
    Steady limit cli (cli.cmdOpDataset args).2 := by
  rw [Repl.cmdOpDataset.eq_def]
  split
  · next subcommand field rest =>
    split
    · exact .refl _ _
    · next hword =>
      have hallowed : commandKeepaliveHeadroom ≤ limit := by
        by_cases hget : Spells subcommand "get"
        · exact hwait (among_of_spells hget (by simp))
        · by_cases hset : Spells subcommand "set"
          · exact hwait (among_of_spells hset (by simp))
          · exact absurd ⟨hget, hset⟩ hword
      refine .of_ifConnected ?_
      split
      · exact opDatasetWhole_steady hallowed _ _ rest
      split
      · exact (opDatasetField_steady hallowed field rest).1
      · exact (opDatasetField_steady hallowed field rest).2
  · exact .refl _ _

theorem netdiagQuery_steady (hwait : commandKeepaliveHeadroom ≤ limit) (flags : UInt64) (address : Text) :
    Steady limit cli (cli.netdiagQuery flags address).2 := by
  rw [Repl.netdiagQuery]
  split
  · exact .refl _ _
  · exact .of_report ((getDiagnostics_takes _ _).mono (exchange_le.trans hwait)) _

theorem cmdNetdiag_steady (hwait : among ["query", "reset"] (name :: args) = true → commandKeepaliveHeadroom ≤ limit) :
    Steady limit cli (cli.cmdNetdiag args).2 := by
  rw [Repl.cmdNetdiag.eq_def]
  split
  · next subcommand first rest =>
    refine .of_ifConnected ?_
    split
    · next hquery =>
      have hallowed := hwait (among_of_spells hquery (by simp))
      split
      · exact netdiagQuery_steady hallowed _ _
      split
      · exact netdiagQuery_steady hallowed _ _
      split
      · exact netdiagQuery_steady hallowed _ _
      · exact .refl _ _
    split
    · next hreset =>
      have hallowed := hwait (among_of_spells hreset (by simp))
      rw [Repl.netdiagReset.eq_def]
      split
      · split
        · exact .refl _ _
        split
        · exact .refl _ _
        · exact .of_finish ((diagnosticReset_takes _ _).mono (exchange_le.trans hallowed))
      · exact .refl _ _
    · exact .refl _ _
  · exact .refl _ _

/-- What a command may take: the headroom if it is known to wait, and no time
otherwise. -/
def allowance (tokens : List Text) : ℕ := if commandMayWaitForCommissioner tokens then commandKeepaliveHeadroom else 0

/-- All commands but `start` and `stop` leave the session alone and end in time. -/
theorem dispatch_steady [Instants] (dial : Dial) (name : Text) (args : List Text)
    (hstart : Command.named name ≠ some .start) (hstop : Command.named name ≠ some .stop) :
    Steady (allowance (name :: args)) cli (cli.dispatch dial name args).2 := by
  have hwaits : commandMayWaitForCommissioner (name :: args) = true →
      commandKeepaliveHeadroom ≤ allowance (name :: args) := fun h => (if_pos h).ge
  rw [commandMayWaitForCommissioner, List.head?_cons, Option.bind_some] at hwaits
  rw [Repl.dispatch]
  cases hnamed : Command.named name with
  | none => exact .refl _ _
  | some command =>
    rw [hnamed] at hwaits hstart hstop
    cases command with
    | start => exact absurd rfl hstart
    | stop => exact absurd rfl hstop
    | help | state | active | sessionid | token | registry => exact .refl _ _
    | exit => exact .of_fields _ cli _ _ _ true
    | config => exact cmdConfig_steady args
    | borderagent => exact cmdBorderAgent_steady name args hwaits
    | joiner => exact .of_resume (cmdJoiner_rel name args hwaits)
    | commdataset => exact cmdCommDataset_steady name args hwaits
    | opdataset => exact cmdOpDataset_steady name args hwaits
    | bbrdataset => exact cmdBbrDataset_steady name args hwaits
    | reenroll | domainreset | migrate =>
      exact cmdManaged_steady (hwaits rfl) _ (fun _ _ => proxiedCommand_takes _ _) args
    | mlr => exact cmdMlr_steady (hwaits rfl) args
    | announce => exact cmdAnnounce_steady (hwaits rfl) args
    | panid => exact cmdPanid_steady name args hwaits
    | energy => exact cmdEnergy_steady name args hwaits
    | netdiag => exact cmdNetdiag_steady name args hwaits

end Commands

end ThreadCommissioner.CommandTimes
