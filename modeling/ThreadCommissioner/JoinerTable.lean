import ThreadCommissioner.Revocation

namespace ThreadCommissioner.JoinerTable

open ByteStrings Commissioners Computations Errors Exchanges JoinerCommands JoinerExchange JoinerSessions List
open Primitives Revocation Steering Texts

theorem pskdOf_enableJoinerId (handler : StaticJoinerHandler) (enabled joinerId : ByteVector 8) (pskd : Text) :
    (handler.enableJoinerId enabled pskd).pskdOf joinerId =
      if enabled = joinerId then some pskd else handler.pskdOf joinerId := by
  unfold StaticJoinerHandler.pskdOf StaticJoinerHandler.enableJoinerId StaticJoinerHandler.disableJoinerId
  induction handler.byJoinerId with
  | nil => grind
  | cons entry entries ih => grind

section Tables

variable [Suite] {cli cli₁ : Interpreter} {c : Commissioner StaticJoinerHandler}

/-- The commissioner asks the handler that is built from the table of joiners. -/
def Installed (cli : Interpreter) : Prop :=
  ∀ c, cli.commissioner = some c → c.joinerHandler = some cli.buildJoinerHandler

def SameHandler (c c' : Commissioner StaticJoinerHandler) : Prop := c'.joinerHandler = c.joinerHandler

theorem ambient_sameHandler : Ambient SameHandler where
  refl _ := rfl
  trans h h' := h'.trans h
  idle _ _ _ _ _ _ _ := rfl
  outgoing := by
    rintro c _ ⟨_, _, _, rfl, -⟩
    rfl
  relay port locator iid payload c := handler_handleRelayRx port locator iid payload c

theorem installed_reinstall (cli : Interpreter) : Installed cli.reinstallJoinerHandler := by
  intro c hc
  obtain ⟨_, -, rfl⟩ := Option.map_eq_some_iff.mp hc
  rfl

theorem Installed.perform (h : Installed cli) (hc : cli.commissioner = some c) {α : Type}
    {op : CommissionerM StaticJoinerHandler α} (hop : Respects SameHandler op)
    {res : Except Error α} (hrun : cli.perform c op = (res, cli₁)) : Installed cli₁ := by
  cases hrun
  intro c' hc'
  cases hc'
  exact (hop c).trans (h c hc)

theorem Installed.cmdJoiner (h : Installed cli) (toks : List Text) : Installed (cli.cmdJoiner toks).2 := by
  have hkept := ambient_sameHandler
  unfold Interpreter.cmdJoiner Interpreter.joinerEnable Interpreter.joinerEnableAll Interpreter.joinerDisable
    Interpreter.joinerDisableAll Interpreter.joinerGetPort Interpreter.joinerSetPort
  split
  · split
    · exact h
    split
    · exact h
    cases hc : cli.commissioner with
    | none => exact h
    | some c =>
      dsimp only
      -- a branch that changes the table ends with a new handler
      repeat' split
      all_goals first
        | exact h
        | exact installed_reinstall _
        | exact h.perform hc (respects_enableJoiner hkept _) ‹_›
        | exact h.perform hc (respects_enableAllJoiners hkept _) ‹_›
        | exact h.perform hc (respects_getCommissionerDataset hkept _) ‹_›
        | exact h.perform hc (respects_setCommissionerDataset hkept _) rfl
  · exact h

theorem Installed.step (h : Installed cli) (step : CliStep) : Installed (step.run cli) := by
  cases step with
  | joiner tokens => exact h.cmdJoiner tokens
  | received message =>
    intro c' hc'
    obtain ⟨c, hc, rfl⟩ := Option.map_eq_some_iff.mp hc'
    have hkept : SameHandler c _ := ambient_sameHandler.surroundings.handleIncoming none message c
    exact hkept.trans (h c hc)
  | advance elapsed =>
    intro c' hc'
    obtain ⟨c, hc, rfl⟩ := Option.map_eq_some_iff.mp hc'
    exact h c hc

theorem Installed.run (h : Installed cli) (steps : List CliStep) : Installed (runSteps steps cli) := by
  induction steps generalizing cli with
  | nil => exact h
  | cons step steps ih => exact ih (h.step step)

/-- The secret that the table has for the joiner. -/
def listed (cli : Interpreter) (joinerId : ByteVector 8) : Option Text :=
  ((cli.joinerPskds.reverse.find? (·.1 = joinerId)).map Prod.snd).or cli.joinerAllPskd

theorem pskdOf_build (cli : Interpreter) (joinerId : ByteVector 8) :
    cli.buildJoinerHandler.pskdOf joinerId = listed cli joinerId := by
  unfold Interpreter.buildJoinerHandler listed
  induction cli.joinerPskds using List.reverseRecOn with
  | nil => cases cli.joinerAllPskd <;> rfl
  | append_singleton entries entry ih =>
    rw [foldl_append, foldl_cons, foldl_nil, pskdOf_enableJoinerId, ih, reverse_append]
    grind

/-- Whatever commands are given, with whatever success, and whatever arrives
between them, the commissioner looks joiners up in the table as it is then. -/
theorem lookups_follow_the_table (start : Interpreter) (hstart : Installed start) (steps : List CliStep)
    (hconnected : (runSteps steps start).commissioner.isSome) (joinerId : ByteVector 8) :
    lookedUp joinerId (runSteps steps start) = listed (runSteps steps start) joinerId := by
  obtain ⟨c, hc⟩ := Option.isSome_iff_exists.mp hconnected
  rw [lookedUp, hc, Option.bind_some, hstart.run steps c hc]
  exact pskdOf_build _ joinerId

end Tables

attribute [local instance] Residues.residues

theorem lookups_follow_the_table_residues : lookedUp (computeJoinerId 0)
    (runSteps [.joiner (joinerTokens enableText [zeroText, residuePskd])] residueCli) = some residuePskd := by
  have hreached : runSteps [.joiner (joinerTokens enableText [zeroText, residuePskd])] residueCli = _ :=
    congrArg Prod.snd enable_residues
  rw [lookups_follow_the_table residueCli (fun c hc => by cases hc; rfl) _ (by rw [hreached]; rfl), hreached]
  simp [listed]

end ThreadCommissioner.JoinerTable
