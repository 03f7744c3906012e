import ThreadCommissioner.SessionState

namespace ThreadCommissioner.PrefixCache

open ByteStrings Commissioners Computations Datasets Errors Exchanges JoinerSessions List Operations
open Primitives Requests Residues SessionState Tlvs

section Keeping

variable [Suite] {H : Type} {c c₁ c₂ c₃ : Commissioner H} {mesh : ByteVector 8}

/-- Events are only added, and a prefix that is cached afterwards was cached
before, with no dataset change among them. -/
def Keeps (c c' : Commissioner H) : Prop :=
  ∃ later, c'.events = c.events ++ later ∧
    ∀ meshLocalPrefix, c'.meshLocalPrefix = some meshLocalPrefix →
      c.meshLocalPrefix = some meshLocalPrefix ∧ .datasetChanged ∉ later

theorem Keeps.refl (c : Commissioner H) : Keeps c c := ⟨[], (append_nil _).symm, fun _ hcached => ⟨hcached, not_mem_nil⟩⟩

theorem Keeps.trans (h : Keeps c₁ c₂) (h' : Keeps c₂ c₃) : Keeps c₁ c₃ := by
  obtain ⟨later, hevents, hcached⟩ := h
  obtain ⟨later', hevents', hcached'⟩ := h'
  refine ⟨later ++ later', by rw [hevents', hevents, append_assoc], fun mesh hstored => ?_⟩
  obtain ⟨hmiddle, hlater'⟩ := hcached' _ hstored
  obtain ⟨hstart, hlater⟩ := hcached _ hmiddle
  exact ⟨hstart, not_mem_append hlater hlater'⟩

variable [JoinerHandler H]

theorem unconditional_keeps : Unconditional (Keeps : Commissioner H → Commissioner H → Prop) := by
  refine unconditional_of_volatile .refl .trans fun c _ _ _ _ cached _ _ _ later _ _ hcached => ⟨later, rfl, ?_⟩
  intro mesh hstored
  rcases hcached with rfl | ⟨rfl, hlater⟩
  · cases hstored
  · exact ⟨hstored, hlater⟩

/-- From the first state on, the active dataset was fetched with the prefix in
it, and since it was received no dataset change has been queued. -/
def Fetched (meshLocalPrefix : ByteVector 8) (c c' : Commissioner H) : Prop :=
  ∃ raw c₁ dataset later,
    (getRawActiveDataset DatasetFlags.meshLocalPrefix).run c = .ok raw c₁ ∧ Dataset.fromBytes raw = .ok dataset ∧
    dataset.meshLocalPrefix = .ok (some meshLocalPrefix) ∧ meshLocalPrefix.head = 0xfd ∧
    c'.events = c₁.events ++ later ∧ .datasetChanged ∉ later

/-- Events are only added, and a prefix that is cached afterwards is kept or
fetched. -/
def KeepsOrFetches (c c' : Commissioner H) : Prop :=
  ∃ later, c'.events = c.events ++ later ∧
    ∀ meshLocalPrefix, c'.meshLocalPrefix = some meshLocalPrefix →
      c.meshLocalPrefix = some meshLocalPrefix ∧ .datasetChanged ∉ later ∨ Fetched meshLocalPrefix c c'

theorem Fetched.after (h : Fetched mesh c₁ c₂) {later : List CommissionerEvent}
    (hevents : c₃.events = c₂.events ++ later) (hlater : .datasetChanged ∉ later) : Fetched mesh c₁ c₃ := by
  obtain ⟨raw, c, ds, since, hrun, hdataset, hstored, hhead, heq, hsince⟩ := h
  refine ⟨raw, c, ds, since ++ later, hrun, hdataset, hstored, hhead, ?_, not_mem_append hsince hlater⟩
  rw [hevents, heq, append_assoc]

theorem Keeps.keepsOrFetches (h : Keeps c c₁) : KeepsOrFetches c c₁ := by
  obtain ⟨later, hevents, hcached⟩ := h
  exact ⟨later, hevents, fun _ hstored => .inl (hcached _ hstored)⟩

theorem KeepsOrFetches.after (h : KeepsOrFetches c₁ c₂) (h' : Keeps c₂ c₃) : KeepsOrFetches c₁ c₃ := by
  obtain ⟨later, hevents, hcached⟩ := h
  obtain ⟨later', hevents', hcached'⟩ := h'
  refine ⟨later ++ later', by rw [hevents', hevents, append_assoc], fun mesh hstored => ?_⟩
  obtain ⟨hmiddle, hlater'⟩ := hcached' _ hstored
  rcases hcached _ hmiddle with ⟨hstart, hlater⟩ | hfetched
  · exact .inl ⟨hstart, not_mem_append hlater hlater'⟩
  · exact .inr (hfetched.after hevents' hlater')

theorem requireMeshLocalPrefix_keepsOrFetches :
    Respects KeepsOrFetches (requireMeshLocalPrefix : CommissionerM H (ByteVector 8)) := by
  intro c
  have hget := unconditional_keeps (H := H).getRawActiveDataset (fun _ => carriedBy_true _) DatasetFlags.meshLocalPrefix
  rw [requireMeshLocalPrefix, get_bind]
  split
  · exact (Keeps.refl c).keepsOrFetches
  · cases hrun : (getRawActiveDataset DatasetFlags.meshLocalPrefix).run c with
    | error e c₁ =>
      rw [bind_of_error hrun]
      exact (hget.of_error hrun).keepsOrFetches
    | ok raw c₁ =>
      have hkeeps := hget.of_ok hrun
      rw [bind_of_ok hrun]
      refine finalState_lift_bind (P := KeepsOrFetches c) hkeeps.keepsOrFetches fun ds hdataset => ?_
      refine finalState_lift_bind (P := KeepsOrFetches c) hkeeps.keepsOrFetches fun found hfound => ?_
      refine finalState_lift_bind (P := KeepsOrFetches c) hkeeps.keepsOrFetches fun fetched hfetched => ?_
      refine finalState_lift_bind (P := KeepsOrFetches c) hkeeps.keepsOrFetches fun _ hhead => ?_
      obtain rfl := okOr_eq_ok.mp hfetched
      obtain ⟨later, hevents, -⟩ := hkeeps
      refine ⟨later, hevents, fun mesh hstored => .inr ?_⟩
      obtain rfl : fetched = mesh := Option.some.inj hstored
      exact ⟨raw, c₁, ds, [], hrun, hdataset, hfound, ensure_eq_ok.mp hhead, (append_nil _).symm, not_mem_nil⟩

theorem fetching_keeps : Fetching (Keeps : Commissioner H → Commissioner H → Prop) KeepsOrFetches where
  unconditional := unconditional_keeps
  refl c := (Keeps.refl c).keepsOrFetches
  after := .after
  fetch := requireMeshLocalPrefix_keepsOrFetches

theorem petition_keeps (cfg : CommissionerConfig) (c : Commissioner H) : Keeps c (finalState ((petition cfg).run c)) := by
  by_cases hconn : c.state = .connected
  · by_cases hid : cfg.commissionerId.bytes.length ≤ maxExtendedTlvLength
    · obtain ⟨c₁, hkeeps, ⟨e, hrun⟩ | ⟨resp, hrun⟩⟩ := petition_cases unconditional_keeps hid hconn
      · rw [hrun]
        exact hkeeps
      · rw [hrun]
        exact hkeeps
    · obtain ⟨e, hrun⟩ := petition_of_long (Nat.not_le.mp hid) hconn
      rw [hrun]
      exact .refl c
  · obtain ⟨e, hrun⟩ := petition_of_ne cfg hconn
    rw [hrun]
    exact .refl c

theorem keepAlive_keeps : Respects Keeps (keepAlive : CommissionerM H ResultCode) := by
  intro c
  rcases keepAlive_concludes unconditional_keeps c with ⟨e, c₁, hrun, hkeeps⟩ | ⟨result, c₁, hrun, hkeeps⟩
  · rw [hrun]
    exact hkeeps
  · rw [hrun]
    refine hkeeps.trans ⟨[.keepAliveResponse result], ?_, fun _ hstored => ⟨?_, by simp⟩⟩
    · rw [finalState, keptAlive]
      split <;> rfl
    · rw [finalState, keptAlive] at hstored
      split at hstored <;> exact hstored

theorem resign_keeps : Respects Keeps (resign : CommissionerM H Unit) := by
  intro c
  rcases resign_concludes unconditional_keeps c with ⟨e, c₁, hrun, hkeeps⟩ | ⟨_, c₁, hrun, hkeeps⟩
  · rw [hrun]
    exact hkeeps
  · rw [hrun]
    exact hkeeps.trans ⟨[], (append_nil _).symm, nofun⟩

end Keeping

section Steps

variable [Suite] {H : Type} {c : Commissioner H}

def handedOut : Except Error Reply → List CommissionerEvent
  | .ok (.event (some event)) => [event]
  | _ => []

theorem handedOut_return {α : Type} (x : CommissionerM H α) {f : α → Reply} (hf : ∀ a event, f a ≠ .event event) :
    handedOut (outcome ((x >>= fun a => pure (f a)).run c)) = [] := by
  cases hrun : x.run c with
  | error e c₁ =>
    rw [bind_of_error hrun]
    rfl
  | ok a c₁ =>
    rw [bind_of_ok hrun]
    change handedOut (.ok (f a)) = []
    cases ha : f a with
    | event event => exact absurd ha (hf a event)
    | _ => rfl

variable [AddressTexts] [JoinerHandler H]

/-- Where an operation may fetch the prefix from: at its start, and when a
joiner is added once more after the steering data is read. -/
def FetchesFrom (call : Call H) (c c₀ : Commissioner H) : Prop :=
  c₀ = c ∨ ∃ joinerId current, call = .enableJoiner joinerId ∧
    (getCommissionerDataset CommissionerDatasetFlags.steeringData).run c = .ok current c₀

def Refreshes (call : Call H) (c : Commissioner H) (r : EStateM.Result Error (Commissioner H) Reply) : Prop :=
  ∃ later, handedOut (outcome r) ++ (finalState r).events = c.events ++ later ∧
    ∀ meshLocalPrefix, (finalState r).meshLocalPrefix = some meshLocalPrefix →
      c.meshLocalPrefix = some meshLocalPrefix ∧ .datasetChanged ∉ later ∨
      ∃ c₀, FetchesFrom call c c₀ ∧ Fetched meshLocalPrefix c₀ (finalState r)

variable (cfg : CommissionerConfig)

theorem handedOut_perform {call : Call H} (h : call ≠ .nextEvent) (c : Commissioner H) :
    handedOut (outcome ((call.perform cfg).run c)) = [] := by
  cases call with
  | nextEvent => exact absurd rfl h
  | _ => exact handedOut_return _ fun _ _ => nofun

theorem KeepsOrFetches.refreshes {cfg : CommissionerConfig} {call : Call H} (hcall : call ≠ .nextEvent)
    (h : KeepsOrFetches c (finalState ((call.perform cfg).run c))) : Refreshes call c ((call.perform cfg).run c) := by
  obtain ⟨later, hevents, hcached⟩ := h
  refine ⟨later, by rw [handedOut_perform cfg hcall, nil_append, hevents], fun mesh hstored => ?_⟩
  exact (hcached _ hstored).imp_right fun hfetched => ⟨c, .inl rfl, hfetched⟩

theorem nextEvent_refreshes (c : Commissioner H) : Refreshes .nextEvent c ((Call.perform cfg .nextEvent).run c) := by
  rcases nextEvent_cases unconditional_keeps c with ⟨e, c₁, hrun, hkeeps⟩ | ⟨event, events, c₁, hrun, hevents, hkeeps⟩
  · obtain ⟨later, hlater, hcached⟩ := hkeeps
    rw [Call.perform, bind_of_error hrun]
    exact ⟨later, hlater, fun _ hstored => .inl (hcached _ hstored)⟩
  · obtain ⟨later, hlater, hcached⟩ := hkeeps
    rw [Call.perform, bind_of_ok hrun]
    exact ⟨later, hevents.symm.trans hlater, fun _ hstored => .inl (hcached _ hstored)⟩

theorem enableJoiner_refreshes (jid : ByteVector 8) (c : Commissioner H) :
    Refreshes (.enableJoiner jid) c ((Call.perform cfg (.enableJoiner jid)).run c) := by
  have hgets := fetching_keeps.getCommissionerDataset (H := H) CommissionerDatasetFlags.steeringData
  cases hrun : (getCommissionerDataset CommissionerDatasetFlags.steeringData).run c with
  | error e c₁ =>
    refine KeepsOrFetches.refreshes (by simp) ?_
    rw [Call.perform, quietly, finalState_bind_pure, Exchanges.enableJoiner, bind_of_error hrun]
    exact hgets.of_error hrun
  | ok current c₁ =>
    obtain ⟨later, hevents, hcached⟩ := hgets.of_ok hrun
    have hfinal : KeepsOrFetches c₁ (finalState ((Call.perform cfg (.enableJoiner jid)).run c)) := by
      rw [Call.perform, quietly, finalState_bind_pure, Exchanges.enableJoiner, bind_of_ok hrun]
      exact fetching_keeps.setCommissionerDataset _ c₁
    obtain ⟨later', hevents', hcached'⟩ := hfinal
    refine ⟨later ++ later', ?_, fun mesh hstored => ?_⟩
    · have hnone := handedOut_perform cfg (show Call.enableJoiner jid ≠ .nextEvent by simp) c
      rw [hnone, nil_append, hevents', hevents, append_assoc]
    · rcases hcached' _ hstored with ⟨hmiddle, hlater'⟩ | hfetched
      · rcases hcached _ hmiddle with ⟨hstart, hlater⟩ | hfetched
        · exact .inl ⟨hstart, not_mem_append hlater hlater'⟩
        · exact .inr ⟨c, .inl rfl, hfetched.after hevents' hlater'⟩
      · exact .inr ⟨c₁, .inr ⟨jid, current, rfl, hrun⟩, hfetched⟩

theorem refreshes_perform (call : Call H) (c : Commissioner H) : Refreshes call c ((call.perform cfg).run c) := by
  have hkept : call ≠ .nextEvent → Keeps c (finalState ((call.perform cfg).run c)) →
      Refreshes call c ((call.perform cfg).run c) := fun hcall hkeeps => hkeeps.keepsOrFetches.refreshes hcall
  by_cases hexchanges : call.exchanges = true
  · refine KeepsOrFetches.refreshes ?_ (fetching_keeps.perform cfg hexchanges c)
    rintro rfl
    cases hexchanges
  cases call with
  | nextEvent => exact nextEvent_refreshes cfg c
  | enableJoiner joinerId => exact enableJoiner_refreshes cfg joinerId c
  | petition =>
    refine hkept (by simp) ?_
    rw [Call.perform, finalState_bind_pure]
    exact petition_keeps cfg c
  | keepAlive =>
    refine hkept (by simp) ?_
    rw [Call.perform, finalState_bind_pure]
    exact keepAlive_keeps c
  | resign =>
    refine hkept (by simp) ?_
    rw [Call.perform, quietly, finalState_bind_pure]
    exact resign_keeps c
  | disconnect => exact hkept (by simp) ⟨[], (append_nil _).symm, fun _ h => by cases h⟩
  | setJoinerHandler handler => exact hkept (by simp) (.refl c)
  | clearJoinerHandler => exact hkept (by simp) (.refl c)
  | _ => exact absurd rfl hexchanges

end Steps

section Runs

variable [Suite] [AddressTexts] {H : Type} [JoinerHandler H] {c : Commissioner H}

def queuedIn (config : CommissionerConfig) (step : Step H) (c : Commissioner H) : List CommissionerEvent :=
  (handedOut (outcome ((step.perform config).run c)) ++ (finalState ((step.perform config).run c)).events).drop
    c.events.length

/-- The step fetched the active dataset with the prefix in it, and has queued no
dataset change since it was received. -/
def FetchedIn (config : CommissionerConfig) (meshLocalPrefix : ByteVector 8) (step : Step H) (c : Commissioner H) : Prop :=
  ∃ c₀, FetchesFrom step.call { c with now := c.now + step.elapsed, network := step.network } c₀ ∧
    Fetched meshLocalPrefix c₀ (finalState ((step.perform config).run c))

theorem refreshes_step (cfg : CommissionerConfig) (step : Step H) {mesh : ByteVector 8}
    (h : (finalState ((step.perform cfg).run c)).meshLocalPrefix = some mesh) :
    (c.meshLocalPrefix = some mesh ∧ .datasetChanged ∉ queuedIn cfg step c) ∨ FetchedIn cfg mesh step c := by
  obtain ⟨later, hevents, hcached⟩ := refreshes_perform cfg step.call
    { c with now := c.now + step.elapsed, network := step.network }
  have hqueued : queuedIn cfg step c = later := by
    rw [queuedIn]
    exact (congrArg (List.drop c.events.length) hevents).trans drop_left
  rw [hqueued]
  exact hcached mesh h

/-- A step of the run fetched the prefix, and since then the handle has neither
queued a dataset change nor been disconnected. -/
def Fresh (config : CommissionerConfig) (start : Commissioner H) (steps : List (Step H)) (meshLocalPrefix : ByteVector 8) :
    Prop :=
  ∃ before step after, steps = before ++ step :: after ∧
    FetchedIn config meshLocalPrefix step (runAll (Step.perform config) before start).1 ∧
    ∀ middle, middle <+: after →
      (runAll (Step.perform config) middle
        (finalState ((step.perform config).run (runAll (Step.perform config) before start).1))).1.state ≠ .disabled ∧
      ∀ next, middle ++ [next] <+: after →
        .datasetChanged ∉ queuedIn config next (runAll (Step.perform config) middle
          (finalState ((step.perform config).run (runAll (Step.perform config) before start).1))).1

/-- In every run of operations, a cached mesh-local prefix begins with 0xfd and
is that of an active dataset received since the last dataset change and the last
disconnect. -/
theorem cached_prefix_is_fresh (config : CommissionerConfig) (borderAgent : IpAddr) (now : ℕ) (rng : Rng)
    (network : Network) (steps : List (Step H)) (meshLocalPrefix : ByteVector 8)
    (hcached : (runAll (Step.perform config) steps (connected borderAgent now rng network)).1.meshLocalPrefix =
      some meshLocalPrefix) :
    meshLocalPrefix.head = 0xfd ∧ Fresh config (connected borderAgent now rng network) steps meshLocalPrefix := by
  have hstart : Booked (connected borderAgent now rng network : Commissioner H) :=
    booked_connected borderAgent now rng network
  obtain ⟨before, step, after, rfl, hfetched, hall, hsteps⟩ := runAll_origin
    (I := Booked) (P := fun c : Commissioner H => c.meshLocalPrefix = some meshLocalPrefix)
    (fun step c h => (books_step config step h).1) (fun step c _ => refreshes_step config step) hstart nofun hcached
  have hhead : meshLocalPrefix.head = 0xfd := by
    obtain ⟨_, -, _, _, _, _, -, -, -, hhead, -⟩ := hfetched
    exact hhead
  refine ⟨hhead, before, step, after, rfl, hfetched, fun middle hmiddle => ⟨fun hdisabled => ?_, hsteps middle⟩⟩
  have hbooked := booked_run config middle (books_step config step (booked_run config before hstart)).1
  cases (hbooked.disabled hdisabled).2.symm.trans (hall middle hmiddle)

end Runs

section Example

attribute [local instance] residues noTexts

/-- A change of the dataset that is to be acknowledged. -/
def changeNotice : Bytes := [0x40, 0x02, 0x00, 0x07, 0xb1, 0x63, 0x02, 0x64, 0x63]

/-- The answer to the first request: an active dataset with a prefix. -/
def prefixAnswer : Bytes :=
  [0x62, 0x45, 0x00, 0x01, 0x00, 0x01, 0xff, 0x07, 0x08, 0xfd, 0x01, 0x02, 0x03, 0x04, 0x05, 0x06, 0x07]

/-- The dataset changes while it is fetched. -/
def fetchingStep : Step StaticJoinerHandler :=
  ⟨0, ⟨[], [], [⟨0, .ok changeNotice⟩, ⟨0, .ok prefixAnswer⟩]⟩, .getCommissionerDataset 0⟩

theorem cached_prefix_is_fresh_residues :
    .datasetChanged ∈ queuedIn ⟨asciiText 1, 30 * 10 ^ 9, false⟩ fetchingStep residueHandle ∧
      (runAll (Step.perform ⟨asciiText 1, 30 * 10 ^ 9, false⟩) [fetchingStep] residueHandle).1.meshLocalPrefix =
        some ⟨[0xfd, 0x01, 0x02, 0x03, 0x04, 0x05, 0x06, 0x07], rfl⟩ ∧
      Fresh ⟨asciiText 1, 30 * 10 ^ 9, false⟩ residueHandle [fetchingStep]
        ⟨[0xfd, 0x01, 0x02, 0x03, 0x04, 0x05, 0x06, 0x07], rfl⟩ := by
  have hcached : (runAll (Step.perform ⟨asciiText 1, 30 * 10 ^ 9, false⟩) [fetchingStep] residueHandle).1.meshLocalPrefix =
      some ⟨[0xfd, 0x01, 0x02, 0x03, 0x04, 0x05, 0x06, 0x07], rfl⟩ := by decide +kernel
  have hchanged : .datasetChanged ∈ queuedIn ⟨asciiText 1, 30 * 10 ^ 9, false⟩ fetchingStep residueHandle := by
    decide +kernel
  exact ⟨hchanged, hcached, (cached_prefix_is_fresh _ _ _ _ _ _ _ hcached).2⟩

end Example

end ThreadCommissioner.PrefixCache
