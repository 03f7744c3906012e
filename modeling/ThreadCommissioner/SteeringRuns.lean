import ThreadCommissioner.Admission
import ThreadCommissioner.Revocation
import ThreadCommissioner.Writes

namespace ThreadCommissioner.SteeringRuns

open Admission ByteStrings Coap Commissioners Computations Datasets Diagnostics Exchanges List
open JoinerCommands JoinerSessions Meshcop Operations Primitives Residues Steering Texts Tlvs
open Writes

section Leader

variable {data value : Bytes} {m request : CoapMessage} {ms : List CoapMessage}

/-- The steering data of a leader that stores what is set, after a message has
gone out. -/
def stores (data : Bytes) (message : CoapMessage) : Bytes :=
  match carried message with
  | none => data
  | some request =>
    if request.uriPath = .ok (some Uri.mgmtCommissionerSet) then
      match TlvSet.parse request.payload with
      | .ok tlvs => (tlvs.lastValue tlvSteeringData).getD data
      | .error _ => data
    else data

def stored (data : Bytes) (messages : List CoapMessage) : Bytes := messages.foldl stores data

def Steers (value payload : Bytes) : Prop :=
  ∃ tlvs, TlvSet.parse payload = .ok tlvs ∧ tlvs.lastValue tlvSteeringData = some value

theorem isSet_of_uriPath (h : request.uriPath = .ok (some Uri.mgmtCommissionerSet)) : IsSet request :=
  ⟨.setCommissionerDataset, by decide, h⟩

theorem stores_of_steers (hcarried : carried m = some request)
    (huri : request.uriPath = .ok (some Uri.mgmtCommissionerSet)) (h : Steers value request.payload) :
    stores data m = value := by
  obtain ⟨tlvs, hparse, hvalue⟩ := h
  simp only [stores, hcarried, huri, if_true, hparse, hvalue, Option.getD_some]

theorem stores_cases (h : SetsOnly (Steers value) m) (data : Bytes) : stores data m = value ∨ stores data m = data := by
  cases hcarried : carried m with
  | none =>
    rw [stores, hcarried]
    exact .inr rfl
  | some request =>
    by_cases huri : request.uriPath = .ok (some Uri.mgmtCommissionerSet)
    · exact .inl (stores_of_steers hcarried huri (h request hcarried (isSet_of_uriPath huri)))
    · simp only [stores, hcarried, if_neg huri]
      exact .inr trivial

theorem stored_value (h : ∀ m ∈ ms, SetsOnly (Steers value) m) : stored value ms = value := by
  induction ms with
  | nil => rfl
  | cons m ms ih =>
    obtain ⟨hm, hrest⟩ := forall_mem_cons.mp h
    have hstores : stores value m = value := (stores_cases hm value).elim id id
    rw [stored, foldl_cons, hstores]
    exact ih hrest

theorem stored_of_steers (h : ∀ m ∈ ms, SetsOnly (Steers value) m) (hm : m ∈ ms)
    (hcarried : carried m = some request) (huri : request.uriPath = .ok (some Uri.mgmtCommissionerSet))
    (data : Bytes) : stored data ms = value := by
  induction ms generalizing data with
  | nil => cases hm
  | cons first ms ih =>
    obtain ⟨hfirst, hrest⟩ := forall_mem_cons.mp h
    rcases mem_cons.mp hm with rfl | hmem
    · have hsteers := hfirst request hcarried (isSet_of_uriPath huri)
      rw [stored, foldl_cons, stores_of_steers hcarried huri hsteers]
      exact stored_value hrest
    · exact ih hrest hmem _

theorem stored_append (data : Bytes) (ms messages' : List CoapMessage) :
    stored data (ms ++ messages') = stored (stored data ms) messages' := foldl_append

end Leader

section Success

theorem steers_of_leadsWith {sid : UInt16} {value payload : Bytes}
    (h : LeadsWith sid [⟨tlvSteeringData, value⟩] payload) : Steers value payload := by
  obtain ⟨others, hparse, -⟩ := h
  refine ⟨_, hparse, ?_⟩
  rw [TlvSet.lastValue_eq_getLast, ← cons_append, filter_append, map_append]
  exact List.getLast?_concat

variable [Suite] {H : Type} [JoinerHandler H] {c c' : Commissioner H}

def steeringDataset (value : Bytes) : Dataset := Dataset.default.setRaw tlvSteeringData value

theorem executeProxied_eq_ok {req resp : CoapMessage} {dest : Ipv6Addr} (h : (executeProxied req dest).run c = .ok resp c') :
    ∃ (route : MeshcopRoute) (c₁ c₂ : Commissioner H) (m : CoapMessage) (before after : List CoapMessage),
      (wireMessage req route).run c₁ = .ok m c₂ ∧ c'.sent = c.sent ++ (before ++ m :: after) := by
  obtain ⟨answer, c₁, hexecute, h⟩ := bind_eq_ok.mp h
  obtain ⟨_, -, h⟩ := lift_bind_ok.mp h
  obtain ⟨-, rfl⟩ := lift_eq_ok.mp h
  exact ⟨_, execute_eq_ok hexecute⟩

theorem setCommissionerDataset_eq_ok {value : Bytes}
    (h : (setCommissionerDataset (steeringDataset value)).run c = .ok () c') :
    ∃ outgoing, c'.sent = c.sent ++ outgoing ∧ ∀ data, stored data outgoing = value := by
  have hrun := h
  rw [setCommissionerDataset] at h
  obtain ⟨sessionId, c₀, hread, h⟩ := bind_eq_ok.mp h
  obtain ⟨hsess, rfl⟩ := sessionIdRequired_eq_ok hread
  obtain ⟨_, -, h⟩ := lift_bind_ok.mp h
  obtain ⟨leader, c₁, hleader, h⟩ := bind_eq_ok.mp h
  obtain ⟨⟨messageId, token⟩, c₂, hidentity, h⟩ := bind_eq_ok.mp h
  obtain ⟨request, hreq, h⟩ := lift_bind_ok.mp h
  obtain ⟨response, c₃, hexecute, h⟩ := bind_eq_ok.mp h
  obtain ⟨-, rfl⟩ := lift_eq_ok.mp h
  -- The request is among what was sent, and nothing else sets anything.
  obtain ⟨payload, hreq, -⟩ := requestsOf_datasetSetRequest hreq
  obtain ⟨route, c₄, c₅, message, before, after, hwire, hsent⟩ := executeProxied_eq_ok hexecute
  have hs := unconditional_sends (H := H)
  have haloc : Respects (Sends fun _ => True) (leaderAloc : CommissionerM H Ipv6Addr) :=
    (fetching_of_cached hs fun c _ => hs.refl c).leaderAloc
  obtain ⟨earlier, hearlier, -⟩ := hs.trans (haloc.of_ok hleader) (hs.nextRequestIdentity.of_ok hidentity)
  obtain ⟨outgoing, houtgoing, hall⟩ := setCommissionerDataset_leads (steeringDataset value) hsess
  rw [hrun] at houtgoing
  have hmem : message ∈ outgoing := by
    have heq : c.sent ++ outgoing = c.sent ++ (earlier ++ (before ++ message :: after)) := by
      rw [← houtgoing, ← append_assoc, ← hearlier]
      exact hsent
    rw [append_cancel_left heq]
    simp
  refine ⟨outgoing, houtgoing, fun data => ?_⟩
  refine stored_of_steers (fun message hmem request hcarried hset => ?_) hmem (hreq.carried hwire) hreq.uriPath data
  exact steers_of_leadsWith (hall message hmem request hcarried hset)

theorem getCommissionerDataset_quiet (flags : CommissionerDatasetFlags) :
    Respects (Sends (SetsOnly fun _ => False)) (getCommissionerDataset flags : CommissionerM H Dataset) := by
  have hs := surroundings_setsOnly (H := H) fun _ => False
  refine .bind .trans (.bind .trans (requireMeshLocalPrefix_setsOnly _) fun _ => respects_pure .refl _) fun leader => ?_
  refine .bind .trans hs.nextRequestIdentity fun ⟨messageId, token⟩ => hs.built fun request hreq => ?_
  obtain ⟨payload, hreq⟩ := requestsOf_datasetGetRequest hreq
  have hwire : CarriedBy H (SetsOnly fun _ => False) request := carriedBy_setsOnly hreq fun hset => absurd hset (by decide)
  exact .bind .trans (hs.executeProxied hwire leader) fun _ => respects_lift .refl _

theorem enableJoiner_eq_ok {jid : ByteVector 8} (h : (enableJoiner jid).run c = .ok () c') :
    ∃ current c₁ outs, (getCommissionerDataset CommissionerDatasetFlags.steeringData).run c = .ok current c₁ ∧
      c'.sent = c.sent ++ outs ∧ ∀ data, stored data outs =
        addJoinerToSteeringData ((current.raw tlvSteeringData).getD []) jid.toList := by
  obtain ⟨current, c₁, hget, hset⟩ := bind_eq_ok.mp h
  obtain ⟨reading, hreading, -⟩ := (getCommissionerDataset_quiet _).of_ok hget
  obtain ⟨writing, hwriting, hstored⟩ := setCommissionerDataset_eq_ok hset
  refine ⟨current, c₁, reading ++ writing, hget, ?_, fun data => ?_⟩
  · rw [hwriting, hreading, append_assoc]
  · rw [stored_append, hstored]

end Success

section Enabling

/-- The calls that enable joiners. -/
inductive Enabling
  | joiner (joinerId : ByteVector 8)
  | all

def Enabling.extend (data : Bytes) : Enabling → Bytes
  | .joiner joinerId => addJoinerToSteeringData data joinerId.toList
  | .all => [0xff]

/-- The data has the length of a filter, or it admits nobody, as with no bit set. -/
def Enabling.Safe (data : Bytes) : Enabling → Prop
  | .joiner _ => data.length = maxSteeringDataLen ∨ ∀ other : ByteVector 8, ¬ Admits data other.toList
  | .all => True

def AllSafe : Bytes → List Enabling → Prop
  | _, [] => True
  | data, enabling :: rest => enabling.Safe data ∧ AllSafe (enabling.extend data) rest

variable {data : Bytes} {other : ByteVector 8}

theorem addJoinerToSteeringData_of_length (h : data.length = maxSteeringDataLen) (joinerId : Bytes) :
    addJoinerToSteeringData data joinerId = computeBloomFilter data joinerId := by
  rw [addJoinerToSteeringData, if_pos h]

theorem addJoinerToSteeringData_of_ne (h : data.length ≠ maxSteeringDataLen) (jid : Bytes) :
    addJoinerToSteeringData data jid = filterOf [jid] := by
  rw [addJoinerToSteeringData, if_neg h]
  rfl

theorem Enabling.Safe.admits {enabling : Enabling} (h : enabling.Safe data) (hother : Admits data other.toList) :
    Admits (enabling.extend data) other.toList := by
  cases enabling with
  | all => exact admits_wildcard _
  | joiner joinerId =>
    rcases h with hlen | hnobody
    · rw [Enabling.extend, addJoinerToSteeringData_of_length hlen]
      exact hother.computeBloomFilter (by rw [hlen]; decide) _
    · exact absurd hother (hnobody other)

theorem admits_added (data : Bytes) (jid : ByteVector 8) : Admits ((Enabling.joiner jid).extend data) jid.toList := by
  rw [Enabling.extend, addJoinerToSteeringData]
  refine admits_computeBloomFilter ?_ _
  split
  · next hlen =>
    rw [hlen]
    decide
  · simp [maxSteeringDataLen]

theorem AllSafe.admits {enablings : List Enabling} (h : AllSafe data enablings) (hother : Admits data other.toList) :
    Admits (enablings.foldl Enabling.extend data) other.toList := by
  induction enablings generalizing data with
  | nil => exact hother
  | cons enabling enablings ih => exact ih h.2 (h.1.admits hother)

theorem AllSafe.admits_enabled {enablings : List Enabling} (h : AllSafe data enablings) {enabling : Enabling}
    (hmem : enabling ∈ enablings) (hother : ∀ data, Admits (enabling.extend data) other.toList) :
    Admits (enablings.foldl Enabling.extend data) other.toList := by
  induction enablings generalizing data with
  | nil => cases hmem
  | cons first enablings ih =>
    rcases mem_cons.mp hmem with rfl | hmem
    · exact h.2.admits (hother data)
    · exact ih h.2 hmem

variable [Suite] {H : Type} [JoinerHandler H] {c c' : Commissioner H}

def Enabling.perform : Enabling → CommissionerM H Unit
  | .joiner joinerId => enableJoiner joinerId
  | .all => enableAllJoiners true

/-- One call of a sequence, and what the handle meets from when it is called. -/
structure EnablingStep where
  elapsed : ℕ
  network : Network
  enabling : Enabling

def EnablingStep.found (step : EnablingStep) (c : Commissioner H) : Commissioner H :=
  { c with now := c.now + step.elapsed, network := step.network }

def Answers (data : Bytes) (c : Commissioner H) : Prop :=
  ∀ current c₁, (getCommissionerDataset CommissionerDatasetFlags.steeringData).run c = .ok current c₁ →
    current.raw tlvSteeringData = some data

/-- A sequence of successful calls against a leader that stores what is set:
its data and the handle before and after. -/
inductive EnablingRun : Bytes → Commissioner H → List EnablingStep → Bytes → Commissioner H → Prop
  | nil (data : Bytes) (c : Commissioner H) : EnablingRun data c [] data c
  | cons {data data' : Bytes} {c c₁ c' : Commissioner H} {step : EnablingStep} {steps : List EnablingStep}
      (answers : Answers data (step.found c)) (run : step.enabling.perform.run (step.found c) = .ok () c₁)
      (rest : EnablingRun (stored data (c₁.sent.drop c.sent.length)) c₁ steps data' c') :
      EnablingRun data c (step :: steps) data' c'

theorem stored_step {step : EnablingStep} (hanswers : Answers data (step.found c))
    (h : step.enabling.perform.run (step.found c) = .ok () c') :
    stored data (c'.sent.drop c.sent.length) = step.enabling.extend data := by
  cases henabling : step.enabling with
  | joiner joinerId =>
    rw [henabling] at h
    obtain ⟨current, c₁, outgoing, hget, hsent, hstored⟩ := enableJoiner_eq_ok h
    have hsent' : c'.sent = c.sent ++ outgoing := hsent
    rw [hsent', drop_left, hstored, hanswers current c₁ hget]
    rfl
  | all =>
    rw [henabling] at h
    obtain ⟨outgoing, hsent, hstored⟩ := setCommissionerDataset_eq_ok h
    have hsent' : c'.sent = c.sent ++ outgoing := hsent
    rw [hsent', drop_left, hstored]
    rfl

theorem EnablingRun.stored_eq {data' : Bytes} {steps : List EnablingStep} (h : EnablingRun data c steps data' c') :
    data' = (steps.map EnablingStep.enabling).foldl Enabling.extend data := by
  induction h with
  | nil => rfl
  | cons answers run rest ih =>
    rw [ih, stored_step answers run]
    rfl

/-- In every sequence of successful calls that are all safe, whoever is admitted
before or enabled on the way is admitted at the end. -/
theorem enabled_joiners_stay_admitted {data data' : Bytes} {steps : List EnablingStep}
    (hrun : EnablingRun data c steps data' c') (hsafe : AllSafe data (steps.map EnablingStep.enabling))
    (joinerId : ByteVector 8)
    (hjoiner : Admits data joinerId.toList ∨ .joiner joinerId ∈ steps.map EnablingStep.enabling ∨
      .all ∈ steps.map EnablingStep.enabling) : Admits data' joinerId.toList := by
  rw [hrun.stored_eq]
  rcases hjoiner with hbefore | hmem | hmem
  · exact hsafe.admits hbefore
  · exact hsafe.admits_enabled hmem fun data => admits_added data joinerId
  · exact hsafe.admits_enabled hmem fun _ => admits_wildcard _

end Enabling

section Commands

open Revocation

variable [Suite] {cli cli' : Interpreter} {data data' : Bytes}

/-- One command of a sequence, and what the commissioner meets from when it is
issued. -/
structure JoinerStep where
  elapsed : ℕ
  network : Network
  tokens : List Text

def JoinerStep.found (step : JoinerStep) (cli : Interpreter) : Interpreter :=
  { cli with commissioner := cli.commissioner.map fun c =>
      { c with now := c.now + step.elapsed, network := step.network } }

/-- `joiner enable` or `joiner disable`. -/
def EnablesOrDisables (tokens : List Text) : Prop :=
  ∃ command subcommand joinerType arguments, tokens = command :: subcommand :: joinerType :: arguments ∧
    (subcommand.bytes = ascii "enable" ∨ subcommand.bytes = ascii "disable")

def enabledBy : List Text → Option (ByteVector 8)
  | _ :: subcommand :: _ :: eui64Token :: _ =>
    if subcommand.bytes = ascii "enable" then (parseU64 eui64Token).map computeJoinerId else none
  | _ => none

def enabledIn (steps : List JoinerStep) : List Bytes := (steps.filterMap (enabledBy ·.tokens)).map List.Vector.toList

def tableOf (cli : Interpreter) : List (ByteVector 8) := cli.joinerPskds.map Prod.fst

def tableBy (table : List (ByteVector 8)) : List Text → List (ByteVector 8)
  | _ :: subcommand :: _ :: eui64Token :: _ =>
    match parseU64 eui64Token with
    | none => table
    | some eui64 =>
      let others := table.filter (· ≠ computeJoinerId eui64)
      if subcommand.bytes = ascii "enable" then others ++ [computeJoinerId eui64] else others
  | _ => table

def remainingAfter (table : List (ByteVector 8)) (steps : List JoinerStep) : List Bytes :=
  ((steps.map JoinerStep.tokens).foldl tableBy table).map List.Vector.toList

/-- A sequence of successful commands against a leader that stores what is set:
its data and the interpreter before and after. -/
inductive JoinerRun : Bytes → Interpreter → List JoinerStep → Bytes → Interpreter → Prop
  | nil (data : Bytes) (cli : Interpreter) : JoinerRun data cli [] data cli
  | cons {data data' : Bytes} {cli cli₁ cli' : Interpreter} {value : CommandValue} {step : JoinerStep}
      {steps : List JoinerStep} (command : EnablesOrDisables step.tokens)
      (answers : ∀ c, (step.found cli).commissioner = some c → Answers data c)
      (run : (step.found cli).cmdJoiner step.tokens = (value, cli₁)) (done : value.failed = false)
      (rest : JoinerRun (stored data ((sentBy cli₁).drop (sentBy cli).length)) cli₁ steps data' cli') :
      JoinerRun data cli (step :: steps) data' cli'

theorem sentBy_found (step : JoinerStep) (cli : Interpreter) : sentBy (step.found cli) = sentBy cli := by
  rw [Revocation.sentBy, Revocation.sentBy, JoinerStep.found, Option.map_map]
  rfl

theorem sentBy_reinstall (cli : Interpreter) : sentBy cli.reinstallJoinerHandler = sentBy cli := by
  rw [Revocation.sentBy, Revocation.sentBy, Interpreter.reinstallJoinerHandler, Option.map_map]
  rfl

theorem sentBy_of_commissioner {c : Commissioner StaticJoinerHandler} (h : cli.commissioner = some c) :
    sentBy cli = c.sent := by
  rw [Revocation.sentBy, h]
  rfl

variable {value : CommandValue}

theorem cmdJoiner_cases {toks : List Text} (hcommand : EnablesOrDisables toks)
    (h : cli.cmdJoiner toks = (value, cli')) (hdone : value.failed = false) :
    ∃ c cmd sub joinerType args, cli.commissioner = some c ∧ toks = cmd :: sub :: joinerType :: args ∧
      (sub.bytes = ascii "enable" ∧ cli.joinerEnable c args = (value, cli') ∨
        sub.bytes = ascii "disable" ∧ cli.joinerDisable args = (value, cli')) := by
  obtain ⟨cmd, sub, joinerType, args, rfl, hsubcommand⟩ := hcommand
  rw [Interpreter.cmdJoiner] at h
  split at h
  · cases h
    cases hdone
  split at h
  · cases h
    cases hdone
  cases hcommissioner : cli.commissioner with
  | none =>
    rw [hcommissioner] at h
    cases h
    cases hdone
  | some c =>
    rw [hcommissioner] at h
    refine ⟨c, cmd, sub, joinerType, args, rfl, rfl, ?_⟩
    rcases hsubcommand with hsubcommand | hsubcommand
    · rw [hsubcommand] at h
      exact .inl ⟨hsubcommand, h⟩
    · rw [hsubcommand] at h
      exact .inr ⟨hsubcommand, h⟩

theorem joinerEnable_cases {c : Commissioner StaticJoinerHandler} {args : List Text}
    (h : cli.joinerEnable c args = (value, cli')) (hdone : value.failed = false) :
    ∃ eui pskd rest eui64 c₁, args = eui :: pskd :: rest ∧ parseU64 eui = some eui64 ∧
      (enableJoiner (computeJoinerId eui64)).run c = .ok () c₁ ∧
      cli' = (Interpreter.insertPskd { cli with commissioner := some c₁ } (computeJoinerId eui64)
        pskd).reinstallJoinerHandler := by
  unfold Interpreter.joinerEnable at h
  split at h
  · next eui pskd rest =>
    split at h
    · cases h
      cases hdone
    · next eui64 heui64 =>
      simp only [Interpreter.perform] at h
      cases hrun : (enableJoiner (computeJoinerId eui64)).run c with
      | error e c₁ =>
        rw [hrun] at h
        cases h
        cases hdone
      | ok _ c₁ =>
        rw [hrun] at h
        cases h
        exact ⟨eui, pskd, rest, eui64, c₁, rfl, heui64, hrun, rfl⟩
  · cases h
    cases hdone

theorem joinerDisable_cases {args : List Text} (h : cli.joinerDisable args = (value, cli')) (hdone : value.failed = false) :
    ∃ eui rest eui64, args = eui :: rest ∧ parseU64 eui = some eui64 ∧
      cli' = (cli.removePskd (computeJoinerId eui64)).reinstallJoinerHandler := by
  unfold Interpreter.joinerDisable at h
  split at h
  · next eui rest =>
    split at h
    · cases h
      cases hdone
    · next eui64 heui64 =>
      cases h
      exact ⟨eui, rest, eui64, rfl, heui64, rfl⟩
  · cases h
    cases hdone

theorem tableOf_removePskd (cli : Interpreter) (jid : ByteVector 8) :
    tableOf (cli.removePskd jid) = (tableOf cli).filter (· ≠ jid) := by
  rw [tableOf, tableOf, filter_map]
  rfl

theorem tableOf_insertPskd (cli : Interpreter) (jid : ByteVector 8) (pskd : Text) :
    tableOf (cli.insertPskd jid pskd) = (tableOf cli).filter (· ≠ jid) ++ [jid] := by
  rw [tableOf, tableOf, filter_map, Interpreter.insertPskd, map_append]
  rfl

def extendBy (data : Bytes) (tokens : List Text) : Bytes :=
  match enabledBy tokens with
  | some joinerId => addJoinerToSteeringData data joinerId.toList
  | none => data

/-- A command that succeeds adds to the leader's data what it enables, and changes
the table as the tokens say: the data is left alone by what it disables. -/
theorem joiner_step {tokens : List Text} (hcommand : EnablesOrDisables tokens)
    (hanswers : ∀ c, cli.commissioner = some c → Answers data c) (h : cli.cmdJoiner tokens = (value, cli'))
    (hdone : value.failed = false) : stored data ((sentBy cli').drop (sentBy cli).length) = extendBy data tokens ∧
      tableOf cli' = tableBy (tableOf cli) tokens := by
  obtain ⟨c, command, subcommand, joinerType, args, hcommissioner, rfl, ⟨hsubcommand, henable⟩ | ⟨hsubcommand, hdisable⟩⟩ :=
    cmdJoiner_cases hcommand h hdone
  · obtain ⟨eui64Token, pskd, rest, eui64, c₁, rfl, heui64, hrun, rfl⟩ := joinerEnable_cases henable hdone
    obtain ⟨current, c₂, outgoing, hget, hsent, hstored⟩ := enableJoiner_eq_ok hrun
    have henabled : enabledBy (command :: subcommand :: joinerType :: eui64Token :: pskd :: rest) =
        some (computeJoinerId eui64) := by
      rw [enabledBy, if_pos hsubcommand, heui64]
      rfl
    have hafter : sentBy (Interpreter.insertPskd { cli with commissioner := some c₁ } (computeJoinerId eui64) pskd) =
        c.sent ++ outgoing := by
      rw [sentBy_of_commissioner rfl, hsent]
    constructor
    · rw [sentBy_reinstall, hafter, sentBy_of_commissioner hcommissioner, drop_left, hstored,
        hanswers c hcommissioner current c₂ hget, extendBy, henabled]
      rfl
    · simp only [tableBy, heui64, if_pos hsubcommand]
      exact tableOf_insertPskd _ _ _
  · obtain ⟨eui64Token, rest, eui64, rfl, heui64, rfl⟩ := joinerDisable_cases hdisable hdone
    have hne : subcommand.bytes ≠ ascii "enable" := by
      rw [hsubcommand]
      decide
    have hafter : sentBy (cli.removePskd (computeJoinerId eui64)) = sentBy cli := rfl
    constructor
    · rw [sentBy_reinstall, hafter, drop_length, extendBy, enabledBy, if_neg hne]
      rfl
    · simp only [tableBy, heui64, if_neg hne]
      exact tableOf_removePskd _ _

theorem JoinerRun.stored_eq {steps : List JoinerStep} (h : JoinerRun data cli steps data' cli') :
    data' = (steps.map JoinerStep.tokens).foldl extendBy data ∧
      tableOf cli' = (steps.map JoinerStep.tokens).foldl tableBy (tableOf cli) := by
  induction h with
  | nil => exact ⟨rfl, rfl⟩
  | @cons data data' cli cli₁ cli' value step steps cmd answers run done rest ih =>
    obtain ⟨hstored, htable⟩ := joiner_step cmd answers run done
    rw [sentBy_found] at hstored
    rw [hstored, htable] at ih
    exact ih

theorem enabledIn_of_none {step : JoinerStep} (h : enabledBy step.tokens = none) (steps : List JoinerStep) :
    enabledIn (step :: steps) = enabledIn steps := by
  rw [enabledIn, filterMap_cons_none (f := fun step : JoinerStep => enabledBy step.tokens) h]
  rfl

theorem enabledIn_of_some {step : JoinerStep} {jid : ByteVector 8} (h : enabledBy step.tokens = some jid)
    (steps : List JoinerStep) : enabledIn (step :: steps) = jid.toList :: enabledIn steps := by
  rw [enabledIn, filterMap_cons_some (f := fun step : JoinerStep => enabledBy step.tokens) h]
  rfl

theorem foldl_extendBy_filterOf (steps : List JoinerStep) (joinerIds : List Bytes) :
    (steps.map JoinerStep.tokens).foldl extendBy (filterOf joinerIds) = filterOf (joinerIds ++ enabledIn steps) := by
  induction steps generalizing joinerIds with
  | nil =>
    rw [enabledIn, filterMap_nil, map_nil, map_nil, append_nil]
    rfl
  | cons step steps ih =>
    rw [map_cons, foldl_cons, extendBy]
    cases henabled : enabledBy step.tokens with
    | none =>
      rw [enabledIn_of_none henabled]
      exact ih joinerIds
    | some joinerId =>
      have hadd : addJoinerToSteeringData (filterOf joinerIds) joinerId.toList =
          filterOf (joinerIds ++ [joinerId.toList]) := by
        rw [addJoinerToSteeringData_of_length (length_filterOf joinerIds), filterOf_concat]
      rw [enabledIn_of_some henabled, append_cons]
      exact (congrArg (List.foldl extendBy · (steps.map JoinerStep.tokens)) hadd).trans (ih _)

theorem foldl_extendBy_closed (steps : List JoinerStep) : (steps.map JoinerStep.tokens).foldl extendBy [0x00] =
      if enabledIn steps = [] then [0x00] else filterOf (enabledIn steps) := by
  induction steps with
  | nil => rfl
  | cons step steps ih =>
    rw [map_cons, foldl_cons, extendBy]
    cases henabled : enabledBy step.tokens with
    | none =>
      rw [enabledIn_of_none henabled]
      exact ih
    | some joinerId =>
      have hadd : addJoinerToSteeringData [0x00] joinerId.toList = filterOf [joinerId.toList] :=
        addJoinerToSteeringData_of_ne (by decide) _
      rw [enabledIn_of_some henabled, if_neg (cons_ne_nil _ _)]
      exact (congrArg (List.foldl extendBy · (steps.map JoinerStep.tokens)) hadd).trans
        (foldl_extendBy_filterOf steps [joinerId.toList])

/-- Nothing but enabling a joiner changes the data: it is the filter of the joiners
in the table exactly if that filter is the one of all that have been enabled. -/
theorem steering_follows_the_table_iff {steps : List JoinerStep} (h : JoinerRun [0x00] cli steps data' cli') :
    data' = filterOf ((tableOf cli').map List.Vector.toList) ↔
      enabledIn steps ≠ [] ∧
        (∀ joinerId ∈ enabledIn steps, Admits (filterOf (remainingAfter (tableOf cli) steps)) joinerId) ∧
        ∀ joinerId ∈ remainingAfter (tableOf cli) steps, Admits (filterOf (enabledIn steps)) joinerId := by
  obtain ⟨hdata, htable⟩ := h.stored_eq
  rw [hdata, htable, foldl_extendBy_closed]
  change _ = filterOf (remainingAfter (tableOf cli) steps) ↔ _
  by_cases henabled : enabledIn steps = []
  · have hlength : ([0x00] : Bytes) ≠ filterOf (remainingAfter (tableOf cli) steps) := by
      intro heq
      have hlengths := congrArg List.length heq
      rw [length_filterOf] at hlengths
      exact absurd hlengths (by decide)
    rw [if_pos henabled]
    exact iff_of_false hlength fun h => h.1 henabled
  · rw [if_neg henabled, filterOf_eq_iff]
    exact (and_iff_right henabled).symm

end Commands

section Example

open JoinerExchange RelayIsolation Revocation

attribute [local instance] residues

theorem not_admits_closed (joinerId : Bytes) : ¬ Admits [0x00] joinerId := by
  intro h
  have htable : ∀ bit : Fin 8, bitAt [0x00] bit.val = false := by decide
  have hmem : (crc16 0x1021 joinerId).toNat % (1 * 8) ∈ bloomBits 1 joinerId := mem_cons_self
  have hbit := h _ hmem
  rw [htable ⟨_, lt_of_mem_bloomBits (by decide) hmem⟩] at hbit
  cases hbit

/-- The leader answers that it stores the value, and accepts what is set. -/
def answeringStep (value : Bytes) (joinerId : ByteVector 8) : EnablingStep :=
  ⟨0, ⟨[], [], [leaderAnswer [0, 1] (TlvEntry.bytes ⟨tlvSteeringData, value⟩), leaderAnswer [0, 3] [tlvState, 1, 1]]⟩,
    .joiner joinerId⟩

theorem run_of_outcome {α : Type} {x : CommissionerM StaticJoinerHandler α} {c : Commissioner StaticJoinerHandler} {a : α}
    (h : outcome (x.run c) = .ok a) : x.run c = .ok a (finalState (x.run c)) := by
  cases hrun : x.run c with
  | ok b c' =>
    rw [hrun] at h
    cases h
    rfl
  | error e c' =>
    rw [hrun] at h
    cases h

theorem answers_of_outcome {data : Bytes} {c : Commissioner StaticJoinerHandler}
    (h : outcome ((getCommissionerDataset CommissionerDatasetFlags.steeringData).run c) =
      .ok ⟨⟨[⟨tlvSteeringData, data⟩]⟩⟩) : Answers data c := by
  intro current c₁ hrun
  rw [hrun] at h
  cases h
  rfl

theorem enablingRun_of_outcomes {data : Bytes} {c : Commissioner StaticJoinerHandler} {step : EnablingStep}
    {steps : List EnablingStep} (hget : outcome ((getCommissionerDataset CommissionerDatasetFlags.steeringData).run
      (step.found c)) = .ok ⟨⟨[⟨tlvSteeringData, data⟩]⟩⟩)
    (hset : outcome (step.enabling.perform.run (step.found c)) = .ok ()) (hrest : ∃ data' c', EnablingRun
      (step.enabling.extend data) (finalState (step.enabling.perform.run (step.found c))) steps data' c') :
    ∃ data' c', EnablingRun data c (step :: steps) data' c' := by
  obtain ⟨data', c', hrest⟩ := hrest
  have hanswers := answers_of_outcome hget
  have hrun := run_of_outcome hset
  refine ⟨data', c', .cons hanswers hrun ?_⟩
  rw [stored_step hanswers hrun]
  exact hrest

def otherIid : ByteVector 8 := ⟨[1, 0, 0, 0, 0, 0, 0, 0], rfl⟩

/-- Another joiner is enabled on the filter of the first one. -/
def addingStep : EnablingStep :=
  ⟨0, ⟨[], [], [leaderAnswer [0, 5] (TlvEntry.bytes ⟨tlvSteeringData, filterOf [residueIid.toList]⟩),
    leaderAnswer [0, 7] [tlvState, 1, 1]]⟩, .joiner otherIid⟩

theorem enabled_joiners_stay_admitted_residues :
    ∃ data' c', EnablingRun [0x00] residueCommissioner [answeringStep [0x00] residueIid, addingStep] data' c' ∧
      Admits data' residueIid.toList ∧ Admits data' otherIid.toList := by
  obtain ⟨data', c', hrun⟩ : ∃ data' c',
      EnablingRun [0x00] residueCommissioner [answeringStep [0x00] residueIid, addingStep] data' c' :=
    enablingRun_of_outcomes (by decide +kernel) (by decide +kernel)
      (enablingRun_of_outcomes (by decide +kernel) (by decide +kernel) ⟨_, _, .nil _ _⟩)
  have hlength : ((Enabling.joiner residueIid).extend [0x00]).length = maxSteeringDataLen := by decide +kernel
  have hsafe : AllSafe [0x00] [.joiner residueIid, .joiner otherIid] :=
    ⟨.inr fun _ => not_admits_closed _, .inl hlength, trivial⟩
  refine ⟨data', c', hrun, enabled_joiners_stay_admitted hrun hsafe _ (.inr (.inl ?_)),
    enabled_joiners_stay_admitted hrun hsafe _ (.inr (.inl ?_))⟩
  · exact mem_cons_self
  · exact mem_cons_of_mem _ mem_cons_self

/-- On the wildcard, adding one joiner locks another one out. -/
theorem wildcard_is_reset_residues :
    ∃ data' c', EnablingRun [0xff] residueCommissioner [answeringStep [0xff] residueIid] data' c' ∧
      Admits [0xff] otherIid.toList ∧ ¬ Admits data' otherIid.toList := by
  obtain ⟨data', c', hrun⟩ : ∃ data' c',
      EnablingRun [0xff] residueCommissioner [answeringStep [0xff] residueIid] data' c' :=
    enablingRun_of_outcomes (by decide +kernel) (by decide +kernel) ⟨_, _, .nil _ _⟩
  refine ⟨data', c', hrun, admits_wildcard _, ?_⟩
  rw [hrun.stored_eq]
  decide +kernel

/-- The joiner with EUI-64 zero is enabled on a leader whose steering data is closed. -/
def enableStep : JoinerStep :=
  ⟨0, (answeringStep [0x00] (computeJoinerId 0)).network, joinerTokens enableText [zeroText, residuePskd]⟩

def disableStep (eui64Token : Text) : JoinerStep :=
  ⟨0, ⟨[], [], [leaderAnswer [0, 5] (TlvEntry.bytes ⟨tlvSteeringData, filterOf [(computeJoinerId 0).toList]⟩)]⟩,
    joinerTokens disableText [eui64Token]⟩

def oneText : Text := ⟨ascii "1", by decide⟩

theorem answers_enableStep (c : Commissioner StaticJoinerHandler) (hc : (enableStep.found residueCli).commissioner = some c) :
    Answers [0x00] c := by
  cases hc
  exact answers_of_outcome (by decide +kernel)

def enabledCli : Interpreter :=
  (Interpreter.insertPskd
    ⟨some (finalState ((enableJoiner (computeJoinerId 0)).run
      { startedCommissioner with now := 0, network := enableStep.network })), [], none⟩
    (computeJoinerId 0) residuePskd).reinstallJoinerHandler

theorem cmdJoiner_enableStep : (enableStep.found residueCli).cmdJoiner enableStep.tokens = (.done, enabledCli) := by
  have hdone : outcome ((enableJoiner (computeJoinerId 0)).run
      { startedCommissioner with now := 0, network := enableStep.network }) = .ok () := by decide +kernel
  exact cmdJoiner_enable rfl parseU64_zero hdone

theorem answers_disableStep (eui : Text) (c : Commissioner StaticJoinerHandler)
    (hc : ((disableStep eui).found enabledCli).commissioner = some c) :
    Answers (filterOf [(computeJoinerId 0).toList]) c := by
  -- what the commissioner meets does not depend on the token
  have hzero : ((disableStep zeroText).found enabledCli).commissioner = some c := hc
  cases hzero
  exact answers_of_outcome (by decide +kernel)

theorem joinerRun_residues {eui64Token : Text} {eui64 : UInt64} (heui64 : parseU64 eui64Token = some eui64) :
    ∃ data' cli', JoinerRun [0x00] residueCli [enableStep, disableStep eui64Token] data' cli' := by
  have hcommand : EnablesOrDisables enableStep.tokens := ⟨_, _, _, _, rfl, .inl rfl⟩
  have hstored := (joiner_step hcommand answers_enableStep cmdJoiner_enableStep rfl).1
  have hextended : extendBy [0x00] enableStep.tokens = filterOf [(computeJoinerId 0).toList] := by decide +kernel
  rw [sentBy_found, hextended] at hstored
  have hrest : ∃ data' cli', JoinerRun (filterOf [(computeJoinerId 0).toList]) enabledCli [disableStep eui64Token] data' cli' :=
    ⟨_, _, .cons ⟨_, _, _, _, rfl, .inr rfl⟩ (answers_disableStep eui64Token) (cmdJoiner_disable rfl heui64) rfl (.nil _ _)⟩
  rw [← hstored] at hrest
  obtain ⟨data', cli', hrest⟩ := hrest
  exact ⟨data', cli', .cons hcommand answers_enableStep cmdJoiner_enableStep rfl hrest⟩

/-- A joiner that was never enabled is disabled. -/
theorem steering_follows_the_table_residues :
    ∃ data' cli', JoinerRun [0x00] residueCli [enableStep, disableStep oneText] data' cli' ∧
      data' = filterOf ((tableOf cli').map List.Vector.toList) := by
  have hone : parseU64 oneText = some 1 := by decide +kernel
  obtain ⟨data', cli', hrun⟩ := joinerRun_residues hone
  exact ⟨data', cli', hrun, (steering_follows_the_table_iff hrun).mpr (by decide +kernel)⟩

/-- The only joiner that is enabled is disabled, and is still admitted. -/
theorem disabled_joiner_stays_admitted_residues :
    ∃ data' cli', JoinerRun [0x00] residueCli [enableStep, disableStep zeroText] data' cli' ∧
      data' ≠ filterOf ((tableOf cli').map List.Vector.toList) := by
  obtain ⟨data', cli', hrun⟩ := joinerRun_residues parseU64_zero
  obtain ⟨hdata, htable⟩ := hrun.stored_eq
  refine ⟨data', cli', hrun, ?_⟩
  rw [hdata, htable]
  decide +kernel

end Example

end ThreadCommissioner.SteeringRuns
