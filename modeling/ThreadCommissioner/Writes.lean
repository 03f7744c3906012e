import ThreadCommissioner.CoapCodec
import ThreadCommissioner.SessionState

namespace ThreadCommissioner.Writes

open Builders ByteStrings Coap CoapCodec Commissioners Computations Datasets Diagnostics Errors Exchanges JoinerSessions
open List Meshcop Operations Primitives RelaySessions Requests Residues SessionState Tlvs

section Carrying

/-- The message that is meant: what a UDP_TX.ntf carries, or the message itself. -/
def carried (message : CoapMessage) : Option CoapMessage :=
  if message.uriPath = .ok (some Uri.udpTx) then
    match TlvSet.parse message.payload with
    | .ok tlvs => (tlvs.lastValue tlvUdpEncapsulation).bind fun encapsulation =>
      (CoapMessage.decode (encapsulation.drop 4)).toOption
    | .error _ => none
  else some message

variable {message req : CoapMessage} {mid dport : UInt16} {token inner : Bytes}
  {dest : Ipv6Addr}

theorem carried_of_uriPath (h : message.uriPath ≠ .ok (some Uri.udpTx)) : carried message = some message := if_neg h

def udpTxEntries (destination : Ipv6Addr) (destinationPort : UInt16) (inner : Bytes) : List TlvEntry :=
  [⟨tlvIpv6Address, destination.toList⟩,
    ⟨tlvUdpEncapsulation, beBytes 2 defaultMmPort.toNat ++ beBytes 2 destinationPort.toNat ++ inner⟩]

theorem parse_udpTxRequest (h : udpTxRequest mid token dest dport inner = .ok message) :
    message.uriPath = .ok (some Uri.udpTx) ∧ TlvSet.parse message.payload = .ok ⟨udpTxEntries dest dport inner⟩ := by
  obtain ⟨address, haddress, h⟩ := bind_ok.mp h
  obtain ⟨payload, hpayload, h⟩ := bind_ok.mp h
  obtain ⟨hlength, rfl⟩ := appendTlv_eq_ok.mp haddress
  obtain ⟨hlength', rfl⟩ := appendTlv_eq_ok.mp hpayload
  rw [postRequest_udpTx] at h
  cases h
  refine ⟨rfl, ?_⟩
  have hall : ∀ entry ∈ udpTxEntries dest dport inner, entry.value.length ≤ maxExtendedTlvLength :=
    forall_mem_cons.mpr ⟨hlength, forall_mem_cons.mpr ⟨hlength', forall_mem_nil _⟩⟩
  rw [← TlvSet.parse_flatMap hall]
  simp [udpTxEntries]

theorem carried_udpTx (h : udpTxRequest mid token dest dport inner = .ok message) :
    carried message = (CoapMessage.decode inner).toOption := by
  obtain ⟨huri, hparse⟩ := parse_udpTxRequest h
  have hports : (beBytes 2 defaultMmPort.toNat ++ beBytes 2 dport.toNat).length = 4 := by simp
  rw [carried, if_pos huri, hparse]
  change (CoapMessage.decode (List.drop 4 (_ ++ inner))).toOption = _
  rw [drop_left' hports]

theorem carried_encoded (hinner : req.encode = .ok inner) (h : udpTxRequest mid token dest dport inner = .ok message) :
    carried message = some { req with options := sortedOptions req.options } := by
  rw [carried_udpTx h, decode_encode hinner]
  rfl

theorem payload_of_postRequest {ty : CoapType} {uriPath : Texts.Text} {payload : Bytes}
    (h : CoapMessage.postRequest ty mid token uriPath payload = .ok req) : req.payload = payload := by
  unfold CoapMessage.postRequest CoapMessage.setUriPath at h
  extract_lets options trimmed segments at h
  by_cases htrimmed : trimmed = []
  · rw [if_pos htrimmed] at h
    cases h
    rfl
  · rw [if_neg htrimmed] at h
    by_cases hsegments : [] ∈ segments
    · rw [if_pos hsegments] at h
      cases h
    · rw [if_neg hsegments] at h
      cases h
      rfl

theorem uriPath_of_relayTxRequestWithKek {iid payload : Bytes} {port loc : UInt16} {joinerRouterKek : Option (ByteVector 16)}
    (h : relayTxRequestWithKek mid token iid port loc payload joinerRouterKek =
      .ok message) : message.uriPath = .ok (some Uri.relayTx) := by
  obtain ⟨_, -, h⟩ := bind_ok.mp h
  obtain ⟨_, -, h⟩ := bind_ok.mp h
  obtain ⟨_, -, h⟩ := bind_ok.mp h
  obtain ⟨_, -, h⟩ := bind_ok.mp h
  obtain ⟨_, -, h⟩ := bind_ok.mp h
  cases joinerRouterKek with
  | none =>
    obtain ⟨_, -, h⟩ := bind_ok.mp h
    cases h
    rfl
  | some kek =>
    obtain ⟨_, -, h⟩ := bind_ok.mp h
    cases h
    rfl

end Carrying

section Requests

variable {op : CommissionerOperation} {mid sid : UInt16} {token payload : Bytes}
  {m request : CoapMessage} {ds : Dataset}

/-- The request goes to the resource of the operation. -/
def RequestsOf (operation : CommissionerOperation) (payload : Bytes) (request : CoapMessage) : Prop :=
  ∃ ty messageId token, CoapMessage.postRequest ty messageId token operation.uriPath payload = .ok request

theorem uriPath_ne_udpTx (op : CommissionerOperation) : op.uriPath ≠ Uri.udpTx := by
  cases op <;> decide

theorem RequestsOf.uriPath (h : RequestsOf op payload request) : request.uriPath = .ok (some op.uriPath) := by
  obtain ⟨ty, mid, token, hpost⟩ := h
  exact uriPath_of_postRequest hpost

theorem RequestsOf.payload_eq (h : RequestsOf op payload request) : request.payload = payload := by
  obtain ⟨ty, mid, token, hpost⟩ := h
  exact payload_of_postRequest hpost

theorem RequestsOf.sortedOptions (h : RequestsOf op payload request) :
    Coap.sortedOptions request.options = request.options := by
  obtain ⟨ty, mid, token, hpost⟩ := h
  cases op <;>
    · cases hpost
      dsimp only
      decide +kernel

theorem RequestsOf.carried (h : RequestsOf op payload request) [Suite] {H : Type} {route : MeshcopRoute}
    {c c' : Commissioner H} (hrun : (wireMessage request route).run c = .ok m c') : Writes.carried m = some request := by
  cases route with
  | direct =>
    cases hrun
    refine carried_of_uriPath ?_
    rw [h.uriPath]
    exact fun heq => uriPath_ne_udpTx op (Option.some.inj (Except.ok.inj heq))
  | proxied dest destPort =>
    obtain ⟨inner, hinner, hrun⟩ := lift_bind_ok.mp hrun
    obtain ⟨_, _, -, hrun⟩ := bind_eq_ok.mp hrun
    rw [carried_encoded hinner (lift_eq_ok.mp hrun).1, h.sortedOptions]

theorem requestsOf_datasetGetRequest {getTlvTypes : List UInt8}
    (h : datasetGetRequest op mid token getTlvTypes = .ok request) : ∃ payload, RequestsOf op payload request := by
  unfold datasetGetRequest at h
  split at h <;>
    · obtain ⟨payload, -, hpost⟩ := bind_ok.mp h
      exact ⟨payload, _, _, _, hpost⟩

def sessionEntry (sessionId : UInt16) : TlvEntry := ⟨tlvCommissionerSessionId, beBytes 2 sessionId.toNat⟩

theorem sessionEntry_short (sid : UInt16) : (sessionEntry sid).value.length ≤ maxExtendedTlvLength :=
  (length_beBytes _ _).le.trans (by decide)

theorem requestsOf_datasetSetRequest (h : datasetSetRequest op mid token sid ds = .ok request) :
    ∃ payload, RequestsOf op payload request ∧ TlvSet.parse payload = .ok ⟨sessionEntry sid :: ds.entries⟩ := by
  obtain ⟨first, hfirst, h⟩ := bind_ok.mp h
  obtain ⟨rest, hrest, hpost⟩ := bind_ok.mp h
  obtain ⟨-, rfl⟩ := appendTlv_eq_ok.mp hfirst
  obtain ⟨hall, rfl⟩ := encodeEntries_eq_ok (ofTlv_eq_ok.mp hrest)
  have hentries : ∀ entry ∈ sessionEntry sid :: ds.entries, entry.value.length ≤ maxExtendedTlvLength :=
    forall_mem_cons.mpr ⟨sessionEntry_short sid, hall⟩
  exact ⟨_, ⟨_, _, _, hpost⟩, TlvSet.parse_flatMap hentries⟩

theorem requestsOf_securePendingSetRequest {maxRetrievalTimer : UInt32} {retrievalUri : Bytes}
    (h : securePendingSetRequest mid token sid maxRetrievalTimer retrievalUri ds = .ok request) :
    ∃ payload value, RequestsOf .setSecurePendingDataset payload request ∧
      TlvSet.parse payload = .ok ⟨sessionEntry sid :: ⟨tlvSecureDissemination, value⟩ :: ds.entries⟩ := by
  obtain ⟨payload, hpayload, hpost⟩ := requestOf_eq_ok.mp h
  obtain ⟨timestamp, -, hpayload⟩ := bind_ok.mp hpayload
  obtain ⟨first, hfirst, hpayload⟩ := bind_ok.mp hpayload
  obtain ⟨second, hsecond, hpayload⟩ := bind_ok.mp hpayload
  obtain ⟨rest, hrest, hpayload⟩ := bind_ok.mp hpayload
  obtain ⟨-, rfl⟩ := appendTlv_eq_ok.mp hfirst
  obtain ⟨hlength, rfl⟩ := appendTlv_eq_ok.mp hsecond
  obtain ⟨hall, rfl⟩ := encodeEntries_eq_ok (ofTlv_eq_ok.mp hrest)
  cases hpayload
  have hentries : ∀ entry ∈ sessionEntry sid :: ⟨tlvSecureDissemination, _⟩ :: ds.entries,
      entry.value.length ≤ maxExtendedTlvLength :=
    forall_mem_cons.mpr ⟨sessionEntry_short sid, forall_mem_cons.mpr ⟨hlength, hall⟩⟩
  refine ⟨_, _, ⟨_, _, _, hpost⟩, (congrArg TlvSet.parse ?_).trans (TlvSet.parse_flatMap hentries)⟩
  simp [sessionEntry, Dataset.entries]

end Requests

section Sending

variable {request : CoapMessage} {Q : Bytes → Prop}

def setOperations : List CommissionerOperation :=
  [.setActiveDataset, .setPendingDataset, .setSecurePendingDataset, .setCommissionerDataset, .setBbrDataset]

theorem mem_setOperations_of_uriPath (op : CommissionerOperation) :
    ∀ operation' ∈ setOperations, op.uriPath = operation'.uriPath → op ∈ setOperations := by
  cases op <;> decide

def IsSet (request : CoapMessage) : Prop :=
  ∃ operation ∈ setOperations, request.uriPath = .ok (some operation.uriPath)

/-- The set request that is carried, if one is, has such a payload. -/
def SetsOnly (Q : Bytes → Prop) (message : CoapMessage) : Prop :=
  ∀ request, carried message = some request → IsSet request → Q request.payload

theorem not_isSet_of_uriPath {uriPath : Option Texts.Text} (h : request.uriPath = .ok uriPath)
    (hne : ∀ op ∈ setOperations, uriPath ≠ some op.uriPath) : ¬ IsSet request := by
  rintro ⟨op, hop, hset⟩
  exact hne op hop (ok_unique h hset)

theorem not_isSet_of_options (h : request.options = []) : ¬ IsSet request := by
  have huri : request.uriPath = .ok none := by
    rw [CoapMessage.uriPath, h]
    rfl
  exact not_isSet_of_uriPath huri fun _ _ => nofun

theorem setsOnly_of_not_isSet {message : CoapMessage} (h : message.uriPath ≠ .ok (some Uri.udpTx)) (hset : ¬ IsSet message) :
    SetsOnly Q message := by
  intro request hcarried hreq
  obtain rfl : message = request := Option.some.inj ((carried_of_uriPath h).symm.trans hcarried)
  exact absurd hreq hset

theorem relaysAre_setsOnly : RelaysAre (SetsOnly Q) := by
  intro _ _ _ _ _ _ _ m hrelay
  have huri := uriPath_of_relayTxRequestWithKek hrelay
  refine setsOnly_of_not_isSet ?_ (not_isSet_of_uriPath huri (by decide))
  rw [huri]
  decide

variable [Suite] {H : Type} {P : CoapMessage → Prop}

def Sends (P : CoapMessage → Prop) (c c' : Commissioner H) : Prop :=
  ∃ outgoing, c'.sent = c.sent ++ outgoing ∧ ∀ message ∈ outgoing, P message

theorem Sends.refl (c : Commissioner H) : Sends P c c := ⟨[], (append_nil _).symm, forall_mem_nil _⟩

theorem Sends.trans {c₁ c₂ c₃ : Commissioner H} (h : Sends P c₁ c₂) (h' : Sends P c₂ c₃) : Sends P c₁ c₃ := by
  obtain ⟨outs, hsent, hall⟩ := h
  obtain ⟨outgoing', hsent', hall'⟩ := h'
  refine ⟨outs ++ outgoing', ?_, forall_mem_append.mpr ⟨hall, hall'⟩⟩
  rw [hsent', hsent, append_assoc]

theorem carriedBy_setsOnly {op : CommissionerOperation} {payload : Bytes}
    (h : RequestsOf op payload request) (hQ : op ∈ setOperations → Q payload) : CarriedBy H (SetsOnly Q) request := by
  intro route c c' m hrun request' hcarried hset
  obtain rfl := Option.some.inj ((h.carried hrun).symm.trans hcarried)
  obtain ⟨operation', hoperation', hset⟩ := hset
  have huri : op.uriPath = operation'.uriPath := Option.some.inj (ok_unique h.uriPath hset)
  rw [h.payload_eq]
  exact hQ (mem_setOperations_of_uriPath op operation' hoperation' huri)

variable [JoinerHandler H]

theorem surroundings_setsOnly (Q : Bytes → Prop) :
    Surroundings (SetsOnly Q) (Sends (SetsOnly Q) : Commissioner H → Commissioner H → Prop) := by
  refine surroundings_of_volatile .refl .trans relaysAre_setsOnly (fun messageId => ?_) ?_ ?_
  · exact setsOnly_of_not_isSet (show Except.ok none ≠ _ from nofun) (not_isSet_of_options rfl)
  · intro response _ _ _ _ inner udpTx hopts hinner hudpTx request hcarried hset
    obtain rfl := Option.some.inj ((carried_encoded hinner hudpTx).symm.trans hcarried)
    refine absurd hset (not_isSet_of_options ?_)
    dsimp only
    rw [hopts]
    rfl
  · intro c _ _ _ _ _ _ _ _ _ outgoing _ hall _
    exact ⟨outgoing, rfl, hall⟩

theorem requireMeshLocalPrefix_setsOnly (Q : Bytes → Prop) :
    Respects (Sends (SetsOnly Q)) (requireMeshLocalPrefix : CommissionerM H (ByteVector 8)) := by
  refine (surroundings_setsOnly Q).requireMeshLocalPrefix (fun hreq => ?_) fun c _ => .refl c
  obtain ⟨payload, hreq⟩ := requestsOf_datasetGetRequest hreq
  exact carriedBy_setsOnly hreq fun hset => absurd hset (by decide)

end Sending

section Success

variable [Suite] {H : Type} {c c' : Commissioner H}

theorem sendWire_eq_ok {m : CoapMessage} (h : (sendWire m).run c = .ok () c') : c'.sent = c.sent ++ [m] := by
  obtain ⟨wire, -, h⟩ := lift_bind_ok.mp h
  obtain ⟨_, c₁, hsend, h⟩ := bind_eq_ok.mp h
  obtain ⟨mid, sends, outs, rfl, hall⟩ := (sendApplicationData_outgoing (P := fun _ => False) wire).of_ok hsend
  obtain rfl : outs = [] := eq_nil_iff_forall_not_mem.mpr hall
  cases h
  rw [append_nil]

theorem sessionIdRequired_eq_ok {sid : UInt16} (h : sessionIdRequired.run c = .ok sid c') :
    c.sessionId = some sid ∧ c = c' := by
  rw [sessionIdRequired, get_bind] at h
  obtain ⟨hsess, heq⟩ := lift_eq_ok.mp h
  exact ⟨okOr_eq_ok.mp hsess, heq.symm⟩

variable [JoinerHandler H]

theorem unconditional_sends : Unconditional (Sends (fun _ => True) : Commissioner H → Commissioner H → Prop) :=
  unconditional_of_volatile .refl .trans fun _ _ _ _ _ _ _ _ _ _ outs _ _ => ⟨outs, rfl, fun _ _ => trivial⟩

theorem execute_eq_ok {req : CoapMessage} {route : MeshcopRoute} {waitForResponse : Bool} {answer : Option CoapMessage}
    (h : (execute req route waitForResponse).run c = .ok answer c') :
    ∃ (c₁ c₂ : Commissioner H) (m : CoapMessage) (before after : List CoapMessage),
      (wireMessage req route).run c₁ = .ok m c₂ ∧ c'.sent = c.sent ++ (before ++ m :: after) := by
  have hs := unconditional_sends (H := H)
  rw [execute, get_bind] at h
  obtain ⟨_, -, h⟩ := lift_bind_ok.mp h
  obtain ⟨m, c₁, hwire, h⟩ := bind_eq_ok.mp h
  obtain ⟨_, c₂, hdtls, h⟩ := bind_eq_ok.mp h
  obtain ⟨_, c₃, hsend, h⟩ := bind_eq_ok.mp h
  obtain ⟨before, hbefore, -⟩ := hs.trans ((hs.wireMessage req route).of_ok hwire) (hs.ensureDtlsSession.of_ok hdtls)
  have hrest : Respects (Sends fun _ => True) (do
      if waitForResponse then awaitResponse req (← get).network.inbox meshcopTimeout
      else return none : CommissionerM H (Option CoapMessage)) := by
    split
    · exact .bind hs.trans (respects_get hs.refl) fun c => hs.awaitResponse req _ _
    · exact respects_pure hs.refl _
  obtain ⟨after, hafter, -⟩ := hrest.of_ok h
  refine ⟨c, c₁, m, before, after, hwire, ?_⟩
  rw [hafter, sendWire_eq_ok hsend, hbefore]
  simp

theorem executeMeshcop_eq_ok {req resp : CoapMessage} (h : (executeMeshcop req).run c = .ok resp c') :
    ∃ (c₁ c₂ : Commissioner H) (m : CoapMessage) (before after : List CoapMessage),
      (wireMessage req .direct).run c₁ = .ok m c₂ ∧ c'.sent = c.sent ++ (before ++ m :: after) := by
  obtain ⟨answer, c₁, hexecute, h⟩ := bind_eq_ok.mp h
  obtain ⟨_, -, h⟩ := lift_bind_ok.mp h
  obtain ⟨-, rfl⟩ := lift_eq_ok.mp h
  exact execute_eq_ok hexecute

end Success

section Writing

/-- The operations that write a dataset. -/
inductive Write
  | setActiveDataset (dataset : Dataset)
  | setPendingDataset (dataset : Dataset)
  | setSecurePendingDataset (maxRetrievalTimer : UInt32) (dataset : Dataset)
  | setCommissionerDataset (dataset : Dataset)
  | setBbrDataset (dataset : Dataset)

def Write.entries : Write → List TlvEntry
  | .setActiveDataset dataset | .setPendingDataset dataset | .setSecurePendingDataset _ dataset
  | .setBbrDataset dataset => dataset.entries
  | .setCommissionerDataset dataset => (stripManagedCommissionerTlvs dataset).entries

/-- The dataset has no session ID of its own, or it is removed. -/
def Write.Clean : Write → Prop
  | .setActiveDataset dataset | .setPendingDataset dataset | .setSecurePendingDataset _ dataset
  | .setBbrDataset dataset => ∀ entry ∈ dataset.entries, entry.ty ≠ tlvCommissionerSessionId
  | .setCommissionerDataset _ => True

theorem Write.clean_iff (write : Write) : write.Clean ↔ ∀ entry ∈ write.entries, entry.ty ≠ tlvCommissionerSessionId := by
  cases write with
  | setCommissionerDataset dataset =>
    refine ⟨fun _ entry hentry => ?_, fun _ => trivial⟩
    have hstripped := (mem_filter.mp hentry).1
    exact of_decide_eq_true (mem_filter.mp hstripped).2
  | _ => exact Iff.rfl

/-- The session ID comes first, and of what follows only the dataset may carry
another. -/
def LeadsWith (sessionId : UInt16) (entries : List TlvEntry) (payload : Bytes) : Prop :=
  ∃ others, TlvSet.parse payload = .ok ⟨sessionEntry sessionId :: (others ++ entries)⟩ ∧
    ∀ entry ∈ others, entry.ty ≠ tlvCommissionerSessionId

/-- The payload has exactly one Commissioner Session ID TLV, and it is read as
the session ID. -/
def CarriesExactly (sessionId : UInt16) (payload : Bytes) : Prop :=
  ∃ tlvs, TlvSet.parse payload = .ok tlvs ∧
    tlvs.entries.filter (·.ty = tlvCommissionerSessionId) = [sessionEntry sessionId] ∧
    tlvs.lastValue tlvCommissionerSessionId = some (beBytes 2 sessionId.toNat)

theorem LeadsWith.carriesExactly_iff {sid : UInt16} {es : List TlvEntry} {payload : Bytes} (h : LeadsWith sid es payload) :
    CarriesExactly sid payload ↔ ∀ entry ∈ es, entry.ty ≠ tlvCommissionerSessionId := by
  obtain ⟨others, hparse, hothers⟩ := h
  have hfilter : (sessionEntry sid :: (others ++ es)).filter (·.ty = tlvCommissionerSessionId) =
      sessionEntry sid :: es.filter (·.ty = tlvCommissionerSessionId) := by
    have hnone : others.filter (·.ty = tlvCommissionerSessionId) = [] :=
      filter_eq_nil_iff.mpr fun entry hentry => by simpa using hothers entry hentry
    rw [filter_cons_of_pos (by simp [sessionEntry]), filter_append, hnone, nil_append]
  constructor
  · rintro ⟨tlvs, htlvs, hexactly, -⟩ entry hentry hty
    obtain rfl := ok_unique hparse htlvs
    have hnil := (List.cons.inj (hfilter.symm.trans hexactly)).2
    exact filter_eq_nil_iff.mp hnil entry hentry (by simpa using hty)
  · intro hes
    have hnil : es.filter (·.ty = tlvCommissionerSessionId) = [] :=
      filter_eq_nil_iff.mpr fun entry hentry => by simpa using hes entry hentry
    rw [hnil] at hfilter
    refine ⟨_, hparse, hfilter, ?_⟩
    rw [TlvSet.lastValue_eq_getLast, hfilter]
    rfl

variable [Suite] {H : Type} {c : Commissioner H} {sessionId : UInt16}

theorem sessionIdRequired_of_some (h : c.sessionId = some sessionId) : sessionIdRequired.run c = .ok sessionId c := by
  rw [sessionIdRequired, get_bind, h]
  rfl

theorem carriedBy_datasetSetRequest {operation : CommissionerOperation} {messageId : UInt16} {token : Bytes}
    {dataset : Dataset} {request : CoapMessage}
    (h : datasetSetRequest operation messageId token sessionId dataset = .ok request) :
    CarriedBy H (SetsOnly (LeadsWith sessionId dataset.entries)) request := by
  obtain ⟨payload, hreq, hparse⟩ := requestsOf_datasetSetRequest h
  exact carriedBy_setsOnly hreq fun _ => ⟨[], hparse, forall_mem_nil _⟩

variable [JoinerHandler H]

theorem writeDataset_leads (operation : CommissionerOperation) (required : List (UInt8 × String)) (dataset : Dataset)
    (h : c.sessionId = some sessionId) : Sends (SetsOnly (LeadsWith sessionId dataset.entries)) c
      (finalState ((writeDataset operation required dataset).run c)) := by
  have hs := surroundings_setsOnly (H := H) (LeadsWith sessionId dataset.entries)
  refine finalState_lift_bind (P := Sends _ c) (.refl c) fun _ _ => ?_
  rw [bind_of_ok (sessionIdRequired_of_some h)]
  refine Respects.bind .trans hs.nextRequestIdentity ?_ c
  rintro ⟨messageId, token⟩
  refine hs.built fun request hreq => ?_
  have hwire := carriedBy_datasetSetRequest (H := H) hreq
  exact .bind .trans (hs.executeMeshcop hwire) fun _ => respects_lift .refl _

theorem setCommissionerDataset_leads (dataset : Dataset) (h : c.sessionId = some sessionId) :
    Sends (SetsOnly (LeadsWith sessionId (stripManagedCommissionerTlvs dataset).entries)) c
      (finalState ((Exchanges.setCommissionerDataset dataset).run c)) := by
  have hs := surroundings_setsOnly (H := H) (LeadsWith sessionId (stripManagedCommissionerTlvs dataset).entries)
  rw [Exchanges.setCommissionerDataset, bind_of_ok (sessionIdRequired_of_some h)]
  refine finalState_lift_bind (P := Sends _ c) (.refl c) fun _ _ => ?_
  refine Respects.bind .trans (.bind .trans (requireMeshLocalPrefix_setsOnly _) fun _ => respects_pure .refl _) ?_ c
  intro leader
  refine .bind .trans hs.nextRequestIdentity ?_
  rintro ⟨messageId, token⟩
  refine hs.built fun request hreq => ?_
  have hwire := carriedBy_datasetSetRequest (H := H) hreq
  exact .bind .trans (hs.executeProxied hwire leader) fun _ => respects_lift .refl _

variable [AddressTexts]

def Write.perform : Write → CommissionerM H Unit
  | .setActiveDataset dataset => Operations.setActiveDataset dataset
  | .setPendingDataset dataset => Operations.setPendingDataset dataset
  | .setSecurePendingDataset maxRetrievalTimer dataset => Operations.setSecurePendingDataset maxRetrievalTimer dataset
  | .setCommissionerDataset dataset => Exchanges.setCommissionerDataset dataset
  | .setBbrDataset dataset => Operations.setBbrDataset dataset

theorem setSecurePendingDataset_leads (maxRetrievalTimer : UInt32) (dataset : Dataset) (h : c.sessionId = some sessionId) :
    Sends (SetsOnly (LeadsWith sessionId dataset.entries)) c
      (finalState ((Operations.setSecurePendingDataset maxRetrievalTimer dataset).run c)) := by
  have hs := surroundings_setsOnly (H := H) (LeadsWith sessionId dataset.entries)
  refine finalState_lift_bind (P := Sends _ c) (.refl c) fun _ _ => ?_
  rw [bind_of_ok (sessionIdRequired_of_some h)]
  refine Respects.bind .trans (.bind .trans (requireMeshLocalPrefix_setsOnly _) fun _ => respects_pure .refl _) ?_ c
  intro pbbr
  refine .bind .trans hs.nextRequestIdentity ?_
  rintro ⟨messageId, token⟩
  refine hs.built fun request hreq => ?_
  obtain ⟨payload, value, hreq, hparse⟩ := requestsOf_securePendingSetRequest hreq
  have hwire : CarriedBy H (SetsOnly (LeadsWith sessionId dataset.entries)) request :=
    carriedBy_setsOnly hreq fun _ => ⟨[⟨tlvSecureDissemination, value⟩], hparse, fun entry hentry => by
      rw [mem_singleton.mp hentry]
      exact (by decide : tlvSecureDissemination ≠ tlvCommissionerSessionId)⟩
  exact .bind .trans (hs.executeProxied hwire pbbr) fun _ => respects_lift .refl _

theorem perform_leads (write : Write) (h : c.sessionId = some sessionId) :
    Sends (SetsOnly (LeadsWith sessionId write.entries)) c (finalState (write.perform.run c)) := by
  cases write with
  | setActiveDataset dataset => exact writeDataset_leads _ _ dataset h
  | setPendingDataset dataset => exact writeDataset_leads _ _ dataset h
  | setBbrDataset dataset => exact writeDataset_leads _ _ dataset h
  | setCommissionerDataset dataset => exact setCommissionerDataset_leads dataset h
  | setSecurePendingDataset maxRetrievalTimer dataset => exact setSecurePendingDataset_leads maxRetrievalTimer dataset h

def sentBy (write : Write) (c : Commissioner H) : List CoapMessage :=
  (finalState (write.perform.run c)).sent.drop c.sent.length

/-- Every set request that is sent carries exactly the current session if and
only if the dataset brings no session ID of its own. -/
theorem set_requests_carry_the_session_iff (write : Write) (hsession : c.sessionId = some sessionId)
    {message request : CoapMessage} (hsent : message ∈ sentBy write c) (hcarried : carried message = some request)
    (hset : IsSet request) : CarriesExactly sessionId request.payload ↔ write.Clean := by
  obtain ⟨outgoing, heq, hall⟩ := perform_leads write hsession
  rw [sentBy, heq, drop_left] at hsent
  rw [(hall message hsent request hcarried hset).carriesExactly_iff, write.clean_iff]

end Writing

section Example

attribute [local instance] residues noTexts

def activeHandle : Commissioner StaticJoinerHandler := { residueHandle with state := .active, sessionId := some 1 }

/-- A dataset with the timestamp that is mandatory, and what else is given. -/
def timestamped (entries : List TlvEntry) : Dataset := ⟨⟨⟨tlvActiveTimestamp, List.replicate 8 0⟩ :: entries⟩⟩

def setActiveRequest (entries : List TlvEntry) : CoapMessage :=
  ⟨.confirmable, .post, 1, [0, 1], pathOptions ["c", "as"],
    (sessionEntry 1 :: (timestamped entries).entries).flatMap TlvEntry.bytes⟩

theorem set_requests_carry_the_session_residues :
    setActiveRequest [] ∈ sentBy (.setActiveDataset (timestamped [])) activeHandle ∧
      CarriesExactly 1 (setActiveRequest []).payload := by
  have hsent : setActiveRequest [] ∈ sentBy (.setActiveDataset (timestamped [])) activeHandle := by decide +kernel
  refine ⟨hsent, (set_requests_carry_the_session_iff _ rfl hsent rfl ⟨.setActiveDataset, by decide, rfl⟩).mpr ?_⟩
  change ∀ entry ∈ (timestamped []).entries, entry.ty ≠ tlvCommissionerSessionId
  decide

/-- A session ID in the dataset, for example one read back from the network, is
sent after that of the session, and is the one that is read. -/
theorem stale_session_is_sent_residues :
    activeHandle.sessionId = some 1 ∧
      setActiveRequest [sessionEntry 99] ∈ sentBy (.setActiveDataset (timestamped [sessionEntry 99])) activeHandle ∧
      IsSet (setActiveRequest [sessionEntry 99]) ∧
      ∃ tlvs, TlvSet.parse (setActiveRequest [sessionEntry 99]).payload = .ok tlvs ∧
        tlvs.entries.filter (·.ty = tlvCommissionerSessionId) = [sessionEntry 1, sessionEntry 99] ∧
        tlvs.lastValue tlvCommissionerSessionId = some (beBytes 2 99) :=
  ⟨rfl, by decide +kernel, ⟨.setActiveDataset, by decide, rfl⟩,
    ⟨sessionEntry 1 :: (timestamped [sessionEntry 99]).entries⟩, by decide +kernel, by decide, by decide⟩

end Example

end ThreadCommissioner.Writes
