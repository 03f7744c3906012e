import ThreadCommissioner.JsonNumbers
import ThreadCommissioner.KeepaliveRuns
import ThreadCommissioner.Writes

namespace ThreadCommissioner.FieldUpdates

open Builders ByteStrings Coap Commissioners Computations DatasetJson DatasetRoundTrip Datasets Interpreters
open JoinerCommands JoinerSessions KeepaliveRuns Meshcop Operations Primitives Requests Residues SessionState Texts Tlvs
open List WalkTimes Writes
open JsonNumbers (parse_toValue)

section Timestamps

/-- The timestamp of an update, after the one that is stored. -/
def following (stored : Option Timestamp) : Timestamp :=
  .fromComponents (match stored with
    | some timestamp => timestamp.seconds + 1
    | none => 1) 0 false

theorem lt_following_iff (old : Timestamp) : old.raw < (following (some old)).raw ↔ old.seconds ≠ 0xffffffffffff := by
  have hlt := old.raw.toNat_lt
  have hseconds : old.seconds.toNat = old.raw.toNat / 2 ^ 16 := (toNat_parts old.raw).1
  have hnext : (old.seconds + 1).toNat = old.raw.toNat / 2 ^ 16 + 1 := by
    rw [UInt64.toNat_add, hseconds]
    simp only [UInt64.reduceToNat]
    omega
  have hraw := toNat_fromComponents (old.seconds + 1) 0 false
  rw [hnext] at hraw
  rw [UInt64.lt_iff_toNat_lt, Ne, ← UInt64.toNat_inj, hseconds, show (following (some old)).raw.toNat = _ from hraw]
  simp only [UInt64.reduceToNat, Bool.toNat_false]
  omega

end Timestamps

section Sending

variable {timestamp : Timestamp} {payload : Bytes} {sid : UInt16} {ds : Dataset}

/-- The Active Timestamp that is read from the payload. -/
def Stamps (timestamp : Timestamp) (payload : Bytes) : Prop :=
  ∃ tlvs value, TlvSet.parse payload = .ok tlvs ∧ tlvs.lastValue tlvActiveTimestamp = some value ∧
    Timestamp.parse value = .ok timestamp

theorem stamps_of_parse (h : TlvSet.parse payload =
    .ok ⟨sessionEntry sid :: (ds.setRaw tlvActiveTimestamp timestamp.toValue).entries⟩) : Stamps timestamp payload := by
  refine ⟨_, timestamp.toValue, h, ?_, parse_toValue timestamp⟩
  rw [TlvSet.lastValue_eq_getLast, Dataset.setRaw, Dataset.entries, ← cons_append, filter_append, map_append]
  exact List.getLast?_concat

variable [Suite] {H : Type} {c c' : Commissioner H} {P Q : Bytes → Prop}

theorem sends_imp (himp : ∀ payload, P payload → Q payload) (h : Sends (SetsOnly P) c c') : Sends (SetsOnly Q) c c' := by
  obtain ⟨outs, hsent, hall⟩ := h
  exact ⟨outs, hsent, fun m hmem req hcarried hset => himp _ (hall m hmem req hcarried hset)⟩

variable [JoinerHandler H]

theorem getActiveDataset_sends (flags : DatasetFlags) :
    Respects (Sends (SetsOnly fun _ => False)) (getActiveDataset flags : CommissionerM H Dataset) := by
  have hs := surroundings_setsOnly (H := H) fun _ => False
  refine .bind .trans (hs.getRawActiveDataset (fun hreq => ?_) flags) fun _ => respects_lift .refl _
  obtain ⟨payload, hreq⟩ := requestsOf_datasetGetRequest hreq
  exact carriedBy_setsOnly hreq fun hset => absurd hset (by decide)

theorem setActiveDataset_sends (ds : Dataset) (timestamp : Timestamp) : Respects (Sends (SetsOnly (Stamps timestamp)))
      (setActiveDataset (ds.setRaw tlvActiveTimestamp timestamp.toValue) : CommissionerM H Unit) := by
  have hs := surroundings_setsOnly (H := H) (Stamps timestamp)
  refine .lift_bind .refl fun _ => .read_bind .refl sessionIdRequired_reads fun sid => ?_
  refine .bind .trans hs.nextRequestIdentity ?_
  rintro ⟨mid, token⟩
  refine hs.built fun req hreq => ?_
  obtain ⟨payload, hreq, hparse⟩ := requestsOf_datasetSetRequest hreq
  have hwire := carriedBy_setsOnly (H := H) hreq fun _ => stamps_of_parse hparse
  exact .bind .trans (hs.executeMeshcop hwire) fun _ => respects_lift .refl _

/-- The payload has the timestamp after the one that the network has given. -/
def Updates (c : Commissioner H) (payload : Bytes) : Prop :=
  ∃ current c₁ stored, (getActiveDataset (flag 15)).run c = .ok current c₁ ∧ activeTimestamp current = .ok stored ∧
    Stamps (following stored) payload

theorem setActiveField_sends (ds : Dataset) (c : Commissioner H) :
    Sends (SetsOnly (Updates c)) c (finalState ((setActiveField ds).run c)) := by
  have hget := getActiveDataset_sends (H := H) (flag 15)
  rw [setActiveField]
  cases hrun : (getActiveDataset (flag 15)).run c with
  | error e c₁ =>
    rw [bind_of_error hrun]
    exact sends_imp (fun _ => False.elim) (hget.of_error hrun)
  | ok current c₁ =>
    rw [bind_of_ok hrun]
    have hfetched := sends_imp (Q := Updates c) (fun _ => False.elim) (hget.of_ok hrun)
    refine finalState_lift_bind (P := Sends _ c) hfetched fun stored hstored => hfetched.trans ?_
    have hset := setActiveDataset_sends ds (following stored) c₁
    exact sends_imp (fun _ hstamps => ⟨current, c₁, stored, hrun, hstored, hstamps⟩) hset

theorem setActiveField_eq_ok (h : (setActiveField ds).run c = .ok () c') : ∃ outgoing, c'.sent = c.sent ++ outgoing ∧
      ∃ message ∈ outgoing, ∃ request, carried message = some request ∧ IsSet request := by
  have hs := unconditional_sends (H := H)
  obtain ⟨current, c₁, hget, h⟩ := bind_eq_ok.mp h
  obtain ⟨stored, -, h⟩ := lift_bind_ok.mp h
  obtain ⟨_, -, h⟩ := lift_bind_ok.mp h
  obtain ⟨sid, c₂, hrequired, h⟩ := bind_eq_ok.mp h
  obtain ⟨-, rfl⟩ := sessionIdRequired_eq_ok hrequired
  obtain ⟨⟨messageId, token⟩, c₃, hidentity, h⟩ := bind_eq_ok.mp h
  obtain ⟨request, hreq, h⟩ := lift_bind_ok.mp h
  obtain ⟨response, c₄, hexecute, h⟩ := bind_eq_ok.mp h
  obtain ⟨-, rfl⟩ := lift_eq_ok.mp h
  obtain ⟨payload, hreq, -⟩ := requestsOf_datasetSetRequest hreq
  obtain ⟨c₅, c₆, message, before, after, hwire, hsent⟩ := executeMeshcop_eq_ok hexecute
  obtain ⟨first, hfirst, -⟩ := (getActiveDataset_sends (flag 15)).of_ok hget
  obtain ⟨second, hsecond, -⟩ := hs.nextRequestIdentity.of_ok hidentity
  refine ⟨first ++ second ++ (before ++ message :: after), ?_, message, by simp, request, hreq.carried hwire,
    .setActiveDataset, by decide, hreq.uriPath⟩
  rw [hsent, hsecond, hfirst, append_assoc, append_assoc, append_assoc]

end Sending

section Commands

variable [Suite] {cli : Repl} {c : Commissioner StaticJoinerHandler}

/-- What the installed commissioner has sent since then. -/
def sentSince (c : Commissioner StaticJoinerHandler) (cli : Repl) : List CoapMessage :=
  ((cli.commissioner.map (·.sent)).getD []).drop c.sent.length

theorem sentSince_self (hc : cli.commissioner = some c) : sentSince c cli = [] := by
  rw [sentSince, hc]
  exact drop_length

theorem sentSince_finish (hc : cli.commissioner = some c) (op : CommissionerM StaticJoinerHandler Unit) :
    sentSince c (cli.finish op).2 = (finalState (op.run c)).sent.drop c.sent.length := by
  rw [Repl.finish, Repl.report, hc]
  cases h : op.run c <;>
    · simp only [Repl.perform, Interpreter.perform, h]
      rfl

theorem finish_eq_ok (hc : cli.commissioner = some c) {op : CommissionerM StaticJoinerHandler Unit}
    (h : (cli.finish op).1.failed = false) : ∃ c', op.run c = .ok () c' := by
  rw [Repl.finish, Repl.report, hc] at h
  cases hrun : op.run c with
  | ok _ c' => exact ⟨c', rfl⟩
  | error e c' =>
    simp only [Repl.perform, Interpreter.perform, hrun] at h
    cases h

/-- An update that is sent has a timestamp after the stored one, if that is not
in the last second there is, and only then; and one that is not sent fails. -/
theorem field_update_moves_forward_iff [AddressTexts] [ConsoleTexts] [Hex] (hc : cli.commissioner = some c) (field : Text) (rest : List Text) :
    (∀ message ∈ sentSince c (cli.opDatasetFieldSet field rest).2, ∀ request, carried message = some request →
      IsSet request → ∃ current c₁ stored new, (getActiveDataset (flag 15)).run c = .ok current c₁ ∧
        activeTimestamp current = .ok stored ∧ Stamps new request.payload ∧
        ∀ old, stored = some old → (old.raw < new.raw ↔ old.seconds ≠ 0xffffffffffff)) ∧
      ((cli.opDatasetFieldSet field rest).1.failed = false →
        ∃ message ∈ sentSince c (cli.opDatasetFieldSet field rest).2, ∃ request, carried message = some request ∧
          IsSet request) := by
  have hself : ∀ message ∈ sentSince c cli, False := by
    rw [sentSince_self hc]
    exact forall_mem_nil _
  rw [Repl.opDatasetFieldSet]
  split
  · next dataset hdataset =>
      rw [sentSince_finish hc]
      constructor
      · intro message hmem request hcarried hset
        obtain ⟨outgoing, hsent, hall⟩ := setActiveField_sends dataset c
        rw [hsent, drop_left] at hmem
        obtain ⟨current, c₁, stored, hget, hstored, hstamps⟩ := hall message hmem request hcarried hset
        refine ⟨current, c₁, stored, _, hget, hstored, hstamps, ?_⟩
        rintro old rfl
        exact lt_following_iff old
      · intro hfinished
        obtain ⟨c', hrun⟩ := finish_eq_ok hc hfinished
        obtain ⟨outgoing, hsent, hset⟩ := setActiveField_eq_ok hrun
        rw [hrun]
        rwa [show (finalState (EStateM.Result.ok () c')).sent = c.sent ++ outgoing from hsent, drop_left]
  · exact ⟨fun message hmem => (hself message hmem).elim, fun h => by cases h⟩
  · exact ⟨fun message hmem => (hself message hmem).elim, fun h => by cases h⟩

end Commands

section Example

attribute [local instance] residues noTexts plainTexts TextForms.plainHex

/-- The border agent stores the timestamp and accepts the update. -/
def storingHandle (stored : Timestamp) : Commissioner StaticJoinerHandler :=
  { activeHandle with
    network := ⟨[], [], [agentAnswer [0, 1] (tlvActiveTimestamp :: 8 :: stored.toValue),
      agentAnswer [0, 2] [tlvState, 1, 1]]⟩ }

def storingCli (stored : Timestamp) : Repl :=
  { Repl.new exampleConfig 0 with commissioner := some (storingHandle stored) }

def panidWord : Text := ⟨ascii "panid", by decide⟩

def panidValue : Text := ⟨ascii "0x1234", by decide⟩

def panidUpdate (new : Timestamp) : CoapMessage :=
  ⟨.confirmable, .post, 2, [0, 2], pathOptions ["c", "as"],
    [tlvCommissionerSessionId, 2, 0, 1, tlvPanId, 2, 0x12, 0x34, tlvActiveTimestamp, 8] ++ new.toValue⟩

theorem field_update_moves_forward_residues :
    ∃ message ∈ sentSince (storingHandle ⟨0x70003⟩) ((storingCli ⟨0x70003⟩).opDatasetFieldSet panidWord [panidValue]).2,
      ∃ request new, carried message = some request ∧ Stamps new request.payload ∧ 0x70003 < new.raw := by
  have hstored : ((outcome ((getActiveDataset (flag 15)).run (storingHandle ⟨0x70003⟩))).bind activeTimestamp).toOption.map
      (Option.map Timestamp.raw) = some (some 0x70003) := by decide +kernel
  have hcli : (storingCli ⟨0x70003⟩).commissioner = some (storingHandle ⟨0x70003⟩) := rfl
  obtain ⟨hforward, hsent⟩ := field_update_moves_forward_iff hcli panidWord [panidValue]
  obtain ⟨message, hmem, request, hcarried, hset⟩ := hsent (by decide +kernel)
  obtain ⟨current, c₁, stored, new, hget, hread, hstamps, hlt⟩ := hforward message hmem request hcarried hset
  rw [hget, show (outcome (EStateM.Result.ok current c₁)).bind activeTimestamp = activeTimestamp current from rfl,
    hread] at hstored
  obtain ⟨old, rfl, hraw⟩ := Option.map_eq_some_iff.mp (Option.some.inj hstored)
  refine ⟨message, hmem, request, new, hcarried, hstamps, ?_⟩
  rw [← hraw]
  refine (hlt old rfl).mpr ?_
  rw [Timestamp.seconds, hraw]
  decide

/-- After the last second there is, the update is sent with the timestamp zero. -/
theorem field_update_falls_back_residues :
    ((storingCli ⟨0xffffffffffff0000⟩).opDatasetFieldSet panidWord [panidValue]).1.failed = false ∧
      panidUpdate ⟨0⟩ ∈ (sentSince (storingHandle ⟨0xffffffffffff0000⟩)
        ((storingCli ⟨0xffffffffffff0000⟩).opDatasetFieldSet panidWord [panidValue]).2).filterMap carried ∧
      IsSet (panidUpdate ⟨0⟩) ∧ Stamps ⟨0⟩ (panidUpdate ⟨0⟩).payload := by
  refine ⟨by decide +kernel, by decide +kernel, ⟨.setActiveDataset, by decide, rfl⟩, ?_⟩
  exact ⟨⟨[sessionEntry 1, ⟨tlvPanId, [0x12, 0x34]⟩, ⟨tlvActiveTimestamp, List.replicate 8 0⟩]⟩, List.replicate 8 0,
    by decide +kernel, by decide, rfl⟩

end Example

end ThreadCommissioner.FieldUpdates
