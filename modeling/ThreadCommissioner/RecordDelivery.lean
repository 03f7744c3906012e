import ThreadCommissioner.Residues
import ThreadCommissioner.Sessions

namespace ThreadCommissioner.RecordDelivery

open ByteStrings Computations Errors KeySchedule List Primitives RecordProtection Records ReplayWindow Residues Sessions

section Runs

abbrev Network := SessionRole → SessionState

abbrev WireRecord := { record : DtlsRecord // record.WellFormed }

/-- The network is free to deliver any record to either side at any time:
records may be lost, repeated, reordered, delayed or made up. -/
inductive Event
  | protect (side : SessionRole) (plaintext : Bytes)
  | deliver (side : SessionRole) (record : WireRecord)

inductive Entry
  | produced (side : SessionRole) (plaintext : Bytes) (record : DtlsRecord)
  | returned (side : SessionRole) (record : DtlsRecord) (plaintext : Bytes)
  | discarded (side : SessionRole) (record : DtlsRecord)
  deriving DecidableEq

def onSide {α : Type} (side : SessionRole) (x : SessionM α) : EStateM DtlsError Network α :=
  zoom (fun net => net side) (fun s net => Function.update net side s) id x

theorem onSide_of_ok {α : Type} {side : SessionRole} {x : SessionM α} {net : Network} {a : α} {s : SessionState}
    (h : x.run (net side) = .ok a s) : (onSide side x).run net = .ok a (Function.update net side s) := by
  apply zoom_of_ok
  exact h

theorem onSide_of_error {α : Type} {side : SessionRole} {x : SessionM α} {net : Network} {e : DtlsError}
    {s : SessionState} (h : x.run (net side) = .error e s) :
    (onSide side x).run net = .error e (Function.update net side s) := by
  apply zoom_of_error
  exact h

section Ends

def openedNumbers (side : SessionRole) (entries : List Entry) : Set ℕ :=
  { n | ∃ record plaintext, Entry.returned side record plaintext ∈ entries ∧
    record.header.sequenceNumber.toNat = n }

/-- The entry is neither a record that the side produced nor one it returned. -/
def Entry.Foreign (side : SessionRole) : Entry → Prop
  | .produced side' _ _ => side' ≠ side
  | .returned side' _ _ => side' ≠ side
  | .discarded _ _ => True

/-- What one end of the session knows of the log of the run. -/
structure Endpoint (keys : ThreadDtlsKeyMaterial) (entries : List Entry) (side : SessionRole) (s : SessionState) :
    Prop where
  keyMaterial : s.keyMaterial = keys
  role : s.role = side
  fresh : ∀ {plaintext record}, Entry.produced side plaintext record ∈ entries →
    record.header.sequenceNumber.toNat < s.nextApplicationSequence.toNat
  tracks : Tracks s.applicationReplay (openedNumbers side entries)

variable {keys : ThreadDtlsKeyMaterial} {entries : List Entry} {side : SessionRole} {r : DtlsRecord} {plain : Bytes}
  {entry : Entry} {s : SessionState}

theorem openedNumbers_foreign (h : entry.Foreign side) :
    openedNumbers side (entries ++ [entry]) = openedNumbers side entries := by
  ext n
  constructor
  · rintro ⟨r, plain, hm, hn⟩
    rcases mem_append.mp hm with hm | hm
    · exact ⟨r, plain, hm, hn⟩
    · cases mem_singleton.mp hm
      exact absurd rfl h
  · rintro ⟨r, plain, hm, hn⟩
    exact ⟨r, plain, mem_append_left _ hm, hn⟩

theorem openedNumbers_returned : openedNumbers side (entries ++ [.returned side r plain]) =
      insert r.header.sequenceNumber.toNat (openedNumbers side entries) := by
  ext n
  constructor
  · rintro ⟨record', plaintext', hm, hn⟩
    rcases mem_append.mp hm with hm | hm
    · exact .inr ⟨record', plaintext', hm, hn⟩
    · cases mem_singleton.mp hm
      exact .inl hn.symm
  · rintro (rfl | ⟨record', plaintext', hm, hn⟩)
    · exact ⟨r, plain, mem_append_right _ (mem_singleton.mpr rfl), rfl⟩
    · exact ⟨record', plaintext', mem_append_left _ hm, hn⟩

theorem Endpoint.foreign (h : Endpoint keys entries side s) (he : entry.Foreign side) :
    Endpoint keys (entries ++ [entry]) side s := by
  refine ⟨h.keyMaterial, h.role, fun hm => ?_, ?_⟩
  · rcases mem_append.mp hm with hm | hm
    · exact h.fresh hm
    · cases mem_singleton.mp hm
      exact absurd rfl he
  · rw [openedNumbers_foreign he]
    exact h.tracks

end Ends

variable [Suite]

def Entry.ofOpened (side : SessionRole) (record : DtlsRecord) : Option Bytes → Entry
  | some plaintext => .returned side record plaintext
  | none => .discarded side record

def Event.run : Event → EStateM DtlsError Network Entry
  | .protect side plaintext => do
      let record ← onSide side (protectApplicationData plaintext)
      return .produced side plaintext record
  | .deliver side record => do
      let opened ← onSide side (openApplicationData record.1)
      return .ofOpened side record.1 opened

def network (keys : ThreadDtlsKeyMaterial) (events : List Event) : Network :=
  (runAll Event.run events (SessionState.new keys)).1

def log (keys : ThreadDtlsKeyMaterial) (events : List Event) : List Entry :=
  successes (runAll Event.run events (SessionState.new keys)).2

/-- The cipher is ideal along a run: what opens under a side's key is a triple
that side produced before. That such triples do open is a law of the cipher. -/
def Unforged (keys : ThreadDtlsKeyMaterial) (events : List Event) : Prop :=
  ∀ before after side record, events = before ++ .deliver side record :: after →
    ∀ nonce aad ciphertext plaintext,
      Presents (writeKeys keys.keyBlock side.peer).2 record.1 nonce aad ciphertext →
      Suite.ccmDecrypt (writeKeys keys.keyBlock side.peer).1 nonce aad ciphertext = some plaintext →
      ∃ plaintext' record', Entry.produced side.peer plaintext' record' ∈ log keys before ∧
        Presents (writeKeys keys.keyBlock side.peer).2 record' nonce aad ciphertext

variable {keys : ThreadDtlsKeyMaterial}

theorem Unforged.of_append {events more : List Event} (h : Unforged keys (events ++ more)) : Unforged keys events := by
  intro before after side r he
  exact h before (after ++ more) side r (by rw [he, append_assoc, cons_append])

/-- The invariant of a run: the log holds the two sides' own records, no two
under one number, and what was returned was produced before and is new. -/
structure Consistent (keys : ThreadDtlsKeyMaterial) (net : Network) (entries : List Entry) : Prop where
  endpoint : ∀ side, Endpoint keys entries side (net side)
  sealed : ∀ {side plaintext record}, Entry.produced side plaintext record ∈ entries →
    sealRecord keys.keyBlock side record.header.sequenceNumber plaintext = .ok record
  unique : ∀ {side plaintext plaintext' record record'}, Entry.produced side plaintext record ∈ entries →
    Entry.produced side plaintext' record' ∈ entries →
    record.header.sequenceNumber = record'.header.sequenceNumber → record = record'
  authentic : ∀ {before after side record plaintext},
    entries = before ++ Entry.returned side record plaintext :: after →
    Entry.produced side.peer plaintext record ∈ before ∧
      record.header.sequenceNumber.toNat ∉ openedNumbers side before

section Steps

variable {net : Network} {entries : List Entry} {side : SessionRole} {r : DtlsRecord} {plain : Bytes}
  {entry : Entry} {s : SessionState}

theorem consistent_start : Consistent keys (SessionState.new keys) [] := by
  refine ⟨fun side => ⟨rfl, rfl, fun h => ?_, ?_⟩, fun h => ?_, fun h => ?_, fun h => ?_⟩
  · cases h
  · have hnone : openedNumbers side [] = ∅ := by simp [openedNumbers]
    rw [hnone]
    exact tracks_new
  · cases h
  · cases h
  · cases (append_eq_nil_iff.mp h.symm).2

variable (h : Consistent keys net entries)

include h

theorem Consistent.produce
    (hseal : sealRecord keys.keyBlock side (net side).nextApplicationSequence plain = .ok r) : Consistent keys
      (Function.update net side { net side with
        nextApplicationSequence := (net side).nextApplicationSequence + 1 }) (entries ++ [.produced side plain r]) := by
  obtain ⟨hseq, hlt⟩ := sequenceNumber_of_sealRecord hseal
  have hnext : (net side).nextApplicationSequence.toNat < ((net side).nextApplicationSequence + 1).toNat := by
    rw [toNat_next hlt]
    exact Nat.lt_succ_self _
  have hend := h.endpoint side
  refine ⟨?_, fun hm => ?_, ?_, fun he => ?_⟩
  · refine (Function.forall_update_iff net _).mpr ⟨⟨hend.keyMaterial, hend.role, fun hm => ?_, ?_⟩, fun other hne => ?_⟩
    · rcases mem_append.mp hm with hm | hm
      · exact (hend.fresh hm).trans hnext
      · cases mem_singleton.mp hm
        rwa [hseq]
    · have hsame : openedNumbers side (entries ++ [.produced side plain r]) =
          openedNumbers side entries := by simp [openedNumbers]
      rw [hsame]
      exact hend.tracks
    · exact (h.endpoint other).foreign hne.symm
  · rcases mem_append.mp hm with hm | hm
    · exact h.sealed hm
    · cases mem_singleton.mp hm
      rwa [hseq]
  · intro other plaintext₁ plaintext₂ record₁ record₂ h₁ h₂ heq
    rcases mem_append.mp h₁ with h₁ | h₁ <;> rcases mem_append.mp h₂ with h₂ | h₂
    · exact h.unique h₁ h₂ heq
    · cases mem_singleton.mp h₂
      exact absurd (hend.fresh h₁) (by rw [heq, hseq]; exact lt_irrefl _)
    · cases mem_singleton.mp h₁
      exact absurd (hend.fresh h₂) (by rw [← heq, hseq]; exact lt_irrefl _)
    · cases mem_singleton.mp h₁
      cases mem_singleton.mp h₂
      rfl
  · rcases concat_eq_append_cons he with ⟨he, -⟩ | ⟨after', he⟩
    · cases he
    · exact h.authentic he

theorem Consistent.give (hseen : (net side).applicationReplay.hasSeen r.header.sequenceNumber = false)
    (hmem : Entry.produced side.peer plain r ∈ entries) : Consistent keys (Function.update net side { net side with
        applicationReplay := (net side).applicationReplay.markSeen r.header.sequenceNumber })
      (entries ++ [.returned side r plain]) := by
  have hend := h.endpoint side
  have hnew : r.header.sequenceNumber.toNat ∉ openedNumbers side entries := by
    intro hm
    have hyes := hend.tracks.hasSeen_iff.mpr (.inl hm)
    cases hseen.symm.trans hyes
  have hold {side' : SessionRole} {plaintext' : Bytes} {record' : DtlsRecord}
      (hm : Entry.produced side' plaintext' record' ∈ entries ++ [.returned side r plain]) :
      Entry.produced side' plaintext' record' ∈ entries := by simpa using hm
  refine ⟨?_, fun hm => h.sealed (hold hm), fun h₁ h₂ => h.unique (hold h₁) (hold h₂), fun he => ?_⟩
  · refine (Function.forall_update_iff net _).mpr ⟨⟨hend.keyMaterial, hend.role, fun hm => hend.fresh (hold hm), ?_⟩, fun other hne => ?_⟩
    · rw [openedNumbers_returned]
      exact hend.tracks.markSeen
    · exact (h.endpoint other).foreign hne.symm
  · rcases concat_eq_append_cons he with ⟨he, hb⟩ | ⟨after', he⟩
    · cases he
      cases hb
      exact ⟨hmem, hnew⟩
    · exact h.authentic he

theorem Consistent.discard : Consistent keys net (entries ++ [.discarded side r]) := by
  have hold {side' : SessionRole} {plaintext' : Bytes} {record' : DtlsRecord}
      (hm : Entry.produced side' plaintext' record' ∈ entries ++ [.discarded side r]) :
      Entry.produced side' plaintext' record' ∈ entries := by simpa using hm
  refine ⟨fun other => (h.endpoint other).foreign trivial, fun hm => h.sealed (hold hm),
    fun h₁ h₂ => h.unique (hold h₁) (hold h₂), fun he => ?_⟩
  rcases concat_eq_append_cons he with ⟨he, -⟩ | ⟨after', he⟩
  · cases he
  · exact h.authentic he

theorem Consistent.produced_of_unseal (hr : r.WellFormed) (hideal : ∀ nonce aad cipher plain,
      Presents (writeKeys keys.keyBlock side.peer).2 r nonce aad cipher →
      Suite.ccmDecrypt (writeKeys keys.keyBlock side.peer).1 nonce aad cipher = some plain →
      ∃ plaintext' record', Entry.produced side.peer plaintext' record' ∈ entries ∧
        Presents (writeKeys keys.keyBlock side.peer).2 record' nonce aad cipher)
    (hopen : unsealRecord keys.keyBlock side.peer r = .ok plain) : Entry.produced side.peer plain r ∈ entries := by
  obtain ⟨nonce, aad, cipher, hp, hd⟩ := exists_presents_of_open hopen
  obtain ⟨plaintext', record', hm, hp'⟩ := hideal nonce aad cipher plain hp hd
  have hseal := h.sealed hm
  obtain rfl : r = record' := hp.inj hp' hr (protect_wellFormed hseal)
  have hopen' : unsealRecord keys.keyBlock side.peer r = .ok plaintext' := open_protect hseal
  obtain rfl : plain = plaintext' := ok_unique hopen hopen'
  exact hm

theorem Consistent.protect : Consistent keys (finalState ((Event.protect side plain).run.run net))
      (entries ++ successes [outcome ((Event.protect side plain).run.run net)]) := by
  have hend := h.endpoint side
  cases hrun : (protectApplicationData plain).run (net side) with
  | ok r s =>
    obtain ⟨hseal, rfl⟩ := protectApplicationData_eq_ok.mp hrun
    rw [hend.keyMaterial, hend.role] at hseal
    rw [Event.run, bind_of_ok (onSide_of_ok hrun)]
    exact h.produce hseal
  | error e s =>
    obtain ⟨-, rfl⟩ := protectApplicationData_eq_error.mp hrun
    rw [Event.run, bind_of_error (onSide_of_error hrun), Function.update_eq_self]
    simpa [finalState, outcome, successes] using h

theorem Consistent.deliver {r : WireRecord} (hideal : ∀ nonce aad cipher plain,
      Presents (writeKeys keys.keyBlock side.peer).2 r.1 nonce aad cipher →
      Suite.ccmDecrypt (writeKeys keys.keyBlock side.peer).1 nonce aad cipher = some plain →
      ∃ plaintext' record', Entry.produced side.peer plaintext' record' ∈ entries ∧
        Presents (writeKeys keys.keyBlock side.peer).2 record' nonce aad cipher) :
    Consistent keys (finalState ((Event.deliver side r).run.run net))
      (entries ++ successes [outcome ((Event.deliver side r).run.run net)]) := by
  have hend := h.endpoint side
  cases hrun : (openApplicationData r.1).run (net side) with
  | ok opened s =>
    rw [Event.run, bind_of_ok (onSide_of_ok hrun)]
    cases opened with
    | some plain =>
      obtain ⟨hseen, hopen, rfl⟩ := openApplicationData_eq_some.mp hrun
      rw [hend.keyMaterial, hend.role] at hopen
      exact h.give hseen (h.produced_of_unseal r.2 hideal hopen)
    | none =>
      obtain ⟨-, rfl⟩ := openApplicationData_eq_none.mp hrun
      rw [Function.update_eq_self]
      exact h.discard
  | error e s =>
    obtain rfl := openApplicationData_eq_error hrun
    rw [Event.run, bind_of_error (onSide_of_error hrun), Function.update_eq_self]
    simpa [finalState, outcome, successes] using h

end Steps

theorem consistent_run {evs : List Event} (h : Unforged keys evs) : Consistent keys (network keys evs) (log keys evs) := by
  induction evs using List.reverseRecOn with
  | nil => exact consistent_start
  | append_singleton evs event ih =>
    have hc := ih h.of_append
    rw [network, log, runAll_concat, successes_append]
    cases event with
    | protect side plaintext => exact hc.protect
    | deliver side record => exact hc.deliver (h evs [] side record rfl)

/-- Delivery over a hostile network. What a side returns, its peer produced
before and the side had not returned; and a record of the peer that is not
yet returned and lies less than 64 below the newest one returned is returned
when a copy of it arrives. -/
theorem records_delivered {events : List Event} (h : Unforged keys events) :
    (∀ before after side record plaintext,
      log keys events = before ++ .returned side record plaintext :: after →
      Entry.produced side.peer plaintext record ∈ before ∧
        ∀ plaintext', Entry.returned side record plaintext' ∉ before) ∧
    (∀ before after side (record : WireRecord) plaintext, events = before ++ .deliver side record :: after →
      Entry.produced side.peer plaintext record.1 ∈ log keys before →
      (∀ record' plaintext', Entry.returned side record' plaintext' ∈ log keys before →
        record'.header.sequenceNumber.toNat < record.1.header.sequenceNumber.toNat + 64) →
      (∀ plaintext', Entry.returned side record.1 plaintext' ∉ log keys before) →
      ∃ net, (Event.deliver side record).run.run (network keys before) =
        .ok (.returned side record.1 plaintext) net) := by
  refine ⟨?_, ?_⟩
  · intro before after side record plaintext he
    obtain ⟨hm, hnew⟩ := (consistent_run h).authentic he
    exact ⟨hm, fun plaintext' hm' => hnew ⟨record, plaintext', hm', rfl⟩⟩
  · intro before after side record plaintext he hm hwindow hnot
    rw [he] at h
    have hc := consistent_run h.of_append
    have hend := hc.endpoint side
    have hseal := hc.sealed hm
    have hseen : (network keys before side).applicationReplay.hasSeen record.1.header.sequenceNumber = false := by
      rw [Bool.eq_false_iff]
      intro hyes
      rcases hend.tracks.hasSeen_iff.mp hyes with ⟨record', plaintext', hm', hseq⟩ | ⟨n, ⟨record', plaintext', hm', rfl⟩, hfar⟩
      · -- the number was returned before: by uniqueness of numbers, with this very record
        obtain ⟨before', after', hsplit⟩ := append_of_mem hm'
        obtain ⟨hprod, -⟩ := hc.authentic hsplit
        have hprod' : Entry.produced side.peer plaintext' record' ∈ log keys before := by
          rw [hsplit]
          exact mem_append_left _ hprod
        have hsame := hc.unique hprod' hm (UInt64.toNat_inj.mp hseq)
        rw [hsame] at hm'
        exact hnot plaintext' hm'
      · have := hwindow record' plaintext' hm'
        omega
    have hopen : unsealRecord (network keys before side).keyMaterial.keyBlock
        (network keys before side).role.peer record.1 = .ok plaintext := by
      rw [hend.keyMaterial, hend.role]
      exact open_protect hseal
    have hrun := openApplicationData_eq_some.mpr ⟨hseen, hopen, rfl⟩
    rw [Event.run, bind_of_ok (onSide_of_ok hrun)]
    exact ⟨_, rfl⟩

end Runs

section Witness

attribute [local instance] residues

def residueSession : ThreadDtlsKeyMaterial :=
  ⟨padTo 48 [], ⟨padTo 16 [1], padTo 16 [2], padTo 4 [3], padTo 4 [4]⟩⟩

def residueRecord : WireRecord :=
  ⟨protectedRecord .applicationData 1 1 (7 :: tag), protectedRecord_wellFormed (by decide) (by decide)⟩

def residueEvents : List Event :=
  [.protect .client [7], .deliver .server residueRecord, .deliver .server residueRecord]

theorem log_residues : log residueSession [.protect .client [7]] = [.produced .client [7] residueRecord.1] := by
  decide +kernel

theorem unforged_residues : Unforged residueSession residueEvents := by
  intro before after side r he nonce aad cipher plain hp hd
  suffices h : side = .server ∧ r = residueRecord ∧ Entry.produced .client [7] residueRecord.1 ∈ log residueSession before by
    obtain ⟨rfl, rfl, hm⟩ := h
    exact ⟨[7], residueRecord.1, hm, hp⟩
  rcases before with _ | ⟨_, _ | ⟨_, _ | ⟨_, before⟩⟩⟩
  · cases he
  · cases he
    exact ⟨rfl, rfl, by rw [log_residues]; exact mem_singleton.mpr rfl⟩
  · cases he
    exact ⟨rfl, rfl, by decide +kernel⟩
  · cases (append_eq_nil_iff.mp (List.cons.inj (List.cons.inj (List.cons.inj he).2).2).2.symm).2

theorem records_delivered_residues :
    log residueSession residueEvents =
      [.produced .client [7] residueRecord.1, .returned .server residueRecord.1 [7],
        .discarded .server residueRecord.1] ∧
    ∃ net, (Event.deliver .server residueRecord).run.run (network residueSession [.protect .client [7]]) =
      .ok (.returned .server residueRecord.1 [7]) net := by
  refine ⟨by decide +kernel, ?_⟩
  refine (records_delivered unforged_residues).2 [.protect .client [7]] [.deliver .server residueRecord] .server
    residueRecord [7] rfl ?_ ?_ ?_
  · rw [log_residues]
    exact mem_singleton.mpr rfl
  · intro record' plaintext' hm
    rw [log_residues] at hm
    cases mem_singleton.mp hm
  · intro plaintext' hm
    rw [log_residues] at hm
    cases mem_singleton.mp hm

end Witness

end ThreadCommissioner.RecordDelivery
