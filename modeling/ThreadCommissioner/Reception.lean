import ThreadCommissioner.Drivers
import ThreadCommissioner.RecordDelivery

namespace ThreadCommissioner.Reception

open ByteStrings Computations Drivers List Primitives RecordDelivery RecordProtection Records
  ReplayWindow Residues Sessions

section Reception

variable {Addr TransportError : Type}

abbrev Received (TransportError : Type) := Except (DriverError TransportError) Bytes

def Rewindowed (s t : SessionState) : Prop := t = { s with applicationReplay := t.applicationReplay }

theorem rewindowed_refl (s : SessionState) : Rewindowed s s := rfl

theorem Rewindowed.trans {a b c : SessionState} (h : Rewindowed a b) (h' : Rewindowed b c) : Rewindowed a c := by
  rw [Rewindowed, h', h]

def IsError (result : Received TransportError) : Prop := ∃ e, result = .error e

theorem successes_of_inserts {results results' : List (Received TransportError)}
    (h : Inserts IsError results results') : successes results' = successes results := by
  induction h with
  | nil => rfl
  | keep result _ ih =>
    cases result with
    | ok plain => exact congrArg (plain :: ·) ih
    | error e => exact ih
  | insert hr _ ih =>
    obtain ⟨e, rfl⟩ := hr
    exact ih

/-- The window left when the numbers have been marked one after the other is
new to each of them. -/
def InWindow : DtlsReplayWindow → List UInt64 → Prop
  | _, [] => True
  | w, sequence :: rest => w.hasSeen sequence = false ∧ InWindow (w.markSeen sequence) rest

theorem inWindow_of_increasing {w : DtlsReplayWindow} {sequences : List UInt64}
    (hincreasing : sequences.Pairwise (· < ·)) (hnew : ∀ seq ∈ sequences, w.hasSeen seq = false) : InWindow w sequences := by
  induction sequences generalizing w with
  | nil => trivial
  | cons seq rest ih =>
    obtain ⟨hlt, hincreasing⟩ := pairwise_cons.mp hincreasing
    obtain ⟨hfirst, hrest⟩ := forall_mem_cons.mp hnew
    exact ⟨hfirst, ih hincreasing fun later hm => hasSeen_markSeen_of_lt (hlt later hm) (hrest later hm)⟩

variable [Suite]

/-- A datagram of the peer with a single record that claims to be protected
application data and does not authenticate. -/
def Forged (peer : Addr) (s : SessionState) (arrival : Arrival Addr TransportError) : Prop :=
  ∃ bytes localAddr record e, arrival = .datagram bytes localAddr peer ∧
    DtlsRecord.parseDatagram bytes = .ok [record] ∧ record.header.epoch = 1 ∧
    record.header.contentType = .applicationData ∧
    unsealRecord s.keyMaterial.keyBlock s.role.peer record = .error e

theorem Forged.rewindowed {peer : Addr} {s t : SessionState} {arrival : Arrival Addr TransportError}
    (hs : Rewindowed s t) (h : Forged peer s arrival) : Forged peer t arrival := by
  rw [Rewindowed] at hs
  rw [hs]
  exact h

/-- A record of the session's peer and the plaintext it protects. -/
abbrev Parcel := DtlsRecord × Bytes

def Parcel.Authentic (s : SessionState) (parcel : Parcel) : Prop :=
  sealRecord s.keyMaterial.keyBlock s.role.peer parcel.1.header.sequenceNumber parcel.2 = .ok parcel.1

def packed (parcels : List Parcel) : Bytes := datagramOf (parcels.map Prod.fst)

theorem recvRecords_packed {parcels : List Parcel} {s : SessionState} {addr peer : Addr}
    (h : ∀ parcel ∈ parcels, parcel.Authentic s) (hsize : (packed parcels).length ≤ maxDatagramSize) :
    recvRecords (.datagram (packed parcels) addr peer : Arrival Addr TransportError) =
      .ok (parcels.map Prod.fst, addr, peer) := by
  refine recvRecords_of_wellFormed (fun r hr => ?_) hsize addr peer
  obtain ⟨parcel, hm, rfl⟩ := mem_map.mp hr
  exact protect_wellFormed (h parcel hm)

variable [DecidableEq Addr]

def applicationRecord (record : DtlsRecord) : SessionM (Option Bytes) :=
  match record.header.contentType with
  | .applicationData => if record.header.epoch = 1 then openApplicationData record else return none
  | .alert => throw (decodeAlertError record)
  | _ => return none

/-- One turn of the loop, which goes on unless there is something to return. -/
def receive (peer : Addr) (s : SessionState) (arrival : Arrival Addr TransportError) :
    Option (Received TransportError) × SessionState :=
  match recvRecords arrival with
  | .error e => (some (.error e), s)
  | .ok (records, _, source) =>
    if source = peer then
      match (forEach applicationRecord records).run s with
      | .ok (some plaintext) s => (some (.ok plaintext), s)
      | .ok none s => (none, s)
      | .error e s => (some (.error (.protocol e)), s)
    else (none, s)

/-- One call, with the arrivals it leaves unread. It returns nothing when the
arrivals run out while it still waits. -/
def recvApplicationData (peer : Addr) :
    SessionState → List (Arrival Addr TransportError) →
      Option (Received TransportError) × SessionState × List (Arrival Addr TransportError)
  | s, [] => (none, s, [])
  | s, arrival :: arrivals =>
    match receive peer s arrival with
    | (some result, s) => (some result, s, arrivals)
    | (none, s) => recvApplicationData peer s arrivals

theorem length_unread_lt {peer : Addr} {s t : SessionState} {arrs unread : List (Arrival Addr TransportError)}
    {res : Received TransportError} (h : recvApplicationData peer s arrs = (some res, t, unread)) :
    unread.length < arrs.length := by
  induction arrs generalizing s with
  | nil => cases h
  | cons arrival arrs ih =>
    rw [recvApplicationData] at h
    split at h
    · cases h
      exact Nat.lt_succ_self _
    · exact (ih h).trans (Nat.lt_succ_self _)

def drain (peer : Addr) (s : SessionState) (arrivals : List (Arrival Addr TransportError)) :
    List (Received TransportError) × SessionState :=
  match h : recvApplicationData peer s arrivals with
  | (none, s, _) => ([], s)
  | (some result, s, unread) =>
    have := length_unread_lt h
    let rest := drain peer s unread
    (result :: rest.1, rest.2)
termination_by arrivals.length

variable {peer addr : Addr} {s t : SessionState} {arr : Arrival Addr TransportError}
  {arrivals : List (Arrival Addr TransportError)} {record : DtlsRecord} {plain : Bytes}

section Drain

variable {unread : List (Arrival Addr TransportError)} {res : Received TransportError}

theorem drain_of_some (h : recvApplicationData peer s arrivals = (some res, t, unread)) :
    drain peer s arrivals = (res :: (drain peer t unread).1, (drain peer t unread).2) := by
  rw [drain]
  split
  · next h' => cases h.symm.trans h'
  · next h' =>
    cases h.symm.trans h'
    rfl

theorem drain_of_none (h : recvApplicationData peer s arrivals = (none, t, unread)) : drain peer s arrivals = ([], t) := by
  rw [drain]
  split
  · next h' =>
    cases h.symm.trans h'
    rfl
  · next h' => cases h.symm.trans h'

theorem drain_nil : drain peer s ([] : List (Arrival Addr TransportError)) = ([], s) := drain_of_none rfl

theorem drain_cons : drain peer s (arr :: arrivals) =
      ((receive peer s arr).1.toList ++ (drain peer (receive peer s arr).2 arrivals).1,
        (drain peer (receive peer s arr).2 arrivals).2) := by
  have hcall : recvApplicationData peer s (arr :: arrivals) = match receive peer s arr with
      | (some res, s) => (some res, s, arrivals)
      | (none, s) => recvApplicationData peer s arrivals := rfl
  cases h : receive peer s arr with
  | mk res t =>
    rw [h] at hcall
    cases res with
    | some res => exact drain_of_some hcall
    | none =>
      -- the call goes on with the arrivals that are left, as the next one would
      cases hrest : recvApplicationData peer t arrivals with
      | mk result' rest =>
        have hsame := hcall.trans hrest
        cases result' with
        | some result' => exact (drain_of_some hsame).trans (drain_of_some hrest).symm
        | none => exact (drain_of_none hsame).trans (drain_of_none hrest).symm

end Drain

theorem respects_openApplicationData (record : DtlsRecord) : Respects Rewindowed (openApplicationData record) := by
  refine .bind .trans (respects_get rewindowed_refl) fun s => ?_
  split
  · exact respects_pure rewindowed_refl _
  · refine .bind .trans (respects_lift rewindowed_refl _) fun plain => ?_
    exact .bind .trans (respects_modify fun s => rfl) fun _ => respects_pure rewindowed_refl _

theorem respects_applicationRecord (record : DtlsRecord) : Respects Rewindowed (applicationRecord record) := by
  rw [applicationRecord]
  split
  · split
    · exact respects_openApplicationData record
    · exact respects_pure rewindowed_refl _
  · exact respects_throw rewindowed_refl _
  · exact respects_pure rewindowed_refl _

theorem rewindowed_receive : Rewindowed s (receive peer s arr).2 := by
  have hloop (rs : List DtlsRecord) : Respects Rewindowed (forEach applicationRecord rs) :=
    .forEach rewindowed_refl .trans respects_applicationRecord rs
  rw [receive]
  split
  · exact rewindowed_refl s
  · split
    · split
      · next h => exact (hloop _).of_ok h
      · next h => exact (hloop _).of_ok h
      · next h => exact (hloop _).of_error h
    · exact rewindowed_refl s

/-- A forgery never changes the session. It is refused, unless its number is
one the window has left behind, in which case it is passed over. -/
theorem receive_forged (h : Forged peer s arr) :
    (receive peer s arr).2 = s ∧ ∀ result ∈ (receive peer s arr).1, IsError result := by
  obtain ⟨bytes, addr, record, e, rfl, hparse, hepoch, htype, hopen⟩ := h
  have hrecord : applicationRecord record = openApplicationData record := by
    simp only [applicationRecord, htype, if_pos hepoch]
  rw [receive, recvRecords]
  by_cases hsize : maxDatagramSize < bytes.length
  · rw [if_pos hsize]
    exact ⟨rfl, by simp [IsError]⟩
  · rw [if_neg hsize, hparse]
    dsimp only
    rw [if_pos rfl]
    cases hrun : (openApplicationData record).run s with
    | ok opened t =>
      cases opened with
      | some plain =>
        have hplain := (openApplicationData_eq_some.mp hrun).2.1
        cases hplain.symm.trans hopen
      | none =>
        obtain ⟨-, rfl⟩ := openApplicationData_eq_none.mp hrun
        rw [forEach_cons_none (hrecord ▸ hrun)]
        exact ⟨rfl, by simp [forEach]⟩
    | error e t =>
      have hloop : (forEach applicationRecord [record]).run s = .error e t := bind_of_error (hrecord ▸ hrun)
      obtain rfl := openApplicationData_eq_error hrun
      rw [hloop]
      exact ⟨rfl, by simp [IsError]⟩

theorem drain_inserts {mixed : List (Arrival Addr TransportError)} (h : Inserts (Forged peer s) arrivals mixed) :
    (drain peer s mixed).2 = (drain peer s arrivals).2 ∧ Inserts IsError (drain peer s arrivals).1 (drain peer s mixed).1 ∧
    (drain peer s mixed).1.length + arrivals.length ≤ (drain peer s arrivals).1.length + mixed.length := by
  -- the kind of item put in speaks of the keys alone, which no step changes
  have hgeneral : ∀ {kind : Arrival Addr TransportError → Prop} {arrivals mixed},
      Inserts kind arrivals mixed → ∀ s, (∀ a, kind a → Forged peer s a) →
      (drain peer s mixed).2 = (drain peer s arrivals).2 ∧ Inserts IsError (drain peer s arrivals).1 (drain peer s mixed).1 ∧
      (drain peer s mixed).1.length + arrivals.length ≤ (drain peer s arrivals).1.length + mixed.length := by
    intro kind arrivals mixed h
    induction h with
    | nil =>
      intro s _
      rw [drain_nil]
      exact ⟨rfl, .nil, le_rfl⟩
    | keep a _ ih =>
      intro s hs
      obtain ⟨hstate, hresults, hlength⟩ := ih (receive peer s a).2 fun b hb => (hs b hb).rewindowed rewindowed_receive
      rw [drain_cons, drain_cons]
      refine ⟨hstate, hresults.append_left _, ?_⟩
      simp only [length_append, length_cons]
      omega
    | @insert a as bs ha _ ih =>
      intro s hs
      obtain ⟨hsame, herror⟩ := receive_forged (hs a ha)
      obtain ⟨hstate, hresults, hlength⟩ := ih s hs
      rw [drain_cons, hsame]
      refine ⟨hstate, ?_, ?_⟩
      · cases hr : (receive peer s a).1 with
        | none => exact hresults
        | some result => exact .insert (herror result hr) hresults
      · have hone : (receive peer s a).1.toList.length ≤ 1 := by
          cases (receive peer s a).1 <;> simp
        simp only [length_append, length_cons]
        omega
  exact hgeneral h s fun a ha => ha

/-- Forgeries put in among any arrivals leave the session and the plaintexts
returned as they were, and add at most one error each. -/
theorem forgeries_cost_errors (peer : Addr) (s : SessionState) (arrivals mixed : List (Arrival Addr TransportError))
    (h : Inserts (Forged peer s) arrivals mixed) :
    (drain peer s mixed).2 = (drain peer s arrivals).2 ∧
    successes (drain peer s mixed).1 = successes (drain peer s arrivals).1 ∧
    Inserts IsError (drain peer s arrivals).1 (drain peer s mixed).1 ∧
    (drain peer s mixed).1.length ≤ (drain peer s arrivals).1.length + (mixed.length - arrivals.length) := by
  obtain ⟨hstate, hresults, hlength⟩ := drain_inserts h
  refine ⟨hstate, successes_of_inserts hresults, hresults, ?_⟩
  omega

section Packing

def numbers (parcels : List Parcel) : List UInt64 := parcels.map fun parcel => parcel.1.header.sequenceNumber

def deliveries (localAddr peer : Addr) (datagrams : List (List Parcel)) : List (Arrival Addr TransportError) :=
  datagrams.map fun parcels => .datagram (packed parcels) localAddr peer

/-- The datagram has one record at most and fits the receiver's buffer. -/
def Separate (parcels : List Parcel) : Prop := parcels.length ≤ 1 ∧ (packed parcels).length ≤ maxDatagramSize

variable {parcels : List Parcel} {dgrams : List (List Parcel)}

theorem applicationRecord_authentic {parcel : Parcel} (h : parcel.Authentic s) :
    applicationRecord parcel.1 = openApplicationData parcel.1 := by
  obtain ⟨-, -, cipher, -, hr⟩ := protect_eq_ok.mp h
  rw [hr]
  rfl

theorem receive_separate {parcel : Parcel} (h : parcel.Authentic s)
    (hseen : s.applicationReplay.hasSeen parcel.1.header.sequenceNumber = false)
    (hsize : (packed [parcel]).length ≤ maxDatagramSize) :
    receive peer s (.datagram (packed [parcel]) addr peer : Arrival Addr TransportError) = (some (.ok parcel.2),
        { s with applicationReplay := s.applicationReplay.markSeen parcel.1.header.sequenceNumber }) := by
  have hloop : (forEach applicationRecord [parcel.1]).run s = .ok (some parcel.2)
      { s with applicationReplay := s.applicationReplay.markSeen parcel.1.header.sequenceNumber } := by
    refine forEach_cons_some ?_
    rw [applicationRecord_authentic h]
    exact openApplicationData_eq_some.mpr ⟨hseen, open_protect h, rfl⟩
  rw [receive, recvRecords_packed (by simpa using h) hsize]
  dsimp only
  rw [if_pos rfl, map_singleton, hloop]

theorem receive_empty : receive peer s (.datagram (packed []) addr peer : Arrival Addr TransportError) = (none, s) := by
  have hsize : (packed []).length ≤ maxDatagramSize := Nat.zero_le _
  rw [receive, recvRecords_packed (s := s) (forall_mem_nil _) hsize]
  dsimp only
  rw [if_pos rfl]
  rfl

theorem drain_separate (hauthentic : ∀ parcel ∈ dgrams.flatten, parcel.Authentic s)
    (hwindow : InWindow s.applicationReplay (numbers dgrams.flatten)) (hseparate : ∀ parcels ∈ dgrams, Separate parcels) :
    (drain peer s (deliveries addr peer dgrams : List (Arrival Addr TransportError))).1 =
      dgrams.flatten.map fun parcel => .ok parcel.2 := by
  induction dgrams generalizing s with
  | nil => exact congrArg Prod.fst drain_nil
  | cons parcels dgrams ih =>
    obtain ⟨⟨hone, hsize⟩, hrest⟩ := forall_mem_cons.mp hseparate
    rw [deliveries, map_cons, drain_cons]
    match parcels with
    | [] =>
      rw [receive_empty]
      exact ih hauthentic hwindow hrest
    | [parcel] =>
      obtain ⟨hfirst, hauthentic⟩ := forall_mem_cons.mp hauthentic
      rw [receive_separate hfirst hwindow.1 hsize]
      have htail := ih (s := { s with
        applicationReplay := s.applicationReplay.markSeen parcel.1.header.sequenceNumber }) hauthentic hwindow.2 hrest
      exact congrArg (.ok parcel.2 :: ·) htail

/-- A call takes one plaintext out of a datagram at most, and none out of one
that is empty or does not fit. -/
theorem successes_receive_le : (successes (receive peer s
      (.datagram (packed parcels) addr peer : Arrival Addr TransportError)).1.toList).length ≤ parcels.length ∧
    (parcels.length ≤ (successes (receive peer s
      (.datagram (packed parcels) addr peer : Arrival Addr TransportError)).1.toList).length → Separate parcels) := by
  have hone (res : Option (Received TransportError)) : (successes res.toList).length ≤ 1 := by
    rcases res with _ | _ | _ <;> simp [successes]
  rcases parcels with _ | ⟨parcel, _ | ⟨second, rest⟩⟩
  · rw [receive_empty]
    exact ⟨le_rfl, fun _ => ⟨Nat.zero_le _, Nat.zero_le _⟩⟩
  · refine ⟨hone _, fun h => ⟨le_rfl, ?_⟩⟩
    by_contra hsize
    rw [receive, recvRecords, if_pos (Nat.lt_of_not_le hsize)] at h
    simp [successes] at h
  · have hfew := hone (receive peer s
      (.datagram (packed (parcel :: second :: rest)) addr peer : Arrival Addr TransportError)).1
    simp only [length_cons]
    exact ⟨by omega, fun h => by omega⟩

theorem successes_drain_le :
    (successes (drain peer s (deliveries addr peer dgrams : List (Arrival Addr TransportError))).1).length ≤
      dgrams.flatten.length ∧ (dgrams.flatten.length ≤ (successes
      (drain peer s (deliveries addr peer dgrams : List (Arrival Addr TransportError))).1).length →
      ∀ parcels ∈ dgrams, Separate parcels) := by
  induction dgrams generalizing s with
  | nil =>
    rw [deliveries, map_nil, drain_nil]
    exact ⟨le_rfl, fun _ _ h => nomatch h⟩
  | cons parcels dgrams ih =>
    rw [deliveries, map_cons, drain_cons]
    obtain ⟨hle, hsep⟩ := @successes_receive_le Addr TransportError _ _ peer addr s parcels
    obtain ⟨hle', hsep'⟩ := ih (s := (receive peer s
      (.datagram (packed parcels) addr peer : Arrival Addr TransportError)).2)
    rw [deliveries] at hle' hsep'
    rw [successes_append, length_append, flatten_cons, length_append]
    refine ⟨Nat.add_le_add hle hle', fun h => forall_mem_cons.mpr ⟨hsep ?_, hsep' ?_⟩⟩
    · omega
    · omega

/-- Repeated calls return the plaintexts of all records, each once and in
order, exactly when no datagram carries a second record and every datagram
fits the buffer: what follows the record that a call returns is dropped. -/
theorem records_returned_iff (localAddr peer : Addr) (s : SessionState) (datagrams : List (List Parcel))
    (hauthentic : ∀ parcel ∈ datagrams.flatten, parcel.Authentic s)
    (hwindow : InWindow s.applicationReplay (numbers datagrams.flatten)) :
    successes (drain peer s (deliveries localAddr peer datagrams : List (Arrival Addr TransportError))).1 =
      datagrams.flatten.map Prod.snd ↔ ∀ parcels ∈ datagrams, Separate parcels := by
  constructor
  · intro h
    obtain ⟨-, hsep⟩ := @successes_drain_le Addr TransportError _ _ peer localAddr s datagrams
    refine hsep ?_
    rw [h, length_map]
  · intro h
    rw [drain_separate hauthentic hwindow h]
    have hall (parcels : List Parcel) :
        successes (parcels.map fun parcel => (.ok parcel.2 : Received TransportError)) = parcels.map Prod.snd := by
      induction parcels with
      | nil => rfl
      | cons parcel parcels ih => exact congrArg (parcel.2 :: ·) ih
    exact hall _

end Packing

end Reception

section Witness

attribute [local instance] residues

def residueServer : SessionState := .new residueSession .server

def residueParcel (sequence : UInt64) (content : UInt8) : Parcel :=
  (protectedRecord .applicationData 1 sequence (content :: tag), [content])

theorem residueParcels_inWindow :
    InWindow residueServer.applicationReplay (numbers [residueParcel 1 7, residueParcel 2 8]) := by
  have hnew : ∀ seq ∈ [(1 : UInt64), 2], residueServer.applicationReplay.hasSeen seq = false :=
    forall_mem_cons.mpr ⟨rfl, forall_mem_singleton.mpr rfl⟩
  exact inWindow_of_increasing (by decide) hnew

theorem records_returned_residues :
    successes (drain false residueServer (deliveries true false [[residueParcel 1 7], [residueParcel 2 8]] :
      List (Arrival Bool Unit))).1 = [[7], [8]] := by
  refine (records_returned_iff true false residueServer [[residueParcel 1 7], [residueParcel 2 8]]
    ?_ residueParcels_inWindow).mpr ?_
  · intro parcel hm
    have hcases : parcel = residueParcel 1 7 ∨ parcel = residueParcel 2 8 := by simpa using hm
    rcases hcases with rfl | rfl
    · exact rfl
    · exact rfl
  · intro parcels hm
    have hcases : parcels = [residueParcel 1 7] ∨ parcels = [residueParcel 2 8] := by simpa using hm
    rcases hcases with rfl | rfl
    · exact ⟨le_rfl, by decide +kernel⟩
    · exact ⟨le_rfl, by decide +kernel⟩

/-- The second record of a datagram is lost, whatever number of calls follow. -/
theorem second_record_lost_residues :
    (residueParcel 1 7).Authentic residueServer ∧ (residueParcel 2 8).Authentic residueServer ∧
    InWindow residueServer.applicationReplay (numbers [residueParcel 1 7, residueParcel 2 8]) ∧
    successes (drain false residueServer (deliveries true false [[residueParcel 1 7, residueParcel 2 8]] :
      List (Arrival Bool Unit))).1 = [[7]] := by
  refine ⟨rfl, rfl, residueParcels_inWindow, ?_⟩
  decide +kernel

def residueForgery : Arrival Bool Unit :=
  .datagram (datagramOf [protectedRecord .applicationData 1 1000 (9 :: List.replicate 8 1)]) true false

theorem residueForgery_forged : Forged false residueServer residueForgery := by
  refine ⟨_, true, protectedRecord .applicationData 1 1000 (9 :: List.replicate 8 1), _, rfl, ?_, rfl, rfl, rfl⟩
  exact DtlsRecord.parseDatagram_flatMap (by simpa using protectedRecord_wellFormed (by decide) (by decide))

theorem forgeries_cost_errors_residues :
    (drain false residueServer (residueForgery :: deliveries true false [[residueParcel 1 7]])).2 =
      (drain false residueServer (deliveries true false [[residueParcel 1 7]] : List (Arrival Bool Unit))).2 ∧
    successes (drain false residueServer (residueForgery :: deliveries true false [[residueParcel 1 7]])).1 =
      [[7]] := by
  obtain ⟨hstate, hplain, -⟩ := forgeries_cost_errors false residueServer
    (deliveries true false [[residueParcel 1 7]]) _ (.insert residueForgery_forged (.keep _ .nil))
  exact ⟨hstate, hplain.trans (by decide +kernel)⟩

end Witness

end ThreadCommissioner.Reception
