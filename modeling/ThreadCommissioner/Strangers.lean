import ThreadCommissioner.HandshakeAgreement
import ThreadCommissioner.Reception

namespace ThreadCommissioner.Strangers

open ClientDriver Computations Drivers Framing List Primitives Reception
  Records Residues Sessions

section Strangers

variable {Addr TransportError : Type}

theorem recvRecords_byte (addr remote : Addr) : recvRecords (.datagram [0] addr remote : Arrival Addr TransportError) =
      .error (.protocol (.crypto "DTLS record header is truncated")) := by
  have hparse : DtlsRecord.parseDatagram [0] = .error (.crypto "DTLS record header is truncated") :=
    Framer.all_of_error (cons_ne_nil _ _) rfl
  rw [recvRecords, if_neg (by decide), hparse]

variable [DecidableEq Addr]

def fromStranger (peer : Addr) : Arrival Addr TransportError → Bool
  | .datagram _ _ remote => remote ≠ peer
  | _ => false

def withoutStrangers (peer : Addr) (arrivals : List (Arrival Addr TransportError)) :
    List (Arrival Addr TransportError) := arrivals.filter fun arrival => !fromStranger peer arrival

/-- The datagram fits the buffer and is a sequence of whole records. -/
def Readable (arrival : Arrival Addr TransportError) : Prop := ∃ received, recvRecords arrival = .ok received

variable {peer : Addr} {arr : Arrival Addr TransportError}

theorem source_ne (h : fromStranger peer arr = true) {rs : List DtlsRecord} {addr source : Addr}
    (hread : recvRecords arr = .ok (rs, addr, source)) : source ≠ peer := by
  obtain ⟨bytes, rfl, -⟩ := recvRecords_eq_ok hread
  simpa [fromStranger] using h

variable [Suite]

def turn (peer : Addr) (call : Option (Received TransportError) × SessionState)
    (arrival : Arrival Addr TransportError) : Option (Received TransportError) × SessionState :=
  match call.1 with
  | some _ => call
  | none => receive peer call.2 arrival

theorem foldl_turn_some (res : Received TransportError) (s : SessionState)
    (arrs : List (Arrival Addr TransportError)) : arrs.foldl (turn peer) (some res, s) = (some res, s) := by
  induction arrs with
  | nil => rfl
  | cons arr arrs ih => exact ih

theorem foldl_turn (s : SessionState) (arrs : List (Arrival Addr TransportError)) : arrs.foldl (turn peer) (none, s) =
      ((recvApplicationData peer s arrs).1, (recvApplicationData peer s arrs).2.1) := by
  induction arrs generalizing s with
  | nil => rfl
  | cons arr arrs ih =>
    rw [foldl_cons, recvApplicationData]
    change arrs.foldl (turn peer) (receive peer s arr) = _
    cases h : receive peer s arr with
    | mk result t =>
      cases result with
      | some result => exact foldl_turn_some result t arrs
      | none => exact ih t

theorem turn_stranger (h : fromStranger peer arr = true) (call : Option (Received TransportError) × SessionState) :
    turn peer call arr = call ↔ (call.1 = none → Readable arr) := by
  obtain ⟨res, s⟩ := call
  cases res with
  | some res => exact ⟨fun _ => nofun, fun _ => rfl⟩
  | none =>
    change receive peer s arr = (none, s) ↔ _
    rw [receive]
    cases hread : recvRecords arr with
    | ok received =>
      obtain ⟨rs, addr, source⟩ := received
      dsimp only
      rw [if_neg (source_ne h hread)]
      exact ⟨fun _ _ => ⟨_, hread⟩, fun _ => rfl⟩
    | error e =>
      constructor
      · intro hsame
        cases congrArg Prod.fst hsame
      · intro hread'
        obtain ⟨_, hok⟩ := hread' rfl
        cases hread.symm.trans hok

theorem step_stranger {client : Client Addr TransportError} (h : fromStranger client.peer arr = true) :
    client.step arr = client ↔ (client.stage.isWaiting = true → Readable arr) := by
  rw [Client.step]
  by_cases hwait : client.stage.isWaiting = true
  · rw [if_pos hwait]
    cases hread : recvRecords arr with
    | ok received =>
      obtain ⟨rs, addr, source⟩ := received
      dsimp only
      rw [if_neg (source_ne h hread)]
      exact ⟨fun _ _ => ⟨_, hread⟩, fun _ => rfl⟩
    | error e =>
      constructor
      · intro hsame
        rw [← hsame] at hwait
        cases hwait
      · intro hread'
        obtain ⟨_, hok⟩ := hread' hwait
        cases hread.symm.trans hok
  · rw [if_neg hwait]
    exact ⟨fun _ hw => absurd hw hwait, fun _ => rfl⟩

theorem peer_step (client : Client Addr TransportError) (arr : Arrival Addr TransportError) :
    (client.step arr).peer = client.peer := by
  rw [Client.step]
  split
  · split
    · rfl
    · split
      · rw [Client.settle.eq_def]
        split <;> rfl
      · rfl
  · rfl

theorem peer_run (client : Client Addr TransportError) (arrs : List (Arrival Addr TransportError)) :
    (client.run arrs).peer = client.peer := by
  induction arrs generalizing client with
  | nil => rfl
  | cons arr arrs ih => exact (ih _).trans (peer_step client arr)

/-- At every moment a call of the receiver, and the client's handshake, are
where they would be had no stranger sent anything, exactly when each stranger's
datagram that meets a waiting call or handshake can be read: it is parsed
before its source is looked at. -/
theorem strangers_ignored_iff (peer : Addr) (s : SessionState) (client : Client Addr TransportError)
    (arrivals : List (Arrival Addr TransportError)) :
    ((∀ before after, arrivals = before ++ after →
        (recvApplicationData peer s (withoutStrangers peer before)).1 = (recvApplicationData peer s before).1 ∧
        (recvApplicationData peer s (withoutStrangers peer before)).2.1 = (recvApplicationData peer s before).2.1) ↔
      ∀ before arrival after, arrivals = before ++ arrival :: after → fromStranger peer arrival = true →
        (recvApplicationData peer s before).1 = none → Readable arrival) ∧
    ((∀ before after, arrivals = before ++ after →
        client.run (withoutStrangers client.peer before) = client.run before) ↔
      ∀ before arrival after, arrivals = before ++ arrival :: after → fromStranger client.peer arrival = true →
        (client.run before).stage.isWaiting = true → Readable arrival) := by
  constructor
  · have h := @foldl_filter_iff _ _ (turn peer) (fun arrival => !fromStranger peer arrival) (none, s) arrivals
    simp only [foldl_turn, Prod.mk.injEq, Bool.not_eq_false_eq_eq_true] at h
    refine h.trans (forall₃_congr fun before arrival after => forall₂_congr fun _ hstranger => ?_)
    exact turn_stranger hstranger _
  · have h := @foldl_filter_iff _ _ Client.step (fun arrival => !fromStranger client.peer arrival) client arrivals
    simp only [Bool.not_eq_false_eq_eq_true] at h
    refine h.trans (forall₃_congr fun before arrival after => forall₂_congr fun _ hstranger => ?_)
    rw [← peer_run client before] at hstranger
    exact step_stranger hstranger

end Strangers

section Counterexample

attribute [local instance] residues

/-- One byte, which is no record, from an address that is not the peer's. -/
def residueJunk : Arrival Bool Unit := .datagram [0] true true

/-- A stranger's byte ends a call that was about to return a plaintext, and
the handshake in each of its waits. -/
theorem stranger_disturbs_residues :
    fromStranger false residueJunk = true ∧
    (recvApplicationData false residueServer
      (withoutStrangers false (residueJunk :: deliveries true false [[residueParcel 1 7]]))).1 = some (.ok [7]) ∧
    (recvApplicationData false residueServer (residueJunk :: deliveries true false [[residueParcel 1 7]])).1 =
      some (.error (.protocol (.crypto "DTLS record header is truncated"))) ∧
    ∀ client : Client Bool Unit, client.peer = false → client.stage.isWaiting = true →
      client.run (withoutStrangers false [residueJunk]) = client ∧
      (client.run [residueJunk]).stage = .failed (.protocol (.crypto "DTLS record header is truncated")) := by
  have hread : recvRecords residueJunk = .error (.protocol (.crypto "DTLS record header is truncated")) :=
    recvRecords_byte true true
  refine ⟨rfl, ?_, ?_, fun client _ hwait => ⟨rfl, ?_⟩⟩
  · have hauthentic : (residueParcel 1 7).Authentic residueServer := rfl
    have hseen : residueServer.applicationReplay.hasSeen (residueParcel 1 7).1.header.sequenceNumber = false := rfl
    have hsize : (packed [residueParcel 1 7]).length ≤ maxDatagramSize := by decide +kernel
    change (recvApplicationData false residueServer [.datagram (packed [residueParcel 1 7]) true false]).1 = _
    rw [recvApplicationData, receive_separate hauthentic hseen hsize]
    rfl
  · rw [recvApplicationData, receive, hread]
  · change (client.step residueJunk).stage = _
    rw [Client.step, if_pos hwait, hread]

end Counterexample

end ThreadCommissioner.Strangers
