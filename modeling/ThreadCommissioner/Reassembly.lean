import ThreadCommissioner.HandshakeMessages

namespace ThreadCommissioner.Reassembly

open ByteStrings Computations Errors HandshakeMessages List

section Model

def maxHandshakeMessageLen : ℕ := 64 * 1024

structure HandshakeReassembler where
  messageType : Option HandshakeType
  messageSeq : Option UInt16
  bytes : Bytes
  filled : List Bool
  deriving DecidableEq

def HandshakeReassembler.default : HandshakeReassembler := ⟨none, none, [], []⟩

abbrev ReassemblerM (α : Type) := EStateM DtlsError HandshakeReassembler α

def metadataMismatch : DtlsError := .crypto "DTLS handshake fragment metadata mismatch"

def exceedsMessage : DtlsError := .crypto "DTLS handshake fragment exceeds message length"

def overlapsDifferently : DtlsError := .crypto "DTLS handshake fragment overlaps with different data"

def exceedsLimit (length : ℕ) : DtlsError :=
  .crypto ("DTLS handshake message length " ++ toString length ++ " exceeds the " ++ toString maxHandshakeMessageLen ++
    "-byte limit")

def HandshakeReassembler.initialized (header : HandshakeHeader) : HandshakeReassembler where
  messageType := some header.messageType
  messageSeq := some header.messageSeq
  bytes := List.replicate header.length 0
  filled := List.replicate header.length false

def initializeOrValidate (header : HandshakeHeader) : ReassemblerM Unit := do
  let r ← get
  match r.messageType, r.messageSeq with
  | none, none =>
    if maxHandshakeMessageLen < header.length then throw (exceedsLimit header.length)
    else set (HandshakeReassembler.initialized header)
  | some messageType, some messageSeq =>
    if messageType = header.messageType ∧ messageSeq = header.messageSeq ∧ r.bytes.length = header.length then return ()
    else throw metadataMismatch
  | _, _ => throw metadataMismatch

def HandshakeReassembler.put (r : HandshakeReassembler) (position : ℕ) (byte : UInt8) : HandshakeReassembler :=
  { r with bytes := r.bytes.set position byte, filled := r.filled.set position true }

/-- The loop over the bytes of a fragment, which are written while they are
compared. The positions are within the message. -/
def fill (position : ℕ) : Bytes → ReassemblerM Unit
  | [] => return ()
  | byte :: rest => do
    let r ← get
    if r.filled.getD position false = true ∧ r.bytes.getD position 0 ≠ byte then throw overlapsDifferently
    else
      set (r.put position byte)
      fill (position + 1) rest

def assembled : ReassemblerM (Option HandshakeMessage) := do
  let r ← get
  if r.filled.all id then
    let messageType ← okOr r.messageType (DtlsError.crypto "missing handshake type")
    let messageSeq ← okOr r.messageSeq (DtlsError.crypto "missing handshake sequence")
    return some ⟨messageType, messageSeq, r.bytes⟩
  else return none

def push (fragment : HandshakeFragment) : ReassemblerM (Option HandshakeMessage) := do
  initializeOrValidate fragment.header
  let r ← get
  if r.bytes.length < fragment.header.fragmentOffset + fragment.fragment.length then throw exceedsMessage
  else
    fill fragment.header.fragmentOffset fragment.fragment
    assembled

/-- The reassembler after some pushes, whatever they have returned. -/
def HandshakeReassembler.after (r : HandshakeReassembler) (fragments : List HandshakeFragment) : HandshakeReassembler :=
  fragments.foldl (fun r fragment => finalState ((push fragment).run r)) r

def HandshakeReassembler.responses (r : HandshakeReassembler) :
    List HandshakeFragment → List (Except DtlsError (Option HandshakeMessage))
  | [] => []
  | fragment :: fragments =>
    outcome ((push fragment).run r) :: (finalState ((push fragment).run r)).responses fragments

end Model

section Knowledge

variable {r r' : HandshakeReassembler} {n p : ℕ} {bs : Bytes}

def HandshakeReassembler.known (r : HandshakeReassembler) (i : ℕ) : Option UInt8 :=
  if r.filled.getD i false = true then some (r.bytes.getD i 0) else none

def HandshakeReassembler.Sized (r : HandshakeReassembler) (n : ℕ) : Prop := r.bytes.length = n ∧ r.filled.length = n

theorem known_initialized (hdr : HandshakeHeader) (i : ℕ) : (HandshakeReassembler.initialized hdr).known i = none := by
  have hfilled : (List.replicate hdr.length false).getD i false = false := by
    rw [List.getD_eq_getElem?_getD, List.getElem?_replicate]
    split <;> rfl
  exact if_neg (by rw [HandshakeReassembler.initialized, hfilled]; exact Bool.false_ne_true)

theorem sized_initialized (hdr : HandshakeHeader) : (HandshakeReassembler.initialized hdr).Sized hdr.length :=
  ⟨length_replicate, length_replicate⟩

theorem HandshakeReassembler.Sized.put (h : r.Sized n) (byte : UInt8) : (r.put p byte).Sized n :=
  ⟨length_set.trans h.1, length_set.trans h.2⟩

theorem known_put (h : r.Sized n) (hp : p < n) (byte : UInt8) (i : ℕ) :
    (r.put p byte).known i = if i = p then some byte else r.known i := by
  obtain ⟨hbytes, hfilled⟩ := h
  rw [HandshakeReassembler.known, HandshakeReassembler.put]
  by_cases hi : i = p
  · subst hi
    simp [List.getD_eq_getElem?_getD, hbytes, hfilled, hp]
  · simp [List.getD_eq_getElem?_getD, hi, Ne.symm hi, HandshakeReassembler.known]

theorem set_getD {α : Type} (l : List α) (i : ℕ) (d : α) : l.set i (l.getD i d) = l := by
  refine List.ext_getElem? fun j => ?_
  rw [List.getElem?_set]
  split
  · next hij =>
    subst hij
    split
    · next hlt => rw [List.getD_eq_getElem?_getD, List.getElem?_eq_getElem hlt, Option.getD_some]
    · next hge => rw [List.getElem?_eq_none (Nat.not_lt.mp hge)]
  · rfl

theorem put_of_known {byte : UInt8} (h : r.known p = some byte) : r.put p byte = r := by
  rw [HandshakeReassembler.known] at h
  split at h
  · next hfilled =>
    cases h
    have hset := set_getD r.filled p false
    rw [hfilled] at hset
    rw [HandshakeReassembler.put, hset, set_getD]
  · cases h

/-- The state with the bytes written over it. -/
structure Overlaid (r : HandshakeReassembler) (p : ℕ) (bs : Bytes) (r' : HandshakeReassembler) : Prop where
  messageType : r'.messageType = r.messageType
  messageSeq : r'.messageSeq = r.messageSeq
  sized : ∀ {n}, r.Sized n → r'.Sized n
  known : ∀ i, r'.known i = if p ≤ i ∧ i < p + bs.length then bs[i - p]? else r.known i

def Compatible (r : HandshakeReassembler) (p : ℕ) (bs : Bytes) : Prop :=
  ∀ j < bs.length, r.known (p + j) = none ∨ r.known (p + j) = bs[j]?

theorem fill_cons_of_compatible {byte : UInt8} (h : r.known p = none ∨ r.known p = some byte) :
    (fill p (byte :: bs)).run r = (fill (p + 1) bs).run (r.put p byte) := by
  have hcond : ¬ (r.filled.getD p false = true ∧ r.bytes.getD p 0 ≠ byte) := by
    rintro ⟨hfilled, hne⟩
    rw [HandshakeReassembler.known, if_pos hfilled] at h
    rcases h with h | h
    · cases h
    · exact hne (Option.some.inj h)
  rw [fill, get_bind, if_neg hcond, set_bind]

theorem fill_cons_of_conflict {byte b : UInt8} (h : r.known p = some b) (hne : byte ≠ b) :
    (fill p (byte :: bs)).run r = .error overlapsDifferently r := by
  have hcond : r.filled.getD p false = true ∧ r.bytes.getD p 0 ≠ byte := by
    rw [HandshakeReassembler.known] at h
    split at h
    · next hfilled =>
      cases h
      exact ⟨hfilled, hne.symm⟩
    · cases h
  rw [fill, get_bind, if_pos hcond]
  rfl

/-- What agrees with the rest is written; by induction on the bytes. -/
theorem fill_of_compatible (hs : r.Sized n) (hp : p + bs.length ≤ n) (h : Compatible r p bs) :
    ∃ r', (fill p bs).run r = .ok () r' ∧ Overlaid r p bs r' := by
  induction bs generalizing r p with
  | nil =>
    refine ⟨r, rfl, rfl, rfl, id, fun i => ?_⟩
    rw [if_neg (by simp)]
  | cons byte bs ih =>
    rw [length_cons] at hp
    have hlt : p < n := by omega
    have hnext : Compatible (r.put p byte) (p + 1) bs := by
      intro j hj
      rw [known_put hs hlt, if_neg (by omega), Nat.add_right_comm]
      exact h (j + 1) (Nat.succ_lt_succ hj)
    obtain ⟨r', hrun, hoverlaid⟩ := ih (hs.put byte) (by omega) hnext
    refine ⟨r', (fill_cons_of_compatible (h 0 (Nat.zero_lt_succ _))).trans hrun, hoverlaid.messageType,
      hoverlaid.messageSeq, fun hsized => hoverlaid.sized (hsized.put byte), fun i => ?_⟩
    rw [hoverlaid.known, known_put hs hlt, length_cons]
    rcases Nat.lt_trichotomy i p with hi | rfl | hi
    · rw [if_neg (by omega), if_neg (by omega), if_neg (by omega)]
    · rw [if_neg (by omega), if_pos rfl, if_pos (by omega), Nat.sub_self]
      rfl
    · have hindex : i - p = i - (p + 1) + 1 := by omega
      rw [if_neg (Nat.ne_of_gt hi), hindex, List.getElem?_cons_succ]
      by_cases hlast : i < p + 1 + bs.length
      · rw [if_pos ⟨hi, hlast⟩, if_pos (by omega)]
      · rw [if_neg (fun h => hlast h.2), if_neg (by omega)]

theorem fill_append (xs ys : Bytes) (p : ℕ) (r : HandshakeReassembler) :
    (fill p (xs ++ ys)).run r = (do fill p xs; fill (p + xs.length) ys : ReassemblerM Unit).run r := by
  induction xs generalizing p r with
  | nil => rfl
  | cons x xs ih =>
    rw [cons_append, fill, fill, get_bind]
    split
    · next hcond => rw [bind_assoc, get_bind, if_pos hcond]; rfl
    · next hcond =>
      rw [bind_assoc, get_bind, if_neg hcond, set_bind, ih, bind_assoc, set_bind, length_cons, Nat.add_right_comm,
        Nat.add_assoc]

theorem fill_of_conflict (hs : r.Sized n) (hp : p + bs.length ≤ n) {k : ℕ} (hk : k < bs.length)
    (hbefore : Compatible r p (bs.take k)) {b : UInt8} (hknown : r.known (p + k) = some b) (hne : bs[k]? ≠ some b) :
    ∃ r', (fill p bs).run r = .error overlapsDifferently r' ∧ Overlaid r p (bs.take k) r' := by
  have hlen : (bs.take k).length = k := by rw [length_take, min_eq_left hk.le]
  obtain ⟨r', hrun, hoverlaid⟩ := fill_of_compatible hs (by rw [hlen]; omega) hbefore
  have hdrop : bs.drop k = bs[k] :: bs.drop (k + 1) := drop_eq_getElem_cons hk
  have hknown' : r'.known (p + k) = some b := by
    rw [hoverlaid.known, hlen, if_neg (by omega), hknown]
  have hbyte : bs[k] ≠ b := by
    rw [List.getElem?_eq_getElem hk] at hne
    exact fun heq => hne (congrArg some heq)
  refine ⟨r', ?_, hoverlaid⟩
  rw [← take_append_drop k bs, fill_append, bind_of_ok hrun, hlen, hdrop]
  exact fill_cons_of_conflict hknown' hbyte

/-- The first byte that differs from what is known. -/
structure FirstConflict (r : HandshakeReassembler) (p : ℕ) (bs : Bytes) (k : ℕ) : Prop where
  lt : k < bs.length
  before : Compatible r p (bs.take k)
  conflict : ∃ b, r.known (p + k) = some b ∧ bs[k]? ≠ some b

theorem compatible_or_firstConflict (r : HandshakeReassembler) (p : ℕ) (bs : Bytes) :
    Compatible r p bs ∨ ∃ k, FirstConflict r p bs k := by
  classical
  by_cases h : Compatible r p bs
  · exact .inl h
  · have hexists : ∃ k, k < bs.length ∧ ¬ (r.known (p + k) = none ∨ r.known (p + k) = bs[k]?) := by
      simpa [Compatible] using h
    refine .inr ⟨Nat.find hexists, (Nat.find_spec hexists).1, fun j hj => ?_, ?_⟩
    · rw [length_take] at hj
      have hlt : j < Nat.find hexists := by omega
      have hmin := Nat.find_min hexists hlt
      rw [List.getElem?_take_of_lt hlt]
      by_contra hnot
      exact hmin ⟨by omega, hnot⟩
    · have hspec := (Nat.find_spec hexists).2
      rw [not_or] at hspec
      obtain ⟨b, hb⟩ := Option.ne_none_iff_exists'.mp hspec.1
      exact ⟨b, hb, fun heq => hspec.2 (hb.trans heq.symm)⟩

end Knowledge

section Pushes

variable {r r' : HandshakeReassembler} {f : HandshakeFragment} {messageType : HandshakeType} {seq : UInt16}
  {n : ℕ}

/-- The reassembler of a message of this identity and length. -/
structure Identified (r : HandshakeReassembler) (messageType : HandshakeType) (messageSeq : UInt16) (n : ℕ) : Prop where
  messageType : r.messageType = some messageType
  messageSeq : r.messageSeq = some messageSeq
  sized : r.Sized n

theorem identified_initialized (hdr : HandshakeHeader) :
    Identified (.initialized hdr) hdr.messageType hdr.messageSeq hdr.length := ⟨rfl, rfl, sized_initialized hdr⟩

theorem Identified.overlaid {p : ℕ} {bs : Bytes} (h : Identified r messageType seq n) (ho : Overlaid r p bs r') :
    Identified r' messageType seq n :=
  ⟨ho.messageType.trans h.messageType, ho.messageSeq.trans h.messageSeq, ho.sized h.sized⟩

def Describes (header : HandshakeHeader) (messageType : HandshakeType) (messageSeq : UInt16) (n : ℕ) : Prop :=
  messageType = header.messageType ∧ messageSeq = header.messageSeq ∧ n = header.length

theorem initializeOrValidate_default {hdr : HandshakeHeader} (h : hdr.length ≤ maxHandshakeMessageLen) :
    (initializeOrValidate hdr).run .default = .ok () (.initialized hdr) := by
  rw [initializeOrValidate, get_bind]
  exact congrArg (EStateM.run · HandshakeReassembler.default) (if_neg (Nat.not_lt.mpr h))

theorem initializeOrValidate_tooLong {hdr : HandshakeHeader} (h : maxHandshakeMessageLen < hdr.length) :
    (initializeOrValidate hdr).run .default = .error (exceedsLimit hdr.length) .default := by
  rw [initializeOrValidate, get_bind]
  exact congrArg (EStateM.run · HandshakeReassembler.default) (if_pos h)

theorem initializeOrValidate_identified (hr : Identified r messageType seq n) {hdr : HandshakeHeader} :
    (Describes hdr messageType seq n → (initializeOrValidate hdr).run r = .ok () r) ∧
      (¬ Describes hdr messageType seq n → (initializeOrValidate hdr).run r = .error metadataMismatch r) := by
  rw [initializeOrValidate, get_bind, hr.messageType, hr.messageSeq, hr.sized.1]
  dsimp only
  constructor
  · intro h
    rw [Describes] at h
    rw [if_pos h]
    rfl
  · intro h
    rw [Describes] at h
    rw [if_neg h]
    rfl

theorem push_of_initialized {r₀ : HandshakeReassembler} (h : (initializeOrValidate f.header).run r = .ok () r₀) :
    (push f).run r = if r₀.bytes.length < f.header.fragmentOffset + f.fragment.length then .error exceedsMessage r₀
      else (do fill f.header.fragmentOffset f.fragment; assembled : ReassemblerM _).run r₀ := by
  rw [push, bind_of_ok h, get_bind]
  split <;> rfl

theorem all_filled_iff (h : r.Sized n) : r.filled.all id = true ↔ ∀ i < n, r.known i ≠ none := by
  rw [all_eq_true]
  constructor
  · intro hall i hi
    have hlt : i < r.filled.length := h.2.symm ▸ hi
    have hfilled : r.filled.getD i false = true := by
      rw [List.getD_eq_getElem?_getD, List.getElem?_eq_getElem hlt, Option.getD_some]
      exact hall _ (getElem_mem hlt)
    rw [HandshakeReassembler.known, if_pos hfilled]
    nofun
  · intro hall b hmem
    obtain ⟨i, hlt, rfl⟩ := mem_iff_getElem.mp hmem
    have hne := hall i (h.2 ▸ hlt)
    rw [HandshakeReassembler.known] at hne
    by_contra hfalse
    refine hne (if_neg fun hfilled => hfalse ?_)
    rw [List.getD_eq_getElem?_getD, List.getElem?_eq_getElem hlt, Option.getD_some] at hfilled
    exact hfilled

theorem assembled_of_identified (h : Identified r messageType seq n) :
    assembled.run r = .ok (if r.filled.all id then some ⟨messageType, seq, r.bytes⟩ else none) r := by
  rw [assembled, get_bind, h.messageType, h.messageSeq]
  split <;> rfl

theorem bytes_of_known {payload : Bytes} (h : r.Sized payload.length) (hknown : ∀ i < payload.length, r.known i = payload[i]?) :
    r.bytes = payload := by
  refine ext_getElem h.1 fun i hi hi' => ?_
  have hbyte := hknown i hi'
  rw [HandshakeReassembler.known, List.getElem?_eq_getElem hi'] at hbyte
  split at hbyte
  · rw [List.getD_eq_getElem?_getD, List.getElem?_eq_getElem hi, Option.getD_some] at hbyte
    exact Option.some.inj hbyte
  · cases hbyte

end Pushes

section Genuine

variable {m : HandshakeMessage} {f : HandshakeFragment} {frags : List HandshakeFragment} {r : HandshakeReassembler}

/-- A fragment of the message, of any offset and length within it. -/
structure Genuine (m : HandshakeMessage) (f : HandshakeFragment) : Prop where
  messageType : f.header.messageType = m.messageType
  messageSeq : f.header.messageSeq = m.messageSeq
  length : f.header.length = m.payload.length
  fragmentLength : f.header.fragmentLength = f.fragment.length
  within : f.header.fragmentOffset + f.fragment.length ≤ m.payload.length
  fragment : f.fragment = fieldAt f.header.fragmentOffset f.fragment.length m.payload

def Covers (fragments : List HandshakeFragment) (i : ℕ) : Prop :=
  ∃ f ∈ fragments, f.header.fragmentOffset ≤ i ∧ i < f.header.fragmentOffset + f.fragment.length

theorem Genuine.getElem? (h : Genuine m f) {j : ℕ} (hj : j < f.fragment.length) :
    f.fragment[j]? = m.payload[f.header.fragmentOffset + j]? := by
  rw [h.fragment, fieldAt, List.getElem?_take_of_lt hj, List.getElem?_drop]

theorem covers_append {i : ℕ} : Covers (frags ++ [f]) i ↔
    Covers frags i ∨ f.header.fragmentOffset ≤ i ∧ i < f.header.fragmentOffset + f.fragment.length := by
  simp [Covers, or_and_right, exists_or]

/-- The reassembler has collected what the fragments have of the message. -/
structure Collected (m : HandshakeMessage) (fragments : List HandshakeFragment) (r : HandshakeReassembler) : Prop where
  identified : Identified r m.messageType m.messageSeq m.payload.length
  covered : ∀ i, Covers fragments i → r.known i = m.payload[i]?
  missing : ∀ i, ¬ Covers fragments i → r.known i = none

theorem Collected.compatible (h : Collected m frags r) (hf : Genuine m f) :
    Compatible r f.header.fragmentOffset f.fragment := by
  intro j hj
  by_cases hcovers : Covers frags (f.header.fragmentOffset + j)
  · exact .inr ((h.covered _ hcovers).trans (hf.getElem? hj).symm)
  · exact .inl (h.missing _ hcovers)

theorem Collected.overlaid (h : Collected m frags r) {r' : HandshakeReassembler} (hf : Genuine m f)
    (ho : Overlaid r f.header.fragmentOffset f.fragment r') : Collected m (frags ++ [f]) r' := by
  refine ⟨h.identified.overlaid ho, fun i hcovers => ?_, fun i hcovers => ?_⟩
  · rw [ho.known]
    split
    · next hin =>
      rw [hf.getElem? (by omega), Nat.add_sub_cancel' hin.1]
    · next hout => exact h.covered i ((covers_append.mp hcovers).resolve_right hout)
  · rw [covers_append, not_or] at hcovers
    rw [ho.known, if_neg hcovers.2]
    exact h.missing i hcovers.1

theorem Collected.assembled (h : Collected m frags r) :
    ∃ res, assembled.run r = .ok res r ∧ (res = some m ↔ ∀ i < m.payload.length, Covers frags i) ∧
      (res = none ↔ ¬ ∀ i < m.payload.length, Covers frags i) := by
  have hall : r.filled.all id = true ↔ ∀ i < m.payload.length, Covers frags i := by
    rw [all_filled_iff h.identified.sized]
    refine forall_congr' fun i => imp_congr_right fun hi => ⟨fun hknown => ?_, fun hcovers => ?_⟩
    · by_contra hcovers
      exact hknown (h.missing i hcovers)
    · rw [h.covered i hcovers, List.getElem?_eq_getElem hi]
      nofun
  refine ⟨_, assembled_of_identified h.identified, ?_, ?_⟩
  · rw [← hall]
    split
    · next hfilled =>
      have hbytes := bytes_of_known h.identified.sized fun i hi => h.covered i (hall.mp hfilled i hi)
      exact iff_of_true (by rw [hbytes]) hfilled
    · next hfilled => exact iff_of_false nofun hfilled
  · rw [← hall]
    split
    · next hfilled => exact iff_of_false nofun (not_not.mpr hfilled)
    · next hfilled => exact iff_of_true rfl hfilled

/-- The reassembler before the next fragment: new, or with what was collected. -/
def Awaiting (m : HandshakeMessage) (fragments : List HandshakeFragment) (r : HandshakeReassembler) : Prop :=
  fragments = [] ∧ r = .default ∨ Collected m fragments r

theorem Awaiting.initializes (h : Awaiting m frags r) (hlen : m.payload.length ≤ maxHandshakeMessageLen)
    (hf : Genuine m f) : ∃ r₀, (initializeOrValidate f.header).run r = .ok () r₀ ∧ Collected m frags r₀ := by
  rcases h with ⟨rfl, rfl⟩ | h
  · refine ⟨_, initializeOrValidate_default (hf.length.trans_le hlen), ?_, ?_, fun i _ => known_initialized _ i⟩
    · rw [← hf.messageType, ← hf.messageSeq, ← hf.length]
      exact identified_initialized _
    · rintro i ⟨g, hmem, -⟩
      cases hmem
  · exact ⟨r, (initializeOrValidate_identified h.identified).1 ⟨hf.messageType.symm, hf.messageSeq.symm, hf.length.symm⟩, h⟩

theorem push_genuine (h : Awaiting m frags r) (hlen : m.payload.length ≤ maxHandshakeMessageLen) (hf : Genuine m f) :
    ∃ res r', (push f).run r = .ok res r' ∧ Collected m (frags ++ [f]) r' ∧
      (res = some m ↔ ∀ i < m.payload.length, Covers (frags ++ [f]) i) ∧
      (res = none ↔ ¬ ∀ i < m.payload.length, Covers (frags ++ [f]) i) := by
  obtain ⟨r₀, hinitialized, hcollected⟩ := h.initializes hlen hf
  have hlen : r₀.bytes.length = m.payload.length := hcollected.identified.sized.1
  obtain ⟨r', hfill, hoverlaid⟩ := fill_of_compatible hcollected.identified.sized hf.within (hcollected.compatible hf)
  have hcollected' := hcollected.overlaid hf hoverlaid
  obtain ⟨res, hassembled, hresult⟩ := hcollected'.assembled
  refine ⟨res, r', ?_, hcollected', hresult⟩
  rw [push_of_initialized hinitialized, hlen, if_neg (Nat.not_lt.mpr hf.within), bind_of_ok hfill, hassembled]

/-- Any number of pushes; by induction on the fragments from the last. -/
theorem awaiting_after (hlen : m.payload.length ≤ maxHandshakeMessageLen) (h : ∀ f ∈ frags, Genuine m f) :
    Awaiting m frags (HandshakeReassembler.default.after frags) := by
  induction frags using List.reverseRecOn with
  | nil => exact .inl ⟨rfl, rfl⟩
  | append_singleton frags f ih =>
    obtain ⟨hfragments, hf⟩ := forall_mem_append.mp h
    obtain ⟨res, r', hpush, hcollected, -⟩ := push_genuine (ih hfragments) hlen (hf f mem_cons_self)
    rw [HandshakeReassembler.after] at hpush ⊢
    rw [foldl_append, foldl_cons, foldl_nil, hpush]
    exact .inr hcollected

theorem getElem?_chunks {k : ℕ} {bs chunk : Bytes} {i : ℕ} (h : (chunks k bs)[i]? = some chunk) :
    i * k < bs.length ∧ chunk = (bs.drop (i * k)).take k := by
  fun_induction chunks k bs generalizing i with
  | case1 bs hempty => cases h
  | case2 bs hne ih =>
    cases i with
    | zero =>
      cases h
      rw [Nat.zero_mul]
      exact ⟨by omega, rfl⟩
    | succ i =>
      rw [List.getElem?_cons_succ] at h
      obtain ⟨hlt, hchunk⟩ := ih h
      rw [length_drop] at hlt
      rw [drop_drop] at hchunk
      rw [Nat.succ_mul, Nat.add_comm]
      exact ⟨by omega, hchunk⟩

theorem chunks_eq_nil {k : ℕ} (hk : k ≠ 0) {bs : Bytes} (h : chunks k bs = []) : bs = [] := by
  rw [chunks] at h
  split at h
  · next hempty => exact length_eq_zero_iff.mp (hempty.resolve_right hk)
  · cases h

theorem genuine_of_fragment {k : ℕ} (h : m.fragment k = .ok frags) : ∀ f ∈ frags, Genuine m f := by
  rw [HandshakeMessage.fragment] at h
  split_ifs at h with hk
  intro f hmem
  cases h
  split at hmem
  · next hempty =>
    have hnil : chunks k m.payload = [] := by simpa using hempty
    have hpayload := chunks_eq_nil hk hnil
    rw [mem_singleton.mp hmem]
    exact ⟨rfl, rfl, by rw [hpayload]; rfl, rfl, Nat.zero_le _, rfl⟩
  · obtain ⟨i, hi, rfl⟩ := mem_mapIdx.mp hmem
    obtain ⟨hlt, hchunk⟩ := getElem?_chunks (List.getElem?_eq_getElem hi)
    rw [hchunk]
    refine ⟨rfl, rfl, rfl, rfl, ?_, ?_⟩
    · rw [length_take, length_drop]
      dsimp only
      omega
    · rw [fieldAt, length_take]
      dsimp only
      rw [take_eq_take_iff]
      omega

/-- Fragments of a message are never refused, in whatever order they come and
however they overlap, and the message is returned exactly once they have all of
it; those that it is split into are such fragments. -/
theorem reassembly_is_complete (m : HandshakeMessage) (hlen : m.payload.length ≤ 65536) :
    (∀ fragments f, (∀ g ∈ fragments ++ [f], Genuine m g) →
        ∃ result, outcome ((push f).run (HandshakeReassembler.default.after fragments)) = .ok result ∧
          (result = some m ↔ ∀ i < m.payload.length, Covers (fragments ++ [f]) i) ∧
          (result = none ↔ ¬ ∀ i < m.payload.length, Covers (fragments ++ [f]) i)) ∧
      ∀ k fragments, m.fragment k = .ok fragments → ∀ f ∈ fragments, Genuine m f := by
  refine ⟨fun fragments f h => ?_, fun k fragments => genuine_of_fragment⟩
  obtain ⟨hfragments, hf⟩ := forall_mem_append.mp h
  obtain ⟨result, r', hpush, -, hresult⟩ := push_genuine (awaiting_after hlen hfragments) hlen (hf f mem_cons_self)
  exact ⟨result, by rw [hpush]; rfl, hresult⟩

def threeBytes : HandshakeMessage := ⟨.finished, 1, [1, 2, 3]⟩

def partOf (offset : ℕ) (fragment : Bytes) : HandshakeFragment := ⟨⟨.finished, 3, 1, offset, fragment.length⟩, fragment⟩

/-- The last two bytes come first, and the first two overlap with them. -/
theorem reassembly_is_complete_overlapping :
    outcome ((push (partOf 0 [1, 2])).run (HandshakeReassembler.default.after [partOf 1 [2, 3]])) = .ok (some threeBytes) := by
  have hgenuine : ∀ g ∈ [partOf 1 [2, 3]] ++ [partOf 0 [1, 2]], Genuine threeBytes g := by
    simp only [cons_append, nil_append, forall_mem_cons]
    exact ⟨⟨rfl, rfl, rfl, rfl, by decide, rfl⟩, ⟨rfl, rfl, rfl, rfl, by decide, rfl⟩, forall_mem_nil _⟩
  obtain ⟨result, hresult, hsome, -⟩ := (reassembly_is_complete threeBytes (by decide)).1 _ _ hgenuine
  rw [hresult, hsome.mpr ?_]
  intro i hi
  have hlt : i < 3 := hi
  by_cases hfirst : i < 2
  · exact covers_append.mpr (.inr ⟨Nat.zero_le i, hfirst⟩)
  · exact ⟨partOf 1 [2, 3], mem_cons_self, by change 1 ≤ i; omega, hlt⟩

end Genuine

section Rejections

variable {r r' : HandshakeReassembler} {f : HandshakeFragment} {messageType : HandshakeType} {seq : UInt16}
  {n : ℕ}

def Coherent (r : HandshakeReassembler) : Prop :=
  r = .default ∨ ∃ messageType messageSeq n, Identified r messageType messageSeq n

/-- A push on the reassembler of a message, by its outcomes: the fragment is of
another message or too long for this one, agrees with what is known, or differs
from it. -/
theorem push_identified (h : Identified r messageType seq n) (f : HandshakeFragment) :
    (¬ (Describes f.header messageType seq n ∧ f.header.fragmentOffset + f.fragment.length ≤ n) ∧
        ∃ e, (push f).run r = .error e r) ∨
      (Describes f.header messageType seq n ∧ f.header.fragmentOffset + f.fragment.length ≤ n) ∧
        (Compatible r f.header.fragmentOffset f.fragment ∧
            (∃ res r', (push f).run r = .ok res r' ∧ Overlaid r f.header.fragmentOffset f.fragment r') ∨
          ∃ k, FirstConflict r f.header.fragmentOffset f.fragment k ∧ ∃ r', (push f).run r = .error overlapsDifferently r' ∧
              Overlaid r f.header.fragmentOffset (f.fragment.take k) r') := by
  by_cases hdescribes : Describes f.header messageType seq n
  · have hpush := push_of_initialized ((initializeOrValidate_identified h).1 hdescribes)
    rw [h.sized.1] at hpush
    by_cases hwithin : f.header.fragmentOffset + f.fragment.length ≤ n
    · rw [if_neg (Nat.not_lt.mpr hwithin)] at hpush
      refine .inr ⟨⟨hdescribes, hwithin⟩, ?_⟩
      obtain hcompatible | ⟨k, hk⟩ := compatible_or_firstConflict r f.header.fragmentOffset f.fragment
      · obtain ⟨r', hfill, hoverlaid⟩ := fill_of_compatible h.sized hwithin hcompatible
        rw [bind_of_ok hfill, assembled_of_identified (h.overlaid hoverlaid)] at hpush
        exact .inl ⟨hcompatible, _, r', hpush, hoverlaid⟩
      · obtain ⟨b, hknown, hne⟩ := hk.conflict
        obtain ⟨r', hfill, hoverlaid⟩ := fill_of_conflict h.sized hwithin hk.lt hk.before hknown hne
        rw [bind_of_error hfill] at hpush
        exact .inr ⟨k, hk, r', hpush, hoverlaid⟩
    · rw [if_pos (Nat.not_le.mp hwithin)] at hpush
      exact .inl ⟨fun h => hwithin h.2, _, hpush⟩
  · have hpush : (push f).run r = .error metadataMismatch r :=
      bind_of_error ((initializeOrValidate_identified h).2 hdescribes)
    exact .inl ⟨fun h => hdescribes h.1, _, hpush⟩

theorem push_default (h : f.header.length ≤ maxHandshakeMessageLen) :
    (push f).run .default = (push f).run (.initialized f.header) := by
  have hinitialized := identified_initialized f.header
  rw [push_of_initialized (initializeOrValidate_default h),
    push_of_initialized ((initializeOrValidate_identified hinitialized).1 ⟨rfl, rfl, rfl⟩)]

theorem Identified.push (h : Identified r messageType seq n) (f : HandshakeFragment) :
    Identified (finalState ((Reassembly.push f).run r)) messageType seq n := by
  obtain ⟨-, e, hpush⟩ | ⟨-, ⟨-, res, r', hpush, hoverlaid⟩ | ⟨k, -, r', hpush, hoverlaid⟩⟩ := push_identified h f
  · rw [hpush]
    exact h
  · rw [hpush]
    exact h.overlaid hoverlaid
  · rw [hpush]
    exact h.overlaid hoverlaid

theorem Coherent.push (h : Coherent r) (f : HandshakeFragment) : Coherent (finalState ((Reassembly.push f).run r)) := by
  rcases h with rfl | ⟨messageType, seq, n, h⟩
  · by_cases hlen : f.header.length ≤ maxHandshakeMessageLen
    · rw [push_default hlen]
      exact .inr ⟨_, _, _, (identified_initialized f.header).push f⟩
    · have hpush : (Reassembly.push f).run .default = .error (exceedsLimit f.header.length) .default :=
        bind_of_error (initializeOrValidate_tooLong (Nat.not_le.mp hlen))
      rw [hpush]
      exact .inl rfl
  · exact .inr ⟨_, _, _, h.push f⟩

theorem Coherent.after (h : Coherent r) (frags : List HandshakeFragment) : Coherent (r.after frags) := by
  induction frags generalizing r with
  | nil => exact h
  | cons f frags ih => exact ih (h.push f)

theorem fill_of_known {p k : ℕ} {bs : Bytes} (hk : FirstConflict r p bs k) (hknown : ∀ j < k, r.known (p + j) ≠ none) :
    (fill p bs).run r = .error overlapsDifferently r := by
  induction bs generalizing p k with
  | nil => exact absurd hk.lt (Nat.not_lt_zero k)
  | cons byte bs ih =>
    obtain ⟨b, hb, hne⟩ := hk.conflict
    cases k with
    | zero => exact fill_cons_of_conflict hb fun heq => hne (congrArg some heq)
    | succ k =>
      have hfirst : r.known p = some byte := (hk.before 0 (by simp)).resolve_left (hknown 0 (Nat.zero_lt_succ k))
      have hrest : FirstConflict r (p + 1) bs k := by
        refine ⟨Nat.lt_of_succ_lt_succ hk.lt, fun j hj => ?_, b, ?_, hne⟩
        · have hbefore := hk.before (j + 1) (by simpa using hj)
          rw [Nat.add_right_comm, Nat.add_assoc]
          exact hbefore
        · rw [Nat.add_right_comm, Nat.add_assoc]
          exact hb
      rw [fill_cons_of_compatible (.inr hfirst), put_of_known hfirst]
      refine ih hrest fun j hj => ?_
      rw [Nat.add_right_comm, Nat.add_assoc]
      exact hknown (j + 1) (Nat.succ_lt_succ hj)

/-- No byte of the fragment that is not known yet stands before the first that
differs. -/
def NothingNew (r : HandshakeReassembler) (f : HandshakeFragment) : Prop :=
  ∀ i < f.fragment.length, r.known (f.header.fragmentOffset + i) = none →
    ∃ k < i, ∃ b, r.known (f.header.fragmentOffset + k) = some b ∧ f.fragment[k]? ≠ some b

/-- The fragment leaves nothing behind when it is refused: it is of another
message or too long, or has nothing new before it differs. A new reassembler
refuses nothing without a trace but a message beyond the limit. -/
def Harmless (r : HandshakeReassembler) (f : HandshakeFragment) : Prop :=
  match r.messageType, r.messageSeq with
  | some messageType, some messageSeq =>
    ¬ (Describes f.header messageType messageSeq r.bytes.length ∧
        f.header.fragmentOffset + f.fragment.length ≤ r.bytes.length) ∨ NothingNew r f
  | _, _ => maxHandshakeMessageLen < f.header.length

theorem nothingNew_iff {k : ℕ} (hk : FirstConflict r f.header.fragmentOffset f.fragment k) :
    NothingNew r f ↔ ∀ j < k, r.known (f.header.fragmentOffset + j) ≠ none := by
  constructor
  · intro h j hj hnone
    obtain ⟨i, hi, b, hb, hne⟩ := h j (hj.trans hk.lt) hnone
    have hlen : i < (f.fragment.take k).length := by
      rw [length_take]
      exact lt_min (hi.trans hj) ((hi.trans hj).trans hk.lt)
    rcases hk.before i hlen with hbefore | hbefore
    · cases hbefore.symm.trans hb
    · rw [List.getElem?_take_of_lt (hi.trans hj), hb] at hbefore
      exact hne hbefore.symm
  · intro h i hi hnone
    rcases Nat.lt_trichotomy i k with hlt | rfl | hlt
    · exact absurd hnone (h i hlt)
    · obtain ⟨b, hb, -⟩ := hk.conflict
      cases hnone.symm.trans hb
    · exact ⟨k, hlt, hk.conflict⟩

def probe (messageType : HandshakeType) (messageSeq : UInt16) (n position : ℕ) (byte : UInt8) : HandshakeFragment :=
  ⟨⟨messageType, n, messageSeq, position, 1⟩, [byte]⟩

theorem push_probe (h : Identified r messageType seq n) {pos : ℕ} (hposition : pos < n) (byte : UInt8) :
    (r.known pos = none → ∃ res, outcome ((push (probe messageType seq n pos byte)).run r) = .ok res) ∧
      ∀ b, r.known pos = some b → byte ≠ b → ∃ e, outcome ((push (probe messageType seq n pos byte)).run r) = .error e := by
  have hfits : Describes (probe messageType seq n pos byte).header messageType seq n ∧
      pos + 1 ≤ n := ⟨⟨rfl, rfl, rfl⟩, hposition⟩
  obtain ⟨hnot, -⟩ | ⟨-, ⟨hcompatible, res, r', hpush, -⟩ | ⟨k, hk, r', hpush, -⟩⟩ :=
    push_identified h (probe messageType seq n pos byte)
  · exact absurd hfits hnot
  · refine ⟨fun _ => ⟨res, by rw [hpush]; rfl⟩, fun b hb hne => ?_⟩
    rcases hcompatible 0 Nat.zero_lt_one with hknown | hknown
    · cases hknown.symm.trans hb
    · exact absurd (Option.some.inj (hknown.symm.trans hb)) hne
  · refine ⟨fun hnone => ?_, fun b hb hne => ⟨_, by rw [hpush]; rfl⟩⟩
    have hzero : k = 0 := Nat.lt_one_iff.mp hk.lt
    obtain ⟨b, hb, -⟩ := hk.conflict
    rw [hzero] at hb
    cases hnone.symm.trans hb

theorem trace_of_unknown (h : Identified r messageType seq n)
    (hwithin : f.header.fragmentOffset + f.fragment.length ≤ n) {k j : ℕ}
    (hk : FirstConflict r f.header.fragmentOffset f.fragment k) (hj : j < k)
    (hnone : r.known (f.header.fragmentOffset + j) = none)
    (ho : Overlaid r f.header.fragmentOffset (f.fragment.take k) r') : ∃ later, r'.responses later ≠ r.responses later := by
  have hlt : j < f.fragment.length := hj.trans hk.lt
  have hposition : f.header.fragmentOffset + j < n := by omega
  have hknown : r'.known (f.header.fragmentOffset + j) = some f.fragment[j] := by
    rw [ho.known, length_take, if_pos (by omega), Nat.add_sub_cancel_left, List.getElem?_take_of_lt hj,
      List.getElem?_eq_getElem hlt]
  have hne : f.fragment[j] + 1 ≠ f.fragment[j] := by simp
  obtain ⟨res, hok⟩ := (push_probe h hposition (f.fragment[j] + 1)).1 hnone
  obtain ⟨e, herror⟩ := (push_probe (h.overlaid ho) hposition (f.fragment[j] + 1)).2 _ hknown hne
  refine ⟨[probe messageType seq n (f.header.fragmentOffset + j) (f.fragment[j] + 1)], fun heq => ?_⟩
  cases (herror.symm.trans (List.cons.inj heq).1).trans hok

theorem trace_of_initialized (h : Identified r messageType seq n) :
    ∃ later, r.responses later ≠ HandshakeReassembler.default.responses later := by
  let other : HandshakeFragment := ⟨⟨messageType, 0, seq + 1, 0, 0⟩, []⟩
  have hnot : ¬ Describes other.header messageType seq n := by
    rintro ⟨-, hseq, -⟩
    have hne : seq ≠ seq + 1 := by simp
    exact hne hseq
  have herror : (push other).run r = .error metadataMismatch r := bind_of_error ((initializeOrValidate_identified h).2 hnot)
  have hok : ∃ res r', (push other).run .default = .ok res r' := by
    rw [push_default (Nat.zero_le _)]
    obtain ⟨hnot, -⟩ | ⟨-, ⟨-, res, r', hpush, -⟩ | ⟨k, hk, -⟩⟩ := push_identified (identified_initialized other.header) other
    · exact absurd ⟨⟨rfl, rfl, rfl⟩, le_rfl⟩ hnot
    · exact ⟨res, r', hpush⟩
    · exact absurd hk.lt (Nat.not_lt_zero k)
  obtain ⟨res, r', hok⟩ := hok
  refine ⟨[other], fun heq => ?_⟩
  have hfirst := (List.cons.inj heq).1
  rw [herror, hok] at hfirst
  cases hfirst

/-- A refused fragment leaves no trace exactly if it is harmless. -/
theorem rejected_fragment_leaves_no_trace_iff (fragments : List HandshakeFragment) (f : HandshakeFragment) (e : DtlsError)
    (h : outcome ((push f).run (HandshakeReassembler.default.after fragments)) = .error e) :
    (∀ later, (finalState ((push f).run (HandshakeReassembler.default.after fragments))).responses later =
        (HandshakeReassembler.default.after fragments).responses later) ↔
      Harmless (HandshakeReassembler.default.after fragments) f := by
  have hcoherent : Coherent (HandshakeReassembler.default.after fragments) := Coherent.after (.inl rfl) fragments
  generalize HandshakeReassembler.default.after fragments = r at h hcoherent
  rcases hcoherent with rfl | ⟨messageType, messageSeq, n, hidentified⟩
  · by_cases hlength : f.header.length ≤ maxHandshakeMessageLen
    · rw [push_default hlength]
      obtain ⟨later, hlater⟩ := trace_of_initialized ((identified_initialized f.header).push f)
      exact iff_of_false (fun heq => hlater (heq later)) (Nat.not_lt.mpr hlength)
    · have hpush : (push f).run .default = .error (exceedsLimit f.header.length) .default :=
        bind_of_error (initializeOrValidate_tooLong (Nat.not_le.mp hlength))
      rw [hpush]
      exact iff_of_true (fun _ => rfl) (Nat.not_le.mp hlength)
  · rw [Harmless, hidentified.messageType, hidentified.messageSeq, hidentified.sized.1]
    obtain ⟨hnot, e', hpush⟩ | ⟨hfits, ⟨-, result, r', hpush, -⟩ | ⟨k, hk, r', hpush, hoverlaid⟩⟩ :=
      push_identified hidentified f
    · rw [hpush]
      exact iff_of_true (fun _ => rfl) (.inl hnot)
    · rw [hpush] at h
      cases h
    · dsimp only
      rw [or_iff_right (not_not.mpr hfits), nothingNew_iff hk, hpush]
      constructor
      · intro hsame j hj hnone
        obtain ⟨later, hlater⟩ := trace_of_unknown hidentified hfits.2 hk hj hnone hoverlaid
        exact hlater (hsame later)
      · intro hknown later
        have hrun := push_of_initialized ((initializeOrValidate_identified hidentified).1 hfits.1)
        rw [hidentified.sized.1, if_neg (Nat.not_lt.mpr hfits.2), bind_of_error (fill_of_known hk hknown)] at hrun
        cases hpush.symm.trans hrun
        rfl

/-- The last byte of the forged fragment differs from the one that is known, but
the first two are kept, so that the true ones are refused. -/
theorem rejected_fragment_leaves_trace :
    outcome ((push (partOf 0 [9, 9, 9])).run (HandshakeReassembler.default.after [partOf 2 [3]])) = .error overlapsDifferently ∧
      (finalState ((push (partOf 0 [9, 9, 9])).run (HandshakeReassembler.default.after [partOf 2 [3]]))).responses
          [partOf 0 [1, 2]] = [.error overlapsDifferently] ∧
      (HandshakeReassembler.default.after [partOf 2 [3]]).responses [partOf 0 [1, 2]] = [.ok (some threeBytes)] := by
  exact ⟨rfl, rfl, rfl⟩

/-- A fragment that differs in its first byte is refused as if it had not come. -/
theorem rejected_fragment_leaves_no_trace_first :
    outcome ((push (partOf 2 [9])).run (HandshakeReassembler.default.after [partOf 2 [3]])) = .error overlapsDifferently ∧
      ∀ later, (finalState ((push (partOf 2 [9])).run (HandshakeReassembler.default.after [partOf 2 [3]]))).responses later =
        (HandshakeReassembler.default.after [partOf 2 [3]]).responses later := by
  have hrejected : outcome ((push (partOf 2 [9])).run (HandshakeReassembler.default.after [partOf 2 [3]])) =
      .error overlapsDifferently := rfl
  refine ⟨hrejected, (rejected_fragment_leaves_no_trace_iff [partOf 2 [3]] (partOf 2 [9]) _ hrejected).mpr (.inr ?_)⟩
  intro i hi hnone
  have hzero : i = 0 := Nat.lt_one_iff.mp hi
  subst hzero
  cases hnone

end Rejections

end ThreadCommissioner.Reassembly
