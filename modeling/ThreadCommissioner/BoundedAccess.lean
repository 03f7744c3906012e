import ThreadCommissioner.Framing
import ThreadCommissioner.Readers

namespace ThreadCommissioner.BoundedAccess

open ByteStrings Computations Framing List Readers

variable {ε α β : Type}

/-- A fallible computation that reaches into buffers by position. It has no
result at all if a position is out of range, or if a loop takes more turns than
it was given. -/
def Bounded (ε α : Type) := Option (Except ε α)

def lost : Bounded ε α := none

def safe (x : Except ε α) : Bounded ε α := some x

def fail (e : ε) : Bounded ε α := safe (.error e)

instance : Monad (Bounded ε) where
  pure a := safe (.ok a)
  bind x f :=
    match x with
    | none => none
    | some (.error e) => fail e
    | some (.ok a) => f a

theorem safe_ok_bind (a : α) (f : α → Bounded ε β) : (safe (.ok a) >>= f) = f a := rfl

theorem fail_bind (e : ε) (f : α → Bounded ε β) : (fail e >>= f) = fail e := rfl

theorem map_id_bounded (x : Bounded ε α) : id <$> x = x := by
  rcases x with _ | _ | _ <;> rfl

theorem bind_assoc_bounded {γ : Type} (x : Bounded ε α) (f : α → Bounded ε β) (g : β → Bounded ε γ) :
    (x >>= f >>= g) = x >>= fun a => f a >>= g := by
  rcases x with _ | _ | _ <;> rfl

instance : LawfulMonad (Bounded ε) := .mk' _ map_id_bounded (fun _ _ => rfl) bind_assoc_bounded

theorem safe_bind {x : Except ε α} {f : α → Bounded ε β} {g : α → Except ε β}
    (h : ∀ a, x = .ok a → f a = safe (g a)) : (safe x >>= f) = safe (x >>= g) := by
  cases x with
  | error e => rfl
  | ok a => exact h a rfl

theorem mapM_safe {f : α → Bounded ε β} {g : α → Except ε β} {as : List α} (h : ∀ a ∈ as, f a = safe (g a)) :
    as.mapM f = safe (as.mapM g) := by
  induction as with
  | nil => rfl
  | cons a as ih =>
    obtain ⟨ha, has⟩ := forall_mem_cons.mp h
    rw [mapM_cons, mapM_cons, ha, ih has]
    exact safe_bind fun b _ => safe_bind fun bs _ => rfl

section Buffers

variable {bytes : Bytes} {i start finish width : ℕ}

/-- `bytes[i]`. -/
def byte (bytes : Bytes) (i : ℕ) : Bounded ε UInt8 := bytes[i]?.map .ok

/-- `bytes[start..finish]`. -/
def slice (bytes : Bytes) (start finish : ℕ) : Bounded ε Bytes :=
  if start ≤ finish ∧ finish ≤ bytes.length then safe (.ok ((bytes.take finish).drop start)) else lost

/-- The bytes at `width` positions from `start` on, each reached by its index. -/
def bytesAt (bytes : Bytes) (start width : ℕ) : Bounded ε Bytes := (List.range width).mapM fun i => byte bytes (start + i)

def number (bytes : Bytes) (start width : ℕ) : Bounded ε ℕ := do return beNat (← bytesAt bytes start width)

theorem byte_of_lt (h : i < bytes.length) : (byte bytes i : Bounded ε UInt8) = safe (.ok (bytes.getD i 0)) := by
  rw [byte, List.getD_eq_getElem?_getD, List.getElem?_eq_getElem h]
  rfl

theorem slice_of_le (hstart : start ≤ finish) (hfinish : finish ≤ bytes.length) :
    (slice bytes start finish : Bounded ε Bytes) = safe (.ok ((bytes.take finish).drop start)) := if_pos ⟨hstart, hfinish⟩

theorem slice_to_end (h : start ≤ bytes.length) :
    (slice bytes start bytes.length : Bounded ε Bytes) = safe (.ok (bytes.drop start)) := by
  rw [slice_of_le h le_rfl, take_length]

variable (h : start + width ≤ bytes.length)

include h

theorem slice_add : (slice bytes start (start + width) : Bounded ε Bytes) = safe (.ok ((bytes.drop start).take width)) := by
  rw [slice_of_le (Nat.le_add_right _ _) h, drop_take, Nat.add_sub_cancel_left]

theorem bytesAt_of_le : (bytesAt bytes start width : Bounded ε Bytes) = safe (.ok ((bytes.drop start).take width)) := by
  have hbytes : (List.range width).map (fun i => bytes.getD (start + i) 0) = (bytes.drop start).take width := by
    refine ext_getElem (by simp; omega) fun i hi hi' => ?_
    have hlt : start + i < bytes.length := by
      simp only [length_map, length_range] at hi
      omega
    rw [getElem_map, getElem_range, getElem_take, getElem_drop, List.getD_eq_getElem?_getD,
      List.getElem?_eq_getElem hlt, Option.getD_some]
  have hread : ∀ i ∈ List.range width, (byte bytes (start + i) : Bounded ε UInt8) = safe (.ok (bytes.getD (start + i) 0)) := by
    intro i hi
    exact byte_of_lt (by have := mem_range.mp hi; omega)
  rw [bytesAt, mapM_safe hread, except_mapM_of_ok fun _ _ => rfl, hbytes]

theorem number_of_le : (number bytes start width : Bounded ε ℕ) = safe (.ok (beNat ((bytes.drop start).take width))) := by
  rw [number, bytesAt_of_le h]
  rfl

end Buffers

section Loops

variable {next : Bytes → Bounded ε (α × Bytes)} {F : Framer ε α}

/-- A loop that cuts frames off the front of a buffer until it is empty, for at
most so many turns. -/
def scan (next : Bytes → Bounded ε (α × Bytes)) (step : β → α → Bounded ε β) : ℕ → β → Bytes → Bounded ε β
  | _, b, [] => pure b
  | 0, _, _ :: _ => lost
  | turns + 1, b, first :: rest => do
    let (a, rest) ← next (first :: rest)
    scan next step turns (← step b a) rest

def collect (next : Bytes → Bounded ε (α × Bytes)) (turns : ℕ) (bytes : Bytes) : Bounded ε (List α) :=
  scan next (fun as a => pure (as ++ [a])) turns [] bytes

def Consumes (next : Bytes → Bounded ε (α × Bytes)) : Prop :=
  ∀ {bytes a rest}, next bytes = safe (.ok (a, rest)) → rest.length < bytes.length

theorem consumes_of_framer (h : ∀ bytes, next bytes = safe (F.next bytes)) : Consumes next := by
  intro bytes a rest hnext
  rw [h] at hnext
  exact F.shrinks (Option.some.inj hnext)

theorem scan_eq_fold {step : β → α → Bounded ε β} {step' : β → α → Except ε β}
    (hnext : ∀ bytes, next bytes = safe (F.next bytes)) (hstep : ∀ b a, step b a = safe (step' b a)) {turns : ℕ}
    {bytes : Bytes} (h : bytes.length ≤ turns) (b : β) : scan next step turns b bytes = safe (F.fold step' b bytes) := by
  induction turns generalizing b bytes with
  | zero =>
    rw [length_eq_zero_iff.mp (Nat.le_zero.mp h), Framer.fold]
    rfl
  | succ turns ih =>
    cases bytes with
    | nil =>
      rw [Framer.fold]
      rfl
    | cons first rest =>
      have hne : first :: rest ≠ [] := cons_ne_nil _ _
      cases hframe : F.next (first :: rest) with
      | error e =>
        rw [scan, hnext, hframe, Framer.fold_of_error hne hframe]
        rfl
      | ok frame =>
        obtain ⟨a, rest'⟩ := frame
        have hlt := F.shrinks hframe
        rw [scan, hnext, hframe, safe_ok_bind, Framer.fold_of_next hne hframe]
        dsimp only
        rw [hstep]
        refine safe_bind fun b' _ => ih ?_ b'
        rw [length_cons] at h hlt
        omega

theorem fold_push (F : Framer ε α) (as : List α) (bytes : Bytes) :
    F.fold (fun as a => .ok (as ++ [a])) as bytes = (F.all bytes).map (as ++ ·) := by
  fun_induction Framer.all F bytes generalizing as with
  | case1 bytes hempty =>
    rw [Framer.fold, if_pos hempty]
    simp [Except.map]
  | case2 bytes hempty e he => exact Framer.fold_of_error (by simpa using hempty) he as
  | case3 bytes hempty a rest hn hlt e he ih =>
    rw [Framer.fold_of_next (by simpa using hempty) hn, ok_bind, ih, he]
    rfl
  | case4 bytes hempty a rest hn hlt as' has ih =>
    rw [Framer.fold_of_next (by simpa using hempty) hn, ok_bind, ih, has]
    simp [Except.map]

theorem collect_eq_all (hnext : ∀ bytes, next bytes = safe (F.next bytes)) (bytes : Bytes) :
    collect next bytes.length bytes = safe (F.all bytes) := by
  have hpush : ∀ (as : List α) (a : α), (pure (as ++ [a]) : Bounded ε (List α)) = safe (.ok (as ++ [a])) := fun _ _ => rfl
  rw [collect, scan_eq_fold hnext hpush le_rfl, fold_push]
  cases F.all bytes <;> rfl

end Loops

/-- A parser that stays in its input and makes no more of it than there is: the
values that it returns, whose sizes are listed, are no more than the bytes and
take up no more room. -/
structure Confined (checked : Bytes → Bounded ε α) (parse : Bytes → Except ε α) (sizes : α → List ℕ) : Prop where
  inRange : ∀ bytes, checked bytes = safe (parse bytes)
  count : ∀ {bytes a}, parse bytes = .ok a → (sizes a).length ≤ bytes.length
  total : ∀ {bytes a}, parse bytes = .ok a → (sizes a).sum ≤ bytes.length

theorem Confined.of_sum {checked : Bytes → Bounded ε α} {parse : Bytes → Except ε α} {sizes : α → List ℕ}
    (inRange : ∀ bytes, checked bytes = safe (parse bytes))
    (h : ∀ {bytes a}, parse bytes = .ok a → ((sizes a).map (· + 1)).sum ≤ bytes.length) : Confined checked parse sizes := by
  have hsum : ∀ ns : List ℕ, (ns.map (· + 1)).sum = ns.sum + ns.length := by
    intro ns
    simp [sum_map_add]
  refine ⟨inRange, fun hparse => ?_, fun hparse => ?_⟩
  · have hle := h hparse
    rw [hsum] at hle
    omega
  · have hle := h hparse
    rw [hsum] at hle
    omega

section Cursors

/-- A buffer and a position in it. -/
structure Cursor where
  bytes : Bytes
  offset : ℕ

abbrev CursorM (ε α : Type) := StateT Cursor (Bounded ε) α

namespace Cursor

def new (bytes : Bytes) : Cursor := ⟨bytes, 0⟩

/-- The difference has no value if the offset is past the end. -/
def remaining : CursorM ε ℕ := fun c =>
  if c.offset ≤ c.bytes.length then pure (c.bytes.length - c.offset, c) else lost

/-- The sum of two lengths of buffers cannot overflow, so its check leaves no
trace here. -/
def readExact (truncated : ε) (len : ℕ) : CursorM ε Bytes := fun c => do
  let finish := c.offset + len
  if c.bytes.length < finish then fail truncated
  else return (← slice c.bytes c.offset finish, { c with offset := finish })

def readU8 (truncated : ε) : CursorM ε UInt8 := do
  (byte (← readExact truncated 1) 0 : Bounded ε UInt8)

def readU16 (truncated : ε) : CursorM ε UInt16 := do
  let bytes ← readExact truncated 2
  let n ← (number bytes 0 2 : Bounded ε ℕ)
  return .ofNat n

/-- `copy_from_slice` into an array, which must have the length of the slice. -/
def copyFromSlice (len : ℕ) (bytes : Bytes) : Bounded ε (ByteVector len) :=
  if h : bytes.length = len then pure ⟨bytes, h⟩ else lost

def readArray (truncated : ε) (len : ℕ) : CursorM ε (ByteVector len) := do
  (copyFromSlice len (← readExact truncated len) : Bounded ε (ByteVector len))

def readVecU8 (truncated : ε) : CursorM ε Bytes := do
  readExact truncated (← readU8 truncated).toNat

def readVecU16 (truncated : ε) : CursorM ε Bytes := do
  readExact truncated (← readU16 truncated).toNat

def finish (trailing : ε) : CursorM ε Unit := do
  if (← remaining) = 0 then return () else (fail trailing : Bounded ε Unit)

/-- A loop that reads until nothing remains, for at most so many turns. -/
def collect (next : CursorM ε α) : ℕ → List α → Cursor → Bounded ε (List α)
  | turns, as, c => do
    let (left, c) ← remaining.run c
    if left = 0 then pure as
    else
      match turns with
      | 0 => lost
      | turns + 1 =>
        let (a, c) ← next.run c
        collect next turns (as ++ [a]) c

def rest (c : Cursor) : Bytes := c.bytes.drop c.offset

def InRange (c : Cursor) : Prop := c.offset ≤ c.bytes.length

end Cursor

open Cursor

/-- A cursor that does what a reader of the remaining bytes does: it stays in
range, fails with the same error, or has the same result with the same bytes
left. -/
def Tracks (x : CursorM ε α) (r : Reader ε α) : Prop :=
  ∀ c : Cursor, c.InRange →
    (∃ e rest, r.run c.rest = .error e rest ∧ x.run c = fail e) ∨
      ∃ a c', c'.InRange ∧ r.run c.rest = .ok a c'.rest ∧ x.run c = safe (.ok (a, c'))

variable {truncated : ε} {len : ℕ} {f : α → CursorM ε β}

theorem Tracks.bind_of_run {x : CursorM ε α} {r : Reader ε α} {g : α → Reader ε β}
    (hx : Tracks x r) (hf : ∀ {a bs rest}, r.run bs = .ok a rest → Tracks (f a) (g a)) : Tracks (x >>= f) (r >>= g) := by
  intro c hc
  have hrun : (x >>= f).run c = x.run c >>= fun p => (f p.1).run p.2 := rfl
  obtain ⟨e, rest, hr, hx⟩ | ⟨a, c', hc', hr, hx⟩ := hx c hc
  · exact .inl ⟨e, rest, bind_of_error hr, by rw [hrun, hx, fail_bind]⟩
  · rw [hrun, hx, safe_ok_bind, bind_of_ok hr]
    exact hf hr c' hc'

theorem Tracks.bind {x : CursorM ε α} {r : Reader ε α} {g : α → Reader ε β} (hx : Tracks x r)
    (hf : ∀ a, Tracks (f a) (g a)) : Tracks (x >>= f) (r >>= g) := hx.bind_of_run fun {a} _ _ _ => hf a

theorem Tracks.pure (a : α) : Tracks (pure a : CursorM ε α) (pure a) := fun c hc => .inr ⟨a, c, hc, rfl, rfl⟩

theorem Tracks.lift {x : Bounded ε α} {y : Except ε α} (h : x = safe y) :
    Tracks (liftM x : CursorM ε α) (Computations.lift y) := by
  intro c hc
  subst h
  cases y with
  | error e => exact .inl ⟨e, c.rest, rfl, rfl⟩
  | ok a => exact .inr ⟨a, c, hc, rfl, rfl⟩

theorem Tracks.ite {p : Prop} [Decidable p] {x y : CursorM ε α} {r s : Reader ε α} (hx : Tracks x r) (hy : Tracks y s) :
    Tracks (if p then x else y) (if p then r else s) := by
  split
  · exact hx
  · exact hy

theorem Tracks.lift_bind {a : α} {r : Reader ε β} (h : Tracks (f a) r) :
    Tracks (liftM (safe (.ok a) : Bounded ε α) >>= f) r := h

theorem Tracks.check {p : Prop} [Decidable p] {e : ε} {f : Unit → CursorM ε α} {g : Unit → Reader ε α}
    (h : ¬ p → Tracks (f ()) (g ())) :
    Tracks (if p then liftM (fail e : Bounded ε Unit) >>= f else f ()) (if p then throw e >>= g else g ()) := by
  by_cases hp : p
  · rw [if_pos hp, if_pos hp]
    exact fun c _ => .inl ⟨e, c.rest, rfl, rfl⟩
  · rw [if_neg hp, if_neg hp]
    exact h hp

theorem length_rest (c : Cursor) : c.rest.length = c.bytes.length - c.offset := length_drop

theorem tracks_remaining : Tracks (remaining : CursorM ε ℕ) Readers.remaining := by
  intro c hc
  refine .inr ⟨c.rest.length, c, hc, rfl, ?_⟩
  rw [length_rest]
  exact if_pos hc

theorem tracks_readExact : Tracks (Cursor.readExact truncated len) (Readers.readExact truncated len) := by
  intro c hc
  have hlen := length_rest c
  by_cases h : c.bytes.length < c.offset + len
  · have hshort : c.rest.length < len := by
      have : c.offset ≤ c.bytes.length := hc
      omega
    exact .inl ⟨truncated, c.rest, if_pos hshort, if_pos h⟩
  · have hle : c.offset + len ≤ c.bytes.length := Nat.le_of_not_lt h
    have hlong : ¬ c.rest.length < len := by omega
    have hrest : c.rest.drop len = c.bytes.drop (c.offset + len) := drop_drop
    refine .inr ⟨c.rest.take len, { c with offset := c.offset + len }, hle, ?_, ?_⟩
    · exact (if_neg hlong).trans (congrArg _ hrest)
    · have hrun : (Cursor.readExact truncated len).run c =
          slice c.bytes c.offset (c.offset + len) >>= fun out => safe (.ok (out, { c with offset := c.offset + len })) :=
        if_neg h
      rw [hrun, slice_add hle]
      rfl

theorem tracks_readU8 : Tracks (Cursor.readU8 truncated) (Readers.readU8 truncated) := by
  refine tracks_readExact.bind_of_run fun {bytes _ _} hread => ?_
  obtain ⟨b, rfl⟩ := length_eq_one_iff.mp (length_of_readExact hread).1
  have hbyte : UInt8.ofNat (beNat [b]) = b := by simp [beNat]
  rw [hbyte]
  exact Tracks.lift rfl

theorem tracks_readU16 : Tracks (Cursor.readU16 truncated) (Readers.readU16 truncated) := by
  refine tracks_readExact.bind_of_run fun {bytes _ _} hread => ?_
  have hlen := (length_of_readExact hread).1
  have hnumber : (number bytes 0 2 : Bounded ε ℕ) = safe (.ok (beNat bytes)) := by
    rw [number_of_le (by omega), drop_zero, take_of_length_le hlen.le]
  exact (Tracks.lift hnumber).bind fun n => .pure _

theorem tracks_readArray : Tracks (Cursor.readArray truncated len) (Readers.readArray truncated len) := by
  intro c hc
  have hrun : (Cursor.readArray truncated len).run c =
      (Cursor.readExact truncated len).run c >>= fun p => copyFromSlice len p.1 >>= fun v => safe (.ok (v, p.2)) := rfl
  obtain ⟨e, rest, hr, hx⟩ | ⟨bytes, c', hc', hr, hx⟩ := @tracks_readExact ε truncated len c hc
  · simp only [Readers.readExact, EStateM.run] at hr
    split at hr
    · next hshort =>
      cases hr
      exact .inl ⟨truncated, c.rest, dif_pos hshort, by rw [hrun, hx, fail_bind]⟩
    · cases hr
  · have hlen := (length_of_readExact hr).1
    simp only [Readers.readExact, EStateM.run] at hr
    split at hr
    · cases hr
    · next hlong =>
      obtain ⟨hbytes, hrest⟩ := EStateM.Result.ok.inj hr
      subst hbytes
      have hcopy : (copyFromSlice len (c.rest.take len) : Bounded ε (ByteVector len)) = safe (.ok ⟨_, hlen⟩) := dif_pos hlen
      refine .inr ⟨⟨c.rest.take len, hlen⟩, c', hc', ?_, ?_⟩
      · exact (dif_neg hlong).trans (by rw [hrest])
      · rw [hrun, hx, safe_ok_bind, hcopy]
        rfl

theorem tracks_readVecU8 : Tracks (Cursor.readVecU8 truncated) (Readers.readVecU8 truncated) :=
  tracks_readU8.bind fun _ => tracks_readExact

theorem tracks_readVecU16 : Tracks (Cursor.readVecU16 truncated) (Readers.readVecU16 truncated) :=
  tracks_readU16.bind fun _ => tracks_readExact

theorem tracks_finish {trailing : ε} : Tracks (Cursor.finish trailing) (Readers.finish trailing) := by
  have hfinish : Readers.finish trailing = Readers.remaining >>= fun left =>
      if left = 0 then pure () else Computations.lift (.error trailing) := by
    funext bs
    change _ = (if bs.length = 0 then pure () else Computations.lift (.error trailing) : Reader ε Unit) bs
    rw [Readers.finish]
    split <;> rfl
  rw [hfinish]
  exact tracks_remaining.bind fun left => .ite (.pure ()) (.lift rfl)

theorem Tracks.read {r : Reader ε α} {x : CursorM ε α} (h : Tracks x r) (bytes : Bytes) :
    (x.run (.new bytes) >>= fun p => safe (.ok p.1)) = safe (r.read bytes) := by
  rw [Reader.read]
  obtain ⟨e, rest, hr, hx⟩ | ⟨a, c', -, hr, hx⟩ := h (.new bytes) (Nat.zero_le _)
  · change r.run bytes = _ at hr
    rw [hx, hr]
    rfl
  · change r.run bytes = _ at hr
    rw [hx, hr]
    rfl

section Turns

variable {next : CursorM ε α} {r : Reader ε α} {F : Framer ε α} {c c' : Cursor} {a : α} (hnext : Tracks next r)
  (hframer : ∀ bs, F.next bs = Reader.next r bs)

include hnext hframer

theorem Tracks.turn (hc : c.InRange) : (∃ e, F.next c.rest = .error e ∧ next.run c = fail e) ∨
      ∃ a c', c'.InRange ∧ F.next c.rest = .ok (a, c'.rest) ∧ next.run c = safe (.ok (a, c')) := by
  rw [hframer, Reader.next]
  obtain ⟨e, rest, hr, hx⟩ | ⟨a, c', hc', hr, hx⟩ := hnext c hc
  · exact .inl ⟨e, by rw [hr], hx⟩
  · exact .inr ⟨a, c', hc', by rw [hr], hx⟩

theorem Tracks.rest_lt (hc : c.InRange) (h : next.run c = safe (.ok (a, c'))) : c'.rest.length < c.rest.length := by
  obtain ⟨e, -, hx⟩ | ⟨b, d, -, hframe, hx⟩ := hnext.turn hframer hc
  · cases hx.symm.trans h
  · cases hx.symm.trans h
    exact F.shrinks hframe

theorem Tracks.collect_eq_fold {turns : ℕ} (hc : c.InRange) (h : c.rest.length ≤ turns) (as : List α) :
    Cursor.collect next turns as c = safe (F.fold (fun as a => .ok (as ++ [a])) as c.rest) := by
  have hleft : ∀ {c : Cursor}, c.InRange → (Cursor.remaining.run c : Bounded ε (ℕ × Cursor)) = safe (.ok (c.rest.length, c)) := by
    intro c hc
    rw [length_rest]
    exact if_pos hc
  induction turns generalizing c as with
  | zero =>
    have hempty : c.rest.length = 0 := Nat.le_zero.mp h
    rw [Cursor.collect, hleft hc, safe_ok_bind]
    dsimp only
    rw [if_pos hempty, length_eq_zero_iff.mp hempty, Framer.fold]
    rfl
  | succ turns ih =>
    rw [Cursor.collect, hleft hc, safe_ok_bind]
    dsimp only
    by_cases hempty : c.rest.length = 0
    · rw [if_pos hempty, length_eq_zero_iff.mp hempty, Framer.fold]
      rfl
    · have hne : c.rest ≠ [] := fun hnil => hempty (by rw [hnil]; rfl)
      rw [if_neg hempty]
      obtain ⟨e, hframe, hx⟩ | ⟨a, c', hc', hframe, hx⟩ := hnext.turn hframer hc
      · rw [hx, Framer.fold_of_error hne hframe]
        rfl
      · have hlt := F.shrinks hframe
        rw [hx, safe_ok_bind, Framer.fold_of_next hne hframe]
        exact ih hc' (by omega) _

theorem Tracks.collect_eq_all (bytes : Bytes) : Cursor.collect next bytes.length [] (.new bytes) = safe (F.all bytes) := by
  have hnew : (Cursor.new bytes).InRange := Nat.zero_le _
  have hfold : Cursor.collect next bytes.length [] (.new bytes) = safe (F.fold (fun as a => .ok (as ++ [a])) [] bytes) :=
    hnext.collect_eq_fold hframer hnew (le_refl bytes.length) []
  rw [hfold, fold_push]
  cases F.all bytes <;> rfl

end Turns

end Cursors

end ThreadCommissioner.BoundedAccess
