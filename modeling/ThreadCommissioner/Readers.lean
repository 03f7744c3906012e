import ThreadCommissioner.ByteStrings
import ThreadCommissioner.Computations

namespace ThreadCommissioner.Readers

open ByteStrings Computations List

variable {ε α : Type}

/-- A length-checked cursor: the state is what has not been read yet. -/
abbrev Reader (ε α : Type) := EStateM ε Bytes α

def Reader.read (r : Reader ε α) (bs : Bytes) : Except ε α := outcome (r.run bs)

def readExact (truncated : ε) (len : ℕ) : Reader ε Bytes := fun bs =>
  if bs.length < len then .error truncated bs else .ok (bs.take len) (bs.drop len)

def readArray (truncated : ε) (len : ℕ) : Reader ε (ByteVector len) := fun bs =>
  if h : bs.length < len then .error truncated bs
  else .ok ⟨bs.take len, by simp only [List.length_take]; omega⟩ (bs.drop len)

def readU8 (truncated : ε) : Reader ε UInt8 := do
  return UInt8.ofNat (beNat (← readExact truncated 1))

def readU16 (truncated : ε) : Reader ε UInt16 := do
  return UInt16.ofNat (beNat (← readExact truncated 2))

def readVecU8 (truncated : ε) : Reader ε Bytes := do
  readExact truncated (← readU8 truncated).toNat

def readVecU16 (truncated : ε) : Reader ε Bytes := do
  readExact truncated (← readU16 truncated).toNat

def Reader.next (r : Reader ε α) (bs : Bytes) : Except ε (α × Bytes) :=
  match r.run bs with
  | .ok a rest => .ok (a, rest)
  | .error e _ => .error e

def remaining : Reader ε ℕ := fun bs => .ok bs.length bs

def finish (trailing : ε) : Reader ε Unit := fun bs =>
  if bs.length = 0 then .ok () bs else .error trailing bs

theorem readExact_append {truncated : ε} {len : ℕ} {xs ys : Bytes} (h : xs.length = len) :
    (readExact truncated len).run (xs ++ ys) = .ok xs ys := by
  subst h
  simp [readExact, EStateM.run]

theorem length_of_readExact {truncated : ε} {len : ℕ} {bs xs rest : Bytes}
    (h : (readExact truncated len).run bs = .ok xs rest) : xs.length = len ∧ bs = xs ++ rest := by
  simp only [readExact, EStateM.run] at h
  split at h
  · cases h
  · next hl =>
    cases h
    exact ⟨by simp only [length_take]; omega, (take_append_drop len bs).symm⟩

variable (truncated : ε)

theorem readArray_append {len : ℕ} (v : ByteVector len) (ys : Bytes) :
    (readArray truncated len).run (v.toList ++ ys) = .ok v ys := by
  have hl : ¬ (v.toList ++ ys).length < len := by simp
  simp only [readArray, EStateM.run, hl, dif_neg, not_false_eq_true]
  congr 1
  · apply List.Vector.eq
    change (v.toList ++ ys).take len = v.toList
    rw [take_left' v.toList_length]
  · rw [drop_left' v.toList_length]

theorem readU8_cons (b : UInt8) (ys : Bytes) : (readU8 truncated).run (b :: ys) = .ok b ys := by
  have h : (readExact truncated 1).run (b :: ys) = .ok [b] ys := readExact_append (show [b].length = 1 from rfl)
  rw [readU8, bind_of_ok h]
  simp [beNat]

theorem readU16_append (n : UInt16) (ys : Bytes) : (readU16 truncated).run (beBytes 2 n.toNat ++ ys) = .ok n ys := by
  rw [readU16, bind_of_ok (readExact_append (length_beBytes 2 _)), beNat_beBytes_of_lt n.toNat_lt]
  simp

theorem readVecU8_append {xs : Bytes} (h : xs.length < 256) (ys : Bytes) :
    (readVecU8 truncated).run (UInt8.ofNat xs.length :: (xs ++ ys)) = .ok xs ys := by
  rw [readVecU8, bind_of_ok (readU8_cons truncated _ _)]
  exact readExact_append (by simp [Nat.mod_eq_of_lt h])

theorem readVecU16_append {xs : Bytes} (h : xs.length < 65536) (ys : Bytes) :
    (readVecU16 truncated).run (beBytes 2 xs.length ++ (xs ++ ys)) = .ok xs ys := by
  have hn : (UInt16.ofNat xs.length).toNat = xs.length := by simp [Nat.mod_eq_of_lt h]
  rw [readVecU16, bind_of_ok (by simpa only [hn] using readU16_append truncated (.ofNat xs.length) _)]
  exact readExact_append hn.symm

theorem length_of_readU16 {truncated : ε} {bs rest : Bytes} {n : UInt16}
    (h : (readU16 truncated).run bs = .ok n rest) : bs.length = rest.length + 2 := by
  obtain ⟨xs, s, hx, hp⟩ := bind_eq_ok.mp h
  obtain ⟨hl, rfl⟩ := length_of_readExact hx
  cases hp
  rw [length_append, hl, Nat.add_comm]

theorem length_of_readVecU16 {truncated : ε} {bs xs rest : Bytes}
    (h : (readVecU16 truncated).run bs = .ok xs rest) : bs.length = xs.length + rest.length + 2 := by
  obtain ⟨n, s, hn, hx⟩ := bind_eq_ok.mp h
  obtain ⟨-, rfl⟩ := length_of_readExact hx
  rw [length_of_readU16 hn, length_append]

section Inversion

variable {truncated : ε} {bs rest xs : Bytes}

theorem read_eq_ok {r : Reader ε α} {a : α} (h : r.read bs = .ok a) : ∃ rest, r.run bs = .ok a rest := by
  rw [Reader.read] at h
  cases hrun : r.run bs with
  | ok a' rest =>
    rw [hrun] at h
    cases h
    exact ⟨rest, rfl⟩
  | error e rest =>
    rw [hrun] at h
    cases h

theorem eq_of_readArray {len : ℕ} {v : ByteVector len} (h : (readArray truncated len).run bs = .ok v rest) :
    bs = v.toList ++ rest := by
  simp only [readArray, EStateM.run] at h
  split at h
  · cases h
  · cases h
    exact (take_append_drop len bs).symm

theorem eq_of_readU8 {b : UInt8} (h : (readU8 truncated).run bs = .ok b rest) : bs = b :: rest := by
  obtain ⟨xs, s, hx, hp⟩ := bind_eq_ok.mp h
  obtain ⟨hl, rfl⟩ := length_of_readExact hx
  obtain ⟨x, rfl⟩ := length_eq_one_iff.mp hl
  cases hp
  simp [beNat]

theorem eq_of_readU16 {n : UInt16} (h : (readU16 truncated).run bs = .ok n rest) : bs = beBytes 2 n.toNat ++ rest := by
  obtain ⟨xs, s, hx, hp⟩ := bind_eq_ok.mp h
  obtain ⟨hl, rfl⟩ := length_of_readExact hx
  cases hp
  have hlt := beNat_lt xs
  have hbytes := beBytes_beNat xs
  rw [hl] at hlt hbytes
  rw [UInt16.toNat_ofNat_of_lt' hlt, hbytes]

theorem eq_of_readVecU8 (h : (readVecU8 truncated).run bs = .ok xs rest) :
    xs.length ≤ 255 ∧ bs = UInt8.ofNat xs.length :: (xs ++ rest) := by
  obtain ⟨n, s, hn, hx⟩ := bind_eq_ok.mp h
  obtain ⟨hl, rfl⟩ := length_of_readExact hx
  rw [eq_of_readU8 hn, hl, UInt8.ofNat_toNat]
  exact ⟨Nat.le_of_lt_succ n.toNat_lt, rfl⟩

theorem eq_of_readVecU16 (h : (readVecU16 truncated).run bs = .ok xs rest) :
    xs.length ≤ 65535 ∧ bs = beBytes 2 xs.length ++ (xs ++ rest) := by
  obtain ⟨n, s, hn, hx⟩ := bind_eq_ok.mp h
  obtain ⟨hl, rfl⟩ := length_of_readExact hx
  rw [eq_of_readU16 hn, hl]
  exact ⟨Nat.le_of_lt_succ n.toNat_lt, rfl⟩

theorem eq_nil_of_finish {trailing : ε} {u : Unit} (h : (finish trailing).run bs = .ok u rest) : bs = [] := by
  simp only [finish, EStateM.run] at h
  split at h
  · next hl => exact length_eq_zero_iff.mp hl
  · cases h

end Inversion

theorem remaining_run (bs : Bytes) : (remaining : Reader ε ℕ).run bs = .ok bs.length bs := rfl

@[simp] theorem finish_nil (trailing : ε) : (finish trailing).run [] = .ok () [] := rfl

end ThreadCommissioner.Readers
