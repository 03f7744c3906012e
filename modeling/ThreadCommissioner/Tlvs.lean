import ThreadCommissioner.Computations
import ThreadCommissioner.Errors
import ThreadCommissioner.Framing

namespace ThreadCommissioner.Tlvs

open ByteStrings Computations Errors Framing List

def maxStandardTlvLength : ℕ := 254

def extendedTlvMarker : UInt8 := 0xff

def maxExtendedTlvLength : ℕ := 65535

structure TlvEntry where
  ty : UInt8
  value : Bytes
  deriving DecidableEq, Repr

/-- The bytes written before a failure are left in the caller's buffer, which
no caller reads. -/
def encodeHeader (ty : UInt8) (length : ℕ) : Except TlvError Bytes :=
  if length ≤ maxStandardTlvLength then .ok [ty, UInt8.ofNat length]
  else if length ≤ maxExtendedTlvLength then .ok (ty :: extendedTlvMarker :: beBytes 2 length)
  else .error (.valueTooLarge length)

def TlvEntry.encode (entry : TlvEntry) : Except TlvError Bytes := do
  return (← encodeHeader entry.ty entry.value.length) ++ entry.value

/-- The length a header gives, and the bytes after the header. -/
def readLength (lengthByte : UInt8) (rest : Bytes) : Except TlvError (ℕ × Bytes) :=
  if lengthByte = extendedTlvMarker then
    if rest.length < 2 then .error .bufferTooSmall
    else .ok (beNat (rest.take 2), rest.drop 2)
  else .ok (lengthByte.toNat, rest)

/-- Lengths are below 2^16, so that the checked addition of the source cannot
overflow. -/
def parseOne : Bytes → Except TlvError (TlvEntry × Bytes)
  | ty :: lengthByte :: rest => do
    let (length, value) ← readLength lengthByte rest
    ensure (length ≤ value.length) TlvError.bufferTooSmall
    return (⟨ty, value.take length⟩, value.drop length)
  | _ => .error .bufferTooSmall

variable {length : ℕ}

theorem length_of_readLength {lengthByte : UInt8} {rest value : Bytes}
    (h : readLength lengthByte rest = .ok (length, value)) : value.length ≤ rest.length := by
  unfold readLength at h
  split at h
  · split at h
    · cases h
    · cases h
      simp
  · cases h
    exact le_rfl

variable {entry : TlvEntry}

theorem parseOne_shrinks {bytes rest : Bytes} (h : parseOne bytes = .ok (entry, rest)) : rest.length < bytes.length := by
  unfold parseOne at h
  split at h
  · obtain ⟨⟨length, value⟩, hv, h⟩ := bind_ok.mp h
    obtain ⟨-, -, h⟩ := bind_ok.mp h
    cases h
    have := length_of_readLength hv
    simp only [length_drop, length_cons]
    omega
  · cases h

def tlvFramer : Framer TlvError TlvEntry := ⟨parseOne, parseOne_shrinks⟩

structure TlvSet where
  entries : List TlvEntry
  deriving DecidableEq, Repr

def TlvSet.parse (bytes : Bytes) : Except TlvError TlvSet := do
  return ⟨← tlvFramer.all bytes⟩

def encodeEntries : List TlvEntry → Except TlvError Bytes
  | [] => .ok []
  | entry :: entries => do
    let bytes ← entry.encode
    return bytes ++ (← encodeEntries entries)

def TlvSet.encode (tlvs : TlvSet) : Except TlvError Bytes := encodeEntries tlvs.entries

def TlvSet.lastValue (tlvs : TlvSet) (ty : UInt8) : Option Bytes :=
  (tlvs.entries.reverse.find? (·.ty = ty)).map TlvEntry.value

def readU16 (value : Bytes) : Except TlvError UInt16 :=
  if value.length = 2 then .ok (.ofNat (beNat value)) else .error .invalidLength

def readU32 (value : Bytes) : Except TlvError UInt32 :=
  if value.length = 4 then .ok (.ofNat (beNat value)) else .error .invalidLength

def readU64 (value : Bytes) : Except TlvError UInt64 :=
  if value.length = 8 then .ok (.ofNat (beNat value)) else .error .invalidLength

/-- The wire form of an entry whose value fits a length field. -/
def TlvEntry.bytes (entry : TlvEntry) : Bytes :=
  (if entry.value.length ≤ maxStandardTlvLength then [entry.ty, UInt8.ofNat entry.value.length]
    else entry.ty :: extendedTlvMarker :: beBytes 2 entry.value.length) ++ entry.value

theorem TlvEntry.encode_of_le (h : entry.value.length ≤ maxExtendedTlvLength) : entry.encode = .ok entry.bytes := by
  by_cases hs : entry.value.length ≤ maxStandardTlvLength
  · rw [TlvEntry.encode, encodeHeader, if_pos hs, TlvEntry.bytes, if_pos hs]
    rfl
  · rw [TlvEntry.encode, encodeHeader, if_neg hs, if_pos h, TlvEntry.bytes, if_neg hs]
    rfl

theorem TlvEntry.encode_eq_ok {bytes : Bytes} :
    entry.encode = .ok bytes ↔ entry.value.length ≤ maxExtendedTlvLength ∧ bytes = entry.bytes := by
  by_cases h : entry.value.length ≤ maxExtendedTlvLength
  · rw [TlvEntry.encode_of_le h]
    simp [h, eq_comm]
  · have hstandard : ¬ entry.value.length ≤ maxStandardTlvLength := fun hle => h (hle.trans (by decide))
    simp only [h, false_and, iff_false]
    rw [TlvEntry.encode, encodeHeader, if_neg hstandard, if_neg h]
    nofun

theorem encodeEntries_eq_ok {es : List TlvEntry} {bytes : Bytes} (h : encodeEntries es = .ok bytes) :
    (∀ entry ∈ es, entry.value.length ≤ maxExtendedTlvLength) ∧ bytes = es.flatMap TlvEntry.bytes := by
  induction es generalizing bytes with
  | nil =>
    cases h
    exact ⟨forall_mem_nil _, rfl⟩
  | cons entry es ih =>
    obtain ⟨first, hfirst, h⟩ := bind_ok.mp h
    obtain ⟨rest, hrest, h⟩ := bind_ok.mp h
    obtain ⟨hlength, rfl⟩ := TlvEntry.encode_eq_ok.mp hfirst
    obtain ⟨hall, rfl⟩ := ih hrest
    cases h
    exact ⟨forall_mem_cons.mpr ⟨hlength, hall⟩, rfl⟩

theorem readLength_standard (h : length ≤ maxStandardTlvLength) (rest : Bytes) :
    readLength (UInt8.ofNat length) rest = .ok (length, rest) := by
  have hbyte : (UInt8.ofNat length).toNat = length := by
    rw [UInt8.toNat_ofNat']
    simp only [maxStandardTlvLength] at h
    omega
  -- a standard length is never the marker
  have hmarker : UInt8.ofNat length ≠ extendedTlvMarker := by
    intro he
    have hvalue := congrArg UInt8.toNat he
    rw [hbyte] at hvalue
    rw [hvalue] at h
    exact absurd h (by decide)
  rw [readLength, if_neg hmarker, hbyte]

theorem readLength_extended (h : length ≤ maxExtendedTlvLength) (rest : Bytes) :
    readLength extendedTlvMarker (beBytes 2 length ++ rest) = .ok (length, rest) := by
  have hwidth : (beBytes 2 length).length = 2 := length_beBytes 2 length
  have hvalue : beNat (beBytes 2 length) = length := by
    refine beNat_beBytes_of_lt ?_
    simp only [maxExtendedTlvLength] at h
    omega
  have hfits : ¬(beBytes 2 length ++ rest).length < 2 := by
    rw [length_append, hwidth]
    omega
  rw [readLength, if_pos rfl, if_neg hfits, take_left' hwidth, drop_left' hwidth, hvalue]

theorem parseOne_of_readLength {ty lengthByte : UInt8} {value rest tail : Bytes}
    (h : readLength lengthByte tail = .ok (value.length, value ++ rest)) :
    parseOne (ty :: lengthByte :: tail) = .ok (⟨ty, value⟩, rest) := by
  rw [parseOne, h, ok_bind]
  simp only
  rw [ensure_true (by simp), ok_bind, take_left' rfl, drop_left' rfl]
  rfl

theorem TlvEntry.frames_bytes (h : entry.value.length ≤ maxExtendedTlvLength) : tlvFramer.Frames entry.bytes entry := by
  refine ⟨?_, fun rest => ?_⟩
  · rw [TlvEntry.bytes]
    split <;> simp
  · by_cases hs : entry.value.length ≤ maxStandardTlvLength
    · rw [TlvEntry.bytes, if_pos hs]
      exact parseOne_of_readLength (readLength_standard hs _)
    · rw [TlvEntry.bytes, if_neg hs, cons_append, cons_append, append_assoc]
      exact parseOne_of_readLength (readLength_extended h _)

theorem TlvSet.parse_flatMap {es : List TlvEntry} (h : ∀ entry ∈ es, entry.value.length ≤ maxExtendedTlvLength) :
    TlvSet.parse (es.flatMap TlvEntry.bytes) = .ok ⟨es⟩ := by
  rw [TlvSet.parse, Framer.all_flatMap fun entry he => TlvEntry.frames_bytes (h entry he)]
  rfl

theorem TlvSet.lastValue_eq_getLast (tlvs : TlvSet) (ty : UInt8) :
    tlvs.lastValue ty = ((tlvs.entries.filter (·.ty = ty)).map TlvEntry.value).getLast? := by
  rw [TlvSet.lastValue, List.getLast?_map, ← List.head?_reverse, ← filter_reverse, List.head?_filter]

end ThreadCommissioner.Tlvs
