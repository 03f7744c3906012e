import ThreadCommissioner.ByteStrings

namespace ThreadCommissioner.Texts

open ByteStrings List

/-- The ranges in which the bytes after a leading byte must lie; overlong
forms, surrogates and values past U+10FFFF have none. -/
def continuations (lead : UInt8) : Option (List (UInt8 × UInt8)) :=
  if lead < 0x80 then some []
  else if lead < 0xc2 then none
  else if lead ≤ 0xdf then some [(0x80, 0xbf)]
  else if lead = 0xe0 then some [(0xa0, 0xbf), (0x80, 0xbf)]
  else if lead = 0xed then some [(0x80, 0x9f), (0x80, 0xbf)]
  else if lead ≤ 0xef then some [(0x80, 0xbf), (0x80, 0xbf)]
  else if lead = 0xf0 then some [(0x90, 0xbf), (0x80, 0xbf), (0x80, 0xbf)]
  else if lead ≤ 0xf3 then some [(0x80, 0xbf), (0x80, 0xbf), (0x80, 0xbf)]
  else if lead = 0xf4 then some [(0x80, 0x8f), (0x80, 0xbf), (0x80, 0xbf)]
  else none

def utf8From : List (UInt8 × UInt8) → Bytes → Bool
  | [], [] => true
  | [], b :: bs =>
    match continuations b with
    | some pending => utf8From pending bs
    | none => false
  | _ :: _, [] => false
  | (low, high) :: pending, b :: bs => low ≤ b && b ≤ high && utf8From pending bs

def utf8Valid (bs : Bytes) : Bool := utf8From [] bs

/-- A string, as the bytes of its UTF-8 form. -/
structure Text where
  bytes : Bytes
  valid : utf8Valid bytes = true
  deriving DecidableEq

theorem utf8Valid_nil : utf8Valid [] = true := rfl

def fromUtf8 (bs : Bytes) : Option Text := if h : utf8Valid bs = true then some ⟨bs, h⟩ else none

theorem utf8From_append {pending : List (UInt8 × UInt8)} {xs ys : Bytes} (hx : utf8From pending xs = true)
    (hy : utf8Valid ys = true) : utf8From pending (xs ++ ys) = true := by
  induction xs generalizing pending with
  | nil =>
    cases pending with
    | nil => exact hy
    | cons range pending => cases hx
  | cons b bs ih =>
    cases pending with
    | nil =>
      rw [cons_append, utf8From]
      rw [utf8From] at hx
      cases hc : continuations b with
      | none => simp [hc] at hx
      | some pending => exact ih (by simpa [hc] using hx)
    | cons range pending =>
      rw [cons_append, utf8From]
      rw [utf8From, Bool.and_eq_true] at hx
      rw [hx.1, ih hx.2]
      rfl

theorem utf8Valid_of_ascii {bs : Bytes} (h : ∀ b ∈ bs, b < 0x80) : utf8Valid bs = true := by
  induction bs with
  | nil => rfl
  | cons b bs ih =>
    obtain ⟨hb, hbs⟩ := forall_mem_cons.mp h
    rw [utf8Valid, utf8From, continuations, if_pos hb]
    exact ih hbs

def Text.append (s t : Text) : Text := ⟨s.bytes ++ t.bytes, utf8From_append s.valid t.valid⟩

theorem utf8Valid_hexMark : utf8Valid (ascii "0x") = true := by decide

def slash : Text := ⟨[0x2f], by decide⟩

def Text.path : List Text → Text
  | [] => ⟨[], utf8Valid_nil⟩
  | segment :: segments => slash.append (segment.append (Text.path segments))

end ThreadCommissioner.Texts
