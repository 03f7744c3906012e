import ThreadCommissioner.Texts

namespace ThreadCommissioner.Lines

open ByteStrings Texts

section Characters

theorem continuations_short : ∀ lead : Fin 256, (lead.val < 0x80 → continuations (.ofNat lead.val) = some []) ∧
    (0xc2 ≤ lead.val → lead.val ≤ 0xdf → continuations (.ofNat lead.val) = some [(0x80, 0xbf)]) := by
  decide +kernel

theorem continuations_three : ∀ lead : Fin 16, continuations (.ofNat (lead.val + 224)) =
    some [(if lead.val = 0 then 0xa0 else 0x80, if lead.val = 13 then 0x9f else 0xbf), (0x80, 0xbf)] := by
  decide +kernel

theorem continuations_four : ∀ lead : Fin 5, continuations (.ofNat (lead.val + 240)) =
    some [(if lead.val = 0 then 0x90 else 0x80, if lead.val = 4 then 0x8f else 0xbf), (0x80, 0xbf), (0x80, 0xbf)] := by
  decide +kernel

theorem utf8From_ofNat {low high : UInt8} {pending : List (UInt8 × UInt8)} {n : ℕ} {bs : Bytes}
    (hlow : low.toNat ≤ n) (hhigh : n ≤ high.toNat) (h : utf8From pending bs = true) :
    utf8From ((low, high) :: pending) (UInt8.ofNat n :: bs) = true := by
  have hbyte : (UInt8.ofNat n).toNat = n := by
    rw [UInt8.toNat_ofNat']
    exact Nat.mod_eq_of_lt (hhigh.trans_lt high.toNat_lt)
  rw [utf8From, h, Bool.and_true, Bool.and_eq_true, decide_eq_true_iff, decide_eq_true_iff, UInt8.le_iff_toNat_le,
    UInt8.le_iff_toNat_le, hbyte]
  exact ⟨hlow, hhigh⟩

theorem utf8Valid_cons {lead : UInt8} {pending : List (UInt8 × UInt8)} {bs : Bytes}
    (hlead : continuations lead = some pending) (h : utf8From pending bs = true) : utf8Valid (lead :: bs) = true := by
  rw [utf8Valid, utf8From, hlead]
  exact h

theorem utf8Valid_three {v : ℕ} (hlow : 0x7ff < v) (hhigh : v ≤ 0xffff) (hvalid : v < 0xd800 ∨ 0xdfff < v) :
    utf8Valid [UInt8.ofNat (v / 4096 % 16 + 224), UInt8.ofNat (v / 64 % 64 + 128), UInt8.ofNat (v % 64 + 128)] = true := by
  have hlead := continuations_three ⟨v / 4096 % 16, by omega⟩
  dsimp only at hlead
  refine utf8Valid_cons hlead (utf8From_ofNat ?_ ?_ (utf8From_ofNat ?_ ?_ rfl))
  · split <;>
      · simp only [UInt8.reduceToNat]
        omega
  · split <;>
      · simp only [UInt8.reduceToNat]
        omega
  · simp only [UInt8.reduceToNat]
    omega
  · simp only [UInt8.reduceToNat]
    omega

theorem utf8Valid_four {v : ℕ} (hlow : 0xffff < v) (hhigh : v < 0x110000) :
    utf8Valid [UInt8.ofNat (v / 262144 % 8 + 240), UInt8.ofNat (v / 4096 % 64 + 128), UInt8.ofNat (v / 64 % 64 + 128),
      UInt8.ofNat (v % 64 + 128)] = true := by
  have hlead := continuations_four ⟨v / 262144 % 8, by omega⟩
  dsimp only at hlead
  refine utf8Valid_cons hlead (utf8From_ofNat ?_ ?_ (utf8From_ofNat ?_ ?_ (utf8From_ofNat ?_ ?_ rfl)))
  · split <;>
      · simp only [UInt8.reduceToNat]
        omega
  · split <;>
      · simp only [UInt8.reduceToNat]
        omega
  all_goals
    simp only [UInt8.reduceToNat]
    omega

theorem utf8Valid_utf8EncodeChar (c : Char) : utf8Valid (String.utf8EncodeChar c) = true := by
  have hvalid : c.val.toNat < 0xd800 ∨ 0xdfff < c.val.toNat ∧ c.val.toNat < 0x110000 := c.valid
  rw [String.utf8EncodeChar]
  generalize c.val.toNat = v at hvalid
  split
  · next hv =>
    obtain ⟨hone, -⟩ := continuations_short ⟨v, by omega⟩
    exact utf8Valid_cons (hone (by dsimp only; omega)) rfl
  · split
    · next hv =>
      obtain ⟨-, htwo⟩ := continuations_short ⟨v / 64 % 32 + 192, by omega⟩
      have hlead := htwo (by dsimp only; omega) (by dsimp only; omega)
      refine utf8Valid_cons hlead (utf8From_ofNat ?_ ?_ rfl) <;>
        · simp only [UInt8.reduceToNat]
          omega
    · split
      · exact utf8Valid_three (by omega) (by omega) (by omega)
      · exact utf8Valid_four (by omega) (by omega)

theorem utf8Valid_flatMap (characters : List Char) : utf8Valid (characters.flatMap String.utf8EncodeChar) = true := by
  induction characters with
  | nil => rfl
  | cons c characters ih =>
    rw [List.flatMap_cons]
    exact utf8From_append (utf8Valid_utf8EncodeChar c) ih

def textOf (characters : List Char) : Text := ⟨characters.flatMap String.utf8EncodeChar, utf8Valid_flatMap characters⟩

end Characters

section Tokens

/-- `char::is_whitespace`. -/
def isWhitespace (c : Char) : Bool :=
  let v := c.toNat
  (0x09 ≤ v ∧ v ≤ 0x0d) ∨ v = 0x20 ∨ v = 0x85 ∨ v = 0xa0 ∨ v = 0x1680 ∨ (0x2000 ≤ v ∧ v ≤ 0x200a) ∨ v = 0x2028 ∨
    v = 0x2029 ∨ v = 0x202f ∨ v = 0x205f ∨ v = 0x3000

def singleQuote : Char := '\x27'

def doubleQuote : Char := '\x22'

/-- The variables of the loop. -/
structure Tokenizer where
  tokens : List (List Char)
  current : List Char
  inToken : Bool
  quote : Option Char

def Tokenizer.push (t : Tokenizer) (ch : Char) : Tokenizer :=
  match t.quote with
  | some q => if ch = q then { t with quote := none } else { t with current := t.current ++ [ch] }
  | none =>
    if ch = singleQuote ∨ ch = doubleQuote then { t with quote := some ch, inToken := true }
    else if isWhitespace ch then
      if t.inToken then { t with tokens := t.tokens ++ [t.current], current := [], inToken := false } else t
    else { t with current := t.current ++ [ch], inToken := true }

def tokenize (line : List Char) : Except Bytes (List (List Char)) :=
  let t := line.foldl Tokenizer.push ⟨[], [], false, none⟩
  if t.quote.isSome then .error (ascii "unterminated quoted argument")
  else if t.inToken then .ok (t.tokens ++ [t.current])
  else .ok t.tokens

end Tokens

end ThreadCommissioner.Lines
