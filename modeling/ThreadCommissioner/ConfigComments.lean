import ThreadCommissioner.Lines

namespace ThreadCommissioner.ConfigComments

open ByteStrings Lines List Texts

section Model

def quote : UInt8 := 0x22

def backslash : UInt8 := 0x5c

def slash : UInt8 := 0x2f

def star : UInt8 := 0x2a

def newline : UInt8 := 0x0a

/-- `b as char`: the character with the code point `b`. -/
def asChar (b : UInt8) : Char := Char.ofNat b.toNat

/-- What follows the end of a block comment, of which only the opening was read. -/
def skipBlock : Bytes → Bytes
  | b :: next :: rest => if b = star ∧ next = slash then rest else skipBlock (next :: rest)
  | _ => []

theorem length_skipBlock_le (bytes : Bytes) : (skipBlock bytes).length ≤ bytes.length := by
  fun_induction skipBlock bytes with
  | case1 => simp only [length_cons]; omega
  | case2 b next rest h ih => simp only [length_cons] at ih ⊢; omega
  | case3 => exact Nat.zero_le _

/-- The loop over the bytes from the index on: what it pushes. -/
def stripFrom (inString : Bool) : Bytes → List Char
  | [] => []
  | b :: rest =>
    if inString then
      if b = backslash ∧ rest ≠ [] then asChar b :: ((rest.take 1).map asChar ++ stripFrom true (rest.drop 1))
      else asChar b :: stripFrom (b ≠ quote) rest
    else if b = quote then asChar quote :: stripFrom true rest
    else if b = slash ∧ rest.head? = some slash then stripFrom false (rest.dropWhile (· ≠ newline))
    else if b = slash ∧ rest.head? = some star then stripFrom false (skipBlock (rest.drop 1))
    else asChar b :: stripFrom false rest
termination_by bytes => bytes.length
decreasing_by
  all_goals simp only [List.length_cons, List.length_drop]
  · omega
  · omega
  · omega
  · exact Nat.lt_succ_of_le (List.dropWhile_suffix _).length_le
  · have hblock := length_skipBlock_le (rest.drop 1)
    rw [List.length_drop] at hblock
    omega
  · omega

def stripJsonComments (input : Text) : Text := textOf (stripFrom false input.bytes)

end Model

section Parts

/-- A byte of a string literal, or an escape. -/
inductive Item
  | byte (b : UInt8) (h : b ≠ quote ∧ b ≠ backslash)
  | escape (b : UInt8)

def Item.text : Item → Bytes
  | .byte b _ => [b]
  | .escape b => [backslash, b]

/-- What a text with comments is made of. -/
inductive Part
  | byte (b : UInt8) (h : b ≠ quote ∧ b ≠ slash)
  | slash
  | string (items : List Item)
  | line (body : Bytes) (h : newline ∉ body)
  | block (body : Bytes) (h : ¬ [star, ConfigComments.slash] <:+: body)

def Part.text : Part → Bytes
  | .byte b _ => [b]
  | .slash => [ConfigComments.slash]
  | .string items => quote :: (items.flatMap Item.text ++ [quote])
  | .line body _ => ConfigComments.slash :: ConfigComments.slash :: body
  | .block body _ => ConfigComments.slash :: star :: (body ++ [star, ConfigComments.slash])

def Part.kept : Part → Bytes
  | .line _ _ => []
  | .block _ _ => []
  | p => p.text

/-- A line comment goes on to the end of the line, and a slash alone does not
begin a comment. -/
def Part.Before : Part → Bytes → Prop
  | .line _ _, rest => rest = [] ∨ rest.head? = some newline
  | .slash, rest => rest.head? ≠ some ConfigComments.slash ∧ rest.head? ≠ some star
  | _, _ => True

def textOfParts (parts : List Part) : Bytes := parts.flatMap Part.text

def keptOfParts (parts : List Part) : Bytes := parts.flatMap Part.kept

def Placed : List Part → Prop
  | [] => True
  | p :: parts => p.Before (textOfParts parts) ∧ Placed parts

end Parts

section Scan

variable {b : UInt8} {rest body : Bytes}

theorem stripFrom_byte (hb : b ≠ quote ∧ b ≠ slash) : stripFrom false (b :: rest) = asChar b :: stripFrom false rest := by
  rw [stripFrom, if_neg Bool.false_ne_true, if_neg hb.1, if_neg fun h => hb.2 h.1, if_neg fun h => hb.2 h.1]

theorem stripFrom_slash (hrest : rest.head? ≠ some slash ∧ rest.head? ≠ some star) :
    stripFrom false (slash :: rest) = asChar slash :: stripFrom false rest := by
  rw [stripFrom, if_neg Bool.false_ne_true, if_neg (by decide), if_neg fun h => hrest.1 h.2, if_neg fun h => hrest.2 h.2]

theorem stripFrom_items (items : List Item) : stripFrom true (items.flatMap Item.text ++ quote :: rest) =
      (items.flatMap Item.text).map asChar ++ asChar quote :: stripFrom false rest := by
  induction items with
  | nil =>
    rw [flatMap_nil, nil_append, stripFrom, if_pos rfl, if_neg fun h => absurd h.1 (by decide)]
    rfl
  | cons item items ih =>
    cases item with
    | byte b hb =>
      rw [flatMap_cons, Item.text, cons_append, nil_append, cons_append, stripFrom, if_pos rfl,
        if_neg fun h => hb.2 h.1, decide_eq_true hb.1, ih]
      rfl
    | escape b =>
      rw [flatMap_cons, Item.text, cons_append, singleton_append, cons_append, cons_append,
        stripFrom, if_pos rfl, if_pos ⟨rfl, cons_ne_nil _ _⟩, drop_one, tail_cons, ih]
      rfl

theorem stripFrom_string (items : List Item) : stripFrom false ((Part.string items).text ++ rest) =
      (Part.string items).text.map asChar ++ stripFrom false rest := by
  rw [Part.text, cons_append, append_assoc, singleton_append, stripFrom, if_neg Bool.false_ne_true,
    if_pos rfl, stripFrom_items, map_cons, map_append, cons_append, append_assoc]
  rfl

theorem dropWhile_line (hbody : newline ∉ body) (hrest : rest = [] ∨ rest.head? = some newline) :
    (body ++ rest).dropWhile (· ≠ newline) = rest := by
  have hall : ∀ b ∈ body, decide (b ≠ newline) = true := fun b hb =>
    decide_eq_true fun h => hbody (h ▸ hb)
  rw [dropWhile_append_of_pos hall]
  rcases hrest with rfl | hhead
  · rfl
  · cases rest with
    | nil => rfl
    | cons b rest =>
      obtain rfl := Option.some.inj hhead
      rfl

theorem stripFrom_line (hbody : newline ∉ body) (hrest : rest = [] ∨ rest.head? = some newline) :
    stripFrom false (slash :: slash :: (body ++ rest)) = stripFrom false rest := by
  have hslash : newline ∉ slash :: body := fun h => (mem_cons.mp h).elim (by decide) hbody
  have hdrop := dropWhile_line hslash hrest
  rw [cons_append] at hdrop
  rw [stripFrom, if_neg Bool.false_ne_true, if_neg (by decide), if_pos ⟨rfl, rfl⟩, hdrop]

theorem star_ne_slash : star ≠ slash := by decide

/-- By induction on the body: none of its positions is the end. -/
theorem skipBlock_append (hbody : ¬ [star, slash] <:+: body) : skipBlock (body ++ star :: slash :: rest) = rest := by
  induction body with
  | nil => exact if_pos ⟨rfl, rfl⟩
  | cons b body ih =>
    have hrest : ¬ [star, slash] <:+: body := fun h => hbody (h.trans (suffix_cons b body).isInfix)
    cases body with
    | nil =>
      rw [singleton_append, skipBlock, if_neg fun h => star_ne_slash h.2]
      exact ih hrest
    | cons next body =>
      have hend : ¬ (b = star ∧ next = slash) := by
        rintro ⟨rfl, rfl⟩
        exact hbody (prefix_append [star, slash] body).isInfix
      rw [cons_append, cons_append, skipBlock, if_neg hend]
      exact ih hrest

theorem stripFrom_block (hbody : ¬ [star, slash] <:+: body) :
    stripFrom false (slash :: star :: (body ++ star :: slash :: rest)) = stripFrom false rest := by
  rw [stripFrom, if_neg Bool.false_ne_true, if_neg (by decide), if_neg fun h => star_ne_slash (Option.some.inj h.2),
    if_pos ⟨rfl, rfl⟩, drop_one, tail_cons, skipBlock_append hbody]

theorem stripFrom_part {p : Part} (h : p.Before rest) :
    stripFrom false (p.text ++ rest) = p.kept.map asChar ++ stripFrom false rest := by
  cases p with
  | byte b hb => exact stripFrom_byte hb
  | slash => exact stripFrom_slash h
  | string items => exact stripFrom_string items
  | line body hbody => exact stripFrom_line hbody h
  | block body hbody =>
    rw [Part.text, cons_append, cons_append, append_assoc]
    exact stripFrom_block hbody

theorem stripFrom_parts {parts : List Part} (h : Placed parts) :
    stripFrom false (textOfParts parts) = (keptOfParts parts).map asChar := by
  induction parts with
  | nil => rw [textOfParts, flatMap_nil, stripFrom]; rfl
  | cons p parts ih =>
    rw [textOfParts, flatMap_cons, keptOfParts, flatMap_cons, map_append]
    exact (stripFrom_part h.1).trans (congrArg _ (ih h.2))

end Scan

section Encoding

def widened (b : UInt8) : Bytes := String.utf8EncodeChar (asChar b)

theorem utf8EncodeChar_ofNat : ∀ n : Fin 256,
    (n.val < 0x80 → String.utf8EncodeChar (Char.ofNat n.val) = [UInt8.ofNat n.val]) ∧
    (0x80 ≤ n.val → (String.utf8EncodeChar (Char.ofNat n.val)).length = 2) := by
  decide +kernel

theorem widened_of_lt {b : UInt8} (h : b < 0x80) : widened b = [b] := by
  have hencode := (utf8EncodeChar_ofNat ⟨b.toNat, b.toNat_lt⟩).1 (UInt8.lt_iff_toNat_lt.mp h)
  exact hencode.trans (by rw [UInt8.ofNat_toNat])

theorem length_widened_of_le {b : UInt8} (h : ¬ b < 0x80) : (widened b).length = 2 := by
  have hle : 0x80 ≤ b.toNat := Nat.le_of_not_lt fun hlt => h (UInt8.lt_iff_toNat_lt.mpr hlt)
  exact (utf8EncodeChar_ofNat ⟨b.toNat, b.toNat_lt⟩).2 hle

theorem length_flatMap_widened (bytes : Bytes) :
    (bytes.flatMap widened).length = bytes.length + bytes.countP (fun b => ¬ b < 0x80) := by
  induction bytes with
  | nil => rfl
  | cons b bytes ih =>
    rw [flatMap_cons, length_append, ih, length_cons, countP_cons]
    by_cases hb : b < 0x80
    · rw [widened_of_lt hb]
      simp [hb]
      omega
    · rw [length_widened_of_le hb]
      simp [hb]
      omega

theorem flatMap_widened_eq_iff {bytes : Bytes} : bytes.flatMap widened = bytes ↔ ∀ b ∈ bytes, b < 0x80 := by
  constructor
  · intro h b hb
    have hlength := length_flatMap_widened bytes
    rw [h] at hlength
    have hcount : bytes.countP (fun b => ¬ b < 0x80) = 0 := by omega
    simpa using countP_eq_zero.mp hcount b hb
  · intro h
    induction bytes with
    | nil => rfl
    | cons b bytes ih =>
      obtain ⟨hb, hbytes⟩ := forall_mem_cons.mp h
      rw [flatMap_cons, widened_of_lt hb, ih hbytes, singleton_append]

theorem bytes_stripJsonComments {input : Text} {parts : List Part} (h : Placed parts)
    (hinput : input.bytes = textOfParts parts) : (stripJsonComments input).bytes = (keptOfParts parts).flatMap widened := by
  rw [stripJsonComments, hinput, stripFrom_parts h]
  exact flatMap_map asChar String.utf8EncodeChar (keptOfParts parts)

/-- Comments are removed and everything else is kept, if what is kept has no
characters of more than one byte, and only then. -/
theorem strip_keeps_the_rest {input : Text} {parts : List Part} (h : Placed parts)
    (hinput : input.bytes = textOfParts parts) :
    (stripJsonComments input).bytes = keptOfParts parts ↔ ∀ b ∈ keptOfParts parts, b < 0x80 := by
  rw [bytes_stripJsonComments h hinput]
  exact flatMap_widened_eq_iff

/-- A string literal before a comment, and only the comment has a character of
two bytes. -/
def commented : Text := ⟨[0x22, 0x61, 0x22, 0x2f, 0x2f, 0xc3, 0xa9], by decide⟩

theorem strip_keeps_the_rest_commented : (stripJsonComments commented).bytes = [0x22, 0x61, 0x22] := by
  let parts : List Part := [.string [.byte 0x61 (by decide)], .line [0xc3, 0xa9] (by decide)]
  have hplaced : Placed parts := ⟨trivial, .inl rfl, trivial⟩
  have hkept : keptOfParts parts = [0x22, 0x61, 0x22] := rfl
  exact ((strip_keeps_the_rest hplaced rfl).mpr (by rw [hkept]; simp)).trans hkept

def accented : Text := ⟨[0x22, 0xc3, 0xa9, 0x22], by decide⟩

/-- It has no comments, and each of the two bytes becomes a character. -/
theorem strip_widens_accented :
    ∃ parts, Placed parts ∧ accented.bytes = textOfParts parts ∧ keptOfParts parts = accented.bytes ∧
      (stripJsonComments accented).bytes = [0x22, 0xc3, 0x83, 0xc2, 0xa9, 0x22] := by
  let parts : List Part := [.string [.byte 0xc3 (by decide), .byte 0xa9 (by decide)]]
  have hplaced : Placed parts := ⟨trivial, trivial⟩
  have hinput : accented.bytes = textOfParts parts := rfl
  exact ⟨parts, hplaced, hinput, rfl, (bytes_stripJsonComments hplaced hinput).trans (by decide)⟩

end Encoding

end ThreadCommissioner.ConfigComments
