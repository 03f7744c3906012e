import ThreadCommissioner.Lines

namespace ThreadCommissioner.Quoting

open ByteStrings Lines List

section Forms

def IsQuote (c : Char) : Prop := c = singleQuote ∨ c = doubleQuote

def Blank (run : List Char) : Prop := ∀ c ∈ run, isWhitespace c = true

/-- A string between quote characters that it does not contain. -/
structure Quoted where
  quote : Char
  body : List Char
  isQuote : IsQuote quote
  clean : quote ∉ body

def Quoted.text (q : Quoted) : List Char := q.quote :: (q.body ++ [q.quote])

/-- Characters that stand for themselves. -/
structure Plain where
  run : List Char
  nonempty : run ≠ []
  plain : ∀ c ∈ run, ¬ IsQuote c ∧ isWhitespace c = false

inductive Piece
  | quoted (q : Quoted)
  | plain (p : Plain)

def Piece.text : Piece → List Char
  | .quoted q => q.text
  | .plain p => p.run

def Piece.value : Piece → List Char
  | .quoted q => q.body
  | .plain p => p.run

/-- Pieces with nothing between them. -/
structure Word where
  pieces : List Piece
  nonempty : pieces ≠ []

def Word.text (w : Word) : List Char := w.pieces.flatMap Piece.text

def Word.value (w : Word) : List Char := w.pieces.flatMap Piece.value

def Word.ofQuoted (q : Quoted) : Word := ⟨[.quoted q], List.cons_ne_nil _ _⟩

variable (q : Quoted)

theorem Word.text_ofQuoted : (Word.ofQuoted q).text = q.text := flatMap_singleton _ _

theorem Word.value_ofQuoted : (Word.ofQuoted q).value = q.body := flatMap_singleton _ _

theorem exists_quoted_iff {s : List Char} : (∃ q : Quoted, q.body = s) ↔ singleQuote ∉ s ∨ doubleQuote ∉ s := by
  constructor
  · rintro ⟨⟨quote, body, hquote, hclean⟩, rfl⟩
    rcases hquote with rfl | rfl
    · exact .inl hclean
    · exact .inr hclean
  · rintro (h | h)
    · exact ⟨⟨singleQuote, s, .inl rfl, h⟩, rfl⟩
    · exact ⟨⟨doubleQuote, s, .inr rfl, h⟩, rfl⟩

variable {α : Type} {words : List (List Char × α)} {trail : List Char}

/-- A line of words, each with the run of whitespace before it. -/
def lineOf (text : α → List Char) (words : List (List Char × α)) (trail : List Char) : List Char :=
  words.flatMap (fun w => w.1 ++ text w.2) ++ trail

theorem lineOf_cons (text : α → List Char) (w : List Char × α) :
    lineOf text (w :: words) trail = w.1 ++ (text w.2 ++ lineOf text words trail) := by
  rw [lineOf, flatMap_cons, append_assoc, append_assoc]
  rfl

/-- Between two words there is whitespace, and nothing else. -/
structure Separated (words : List (List Char × α)) (trail : List Char) : Prop where
  blank : ∀ w ∈ words, Blank w.1
  between : ∀ w ∈ words.tail, w.1 ≠ []
  trail : Blank trail

theorem Separated.map {β : Type} (f : α → β) (h : Separated words trail) : Separated (words.map (Prod.map id f)) trail := by
  refine ⟨?_, ?_, h.trail⟩
  · exact forall_mem_map.mpr h.blank
  · rw [← map_tail]
    exact forall_mem_map.mpr h.between

/-- What is outside of quotes when it ends. -/
inductive Closed : List Char → Prop
  | nil : Closed []
  | outside {c : Char} {rest : List Char} (h : ¬ IsQuote c) (hrest : Closed rest) : Closed (c :: rest)
  | quoted (q : Quoted) {rest : List Char} (hrest : Closed rest) : Closed (q.text ++ rest)

def EndsInQuote (line : List Char) : Prop :=
  ∃ front quote body, line = front ++ quote :: body ∧ Closed front ∧ IsQuote quote ∧ quote ∉ body

theorem EndsInQuote.outside {c : Char} {rest : List Char} (hc : ¬ IsQuote c) (h : EndsInQuote rest) :
    EndsInQuote (c :: rest) := by
  obtain ⟨front, quote, body, rfl, hfront, hquote, hbody⟩ := h
  exact ⟨c :: front, quote, body, rfl, hfront.outside hc, hquote, hbody⟩

theorem EndsInQuote.quoted {rest : List Char} (h : EndsInQuote rest) : EndsInQuote (q.text ++ rest) := by
  obtain ⟨front, quote, body, rfl, hfront, hquote, hbody⟩ := h
  exact ⟨q.text ++ front, quote, body, (append_assoc _ _ _).symm, hfront.quoted q, hquote, hbody⟩

/-- By induction on the length of the line, as a quoted string takes more than
one character of it. -/
theorem closed_or_endsInQuote (line : List Char) : Closed line ∨ EndsInQuote line := by
  induction hlength : line.length using Nat.strong_induction_on generalizing line with
  | _ n ih =>
    subst hlength
    cases line with
    | nil => exact .inl .nil
    | cons c rest =>
      by_cases hc : IsQuote c
      · by_cases hmem : c ∈ rest
        · obtain ⟨body, rest, rfl, hclean⟩ := eq_append_cons_of_mem hmem
          let q : Quoted := ⟨c, body, hc, hclean⟩
          have htext : c :: (body ++ c :: rest) = q.text ++ rest := by simp [q, Quoted.text]
          rw [htext]
          rcases ih rest.length (by simp; omega) rest rfl with h | h
          · exact .inl (h.quoted q)
          · exact .inr (h.quoted q)
        · exact .inr ⟨[], c, rest, rfl, .nil, hc, hmem⟩
      · rcases ih rest.length (by simp) rest rfl with h | h
        · exact .inl (h.outside hc)
        · exact .inr (h.outside hc)

end Forms

section Reading

variable {toks : List (List Char)} {current : List Char} {inToken : Bool} {c q : Char}

theorem push_quote (hc : IsQuote c) :
    Tokenizer.push ⟨toks, current, inToken, none⟩ c = ⟨toks, current, true, some c⟩ := if_pos hc

theorem push_plain (hc : ¬ IsQuote c) (hspace : isWhitespace c = false) :
    Tokenizer.push ⟨toks, current, inToken, none⟩ c = ⟨toks, current ++ [c], true, none⟩ :=
  (if_neg hc).trans (if_neg (by rw [hspace]; decide))

theorem not_isQuote_of_isWhitespace (hspace : isWhitespace c = true) : ¬ IsQuote c := by
  rintro (rfl | rfl) <;> exact absurd hspace (by decide)

theorem push_space (hspace : isWhitespace c = true) : Tokenizer.push ⟨toks, current, inToken, none⟩ c =
      if inToken then ⟨toks ++ [current], [], false, none⟩ else ⟨toks, current, inToken, none⟩ :=
  (if_neg (not_isQuote_of_isWhitespace hspace)).trans (if_pos hspace)

theorem push_inside (h : c ≠ q) :
    Tokenizer.push ⟨toks, current, inToken, some q⟩ c = ⟨toks, current ++ [c], inToken, some q⟩ := if_neg h

theorem push_close : Tokenizer.push ⟨toks, current, inToken, some q⟩ q = ⟨toks, current, inToken, none⟩ := if_pos rfl

theorem foldl_body {body : List Char} (h : q ∉ body) :
    body.foldl Tokenizer.push ⟨toks, current, inToken, some q⟩ = ⟨toks, current ++ body, inToken, some q⟩ := by
  induction body generalizing current with
  | nil => rw [append_nil, foldl_nil]
  | cons c body ih =>
    obtain ⟨hc, hbody⟩ := not_or.mp (mt mem_cons.mpr h)
    rw [foldl_cons, push_inside (Ne.symm hc), ih hbody, append_assoc, singleton_append]

theorem foldl_quoted (q : Quoted) :
    q.text.foldl Tokenizer.push ⟨toks, current, inToken, none⟩ = ⟨toks, current ++ q.body, true, none⟩ := by
  rw [Quoted.text, foldl_cons, push_quote q.isQuote, foldl_append, foldl_body q.clean]
  exact push_close

variable {run : List Char}

theorem foldl_run (h : ∀ c ∈ run, ¬ IsQuote c ∧ isWhitespace c = false) :
    run.foldl Tokenizer.push ⟨toks, current, true, none⟩ = ⟨toks, current ++ run, true, none⟩ := by
  induction run generalizing current with
  | nil => rw [append_nil, foldl_nil]
  | cons c run ih =>
    obtain ⟨hc, hrun⟩ := forall_mem_cons.mp h
    rw [foldl_cons, push_plain hc.1 hc.2, ih hrun, append_assoc, singleton_append]

theorem foldl_plain (p : Plain) :
    p.run.foldl Tokenizer.push ⟨toks, current, inToken, none⟩ = ⟨toks, current ++ p.run, true, none⟩ := by
  obtain ⟨run, hne, hrun⟩ := p
  cases run with
  | nil => exact absurd rfl hne
  | cons c run =>
    obtain ⟨hc, hrest⟩ := forall_mem_cons.mp hrun
    rw [foldl_cons, push_plain hc.1 hc.2, foldl_run hrest, append_assoc, singleton_append]

theorem foldl_piece (p : Piece) :
    p.text.foldl Tokenizer.push ⟨toks, current, inToken, none⟩ = ⟨toks, current ++ p.value, true, none⟩ := by
  cases p with
  | quoted q => exact foldl_quoted q
  | plain p => exact foldl_plain p

theorem foldl_pieces (pieces : List Piece) : (pieces.flatMap Piece.text).foldl Tokenizer.push ⟨toks, current, true, none⟩ =
      ⟨toks, current ++ pieces.flatMap Piece.value, true, none⟩ := by
  induction pieces generalizing current with
  | nil => rw [flatMap_nil, flatMap_nil, append_nil, foldl_nil]
  | cons p pieces ih => rw [flatMap_cons, foldl_append, foldl_piece, ih, flatMap_cons, append_assoc]

theorem foldl_word (w : Word) :
    w.text.foldl Tokenizer.push ⟨toks, current, inToken, none⟩ = ⟨toks, current ++ w.value, true, none⟩ := by
  obtain ⟨pieces, hne⟩ := w
  cases pieces with
  | nil => exact absurd rfl hne
  | cons p pieces =>
    rw [Word.text, flatMap_cons, foldl_append, foldl_piece, foldl_pieces, Word.value, flatMap_cons, append_assoc]

theorem foldl_blank (h : Blank run) :
    run.foldl Tokenizer.push ⟨toks, current, false, none⟩ = ⟨toks, current, false, none⟩ := by
  induction run with
  | nil => rfl
  | cons c run ih =>
    obtain ⟨hc, hrun⟩ := forall_mem_cons.mp h
    rw [foldl_cons, push_space hc, if_neg Bool.false_ne_true, ih hrun]

theorem foldl_gap (h : Blank run) (hne : run ≠ []) :
    run.foldl Tokenizer.push ⟨toks, current, true, none⟩ = ⟨toks ++ [current], [], false, none⟩ := by
  cases run with
  | nil => exact absurd rfl hne
  | cons c run =>
    obtain ⟨hc, hrun⟩ := forall_mem_cons.mp h
    rw [foldl_cons, push_space hc, if_pos rfl, foldl_blank hrun]

theorem foldl_closed {line : List Char} (h : Closed line) {t : Tokenizer} (ht : t.quote = none) :
    (line.foldl Tokenizer.push t).quote = none := by
  induction h generalizing t with
  | nil => exact ht
  | @outside c rest hc hrest ih =>
    obtain ⟨toks, current, inToken, quote⟩ := t
    subst ht
    refine ih ?_
    cases hspace : isWhitespace c with
    | true =>
      rw [push_space hspace]
      cases inToken <;> rfl
    | false => rw [push_plain hc hspace]
  | @quoted q rest hrest ih =>
    obtain ⟨toks, current, inToken, quote⟩ := t
    subst ht
    rw [foldl_append, foldl_quoted]
    exact ih rfl

theorem foldl_endsInQuote {line : List Char} (h : EndsInQuote line) {t : Tokenizer} (ht : t.quote = none) :
    (line.foldl Tokenizer.push t).quote.isSome = true := by
  obtain ⟨front, quote, body, rfl, hfront, hquote, hbody⟩ := h
  have hclosed := foldl_closed hfront ht
  rw [foldl_append]
  generalize front.foldl Tokenizer.push t = s at hclosed
  obtain ⟨toks, current, inToken, _⟩ := s
  subst hclosed
  rw [foldl_cons, push_quote hquote, foldl_body hbody]
  rfl

end Reading

section Lines

def finish (t : Tokenizer) : Except Bytes (List (List Char)) :=
  if t.quote.isSome then .error (ascii "unterminated quoted argument")
  else if t.inToken then .ok (t.tokens ++ [t.current])
  else .ok t.tokens

theorem tokenize_eq (line : List Char) : tokenize line = finish (line.foldl Tokenizer.push ⟨[], [], false, none⟩) := rfl

variable {words : List (List Char × Word)} {trail : List Char}

theorem finish_trail {toks : List (List Char)} {current : List Char} (h : Blank trail) :
    finish (trail.foldl Tokenizer.push ⟨toks, current, true, none⟩) = .ok (toks ++ [current]) := by
  by_cases hne : trail = []
  · subst hne
    rfl
  · rw [foldl_gap h hne]
    rfl

theorem finish_words {toks : List (List Char)} {current : List Char} (hblank : ∀ w ∈ words, Blank w.1)
    (hbetween : ∀ w ∈ words, w.1 ≠ []) (htrail : Blank trail) :
    finish ((lineOf Word.text words trail).foldl Tokenizer.push ⟨toks, current, true, none⟩) =
      .ok (toks ++ current :: words.map (fun w => w.2.value)) := by
  induction words generalizing toks current with
  | nil => exact finish_trail htrail
  | cons w words ih =>
    obtain ⟨hw, hwords⟩ := forall_mem_cons.mp hblank
    obtain ⟨hgap, hgaps⟩ := forall_mem_cons.mp hbetween
    rw [lineOf_cons, foldl_append, foldl_append, foldl_gap hw hgap, foldl_word, nil_append, map_cons]
    exact (ih hwords hgaps).trans (by rw [append_assoc, singleton_append])

theorem tokenize_lineOf (h : Separated words trail) :
    tokenize (lineOf Word.text words trail) = .ok (words.map (fun w => w.2.value)) := by
  rw [tokenize_eq]
  cases words with
  | nil =>
    rw [lineOf, flatMap_nil, nil_append, foldl_blank h.trail]
    rfl
  | cons w words =>
    obtain ⟨hw, hwords⟩ := forall_mem_cons.mp h.blank
    rw [lineOf_cons, foldl_append, foldl_append, foldl_blank hw, foldl_word, nil_append, map_cons]
    exact finish_words hwords h.between h.trail

theorem tokenize_eq_error_iff {line : List Char} : (∃ e, tokenize line = .error e) ↔ EndsInQuote line := by
  rw [tokenize_eq]
  constructor
  · rintro ⟨e, he⟩
    refine (closed_or_endsInQuote line).resolve_left fun hclosed => ?_
    have hnone := foldl_closed hclosed (t := ⟨[], [], false, none⟩) rfl
    rw [finish, hnone] at he
    revert he
    cases (line.foldl Tokenizer.push ⟨[], [], false, none⟩).inToken <;> exact fun he => by cases he
  · intro h
    exact ⟨_, if_pos (foldl_endsInQuote h rfl)⟩

/-- Quoted strings are read back from a line, pieces that touch are one
argument, and a line is refused if and only if it ends inside of quotes. -/
theorem tokenize_inverts_quoting :
    (∀ s : List Char, (∃ q : Quoted, q.body = s) ↔ singleQuote ∉ s ∨ doubleQuote ∉ s) ∧
      (∀ (strings : List (List Char × Quoted)) (trail : List Char), Separated strings trail →
        tokenize (lineOf Quoted.text strings trail) = .ok (strings.map (fun w => w.2.body))) ∧
      (∀ (words : List (List Char × Word)) (trail : List Char), Separated words trail →
        tokenize (lineOf Word.text words trail) = .ok (words.map (fun w => w.2.value))) ∧
      ∀ line : List Char, (∃ e, tokenize line = .error e) ↔ EndsInQuote line := by
  refine ⟨fun s => exists_quoted_iff, fun strings trail h => ?_, fun words trail => tokenize_lineOf,
    fun line => tokenize_eq_error_iff⟩
  let words : List (List Char × Word) := strings.map (Prod.map id Word.ofQuoted)
  have hwords : Separated words trail := h.map Word.ofQuoted
  have hline : lineOf Word.text words trail = lineOf Quoted.text strings trail := by
    simp only [lineOf, words, flatMap_map, Prod.map_fst, Prod.map_snd, id, Word.text_ofQuoted]
  have htokens := tokenize_lineOf hwords
  rw [hline] at htokens
  simpa only [words, map_map, Function.comp_def, Prod.map_snd, Word.value_ofQuoted] using htokens

/-- An empty string and a string with the other quote character. -/
theorem tokenize_inverts_quoting_example :
    tokenize [' ', '"', '"', ' ', singleQuote, 'a', '"', singleQuote] = .ok [[], ['a', '"']] := by
  let empty : Quoted := ⟨doubleQuote, [], .inr rfl, not_mem_nil⟩
  let other : Quoted := ⟨singleQuote, ['a', '"'], .inl rfl, by decide⟩
  have hseparated : Separated [([' '], empty), ([' '], other)] [] := by
    refine ⟨?_, ?_, ?_⟩ <;> simp [Blank, isWhitespace]
  exact tokenize_inverts_quoting.2.1 [([' '], empty), ([' '], other)] [] hseparated

end Lines

end ThreadCommissioner.Quoting
