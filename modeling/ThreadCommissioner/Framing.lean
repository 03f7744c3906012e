import Mathlib.Tactic.Common
import ThreadCommissioner.ByteStrings

namespace ThreadCommissioner.Framing

open ByteStrings List

variable {ε α β : Type}

/-- One turn of a loop that cuts a frame off the front of a buffer; every turn
makes progress. -/
structure Framer (ε α : Type) where
  next : Bytes → Except ε (α × Bytes)
  shrinks : ∀ {bs a rest}, next bs = .ok (a, rest) → rest.length < bs.length

/-- The loop itself: frames are cut off until the buffer is empty. -/
def Framer.all (F : Framer ε α) (bs : Bytes) : Except ε (List α) :=
  if bs.isEmpty then .ok []
  else
    match h : F.next bs with
    | .error e => .error e
    | .ok (a, rest) =>
      have := F.shrinks h
      match F.all rest with
      | .error e => .error e
      | .ok as => .ok (a :: as)
termination_by bs.length

def Framer.fold (F : Framer ε α) (step : β → α → Except ε β) (b : β) (bs : Bytes) : Except ε β :=
  if bs.isEmpty then .ok b
  else
    match h : F.next bs with
    | .error e => .error e
    | .ok (a, rest) =>
      have := F.shrinks h
      match step b a with
      | .error e => .error e
      | .ok b' => F.fold step b' rest
termination_by bs.length

/-- The bytes `enc` are one frame with content `a`, whatever follows them. -/
def Framer.Frames (F : Framer ε α) (enc : Bytes) (a : α) : Prop :=
  enc ≠ [] ∧ ∀ rest, F.next (enc ++ rest) = .ok (a, rest)

@[simp] theorem Framer.all_nil (F : Framer ε α) : F.all [] = .ok [] := by
  rw [Framer.all]; rfl

variable {F : Framer ε α} {rest bs : Bytes} {a : α} {as : List α} {step : β → α → Except ε β}

theorem Framer.all_append {enc : Bytes} (h : F.Frames enc a) (hr : F.all rest = .ok as) :
    F.all (enc ++ rest) = .ok (a :: as) := by
  rw [Framer.all, if_neg (by simp [h.1])]
  split
  · next he => rw [h.2] at he; cases he
  · next he =>
    rw [h.2] at he
    cases he
    rw [hr]

theorem Framer.all_of_error (hne : bs ≠ []) {e : ε} (h : F.next bs = .error e) : F.all bs = .error e := by
  rw [Framer.all, if_neg (by simp [hne])]
  split
  · next he =>
    cases h.symm.trans he
    rfl
  · next he =>
    rw [h] at he
    cases he

theorem Framer.fold_of_error (hne : bs ≠ []) {e : ε} (h : F.next bs = .error e) (b : β) : F.fold step b bs = .error e := by
  rw [Framer.fold, if_neg (by simp [hne])]
  split
  · next he =>
    cases h.symm.trans he
    rfl
  · next he =>
    rw [h] at he
    cases he

theorem Framer.fold_of_next (hne : bs ≠ []) (h : F.next bs = .ok (a, rest)) (b : β) :
    F.fold step b bs = step b a >>= fun b' => F.fold step b' rest := by
  rw [Framer.fold, if_neg (by simp [hne])]
  split
  · next he =>
    rw [h] at he
    cases he
  · next he =>
    rw [h] at he
    cases he
    cases step b a <;> rfl

theorem Framer.all_eq_ok_of_next (hne : bs ≠ []) (h : F.next bs = .ok (a, rest)) :
    F.all bs = .ok as ↔ ∃ as', as = a :: as' ∧ F.all rest = .ok as' := by
  rw [Framer.all, if_neg (by simpa using hne)]
  split
  · next he => rw [h] at he; cases he
  · next he =>
    rw [h] at he
    cases he
    cases F.all rest <;> simp [eq_comm]

theorem Framer.all_of_next (hne : bs ≠ []) (h : F.next bs = .ok (a, rest)) :
    F.all bs = .ok (a :: as) ↔ F.all rest = .ok as := by
  rw [Framer.all_eq_ok_of_next hne h]
  simp

theorem Framer.all_single {enc : Bytes} (h : F.Frames enc a) : F.all enc = .ok [a] := by
  simpa using Framer.all_append h F.all_nil

theorem Framer.all_forms {enc : β → Bytes} {content : β → α} (forms : List β)
    (h : ∀ b ∈ forms, F.Frames (enc b) (content b)) : F.all (forms.flatMap enc) = .ok (forms.map content) := by
  induction forms with
  | nil => simp
  | cons b forms ih =>
    obtain ⟨hb, hforms⟩ := forall_mem_cons.mp h
    rw [flatMap_cons, map_cons]
    exact Framer.all_append hb (ih hforms)

theorem Framer.all_flatMap {enc : α → Bytes} {xs : List α} (h : ∀ x ∈ xs, F.Frames (enc x) x) :
    F.all (xs.flatMap enc) = .ok xs := by
  rw [Framer.all_forms xs h, map_id']

/-- A loop that uses its frames one by one succeeds if the frames can be cut and
used one after the other. -/
theorem Framer.fold_eq_ok {b b' : β} : F.fold step b bs = .ok b' ↔ ∃ as, F.all bs = .ok as ∧ as.foldlM step b = .ok b' := by
  fun_induction Framer.fold F step b bs with
  | case1 b bs hbs =>
    rw [isEmpty_iff.mp hbs]
    simp [pure, Except.pure]
  | case2 b bs hbs e he =>
    rw [Framer.all_of_error (by simpa using hbs) he]
    simp
  | case3 b bs hbs a rest hn hlt e he =>
    simp only [reduceCtorEq, false_iff, not_exists, not_and]
    intro as has
    obtain ⟨as', rfl, -⟩ := (Framer.all_eq_ok_of_next (by simpa using hbs) hn).mp has
    rw [foldlM_cons, he]
    intro h
    cases h
  | case4 b bs hbs a rest hn hlt c hc ih =>
    have hcons : ∀ as, F.all bs = .ok as ↔ ∃ as', as = a :: as' ∧ F.all rest = .ok as' :=
      fun as => Framer.all_eq_ok_of_next (by simpa using hbs) hn
    rw [ih]
    constructor
    · rintro ⟨as, has, hfold⟩
      refine ⟨a :: as, (hcons _).mpr ⟨as, rfl, has⟩, ?_⟩
      rw [foldlM_cons, hc]
      exact hfold
    · rintro ⟨as, has, hfold⟩
      obtain ⟨as', rfl, hrest⟩ := (hcons as).mp has
      rw [foldlM_cons, hc] at hfold
      exact ⟨as', hrest, hfold⟩

/-- The rule of induction over the frames that the loop cuts off. -/
theorem Framer.all_induction {P : Bytes → List α → Prop} (hnil : P [] [])
    (hcons : ∀ {bs a rest as}, F.next bs = .ok (a, rest) → P rest as → P bs (a :: as)) (ha : F.all bs = .ok as) : P bs as := by
  fun_induction Framer.all F bs generalizing as with
  | case1 bs hbs =>
    cases ha
    rw [isEmpty_iff.mp hbs]
    exact hnil
  | case2 bs hbs e he => cases ha
  | case3 bs hbs a rest hn hlt e he ih => cases ha
  | case4 bs hbs a rest hn hlt as' has ih =>
    cases ha
    exact hcons hn (ih has)

theorem Framer.forall_of_all {Q : α → Prop} (h : ∀ {bs a rest}, F.next bs = .ok (a, rest) → Q a)
    (ha : F.all bs = .ok as) : ∀ a ∈ as, Q a := F.all_induction (P := fun _ as => ∀ a ∈ as, Q a) (forall_mem_nil _)
    (fun hn hrest => forall_mem_cons.mpr ⟨h hn, hrest⟩) ha

theorem Framer.exists_flatMap {enc : β → Bytes} {content : β → α}
    (h : ∀ {bs a rest}, F.next bs = .ok (a, rest) → ∃ b, content b = a ∧ bs = enc b ++ rest) (ha : F.all bs = .ok as) :
    ∃ forms : List β, forms.map content = as ∧ bs = forms.flatMap enc := by
  refine F.all_induction (P := fun bs as => ∃ forms : List β, forms.map content = as ∧ bs = forms.flatMap enc)
    ⟨[], rfl, rfl⟩ ?_ ha
  rintro bs a rest as hn ⟨forms, rfl, hrest⟩
  obtain ⟨form, rfl, hform⟩ := h hn
  exact ⟨form :: forms, rfl, by rw [hform, hrest, flatMap_cons]⟩

theorem Framer.eq_flatMap {enc : α → Bytes} (h : ∀ {bs a rest}, F.next bs = .ok (a, rest) → bs = enc a ++ rest)
    (ha : F.all bs = .ok as) : bs = as.flatMap enc := by
  obtain ⟨forms, hforms, hbs⟩ := Framer.exists_flatMap (fun hn => ⟨_, id_eq _, h hn⟩) ha
  rw [map_id] at hforms
  rw [hbs, hforms]

theorem Framer.sum_of_all {w : α → ℕ} (h : ∀ {bs a rest}, F.next bs = .ok (a, rest) → w a + rest.length ≤ bs.length)
    (ha : F.all bs = .ok as) : (as.map w).sum ≤ bs.length := by
  refine F.all_induction (P := fun bs as => (as.map w).sum ≤ bs.length) (Nat.zero_le _) (fun hn hrest => ?_) ha
  have hframe := h hn
  rw [map_cons, sum_cons]
  omega

theorem Framer.fold_le {w : α → ℕ} {μ : β → ℕ}
    (hnext : ∀ {bs a rest}, F.next bs = .ok (a, rest) → w a + rest.length ≤ bs.length)
    (hstep : ∀ {b a b'}, step b a = .ok b' → μ b' ≤ μ b + w a) {b b' : β} (h : F.fold step b bs = .ok b') :
    μ b' ≤ μ b + bs.length := by
  obtain ⟨as, has, hfold⟩ := Framer.fold_eq_ok.mp h
  have hsum := Framer.sum_of_all hnext has
  have hweight : μ b' ≤ μ b + (as.map w).sum := by
    clear has hsum h
    induction as generalizing b with
    | nil =>
      cases hfold
      exact Nat.le_add_right _ _
    | cons a as ih =>
      rw [foldlM_cons] at hfold
      cases hb : step b a with
      | error e =>
        rw [hb] at hfold
        cases hfold
      | ok c =>
        rw [hb] at hfold
        have hc := hstep hb
        have has := ih hfold
        rw [map_cons, sum_cons]
        omega
  omega

theorem Framer.length_of_all (h : F.all bs = .ok as) : as.length ≤ bs.length := by
  have hsum := Framer.sum_of_all (w := fun _ => 1) (fun hn => by have hlt := F.shrinks hn; omega) h
  simpa using hsum

end ThreadCommissioner.Framing
