import Mathlib.Data.List.Induction
import Mathlib.Tactic.Common

namespace ThreadCommissioner.Computations

open List

variable {ε ε' σ τ α β : Type} {x : Except ε α}

theorem bind_ok {f : α → Except ε β} {b : β} : (x >>= f) = .ok b ↔ ∃ a, x = .ok a ∧ f a = .ok b := by
  cases x <;> simp [bind, Except.bind]

theorem pure_eq_ok {a b : α} : (pure a : Except ε α) = .ok b ↔ a = b := by
  simp [pure, Except.pure]

theorem ok_unique {a b : α} (h : x = .ok a) (h' : x = .ok b) : a = b := Except.ok.inj (h.symm.trans h')

theorem ok_bind (a : α) (f : α → Except ε β) : (Except.ok a >>= f) = f a := rfl

theorem except_mapM_of_ok {f : α → Except ε β} {g : α → β} {as : List α} (h : ∀ a ∈ as, f a = .ok (g a)) :
    as.mapM f = .ok (as.map g) := by
  induction as with
  | nil => rfl
  | cons a as ih =>
    obtain ⟨ha, has⟩ := forall_mem_cons.mp h
    rw [mapM_cons, ha, ok_bind, ih has]
    rfl

/-- A fold succeeds if each element is accepted, when acceptance does not depend
on what was read before. -/
theorem except_foldlM_eq_ok {step : β → α → Except ε β} {f : β → α → β} {P : α → Prop}
    (h : ∀ b a b', step b a = .ok b' ↔ P a ∧ b' = f b a) {as : List α} {b b' : β} :
    as.foldlM step b = .ok b' ↔ (∀ a ∈ as, P a) ∧ b' = as.foldl f b := by
  induction as generalizing b with
  | nil =>
    rw [foldlM_nil, pure_eq_ok, foldl_nil, eq_comm]
    simp
  | cons a as ih =>
    rw [foldlM_cons, bind_ok, forall_mem_cons, foldl_cons]
    constructor
    · rintro ⟨c, hc, has⟩
      obtain ⟨ha, rfl⟩ := (h b a c).mp hc
      obtain ⟨hall, hb'⟩ := ih.mp has
      exact ⟨⟨ha, hall⟩, hb'⟩
    · rintro ⟨⟨ha, hall⟩, hb'⟩
      exact ⟨f b a, (h b a _).mpr ⟨ha, rfl⟩, ih.mpr ⟨hall, hb'⟩⟩

theorem except_foldlM_filter {step : β → α → Except ε β} {p : α → Bool} (h : ∀ b a, p a = false → step b a = .ok b)
    (as : List α) (b : β) : (as.filter p).foldlM step b = as.foldlM step b := by
  induction as generalizing b with
  | nil => rfl
  | cons a as ih =>
    by_cases ha : p a = true
    · rw [filter_cons_of_pos ha, foldlM_cons, foldlM_cons]
      exact congrArg (step b a >>= ·) (funext ih)
    · rw [filter_cons_of_neg ha, foldlM_cons, h b a (Bool.not_eq_true _ ▸ ha), ok_bind, ih]

/-- `if !condition { return Err(e) }`. -/
def ensure (condition : Prop) [Decidable condition] (e : ε) : Except ε Unit :=
  if condition then .ok () else .error e

/-- `ok_or`. -/
def okOr (x : Option α) (e : ε) : Except ε α :=
  match x with
  | some a => .ok a
  | none => .error e

variable {e : ε}

@[simp] theorem ensure_eq_ok {condition : Prop} [Decidable condition] {u : Unit} :
    ensure condition e = .ok u ↔ condition := by
  unfold ensure
  split <;> simp_all

variable {a : α}

@[simp] theorem okOr_eq_ok {x : Option α} : okOr x e = .ok a ↔ x = some a := by
  cases x <;> simp [okOr]

theorem ensure_true {condition : Prop} [Decidable condition] (h : condition) (e : ε) :
    ensure condition e = .ok () := if_pos h

/-- A fallible pure computation inside a stateful one; the state survives its failure. -/
def lift (x : Except ε α) : EStateM ε σ α := fun s =>
  match x with
  | .ok a => .ok a s
  | .error e => .error e s

instance monadLiftExcept : MonadLift (Except ε) (EStateM ε σ) := ⟨lift⟩

/-- Runs a computation on a component of the state. A failed call keeps what
the callee had already written, as a call through a mutable reference does. -/
def zoom (view : τ → σ) (put : σ → τ → τ) (wrap : ε → ε') (x : EStateM ε σ α) : EStateM ε' τ α :=
  fun t =>
    match x.run (view t) with
    | .ok a s => .ok a (put s t)
    | .error e s => .error (wrap e) (put s t)

def finalState : EStateM.Result ε σ α → σ
  | .ok _ s => s
  | .error _ s => s

def outcome : EStateM.Result ε σ α → Except ε α
  | .ok a _ => .ok a
  | .error e _ => .error e

@[simp] theorem run_pure (a : α) (s : σ) : (pure a : EStateM ε σ α).run s = .ok a s := rfl

@[simp] theorem run_get (s : σ) : (get : EStateM ε σ σ).run s = .ok s s := rfl

@[simp] theorem run_set (s t : σ) : (set t : EStateM ε σ PUnit).run s = .ok ⟨⟩ t := rfl

@[simp] theorem run_modify (f : σ → σ) (s : σ) : (modify f : EStateM ε σ PUnit).run s = .ok ⟨⟩ (f s) := rfl

@[simp] theorem run_lift_ok (a : α) (s : σ) : (liftM (Except.ok a : Except ε α) : EStateM ε σ α).run s = .ok a s := rfl

@[simp] theorem run_lift_error (e : ε) (s : σ) :
    (liftM (Except.error e : Except ε α) : EStateM ε σ α).run s = .error e s := rfl

variable {f : α → EStateM ε σ β}

theorem bind_of_ok {x : EStateM ε σ α} {s s' : σ} (h : x.run s = .ok a s') : (x >>= f).run s = (f a).run s' := by
  simp only [EStateM.run] at h
  simp only [EStateM.run, bind, EStateM.bind, h]

theorem bind_of_error {x : EStateM ε σ α} {s s' : σ} (h : x.run s = .error e s') : (x >>= f).run s = .error e s' := by
  simp only [EStateM.run] at h
  simp only [EStateM.run, bind, EStateM.bind, h]

variable {s t : σ}

theorem bind_eq_ok {x : EStateM ε σ α} {b : β} :
    (x >>= f).run s = .ok b t ↔ ∃ a s', x.run s = .ok a s' ∧ (f a).run s' = .ok b t := by
  cases h : x.run s with
  | ok a s' => simp [bind_of_ok h]
  | error e s' => simp [bind_of_error h]

theorem bind_eq_error {x : EStateM ε σ α} : (x >>= f).run s = .error e t ↔
      x.run s = .error e t ∨ ∃ a s', x.run s = .ok a s' ∧ (f a).run s' = .error e t := by
  cases h : x.run s with
  | ok a s' => simp [bind_of_ok h]
  | error e s' => simp [bind_of_error h]

theorem finalState_bind_pure (x : EStateM ε σ α) (f : α → β) (s : σ) :
    finalState ((x >>= fun a => pure (f a)).run s) = finalState (x.run s) := by
  cases h : x.run s with
  | ok a t =>
    rw [bind_of_ok h]
    rfl
  | error e t =>
    rw [bind_of_error h]
    rfl

theorem lift_eq_ok : (liftM x : EStateM ε σ α).run s = .ok a t ↔ x = .ok a ∧ t = s := by
  cases x with
  | ok b => simp [eq_comm]
  | error e => simp

theorem lift_of_ok (h : x = .ok a) (s : σ) : (liftM x : EStateM ε σ α).run s = .ok a s := lift_eq_ok.mpr ⟨h, rfl⟩

theorem get_bind (f : σ → EStateM ε σ β) (s : σ) : (get >>= f).run s = (f s).run s := bind_of_ok (run_get s)

theorem set_bind (f : PUnit → EStateM ε σ β) (s t : σ) : (set t >>= f).run s = (f ⟨⟩).run t := bind_of_ok (run_set s t)

theorem modify_bind (g : σ → σ) (f : PUnit → EStateM ε σ β) (s : σ) :
    (modify g >>= f).run s = (f ⟨⟩).run (g s) := bind_of_ok (run_modify g s)

theorem lift_bind_of_ok (h : x = .ok a) (f : α → EStateM ε σ β) (s : σ) :
    (liftM x >>= f).run s = (f a).run s := bind_of_ok (lift_of_ok h s)

theorem lift_bind_ok {b : β} : (liftM x >>= f).run s = .ok b t ↔ ∃ a, x = .ok a ∧ (f a).run s = .ok b t := by
  simp only [bind_eq_ok, lift_eq_ok]
  constructor
  · rintro ⟨a, _, ⟨hx, rfl⟩, hf⟩
    exact ⟨a, hx, hf⟩
  · rintro ⟨a, hx, hf⟩
    exact ⟨a, s, ⟨hx, rfl⟩, hf⟩

theorem lift_bind_eq_error : (liftM x >>= f).run s = .error e t ↔
      (x = .error e ∧ t = s) ∨ ∃ a, x = .ok a ∧ (f a).run s = .error e t := by
  cases x with
  | ok a => simp [lift_bind_of_ok rfl]
  | error e' => simp [bind_of_error (run_lift_error _ _), eq_comm]

theorem finalState_lift_bind {P : σ → Prop} {s : σ} (hs : P s)
    (hf : ∀ a, x = .ok a → P (finalState ((f a).run s))) : P (finalState ((liftM x >>= f).run s)) := by
  cases x with
  | ok a => exact hf a rfl
  | error e => exact hs

section Zoom

variable {view : τ → σ} {put : σ → τ → τ} {wrap : ε → ε'} {x : EStateM ε σ α} {t t' : τ}

theorem zoom_of_ok {a : α} {s : σ} (h : x.run (view t) = .ok a s) : (zoom view put wrap x).run t = .ok a (put s t) := by
  simp only [EStateM.run] at h
  simp only [EStateM.run, zoom, h]

theorem zoom_of_error {e : ε} {s : σ} (h : x.run (view t) = .error e s) :
    (zoom view put wrap x).run t = .error (wrap e) (put s t) := by
  simp only [EStateM.run] at h
  simp only [EStateM.run, zoom, h]

theorem zoom_eq_ok {a : α} : (zoom view put wrap x).run t = .ok a t' ↔ ∃ s, x.run (view t) = .ok a s ∧ t' = put s t := by
  cases h : x.run (view t) with
  | ok b s =>
    rw [zoom_of_ok h]
    simp [eq_comm]
  | error e s =>
    rw [zoom_of_error h]
    simp

theorem zoom_bind_ok {f : α → EStateM ε' τ β} {b : β} : (zoom view put wrap x >>= f).run t = .ok b t' ↔
      ∃ a s, x.run (view t) = .ok a s ∧ (f a).run (put s t) = .ok b t' := by
  simp only [bind_eq_ok, zoom_eq_ok]
  constructor
  · rintro ⟨a, _, ⟨s, hx, rfl⟩, hf⟩
    exact ⟨a, s, hx, hf⟩
  · rintro ⟨a, s, hx, hf⟩
    exact ⟨a, _, ⟨s, hx, rfl⟩, hf⟩

theorem zoom_eq_error {e : ε'} : (zoom view put wrap x).run t = .error e t' ↔
      ∃ e₀ s, x.run (view t) = .error e₀ s ∧ e = wrap e₀ ∧ t' = put s t := by
  cases h : x.run (view t) with
  | ok b s =>
    rw [zoom_of_ok h]
    simp
  | error e₀ s =>
    rw [zoom_of_error h]
    simp [eq_comm]

end Zoom

/-- Whether it succeeds or fails, the computation moves the state along `R`. -/
def Respects (R : σ → σ → Prop) (x : EStateM ε σ α) : Prop := ∀ s, R s (finalState (x.run s))

section Respects

variable {R : σ → σ → Prop} {x : EStateM ε σ α} {f : α → EStateM ε σ β}

theorem Respects.of_ok (h : Respects R x) {s t : σ} {a : α} (hx : x.run s = .ok a t) : R s t := by
  have := h s
  rwa [hx] at this

theorem Respects.of_error (h : Respects R x) {s t : σ} {e : ε} (hx : x.run s = .error e t) : R s t := by
  have := h s
  rwa [hx] at this

theorem Respects.andThen {Q S : σ → σ → Prop} (hq : ∀ {a b}, Q a b → S a b) (ht : ∀ {a b c}, Q a b → R b c → S a c)
    (hx : Respects Q x) (hf : ∀ a, Respects R (f a)) : Respects S (x >>= f) := by
  intro s
  cases h : x.run s with
  | ok a s' =>
    rw [bind_of_ok h]
    exact ht (hx.of_ok h) (hf a s')
  | error e s' =>
    rw [bind_of_error h]
    exact hq (hx.of_error h)

theorem Respects.bind (ht : ∀ {a b c}, R a b → R b c → R a c) (hx : Respects R x)
    (hf : ∀ a, Respects R (f a)) : Respects R (x >>= f) := .andThen id ht hx hf

theorem respects_modify {g : σ → σ} (h : ∀ s, R s (g s)) : Respects R (modify g : EStateM ε σ PUnit) := h

theorem Respects.zoom {view : τ → σ} {put : σ → τ → τ} {wrap : ε → ε'} {Q : τ → τ → Prop}
    (hx : Respects R x) (hq : ∀ t s, R (view t) s → Q t (put s t)) : Respects Q (zoom view put wrap x) := by
  intro t
  cases h : x.run (view t) with
  | ok a s =>
    rw [zoom_of_ok h]
    exact hq t s (hx.of_ok h)
  | error e s =>
    rw [zoom_of_error h]
    exact hq t s (hx.of_error h)

variable (hr : ∀ s, R s s)

include hr

theorem Respects.read_bind (hx : Respects Eq x) (hf : ∀ a, Respects R (f a)) : Respects R (x >>= f) :=
  .andThen (Q := Eq) (fun h => h ▸ hr _) (fun h h' => h ▸ h') hx hf

theorem respects_pure (a : α) : Respects R (pure a : EStateM ε σ α) := hr

theorem respects_throw (e : ε) : Respects R (throw e : EStateM ε σ α) := hr

theorem respects_get : Respects R (get : EStateM ε σ σ) := hr

theorem respects_lift (y : Except ε α) : Respects R (liftM y : EStateM ε σ α) := by
  intro s
  cases y <;> exact hr s

theorem Respects.lift_bind {y : Except ε α} (hf : ∀ a, Respects R (f a)) :
    Respects R (liftM y >>= f) := .read_bind hr (respects_lift (fun _ => rfl) y) hf

theorem Respects.forM_mem (ht : ∀ {a b c}, R a b → R b c → R a c)
    {body : β → EStateM ε σ PUnit} {bs : List β} (hbody : ∀ b ∈ bs, Respects R (body b)) : Respects R (bs.forM body) := by
  induction bs with
  | nil => exact respects_pure hr _
  | cons b bs ih =>
    obtain ⟨hb, hbs⟩ := forall_mem_cons.mp hbody
    exact .bind ht hb fun _ => ih hbs

theorem Respects.forM (ht : ∀ {a b c}, R a b → R b c → R a c) {body : β → EStateM ε σ PUnit}
    (hbody : ∀ b, Respects R (body b)) (bs : List β) : Respects R (bs.forM body) := .forM_mem hr ht fun b _ => hbody b

end Respects

/-- The computation moves the state along `R`, and a success then changes it as
`after` says. -/
def Concludes (R : σ → σ → Prop) (after : α → σ → σ) (x : EStateM ε σ α) : Prop :=
  ∀ s, (∃ e t, x.run s = .error e t ∧ R s t) ∨ ∃ a t, x.run s = .ok a (after a t) ∧ R s t

section Concludes

variable {R : σ → σ → Prop} {x : EStateM ε σ α} {f : α → EStateM ε σ β}

theorem Concludes.bind {after : β → σ → σ} (ht : ∀ {a b c}, R a b → R b c → R a c) (hx : Respects R x)
    (hf : ∀ a, Concludes R after (f a)) : Concludes R after (x >>= f) := by
  intro s
  cases h : x.run s with
  | error e t => exact .inl ⟨e, t, bind_of_error h, hx.of_error h⟩
  | ok a t =>
    rw [bind_of_ok h]
    rcases hf a t with ⟨e, t', hrun, hR⟩ | ⟨b, t', hrun, hR⟩
    · exact .inl ⟨e, t', hrun, ht (hx.of_ok h) hR⟩
    · exact .inr ⟨b, t', hrun, ht (hx.of_ok h) hR⟩

theorem concludes_of_ok {after : α → σ → σ} (hr : ∀ s, R s s) {a : α} (h : ∀ s, x.run s = .ok a (after a s)) :
    Concludes R after x := fun s => .inr ⟨a, s, h s, hr s⟩

end Concludes

/-- When the computation fails, the state it leaves is related to the one it
was given. -/
def FailsWithin (R : σ → σ → Prop) (x : EStateM ε σ α) : Prop := ∀ s e t, x.run s = .error e t → R s t

section FailsWithin

variable {R : σ → σ → Prop} {x : EStateM ε σ α} {f : α → EStateM ε σ β}

theorem Respects.failsWithin (h : Respects R x) : FailsWithin R x := fun _ _ _ hx => h.of_error hx

theorem FailsWithin.bind (ht : ∀ {a b c}, R a b → R b c → R a c) (hx : Respects R x)
    (hf : ∀ a, FailsWithin R (f a)) : FailsWithin R (x >>= f) := by
  intro s e t h
  rcases bind_eq_error.mp h with h | ⟨a, s', hs, h⟩
  · exact hx.of_error h
  · exact ht (hx.of_ok hs) (hf a s' e t h)

theorem FailsWithin.bind_pure (hx : FailsWithin R x) (g : α → β) : FailsWithin R (x >>= fun a => pure (g a)) := by
  intro s e t h
  rcases bind_eq_error.mp h with h | ⟨a, s', -, h⟩
  · exact hx s e t h
  · cases h

theorem FailsWithin.lift_bind (hr : ∀ s, R s s) {y : Except ε α} (hf : ∀ a, y = .ok a → FailsWithin R (f a)) :
    FailsWithin R (liftM y >>= f) := by
  intro s e t h
  rcases lift_bind_eq_error.mp h with ⟨-, rfl⟩ | ⟨a, ha, h⟩
  · exact hr _
  · exact hf a ha s e t h

theorem FailsWithin.get_bind {f : σ → EStateM ε σ β} (hf : ∀ s, FailsWithin R (f s)) : FailsWithin R (get >>= f) :=
  fun s e t h => hf s s e t h

theorem failsWithin_of_ok (h : ∀ s, ∃ a t, x.run s = .ok a t) : FailsWithin R x := by
  intro s e t he
  obtain ⟨a, u, ha⟩ := h s
  cases ha.symm.trans he

theorem FailsWithin.zoom {view : τ → σ} {put : σ → τ → τ} {wrap : ε → ε'} {Q : τ → τ → Prop}
    (hx : FailsWithin R x) (hq : ∀ t s, R (view t) s → Q t (put s t)) : FailsWithin Q (zoom view put wrap x) := by
  intro t e t' h
  obtain ⟨e₀, s, hs, -, rfl⟩ := zoom_eq_error.mp h
  exact hq t s (hx _ e₀ s hs)

end FailsWithin

/-- From a state with the property the computation succeeds, and the property
stays. -/
def Succeeds (P : σ → Prop) (x : EStateM ε σ α) : Prop := ∀ s, P s → ∃ a t, x.run s = .ok a t ∧ P t

section Succeeds

variable {P : σ → Prop} {x : EStateM ε σ α} {f : α → EStateM ε σ β}

theorem Succeeds.bind (hx : Succeeds P x) (hf : ∀ a, Succeeds P (f a)) : Succeeds P (x >>= f) := by
  intro s hs
  obtain ⟨a, t, ha, ht⟩ := hx s hs
  rw [bind_of_ok ha]
  exact hf a t ht

theorem Succeeds.lift_bind {y : Except ε α} {a : α} (hy : y = .ok a) (hf : Succeeds P (f a)) :
    Succeeds P (liftM y >>= f) := by
  intro s hs
  rw [lift_bind_of_ok hy]
  exact hf s hs

theorem succeeds_pure (a : α) : Succeeds P (pure a : EStateM ε σ α) := fun s hs => ⟨a, s, rfl, hs⟩

theorem succeeds_modify {g : σ → σ} (h : ∀ s, P s → P (g s)) : Succeeds P (modify g : EStateM ε σ PUnit) :=
  fun s hs => ⟨⟨⟩, g s, rfl, h s hs⟩

theorem Succeeds.forM {body : β → EStateM ε σ PUnit} {bs : List β} (hbody : ∀ b ∈ bs, Succeeds P (body b)) :
    Succeeds P (bs.forM body) := by
  induction bs with
  | nil => exact succeeds_pure _
  | cons b bs ih =>
    obtain ⟨hb, hbs⟩ := forall_mem_cons.mp hbody
    exact hb.bind fun _ => ih hbs

end Succeeds

/-- Success with `R`, or failure with `Q`. -/
def Ends (R : α → σ → Prop) (Q : σ → Prop) : EStateM.Result ε σ α → Prop
  | .ok a t => R a t
  | .error _ t => Q t

/-- From a state with `P` success ends in `R` and failure in `Q`. -/
def Triple (P : σ → Prop) (R : α → σ → Prop) (Q : σ → Prop) (x : EStateM ε σ α) : Prop := ∀ s, P s → Ends R Q (x.run s)

section Triple

variable {P Q : σ → Prop} {R : α → σ → Prop} {S : β → σ → Prop} {x : EStateM ε σ α} {f : α → EStateM ε σ β}

theorem Triple.bind (hx : Triple P R Q x) (hf : ∀ a, Triple (R a) S Q (f a)) : Triple P S Q (x >>= f) := by
  intro s hs
  have hends := hx s hs
  cases hrun : x.run s with
  | ok a t =>
    rw [hrun] at hends
    rw [bind_of_ok hrun]
    exact hf a t hends
  | error e t =>
    rw [hrun] at hends
    rw [bind_of_error hrun]
    exact hends

theorem triple_pure {a : α} (h : ∀ s, P s → R a s) : Triple P R Q (pure a : EStateM ε σ α) := h

theorem Triple.get_bind {f : σ → EStateM ε σ β} (hf : ∀ s, Triple P S Q (f s)) : Triple P S Q (get >>= f) :=
  fun s hs => hf s s hs

theorem Triple.lift_bind {y : Except ε α} (hq : ∀ s, P s → Q s) (hf : ∀ a, Triple P S Q (f a)) :
    Triple P S Q (liftM y >>= f) := by
  cases y with
  | ok a => exact hf a
  | error e => exact hq

theorem triple_lift (hq : ∀ s, P s → Q s) (y : Except ε α) : Triple P (fun _ => P) Q (liftM y : EStateM ε σ α) := by
  cases y with
  | ok a => exact fun _ hs => hs
  | error e => exact hq

variable (h : Triple P R Q x)

include h

theorem Triple.weaken {R' : α → σ → Prop} (hr : ∀ a t, R a t → R' a t) : Triple P R' Q x := by
  intro s hs
  have hends := h s hs
  cases hrun : x.run s with
  | ok a t =>
    rw [hrun] at hends
    exact hr a t hends
  | error e t =>
    rw [hrun] at hends
    exact hends

theorem Triple.weakenError {Q' : σ → Prop} (hq : ∀ t, Q t → Q' t) : Triple P R Q' x := by
  intro s hs
  have hends := h s hs
  cases hrun : x.run s with
  | ok a t =>
    rw [hrun] at hends
    exact hends
  | error e t =>
    rw [hrun] at hends
    exact hq t hends

theorem Triple.finalState {T : σ → Prop} (hr : ∀ a t, R a t → T t) (hq : ∀ t, Q t → T t) {s : σ}
    (hs : P s) : T (finalState (x.run s)) := by
  have hends := h s hs
  cases hrun : x.run s with
  | ok a t =>
    rw [hrun] at hends
    exact hr a t hends
  | error e t =>
    rw [hrun] at hends
    exact hq t hends

end Triple

/-- The computation as a function that forgets the state it fails in. -/
def exec (x : EStateM ε σ α) (s : σ) : Except ε (α × σ) :=
  match x.run s with
  | .ok a t => .ok (a, t)
  | .error e _ => .error e

theorem exec_of_ok {x : EStateM ε σ α} {s t : σ} {a : α} (h : x.run s = .ok a t) : exec x s = .ok (a, t) := by
  rw [exec, h]

theorem exec_eq_ok {x : EStateM ε σ α} {s : σ} {r : α × σ} : exec x s = .ok r ↔ x.run s = .ok r.1 r.2 := by
  rw [exec]
  cases x.run s with
  | ok a t =>
    simp only [Except.ok.injEq, EStateM.Result.ok.injEq]
    constructor
    · rintro rfl
      exact ⟨rfl, rfl⟩
    · rintro ⟨rfl, rfl⟩
      rfl
  | error e t => simp

/-- A loop over a list whose body may leave the loop with a result. -/
def forEach (body : α → EStateM ε σ (Option β)) : List α → EStateM ε σ (Option β)
  | [] => pure none
  | a :: as => do
    match ← body a with
    | some b => return some b
    | none => forEach body as

section ForEach

variable {body : α → EStateM ε σ (Option β)} {a : α} {as : List α} {s t : σ}

theorem forEach_cons_none (h : (body a).run s = .ok none t) :
    (forEach body (a :: as)).run s = (forEach body as).run t := bind_of_ok h

theorem forEach_cons_some {b : β} (h : (body a).run s = .ok (some b) t) :
    (forEach body (a :: as)).run s = .ok (some b) t := bind_of_ok h

/-- The loop that leaves early: the body let all elements before one pass and
left with that one. A property of the elements passed so far, and of the
state, holds there if the body keeps it. -/
theorem forEach_eq_some {P : List α → σ → Prop}
    (hstep : ∀ passed a s t, a ∈ as → P passed s → (body a).run s = .ok none t → P (passed ++ [a]) t)
    (passed : List α) (hp : P passed s) {b : β} (h : (forEach body as).run s = .ok (some b) t) :
    ∃ before a after u, as = before ++ a :: after ∧ P (passed ++ before) u ∧ (body a).run u = .ok (some b) t := by
  induction as generalizing passed s with
  | nil => cases h
  | cons a as ih =>
    obtain ⟨r, u, ha, h⟩ := bind_eq_ok.mp h
    cases r with
    | some b' =>
      cases h
      exact ⟨[], a, as, s, rfl, by rwa [append_nil], ha⟩
    | none =>
      obtain ⟨before, a', after, v, rfl, hv, hb⟩ :=
        ih (fun p c s t hc => hstep p c s t (mem_cons_of_mem a hc)) (passed ++ [a])
          (hstep passed a s u mem_cons_self hp ha) h
      rw [append_assoc] at hv
      exact ⟨a :: before, a', after, v, rfl, hv, hb⟩

theorem forEach_eq_none {P : List α → σ → Prop}
    (hstep : ∀ passed a s t, a ∈ as → P passed s → (body a).run s = .ok none t → P (passed ++ [a]) t)
    (passed : List α) (hp : P passed s) (h : (forEach body as).run s = .ok none t) : P (passed ++ as) t := by
  induction as generalizing passed s with
  | nil =>
    cases h
    rwa [append_nil]
  | cons a as ih =>
    obtain ⟨r, u, ha, h⟩ := bind_eq_ok.mp h
    cases r with
    | some b' => cases h
    | none =>
      have := ih (fun p c s t hc => hstep p c s t (mem_cons_of_mem a hc)) (passed ++ [a])
        (hstep passed a s u mem_cons_self hp ha) h
      rwa [append_assoc] at this

theorem forEach_within {R : σ → σ → Prop} (hr : ∀ s, R s s) (ht : ∀ {a b c}, R a b → R b c → R a c)
    (hbody : ∀ a s r t, (body a).run s = .ok r t → R s t) {r : Option β} (h : (forEach body as).run s = .ok r t) :
    R s t := by
  induction as generalizing s with
  | nil =>
    cases h
    exact hr _
  | cons a as ih =>
    obtain ⟨r', u, ha, h⟩ := bind_eq_ok.mp h
    cases r' with
    | some b =>
      cases h
      exact hbody a _ _ _ ha
    | none => exact ht (hbody a s none u ha) (ih h)

theorem Respects.forEach {R : σ → σ → Prop} (hr : ∀ s, R s s) (ht : ∀ {a b c}, R a b → R b c → R a c)
    (hbody : ∀ a, Respects R (body a)) (as : List α) : Respects R (forEach body as) := by
  induction as with
  | nil => exact respects_pure hr _
  | cons a as ih =>
    refine .bind ht (hbody a) fun r => ?_
    cases r with
    | some b => exact respects_pure hr _
    | none => exact ih

theorem forEach_none_iff {Quiet : α → Prop} (hbody : ∀ a s, (∃ t, (body a).run s = .ok none t) ↔ Quiet a) :
    (∃ t, (forEach body as).run s = .ok none t) ↔ ∀ a ∈ as, Quiet a := by
  induction as generalizing s with
  | nil => exact ⟨fun _ => forall_mem_nil _, fun _ => ⟨s, rfl⟩⟩
  | cons a as ih =>
    rw [forall_mem_cons]
    constructor
    · rintro ⟨t, h⟩
      obtain ⟨r, u, ha, h⟩ := bind_eq_ok.mp h
      cases r with
      | some b => cases h
      | none => exact ⟨(hbody a s).mp ⟨u, ha⟩, ih.mp ⟨t, h⟩⟩
    · rintro ⟨ha, has⟩
      obtain ⟨u, ha⟩ := (hbody a s).mpr ha
      rw [forEach_cons_none ha]
      exact ih.mpr has

end ForEach

/-- What the computation does with success from a state, it does from every
state that stands in for it. -/
def Follows (E : σ → σ → Prop) (x : EStateM ε σ α) : Prop :=
  ∀ s a t, x.run s = .ok a t → ∀ s', E s s' → ∃ t', x.run s' = .ok a t' ∧ E t t'

section Follows

variable {E : σ → σ → Prop} {x : EStateM ε σ α} {f : α → EStateM ε σ β}

theorem follows_pure (a : α) : Follows E (pure a : EStateM ε σ α) := by
  intro s b t h s' he
  cases h
  exact ⟨s', rfl, he⟩

theorem Follows.bind (hx : Follows E x) (hf : ∀ a, Follows E (f a)) : Follows E (x >>= f) := by
  intro s b t h s' he
  obtain ⟨a, u, ha, h⟩ := bind_eq_ok.mp h
  obtain ⟨u', ha', he'⟩ := hx s a u ha s' he
  rw [bind_of_ok ha']
  exact hf a u b t h u' he'

theorem Follows.lift_bind {y : Except ε α} (hf : ∀ a, Follows E (f a)) : Follows E (liftM y >>= f) := by
  intro s b t h s' he
  obtain ⟨a, ha, h⟩ := lift_bind_ok.mp h
  rw [lift_bind_of_ok ha]
  exact hf a s b t h s' he

theorem Follows.forEach {body : α → EStateM ε σ (Option β)} (hbody : ∀ a, Follows E (body a)) (as : List α) :
    Follows E (forEach body as) := by
  induction as with
  | nil => exact follows_pure none
  | cons a as ih =>
    refine (hbody a).bind fun r => ?_
    cases r with
    | some b => exact follows_pure _
    | none => exact ih

end Follows

/-- One round of a loop: the state before, what the round was about, and the
state after. -/
structure Round (σ α : Type) where
  before : σ
  item : α
  after : σ

/-- The rounds of a loop, to its end or to the round that fails. -/
def rounds (body : α → EStateM ε σ PUnit) : List α → σ → List (Round σ α)
  | [], _ => []
  | a :: as, s =>
    ⟨s, a, finalState ((body a).run s)⟩ ::
      match (body a).run s with
      | .ok _ t => rounds body as t
      | .error _ _ => []

variable {body : α → EStateM ε σ PUnit}

theorem rounds_cons_of_ok {a : α} {s t : σ} {u : PUnit}
    (h : (body a).run s = .ok u t) (as : List α) : rounds body (a :: as) s = ⟨s, a, t⟩ :: rounds body as t := by
  rw [rounds, h]
  rfl

theorem rounds_singleton (body : α → EStateM ε σ PUnit) (a : α) (s : σ) :
    rounds body [a] s = [⟨s, a, finalState ((body a).run s)⟩] := by
  rw [rounds]
  cases (body a).run s <;> rfl

/-- The run rule of a loop: a property of the rounds so far and of the state
holds of every run, and before each of its rounds, if each round keeps it. -/
theorem rounds_induction {P : List (Round σ α) → σ → Prop}
    (hstep : ∀ past a s, P past s → P (past ++ [⟨s, a, finalState ((body a).run s)⟩]) (finalState ((body a).run s)))
    (past : List (Round σ α)) {s : σ} (h : P past s) (as : List α) :
    P (past ++ rounds body as s) (finalState ((as.forM body).run s)) := by
  induction as generalizing past s with
  | nil =>
    rw [rounds, append_nil]
    exact h
  | cons a as ih =>
    have hnext := hstep past a s h
    change P _ (finalState ((body a >>= fun _ => as.forM body).run s))
    rw [rounds]
    cases ha : (body a).run s with
    | ok u t =>
      rw [bind_of_ok ha]
      rw [ha] at hnext
      have hrest := ih (past ++ [⟨s, a, t⟩]) hnext
      rwa [append_assoc] at hrest
    | error e t =>
      rw [bind_of_error ha]
      rwa [ha] at hnext

theorem rounds_of_forM {P : List (Round σ α) → σ → Prop}
    (hstep : ∀ past a s t, P past s → (body a).run s = .ok ⟨⟩ t → P (past ++ [⟨s, a, t⟩]) t)
    (past : List (Round σ α)) {s t : σ} (h : P past s) {as : List α} {u : PUnit}
    (hrun : (as.forM body).run s = .ok u t) : P (past ++ rounds body as s) t := by
  induction as generalizing past s with
  | nil =>
    cases hrun
    rw [rounds, append_nil]
    exact h
  | cons a as ih =>
    obtain ⟨_, s', ha, hrun⟩ := bind_eq_ok.mp hrun
    rw [rounds_cons_of_ok ha, append_cons]
    exact ih (past ++ [⟨s, a, s'⟩]) (hstep past a s s' h ha) hrun

/-- A loop ends well if its last rounds do. -/
theorem forM_of_rounds {as : List α} {s : σ} {r : Round σ α} {rest : List (Round σ α)}
    (hsuffix : r :: rest <:+ rounds body as s) (h : ∀ q ∈ r :: rest, ∃ u t, (body q.item).run q.before = .ok u t) :
    ∃ u t, (as.forM body).run s = .ok u t := by
  induction as generalizing s r rest with
  | nil => cases eq_nil_of_suffix_nil hsuffix
  | cons a as ih =>
    cases ha : (body a).run s with
    | error e t =>
      rw [rounds, ha] at hsuffix
      obtain rfl := mem_singleton.mp (hsuffix.subset mem_cons_self)
      obtain ⟨u, t, hok⟩ := h _ mem_cons_self
      cases ha.symm.trans hok
    | ok u t =>
      have hnext : ∀ {u' t'}, (as.forM body).run t = .ok u' t' → ∃ u t, ((a :: as).forM body).run s = .ok u t :=
        fun hrun => ⟨_, _, (bind_of_ok ha).trans hrun⟩
      rw [rounds_cons_of_ok ha] at hsuffix
      rcases suffix_cons_iff.mp hsuffix with heq | hsuffix
      · cases as with
        | nil => exact hnext rfl
        | cons b bs =>
          obtain ⟨-, rfl⟩ := List.cons.inj heq
          obtain ⟨u, t, hrun⟩ := ih suffix_rfl fun q hq => h q (mem_cons_of_mem _ hq)
          exact hnext hrun
      · obtain ⟨u, t, hrun⟩ := ih hsuffix h
        exact hnext hrun

theorem ok_of_mem_rounds {as : List α} {s t : σ} {u : PUnit} (hrun : (as.forM body).run s = .ok u t)
    {r : Round σ α} (hr : r ∈ rounds body as s) : ∃ u t, (body r.item).run r.before = .ok u t :=
  rounds_of_forM (P := fun past _ => ∀ r ∈ past, ∃ u t, (body r.item).run r.before = .ok u t)
    (fun _ _ _ _ hpast ha => forall_mem_append.mpr ⟨hpast, forall_mem_singleton.mpr ⟨_, _, ha⟩⟩) []
    (forall_mem_nil _) hrun r hr

/-- Runs a list of calls one after the other, whatever their outcomes. -/
def runAll {ι : Type} (call : ι → EStateM ε σ α) : List ι → σ → σ × List (Except ε α)
  | [], s => (s, [])
  | i :: is, s =>
    let result := (call i).run s
    let rest := runAll call is (finalState result)
    (rest.1, outcome result :: rest.2)

def successes : List (Except ε α) → List α
  | [] => []
  | .ok a :: rest => a :: successes rest
  | .error _ :: rest => successes rest

variable {ι : Type} (call : ι → EStateM ε σ α)

theorem runAll_append (is js : List ι) (s : σ) : runAll call (is ++ js) s = ((runAll call js (runAll call is s).1).1,
        (runAll call is s).2 ++ (runAll call js (runAll call is s).1).2) := by
  induction is generalizing s with
  | nil => rfl
  | cons i is ih => simp only [cons_append, runAll, ih]

theorem runAll_concat (is : List ι) (i : ι) (s : σ) : runAll call (is ++ [i]) s =
      (finalState ((call i).run (runAll call is s).1),
        (runAll call is s).2 ++ [outcome ((call i).run (runAll call is s).1)]) := runAll_append call is [i] s

theorem successes_append (rs rs' : List (Except ε α)) : successes (rs ++ rs') = successes rs ++ successes rs' := by
  induction rs with
  | nil => rfl
  | cons r rs ih =>
    cases r with
    | ok a => exact congrArg (a :: ·) ih
    | error e => exact ih

theorem concat_eq_append_cons {xs before after : List α} {e a : α} (h : xs ++ [e] = before ++ a :: after) :
    (e = a ∧ xs = before) ∨ ∃ after', xs = before ++ a :: after' := by
  rcases after.eq_nil_or_concat with rfl | ⟨after', e', rfl⟩
  · obtain ⟨hxs, he⟩ := append_inj' h rfl
    exact .inl ⟨(List.cons.inj he).1, hxs⟩
  · rw [concat_eq_append, ← cons_append, ← append_assoc] at h
    exact .inr ⟨after', (append_inj' h rfl).1⟩

/-- The run rule: a property of the state and the successful results so far
that every call extends holds of every run. -/
theorem runAll_induction {call : ι → EStateM ε σ α} {P : σ → List α → Prop}
    (hok : ∀ i s as a t, P s as → (call i).run s = .ok a t → P t (as ++ [a]))
    (herror : ∀ i s as e t, P s as → (call i).run s = .error e t → P t as) {s : σ} {as : List α} (h : P s as) (is : List ι) :
    P (runAll call is s).1 (as ++ successes (runAll call is s).2) := by
  induction is generalizing s as with
  | nil => simpa [runAll, successes] using h
  | cons i is ih =>
    simp only [runAll]
    cases hi : (call i).run s with
    | ok a t =>
      have := ih (hok i s as a t h hi)
      rwa [append_assoc] at this
    | error e t => exact ih (herror i s as e t h hi)

theorem runAll_append_cons (before : List ι) (i : ι) (after : List ι) (s : σ) : (runAll call (before ++ i :: after) s).1 =
      (runAll call after (finalState ((call i).run (runAll call before s).1))).1 := by
  rw [runAll_append]
  rfl

/-- What holds at the end of a run, and did not at its start, was brought about
by a last call, after which every call kept it. -/
theorem runAll_origin {call : ι → EStateM ε σ α} {I P : σ → Prop} {G K : ι → σ → Prop}
    (hI : ∀ i s, I s → I (finalState ((call i).run s)))
    (hP : ∀ i s, I s → P (finalState ((call i).run s)) → (P s ∧ K i s) ∨ G i s) {s : σ} (hs : I s) (hstart : ¬ P s)
    {is : List ι} (h : P (runAll call is s).1) : ∃ before i after, is = before ++ i :: after ∧ G i (runAll call before s).1 ∧
      (∀ middle, middle <+: after → P (runAll call middle (finalState ((call i).run (runAll call before s).1))).1) ∧
      ∀ middle j, middle ++ [j] <+: after →
        K j (runAll call middle (finalState ((call i).run (runAll call before s).1))).1 := by
  have hinv : ∀ is, I (runAll call is s).1 := by
    intro is
    induction is using List.reverseRecOn with
    | nil => exact hs
    | append_singleton is i ih =>
      rw [runAll_concat]
      exact hI i _ ih
  induction is using List.reverseRecOn with
  | nil => exact absurd h hstart
  | append_singleton is j ih =>
    have hend := h
    rw [runAll_concat] at hend
    rcases hP j _ (hinv is) hend with ⟨hbefore, hkept⟩ | hgrant
    · obtain ⟨before, i, after, rfl, hgrant, hall, hsteps⟩ := ih hbefore
      refine ⟨before, i, after ++ [j], by simp, hgrant, fun middle hmiddle => ?_, fun middle j' hmiddle => ?_⟩
      · rcases prefix_concat_iff.mp hmiddle with rfl | hmiddle
        · rw [← runAll_append_cons]
          rwa [append_assoc] at h
        · exact hall middle hmiddle
      · rcases prefix_concat_iff.mp hmiddle with heq | hmiddle
        · obtain ⟨rfl, hj⟩ := append_inj' heq rfl
          obtain rfl := (List.cons.inj hj).1
          rwa [runAll_append_cons] at hkept
        · exact hsteps middle j' hmiddle
    · refine ⟨is, j, [], rfl, hgrant, fun middle hmiddle => ?_, fun middle j' hmiddle => ?_⟩
      · obtain rfl := prefix_nil.mp hmiddle
        exact hend
      · cases append_eq_nil_iff.mp (prefix_nil.mp hmiddle) |>.2

/-- The run rule of a machine that is fed a list: a property of what was fed
so far, and of the state, holds of every run if each step keeps it. -/
theorem foldl_induction {step : σ → α → σ} {P : List α → σ → Prop} {s : σ} (hstart : P [] s)
    (hstep : ∀ fed a s, P fed s → P (fed ++ [a]) (step s a)) (as : List α) : P as (as.foldl step s) := by
  induction as using List.reverseRecOn with
  | nil => exact hstart
  | append_singleton as a ih =>
    rw [foldl_append]
    exact hstep as a _ ih

/-- What is fed and not kept leaves no trace, at any moment of the run, exactly
when each such item leaves the state it meets as it is. -/
theorem foldl_filter_iff {step : σ → α → σ} {keep : α → Bool} {s : σ} {as : List α} :
    (∀ before after, as = before ++ after → (before.filter keep).foldl step s = before.foldl step s) ↔
      ∀ before a after, as = before ++ a :: after → keep a = false → step (before.foldl step s) a = before.foldl step s := by
  constructor
  · intro h before a after has ha
    have hbefore := h before (a :: after) has
    have hnext := h (before ++ [a]) after (by simpa using has)
    simp only [filter_append, filter_cons, ha, filter_nil, append_nil, foldl_append,
      foldl_cons, foldl_nil, Bool.false_eq_true, if_false] at hnext
    exact hnext.symm.trans hbefore
  · intro h before
    induction before using List.reverseRecOn with
    | nil => exact fun _ _ => rfl
    | append_singleton before a ih =>
      intro after has
      have has' : as = before ++ a :: after := by simpa using has
      have hbefore := ih (a :: after) has'
      rw [filter_append, foldl_append, foldl_append, hbefore]
      cases ha : keep a with
      | true => simp [ha]
      | false => simp [ha, h before a after has' ha]

/-- The second list is the first with items of the given kind put in. -/
inductive Inserts (P : α → Prop) : List α → List α → Prop
  | nil : Inserts P [] []
  | keep (a : α) {as bs : List α} (h : Inserts P as bs) : Inserts P (a :: as) (a :: bs)
  | insert {a : α} {as bs : List α} (ha : P a) (h : Inserts P as bs) : Inserts P as (a :: bs)

theorem Inserts.append_left {P : α → Prop} {as bs : List α} (h : Inserts P as bs) (front : List α) :
    Inserts P (front ++ as) (front ++ bs) := by
  induction front with
  | nil => exact h
  | cons a front ih => exact .keep a ih

/-- Every run of the relation from the state is finite and ends in `final`. -/
inductive EndsIn (R : σ → σ → Prop) (final : σ) : σ → Prop
  | done (h : ∀ t, ¬ R final t) : EndsIn R final final
  | later {s : σ} (hmove : ∃ t, R s t) (h : ∀ t, R s t → EndsIn R final t) : EndsIn R final s

end ThreadCommissioner.Computations
