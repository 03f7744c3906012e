import Mathlib.Data.List.Induction
import Mathlib.Data.Nat.Bitwise
import Mathlib.Data.Set.Insert

namespace ThreadCommissioner.ReplayWindow

structure DtlsReplayWindow where
  newestSequence : Option UInt64
  seen : UInt64
  deriving DecidableEq, Repr

namespace DtlsReplayWindow

def new : DtlsReplayWindow := ⟨none, 0⟩

def hasSeen (w : DtlsReplayWindow) (sequence : UInt64) : Bool :=
  match w.newestSequence with
  | none => false
  | some newest =>
    if newest < sequence then false
    else
      let offset := newest - sequence
      decide (64 ≤ offset) || (w.seen >>> offset) &&& 1 == 1

def markSeen (w : DtlsReplayWindow) (sequence : UInt64) : DtlsReplayWindow :=
  match w.newestSequence with
  | none => ⟨some sequence, 1⟩
  | some newest =>
    if newest < sequence then
      let shift := sequence - newest
      ⟨some sequence, if 64 ≤ shift then 1 else (w.seen <<< shift) ||| 1⟩
    else
      let offset := newest - sequence
      if offset < 64 then { w with seen := w.seen ||| (1 <<< offset) } else w

end DtlsReplayWindow

/-- The window stands for the set of numbers marked so far: its newest number
is the largest, and bit `k` tells whether the number `k` below is marked. -/
structure Tracks (w : DtlsReplayWindow) (marked : Set ℕ) : Prop where
  empty : w.newestSequence = none → marked = ∅
  newest_mem : ∀ {newest}, w.newestSequence = some newest → newest.toNat ∈ marked
  le_newest : ∀ {newest}, w.newestSequence = some newest → ∀ n ∈ marked, n ≤ newest.toNat
  bit : ∀ {newest}, w.newestSequence = some newest → ∀ k < 64,
    (w.seen.toNat.testBit k = true ↔ k ≤ newest.toNat ∧ newest.toNat - k ∈ marked)

theorem tracks_new : Tracks .new ∅ := by
  refine ⟨fun _ => rfl, ?_, ?_, ?_⟩ <;> exact fun h => nomatch h

theorem toNat_sub_of_not_lt {a b : UInt64} (h : ¬ a < b) : (a - b).toNat = a.toNat - b.toNat :=
  UInt64.toNat_sub_of_le _ _ (UInt64.not_lt.mp h)

theorem toNat_lt_64 {a : UInt64} : ¬ 64 ≤ a ↔ a.toNat < 64 := by
  rw [UInt64.not_le, UInt64.lt_iff_toNat_lt]
  exact Iff.rfl

section Bits

variable {seen shift offset : UInt64} {k : ℕ}

theorem shiftRight_and_one (h : offset.toNat < 64) : (seen >>> offset &&& 1 == 1) = seen.toNat.testBit offset.toNat := by
  rw [Nat.testBit_eq_decide_div_mod_eq, beq_eq_decide]
  apply decide_eq_decide.mpr
  rw [← UInt64.toNat_inj, UInt64.toNat_and, UInt64.toNat_shiftRight, Nat.mod_eq_of_lt h, Nat.shiftRight_eq_div_pow]
  exact Iff.of_eq (congrArg (· = 1) (Nat.and_one_is_mod _))

theorem testBit_one : (1 : UInt64).toNat.testBit k = decide (k = 0) := by
  change Nat.testBit 1 k = _
  cases k with
  | zero => rfl
  | succ k => simp [Nat.testBit_succ]

theorem testBit_shiftLeft (h : shift.toNat < 64) (hk : k < 64) :
    (seen <<< shift).toNat.testBit k = (decide (shift.toNat ≤ k) && seen.toNat.testBit (k - shift.toNat)) := by
  rw [UInt64.toNat_shiftLeft, Nat.mod_eq_of_lt h, Nat.testBit_mod_two_pow, Nat.testBit_shiftLeft]
  simp only [hk, decide_true, Bool.true_and, ge_iff_le]

end Bits

section Tracks

variable {w : DtlsReplayWindow} {marked : Set ℕ} {seq newest : UInt64}

theorem tracks_of_newest (hn : w.newestSequence = some newest) (hmem : newest.toNat ∈ marked) (hle : ∀ n ∈ marked, n ≤ newest.toNat)
    (hbit : ∀ k < 64, (w.seen.toNat.testBit k = true ↔ k ≤ newest.toNat ∧ newest.toNat - k ∈ marked)) : Tracks w marked := by
  refine ⟨fun hn' => ?_, fun hn' => ?_, fun hn' => ?_, fun hn' => ?_⟩
  · cases hn.symm.trans hn'
  all_goals
    cases hn.symm.trans hn'
    assumption

theorem tracks_single (h : ∀ n ∈ marked, n + 64 ≤ seq.toNat) : Tracks ⟨some seq, 1⟩ (insert seq.toNat marked) := by
  refine tracks_of_newest rfl (Set.mem_insert _ _) ?_ ?_
  · rintro n (rfl | hn)
    · exact le_rfl
    · exact (Nat.le_add_right _ _).trans (h n hn)
  · intro k hk
    rw [testBit_one, decide_eq_true_eq, Set.mem_insert_iff]
    constructor
    · rintro rfl
      exact ⟨Nat.zero_le _, .inl rfl⟩
    · rintro ⟨hk', hs | hs⟩
      · omega
      · have := h _ hs
        omega

variable (h : Tracks w marked)

include h

theorem Tracks.hasSeen_iff : w.hasSeen seq = true ↔ seq.toNat ∈ marked ∨ ∃ n ∈ marked, seq.toNat + 64 ≤ n := by
  rw [DtlsReplayWindow.hasSeen]
  split
  · next hn => simp [h.empty hn]
  · next newest hn =>
    have hmem := h.newest_mem hn
    have hle := h.le_newest hn
    split
    · next hlt =>
      rw [UInt64.lt_iff_toNat_lt] at hlt
      simp only [Bool.false_eq_true, false_iff, not_or, not_exists, not_and]
      refine ⟨fun hs => ?_, fun n hs => ?_⟩
      · have := hle _ hs
        omega
      · have := hle _ hs
        omega
    · next hge =>
      have hsub := toNat_sub_of_not_lt hge
      rw [UInt64.lt_iff_toNat_lt] at hge
      by_cases hw : 64 ≤ newest - seq
      · have hfar : seq.toNat + 64 ≤ newest.toNat := by
          have : 64 ≤ (newest - seq).toNat := UInt64.le_iff_toNat_le.mp hw
          omega
        simp only [hw, decide_true, Bool.true_or, true_iff]
        exact .inr ⟨_, hmem, hfar⟩
      · have hoff := toNat_lt_64.mp hw
        have hseq : newest.toNat - (newest.toNat - seq.toNat) = seq.toNat := by omega
        have hbit := h.bit hn _ hoff
        rw [hsub, hseq] at hbit
        simp only [hw, decide_false, Bool.false_or, shiftRight_and_one hoff, hsub, hbit]
        constructor
        · exact fun hs => .inl hs.2
        · rintro (hs | ⟨n, hs, hfar⟩)
          · exact ⟨Nat.sub_le _ _, hs⟩
          · have := hle n hs
            omega

theorem Tracks.advance (hn : w.newestSequence = some newest)
    {shift : UInt64} (hs : seq.toNat = newest.toNat + shift.toNat) (hpos : 0 < shift.toNat)
    (hlt : shift.toNat < 64) : Tracks ⟨some seq, w.seen <<< shift ||| 1⟩ (insert seq.toNat marked) := by
  refine tracks_of_newest rfl (Set.mem_insert _ _) ?_ ?_
  · rintro n (rfl | hm)
    · exact le_rfl
    · have := h.le_newest hn n hm
      omega
  · intro k hk
    simp only [UInt64.toNat_or, Nat.testBit_or, testBit_shiftLeft hlt hk, testBit_one, Bool.or_eq_true,
      Bool.and_eq_true, decide_eq_true_eq, Set.mem_insert_iff]
    by_cases hle : shift.toNat ≤ k
    · have hk' : seq.toNat - k = newest.toNat - (k - shift.toNat) := by omega
      rw [h.bit hn (k - shift.toNat) (by omega), hk']
      constructor
      · rintro (⟨-, hb, hm⟩ | rfl)
        · exact ⟨by omega, .inr hm⟩
        · omega
      · rintro ⟨hb, hm | hm⟩
        · omega
        · exact .inl ⟨hle, by omega, hm⟩
    · constructor
      · rintro (⟨hb, -⟩ | rfl)
        · omega
        · exact ⟨Nat.zero_le _, .inl rfl⟩
      · rintro ⟨hb, hm | hm⟩
        · exact .inr (by omega)
        · have := h.le_newest hn _ hm
          omega

theorem Tracks.fill (hn : w.newestSequence = some newest)
    {offset : UInt64} (hs : newest.toNat = seq.toNat + offset.toNat) (hlt : offset.toNat < 64) :
    Tracks { w with seen := w.seen ||| (1 <<< offset) } (insert seq.toNat marked) := by
  refine tracks_of_newest hn (Set.mem_insert_of_mem _ (h.newest_mem hn)) ?_ ?_
  · rintro m (rfl | hm)
    · omega
    · exact h.le_newest hn m hm
  · intro k hk
    simp only [UInt64.toNat_or, Nat.testBit_or, testBit_shiftLeft hlt hk, testBit_one, Bool.or_eq_true,
      Bool.and_eq_true, decide_eq_true_eq, Set.mem_insert_iff, h.bit hn k hk]
    constructor
    · rintro (⟨hb, hm⟩ | ⟨hb, hz⟩)
      · exact ⟨hb, .inr hm⟩
      · exact ⟨by omega, .inl (by omega)⟩
    · rintro ⟨hb, hm | hm⟩
      · exact .inr ⟨by omega, by omega⟩
      · exact .inl ⟨hb, hm⟩

theorem Tracks.ignore (hn : w.newestSequence = some newest) (hs : seq.toNat + 64 ≤ newest.toNat) : Tracks w (insert seq.toNat marked) := by
  refine tracks_of_newest hn (Set.mem_insert_of_mem _ (h.newest_mem hn)) ?_ ?_
  · rintro m (rfl | hm)
    · omega
    · exact h.le_newest hn m hm
  · intro k hk
    rw [h.bit hn k hk, Set.mem_insert_iff]
    constructor
    · exact fun hm => ⟨hm.1, .inr hm.2⟩
    · rintro ⟨hb, hm | hm⟩
      · omega
      · exact ⟨hb, hm⟩

theorem Tracks.markSeen : Tracks (w.markSeen seq) (insert seq.toNat marked) := by
  rw [DtlsReplayWindow.markSeen]
  split
  · next hn =>
    rw [h.empty hn]
    exact tracks_single fun n hm => nomatch hm
  · next newest hn =>
    by_cases hlt : newest < seq
    · have hlt' := UInt64.lt_iff_toNat_lt.mp hlt
      have hsub := toNat_sub_of_not_lt (UInt64.not_lt.mpr (UInt64.le_of_lt hlt))
      rw [if_pos hlt]
      dsimp only
      by_cases hw : 64 ≤ seq - newest
      · rw [if_pos hw]
        rw [UInt64.le_iff_toNat_le, hsub] at hw
        refine tracks_single fun n hm => ?_
        have hle := h.le_newest hn n hm
        have hw' : 64 ≤ seq.toNat - newest.toNat := hw
        omega
      · rw [if_neg hw]
        exact h.advance hn (by omega) (by omega) (toNat_lt_64.mp hw)
    · have hsub := toNat_sub_of_not_lt hlt
      have hle := UInt64.le_iff_toNat_le.mp (UInt64.not_lt.mp hlt)
      rw [if_neg hlt]
      dsimp only
      by_cases hw : newest - seq < 64
      · rw [if_pos hw]
        exact h.fill hn (by omega) (UInt64.lt_iff_toNat_lt.mp hw)
      · rw [if_neg hw]
        have hw' : 64 ≤ (newest - seq).toNat := UInt64.le_iff_toNat_le.mp (UInt64.not_lt.mp hw)
        exact h.ignore hn (by omega)

end Tracks

theorem hasSeen_markSeen_of_lt {w : DtlsReplayWindow} {seq later : UInt64} (hlt : seq < later)
    (h : w.hasSeen later = false) : (w.markSeen seq).hasSeen later = false := by
  rw [DtlsReplayWindow.markSeen]
  split
  · simp only [DtlsReplayWindow.hasSeen, hlt, if_true]
  · next newest hn =>
    by_cases hnew : newest < seq
    · simp only [hnew, if_true, DtlsReplayWindow.hasSeen, hlt]
    · rw [if_neg hnew]
      dsimp only
      split
      · next hoff =>
        -- only the bit of the marked number changes
        simp only [DtlsReplayWindow.hasSeen, hn] at h ⊢
        split
        · rfl
        · next hle =>
          rw [if_neg hle] at h
          obtain ⟨hfar, hbit⟩ := Bool.or_eq_false_iff.mp h
          have hnear := toNat_lt_64.mp (of_decide_eq_false hfar)
          have hoff' : (newest - seq).toNat < 64 := UInt64.lt_iff_toNat_lt.mp hoff
          have hne : (newest - seq).toNat ≠ (newest - later).toNat := by
            rw [toNat_sub_of_not_lt hnew, toNat_sub_of_not_lt hle]
            have hlt' := UInt64.lt_iff_toNat_lt.mp hlt
            have hle' := UInt64.le_iff_toNat_le.mp (UInt64.not_lt.mp hle)
            omega
          rw [shiftRight_and_one hnear] at hbit
          rw [hfar, Bool.false_or, shiftRight_and_one hnear, UInt64.toNat_or, Nat.testBit_or, hbit,
            testBit_shiftLeft hoff' hnear, testBit_one, Bool.false_or]
          by_cases hge : (newest - seq).toNat ≤ (newest - later).toNat
          · simp only [hge, decide_true, Bool.true_and, decide_eq_false_iff_not]
            omega
          · simp only [hge, decide_false, Bool.false_and]
      · exact h

section Histories

/-- The window after some numbers have been marked, in this order. -/
def markAll (sequences : List UInt64) : DtlsReplayWindow := sequences.foldl DtlsReplayWindow.markSeen .new

def numbersOf (sequences : List UInt64) : Set ℕ := {n | ∃ sequence ∈ sequences, sequence.toNat = n}

theorem toNat_mem_numbersOf {sequences : List UInt64} {seq : UInt64} :
    seq.toNat ∈ numbersOf sequences ↔ seq ∈ sequences := by
  constructor
  · rintro ⟨other, hother, heq⟩
    rwa [← UInt64.toNat_inj.mp heq]
  · exact fun h => ⟨seq, h, rfl⟩

variable (sequences : List UInt64)

theorem tracks_markAll : Tracks (markAll sequences) (numbersOf sequences) := by
  induction sequences using List.reverseRecOn with
  | nil =>
    have hempty : numbersOf [] = ∅ := by simp [numbersOf]
    rw [hempty]
    exact tracks_new
  | append_singleton sequences seq ih =>
    have hnumbers : numbersOf (sequences ++ [seq]) = insert seq.toNat (numbersOf sequences) := by
      ext n
      simp only [numbersOf, List.mem_append, List.mem_singleton, Set.mem_ofPred_eq, Set.mem_insert_iff]
      constructor
      · rintro ⟨other, hother | rfl, rfl⟩
        · exact .inr ⟨other, hother, rfl⟩
        · exact .inl rfl
      · rintro (rfl | ⟨other, hother, rfl⟩)
        · exact ⟨seq, .inr rfl, rfl⟩
        · exact ⟨other, .inl hother, rfl⟩
    rw [markAll, List.foldl_append, hnumbers]
    exact ih.markSeen

def Newest (sequences : List UInt64) (newest : UInt64) : Prop :=
  newest ∈ sequences ∧ ∀ sequence ∈ sequences, sequence ≤ newest

theorem newestSequence_iff (newest : UInt64) :
    (markAll sequences).newestSequence = some newest ↔ Newest sequences newest := by
  have htracks := tracks_markAll sequences
  have hsome : ∀ newest, (markAll sequences).newestSequence = some newest → Newest sequences newest := by
    intro newest hnewest
    refine ⟨toNat_mem_numbersOf.mp (htracks.newest_mem hnewest), fun seq hmem => ?_⟩
    exact UInt64.le_iff_toNat_le.mpr (htracks.le_newest hnewest _ (toNat_mem_numbersOf.mpr hmem))
  refine ⟨hsome newest, ?_⟩
  rintro ⟨hmem, hle⟩
  cases h : (markAll sequences).newestSequence with
  | none =>
    have hnone : newest.toNat ∈ (∅ : Set ℕ) := htracks.empty h ▸ toNat_mem_numbersOf.mpr hmem
    exact hnone.elim
  | some other =>
    obtain ⟨hother, hgreatest⟩ := hsome other h
    rw [UInt64.le_antisymm (hle other hother) (hgreatest newest hmem)]

/-- The window stands for the set of the numbers that were marked, as far as it
reaches. -/
theorem window_refines_marked_set (sequences : List UInt64) :
    ((markAll sequences).newestSequence = none ↔ sequences = []) ∧
      (∀ newest, (markAll sequences).newestSequence = some newest ↔ Newest sequences newest) ∧
      (∀ sequence, (markAll sequences).hasSeen sequence = true ↔ sequence ∈ sequences ∨
        ∃ newest, (markAll sequences).newestSequence = some newest ∧ sequence ≤ newest ∧ 64 ≤ newest - sequence) ∧
      ∀ newest, (markAll sequences).newestSequence = some newest → ∀ offset < 64,
        (((markAll sequences).seen >>> offset) &&& 1 = 1 ↔ offset ≤ newest ∧ newest - offset ∈ sequences) := by
  have htracks := tracks_markAll sequences
  refine ⟨?_, newestSequence_iff sequences, fun sequence => ?_, fun newest hnewest offset hoffset => ?_⟩
  · constructor
    · intro h
      refine List.eq_nil_iff_forall_not_mem.mpr fun sequence hmem => ?_
      have hnumber := toNat_mem_numbersOf.mpr hmem
      rw [htracks.empty h] at hnumber
      exact hnumber
    · rintro rfl
      rfl
  · rw [htracks.hasSeen_iff, toNat_mem_numbersOf]
    refine or_congr_right ⟨?_, ?_⟩
    · rintro ⟨n, ⟨marked, hmarked, rfl⟩, hfar⟩
      cases h : (markAll sequences).newestSequence with
      | none =>
          have hnumber := toNat_mem_numbersOf.mpr hmarked
          rw [htracks.empty h] at hnumber
          exact hnumber.elim
      | some newest =>
          have hle := htracks.le_newest h _ (toNat_mem_numbersOf.mpr hmarked)
          have hseq : sequence ≤ newest := UInt64.le_iff_toNat_le.mpr (by omega)
          refine ⟨newest, rfl, hseq, UInt64.le_iff_toNat_le.mpr ?_⟩
          rw [UInt64.toNat_sub_of_le _ _ hseq]
          simp only [UInt64.reduceToNat]
          omega
    · rintro ⟨newest, hnewest, hseq, hfar⟩
      refine ⟨newest.toNat, htracks.newest_mem hnewest, ?_⟩
      rw [UInt64.le_iff_toNat_le, UInt64.toNat_sub_of_le _ _ hseq] at hfar
      simp only [UInt64.reduceToNat] at hfar
      have := UInt64.le_iff_toNat_le.mp hseq
      omega
  · have hlt : offset.toNat < 64 := UInt64.lt_iff_toNat_lt.mp hoffset
    rw [← beq_iff_eq, shiftRight_and_one hlt, htracks.bit hnewest _ hlt, ← UInt64.le_iff_toNat_le]
    refine and_congr_right fun hle => ?_
    rw [← UInt64.toNat_sub_of_le _ _ hle, toNat_mem_numbersOf]

/-- A jump of 64 to the largest number leaves only that number in the window. -/
theorem window_refines_marked_set_jump :
    (markAll [0xffffffffffffffbf, 0xffffffffffffffff]).newestSequence = some 0xffffffffffffffff ∧
      (markAll [0xffffffffffffffbf, 0xffffffffffffffff]).hasSeen 0xffffffffffffffbf = true ∧
      ¬ (((markAll [0xffffffffffffffbf, 0xffffffffffffffff]).seen >>> 63) &&& 1 = 1) := by
  obtain ⟨-, -, hseen, hbit⟩ := window_refines_marked_set [0xffffffffffffffbf, 0xffffffffffffffff]
  have htop : (markAll [0xffffffffffffffbf, 0xffffffffffffffff]).newestSequence = some 0xffffffffffffffff := rfl
  refine ⟨htop, (hseen _).mpr (.inl List.mem_cons_self), fun h => ?_⟩
  exact absurd ((hbit _ htop 63 (by decide)).mp h).2 (by decide)

end Histories

end ThreadCommissioner.ReplayWindow
