import Mathlib.Tactic.Common

namespace ThreadCommissioner.KeyedMaps

open List

variable {κ β : Type} {cmp : κ → κ → Ordering} [Std.TransCmp cmp] [Std.LawfulEqCmp cmp]
  (m : Std.TreeMap κ β cmp)

theorem nodup_keys : (m.toList.map Prod.fst).Nodup := by
  refine pairwise_map.mpr (Std.TreeMap.distinct_keys_toList.imp fun hne heq => hne ?_)
  rw [heq]
  exact Std.ReflCmp.compare_self

variable [DecidableEq κ]

theorem getElem?_insert_key (k r : κ) (v : β) : (m.insert k v)[r]? = if k = r then some v else m[r]? := by
  rw [Std.TreeMap.getElem?_insert]
  simp only [Std.LawfulEqCmp.compare_eq_iff_eq]

theorem toList_filter_key (r : κ) : m.toList.filter (·.1 = r) = ((m[r]?).map (r, ·)).toList := by
  have hdistinct := (Std.TreeMap.distinct_keys_toList (t := m)).filter (·.1 = r)
  have hmem : ∀ p, p ∈ m.toList.filter (·.1 = r) ↔ p.1 = r ∧ m[r]? = some p.2 := by
    rintro ⟨k, v⟩
    rw [mem_filter, Std.TreeMap.mem_toList_iff_getElem?_eq_some]
    by_cases hkey : k = r <;> simp [hkey]
  generalize m.toList.filter (·.1 = r) = found at hdistinct hmem
  rcases found with _ | ⟨p, _ | ⟨q, rest⟩⟩
  · cases hget : m[r]? with
    | none => rfl
    | some v => exact absurd ((hmem (r, v)).mpr ⟨rfl, hget⟩) not_mem_nil
  · obtain ⟨hkey, hget⟩ := (hmem p).mp mem_cons_self
    rw [hget, ← hkey]
    rfl
  · have hne := (pairwise_cons.mp hdistinct).1 q mem_cons_self
    rw [((hmem p).mp mem_cons_self).1, ((hmem q).mp (by simp)).1] at hne
    exact absurd Std.ReflCmp.compare_self hne

theorem foldl_insert_cases {α : Type} (key : α → κ) (value : α → β) (es : List α) (m : Std.TreeMap κ β cmp) (r : κ) :
    (∃ entry ∈ es, key entry = r ∧
        (es.foldl (fun m entry => m.insert (key entry) (value entry)) m)[r]? = some (value entry)) ∨
      (∀ entry ∈ es, key entry ≠ r) ∧ (es.foldl (fun m entry => m.insert (key entry) (value entry)) m)[r]? = m[r]? := by
  induction es generalizing m with
  | nil => exact .inr ⟨by simp, rfl⟩
  | cons first es ih =>
    rw [foldl_cons]
    rcases ih (m.insert (key first) (value first)) with ⟨entry, hentry, hkey, hfound⟩ | ⟨hnone, hfound⟩
    · exact .inl ⟨entry, mem_cons_of_mem _ hentry, hkey, hfound⟩
    · rw [getElem?_insert_key] at hfound
      by_cases hkey : key first = r
      · rw [if_pos hkey] at hfound
        exact .inl ⟨first, mem_cons_self, hkey, hfound⟩
      · rw [if_neg hkey] at hfound
        exact .inr ⟨forall_mem_cons.mpr ⟨hkey, hnone⟩, hfound⟩

/-- Pairs in the order of their tuples. -/
instance lawfulEqCmp_pairs {α β : Type} [Ord α] [Ord β] [Std.LawfulEqOrd α] [Std.LawfulEqOrd β] :
    Std.LawfulEqCmp (compareLex (compareOn (Prod.fst : α × β → α)) (compareOn Prod.snd)) where
  compare_self := by
    intro p
    simp [compareLex, compareOn]
  eq_of_compare := by
    rintro ⟨a, b⟩ ⟨a', b'⟩ h
    obtain ⟨ha, hb⟩ := Ordering.then_eq_eq.mp h
    have ha : a = a' := Std.LawfulEqOrd.eq_of_compare ha
    have hb : b = b' := Std.LawfulEqOrd.eq_of_compare hb
    rw [ha, hb]

end ThreadCommissioner.KeyedMaps
