import Mathlib.Data.List.Basic
import Mathlib.Data.Nat.Notation

namespace ThreadCommissioner.BlockStreams

open List

section Streams

variable {α : Type} {size len m n : ℕ} {block : ℕ → List α}

/-- The first `n` blocks of a stream, one after the other. -/
def blocks (block : ℕ → List α) (n : ℕ) : List α := (List.range n).flatMap block

theorem blocks_zero : blocks block 0 = [] := rfl

theorem blocks_succ (n : ℕ) : blocks block (n + 1) = blocks block n ++ block n := by
  rw [blocks, range_succ, flatMap_append, flatMap_singleton]
  rfl

theorem blocks_isPrefix (h : m ≤ n) : blocks block m <+: blocks block n := by
  induction h with
  | refl => exact prefix_rfl
  | step _ ih =>
    rw [blocks_succ]
    exact ih.trans (prefix_append _ _)

variable (h : ∀ i, (block i).length = size)

include h

theorem length_blocks (n : ℕ) : (blocks block n).length = size * n := by
  induction n with
  | zero => rfl
  | succ n ih => rw [blocks_succ, length_append, ih, h, Nat.mul_succ]

theorem take_blocks_of_le (hm : len ≤ size * m) (hle : m ≤ n) : (blocks block n).take len = (blocks block m).take len := by
  obtain ⟨rest, hrest⟩ : blocks block m <+: blocks block n := blocks_isPrefix hle
  have hlength : len ≤ (blocks block m).length := by rwa [length_blocks h]
  rw [← hrest, take_append_of_le_length hlength]

theorem take_blocks (hm : len ≤ size * m) (hn : len ≤ size * n) : (blocks block n).take len = (blocks block m).take len := by
  rcases Nat.le_total m n with hle | hle
  · exact take_blocks_of_le h hm hle
  · exact (take_blocks_of_le h hn hle).symm

end Streams

end ThreadCommissioner.BlockStreams
