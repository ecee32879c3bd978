import Mathlib.Data.List.Basic
import Mathlib.Tactic.Common

namespace Noxipher

section Blocks

variable {σ : Type} (block : Nat → List σ)

/-- The first `n` blocks of a numbered family, one after another. -/
def joined (n : Nat) : List σ := (List.range n).flatMap block

@[simp] theorem joined_zero : joined block 0 = [] := rfl

theorem joined_succ (n : Nat) : joined block (n+1) = joined block n++block n := by
  rw [joined, List.range_succ, List.flatMap_append, List.flatMap_singleton, joined]

/-- Later blocks do not change the ones before. -/
theorem joined_prefix {n m : Nat} (h : n ≤ m) : joined block n <+: joined block m := by
  induction h with
  | refl => exact List.prefix_refl _
  | step _ ih =>
    rw [joined_succ]
    exact ih.trans (List.prefix_append _ _)

variable {block} {w : Nat} (hwidth : ∀ i, (block i).length = w)
include hwidth

theorem joined_length (n : Nat) : (joined block n).length = w*n := by
  induction n with
  | zero => simp
  | succ n ih =>
    rw [joined_succ, List.length_append, ih, hwidth, Nat.mul_succ]

/-- A cut inside the first blocks does not see the number of blocks. -/
theorem take_joined {n m length : Nat} (hn : length ≤ w*n) (hm : length ≤ w*m) :
    (joined block n).take length = (joined block m).take length := by
  have hshorter {n m : Nat} (hn : length ≤ w*n) (h : n ≤ m) :
      (joined block n).take length = (joined block m).take length := by
    obtain ⟨rest, hrest⟩ := joined_prefix block h
    rw [← hrest, List.take_append_of_le_length]
    rw [joined_length hwidth]
    exact hn
  rcases Nat.le_total n m with h | h
  · exact hshorter hn h
  · exact (hshorter hm h).symm

/-- The window of a block shows that block. -/
theorem joined_window {n k : Nat} (h : k < n) : ((joined block n).drop (w*k)).take w = block k := by
  obtain ⟨rest, hrest⟩ := joined_prefix block (Nat.succ_le_of_lt h)
  rw [← hrest, joined_succ, List.append_assoc, List.drop_left' (joined_length hwidth k), List.take_left' (hwidth k)]

end Blocks

end Noxipher
