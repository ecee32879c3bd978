import Mathlib.Data.List.Sort
import Mathlib.Order.OrderDual

namespace Noxipher

variable {α β κ : Type} [LinearOrder κ]

/-- Stable sort by a key, smallest first. -/
def sortOn (key : α → κ) (l : List α) : List α := l.insertionSort (fun a b => key a ≤ key b)

theorem sortOn_perm (key : α → κ) (l : List α) : (sortOn key l).Perm l := List.perm_insertionSort _ l

theorem sortOn_pairwise (key : α → κ) (l : List α) : (sortOn key l).Pairwise (fun a b => key a ≤ key b) := by
  have htotal : Std.Total (fun a b => key a ≤ key b) := ⟨fun a b => le_total (key a) (key b)⟩
  have htrans : IsTrans α (fun a b => key a ≤ key b) := ⟨fun a b c => le_trans⟩
  exact List.pairwise_insertionSort _ l

theorem sortOn_map (key : α → κ) (key' : β → κ) (f : α → β) (hf : ∀ a, key' (f a) = key a) (l : List α) :
    (sortOn key l).map f = sortOn key' (l.map f) := by
  apply List.map_insertionSort
  intro a _ b _
  rw [hf, hf]

/-- With distinct keys the order of the input does not matter. -/
theorem sortOn_eq_of_perm (key : α → κ) {l l' : List α} (h : l.Perm l') (hn : (l.map key).Nodup) :
    sortOn key l = sortOn key l' := by
  have hp : (sortOn key l).Perm (sortOn key l') :=
    (sortOn_perm key l).trans (h.trans (sortOn_perm key l').symm)
  refine List.Perm.eq_of_pairwise ?_ (sortOn_pairwise key l) (sortOn_pairwise key l') hp
  intro a b ha hb hab hba
  have hal : a ∈ l := (sortOn_perm key l).mem_iff.mp ha
  have hbl : b ∈ l := h.mem_iff.mpr ((sortOn_perm key l').mem_iff.mp hb)
  exact List.inj_on_of_nodup_map hn hal hbl (le_antisymm hab hba)

end Noxipher
