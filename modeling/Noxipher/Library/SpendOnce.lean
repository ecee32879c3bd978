import Mathlib.Data.List.Basic
import Mathlib.Tactic.Common

namespace Noxipher.SpendOnce

variable {α β : Type} [DecidableEq β] (points : α → List β)

/-- An item is fresh when its points are distinct and none is spent. -/
def Fresh (spent : List β) (a : α) : Prop := (points a).Nodup ∧ ∀ p ∈ points a, p ∉ spent

instance (spent : List β) (a : α) : Decidable (Fresh points spent a) := inferInstanceAs (Decidable (_ ∧ _))

/-- The items a ledger that spends every point once accepts of a list, in order; what it refuses leaves no trace. -/
def accepted : List β → List α → List α
  | _, [] => []
  | spent, a::as => if Fresh points spent a then a::accepted (points a++spent) as else accepted spent as

theorem accepted_sublist (spent : List β) (as : List α) : (accepted points spent as).Sublist as := by
  induction as generalizing spent with
  | nil => exact List.Sublist.refl _
  | cons a as ih =>
    rw [accepted]
    split_ifs
    · exact (ih _).cons_cons a
    · exact (ih _).cons a

/-- Accepted items miss what was spent before. -/
theorem accepted_fresh {spent : List β} {as : List α} {a : α} (h : a ∈ accepted points spent as) :
    ∀ p ∈ points a, p ∉ spent := by
  induction as generalizing spent with
  | nil => cases h
  | cons first as ih =>
    rw [accepted] at h
    split_ifs at h with hfresh
    · rcases List.mem_cons.mp h with rfl | h
      · exact hfresh.2
      · intro p hp hspent
        exact ih h p hp (List.mem_append_right _ hspent)
    · exact ih h

/-- Two accepted items have no point in common. -/
theorem accepted_disjoint (spent : List β) (as : List α) :
    (accepted points spent as).Pairwise (fun a b => ∀ p ∈ points a, p ∉ points b) := by
  induction as generalizing spent with
  | nil => exact List.Pairwise.nil
  | cons a as ih =>
    rw [accepted]
    split_ifs
    · refine List.Pairwise.cons ?_ (ih _)
      intro b hb p hp hpb
      exact accepted_fresh points hb p hpb (List.mem_append_left _ hp)
    · exact ih _

/-- Of items that meet pairwise at most one is accepted. -/
theorem accepted_le_one {P : α → Bool} {spent : List β} {as : List α}
    (hmeet : ∀ a ∈ as, ∀ b ∈ as, P a = true → P b = true → ∃ p ∈ points a, p ∈ points b) :
    ((accepted points spent as).filter P).length ≤ 1 := by
  have hdisjoint := (accepted_disjoint points spent as).filter P
  have hmem : ∀ a ∈ (accepted points spent as).filter P, a ∈ as ∧ P a = true := by
    intro a ha
    obtain ⟨hin, hP⟩ := List.mem_filter.mp ha
    exact ⟨(accepted_sublist points spent as).subset hin, hP⟩
  match hlist : (accepted points spent as).filter P with
  | [] => exact Nat.zero_le 1
  | [_] => exact Nat.le_refl 1
  | a::b::rest =>
    rw [hlist] at hdisjoint hmem
    obtain ⟨ha, hPa⟩ := hmem a (by simp)
    obtain ⟨hb, hPb⟩ := hmem b (by simp)
    obtain ⟨p, hpa, hpb⟩ := hmeet a ha b hb hPa hPb
    exact absurd hpb ((List.pairwise_cons.mp hdisjoint).1 b (by simp) p hpa)

end Noxipher.SpendOnce
