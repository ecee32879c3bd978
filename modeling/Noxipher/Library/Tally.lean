import Noxipher.Library.Greedy

namespace Noxipher.Greedy

variable {α κ : Type} [DecidableEq κ] (value : α → Int)

theorem total_filter_cons (p : α → Bool) (a : α) (l : List α) :
    total value ((a::l).filter p) = (if p a then value a else 0)+total value (l.filter p) := by
  cases h : p a <;> simp [h]

/-- Items of either of two kinds are summed kind by kind. -/
theorem total_filter_or (p q : α → Bool) (l : List α) (h : ∀ a ∈ l, p a = true → q a = false) :
    total value (l.filter (fun a => p a || q a)) = total value (l.filter p)+total value (l.filter q) := by
  induction l with
  | nil => rfl
  | cons a l ih =>
    have hone := h a (by simp)
    have hrest := ih (fun b hb => h b (by simp [hb]))
    rw [total_filter_cons, total_filter_cons, total_filter_cons, hrest]
    cases hp : p a with
    | false => simp [add_left_comm]
    | true => simp [hone hp, add_assoc]

/-- If `p` only adds worthless items to `q` and the totals agree, all the worth of `q` lies in `p`. -/
theorem total_filter_tight (p q : α → Bool) (l : List α) (hn : ∀ a ∈ l, 0 ≤ value a)
    (hpq : ∀ a ∈ l, p a = true → q a = true ∨ value a = 0) :
    total value (l.filter p) ≤ total value (l.filter q) ∧
    (total value (l.filter p) = total value (l.filter q) →
      ∀ a ∈ l, q a = true → p a = false → value a = 0) := by
  induction l with
  | nil => simp
  | cons a l ih =>
    obtain ⟨hle, heq⟩ := ih (fun b hb => hn b (by simp [hb])) (fun b hb => hpq b (by simp [hb]))
    have h0 := hn a (by simp)
    have ha := hpq a (by simp)
    have hhead : (if p a then value a else 0) ≤ (if q a then value a else 0) := by
      cases hp : p a <;> cases hq : q a <;> simp_all
    rw [total_filter_cons, total_filter_cons]
    refine ⟨by omega, ?_⟩
    intro ht b hb hqb hpb
    rcases List.mem_cons.mp hb with rfl | hb
    · simp only [hqb, hpb, if_true, Bool.false_eq_true, if_false] at ht hhead
      omega
    · exact heq (by omega) b hb hqb hpb

theorem total_filter_congr (p q : α → Bool) (l : List α) (h : ∀ a ∈ l, value a ≠ 0 → p a = q a) :
    total value (l.filter p) = total value (l.filter q) := by
  induction l with
  | nil => rfl
  | cons a l ih =>
    rw [total_filter_cons, total_filter_cons, ih (fun b hb => h b (by simp [hb]))]
    by_cases hv : value a = 0
    · simp [hv]
    · rw [h a (by simp) hv]

/-- Two ways to sort valued items under keys. One of them may misfile an item only under `z` or under no
key in `P`: then the tallies agree on `P` exactly when every item of value is filed right. -/
theorem tallies_agree_iff (right : α → κ) (filed : α → Option κ) (P : κ → Prop) (z : κ) (l : List α)
    (hn : ∀ a ∈ l, 0 ≤ value a) (hP : ∀ a ∈ l, P (right a))
    (hz : ∀ a ∈ l, ∀ k, P k → k ≠ z → filed a = some k → right a = k) :
    (∀ k, P k → total value (l.filter (fun a => filed a = some k)) =
      total value (l.filter (fun a => right a = k))) ↔
    ∀ a ∈ l, value a ≠ 0 → filed a = some (right a) := by
  constructor
  · intro hall
    have hother : ∀ a ∈ l, right a ≠ z → filed a ≠ some (right a) → value a = 0 := by
      intro a ha hne hf
      have ht := total_filter_tight value (fun b => filed b = some (right a)) (fun b => right b = right a) l hn
        (fun b hb hfb => Or.inl (by simpa using hz b hb _ (hP a ha) hne (by simpa using hfb)))
      exact ht.2 (hall _ (hP a ha)) a ha (by simp) (by simpa using hf)
    intro a ha hv
    by_contra hf
    by_cases hr : right a = z
    · have ht := total_filter_tight value (fun b => filed b = some z) (fun b => right b = z) l hn (by
        intro b hb hfb
        by_cases hrb : right b = z
        · exact Or.inl (by simpa using hrb)
        · have hfb' : filed b = some z := by simpa using hfb
          exact Or.inr (hother b hb hrb (by rw [hfb']; simpa using Ne.symm hrb)))
      have htot := hall z (hr ▸ hP a ha)
      exact hv (ht.2 htot a ha (by simpa using hr) (by simpa [hr] using hf))
    · exact hv (hother a ha hr hf)
  · intro hall k _
    apply total_filter_congr
    intro a ha hv
    rw [hall a ha hv]
    simp

end Noxipher.Greedy
