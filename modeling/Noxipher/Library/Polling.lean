import Mathlib.Tactic.Common
import Mathlib.Tactic.Ring

namespace Noxipher.Polling

variable {α : Type} (spent : Nat → Nat) (poll : Nat → Option α) (deadline start : Nat)

/-- The instant at which round `k` begins when no round before it found anything. -/
def time : Nat → Nat
  | 0 => start
  | k+1 => time k+spent k

/-- Poll in rounds until there is an answer or the deadline has passed; the fuel bounds the rounds. -/
def run : Nat → Nat → Nat → Option α
  | 0, _, _ => none
  | fuel+1, k, now =>
    if now < deadline then
      match poll k with
      | some a => some a
      | none => run fuel (k+1) (now+spent k)
    else none

theorem time_mono {k j : Nat} (h : k ≤ j) : time spent start k ≤ time spent start j := by
  induction j with
  | zero =>
    obtain rfl := Nat.le_zero.mp h
    exact le_rfl
  | succ j ih =>
    rcases Nat.lt_or_ge j k with hj | hj
    · obtain rfl : k = j+1 := by omega
      exact le_rfl
    · exact Nat.le_trans (ih hj) (Nat.le_add_right _ _)

/-- Once a round begins past the deadline all that could answer are behind it. -/
theorem none_of_past {k : Nat} (hpast : deadline ≤ time spent start k) (hnone : ∀ i, i < k → poll i = none)
    (j : Nat) (hj : time spent start j < deadline) : poll j = none := by
  apply hnone
  by_contra hkj
  have hmono := time_mono spent start (Nat.le_of_not_lt hkj)
  omega

/-- The first round before the deadline with an answer. -/
def First (k : Nat) (a : α) : Prop :=
  time spent start k < deadline ∧ poll k = some a ∧ ∀ i, i < k → poll i = none

/-- With enough fuel a run from round `k` on finds the first answer, or there is none. -/
theorem run_from {c : Nat} (hc : ∀ k, c ≤ spent k) (fuel k : Nat)
    (hfuel : deadline ≤ time spent start k+c*fuel) (hnone : ∀ i, i < k → poll i = none) :
    (run spent poll deadline fuel k (time spent start k) = none ∧
      ∀ j, time spent start j < deadline → poll j = none) ∨
    ∃ j a, run spent poll deadline fuel k (time spent start k) = some a ∧ First spent poll deadline start j a := by
  induction fuel generalizing k with
  | zero => exact Or.inl ⟨rfl, none_of_past spent poll deadline start hfuel hnone⟩
  | succ fuel ih =>
    by_cases hk : time spent start k < deadline
    · cases hp : poll k with
      | some a => exact Or.inr ⟨k, a, by simp only [run, hk, if_true, hp], hk, hp, hnone⟩
      | none =>
        have hnext : ∀ i, i < k+1 → poll i = none := by
          intro i hi
          rcases Nat.lt_succ_iff_lt_or_eq.mp hi with hi | rfl
          · exact hnone i hi
          · exact hp
        have hfuel' : deadline ≤ time spent start (k+1)+c*fuel := by
          have hck := hc k
          calc deadline ≤ time spent start k+c*(fuel+1) := hfuel
            _ = time spent start k+c+c*fuel := by ring
            _ ≤ time spent start (k+1)+c*fuel := by simp only [time]; omega
        have hrun : run spent poll deadline (fuel+1) k (time spent start k) =
            run spent poll deadline fuel (k+1) (time spent start (k+1)) := by
          simp only [run, hk, if_true, hp, time]
        rw [hrun]
        exact ih (k+1) hfuel' hnext
    · refine Or.inl ⟨by simp only [run, hk, if_false], ?_⟩
      exact none_of_past spent poll deadline start (Nat.le_of_not_lt hk) hnone

/-- A run from the first round either passes the deadline without an answer or finds the first one. -/
theorem run_cases {c fuel : Nat} (hc : ∀ k, c ≤ spent k) (hfuel : deadline ≤ start+c*fuel) :
    (run spent poll deadline fuel 0 start = none ∧ ∀ j, time spent start j < deadline → poll j = none) ∨
    ∃ j a, run spent poll deadline fuel 0 start = some a ∧ First spent poll deadline start j a :=
  run_from spent poll deadline start hc fuel 0 hfuel (fun i hi => absurd hi (Nat.not_lt_zero i))

/-- A run answers exactly with what the first answering round before the deadline found. -/
theorem run_eq_some_iff {c fuel : Nat} (hc : ∀ k, c ≤ spent k) (hfuel : deadline ≤ start+c*fuel) {a : α} :
    run spent poll deadline fuel 0 start = some a ↔ ∃ k, First spent poll deadline start k a := by
  rcases run_cases spent poll deadline start hc hfuel with ⟨hrun, hnone⟩ | ⟨j, b, hrun, hfirst⟩
  · rw [hrun]
    constructor
    · intro h
      cases h
    · intro ⟨k, hk, hp, _⟩
      rw [hnone k hk] at hp
      cases hp
  · rw [hrun]
    constructor
    · intro h
      cases h
      exact ⟨j, hfirst⟩
    · intro ⟨k, hk, hp, hbefore⟩
      rcases Nat.lt_trichotomy j k with hjk | rfl | hkj
      · have hboth := hfirst.2.1
        rw [hbefore j hjk] at hboth
        cases hboth
      · rw [← hfirst.2.1, hp]
      · rw [hfirst.2.2 k hkj] at hp
        cases hp

/-- A run ends without an answer exactly when no round before the deadline has one. -/
theorem run_eq_none_iff {c fuel : Nat} (hc : ∀ k, c ≤ spent k) (hfuel : deadline ≤ start+c*fuel) :
    run spent poll deadline fuel 0 start = none ↔ ∀ k, time spent start k < deadline → poll k = none := by
  rcases run_cases spent poll deadline start hc hfuel with ⟨hrun, hnone⟩ | ⟨j, a, hrun, hj, hp, -⟩
  · exact ⟨fun _ => hnone, fun _ => hrun⟩
  · constructor
    · intro h
      rw [h] at hrun
      cases hrun
    · intro h
      rw [h j hj] at hp
      cases hp

end Noxipher.Polling
