import Mathlib.FieldTheory.Finite.Basic
import Mathlib.LinearAlgebra.Matrix.Nondegenerate

namespace Noxipher

/-- A power prime to the order of the unit group tells the elements of a finite field apart. -/
theorem pow_injective_of_coprime {F : Type} [Field F] [Fintype F] {k : Nat} (hk : k ≠ 0)
    (hcoprime : k.Coprime (Fintype.card F-1)) : Function.Injective (fun x : F => x^k) := by
  intro x y h
  dsimp only at h
  by_cases hy : y = 0
  · rw [hy, zero_pow hk] at h
    rw [hy, eq_zero_of_pow_eq_zero h]
  have hx : x ≠ 0 := by
    rintro rfl
    rw [zero_pow hk] at h
    exact hy (eq_zero_of_pow_eq_zero h.symm)
  -- the quotient has an order dividing both numbers
  have hq : (x/y)^k = 1 := by rw [div_pow, h, div_self (pow_ne_zero k hy)]
  have hcard : (x/y)^(Fintype.card F-1) = 1 := FiniteField.pow_card_sub_one_eq_one _ (div_ne_zero hx hy)
  have hone : (x/y)^(k.gcd (Fintype.card F-1)) = 1 := pow_gcd_eq_one.mpr ⟨hq, hcard⟩
  rw [hcoprime, pow_one] at hone
  exact (div_eq_one_iff_eq hy).mp hone

/-- A map that commutes with the steps commutes with the loop over them. -/
theorem foldl_simulates {α β ι : Type} {step : α → ι → α} {step' : β → ι → β} (f : α → β) (rounds : List ι)
    (h : ∀ r ∈ rounds, ∀ s, f (step s r) = step' (f s) r) (s : α) :
    f (rounds.foldl step s) = rounds.foldl step' (f s) := by
  induction rounds generalizing s with
  | nil => rfl
  | cons r rounds ih =>
    rw [List.foldl_cons, List.foldl_cons, ← h r List.mem_cons_self]
    exact ih (fun t ht => h t (List.mem_cons_of_mem r ht)) (step s r)

/-- A substitution-permutation network: each round substitutes lane by lane, mixes the lanes and adds constants. -/
structure SubstitutionNetwork (lane F : Type) [Field F] [Fintype lane] [DecidableEq lane] where
  mix : Matrix lane lane F
  mix_det : mix.det ≠ 0
  subst : Nat → lane → F → F
  subst_injective : ∀ r i, Function.Injective (subst r i)
  constants : Nat → lane → F

namespace SubstitutionNetwork

variable {lane F : Type} [Field F] [Fintype lane] [DecidableEq lane] (N : SubstitutionNetwork lane F)

def round (x : lane → F) (r : Nat) : lane → F := N.mix.mulVec (fun i => N.subst r i (x i))+N.constants r

def run (rounds : List Nat) (x : lane → F) : lane → F := rounds.foldl N.round x

theorem round_injective (r : Nat) : Function.Injective (fun x => N.round x r) := by
  intro x y h
  have hmix : N.mix.mulVec (fun i => N.subst r i (x i)) = N.mix.mulVec (fun i => N.subst r i (y i)) :=
    add_right_cancel h
  have hsubst := Matrix.mulVec_injective_of_det_ne_zero N.mix_det hmix
  funext i
  exact N.subst_injective r i (congrFun hsubst i)

/-- No schedule of rounds makes two states meet. -/
theorem run_injective (rounds : List Nat) : Function.Injective (N.run rounds) := by
  induction rounds with
  | nil => exact Function.injective_id
  | cons r rounds ih => exact ih.comp (N.round_injective r)

/-- Over a finite field every state is reached as well. -/
theorem run_bijective [Finite F] (rounds : List Nat) : Function.Bijective (N.run rounds) :=
  Finite.injective_iff_bijective.mp (N.run_injective rounds)

end SubstitutionNetwork

end Noxipher
