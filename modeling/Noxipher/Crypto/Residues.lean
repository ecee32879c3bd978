import Noxipher.Crypto.Curves
import Mathlib.NumberTheory.LegendreSymbol.Basic
import Mathlib.NumberTheory.LucasPrimality
import Mathlib.Tactic.NormNum.Prime

namespace Noxipher

/-- A number with a generator modulo it, and the prime factors of its predecessor, is prime. -/
theorem prime_of_generator (p g : Nat) (factors : List Nat) (hp : 1 < p) (hprod : factors.prod = p-1)
    (hprime : ∀ q ∈ factors, q.Prime) (hone : powMod g (p-1) p = 1)
    (hne : ∀ q ∈ factors, powMod g ((p-1)/q) p ≠ 1) : p.Prime := by
  have hcast (e : Nat) : (g : ZMod p)^e = 1 ↔ powMod g e p = 1 := by
    rw [powMod_eq, ← Nat.cast_pow, ← Nat.cast_one, ZMod.natCast_eq_natCast_iff', Nat.mod_eq_of_lt hp]
  apply lucas_primality p (g : ZMod p) ((hcast _).mpr hone)
  intro q hq hdvd
  rw [← hprod] at hdvd
  obtain ⟨r, hr, hqr⟩ := (Nat.Prime.prime hq).dvd_prod_iff.mp hdvd
  have hsame : q = r := (Nat.prime_dvd_prime_iff_eq hq (hprime r hr)).mp hqr
  rw [Ne, hcast]
  exact hne q (hsame ▸ hr)

theorem Fr.modulus_prime : Fr.MODULUS.Prime := by
  apply prime_of_generator Fr.MODULUS 7
    (List.replicate 32 2++[3, 11, 19, 10177, 125527, 859267, 906349, 906349, 2508409, 2529403, 52437899, 254760293,
      254760293])
  · decide
  · decide +kernel
  · intro q hq
    simp only [List.mem_append, List.mem_replicate, List.mem_cons, List.not_mem_nil, or_false] at hq
    rcases hq with ⟨-, rfl⟩ | rfl | rfl | rfl | rfl | rfl | rfl | rfl | rfl | rfl | rfl | rfl | rfl | rfl <;> norm_num
  · decide +kernel
  · decide +kernel

instance : Fact Fr.MODULUS.Prime := ⟨Fr.modulus_prime⟩

namespace FieldElement

variable {m : Nat}

/-- The element as a residue class. -/
def residue (x : FieldElement m) : ZMod m := (x.value : ZMod m)

theorem residue_injective {x y : FieldElement m} (h : x.residue = y.residue) : x = y := by
  apply ext
  have hmod := (ZMod.natCast_eq_natCast_iff' x.value y.value m).mp h
  rwa [Nat.mod_eq_of_lt x.isLt, Nat.mod_eq_of_lt y.isLt] at hmod

theorem residue_ne {x y : FieldElement m} (h : x ≠ y) : x.residue ≠ y.residue := fun he => h (residue_injective he)

theorem value_add_of_residue_neg {x y : FieldElement m} (h : x.residue = -y.residue) :
    x.value+y.value = 0 ∨ x.value+y.value = m := by
  have hx := x.isLt
  have hy := y.isLt
  have hzero : ((x.value+y.value : Nat) : ZMod m) = 0 := by
    rw [Nat.cast_add]
    exact add_eq_zero_iff_eq_neg.mpr h
  obtain ⟨k, hk⟩ := (ZMod.natCast_eq_zero_iff _ _).mp hzero
  have hk2 : k < 2 := by
    by_contra hge
    have hmul := Nat.mul_le_mul_left m (Nat.not_lt.mp hge)
    omega
  interval_cases k
  · exact Or.inl (by simpa using hk)
  · exact Or.inr (by simpa using hk)

/-- Modulo an odd number an element and its negative differ in parity, unless both are zero. -/
theorem eq_of_residue_neg {x y : FieldElement m} (hodd : m % 2 = 1) (h : x.residue = -y.residue)
    (hparity : x.value % 2 = y.value % 2) : x = y := by
  apply ext
  rcases value_add_of_residue_neg h with h0 | hm <;> omega

variable [NeZero m]

@[simp] theorem residue_ofNat (n : Nat) : (ofNat n : FieldElement m).residue = n := by
  simp [residue, ofNat]

@[simp] theorem residue_add (x y : FieldElement m) : (x+y).residue = x.residue+y.residue := by
  change (ofNat (x.value+y.value)).residue = _
  rw [residue_ofNat]
  push_cast
  rfl

@[simp] theorem residue_mul (x y : FieldElement m) : (x*y).residue = x.residue*y.residue := by
  change (ofNat (x.value*y.value)).residue = _
  rw [residue_ofNat]
  push_cast
  rfl

@[simp] theorem residue_ofInt (n : Int) : (ofInt n : FieldElement m).residue = n := by
  have hm : (m : Int) ≠ 0 := by exact_mod_cast NeZero.ne m
  change (((n % m).toNat : Nat) : ZMod m) = _
  rw [← Int.cast_natCast, Int.toNat_of_nonneg (Int.emod_nonneg _ hm), ZMod.intCast_mod]

@[simp] theorem residue_sub (x y : FieldElement m) : (x-y).residue = x.residue-y.residue := by
  change (ofInt ((x.value : Int)-y.value)).residue = _
  rw [residue_ofInt]
  push_cast
  rfl

@[simp] theorem residue_pow (x : FieldElement m) (exponent : Nat) : (x^exponent).residue = x.residue^exponent := by
  change (ofNat (powMod x.value exponent m)).residue = _
  rw [residue_ofNat, powMod_eq, ZMod.natCast_mod, Nat.cast_pow]
  rfl

/-- Fermat's little theorem makes the power an inverse; zero is its own. -/
theorem residue_div [hp : Fact m.Prime] (hm : 2 < m) (x y : FieldElement m) :
    (x/y).residue = x.residue/y.residue := by
  have hinv : y.residue^(m-2) = y.residue⁻¹ := by
    by_cases h0 : y.residue = 0
    · rw [h0, inv_zero, zero_pow (by omega)]
    · apply eq_inv_of_mul_eq_one_left
      have hexp : m-2+1 = m-1 := by omega
      rw [← pow_succ, hexp, ZMod.pow_card_sub_one_eq_one h0]
  change (ofNat (x.value*powMod y.value (m-2) m)).residue = _
  rw [residue_ofNat, powMod_eq, Nat.cast_mul, ZMod.natCast_mod, Nat.cast_pow, div_eq_mul_inv, ← hinv]
  rfl

end FieldElement

@[simp] theorem Fr.residue_div (x y : Fr) : (x/y).residue = x.residue/y.residue :=
  FieldElement.residue_div (by decide) x y

end Noxipher
