import Noxipher.Crypto.Compression
import Noxipher.Crypto.Projective

namespace Noxipher

open JubJubPoint

/-- The generator H of `compute_binding_commitment`. -/
def bindingH : JubJubPoint := generator.add generator

/-- The point `compute_binding_commitment` compresses. -/
def bindingPoint (randomness : Bytes) (value : Int) : JubJubPoint :=
  let r_scalar : EmbeddedFr := FieldElement.fromLeBytes randomness
  let commitment := generator.mul r_scalar
  if value = 0 then commitment
  else if value > 0 then
    let v_scalar : EmbeddedFr := FieldElement.ofNat value.natAbs
    commitment.add (bindingH.mul v_scalar)
  else
    let neg_v : EmbeddedFr := FieldElement.ofNat (JUBJUB_ORDER-value.natAbs % JUBJUB_ORDER)
    commitment.add (bindingH.mul neg_v)

theorem computeBindingCommitment_eq (randomness : Bytes) (value : Int) :
    computeBindingCommitment randomness value = (bindingPoint randomness value).toBytes := by
  unfold computeBindingCommitment bindingPoint bindingH
  dsimp only
  split_ifs <;> rfl

/-- Every branch takes the value modulo the order. -/
def valueScalar (value : Int) : Nat := (value % JUBJUB_ORDER).toNat

def randomScalar (randomness : Bytes) : Nat := leValue randomness % JUBJUB_ORDER

theorem valueScalar_lt (value : Int) : valueScalar value < JUBJUB_ORDER := by
  unfold valueScalar JUBJUB_ORDER
  omega

theorem randomScalar_lt (randomness : Bytes) : randomScalar randomness < JUBJUB_ORDER :=
  Nat.mod_lt _ (by decide)

theorem bindingH_stands : Stands bindingH (2 • base) := by
  rw [two_nsmul]
  exact generator_stands.add generator_stands

theorem bindingPoint_stands (randomness : Bytes) (value : Int) :
    Stands (bindingPoint randomness value) ((randomScalar randomness+2*valueScalar value) • base) := by
  have hr : Stands (generator.mul (FieldElement.fromLeBytes randomness)) (randomScalar randomness • base) :=
    generator_stands.mul (FieldElement.fromLeBytes randomness)
  have hv (n : Nat) (hn : n % JUBJUB_ORDER = valueScalar value) :
      Stands ((generator.mul (FieldElement.fromLeBytes randomness)).add (bindingH.mul (FieldElement.ofNat n)))
        ((randomScalar randomness+2*valueScalar value) • base) := by
    have h := hr.add (bindingH_stands.mul (FieldElement.ofNat n))
    have hval : (FieldElement.ofNat n : EmbeddedFr).value = valueScalar value := hn
    rwa [hval, ← mul_nsmul, ← add_nsmul] at h
  unfold bindingPoint
  dsimp only
  split_ifs with h0 hpos
  · have hz : valueScalar value = 0 := by rw [valueScalar, h0]; rfl
    rwa [hz, mul_zero, add_zero]
  · apply hv
    unfold valueScalar JUBJUB_ORDER
    omega
  · apply hv
    unfold valueScalar JUBJUB_ORDER
    omega

/-- Two commitments have the same bytes exactly when they stand for the same multiple of the generator. -/
theorem computeBindingCommitment_inj_iff (r₁ r₂ : Bytes) (v₁ v₂ : Int) :
    computeBindingCommitment r₁ v₁ = computeBindingCommitment r₂ v₂ ↔
      (randomScalar r₁+2*valueScalar v₁) • base = (randomScalar r₂+2*valueScalar v₂) • base := by
  have h₁ := bindingPoint_stands r₁ v₁
  have h₂ := bindingPoint_stands r₂ v₂
  rw [computeBindingCommitment_eq, computeBindingCommitment_eq]
  constructor
  · intro h
    have hsame := h₁.onCurve.toBytes_inj h₂.onCurve h
    rw [← hsame] at h₂
    exact h₁.eq h₂
  · intro h
    rw [← h] at h₂
    rw [h₁.unique h₂]

/-- The first three multiples of the order miss zero. -/
theorem order_nsmul_base (k : Nat) (hk : k < 4) : (k*JUBJUB_ORDER) • base = 0 ↔ k = 0 := by
  have hT := torsion_stands
  have hsplit : (k*JUBJUB_ORDER) • base = k • (JUBJUB_ORDER • base) := by rw [mul_comm, mul_nsmul]
  rw [hsplit]
  constructor
  · intro h
    by_contra hne
    have hmiss (p : JubJubPoint) (hp : Stands p (k • (JUBJUB_ORDER • base))) (hd : p ≠ identity) : False := by
      rw [h] at hp
      exact hd (hp.unique identity_stands)
    interval_cases k
    · exact hne rfl
    · apply hmiss torsion
      · rwa [one_nsmul]
      · decide
    · apply hmiss (torsion.add torsion)
      · rw [two_nsmul]
        exact hT.add hT
      · decide +kernel
    · apply hmiss ((torsion.add torsion).add torsion)
      · rw [succ_nsmul, two_nsmul]
        exact (hT.add hT).add hT
      · decide +kernel
  · rintro rfl
    exact zero_nsmul _

/-- What a sum leaves over when it is reduced. -/
theorem carry_spec {x y z m : Nat} (hx : x < m) (hy : y < m) (hz : z = (x+y) % m) :
    ∃ k < 2, x+y = z+k*m ∧ (k = 0 ↔ x+y < m) := by
  by_cases h : x+y < m
  · exact ⟨0, by decide, by rw [hz, Nat.mod_eq_of_lt h, zero_mul, add_zero], by simp [h]⟩
  · refine ⟨1, by decide, ?_, by simp [h]⟩
    have hsub : (x+y) % m = x+y-m := by
      rw [Nat.mod_eq_sub_mod (not_lt.mp h), Nat.mod_eq_of_lt (by omega)]
    omega

/-- Commitments add up exactly when neither the randomness nor the value wraps around the order. -/
theorem bindingPoint_add {r₁ r₂ r₃ : Bytes} (v₁ v₂ : Int)
    (hr : randomScalar r₃ = (randomScalar r₁+randomScalar r₂) % JUBJUB_ORDER) :
    (bindingPoint r₁ v₁).add (bindingPoint r₂ v₂) = bindingPoint r₃ (v₁+v₂) ↔
      randomScalar r₁+randomScalar r₂ < JUBJUB_ORDER ∧ valueScalar v₁+valueScalar v₂ < JUBJUB_ORDER := by
  obtain ⟨k, hk, hksum, hkzero⟩ := carry_spec (randomScalar_lt r₁) (randomScalar_lt r₂) hr
  have hv : valueScalar (v₁+v₂) = (valueScalar v₁+valueScalar v₂) % JUBJUB_ORDER := by
    unfold valueScalar JUBJUB_ORDER
    omega
  obtain ⟨l, hl, hlsum, hlzero⟩ := carry_spec (valueScalar_lt v₁) (valueScalar_lt v₂) hv
  have hsum := (bindingPoint_stands r₁ v₁).add (bindingPoint_stands r₂ v₂)
  have hscalar : randomScalar r₁+2*valueScalar v₁+(randomScalar r₂+2*valueScalar v₂) =
      randomScalar r₃+2*valueScalar (v₁+v₂)+(k+2*l)*JUBJUB_ORDER := by
    rw [add_mul, mul_assoc]
    omega
  rw [← add_nsmul, hscalar, add_nsmul] at hsum
  have hgroup : (bindingPoint r₁ v₁).add (bindingPoint r₂ v₂) = bindingPoint r₃ (v₁+v₂) ↔ k+2*l = 0 := by
    rw [← order_nsmul_base (k+2*l) (by omega)]
    constructor
    · intro h
      rw [h] at hsum
      exact add_eq_left.mp (hsum.eq (bindingPoint_stands r₃ (v₁+v₂)))
    · intro h
      rw [h, add_zero] at hsum
      exact hsum.unique (bindingPoint_stands r₃ (v₁+v₂))
  rw [hgroup, ← hkzero, ← hlzero]
  omega

/-- A value and its negation cancel only when the order divides the value. -/
theorem bindingPoint_neg (randomness : Bytes) (value : Int) :
    (bindingPoint randomness (-value)).add (bindingH.mul (FieldElement.ofInt value)) = bindingPoint randomness 0 ↔
      value % JUBJUB_ORDER = 0 := by
  have hH : Stands (bindingH.mul (FieldElement.ofInt value)) ((2*valueScalar value) • base) := by
    have h := bindingH_stands.mul (FieldElement.ofInt value)
    rwa [← mul_nsmul] at h
  have hsum := (bindingPoint_stands randomness (-value)).add hH
  have hzero : Stands (bindingPoint randomness 0) (randomScalar randomness • base) :=
    bindingPoint_stands randomness 0
  obtain ⟨k, hk, hkneg, hkzero⟩ : ∃ k < 2, valueScalar (-value)+valueScalar value = k*JUBJUB_ORDER ∧
      (k = 0 ↔ value % JUBJUB_ORDER = 0) := by
    by_cases hd : value % JUBJUB_ORDER = 0
    · refine ⟨0, by decide, ?_, by simp [hd]⟩
      unfold valueScalar JUBJUB_ORDER at *
      omega
    · refine ⟨1, by decide, ?_, by simp [hd]⟩
      unfold valueScalar JUBJUB_ORDER at *
      omega
  have hscalar : randomScalar randomness+2*valueScalar (-value)+2*valueScalar value =
      randomScalar randomness+2*k*JUBJUB_ORDER := by
    rw [mul_assoc]
    omega
  rw [← add_nsmul, hscalar, add_nsmul] at hsum
  rw [← hkzero]
  have hgroup := order_nsmul_base (2*k) (by omega)
  constructor
  · intro h
    rw [h] at hsum
    have hdouble := hgroup.mp (add_eq_left.mp (hsum.eq hzero))
    omega
  · rintro rfl
    rw [hgroup.mpr rfl, add_zero] at hsum
    exact hsum.unique hzero

/-- The order the code reduces by is not a multiple of the order of its generator, so every reduction that
takes anything away moves the commitment. -/
theorem bindingPoint_homomorphic_iff (r₁ r₂ r₃ : Bytes) (v₁ v₂ : Int)
    (hr : leValue r₃ % JUBJUB_ORDER = (leValue r₁+leValue r₂) % JUBJUB_ORDER) :
    ((bindingPoint r₁ v₁).add (bindingPoint r₂ v₂) = bindingPoint r₃ (v₁+v₂) ↔
      leValue r₁ % JUBJUB_ORDER+leValue r₂ % JUBJUB_ORDER < JUBJUB_ORDER ∧
        v₁ % JUBJUB_ORDER+v₂ % JUBJUB_ORDER < JUBJUB_ORDER) ∧
    ((bindingPoint r₁ (-v₁)).add (bindingH.mul (FieldElement.ofInt v₁)) = bindingPoint r₁ 0 ↔
      v₁ % JUBJUB_ORDER = 0) := by
  refine ⟨?_, bindingPoint_neg r₁ v₁⟩
  have hsum : randomScalar r₃ = (randomScalar r₁+randomScalar r₂) % JUBJUB_ORDER := by
    rw [randomScalar, hr, Nat.add_mod]
    rfl
  rw [bindingPoint_add v₁ v₂ hsum]
  apply and_congr Iff.rfl
  unfold valueScalar JUBJUB_ORDER
  omega

/-- Thirty-two bytes with a small value. -/
def smallRandomness (b : UInt8) : Bytes := b::List.replicate 31 0

theorem bindingPoint_homomorphic_sample :
    (bindingPoint (smallRandomness 1) 5).add (bindingPoint (smallRandomness 2) 6) =
      bindingPoint (smallRandomness 3) 11 :=
  (bindingPoint_homomorphic_iff (smallRandomness 1) (smallRandomness 2) (smallRandomness 3) 5 6
    (by decide +kernel)).1.mpr (by decide +kernel)

/-- Opposite values do not cancel, and randomness that adds up to the order does not vanish. -/
theorem bindingPoint_wraps :
    (bindingPoint (smallRandomness 0) 1).add (bindingPoint (smallRandomness 0) (-1)) ≠
      bindingPoint (smallRandomness 0) (1+-1) ∧
    (bindingPoint (leBytes 32 (JUBJUB_ORDER-1)) 0).add (bindingPoint (smallRandomness 1) 0) ≠
      bindingPoint (smallRandomness 0) (0+0) := by
  constructor
  · intro h
    have hwrap := ((bindingPoint_add 1 (-1) (by decide +kernel)).mp h).2
    exact absurd hwrap (by decide +kernel)
  · intro h
    have hwrap := ((bindingPoint_add 0 0 (by decide +kernel)).mp h).1
    exact absurd hwrap (by decide +kernel)

end Noxipher
