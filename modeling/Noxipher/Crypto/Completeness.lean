import Noxipher.Crypto.CurveGroup

namespace Noxipher

namespace JubJubPoint

variable {p q : JubJubPoint} {P : JubJub}

/-- The equation of the class, `-x^2 + y^2 = 1 + d*x^2*y^2`, in the arithmetic of the field. -/
def OnCurve (p : JubJubPoint) : Prop := A*p.u^2+p.v^2 = FieldElement.ofNat 1+D*p.u^2*p.v^2

instance (p : JubJubPoint) : Decidable p.OnCurve := inferInstanceAs (Decidable (_ = _))

theorem onCurve_iff (p : JubJubPoint) :
    p.OnCurve ↔ Edwards.OnCurve (-1) D.residue p.u.residue p.v.residue := by
  have hres : Edwards.OnCurve (-1) D.residue p.u.residue p.v.residue ↔
      (A*p.u^2+p.v^2).residue = (FieldElement.ofNat 1+D*p.u^2*p.v^2).residue := by
    simp [Edwards.OnCurve, A]
  rw [hres]
  exact ⟨congrArg FieldElement.residue, FieldElement.residue_injective⟩

/-- A point that satisfies the equation, as one of the group. -/
def OnCurve.point (h : p.OnCurve) : JubJub := ⟨p.u.residue, p.v.residue, (onCurve_iff p).mp h⟩

theorem OnCurve.stands (h : p.OnCurve) : Stands p h.point := ⟨rfl, rfl⟩

theorem Stands.onCurve (h : Stands p P) : p.OnCurve := by
  rw [onCurve_iff, h.u, h.v]
  exact P.onCurve

theorem generator_onCurve : generator.OnCurve := generator_stands.onCurve

theorem OnCurve.add (hp : p.OnCurve) (hq : q.OnCurve) : (p.add q).OnCurve :=
  (hp.stands.add hq.stands).onCurve

/-- `common` of `__add__`. -/
def common (p q : JubJubPoint) : Fr := D*p.u*q.u*p.v*q.v

theorem one_add_common_ne_zero (hp : p.OnCurve) (hq : q.OnCurve) :
    FieldElement.ofNat 1+common p q ≠ FieldElement.ofNat 0 := by
  intro h
  have hres := congrArg FieldElement.residue h
  apply Edwards.one_add_ne_zero ((onCurve_iff p).mp hp) ((onCurve_iff q).mp hq)
  simpa [common] using hres

theorem one_sub_common_ne_zero (hp : p.OnCurve) (hq : q.OnCurve) :
    FieldElement.ofNat 1-common p q ≠ FieldElement.ofNat 0 := by
  intro h
  have hres := congrArg FieldElement.residue h
  apply Edwards.one_sub_ne_zero ((onCurve_iff p).mp hp) ((onCurve_iff q).mp hq)
  simpa [common] using hres

/-- Away from zero the power of Fermat's little theorem divides. -/
theorem div_mul_cancel {x y : Fr} (hy : y ≠ FieldElement.ofNat 0) : x/y*y = x := by
  have hne : y.residue ≠ 0 := by simpa using FieldElement.residue_ne hy
  apply FieldElement.residue_injective
  rw [FieldElement.residue_mul, Fr.residue_div, div_mul_cancel₀ _ hne]

/-- Addition is complete: no two points of the curve make a denominator zero, so both quotients are exact and the sum
is on the curve again. -/
theorem add_complete (p q : JubJubPoint) (hp : p.OnCurve) (hq : q.OnCurve) :
    FieldElement.ofNat 1+D*p.u*q.u*p.v*q.v ≠ FieldElement.ofNat 0 ∧
    FieldElement.ofNat 1-D*p.u*q.u*p.v*q.v ≠ FieldElement.ofNat 0 ∧
    (p.add q).u*(FieldElement.ofNat 1+D*p.u*q.u*p.v*q.v) = p.u*q.v+p.v*q.u ∧
    (p.add q).v*(FieldElement.ofNat 1-D*p.u*q.u*p.v*q.v) = p.v*q.v+p.u*q.u ∧
    (p.add q).OnCurve := by
  have hplus := one_add_common_ne_zero hp hq
  have hminus := one_sub_common_ne_zero hp hq
  exact ⟨hplus, hminus, div_mul_cancel hplus, div_mul_cancel hminus, hp.add hq⟩

theorem add_complete_double :
    FieldElement.ofNat 1+D*generator.u*generator.u*generator.v*generator.v ≠ FieldElement.ofNat 0 ∧
    (generator.add generator).OnCurve :=
  have h := add_complete generator generator generator_onCurve generator_onCurve
  ⟨h.1, h.2.2.2.2⟩

/-- The sum of `n` copies of a point, added one after another to the identity. -/
def sumOfCopies (p : JubJubPoint) (n : Nat) : JubJubPoint := (List.replicate n p).foldl add identity

theorem sumOfCopies_succ (p : JubJubPoint) (n : Nat) : p.sumOfCopies (n+1) = (p.sumOfCopies n).add p := by
  rw [sumOfCopies, List.replicate_succ', List.foldl_append]
  rfl

theorem Stands.sumOfCopies (h : Stands p P) (n : Nat) : Stands (p.sumOfCopies n) (n • P) := by
  induction n with
  | zero =>
    rw [zero_nsmul]
    exact identity_stands
  | succ n ih =>
    rw [sumOfCopies_succ, succ_nsmul]
    exact ih.add h

/-- Double-and-add is repeated addition, so it adds up in the scalar. -/
theorem mul_repeats_add (p : JubJubPoint) (hp : p.OnCurve) :
    (∀ s : EmbeddedFr, p.mul s = p.sumOfCopies s.value) ∧
    ∀ a b c : EmbeddedFr, a.value+b.value = c.value → (p.mul a).add (p.mul b) = p.mul c := by
  have hP := hp.stands
  constructor
  · intro s
    exact (hP.mul s).unique (hP.sumOfCopies s.value)
  · intro a b c hc
    have hsum := (hP.mul a).add (hP.mul b)
    rw [← add_nsmul, hc] at hsum
    exact hsum.unique (hP.mul c)

theorem mul_repeats_add_generator :
    generator.mul (FieldElement.ofNat 5) = generator.sumOfCopies 5 ∧
    (generator.mul (FieldElement.ofNat 2)).add (generator.mul (FieldElement.ofNat 3)) =
      generator.mul (FieldElement.ofNat 5) :=
  have h := mul_repeats_add generator generator_onCurve
  ⟨h.1 (FieldElement.ofNat 5), h.2 (FieldElement.ofNat 2) (FieldElement.ofNat 3) (FieldElement.ofNat 5) (by decide)⟩

end JubJubPoint

end Noxipher
