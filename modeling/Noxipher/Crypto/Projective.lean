import Noxipher.Crypto.CurveGroup

namespace Noxipher

/-- A point over a common denominator, so that a sum needs no division. The code has no such points; they make the one
long multiplication of this development short to evaluate. -/
structure ProjectivePoint where
  X : Fr
  Y : Fr
  Z : Fr

namespace ProjectivePoint

open JubJubPoint (D Stands base identity generator)

def ofAffine (p : JubJubPoint) : ProjectivePoint := ⟨p.u, p.v, FieldElement.ofNat 1⟩

def add (p q : ProjectivePoint) : ProjectivePoint :=
  let z := p.Z*q.Z
  let x := p.X*q.X
  let y := p.Y*q.Y
  let minus := z*z-D*x*y
  let plus := z*z+D*x*y
  ⟨z*minus*(p.X*q.Y+p.Y*q.X), z*plus*(y+x), minus*plus⟩

/-- The quotients of the coordinates are those of a point of the group. -/
structure Represents (p : ProjectivePoint) (P : JubJub) : Prop where
  ne_zero : p.Z.residue ≠ 0
  x : p.X.residue = P.x*p.Z.residue
  y : p.Y.residue = P.y*p.Z.residue

theorem ofAffine_represents {p : JubJubPoint} {P : JubJub} (h : Stands p P) : Represents (ofAffine p) P := by
  constructor <;> simp [ofAffine, h.u, h.v]

theorem Represents.add {p q : ProjectivePoint} {P Q : JubJub} (hp : Represents p P) (hq : Represents q Q) :
    Represents (p.add q) (P+Q) := by
  have hplus := Edwards.one_add_ne_zero P.onCurve Q.onCurve
  have hminus := Edwards.one_sub_ne_zero P.onCurve Q.onCurve
  have hx := div_mul_cancel₀ (P.x*Q.y+P.y*Q.x) hplus
  have hy := div_mul_cancel₀ (P.y*Q.y-(-1)*P.x*Q.x) hminus
  have hz : p.Z.residue*q.Z.residue ≠ 0 := mul_ne_zero hp.ne_zero hq.ne_zero
  generalize hA : 1+D.residue*P.x*Q.x*P.y*Q.y = A at *
  generalize hB : 1-D.residue*P.x*Q.x*P.y*Q.y = B at *
  have hZ : (p.add q).Z.residue = (p.Z.residue*q.Z.residue)^4*(B*A) := by
    simp only [ProjectivePoint.add, FieldElement.residue_add, FieldElement.residue_sub, FieldElement.residue_mul,
      hp.x, hp.y, hq.x, hq.y, ← hA, ← hB]
    ring
  constructor
  · rw [hZ]
    exact mul_ne_zero (pow_ne_zero 4 hz) (mul_ne_zero hminus hplus)
  · rw [hZ, Edwards.Point.add_x, Edwards.sumX, hA]
    simp only [ProjectivePoint.add, FieldElement.residue_add, FieldElement.residue_sub, FieldElement.residue_mul,
      hp.x, hp.y, hq.x, hq.y]
    linear_combination (p.Z.residue*q.Z.residue)^4*(P.x*Q.y+P.y*Q.x)*hB-(p.Z.residue*q.Z.residue)^4*B*hx
  · rw [hZ, Edwards.Point.add_y, Edwards.sumY, hB]
    simp only [ProjectivePoint.add, FieldElement.residue_add, FieldElement.residue_mul, hp.x, hp.y, hq.x, hq.y]
    linear_combination (p.Z.residue*q.Z.residue)^4*(P.y*Q.y+P.x*Q.x)*hA-(p.Z.residue*q.Z.residue)^4*A*hy

/-- Where the coordinates agree crosswise, the affine point stands for the represented one. -/
theorem Represents.stands {q : ProjectivePoint} {P : JubJub} (h : Represents q P) {p : JubJubPoint}
    (hx : q.X = p.u*q.Z) (hy : q.Y = p.v*q.Z) : Stands p P := by
  constructor
  · apply mul_right_cancel₀ h.ne_zero
    rw [← FieldElement.residue_mul, ← hx, h.x]
  · apply mul_right_cancel₀ h.ne_zero
    rw [← FieldElement.residue_mul, ← hy, h.y]

/-- The multiple of the generator by the order, over a common denominator. -/
def orderMultiple : ProjectivePoint :=
  doubleAndAdd add (JUBJUB_ORDER.log2+1) JUBJUB_ORDER (ofAffine identity) (ofAffine generator)

theorem orderMultiple_represents : Represents orderMultiple (JUBJUB_ORDER • base) := by
  have h := doubleAndAdd_stands Represents.add (JUBJUB_ORDER.log2+1) JUBJUB_ORDER Nat.lt_log2_self
    (ofAffine_represents JubJubPoint.identity_stands) (ofAffine_represents JubJubPoint.generator_stands)
  rwa [zero_add] at h

end ProjectivePoint

namespace JubJubPoint

/-- A point of order eight. -/
def torsion : JubJubPoint :=
  ⟨FieldElement.ofNat 51487464086487745867707624970564403863932192230710361188278096157071779040579,
    FieldElement.ofNat 33175629719884006543435607313513638533300198751199617432860030069151083304669⟩

theorem torsion_stands : Stands torsion (JUBJUB_ORDER • base) := by
  have hcross : ProjectivePoint.orderMultiple.X = torsion.u*ProjectivePoint.orderMultiple.Z ∧
      ProjectivePoint.orderMultiple.Y = torsion.v*ProjectivePoint.orderMultiple.Z := by
    decide +kernel
  exact ProjectivePoint.orderMultiple_represents.stands hcross.1 hcross.2

/-- The hard-coded generator is not one of the subgroup: its multiple by the order is not zero. -/
theorem order_mul_generator :
    mulLoop (JUBJUB_ORDER.log2+1) JUBJUB_ORDER identity generator = torsion := by
  have h := mulLoop_stands (JUBJUB_ORDER.log2+1) JUBJUB_ORDER Nat.lt_log2_self identity_stands generator_stands
  rw [zero_add] at h
  exact h.unique torsion_stands

end JubJubPoint

end Noxipher
