import Noxipher.Crypto.Residues
import Noxipher.Library.DoubleAndAdd
import Noxipher.Library.Edwards

namespace Noxipher

namespace JubJubPoint

/-- The coefficient `d` is no square, by Euler's criterion. -/
theorem D_nonsquare : ¬ IsSquare D.residue := by
  have hne : D.residue ≠ 0 := by
    intro h
    have hz : D.residue = (FieldElement.ofNat 0 : Fr).residue := by
      rw [h, FieldElement.residue_ofNat, Nat.cast_zero]
    exact absurd (FieldElement.residue_injective hz) (by decide)
  rw [ZMod.euler_criterion Fr.MODULUS hne, FieldElement.residue, ← Nat.cast_pow, ← Nat.cast_one,
    ZMod.natCast_eq_natCast_iff', ← powMod_eq]
  decide +kernel

instance : Edwards.Complete (-1 : ZMod Fr.MODULUS) D.residue where
  two_ne_zero := by
    intro h
    have hcast : ((2 : Nat) : ZMod Fr.MODULUS) = ((0 : Nat) : ZMod Fr.MODULUS) := by
      push_cast
      exact h
    rw [ZMod.natCast_eq_natCast_iff'] at hcast
    exact absurd hcast (by decide)
  square := ZMod.exists_sq_eq_neg_one_iff.mpr (by decide)
  nonsquare := D_nonsquare

end JubJubPoint

/-- The JubJub curve as a group. -/
abbrev JubJub : Type := Edwards.Point (-1 : ZMod Fr.MODULUS) JubJubPoint.D.residue

namespace JubJubPoint

/-- The coordinates as computed are those of a point of the group. -/
structure Stands (p : JubJubPoint) (P : JubJub) : Prop where
  u : p.u.residue = P.x
  v : p.v.residue = P.y

theorem Stands.unique {p q : JubJubPoint} {P : JubJub} (hp : Stands p P) (hq : Stands q P) : p = q := by
  obtain ⟨pu, pv⟩ := p
  obtain ⟨qu, qv⟩ := q
  have hu : pu = qu := FieldElement.residue_injective (hp.u.trans hq.u.symm)
  have hv : pv = qv := FieldElement.residue_injective (hp.v.trans hq.v.symm)
  rw [hu, hv]

theorem Stands.eq {p : JubJubPoint} {P Q : JubJub} (hp : Stands p P) (hq : Stands p Q) : P = Q :=
  Edwards.Point.ext (hp.u.symm.trans hq.u) (hp.v.symm.trans hq.v)

theorem identity_stands : Stands identity 0 := by
  constructor <;> simp [identity]

/-- The formula of the code is the group law. -/
theorem Stands.add {p q : JubJubPoint} {P Q : JubJub} (hp : Stands p P) (hq : Stands q Q) :
    Stands (p.add q) (P+Q) := by
  constructor
  · simp only [JubJubPoint.add, Fr.residue_div, FieldElement.residue_add, FieldElement.residue_mul,
      FieldElement.residue_ofNat, hp.u, hp.v, hq.u, hq.v, Edwards.Point.add_x, Edwards.sumX, Nat.cast_one]
  · simp only [JubJubPoint.add, Fr.residue_div, FieldElement.residue_add, FieldElement.residue_mul,
      FieldElement.residue_sub, FieldElement.residue_ofNat, hp.u, hp.v, hq.u, hq.v, Edwards.Point.add_y,
      Edwards.sumY, Nat.cast_one]
    congr 1
    ring

theorem mulLoop_eq (fuel n : Nat) (res temp : JubJubPoint) :
    mulLoop fuel n res temp = doubleAndAdd add fuel n res temp := by
  induction fuel generalizing n res temp with
  | zero => rfl
  | succ fuel ih => rw [mulLoop, doubleAndAdd, ih]

/-- Double-and-add adds the scalar multiple to what was there. -/
theorem mulLoop_stands (fuel n : Nat) {res temp : JubJubPoint} {R T : JubJub} (hn : n < 2^fuel)
    (hres : Stands res R) (htemp : Stands temp T) : Stands (mulLoop fuel n res temp) (R+n • T) := by
  rw [mulLoop_eq]
  exact doubleAndAdd_stands (R := Stands) (fun hp hq => hp.add hq) fuel n hn hres htemp

theorem Stands.mul {p : JubJubPoint} {P : JubJub} (hp : Stands p P) (scalar : EmbeddedFr) :
    Stands (p.mul scalar) (scalar.value • P) := by
  have h := mulLoop_stands (scalar.value.log2+1) scalar.value Nat.lt_log2_self identity_stands hp
  rwa [zero_add] at h

/-- The generator as a point of the group. -/
def base : JubJub where
  x := generator.u.residue
  y := generator.v.residue
  onCurve := by
    have h : generator.v*generator.v =
        FieldElement.ofNat 1+D*(generator.u*generator.u)*(generator.v*generator.v)+generator.u*generator.u := by
      decide +kernel
    have hres := congrArg FieldElement.residue h
    simp only [FieldElement.residue_add, FieldElement.residue_mul, FieldElement.residue_ofNat, Nat.cast_one] at hres
    unfold Edwards.OnCurve
    linear_combination hres

theorem generator_stands : Stands generator base := ⟨rfl, rfl⟩

end JubJubPoint

end Noxipher
