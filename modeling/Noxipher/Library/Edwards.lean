import Mathlib.Algebra.Field.Basic
import Mathlib.Algebra.Group.Even
import Mathlib.Algebra.Group.MinimalAxioms
import Mathlib.Tactic.FieldSimp
import Mathlib.Tactic.LinearCombination
import Mathlib.Tactic.Ring

namespace Noxipher.Edwards

/-- The affine twisted Edwards curve with coefficients `a` and `d`. -/
def OnCurve {F : Type} [Field F] (a d x y : F) : Prop := a*x^2+y^2 = 1+d*x^2*y^2

/-- Coefficients for which the addition formula has no exceptions. -/
class Complete {F : Type} [Field F] (a d : F) : Prop where
  two_ne_zero : (2 : F) ≠ 0
  square : IsSquare a
  nonsquare : ¬ IsSquare d

section Formulas

variable {F : Type} [Field F] {a d x₁ y₁ x₂ y₂ x₃ y₃ : F}

/-- The product in a denominator is never a square root of one. -/
theorem product_sq_ne_one [hc : Complete a d] (h₁ : OnCurve a d x₁ y₁) (h₂ : OnCurve a d x₂ y₂) :
    (d*x₁*x₂*y₁*y₂)^2 ≠ 1 := by
  obtain ⟨c, rfl⟩ := hc.square
  unfold OnCurve at h₁ h₂
  intro he
  have hne : d*x₁*x₂*y₁*y₂ ≠ 0 := by
    intro h0
    rw [h0] at he
    simp at he
  have hx₁ : x₁ ≠ 0 := by rintro rfl; simp at hne
  have hy₁ : y₁ ≠ 0 := by rintro rfl; simp at hne
  have hy₂ : y₂ ≠ 0 := by rintro rfl; simp at hne
  -- each sign writes a square as `d` times a square, so both right factors vanish
  have hsign (s : F) (hs : s^2 = 1) : c*x₂+s*y₂ = 0 := by
    by_contra hz
    have hsq : (c*x₁+s*(d*x₁*x₂*y₁*y₂)*y₁)^2 = d*(x₁*y₁*(c*x₂+s*y₂))^2 := by
      linear_combination h₁-d*x₁^2*y₁^2*h₂+(s^2*y₁^2-1)*he+(y₁^2-d*x₁^2*y₁^2*y₂^2)*hs
    have hw : x₁*y₁*(c*x₂+s*y₂) ≠ 0 := mul_ne_zero (mul_ne_zero hx₁ hy₁) hz
    apply hc.nonsquare
    refine ⟨(c*x₁+s*(d*x₁*x₂*y₁*y₂)*y₁)/(x₁*y₁*(c*x₂+s*y₂)), ?_⟩
    rw [div_mul_div_comm, eq_div_iff (mul_ne_zero hw hw)]
    linear_combination -hsq
  have hplus := hsign 1 (by ring)
  have hminus := hsign (-1) (by ring)
  have hdouble : 2*y₂ = 0 := by linear_combination hplus-hminus
  exact (mul_ne_zero hc.two_ne_zero hy₂) hdouble

theorem one_add_ne_zero [Complete a d] (h₁ : OnCurve a d x₁ y₁) (h₂ : OnCurve a d x₂ y₂) :
    1+d*x₁*x₂*y₁*y₂ ≠ 0 := by
  intro h
  apply product_sq_ne_one h₁ h₂
  linear_combination (d*x₁*x₂*y₁*y₂-1)*h

theorem one_sub_ne_zero [Complete a d] (h₁ : OnCurve a d x₁ y₁) (h₂ : OnCurve a d x₂ y₂) :
    1-d*x₁*x₂*y₁*y₂ ≠ 0 := by
  intro h
  apply product_sq_ne_one h₁ h₂
  linear_combination (-d*x₁*x₂*y₁*y₂-1)*h

/-- The y coordinate leaves one x coordinate and its negative. -/
theorem x_eq_or_neg [hc : Complete a d] (h₁ : OnCurve a d x₁ y₁) (h₂ : OnCurve a d x₂ y₁) : x₁ = x₂ ∨ x₁ = -x₂ := by
  unfold OnCurve at h₁ h₂
  have hne : a-d*y₁^2 ≠ 0 := by
    intro h0
    -- the y coordinate is then a square root of one, and `d` is `a`
    have hone : y₁^2 = 1 := by linear_combination h₁-x₁^2*h0
    have had : d = a := by linear_combination -h0-d*hone
    exact hc.nonsquare (had ▸ hc.square)
  have hsq : (a-d*y₁^2)*x₁^2 = (a-d*y₁^2)*x₂^2 := by linear_combination h₁-h₂
  exact sq_eq_sq_iff_eq_or_eq_neg.mp (mul_left_cancel₀ hne hsq)

/-- The x coordinate of a sum. -/
def sumX (d x₁ y₁ x₂ y₂ : F) : F := (x₁*y₂+y₁*x₂)/(1+d*x₁*x₂*y₁*y₂)

/-- The y coordinate of a sum. -/
def sumY (a d x₁ y₁ x₂ y₂ : F) : F := (y₁*y₂-a*x₁*x₂)/(1-d*x₁*x₂*y₁*y₂)

theorem onCurve_sum [Complete a d] (h₁ : OnCurve a d x₁ y₁) (h₂ : OnCurve a d x₂ y₂) :
    OnCurve a d (sumX d x₁ y₁ x₂ y₂) (sumY a d x₁ y₁ x₂ y₂) := by
  have hA := one_add_ne_zero h₁ h₂
  have hB := one_sub_ne_zero h₁ h₂
  unfold OnCurve at *
  unfold sumX sumY
  generalize hdA : 1+d*x₁*x₂*y₁*y₂ = A at *
  generalize hdB : 1-d*x₁*x₂*y₁*y₂ = B at *
  field_simp
  subst hdA hdB
  linear_combination
    (d^3*x₁^2*y₁^2*x₂^4*y₂^4-d*x₂^2*y₂^2*(a*x₁^2+y₁^2)-d*x₂^2*y₂^2+(a*x₂^2+y₂^2))*h₁+
      (d^2*x₁^2*y₁^2*x₂^2*y₂^2*(a*x₁^2+y₁^2-1)-d*x₁^2*y₁^2*(a*x₂^2+y₂^2)+1)*h₂

/-- A sum of a sum, over one denominator. -/
theorem sum_left [Complete a d] (h₁ : OnCurve a d x₁ y₁) (h₂ : OnCurve a d x₂ y₂) (h₃ : OnCurve a d x₃ y₃) :
    let s := x₁*y₂+y₁*x₂
    let t := y₁*y₂-a*x₁*x₂
    let A := 1+d*x₁*x₂*y₁*y₂
    let B := 1-d*x₁*x₂*y₁*y₂
    A*B+d*s*t*x₃*y₃ ≠ 0 ∧ A*B-d*s*t*x₃*y₃ ≠ 0 ∧
    sumX d (sumX d x₁ y₁ x₂ y₂) (sumY a d x₁ y₁ x₂ y₂) x₃ y₃ = (s*B*y₃+t*A*x₃)/(A*B+d*s*t*x₃*y₃) ∧
    sumY a d (sumX d x₁ y₁ x₂ y₂) (sumY a d x₁ y₁ x₂ y₂) x₃ y₃ = (t*A*y₃-a*s*B*x₃)/(A*B-d*s*t*x₃*y₃) := by
  intro s t A B
  have hA : A ≠ 0 := one_add_ne_zero h₁ h₂
  have hB : B ≠ 0 := one_sub_ne_zero h₁ h₂
  have hplus := one_add_ne_zero (onCurve_sum h₁ h₂) h₃
  have hminus := one_sub_ne_zero (onCurve_sum h₁ h₂) h₃
  have hx : sumX d x₁ y₁ x₂ y₂ = s/A := rfl
  have hy : sumY a d x₁ y₁ x₂ y₂ = t/B := rfl
  rw [hx, hy] at hplus hminus ⊢
  have hplus' : 1+d*(s/A)*x₃*(t/B)*y₃ = (A*B+d*s*t*x₃*y₃)/(A*B) := by field_simp
  have hminus' : 1-d*(s/A)*x₃*(t/B)*y₃ = (A*B-d*s*t*x₃*y₃)/(A*B) := by field_simp
  rw [hplus'] at hplus
  rw [hminus'] at hminus
  have hP := (div_ne_zero_iff.mp hplus).1
  have hM := (div_ne_zero_iff.mp hminus).1
  refine ⟨hP, hM, ?_, ?_⟩
  · rw [sumX, hplus']
    field_simp
  · rw [sumY, hminus']
    field_simp

theorem sumX_comm (x₁ y₁ x₂ y₂ : F) : sumX d x₁ y₁ x₂ y₂ = sumX d x₂ y₂ x₁ y₁ := by
  unfold sumX
  congr 1 <;> ring

theorem sumY_comm (x₁ y₁ x₂ y₂ : F) : sumY a d x₁ y₁ x₂ y₂ = sumY a d x₂ y₂ x₁ y₁ := by
  unfold sumY
  congr 1 <;> ring

/-- Both ways to add three points give fractions that agree crosswise, by the three curve equations. -/
theorem sum_assoc [Complete a d] (h₁ : OnCurve a d x₁ y₁) (h₂ : OnCurve a d x₂ y₂) (h₃ : OnCurve a d x₃ y₃) :
    sumX d (sumX d x₁ y₁ x₂ y₂) (sumY a d x₁ y₁ x₂ y₂) x₃ y₃ =
      sumX d x₁ y₁ (sumX d x₂ y₂ x₃ y₃) (sumY a d x₂ y₂ x₃ y₃) ∧
    sumY a d (sumX d x₁ y₁ x₂ y₂) (sumY a d x₁ y₁ x₂ y₂) x₃ y₃ =
      sumY a d x₁ y₁ (sumX d x₂ y₂ x₃ y₃) (sumY a d x₂ y₂ x₃ y₃) := by
  obtain ⟨hP, hM, hx, hy⟩ := sum_left h₁ h₂ h₃
  obtain ⟨hP', hM', hx', hy'⟩ := sum_left h₂ h₃ h₁
  rw [hx, hy, sumX_comm x₁, sumY_comm x₁, hx', hy', div_eq_div_iff hP hP', div_eq_div_iff hM hM']
  unfold OnCurve at h₁ h₂ h₃
  let p₁ := x₁*y₁
  let p₂ := x₂*y₂
  let p₃ := x₃*y₃
  let s₁₂ := x₁*y₂+y₁*x₂
  let t₁₂ := y₁*y₂-a*x₁*x₂
  let s₂₃ := x₂*y₃+y₂*x₃
  let t₂₃ := y₂*y₃-a*x₂*x₃
  constructor
  · linear_combination
      d*p₂*p₃*(x₁*t₂₃*(1+d*p₂*p₃)-y₁*s₂₃*(1-d*p₂*p₃))*h₁+
        d^2*p₁*p₂*p₃*(p₁*(y₁*s₂₃-x₁*t₂₃)-p₃*(y₃*s₁₂-x₃*t₁₂))*h₂-
          d*p₁*p₂*(x₃*t₁₂*(1+d*p₁*p₂)-y₃*s₁₂*(1-d*p₁*p₂))*h₃
  · linear_combination
      d*p₂*p₃*(y₁*t₂₃*(1+d*p₂*p₃)+a*x₁*s₂₃*(1-d*p₂*p₃))*h₁+
        d^2*p₁*p₂*p₃*(p₃*(a*x₃*s₁₂+y₃*t₁₂)-p₁*(a*x₁*s₂₃+y₁*t₂₃))*h₂-
          d*p₁*p₂*(y₃*t₁₂*(1+d*p₁*p₂)+a*x₃*s₁₂*(1-d*p₁*p₂))*h₃

end Formulas

/-- A point of the affine curve. -/
@[ext] structure Point {F : Type} [Field F] (a d : F) where
  x : F
  y : F
  onCurve : OnCurve a d x y

namespace Point

variable {F : Type} [Field F] {a d : F}

instance : Zero (Point a d) := ⟨⟨0, 1, by simp [OnCurve]⟩⟩

instance : Neg (Point a d) := ⟨fun P => ⟨-P.x, P.y, by simpa [OnCurve] using P.onCurve⟩⟩

@[simp] theorem zero_x : (0 : Point a d).x = 0 := rfl

@[simp] theorem zero_y : (0 : Point a d).y = 1 := rfl

variable [Complete a d]

instance : Add (Point a d) := ⟨fun P Q => ⟨sumX d P.x P.y Q.x Q.y, sumY a d P.x P.y Q.x Q.y,
  onCurve_sum P.onCurve Q.onCurve⟩⟩

theorem add_x (P Q : Point a d) : (P+Q).x = sumX d P.x P.y Q.x Q.y := rfl

theorem add_y (P Q : Point a d) : (P+Q).y = sumY a d P.x P.y Q.x Q.y := rfl

theorem zero_add (P : Point a d) : 0+P = P := by
  ext
  · simp [add_x, sumX]
  · simp [add_y, sumY]

theorem neg_add_cancel (P : Point a d) : -P+P = 0 := by
  have hne := one_sub_ne_zero (-P).onCurve P.onCurve
  have hP := P.onCurve
  unfold OnCurve at hP
  ext
  · have hs : (-P).x*P.y+(-P).y*P.x = 0 := by
      change -P.x*P.y+P.y*P.x = 0
      ring
    rw [add_x, sumX, hs, zero_div, zero_x]
  · rw [add_y, sumY, zero_y, div_eq_one_iff_eq hne]
    change P.y*P.y-a*(-P.x)*P.x = 1-d*(-P.x)*P.x*P.y*P.y
    linear_combination hP

/-- The points of a complete curve form a commutative group. -/
instance : AddCommGroup (Point a d) :=
  { AddGroup.ofLeftAxioms
      (fun P Q R => Point.ext (sum_assoc P.onCurve Q.onCurve R.onCurve).1
        (sum_assoc P.onCurve Q.onCurve R.onCurve).2)
      zero_add neg_add_cancel with
    add_comm := fun _ _ => Point.ext (sumX_comm _ _ _ _) (sumY_comm _ _ _ _) }

end Point

end Noxipher.Edwards
