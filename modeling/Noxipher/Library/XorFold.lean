import Mathlib.Data.Nat.Bitwise
import Mathlib.Tactic.Common

namespace Noxipher.XorFold

/-- A register step that is linear over exclusive or, in state and symbol together. -/
def Linear (step : Nat → Nat → Nat) : Prop :=
  ∀ a b v w, step (a ^^^ b) (v ^^^ w) = step a v ^^^ step b w

theorem foldl_xor (step : Nat → Nat → Nat) (h : Linear step) (vs ws : List Nat) (a b : Nat)
    (hl : vs.length = ws.length) :
    (List.zipWith (· ^^^ ·) vs ws).foldl step (a ^^^ b) = vs.foldl step a ^^^ ws.foldl step b := by
  induction vs generalizing ws a b with
  | nil =>
    have hw : ws = [] := List.eq_nil_of_length_eq_zero (by simpa using hl.symm)
    simp [hw]
  | cons v vs ih =>
    cases ws with
    | nil => simp at hl
    | cons w ws =>
      simp only [List.zipWith_cons_cons, List.foldl_cons, h a b v w]
      exact ih ws (step a v) (step b w) (by simpa using hl)

/-- Symbols contribute to a run as they would to an empty register. -/
theorem foldl_split (step : Nat → Nat → Nat) (h : Linear step) (ws : List Nat) (a : Nat) :
    ws.foldl step a = (List.replicate ws.length 0).foldl step a ^^^ ws.foldl step 0 := by
  have hz : List.zipWith (· ^^^ ·) (List.replicate ws.length 0) ws = ws := by
    induction ws with
    | nil => rfl
    | cons w ws ih => simpa [List.replicate_succ] using ih
  have hx := foldl_xor step h (List.replicate ws.length 0) ws a 0 (by simp)
  rwa [hz, Nat.xor_zero] at hx

/-- A register of `w` bits that no zero symbol empties. -/
def Faithful (step : Nat → Nat → Nat) (w : Nat) : Prop := ∀ a < 2^w, step a 0 = 0 → a = 0

/-- One symbol leads different registers to different ones. -/
theorem Faithful.step_inj {step : Nat → Nat → Nat} {w : Nat} (hf : Faithful step w) (h : Linear step) {a b v : Nat}
    (ha : a < 2^w) (hb : b < 2^w) (he : step a v = step b v) : a = b := by
  have hzero := h a b v v
  rw [he, Nat.xor_self, Nat.xor_self] at hzero
  exact Nat.xor_eq_zero_iff.mp (hf (a ^^^ b) (Nat.xor_lt_two_pow ha hb) hzero)

theorem foldl_lt {step : Nat → Nat → Nat} {w : Nat} (hkeep : ∀ a v, v < 2^w → step a v < 2^w) (vs : List Nat)
    {a : Nat} (ha : a < 2^w) (hv : ∀ v ∈ vs, v < 2^w) : vs.foldl step a < 2^w := by
  induction vs generalizing a with
  | nil => exact ha
  | cons v vs ih => exact ih (hkeep a v (hv v (by simp))) (fun x hx => hv x (by simp [hx]))

theorem Faithful.foldl_inj {step : Nat → Nat → Nat} {w : Nat} (hf : Faithful step w) (h : Linear step)
    (hkeep : ∀ a v, v < 2^w → step a v < 2^w) (vs : List Nat) {a b : Nat} (ha : a < 2^w) (hb : b < 2^w)
    (hv : ∀ v ∈ vs, v < 2^w) (he : vs.foldl step a = vs.foldl step b) : a = b := by
  induction vs generalizing a b with
  | nil => exact he
  | cons v vs ih =>
    have hlt := hv v (by simp)
    have hnext := ih (hkeep a v hlt) (hkeep b v hlt) (fun x hx => hv x (by simp [hx])) he
    exact hf.step_inj h ha hb hnext

/-- An error in the middle of a run that does not cancel by itself is still seen at the end. -/
theorem Faithful.foldl_ne {step : Nat → Nat → Nat} {w : Nat} (hf : Faithful step w) (h : Linear step)
    (hkeep : ∀ a v, v < 2^w → step a v < 2^w) {before mid mid' after : List Nat} {a : Nat} (ha : a < 2^w)
    (hlt : ∀ v ∈ before++mid++mid'++after, v < 2^w) (hlen : mid.length = mid'.length)
    (herror : (List.zipWith (· ^^^ ·) mid mid').foldl step 0 ≠ 0) :
    (before++mid++after).foldl step a ≠ (before++mid'++after).foldl step a := by
  intro he
  simp only [List.mem_append] at hlt
  simp only [List.foldl_append] at he
  have hstart := foldl_lt hkeep before ha (fun v hv => hlt v (by simp [hv]))
  have hmid := hf.foldl_inj h hkeep after (foldl_lt hkeep mid hstart (fun v hv => hlt v (by simp [hv])))
    (foldl_lt hkeep mid' hstart (fun v hv => hlt v (by simp [hv]))) (fun v hv => hlt v (by simp [hv])) he
  have hxor := foldl_xor step h mid mid' (before.foldl step a) (before.foldl step a) hlen
  rw [hmid, Nat.xor_self, Nat.xor_self] at hxor
  exact herror hxor

/-- Selecting a constant by a bit respects exclusive or. -/
theorem select_xor (p q : Bool) (g : Nat) :
    (if p ^^ q then g else 0) = (if p then g else 0) ^^^ (if q then g else 0) := by
  cases p <;> cases q <;> simp

/-- Below the shift there is nothing to carry, so exclusive or appends a digit. -/
theorem shiftLeft_xor_of_lt (w a d : Nat) (hd : d < 2^w) : a <<< w ^^^ d = a*2^w+d := by
  rw [← Nat.shiftLeft_eq, Nat.shiftLeft_add_eq_or_of_lt hd]
  apply Nat.eq_of_testBit_eq
  intro i
  rw [Nat.testBit_xor, Nat.testBit_or, Nat.testBit_shiftLeft]
  by_cases hi : w ≤ i
  · have hp : 2^w ≤ 2^i := Nat.pow_le_pow_right (by decide) hi
    simp [Nat.testBit_lt_two_pow (show d < 2^i by omega)]
  · simp [hi]

end Noxipher.XorFold
