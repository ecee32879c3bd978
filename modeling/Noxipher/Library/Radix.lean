import Mathlib.Data.Nat.Digits.Defs
import Mathlib.Data.Nat.Digits.Lemmas
import Mathlib.Tactic.Ring

namespace Noxipher.Radix

/-- The number written by digits in base `2^w`, most significant first. -/
def value (w : Nat) (ds : List Nat) : Nat := Nat.ofDigits (2^w) ds.reverse

@[simp] theorem value_nil (w : Nat) : value w [] = 0 := rfl

theorem value_snoc (w : Nat) (ds : List Nat) (d : Nat) :
    value w (ds++[d]) = value w ds*2^w+d := by
  simp only [value, List.reverse_append, List.reverse_singleton, List.singleton_append,
    Nat.ofDigits_cons]
  ring

/-- Digit strings of one length are told apart by their numbers. -/
theorem value_inj (w : Nat) (hw : 0 < w) (xs ys : List Nat) (hl : xs.length = ys.length)
    (hx : ∀ d ∈ xs, d < 2^w) (hy : ∀ d ∈ ys, d < 2^w) (hv : value w xs = value w ys) : xs = ys := by
  have hb : 1 < 2^w := Nat.one_lt_two_pow (by omega)
  have hrev : xs.reverse = ys.reverse := Nat.ofDigits_inj_of_len_eq hb (by simpa using hl)
    (fun d hd => hx d (by simpa using hd)) (fun d hd => hy d (by simpa using hd)) hv
  simpa using congrArg List.reverse hrev

/-- Shifting a digit into an accumulator that keeps its low `w+bits` bits or more. -/
theorem feed (w bits k acc d : Nat) (hd : d < 2^w) (hk : bits+w ≤ k) :
    (((acc <<< w) ||| d) &&& (2^k-1)) % 2^(bits+w) = acc % 2^bits*2^w+d := by
  rw [Nat.and_two_pow_sub_one_eq_mod, Nat.mod_mod_of_dvd _ (Nat.pow_dvd_pow 2 hk),
    ← Nat.shiftLeft_add_eq_or_of_lt hd, Nat.shiftLeft_eq, Nat.add_comm bits w, Nat.pow_add,
    Nat.mod_mul]
  have hlow : (acc*2^w+d) % 2^w = d := by
    rw [Nat.mul_comm, Nat.mul_add_mod, Nat.mod_eq_of_lt hd]
  have hhigh : (acc*2^w+d)/2^w = acc := by
    rw [Nat.mul_comm, Nat.mul_add_div (by positivity), Nat.div_eq_of_lt hd, Nat.add_zero]
  rw [hlow, hhigh]
  ring

/-- Taking the top `w` of the `b+w` pending bits leaves the low `b`. -/
theorem drain (w b acc : Nat) :
    acc % 2^(b+w) = (acc >>> b &&& (2^w-1))*2^b+acc % 2^b := by
  rw [Nat.and_two_pow_sub_one_eq_mod, Nat.shiftRight_eq_div_pow, Nat.pow_add, Nat.mod_mul]
  ring

/-- Padding the pending bits on the right up to a full digit. -/
theorem pad (w bits acc : Nat) (h : bits ≤ w) :
    (acc <<< (w-bits)) &&& (2^w-1) = acc % 2^bits*2^(w-bits) := by
  have hw : w = bits+(w-bits) := by omega
  rw [Nat.and_two_pow_sub_one_eq_mod, Nat.shiftLeft_eq]
  conv_lhs => rw [hw, Nat.pow_add, Nat.add_sub_cancel_left]
  rw [Nat.mul_mod_mul_right]

end Noxipher.Radix
