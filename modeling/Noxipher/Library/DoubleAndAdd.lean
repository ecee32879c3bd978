import Mathlib.Tactic.Ring

namespace Noxipher

/-- Double-and-add from the lowest bit; the fuel bounds the bits still to read. -/
def doubleAndAdd {α : Type} (add : α → α → α) : Nat → Nat → α → α → α
  | 0, _, res, _ => res
  | fuel+1, n, res, temp =>
    if n = 0 then res
    else doubleAndAdd add fuel (n/2) (if n % 2 = 1 then add res temp else res) (add temp temp)

/-- Where the addition stands for that of a monoid, the loop adds a multiple to what was there. -/
theorem doubleAndAdd_stands {α G : Type} [AddCommMonoid G] {add : α → α → α} {R : α → G → Prop}
    (hadd : ∀ {p q : α} {P Q : G}, R p P → R q Q → R (add p q) (P+Q)) (fuel n : Nat) {res temp : α} {S T : G}
    (hn : n < 2^fuel) (hres : R res S) (htemp : R temp T) : R (doubleAndAdd add fuel n res temp) (S+n • T) := by
  induction fuel generalizing n res temp S T with
  | zero =>
    have h0 : n = 0 := by simpa using hn
    rw [h0, zero_nsmul, add_zero]
    exact hres
  | succ fuel ih =>
    by_cases h0 : n = 0
    · rw [doubleAndAdd, if_pos h0, h0, zero_nsmul, add_zero]
      exact hres
    have hq : n/2 < 2^fuel := by
      rw [pow_succ] at hn
      omega
    rw [doubleAndAdd, if_neg h0]
    by_cases hb : n % 2 = 1
    · rw [if_pos hb]
      have h := ih (n/2) hq (hadd hres htemp) (hadd htemp htemp)
      have hsplit : S+n • T = S+T+(n/2) • (T+T) := by
        have hs : n = 1+2*(n/2) := by omega
        conv_lhs => rw [hs, add_nsmul, one_nsmul, mul_comm, mul_nsmul', two_nsmul]
        rw [add_assoc]
      rwa [hsplit]
    · rw [if_neg hb]
      have h := ih (n/2) hq hres (hadd htemp htemp)
      have hsplit : S+n • T = S+(n/2) • (T+T) := by
        have hs : n = 2*(n/2) := by omega
        conv_lhs => rw [hs, mul_comm, mul_nsmul', two_nsmul]
      rwa [hsplit]

end Noxipher
