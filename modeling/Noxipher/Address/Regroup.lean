import Noxipher.Address.Bech32m
import Noxipher.Library.Radix

namespace Noxipher.Bech32m

/-- The digits written so far and the pending bits spell the input read so far. -/
structure Regroup (frombits tobits : Nat) (seen : List Nat) (acc bits : Nat) (ret : List Nat) : Prop where
  count : frombits*seen.length = tobits*ret.length+bits
  number : Radix.value frombits seen = Radix.value tobits ret*2^bits+acc % 2^bits
  digits : ∀ d ∈ ret, d < 2^tobits

theorem Regroup.drainStep {f t : Nat} {seen : List Nat} {acc b : Nat} {ret : List Nat}
    (h : Regroup f t seen acc (b+t) ret) :
    Regroup f t seen acc b (ret ++ [acc >>> b &&& (2^t-1)]) := by
  refine ⟨?_, ?_, ?_⟩
  · have hc := h.count
    simp only [List.length_append, List.length_singleton, Nat.mul_add, Nat.mul_one]
    omega
  · have hn := h.number
    rw [Radix.drain t b acc, Nat.pow_add] at hn
    rw [hn, Radix.value_snoc]
    ring
  · intro d hd
    rcases List.mem_append.mp hd with hd | hd
    · exact h.digits d hd
    · rw [List.mem_singleton.mp hd, Nat.and_two_pow_sub_one_eq_mod]
      exact Nat.mod_lt _ (Nat.two_pow_pos t)

/-- The inner loop stops with less than one digit pending. -/
theorem drainBits_spec (f t : Nat) (ht : 0 < t) (seen : List Nat) (acc fuel bits : Nat) (ret : List Nat)
    (hfuel : bits ≤ fuel) (h : Regroup f t seen acc bits ret) :
    Regroup f t seen acc (drainBits t acc fuel bits ret).1 (drainBits t acc fuel bits ret).2 ∧
    (drainBits t acc fuel bits ret).1 < t := by
  induction fuel generalizing bits ret with
  | zero => exact ⟨h, by simp only [drainBits]; omega⟩
  | succ fuel ih =>
    simp only [drainBits]
    split_ifs with hb
    · have hsplit : bits = bits-t+t := by omega
      rw [hsplit] at h
      exact ih (bits-t) _ (by omega) h.drainStep
    · exact ⟨h, by omega⟩

theorem Regroup.feedStep {f t : Nat} {seen : List Nat} {acc bits : Nat} {ret : List Nat} (d : Nat)
    (hd : d < 2^f) (hb : bits < t) (h : Regroup f t seen acc bits ret) :
    Regroup f t (seen ++ [d]) ((acc <<< f ||| d) &&& (2^(f+t-1)-1)) (bits+f) ret := by
  refine ⟨?_, ?_, h.digits⟩
  · have hc := h.count
    simp only [List.length_append, List.length_singleton, Nat.mul_add, Nat.mul_one]
    omega
  · rw [Radix.value_snoc, h.number, Radix.feed f bits (f+t-1) acc d hd (by omega), Nat.pow_add]
    ring

/-- The whole pass over digits that fit never raises. -/
theorem convertLoop_spec (f t : Nat) (ht : 0 < t) (data seen : List Nat) (acc bits : Nat)
    (ret : List Nat) (hdata : ∀ d ∈ data, d < 2^f) (hb : bits < t) (h : Regroup f t seen acc bits ret) :
    ∃ acc' bits' ret', convertLoop f t data acc bits ret = .ok (acc', bits', ret') ∧ bits' < t ∧
      Regroup f t (seen ++ data) acc' bits' ret' := by
  induction data generalizing seen acc bits ret with
  | nil => exact ⟨acc, bits, ret, rfl, hb, by simpa using h⟩
  | cons d data ih =>
    have hd := hdata d (by simp)
    have hfit : d >>> f = 0 := by rw [Nat.shiftRight_eq_div_pow, Nat.div_eq_of_lt hd]
    obtain ⟨hdrain, hlt⟩ := drainBits_spec f t ht _ _ (bits+f) (bits+f) ret (by omega)
      (h.feedStep d hd hb)
    obtain ⟨acc', bits', ret', hrun, hb', hr⟩ := ih (seen ++ [d]) _ _ _
      (fun x hx => hdata x (by simp [hx])) hlt hdrain
    refine ⟨acc', bits', ret', ?_, hb', by simpa using hr⟩
    simpa only [convertLoop, hfit, ne_eq, not_true_eq_false, if_false] using hrun

theorem Regroup.start (f t : Nat) : Regroup f t [] 0 0 [] :=
  ⟨by simp, by simp, by simp⟩

/-- With padding the output spells the input followed by fewer zero bits than one digit. -/
theorem convertbits_pad (f t : Nat) (ht : 0 < t) (data : List Nat) (hdata : ∀ d ∈ data, d < 2^f) :
    ∃ out k, convertbits data f t true = .ok out ∧ k < t ∧ t*out.length = f*data.length+k ∧
      Radix.value t out = Radix.value f data*2^k ∧ ∀ d ∈ out, d < 2^t := by
  obtain ⟨acc, bits, ret, hrun, hb, hr⟩ := convertLoop_spec f t ht data [] 0 0 [] hdata ht
    (Regroup.start f t)
  have hcount := hr.count
  have hnumber := hr.number
  rw [List.nil_append] at hcount hnumber
  by_cases hz : bits = 0
  · refine ⟨ret, 0, ?_, ht, by omega, ?_, hr.digits⟩
    · simp [convertbits, hrun, hz, pure, Except.pure]
    · simp [hnumber, hz, Nat.mod_one]
  · refine ⟨ret ++ [acc <<< (t-bits) &&& (2^t-1)], t-bits, ?_, by omega, ?_, ?_, ?_⟩
    · simp [convertbits, hrun, hz, pure, Except.pure]
    · simp only [List.length_append, List.length_singleton, Nat.mul_add, Nat.mul_one]
      omega
    · have hpow : 2^t = 2^bits*2^(t-bits) := by rw [← Nat.pow_add]; congr 1; omega
      rw [Radix.value_snoc, Radix.pad t bits acc hb.le, hnumber, hpow]
      ring
    · intro d hd
      rcases List.mem_append.mp hd with hd | hd
      · exact hr.digits d hd
      · rw [List.mem_singleton.mp hd, Nat.and_two_pow_sub_one_eq_mod]
        exact Nat.mod_lt _ (Nat.two_pow_pos t)

/-- Without padding, digits that spell `out` and then `k` zero bits are read back as `out`. -/
theorem convertbits_unpad (f t k : Nat) (ht : 0 < t) (data out : List Nat) (hdata : ∀ d ∈ data, d < 2^f)
    (hout : ∀ d ∈ out, d < 2^t) (hkf : k < f) (hkt : k < t) (hlen : f*data.length = t*out.length+k)
    (hval : Radix.value f data = Radix.value t out*2^k) :
    convertbits data f t false = .ok out := by
  obtain ⟨acc, bits, ret, hrun, hb, hr⟩ := convertLoop_spec f t ht data [] 0 0 [] hdata ht
    (Regroup.start f t)
  have hcount := hr.count
  have hnumber := hr.number
  rw [List.nil_append] at hcount hnumber
  have hmod : bits = k := by
    have h := congrArg (· % t) (hcount.symm.trans hlen)
    simpa [Nat.mul_add_mod, Nat.mod_eq_of_lt hb, Nat.mod_eq_of_lt hkt] using h
  have hrlen : ret.length = out.length := by
    have h : t*ret.length = t*out.length := by omega
    exact Nat.eq_of_mul_eq_mul_left ht h
  have hpos : 0 < 2^k := Nat.two_pow_pos k
  have hacc : acc % 2^k = 0 := by
    have h := congrArg (· % 2^k) (hnumber.symm.trans hval)
    simpa [hmod, Nat.mul_comm _ (2^k), Nat.mul_add_mod] using h
  have hsame : Radix.value t ret = Radix.value t out := by
    have h : Radix.value t ret*2^k = Radix.value t out*2^k := by
      rw [← hval, hnumber, hmod, hacc, Nat.add_zero]
    exact Nat.eq_of_mul_eq_mul_right hpos h
  have hret := Radix.value_inj t ht ret out hrlen hr.digits hout hsame
  have hzero : acc <<< (t-bits) &&& (2^t-1) = 0 := by
    rw [Radix.pad t bits acc hb.le, hmod, hacc, Nat.zero_mul]
  have hguard : ¬ (f ≤ bits ∨ acc <<< (t-bits) &&& (2^t-1) ≠ 0) := by
    rw [hzero]
    omega
  simp only [convertbits, hrun, ok_bind, Bool.false_eq_true, if_false, if_neg hguard, hret, pure,
    Except.pure]

/-- Digits that are accepted without padding spell what is read and then less than one digit of zero bits. -/
theorem convertbits_unpad_ok {f t : Nat} (ht : 0 < t) {data out : List Nat} (hdata : ∀ d ∈ data, d < 2^f)
    (h : convertbits data f t false = .ok out) :
    (∀ d ∈ out, d < 2^t) ∧ ∃ k < f, f*data.length = t*out.length+k ∧ Radix.value f data = Radix.value t out*2^k := by
  obtain ⟨acc, bits, ret, hrun, hb, hr⟩ := convertLoop_spec f t ht data [] 0 0 [] hdata ht
    (Regroup.start f t)
  have hcount := hr.count
  have hnumber := hr.number
  rw [List.nil_append] at hcount hnumber
  simp only [convertbits, hrun, ok_bind, Bool.false_eq_true, if_false] at h
  split_ifs at h with hguard
  cases h
  push Not at hguard
  obtain ⟨hbits, hrest⟩ := hguard
  rw [Radix.pad t bits acc hb.le] at hrest
  have hzero : acc % 2^bits = 0 := (Nat.mul_eq_zero.mp hrest).resolve_right (by positivity)
  refine ⟨hr.digits, bits, hbits, hcount, ?_⟩
  rw [hnumber, hzero, Nat.add_zero]

/-- What was read without padding is written back by padding. -/
theorem convertbits_repad {f t : Nat} (hf : 0 < f) (ht : 0 < t) {data out : List Nat} (hdata : ∀ d ∈ data, d < 2^f)
    (h : convertbits data f t false = .ok out) : convertbits out t f true = .ok data := by
  obtain ⟨hout, k, hk, hlen, hval⟩ := convertbits_unpad_ok ht hdata h
  obtain ⟨back, k', hpad, hk', hlen', hval', hback⟩ := convertbits_pad t f hf out hout
  have hsame : k' = k := by
    have hmod : f*data.length+k' = f*back.length+k := by omega
    have hrest := congrArg (· % f) hmod
    simpa [Nat.mul_add_mod, Nat.mod_eq_of_lt hk, Nat.mod_eq_of_lt hk'] using hrest
  have hlength : back.length = data.length := by
    apply Nat.eq_of_mul_eq_mul_left hf
    omega
  have hdigits := Radix.value_inj f hf back data hlength hback hdata (by rw [hval', hval, hsame])
  rw [hpad, hdigits]

end Noxipher.Bech32m
