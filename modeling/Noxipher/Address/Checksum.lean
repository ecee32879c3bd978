import Noxipher.Address.Bech32m
import Noxipher.Library.XorFold
import Mathlib.Tactic.NormNum

namespace Noxipher.Bech32m

/-- The feedback terms selected by the five bits shifted out. -/
def taps (top : Nat) : Nat :=
  (if top.testBit 0 then 0x3B6A57B2 else 0) ^^^ (if top.testBit 1 then 0x26508E6D else 0) ^^^
  (if top.testBit 2 then 0x1EA119FA else 0) ^^^ (if top.testBit 3 then 0x3D4233DD else 0) ^^^
  (if top.testBit 4 then 0x2A1462B3 else 0)

theorem polymodStep_eq (chk v : Nat) :
    polymodStep chk v = (chk &&& 0x1FFFFFF) <<< 5 ^^^ v ^^^ taps (chk >>> 25) := by
  have hr : List.range 5 = [0, 1, 2, 3, 4] := rfl
  simp only [polymodStep, hr, List.foldl_cons, List.foldl_nil, GENERATOR, List.getD_cons_zero,
    List.getD_cons_succ, taps, Nat.xor_assoc]

theorem taps_xor (a b : Nat) : taps (a ^^^ b) = taps a ^^^ taps b := by
  simp only [taps, Nat.testBit_xor, XorFold.select_xor]
  ac_rfl

theorem polymodStep_linear : XorFold.Linear polymodStep := by
  intro a b v w
  simp only [polymodStep_eq, Nat.and_xor_distrib_right, Nat.shiftLeft_xor_distrib,
    Nat.shiftRight_xor_distrib, taps_xor]
  ac_rfl

theorem taps_lt (top : Nat) : taps top < 2^30 := by
  have hsel (b : Bool) (g : Nat) (hg : g < 2^30) : (if b then g else 0) < 2^30 := by
    cases b
    · norm_num
    · exact hg
  unfold taps
  exact Nat.xor_lt_two_pow (Nat.xor_lt_two_pow (Nat.xor_lt_two_pow (Nat.xor_lt_two_pow
    (hsel _ _ (by norm_num)) (hsel _ _ (by norm_num))) (hsel _ _ (by norm_num)))
    (hsel _ _ (by norm_num))) (hsel _ _ (by norm_num))

theorem polymodStep_lt (chk v : Nat) (hv : v < 2^30) : polymodStep chk v < 2^30 := by
  have hlow : (chk &&& 0x1FFFFFF) <<< 5 < 2^30 := by
    have h := Nat.and_two_pow_sub_one_eq_mod chk 25
    norm_num at h
    rw [h, Nat.shiftLeft_eq]
    omega
  rw [polymodStep_eq]
  exact Nat.xor_lt_two_pow (Nat.xor_lt_two_pow hlow hv) (taps_lt _)

/-- While the register has room, a step appends a base-32 digit. -/
theorem polymodStep_small (chk v : Nat) (hc : chk < 2^25) (hv : v < 32) :
    polymodStep chk v = 32*chk+v := by
  have hand : chk &&& 0x1FFFFFF = chk := by
    have h := Nat.and_two_pow_sub_one_eq_mod chk 25
    norm_num at h
    rw [h]
    omega
  have htop : chk >>> 25 = 0 := by rw [Nat.shiftRight_eq_div_pow]; omega
  have htaps : taps 0 = 0 := by simp [taps]
  rw [polymodStep_eq, hand, htop, htaps, Nat.xor_zero, XorFold.shiftLeft_xor_of_lt 5 chk v hv]
  omega

/-- Six symbols leave an empty register holding the number they spell. -/
theorem foldl_six (c0 c1 c2 c3 c4 c5 : Nat) (h0 : c0 < 32) (h1 : c1 < 32) (h2 : c2 < 32)
    (h3 : c3 < 32) (h4 : c4 < 32) (h5 : c5 < 32) :
    [c0, c1, c2, c3, c4, c5].foldl polymodStep 0 =
      32*(32*(32*(32*(32*c0+c1)+c2)+c3)+c4)+c5 := by
  simp only [List.foldl_cons, List.foldl_nil]
  rw [polymodStep_small 0 c0 (by omega) h0, polymodStep_small _ c1 (by omega) h1,
    polymodStep_small _ c2 (by omega) h2, polymodStep_small _ c3 (by omega) h3,
    polymodStep_small _ c4 (by omega) h4, polymodStep_small _ c5 (by omega) h5]
  omega

theorem six_digits (p : Nat) (h : p < 2^30) :
    32*(32*(32*(32*(32*(p/2^25 % 32)+p/2^20 % 32)+p/2^15 % 32)+p/2^10 % 32)+p/2^5 % 32)+p % 32 = p := by
  omega

/-- The checksum as six explicit base-32 digits of the adjusted remainder. -/
theorem createChecksum_eq (hrp : List Char) (data : List Nat) :
    let poly := polymod (hrpExpand hrp ++ data ++ List.replicate 6 0) ^^^ BECH32M_CONST
    createChecksum hrp data = [poly/2^25 % 32, poly/2^20 % 32, poly/2^15 % 32, poly/2^10 % 32,
      poly/2^5 % 32, poly % 32] := by
  have hr : List.range 6 = [0, 1, 2, 3, 4, 5] := rfl
  have hmask (x : Nat) : x &&& 31 = x % 32 := Nat.and_two_pow_sub_one_eq_mod x 5
  simp only [createChecksum, hr, List.map_cons, List.map_nil, hmask, Nat.shiftRight_eq_div_pow]
  simp [List.replicate_succ]

theorem createChecksum_lt (hrp : List Char) (data : List Nat) :
    ∀ d ∈ createChecksum hrp data, d < 32 := by
  intro d hd
  rw [createChecksum_eq] at hd
  simp only [List.mem_cons, List.not_mem_nil, or_false] at hd
  omega

theorem createChecksum_length (hrp : List Char) (data : List Nat) :
    (createChecksum hrp data).length = 6 := by simp [createChecksum]

theorem hrpExpand_lt (hrp : List Char) (h : ∀ x ∈ hrp, x.toNat < 128) :
    ∀ v ∈ hrpExpand hrp, v < 2^30 := by
  intro v hv
  simp only [hrpExpand, List.mem_append, List.mem_map, List.mem_singleton] at hv
  rcases hv with (⟨x, hx, rfl⟩ | rfl) | ⟨x, hx, rfl⟩
  · have hlt := h x hx
    rw [Nat.shiftRight_eq_div_pow]
    omega
  · norm_num
  · have hmask : x.toNat &&& 31 = x.toNat % 32 := Nat.and_two_pow_sub_one_eq_mod _ 5
    omega

/-- The remainder that a checksum has to cancel: the run over the data and six zero symbols. -/
def remainder (hrp : List Char) (data : List Nat) : Nat := polymod (hrpExpand hrp ++ data ++ List.replicate 6 0)

theorem polymod_lt (hrp : List Char) (data : List Nat) (hh : ∀ x ∈ hrp, x.toNat < 128) (hd : ∀ d ∈ data, d < 32) :
    polymod (hrpExpand hrp ++ data) < 2^30 := by
  apply XorFold.foldl_lt polymodStep_lt _ (by norm_num)
  intro v hv
  rcases List.mem_append.mp hv with hv | hv
  · exact hrpExpand_lt hrp hh v hv
  · have := hd v hv
    omega

theorem remainder_lt (hrp : List Char) (data : List Nat) (hh : ∀ x ∈ hrp, x.toNat < 128) (hd : ∀ d ∈ data, d < 32) :
    remainder hrp data < 2^30 := by
  unfold remainder
  rw [List.append_assoc]
  apply polymod_lt hrp _ hh
  intro d hmem
  rcases List.mem_append.mp hmem with hmem | hmem
  · exact hd d hmem
  · rw [List.eq_of_mem_replicate hmem]
    norm_num

/-- Six symbols verify exactly when an empty register ends on the adjusted remainder. -/
theorem verifyChecksum_append (hrp : List Char) (data sum : List Nat) (hlen : sum.length = 6) :
    verifyChecksum hrp (data ++ sum) = true ↔ sum.foldl polymodStep 0 = remainder hrp data ^^^ BECH32M_CONST := by
  have hsplit := XorFold.foldl_split polymodStep polymodStep_linear sum (polymod (hrpExpand hrp ++ data))
  have hrem : (List.replicate 6 0).foldl polymodStep (polymod (hrpExpand hrp ++ data)) = remainder hrp data := by
    simp [remainder, polymod]
  have hrun : polymod (hrpExpand hrp ++ (data ++ sum)) = remainder hrp data ^^^ sum.foldl polymodStep 0 := by
    rw [hlen, hrem] at hsplit
    rw [← hsplit, ← List.append_assoc]
    simp [polymod]
  rw [verifyChecksum, decide_eq_true_iff, hrun]
  constructor
  · intro h
    rw [← h, ← Nat.xor_assoc, Nat.xor_self, Nat.zero_xor]
  · intro h
    rw [h, ← Nat.xor_assoc, Nat.xor_self, Nat.zero_xor]

/-- The computed checksum spells the adjusted remainder. -/
theorem foldl_createChecksum (hrp : List Char) (data : List Nat) (hh : ∀ x ∈ hrp, x.toNat < 128)
    (hd : ∀ d ∈ data, d < 32) :
    (createChecksum hrp data).foldl polymodStep 0 = remainder hrp data ^^^ BECH32M_CONST := by
  have hpoly : remainder hrp data ^^^ BECH32M_CONST < 2^30 :=
    Nat.xor_lt_two_pow (remainder_lt hrp data hh hd) (by norm_num [BECH32M_CONST])
  have hdigit (n : Nat) : n % 32 < 32 := Nat.mod_lt n (by norm_num)
  rw [createChecksum_eq, foldl_six _ _ _ _ _ _ (hdigit _) (hdigit _) (hdigit _) (hdigit _) (hdigit _) (hdigit _)]
  exact six_digits _ hpoly

/-- Appending the computed checksum makes the verification run end on the constant. -/
theorem verify_createChecksum (hrp : List Char) (data : List Nat) (hh : ∀ x ∈ hrp, x.toNat < 128)
    (hd : ∀ d ∈ data, d < 32) : verifyChecksum hrp (data ++ createChecksum hrp data) = true :=
  (verifyChecksum_append hrp data _ (createChecksum_length hrp data)).mpr (foldl_createChecksum hrp data hh hd)

/-- Six symbols are told apart by where they lead an empty register. -/
theorem foldl_six_inj {sum other : List Nat} (hlen : sum.length = 6) (hlen' : other.length = 6)
    (hsum : ∀ d ∈ sum, d < 32) (hother : ∀ d ∈ other, d < 32)
    (h : sum.foldl polymodStep 0 = other.foldl polymodStep 0) : sum = other := by
  match sum, other, hlen, hlen' with
  | [a0, a1, a2, a3, a4, a5], [b0, b1, b2, b3, b4, b5], _, _ =>
    simp only [List.mem_cons, List.not_mem_nil, or_false, forall_eq_or_imp, forall_eq] at hsum hother
    obtain ⟨ha0, ha1, ha2, ha3, ha4, ha5⟩ := hsum
    obtain ⟨hb0, hb1, hb2, hb3, hb4, hb5⟩ := hother
    rw [foldl_six a0 a1 a2 a3 a4 a5 ha0 ha1 ha2 ha3 ha4 ha5, foldl_six b0 b1 b2 b3 b4 b5 hb0 hb1 hb2 hb3 hb4 hb5] at h
    simp only [List.cons.injEq, and_true]
    omega

/-- No other six symbols verify. -/
theorem verifyChecksum_unique (hrp : List Char) (data sum : List Nat) (hlen : sum.length = 6)
    (hh : ∀ x ∈ hrp, x.toNat < 128) (hd : ∀ d ∈ data, d < 32) (hsum : ∀ d ∈ sum, d < 32)
    (h : verifyChecksum hrp (data ++ sum) = true) : sum = createChecksum hrp data := by
  have hfold := (verifyChecksum_append hrp data sum hlen).mp h
  rw [← foldl_createChecksum hrp data hh hd] at hfold
  exact foldl_six_inj hlen (createChecksum_length hrp data) hsum (createChecksum_lt hrp data) hfold

end Noxipher.Bech32m
