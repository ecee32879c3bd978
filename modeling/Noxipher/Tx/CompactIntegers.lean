import Noxipher.Tx.ScalarFields

namespace Noxipher

open PrefixCode

/-- The forms of a SCALE compact integer; the last has a count of its bytes. -/
inductive ScaleForm where
  | single
  | double
  | quad
  | big (count : Nat)
  deriving DecidableEq

namespace ScaleForm

/-- The two low bits of the first byte. -/
def mode : ScaleForm → Nat
  | single => 0
  | double => 1
  | quad => 2
  | big _ => 3

/-- The numbers that a form can hold; six bits hold the count, from four. -/
def Holds : ScaleForm → Nat → Prop
  | single, n => n < 2^6
  | double, n => n < 2^14
  | quad, n => n < 2^30
  | big count, n => 4 ≤ count ∧ count < 4+2^6 ∧ n < 256^count

def width : ScaleForm → Nat
  | single => 1
  | double => 2
  | quad => 4
  | big count => count+1

/-- The mode below the number, or below the count in front of the number. -/
def write : ScaleForm → Nat → Bytes
  | single, n => leBytes 1 (4*n)
  | double, n => leBytes 2 (4*n+1)
  | quad, n => leBytes 4 (4*n+2)
  | big count, n => leBytes 1 (4*(count-4)+3)++leBytes count n

@[simp] theorem write_length (form : ScaleForm) (n : Nat) : (form.write n).length = form.width := by
  cases form <;> simp [write, width, Nat.add_comm]

theorem write_mode (form : ScaleForm) (n : Nat) : leValue (form.write n) % 4 = form.mode := by
  cases form with
  | big count =>
    rw [write, leValue_append, leValue_leBytes, leBytes_length]
    simp only [mode]
    omega
  | single | double | quad =>
    rw [write, leValue_leBytes]
    simp only [mode]
    omega

end ScaleForm

theorem byteOf_returns {n : Nat} (h : n < 256) : byteOf n = .ok (leBytes 1 n) := by
  rw [byteOf, if_pos (by omega)]
  rfl

theorem structPack_returns {n val : Nat} (h : val < 256^n) : structPack n val = .ok (leBytes n val) := by
  have hcast : ((val : Nat) : Int) < 256^n := by exact_mod_cast h
  rw [structPack, if_pos ⟨by omega, hcast⟩]
  rfl

/-- The loop writes as many bytes as the number needs. -/
theorem shiftOut_spec (fuel val : Nat) (h : val < 256^fuel) :
    ∃ count, shiftOut fuel val = leBytes count val ∧ val < 256^count ∧ ∀ k, val < 256^k → count ≤ k := by
  induction fuel generalizing val with
  | zero => exact ⟨0, rfl, h, fun k _ => Nat.zero_le k⟩
  | succ fuel ih =>
    by_cases hpos : val > 0
    · obtain ⟨count, hout, hlt, hmin⟩ := ih (val/256) (by rw [pow_succ] at h; omega)
      have hbyte : UInt8.ofNat (val % 256) = UInt8.ofNat val := by
        apply UInt8.toNat_inj.mp
        rw [UInt8.toNat_ofNat', UInt8.toNat_ofNat', Nat.mod_mod]
      refine ⟨count+1, ?_, by rw [pow_succ]; omega, ?_⟩
      · rw [shiftOut, if_pos hpos, hout, hbyte, leBytes]
      · intro k hk
        cases k with
        | zero => omega
        | succ k =>
          rw [pow_succ] at hk
          have hless := hmin k (by omega)
          omega
    · refine ⟨0, ?_, by omega, fun k _ => Nat.zero_le k⟩
      rw [shiftOut, if_neg hpos]
      rfl

/-- The big-integer mode returns when its count fits six bits. -/
theorem bigMode_returns_iff {count : Nat} (hfour : 4 ≤ count) (out : Bytes) :
    (∃ x, gather [byteOf (((count : Int)-4)*4+3), .ok out] = .ok x) ↔ count < 4+2^6 := by
  rw [gather_returns_iff]
  simp only [List.forall_mem_cons, List.not_mem_nil, false_implies, implies_true, and_true, Except.ok.injEq,
    exists_eq', byteOf]
  split_ifs with hfits
  · exact iff_of_true ⟨_, rfl⟩ (by omega)
  · exact iff_of_false (by simp) (by omega)

/-- From 2^30 on the loop needs at least four bytes. -/
theorem count_ge_four {count n : Nat} (hbig : 1073741824 ≤ n) (h : n < 256^count) : 4 ≤ count := by
  by_contra hshort
  have hle : 256^count ≤ 256^3 := Nat.pow_le_pow_right (by decide) (by omega)
  omega

/-- A number in range is written in the narrowest form that holds it. -/
theorem encodeScaleInt_form (n : Nat) (h : n < 256^67) :
    ∃ form : ScaleForm, form.Holds n ∧ encodeScaleInt n = .ok (form.write n) ∧
      ∀ other : ScaleForm, other.Holds n → form.width ≤ other.width := by
  unfold encodeScaleInt
  split_ifs with hsingle hdouble hquad
  · refine ⟨.single, by simp only [ScaleForm.Holds]; omega, ?_, ?_⟩
    · have harg : (n : Int)*4 = ((4*n : Nat) : Int) := by push_cast; ring
      rw [harg, byteOf_returns (by omega)]
      rfl
    · intro other _
      cases other <;> simp only [ScaleForm.width] <;> omega
  · refine ⟨.double, by simp only [ScaleForm.Holds]; omega, ?_, ?_⟩
    · have harg : (n : Int)*4+1 = ((4*n+1 : Nat) : Int) := by push_cast; ring
      rw [harg, structPack_returns (by omega)]
      rfl
    · intro other hother
      cases other <;> simp only [ScaleForm.width, ScaleForm.Holds] at hother ⊢ <;> omega
  · refine ⟨.quad, by simp only [ScaleForm.Holds]; omega, ?_, ?_⟩
    · have harg : (n : Int)*4+2 = ((4*n+2 : Nat) : Int) := by push_cast; ring
      rw [harg, structPack_returns (by omega)]
      rfl
    · intro other hother
      cases other <;> simp only [ScaleForm.width, ScaleForm.Holds] at hother ⊢ <;> omega
  · obtain ⟨count, hout, hlt, hmin⟩ := shiftOut_spec _ n (shiftOut_fuel n)
    have hfour : 4 ≤ count := count_ge_four (by omega) hlt
    have hcount : count ≤ 67 := hmin 67 h
    refine ⟨.big count, ⟨hfour, by omega, hlt⟩, ?_, ?_⟩
    · have harg : ((count : Int)-4)*4+3 = ((4*(count-4)+3 : Nat) : Int) := by push_cast [hfour]; ring
      rw [Int.toNat_natCast, hout]
      dsimp only
      rw [leBytes_length, harg, byteOf_returns (by omega)]
      simp [gather, ScaleForm.write]
    · intro other hother
      cases other with
      | big k =>
        have hless := hmin k hother.2.2
        simp only [ScaleForm.width]
        omega
      | single | double | quad =>
        simp only [ScaleForm.Holds] at hother
        omega

/-- The largest number of bytes holds 536 bits. -/
theorem byteRange : (256 : Int)^67 = 2^536 := by
  rw [show (256 : Int) = 2^8 by rfl, ← pow_mul]

theorem encodeScaleInt_returns_iff {n : Int} : (∃ x, encodeScaleInt n = .ok x) ↔ 0 ≤ n ∧ n < 2^536 := by
  rw [← byteRange]
  constructor
  · intro ⟨x, hx⟩
    have hlow := (encodeScaleInt_ok hx).1
    obtain ⟨m, rfl⟩ := Int.eq_ofNat_of_zero_le hlow
    refine ⟨hlow, ?_⟩
    by_contra hlarge
    have hbig : 256^67 ≤ m := by exact_mod_cast not_lt.mp hlarge
    have hquad : 1073741824 ≤ m := by
      calc 1073741824 ≤ 256^4 := by decide
        _ ≤ 256^67 := Nat.pow_le_pow_right (by decide) (by decide)
        _ ≤ m := hbig
    obtain ⟨count, hout, hlt, -⟩ := shiftOut_spec _ m (shiftOut_fuel m)
    have hcount : 67 < count := (Nat.pow_lt_pow_iff_right (by decide)).mp (lt_of_le_of_lt hbig hlt)
    rw [encodeScaleInt, if_neg (by omega), if_neg (by omega), if_neg (by omega), Int.toNat_natCast, hout] at hx
    dsimp only at hx
    rw [leBytes_length] at hx
    have hfits := (bigMode_returns_iff (by omega) (leBytes count m)).mp ⟨x, hx⟩
    omega
  · intro ⟨hlow, hhigh⟩
    obtain ⟨m, rfl⟩ := Int.eq_ofNat_of_zero_le hlow
    obtain ⟨form, -, hx, -⟩ := encodeScaleInt_form m (by exact_mod_cast hhigh)
    exact ⟨_, hx⟩

/-- Compact integers are written for all numbers of 536 bits and no others, in the narrowest form that holds the
number, and can be told apart whatever is written after them. -/
theorem compact_integers :
    (∀ n : Int, (∃ x, encodeScaleInt n = .ok x) ↔ 0 ≤ n ∧ n < 2^536) ∧
    (∀ (m n : Int) (x y s t : Bytes), encodeScaleInt m = .ok x → encodeScaleInt n = .ok y → x++s = y++t →
      m = n ∧ s = t) ∧
    (∀ (n : Nat) (x : Bytes), encodeScaleInt n = .ok x →
      ∃ form : ScaleForm, form.Holds n ∧ x = form.write n ∧ leValue x % 4 = form.mode ∧
        ∀ other : ScaleForm, other.Holds n → x.length ≤ other.width) := by
  refine ⟨fun n => encodeScaleInt_returns_iff, ?_, ?_⟩
  · intro m n x y s t hm hn he
    exact encodeScaleInt_splits m n x y s t trivial hm hn he
  · intro n x hx
    have hrange := (encodeScaleInt_returns_iff.mp ⟨x, hx⟩).2
    rw [← byteRange] at hrange
    obtain ⟨form, hholds, hform, hnarrow⟩ := encodeScaleInt_form n (by exact_mod_cast hrange)
    rw [hx] at hform
    cases hform
    refine ⟨form, hholds, rfl, form.write_mode n, ?_⟩
    intro other hother
    rw [ScaleForm.write_length]
    exact hnarrow other hother

end Noxipher
