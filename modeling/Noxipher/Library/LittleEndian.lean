import Mathlib.Tactic.Common
import Mathlib.Tactic.Ring

namespace Noxipher

abbrev Bytes := List UInt8

/-- The low `n` bytes of `v`, least significant first. -/
def leBytes : Nat → Nat → Bytes
  | 0, _ => []
  | n+1, v => UInt8.ofNat v :: leBytes n (v/256)

def leValue : Bytes → Nat
  | [] => 0
  | b::bs => b.toNat + 256*leValue bs

@[simp] theorem leBytes_length (n v : Nat) : (leBytes n v).length = n := by
  induction n generalizing v with
  | zero => rfl
  | succ n ih => simp [leBytes, ih]

theorem leValue_lt (bs : Bytes) : leValue bs < 256^bs.length := by
  induction bs with
  | nil => simp [leValue]
  | cons b bs ih =>
    have hb : b.toNat < 256 := b.toNat_lt
    simp only [leValue, List.length_cons, Nat.pow_succ]
    omega

theorem leValue_leBytes (n v : Nat) : leValue (leBytes n v) = v % 256^n := by
  induction n generalizing v with
  | zero => simp [leBytes, leValue, Nat.mod_one]
  | succ n ih =>
    have hpow : 256^(n+1) = 256*256^n := by ring
    simp only [leBytes, leValue, ih, UInt8.toNat_ofNat']
    rw [hpow, Nat.mod_mul]

theorem leValue_leBytes_of_lt (n v : Nat) (h : v < 256^n) : leValue (leBytes n v) = v := by
  rw [leValue_leBytes, Nat.mod_eq_of_lt h]

theorem leValue_append (xs ys : Bytes) : leValue (xs++ys) = leValue xs+256^xs.length*leValue ys := by
  induction xs with
  | nil => simp [leValue]
  | cons x xs ih =>
    rw [List.cons_append, leValue, ih, leValue, List.length_cons]
    ring

theorem leBytes_leValue (bs : Bytes) : leBytes bs.length (leValue bs) = bs := by
  induction bs with
  | nil => rfl
  | cons b bs ih =>
    have hb : b.toNat < 256 := b.toNat_lt
    have hlow : UInt8.ofNat (b.toNat+256*leValue bs) = b := by
      apply UInt8.toNat_inj.mp
      rw [UInt8.toNat_ofNat']
      omega
    have hhigh : (b.toNat+256*leValue bs)/256 = leValue bs := by omega
    rw [List.length_cons, leValue, leBytes, hlow, hhigh, ih]

theorem leBytes_getD (n i v : Nat) (h : i < n) : (leBytes n v).getD i 0 = UInt8.ofNat (v/256^i) := by
  induction n generalizing i v with
  | zero => omega
  | succ n ih =>
    cases i with
    | zero => simp [leBytes]
    | succ i =>
      have hpow : v/256^(i+1) = v/256/256^i := by rw [Nat.div_div_eq_div_mul, Nat.pow_succ']
      rw [leBytes, List.getD_cons_succ, ih i (v/256) (by omega), hpow]

/-- A byte that grows in place adds its share to the number. -/
theorem leValue_set (bs : Bytes) (i k : Nat) (b : UInt8) (h : i < bs.length)
    (hb : b.toNat = (bs.getD i 0).toNat+k) : leValue (bs.set i b) = leValue bs+256^i*k := by
  induction bs generalizing i with
  | nil => exact absurd h (Nat.not_lt_zero i)
  | cons c bs ih =>
    cases i with
    | zero =>
      rw [List.getD_cons_zero] at hb
      rw [List.set_cons_zero, leValue, leValue, hb]
      ring
    | succ i =>
      rw [List.getD_cons_succ] at hb
      rw [List.set_cons_succ, leValue, leValue, ih i (by simpa using h) hb]
      ring

/-- Bytes of one length are told apart by their numbers. -/
theorem leValue_inj {xs ys : Bytes} (hlength : xs.length = ys.length) (h : leValue xs = leValue ys) : xs = ys := by
  rw [← leBytes_leValue xs, ← leBytes_leValue ys, hlength, h]

theorem leValue_zeros (bs : Bytes) (n : Nat) : leValue (bs++List.replicate n 0) = leValue bs := by
  have hzero : leValue (List.replicate n 0) = 0 := by
    induction n with
    | zero => rfl
    | succ n ih =>
      rw [List.replicate_succ, leValue, ih]
      rfl
  rw [leValue_append, hzero, Nat.mul_zero, Nat.add_zero]

/-- Bytes of any length are told apart by their numbers up to zeros at the end. -/
theorem leValue_eq_iff_padded {xs ys : Bytes} {n : Nat} (hx : xs.length ≤ n) (hy : ys.length ≤ n) :
    leValue xs = leValue ys ↔
      xs++List.replicate (n-xs.length) 0 = ys++List.replicate (n-ys.length) 0 := by
  constructor
  · intro h
    apply leValue_inj
    · simp only [List.length_append, List.length_replicate]
      omega
    · rw [leValue_zeros, leValue_zeros, h]
  · intro h
    rw [← leValue_zeros xs (n-xs.length), h, leValue_zeros]

end Noxipher
