import Noxipher.Crypto.Fields
import Mathlib.Data.Nat.Log
import Mathlib.Tactic.Ring

namespace Noxipher

/-- Right-to-left binary exponentiation; the fuel bounds the bits still to read. -/
def powLoop (modulus : Nat) : Nat → Nat → Nat → Nat → Nat
  | 0, _, _, acc => acc
  | fuel+1, base, e, acc =>
    powLoop modulus fuel (base*base % modulus) (e/2) (if e % 2 = 1 then acc*base % modulus else acc)

/-- `pow(base, exponent, modulus)` -/
def powMod (base exponent modulus : Nat) : Nat :=
  powLoop modulus (exponent.log2+1) base exponent 1 % modulus

theorem powLoop_mod (modulus fuel base e acc : Nat) (h : e < 2^fuel) :
    powLoop modulus fuel base e acc % modulus = acc*base^e % modulus := by
  induction fuel generalizing base e acc with
  | zero =>
    have he : e = 0 := by simpa using h
    simp [powLoop, he]
  | succ fuel ih =>
    have hq : e/2 < 2^fuel := by
      rw [pow_succ] at h
      omega
    have hsquare (a : Nat) : a*(base*base % modulus)^(e/2) % modulus = a*(base*base)^(e/2) % modulus := by
      rw [Nat.mul_mod, ← Nat.pow_mod, ← Nat.mul_mod]
    simp only [powLoop]
    rw [ih _ _ _ hq, hsquare]
    by_cases hb : e % 2 = 1
    · have hpow : base^e = base*(base*base)^(e/2) := by
        have hs : e = 2*(e/2)+1 := by omega
        calc base^e = base^(2*(e/2)+1) := by rw [← hs]
          _ = base*(base*base)^(e/2) := by rw [pow_succ, pow_mul, pow_two]; ring
      rw [if_pos hb, Nat.mul_mod, Nat.mod_mod, ← Nat.mul_mod, hpow, mul_assoc]
    · have hpow : base^e = (base*base)^(e/2) := by
        have hs : e = 2*(e/2) := by omega
        calc base^e = base^(2*(e/2)) := by rw [← hs]
          _ = (base*base)^(e/2) := by rw [pow_mul, pow_two]
      rw [if_neg hb, hpow]

theorem powMod_eq (base exponent modulus : Nat) :
    powMod base exponent modulus = base^exponent % modulus := by
  rw [powMod, powLoop_mod _ _ _ _ _ Nat.lt_log2_self, one_mul]

namespace FieldElement

variable {m : Nat} [NeZero m]

instance : Add (FieldElement m) := ⟨fun x y => ofNat (x.value+y.value)⟩

instance : Sub (FieldElement m) := ⟨fun x y => ofInt (x.value-y.value)⟩

instance : Mul (FieldElement m) := ⟨fun x y => ofNat (x.value*y.value)⟩

/-- The inverse comes from Fermat's little theorem. -/
instance : Div (FieldElement m) := ⟨fun x y => ofNat (x.value*powMod y.value (m-2) m)⟩

instance : Pow (FieldElement m) Nat := ⟨fun x exponent => ofNat (powMod x.value exponent m)⟩

end FieldElement

/-- A point of the JubJub curve in twisted Edwards coordinates. -/
structure JubJubPoint where
  u : Fr
  v : Fr
  deriving DecidableEq

namespace JubJubPoint

def D : Fr := FieldElement.ofNat 0x2A9318E74BFA2B48F5FD9207E6BD7FD4292D7F6D37579D2601065FD6D6343EB1

def A : Fr := FieldElement.ofInt (-1)

def identity : JubJubPoint := ⟨FieldElement.ofNat 0, FieldElement.ofNat 1⟩

def generator : JubJubPoint :=
  ⟨FieldElement.ofNat 0x62EDCBB8BF3787C88B0F03DDD60A8187CAF55D1B29BF81AFE4B3D35DF1A7ADFE, FieldElement.ofNat 11⟩

def add (p q : JubJubPoint) : JubJubPoint :=
  let common := D*p.u*q.u*p.v*q.v
  let new_u := (p.u*q.v+p.v*q.u)/(FieldElement.ofNat 1+common)
  let new_v := (p.v*q.v+p.u*q.u)/(FieldElement.ofNat 1-common)
  ⟨new_u, new_v⟩

/-- `while n > 0`: double-and-add from the lowest bit of the scalar. -/
def mulLoop : Nat → Nat → JubJubPoint → JubJubPoint → JubJubPoint
  | 0, _, res, _ => res
  | fuel+1, n, res, temp =>
    if n = 0 then res
    else mulLoop fuel (n/2) (if n % 2 = 1 then res.add temp else res) (temp.add temp)

/-- Fuel beyond the number of bits changes nothing. -/
theorem mulLoop_fuel (fuel extra n : Nat) (res temp : JubJubPoint) (h : n < 2^fuel) :
    mulLoop (fuel+extra) n res temp = mulLoop fuel n res temp := by
  induction fuel generalizing n res temp with
  | zero =>
    have hn : n = 0 := by simpa using h
    cases extra <;> simp [mulLoop, hn]
  | succ fuel ih =>
    have hq : n/2 < 2^fuel := by
      rw [pow_succ] at h
      omega
    rw [Nat.succ_add]
    simp only [mulLoop, ih (n/2) _ _ hq]

def mul (p : JubJubPoint) (scalar : EmbeddedFr) : JubJubPoint :=
  mulLoop (scalar.value.log2+1) scalar.value identity p

/-- The v coordinate in little endian, with the lowest bit of u in the top bit. -/
def toBytes (p : JubJubPoint) : Bytes :=
  let v_bytes := p.v.toBytes
  if (p.u.toBytes.getD 0 0) &&& 1 ≠ 0 then v_bytes.set 31 (v_bytes.getD 31 0 ||| 0x80) else v_bytes

@[simp] theorem toBytes_length (p : JubJubPoint) : p.toBytes.length = 32 := by
  unfold toBytes
  split_ifs <;> simp

end JubJubPoint

/-- The order of the JubJub subgroup. -/
def JUBJUB_ORDER : Nat := 0x0E7DB4EA6533AFA906673B0101343B00A6682093CCC81082D0970E5ED6F72CB7

/-- Pedersen commitment `G^randomness * H^value`, with `H = G+G` as the code has it. -/
def computeBindingCommitment (randomness : Bytes) (value : Int) : Bytes :=
  let r_scalar : EmbeddedFr := FieldElement.fromLeBytes randomness
  let g := JubJubPoint.generator
  let commitment := g.mul r_scalar
  if value = 0 then commitment.toBytes
  else
    let h := g.add g
    if value > 0 then
      let v_scalar : EmbeddedFr := FieldElement.ofNat value.natAbs
      (commitment.add (h.mul v_scalar)).toBytes
    else
      let neg_v : EmbeddedFr := FieldElement.ofNat (JUBJUB_ORDER-value.natAbs % JUBJUB_ORDER)
      (commitment.add (h.mul neg_v)).toBytes

@[simp] theorem computeBindingCommitment_length (randomness : Bytes) (value : Int) :
    (computeBindingCommitment randomness value).length = 32 := by
  unfold computeBindingCommitment
  dsimp only
  split_ifs <;> simp

end Noxipher
