import Noxipher.Library.LittleEndian
import Mathlib.Tactic.NormNum

namespace Noxipher

/-- A residue in canonical form, as `FieldElement.__init__` leaves it. -/
structure FieldElement (modulus : Nat) where
  value : Nat
  isLt : value < modulus
  deriving DecidableEq

namespace FieldElement

@[ext] theorem ext {m : Nat} {x y : FieldElement m} (h : x.value = y.value) : x = y := by
  cases x
  cases y
  simp_all

variable {m : Nat} [NeZero m]

def ofNat (value : Nat) : FieldElement m := ⟨value % m, Nat.mod_lt _ (NeZero.pos m)⟩

/-- `FieldElement(value)`; the remainder of a negative integer is taken non-negative. -/
def ofInt (value : Int) : FieldElement m :=
  ⟨(value % m).toNat, by
    have hm : (0 : Int) < m := by exact_mod_cast NeZero.pos m
    have h0 := Int.emod_nonneg value (ne_of_gt hm)
    have h1 := Int.emod_lt_of_pos value hm
    omega⟩

def fromLeBytes (data : Bytes) : FieldElement m := ofNat (leValue data)

/-- `to_bytes(32)`: little endian. -/
def toBytes (x : FieldElement m) : Bytes := leBytes 32 x.value

omit [NeZero m] in
@[simp] theorem toBytes_length (x : FieldElement m) : x.toBytes.length = 32 := leBytes_length 32 x.value

/-- Reading back what a 256-bit field wrote gives the same element. -/
theorem fromLeBytes_toBytes (hm : m ≤ 256^32) (x : FieldElement m) : fromLeBytes x.toBytes = x := by
  apply ext
  have hx := x.isLt
  simp only [fromLeBytes, ofNat, toBytes]
  rw [leValue_leBytes_of_lt 32 x.value (by omega), Nat.mod_eq_of_lt hx]

theorem toBytes_injective (hm : m ≤ 256^32) (x y : FieldElement m) (h : x.toBytes = y.toBytes) : x = y := by
  rw [← fromLeBytes_toBytes hm x, h, fromLeBytes_toBytes hm y]

end FieldElement

/-- The BLS12-381 scalar field. -/
def Fr.MODULUS : Nat := 0x73EDA753299D7D483339D80809A1D80553BDA402FFFE5BFEFFFFFFFF00000001

/-- The JubJub scalar field. -/
def EmbeddedFr.MODULUS : Nat := 0x0E7DB4EA6533AFA906673B0101343B00A6682093CCC81082D0970E5ED6F72CB7

instance : NeZero Fr.MODULUS := ⟨by norm_num [Fr.MODULUS]⟩

instance : NeZero EmbeddedFr.MODULUS := ⟨by norm_num [EmbeddedFr.MODULUS]⟩

abbrev Fr := FieldElement Fr.MODULUS

abbrev EmbeddedFr := FieldElement EmbeddedFr.MODULUS

theorem Fr.modulus_le : Fr.MODULUS ≤ 256^32 := by norm_num [Fr.MODULUS]

@[simp] theorem Fr.fromLeBytes_toBytes (x : Fr) : FieldElement.fromLeBytes x.toBytes = x :=
  FieldElement.fromLeBytes_toBytes Fr.modulus_le x

end Noxipher
