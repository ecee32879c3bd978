import Noxipher.Core.Errors
import Noxipher.Library.LittleEndian

namespace Noxipher

/-- The code points of the decimal zeros; nine digits follow each. -/
def decimalZeros : List Nat :=
  [0x30, 0x660, 0x6f0, 0x7c0, 0x966, 0x9e6, 0xa66, 0xae6, 0xb66, 0xbe6, 0xc66, 0xce6, 0xd66, 0xde6,
   0xe50, 0xed0, 0xf20, 0x1040, 0x1090, 0x17e0, 0x1810, 0x1946, 0x19d0, 0x1a80, 0x1a90, 0x1b50, 0x1bb0,
   0x1c40, 0x1c50, 0xa620, 0xa8d0, 0xa900, 0xa9d0, 0xa9f0, 0xaa50, 0xabf0, 0xff10, 0x104a0, 0x10d30,
   0x10d40, 0x11066, 0x110f0, 0x11136, 0x111d0, 0x112f0, 0x11450, 0x114d0, 0x11650, 0x116c0, 0x116d0,
   0x116da, 0x11730, 0x118e0, 0x11950, 0x11bf0, 0x11c50, 0x11d50, 0x11da0, 0x11f50, 0x16130, 0x16a60,
   0x16ac0, 0x16b50, 0x16d70, 0x1ccf0, 0x1d7ce, 0x1d7d8, 0x1d7e2, 0x1d7ec, 0x1d7f6, 0x1e140, 0x1e2f0,
   0x1e4f0, 0x1e5f1, 0x1e950, 0x1fbf0]

def decimalDigit (c : Char) : Option Nat :=
  (decimalZeros.find? (fun z => z ≤ c.toNat ∧ c.toNat < z+10)).map (c.toNat - ·)

/-- What `int` strips: the white space of C, and that of Unicode beyond ASCII. -/
def isSpace (c : Char) : Bool :=
  let n := c.toNat
  (9 ≤ n && n ≤ 13) || n = 32 || n = 133 || n = 160 || n = 5760 || (8192 ≤ n && n ≤ 8202) || n = 8232 || n = 8233 ||
    n = 8239 || n = 8287 || n = 12288

def strip (s : List Char) : List Char := ((s.dropWhile isSpace).reverse.dropWhile isSpace).reverse

/-- Decimal digits with single underscores between them. -/
def digitRun : List Char → Option (List Nat)
  | [] => none
  | [c] => (decimalDigit c).map ([·])
  | c :: '_' :: r => do
    let d ← decimalDigit c
    let ds ← digitRun r
    return d::ds
  | c::r => do
    let d ← decimalDigit c
    let ds ← digitRun r
    return d::ds

/-- `int(s)` in base ten; conversions of more than 4300 digits are refused. -/
def intOfStr (s : String) : Except PyError Int :=
  let body := strip s.toList
  let (negative, unsigned) := match body with
    | '-'::r => (true, r)
    | '+'::r => (false, r)
    | r => (false, r)
  match digitRun unsigned with
  | none => .error (.valueError ("invalid literal for int() with base 10: '" ++ s ++ "'"))
  | some ds =>
    if 4300 < ds.length then .error (.valueError "Exceeds the limit (4300 digits) for integer string conversion")
    else
      let n : Nat := ds.foldl (fun a d => 10*a+d) 0
      .ok (if negative then -n else n)

/-- A number as a JSON integer or as text. -/
inductive IntLike where
  | int (n : Int)
  | str (s : String)
  deriving DecidableEq, Repr

namespace IntLike

/-- `int(x)` -/
def toInt : IntLike → Except PyError Int
  | int n => .ok n
  | str s => intOfStr s

/-- Zero and the empty string are falsy. -/
def truthy : IntLike → Bool
  | int n => n ≠ 0
  | str s => s ≠ ""

@[simp] theorem toInt_int (n : Int) : (int n).toInt = .ok n := rfl

end IntLike

/-- `x or y` on a value that may be absent. -/
def orElse {α : Type} (truthy : α → Bool) : Option α → α → α
  | some a, b => if truthy a then a else b
  | none, b => b

def hexDigit (c : Char) : Option Nat :=
  if '0' ≤ c ∧ c ≤ '9' then some (c.toNat-48)
  else if 'a' ≤ c ∧ c ≤ 'f' then some (c.toNat-87)
  else if 'A' ≤ c ∧ c ≤ 'F' then some (c.toNat-55)
  else none

def isAsciiSpace (c : Char) : Bool := (9 ≤ c.toNat && c.toNat ≤ 13) || c.toNat = 32

/-- Pairs of hex digits, with ASCII white space allowed between the pairs. -/
def hexPairs : List Char → Option Bytes
  | [] => some []
  | [c] => if isAsciiSpace c then some [] else none
  | c::d::r =>
    if isAsciiSpace c then hexPairs (d::r)
    else match hexDigit c, hexDigit d with
      | some h, some l => (hexPairs r).map (UInt8.ofNat (16*h+l) :: ·)
      | _, _ => none

/-- `bytes.fromhex(s)` -/
def fromhex (s : String) : Except PyError Bytes :=
  match hexPairs s.toList with
  | some bs => .ok bs
  | none => .error (.valueError "non-hexadecimal number found in fromhex() arg")

def hexChar (n : Nat) : Char := if n < 10 then Char.ofNat (48+n) else Char.ofNat (87+n)

/-- `bs.hex()` -/
def hexOf (bs : Bytes) : String :=
  String.ofList (bs.flatMap (fun b => [hexChar (b.toNat/16), hexChar (b.toNat % 16)]))

theorem hexDigit_hexChar {n : Nat} (h : n < 16) : hexDigit (hexChar n) = some n ∧ isAsciiSpace (hexChar n) = false := by
  have hall : ∀ n < 16, hexDigit (hexChar n) = some n ∧ isAsciiSpace (hexChar n) = false := by decide
  exact hall n h

theorem mem_hexOf {bs : Bytes} {c : Char} (h : c ∈ (hexOf bs).toList) : ∃ n < 16, c = hexChar n := by
  simp only [hexOf, String.toList_ofList] at h
  obtain ⟨b, -, hb⟩ := List.mem_flatMap.mp h
  have hlt := b.toNat_lt
  simp only [List.mem_cons, List.not_mem_nil, or_false] at hb
  rcases hb with rfl | rfl
  · exact ⟨b.toNat/16, by omega, rfl⟩
  · exact ⟨b.toNat % 16, by omega, rfl⟩

theorem hexOf_length (bs : Bytes) : (hexOf bs).toList.length = 2*bs.length := by
  rw [hexOf, String.toList_ofList]
  induction bs with
  | nil => rfl
  | cons b bs ih =>
    rw [List.flatMap_cons, List.length_append, ih, List.length_cons]
    simp only [List.length_cons, List.length_nil]
    omega

/-- Bytes read back from their hex text. -/
@[simp] theorem fromhex_hexOf (bs : Bytes) : fromhex (hexOf bs) = .ok bs := by
  have hpairs : hexPairs (bs.flatMap (fun b => [hexChar (b.toNat/16), hexChar (b.toNat % 16)])) = some bs := by
    induction bs with
    | nil => rfl
    | cons b bs ih =>
      have hlt := b.toNat_lt
      obtain ⟨hhigh, hspace⟩ := hexDigit_hexChar (n := b.toNat/16) (by omega)
      obtain ⟨hlow, -⟩ := hexDigit_hexChar (n := b.toNat % 16) (by omega)
      have hbyte : 16*(b.toNat/16)+b.toNat % 16 = b.toNat := Nat.div_add_mod b.toNat 16
      rw [List.flatMap_cons, List.cons_append, List.cons_append, List.nil_append, hexPairs, hspace]
      simp only [hhigh, hlow, ih, hbyte, Option.map_some, UInt8.ofNat_toNat]
      rfl
  rw [fromhex, hexOf, String.toList_ofList, hpairs]

theorem not_space_of_hexDigit {c : Char} (h : (hexDigit c).isSome) : isAsciiSpace c = false := by
  have hrange : 48 ≤ c.toNat := by
    unfold hexDigit at h
    split_ifs at h with h0 ha hA
    · exact h0.1
    · exact le_trans (by decide : 48 ≤ 97) ha.1
    · exact le_trans (by decide : 48 ≤ 65) hA.1
    · cases h
  simp only [isAsciiSpace, Bool.or_eq_false_iff, Bool.and_eq_false_iff, decide_eq_false_iff_not]
  omega

/-- Hex digits in pairs are read as half as many bytes. -/
theorem hexPairs_digits (n : Nat) {s : List Char} (hlen : s.length = 2*n) (hdigits : ∀ c ∈ s, (hexDigit c).isSome) :
    ∃ bs, hexPairs s = some bs ∧ bs.length = n := by
  induction n generalizing s with
  | zero =>
    rw [List.eq_nil_of_length_eq_zero hlen]
    exact ⟨[], rfl, rfl⟩
  | succ n ih =>
    match s, hlen with
    | c::d::r, hlen =>
      have hrest : r.length = 2*n := by
        simp only [List.length_cons] at hlen
        omega
      obtain ⟨bs, hbs, hcount⟩ := ih hrest (fun x hx => hdigits x (by simp [hx]))
      have hc := hdigits c (by simp)
      have hd := hdigits d (by simp)
      obtain ⟨high, hhigh⟩ := Option.isSome_iff_exists.mp hc
      obtain ⟨low, hlow⟩ := Option.isSome_iff_exists.mp hd
      refine ⟨UInt8.ofNat (16*high+low)::bs, ?_, by simp [hcount]⟩
      rw [hexPairs, not_space_of_hexDigit hc]
      simp only [hhigh, hlow, hbs, Option.map_some]
      rfl

/-- A text that begins with "0x" is never read. -/
theorem fromhex_prefixed (s : String) :
    fromhex ("0x"++s) = .error (.valueError "non-hexadecimal number found in fromhex() arg") := by
  have hnone : hexPairs ("0x"++s).toList = none := by
    rw [String.toList_append]
    rfl
  rw [fromhex, hnone]

/-- The text "00" repeated 32 times. -/
def zeroHex : String := hexOf (List.replicate 32 0)

/-- `s.replace("0x", "")` -/
def removeHexPrefix : List Char → List Char
  | '0' :: 'x' :: r => removeHexPrefix r
  | c::r => c :: removeHexPrefix r
  | [] => []

/-- `s.lower()` on ASCII text. -/
def lower (s : List Char) : List Char := s.map Char.toLower

/-- `s.encode()` -/
def encodeStr (s : String) : Bytes := s.toUTF8.data.toList

theorem encodeStr_injective (s t : String) (h : encodeStr s = encodeStr t) : s = t := by
  apply String.toByteArray_inj.mp
  exact ByteArray.ext (Array.toList_inj.mp h)

end Noxipher
