import Noxipher.Library.PrefixCode
import Noxipher.Tx.Scale

namespace Noxipher

open PrefixCode

theorem byteOf_ok {n : Int} {x : Bytes} (h : byteOf n = .ok x) :
    0 ≤ n ∧ n < 256 ∧ x = [UInt8.ofNat n.toNat] := by
  unfold byteOf at h
  split_ifs at h with hn
  cases h
  exact ⟨hn.1, hn.2, rfl⟩

theorem structPack_ok {n : Nat} {val : Int} {x : Bytes} (h : structPack n val = .ok x) :
    0 ≤ val ∧ val < 256^n ∧ x = leBytes n val.toNat := by
  unfold structPack at h
  split_ifs at h with hv
  cases h
  exact ⟨hv.1, hv.2, rfl⟩

theorem structPack_length {n : Nat} {val : Int} {x : Bytes} (h : structPack n val = .ok x) : x.length = n := by
  rw [(structPack_ok h).2.2, leBytes_length]

theorem structPack_value {n : Nat} {val : Int} {x : Bytes} (h : structPack n val = .ok x) :
    (leValue x : Int) = val := by
  obtain ⟨h0, h1, rfl⟩ := structPack_ok h
  have hlt : val.toNat < 256^n := by
    have hcast : ((256^n : Nat) : Int) = 256^n := by push_cast; rfl
    omega
  rw [leValue_leBytes_of_lt n val.toNat hlt]
  omega

theorem structPack_splits (n : Nat) : Splits (fun _ _ => True) Eq (structPack n) := by
  apply splits_width n
  · intro a x ha
    exact structPack_length ha
  · intro a b x _ ha hb
    rw [← structPack_value ha, structPack_value hb]

theorem byteOf_splits : Splits (fun _ _ => True) Eq byteOf := by
  apply splits_width 1
  · intro a x ha
    rw [(byteOf_ok ha).2.2]
    rfl
  · intro a b x _ ha hb
    obtain ⟨ha0, ha1, rfl⟩ := byteOf_ok ha
    obtain ⟨hb0, hb1, hx⟩ := byteOf_ok hb
    have hv := congrArg UInt8.toNat (List.cons.inj hx).1
    rw [UInt8.toNat_ofNat', UInt8.toNat_ofNat'] at hv
    omega

theorem leValue_shiftOut (fuel val : Nat) (h : val < 256^fuel) : leValue (shiftOut fuel val) = val := by
  induction fuel generalizing val with
  | zero =>
    have hv : val = 0 := by simpa using h
    simp [shiftOut, leValue, hv]
  | succ fuel ih =>
    have hq : val/256 < 256^fuel := by
      rw [pow_succ] at h
      omega
    by_cases hv : val > 0
    · simp only [shiftOut, hv, if_true, leValue, ih _ hq, UInt8.toNat_ofNat']
      omega
    · have hz : val = 0 := by omega
      simp [shiftOut, leValue, hz]

/-- The fuel of the big-integer mode is enough for every value. -/
theorem shiftOut_fuel (val : Nat) : val < 256^(val.log2/8+1) := by
  have hlog : val < 2^(val.log2+1) := Nat.lt_log2_self
  have hle : val.log2+1 ≤ 8*(val.log2/8+1) := by omega
  calc val < 2^(val.log2+1) := hlog
    _ ≤ 2^(8*(val.log2/8+1)) := Nat.pow_le_pow_right (by decide) hle
    _ = 256^(val.log2/8+1) := by rw [pow_mul]; rfl

/-- The length of a compact integer, as its first byte tells it. -/
def compactLength (b : UInt8) : Nat :=
  match b.toNat % 4 with
  | 0 => 1
  | 1 => 2
  | 2 => 4
  | _ => b.toNat/4+5

/-- The integer a compact encoding stands for. -/
def compactValue (x : Bytes) : Nat :=
  if leValue x % 4 = 3 then leValue x.tail else leValue x/4

theorem leValue_mod4 (b : UInt8) (r : Bytes) : leValue (b::r) % 4 = b.toNat % 4 := by
  simp only [leValue]
  omega

/-- The encoding `x` of `val` can be read back, and its first byte tells its length. -/
def CompactForm (val : Int) (x : Bytes) : Prop :=
  0 ≤ val ∧ (compactValue x : Int) = val ∧ ∃ b r, x = b::r ∧ x.length = compactLength b

theorem compactForm_single {val : Int} {x : Bytes} (hs : val < 64) (h : byteOf (val*4) = .ok x) :
    CompactForm val x := by
  obtain ⟨h0, h1, rfl⟩ := byteOf_ok h
  have hb : (UInt8.ofNat (val*4).toNat).toNat = (val*4).toNat := by
    rw [UInt8.toNat_ofNat']
    omega
  have hm : (UInt8.ofNat (val*4).toNat).toNat % 4 = 0 := by omega
  refine ⟨by omega, ?_, _, [], rfl, ?_⟩
  · simp only [compactValue, leValue, hb]
    rw [if_neg (by omega)]
    omega
  · rw [compactLength, hm]
    rfl

/-- The two-byte and four-byte modes. -/
theorem compactForm_packed {val : Int} {x : Bytes} (mode : Nat) (hm : mode = 1 ∨ mode = 2)
    (h : structPack (2*mode) (val*4+mode) = .ok x) : CompactForm val x := by
  have hv := structPack_value h
  have hl := structPack_length h
  have h0 := (structPack_ok h).1
  cases x with
  | nil =>
    rw [List.length_nil] at hl
    omega
  | cons b r =>
    have hmod := leValue_mod4 b r
    have hb : b.toNat % 4 = mode := by omega
    refine ⟨by omega, ?_, b, r, rfl, ?_⟩
    · rw [compactValue, if_neg (by omega)]
      omega
    · rw [hl, compactLength, hb]
      rcases hm with rfl | rfl <;> rfl

/-- The big-integer mode: the head counts the bytes after it, from four. -/
theorem compactForm_big {val : Int} {head out : Bytes} (hbig : 1073741824 ≤ val)
    (hval : leValue out = val.toNat) (h : byteOf ((out.length-4)*4+3) = .ok head) :
    CompactForm val (head++out) := by
  obtain ⟨h0, h1, rfl⟩ := byteOf_ok h
  have hlt := leValue_lt out
  have hlen : 4 ≤ out.length := by
    by_contra hshort
    have hle : 256^out.length ≤ 256^3 := Nat.pow_le_pow_right (by decide) (by omega)
    omega
  let b := UInt8.ofNat (((out.length : Int)-4)*4+3).toNat
  have hb : b.toNat = (out.length-4)*4+3 := by
    rw [UInt8.toNat_ofNat']
    omega
  refine ⟨by omega, ?_, b, out, rfl, ?_⟩
  · have hm : leValue (b::out) % 4 = 3 := by
      rw [leValue_mod4, hb]
      omega
    change (compactValue (b::out) : Int) = val
    rw [compactValue, if_pos hm, List.tail_cons]
    omega
  · have hm : b.toNat % 4 = 3 := by omega
    change (b::out).length = compactLength b
    rw [compactLength, hm, List.length_cons]
    change out.length+1 = b.toNat/4+5
    omega

theorem encodeScaleInt_ok {val : Int} {x : Bytes} (h : encodeScaleInt val = .ok x) : CompactForm val x := by
  unfold encodeScaleInt at h
  split_ifs at h with h1 h2 h3
  · exact compactForm_single h1 h
  · exact compactForm_packed 1 (Or.inl rfl) h
  · exact compactForm_packed 2 (Or.inr rfl) h
  · obtain ⟨head, rest, hh, hrest, rfl⟩ := gather_cons_ok.mp h
    obtain ⟨out, last, hout, hlast, rfl⟩ := gather_cons_ok.mp hrest
    cases hout
    cases hlast
    rw [List.append_nil]
    exact compactForm_big (by omega) (leValue_shiftOut _ _ (shiftOut_fuel val.toNat)) hh

theorem encodeScaleInt_splits : Splits (fun _ _ => True) Eq encodeScaleInt := by
  apply splits_headed compactLength
  · intro a x ha
    exact (encodeScaleInt_ok ha).2.2
  · intro a b x _ ha hb
    rw [← (encodeScaleInt_ok ha).2.1, (encodeScaleInt_ok hb).2.1]

/-- The counts written before vectors. -/
theorem encodeCount_splits : Splits (fun _ _ => True) Eq (fun n : Nat => encodeScaleInt n) := by
  refine (encodeScaleInt_splits.comap (fun n : Nat => (n : Int))).mono (fun _ _ hr => hr) ?_
  intro a b _ he
  exact Int.ofNat_inj.mp he

theorem serializeVec_zip {α : Type} {R E : α → α → Prop} {item : α → Except PyError Bytes}
    (h : Splits R E item) :
    Splits (fun xs ys => ∀ p ∈ xs.zip ys, R p.1 p.2) (List.Forall₂ E) (serializeVec item) := by
  have hv := Splits.vector encodeCount_splits h
  exact hv

theorem serializeVec_splits {α : Type} {R E : α → α → Prop} {item : α → Except PyError Bytes}
    (h : Splits R E item) :
    Splits (fun xs ys => ∀ a ∈ xs, ∀ b ∈ ys, R a b) (List.Forall₂ E) (serializeVec item) := by
  refine (serializeVec_zip h).mono ?_ (fun _ _ _ he => he)
  intro xs ys hr p hp
  obtain ⟨hx, hy⟩ := List.of_mem_zip hp
  exact hr p.1 hx p.2 hy

theorem serializeU32_splits : Splits (fun _ _ => True) Eq serializeU32 := structPack_splits 4

theorem serializeU128_splits : Splits (fun _ _ => True) Eq serializeU128 := by
  have hlow : Splits (fun _ _ => True) _ _ := (structPack_splits 8).field (fun val : Int => val % 2^64)
  have hboth := hlow.cons ((structPack_splits 8).field (fun val : Int => val/2^64)).last
  refine hboth.mono (fun _ _ hr => hr) ?_
  intro a b _ ⟨hl, hh⟩
  rw [← Int.emod_add_mul_ediv a (2^64), ← Int.emod_add_mul_ediv b (2^64), hl, hh]

theorem serializeBytes_splits : Splits (fun _ _ => True) Eq serializeBytes := by
  have hcount : Splits (fun _ _ => True) _ _ := encodeCount_splits.field (List.length (α := UInt8))
  have hboth := hcount.consKnown (splits_raw (ε := PyError) (fun data => data) (fun _ _ hr => hr.2)).last
  exact hboth.mono (fun _ _ hr => hr) (fun _ _ _ he => he.2)

/-- Text is written as its UTF-8 bytes. -/
theorem serializeText_splits : Splits (fun _ _ => True) Eq (fun s : String => serializeBytes (encodeStr s)) :=
  (serializeBytes_splits.comap encodeStr).mono (fun _ _ hr => hr) (fun a b _ he => encodeStr_injective a b he)

/-- A required key holds a value on both sides. -/
theorem required_splits {α : Type} {R E : α → α → Prop} {enc : α → Except PyError Bytes} (key : String)
    (h : Splits R E enc) :
    Splits (fun o p => ∀ a ∈ o, ∀ b ∈ p, R a b) (fun o p => ∃ a b, o = some a ∧ p = some b ∧ E a b)
      (fun o => required key o >>= enc) := by
  intro o p x y s t hr ha hb he
  obtain ⟨a, hoa, hax⟩ := bind_ok_iff.mp ha
  obtain ⟨b, hpb, hby⟩ := bind_ok_iff.mp hb
  have ho := required_ok_iff.mp hoa
  have hp := required_ok_iff.mp hpb
  obtain ⟨hab, hst⟩ := h a b x y s t (hr a ho b hp) hax hby he
  exact ⟨⟨a, b, ho, hp, hab⟩, hst⟩

theorem required_eq {α : Type} {R : α → α → Prop} {enc : α → Except PyError Bytes} (key : String)
    (h : Splits R Eq enc) :
    Splits (fun o p => ∀ a ∈ o, ∀ b ∈ p, R a b) Eq (fun o => required key o >>= enc) := by
  refine (required_splits key h).mono (fun _ _ hr => hr) ?_
  intro o p _ ⟨a, b, ho, hp, hab⟩
  rw [ho, hp, hab]

/-- Raw bytes whose length is known. -/
theorem rawBytes_splits : Splits (fun x y : Bytes => x.length = y.length) Eq (Except.ok (ε := PyError)) :=
  splits_raw (fun x => x) (fun _ _ hr => hr)

/-- A required field of raw bytes. -/
theorem requiredBytes_splits (key : String) :
    Splits (fun o p => ∀ a ∈ o, ∀ b ∈ p, a.length = b.length) Eq (fun o : Option Bytes => required key o) := by
  have hreq := required_eq key rawBytes_splits
  simp only [bind_ok] at hreq
  exact hreq

end Noxipher
