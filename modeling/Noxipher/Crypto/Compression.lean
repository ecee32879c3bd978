import Noxipher.Crypto.Completeness

namespace Noxipher

theorem Fr.value_lt (x : Fr) : x.value < 2^255 := by
  have hm : Fr.MODULUS < 2^255 := by norm_num [Fr.MODULUS]
  exact x.isLt.trans hm

/-- The low bit of a byte is the parity of the number it starts. -/
theorem ofNat_and_one (n : Nat) : UInt8.ofNat n &&& 1 ≠ 0 ↔ n % 2 = 1 := by
  have hand : (UInt8.ofNat n &&& 1).toNat = n % 2 := by
    rw [UInt8.toNat_and, UInt8.toNat_ofNat', UInt8.toNat_one, Nat.and_one_is_mod]
    omega
  rw [Ne, ← UInt8.toNat_inj, hand, UInt8.toNat_zero]
  omega

/-- A byte below 128 leaves the top bit free. -/
theorem top_bit_free : ∀ n < 128, n ||| 128 = n+128 ∧ n &&& 128 = 0 := by decide

theorem or_top (b : UInt8) (hb : b.toNat < 128) : (b ||| 0x80).toNat = b.toNat+128 := by
  rw [UInt8.toNat_or]
  exact (top_bit_free b.toNat hb).1

theorem and_top (b : UInt8) (hb : b.toNat < 128) : b &&& 0x80 = 0 := by
  rw [← UInt8.toNat_inj, UInt8.toNat_and]
  exact (top_bit_free b.toNat hb).2

theorem Fr.top_byte_lt (x : Fr) : (x.toBytes.getD 31 0).toNat < 128 := by
  have hx := x.value_lt
  rw [FieldElement.toBytes, leBytes_getD 32 31 _ (by omega), UInt8.toNat_ofNat']
  omega

theorem Fr.sign_bit_iff (x : Fr) : x.toBytes.getD 0 0 &&& 1 ≠ 0 ↔ x.value % 2 = 1 := by
  rw [FieldElement.toBytes, leBytes_getD 32 0 _ (by omega), ofNat_and_one, pow_zero, Nat.div_one]

namespace JubJubPoint

/-- The encoding as a number: v in the low 255 bits, the parity of u above them. -/
theorem leValue_toBytes (p : JubJubPoint) : leValue p.toBytes = p.v.value+2^255*(p.u.value % 2) := by
  have hv : leValue p.v.toBytes = p.v.value :=
    leValue_leBytes_of_lt 32 _ (p.v.isLt.trans_le Fr.modulus_le)
  unfold toBytes
  by_cases hodd : p.u.value % 2 = 1
  · have htop := or_top _ p.v.top_byte_lt
    rw [if_pos (p.u.sign_bit_iff.mpr hodd), leValue_set _ 31 128 _ (by simp) htop, hv, hodd]
    norm_num
  · rw [if_neg (mt p.u.sign_bit_iff.mp hodd), hv]
    omega

theorem toBytes_split (p : JubJubPoint) : leValue p.toBytes % 2^255 = p.v.value ∧
    leValue p.toBytes/2^255 = p.u.value % 2 := by
  have hlt := p.v.value_lt
  have hbytes := leValue_toBytes p
  omega

/-- The v coordinate leaves two points, and the parity of u tells them apart. -/
theorem OnCurve.eq_of_parity {p q : JubJubPoint} (hp : p.OnCurve) (hq : q.OnCurve) (hv : p.v = q.v)
    (hparity : p.u.value % 2 = q.u.value % 2) : p = q := by
  obtain ⟨pu, pv⟩ := p
  obtain ⟨qu, qv⟩ := q
  obtain rfl : pv = qv := hv
  have hu : pu = qu := by
    have hx := (onCurve_iff ⟨pu, pv⟩).mp hp
    have hy := (onCurve_iff ⟨qu, pv⟩).mp hq
    rcases Edwards.x_eq_or_neg hx hy with hsame | hneg
    · exact FieldElement.residue_injective hsame
    · exact FieldElement.eq_of_residue_neg (by decide) hneg hparity
  rw [hu]

theorem OnCurve.toBytes_inj {p q : JubJubPoint} (hp : p.OnCurve) (hq : q.OnCurve) (h : p.toBytes = q.toBytes) :
    p = q := by
  have hv : p.v = q.v := FieldElement.ext (by rw [← (toBytes_split p).1, h, (toBytes_split q).1])
  have hparity : p.u.value % 2 = q.u.value % 2 := by rw [← (toBytes_split p).2, h, (toBytes_split q).2]
  exact hp.eq_of_parity hq hv hparity

/-- Compression loses nothing: the bytes determine the point, and the sign goes where v has no bit. -/
theorem toBytes_faithful :
    (∀ p q : JubJubPoint, p.OnCurve → q.OnCurve → p.toBytes = q.toBytes → p = q) ∧
    ∀ p : JubJubPoint, p.v.toBytes.getD 31 0 &&& 0x80 = 0 ∧ leValue p.toBytes % 2^255 = p.v.value ∧
      leValue p.toBytes/2^255 = p.u.value % 2 :=
  ⟨fun _ _ hp hq h => hp.toBytes_inj hq h, fun p => ⟨and_top _ p.v.top_byte_lt, toBytes_split p⟩⟩

theorem toBytes_faithful_double : generator.add generator = generator.mul (FieldElement.ofNat 2) :=
  toBytes_faithful.1 _ _ (generator_onCurve.add generator_onCurve)
    (generator_stands.mul (FieldElement.ofNat 2)).onCurve (by decide +kernel)

end JubJubPoint

end Noxipher
