import Noxipher.Address.RoundTrip
import Noxipher.Tx.CompactIntegers
import Noxipher.Wallet.Wallets

namespace Noxipher

/-- A public key whose highest byte, the last one, is not zero. -/
def FullWidth (public_key : Bytes) : Prop := public_key.getLastD 0 ≠ 0

instance (public_key : Bytes) : Decidable (FullWidth public_key) := instDecidableNot

/-- A key of full width needs all its bytes, and another fewer. -/
theorem fullWidth_iff {public_key : Bytes} {n : Nat} (h : public_key.length = n+1) :
    FullWidth public_key ↔ 256^n ≤ leValue public_key := by
  have hne : public_key ≠ [] := by
    rintro rfl
    cases h
  obtain ⟨low, top, rfl⟩ : ∃ low top, public_key = low++[top] :=
    ⟨public_key.dropLast, public_key.getLast hne, (List.dropLast_append_getLast hne).symm⟩
  have hlow : low.length = n := by simpa using h
  have hlt := leValue_lt low
  rw [FullWidth, leValue_append, List.getLastD_concat, hlow, leValue, leValue, Nat.mul_zero, Nat.add_zero]
  rw [hlow] at hlt
  constructor
  · intro htop
    have hpos : 1 ≤ top.toNat := by
      by_contra hzero
      apply htop
      apply UInt8.toNat_inj.mp
      rw [UInt8.toNat_zero]
      omega
    calc 256^n ≤ 256^n*top.toNat := Nat.le_mul_of_pos_right _ hpos
      _ ≤ leValue low+256^n*top.toNat := Nat.le_add_left _ _
  · rintro hle rfl
    rw [UInt8.toNat_zero, Nat.mul_zero, Nat.add_zero] at hle
    omega

/-- The compact integer of a key has the fixed head of 32 bytes exactly when the key needs them. -/
theorem encodeScaleInt_key_iff {public_key : Bytes} (h : public_key.length = 32) :
    encodeScaleInt (leValue public_key) = .ok (0x73::public_key) ↔ FullWidth public_key := by
  have hlt := leValue_lt public_key
  rw [h] at hlt
  have hrange : leValue public_key < 256^67 := hlt.trans (Nat.pow_lt_pow_right (by decide) (by decide))
  obtain ⟨form, hholds, hwritten, hnarrow⟩ := encodeScaleInt_form (leValue public_key) hrange
  rw [fullWidth_iff h, hwritten]
  constructor
  · intro hsame
    by_contra hshort
    have hlength := congrArg List.length (Except.ok.inj hsame)
    have hless : form.width ≤ 32 := hnarrow (.big 31) ⟨by decide, by decide, not_le.mp hshort⟩
    rw [ScaleForm.write_length, List.length_cons, h] at hlength
    omega
  · intro hfull
    have hmost : form.width ≤ 33 := hnarrow (.big 32) ⟨by decide, by decide, hlt⟩
    have hbig : 256^4 ≤ leValue public_key := le_trans (Nat.pow_le_pow_right (by decide) (by decide)) hfull
    cases form with
    | single | double | quad =>
      simp only [ScaleForm.Holds] at hholds
      omega
    | big count =>
      have hcount : 31 < count := (Nat.pow_lt_pow_iff_right (by decide)).mp (lt_of_le_of_lt hfull hholds.2.2)
      simp only [ScaleForm.width] at hmost
      have hexact : count = 32 := by omega
      have hback := leBytes_leValue public_key
      rw [h] at hback
      rw [hexact, ScaleForm.write, hback]
      rfl

namespace DustWallet

/-- The address of a dust wallet holds the compact integer of its key exactly when the highest byte of the key is
not zero. -/
theorem address_scale_iff (wallet : DustWallet) (address : String) (hkey : wallet.publicKey.length = 32)
    (h : wallet.address = .ok address) :
    ∃ payload, decodeAddress address = .ok (.dust, wallet.network, payload) ∧
      (encodeScaleInt (leValue wallet.publicKey) = .ok payload ↔ FullWidth wallet.publicKey) := by
  have htable : (AddrType.dust, wallet.network) ∈ HRP_TABLE.keys := by
    rw [← Dict.get?_isSome]
    by_contra hnone
    rw [Option.not_isSome_iff_eq_none] at hnone
    rw [DustWallet.address, encodeAddress, hnone] at h
    cases h
  obtain ⟨written, hwritten, hdecode⟩ := encodeAddress_decodes (0x73::wallet.publicKey) .dust wallet.network htable
  have hsame : wallet.address = .ok written := hwritten
  rw [h] at hsame
  cases hsame
  exact ⟨_, hdecode, encodeScaleInt_key_iff hkey⟩

/-- A wallet with the given key on the preprod network. -/
def ofKey (public_key : Bytes) : DustWallet := ⟨⟨public_key, fun _ _ => []⟩, .preprod⟩

theorem address_scale_sample :
    ∃ address payload, (ofKey (List.replicate 32 1)).address = .ok address ∧
      decodeAddress address = .ok (.dust, .preprod, payload) ∧
      encodeScaleInt (leValue (List.replicate 32 1)) = .ok payload := by
  obtain ⟨address, haddress⟩ := exists_ok (x := (ofKey (List.replicate 32 1)).address) (by decide +kernel)
  obtain ⟨payload, hdecode, hiff⟩ := address_scale_iff (ofKey (List.replicate 32 1)) address rfl haddress
  exact ⟨address, payload, haddress, hdecode, hiff.mpr (by decide)⟩

/-- A key whose highest byte is zero is written with 31 bytes and another head. -/
theorem address_not_scale :
    let public_key : Bytes := List.replicate 31 1++[0]
    ∃ address, (ofKey public_key).address = .ok address ∧
      decodeAddress address = .ok (.dust, .preprod, 0x73::public_key) ∧
      encodeScaleInt (leValue public_key) = .ok (0x6F::List.replicate 31 1) := by
  intro public_key
  obtain ⟨address, haddress, hdecode⟩ := encodeAddress_decodes (0x73::public_key) .dust .preprod (by decide)
  exact ⟨address, haddress, hdecode, by decide +kernel⟩

end DustWallet

end Noxipher
