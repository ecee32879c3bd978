import Noxipher.Crypto.Openings
import Noxipher.Wallet.KeyUses

namespace Noxipher

variable (keys : KeyFunctions)

namespace ZswapSecretKeys

/-- `_compute_address` encodes these 64 bytes, `viewing_key` writes them as hex. -/
def publicBytes (secret : ZswapSecretKeys) : Bytes := secret.coinPublicKey keys++secret.encryptionPublicKey

def viewingKey (secret : ZswapSecretKeys) : String := hexOf (secret.publicBytes keys)

/-- The texts whose digests are the coin secret key and the coin public key. -/
def coinInput (seed : Bytes) : Bytes := encodeStr "midnight:csk"++seed

def publicInput (secret : ZswapSecretKeys) : Bytes := encodeStr "midnight:zswap-pk[v1]"++secret.coin_secret_key

variable {keys} {seed other_seed : Bytes} {secret other : ZswapSecretKeys}

theorem fromSeed_coin (h : fromSeed keys seed = .ok secret) :
    secret.coin_secret_key = (keys.sha256 (coinInput seed)).val := by
  unfold fromSeed at h
  split_ifs at h
  cases h
  rfl

theorem publicBytes_length (secret : ZswapSecretKeys) : (secret.publicBytes keys).length = 64 := by
  have hcoin : (secret.coinPublicKey keys).length = 32 := (keys.sha256 _).property
  rw [publicBytes, List.length_append, hcoin, encryptionPublicKey, JubJubPoint.toBytes_length]

/-- The 64 bytes come from one encryption key, and from one seed unless the hash collides at one of two texts. -/
theorem publicBytes_bind (h : fromSeed keys seed = .ok secret) (hother : fromSeed keys other_seed = .ok other)
    (hsame : secret.publicBytes keys = other.publicBytes keys) :
    secret.encryption_secret_key = other.encryption_secret_key ∧
      (seed = other_seed ∨ keys.Collide (coinInput seed) (coinInput other_seed) ∨
        keys.Collide secret.publicInput other.publicInput) := by
  have hcoin (secret : ZswapSecretKeys) : (secret.coinPublicKey keys).length = 32 := (keys.sha256 _).property
  obtain ⟨hpublic, hencryption⟩ := List.append_inj hsame ((hcoin _).trans (hcoin _).symm)
  refine ⟨encryptionPublicKey_inj hencryption, ?_⟩
  rcases keys.eq_or_collide hpublic with htext | hcollide
  · have hsecret := List.append_cancel_left htext
    rw [fromSeed_coin h, fromSeed_coin hother] at hsecret
    rcases keys.eq_or_collide hsecret with hseed | hcollide
    · exact Or.inl (List.append_cancel_left hseed)
    · exact Or.inr (Or.inl hcollide)
  · exact Or.inr (Or.inr hcollide)

end ZswapSecretKeys

theorem ShieldedWallet.new_ok {keys : KeyFunctions} {seed : Bytes} {network : Network} {wallet : ShieldedWallet}
    (h : ShieldedWallet.new keys seed network = .ok wallet) :
    ∃ secret, ZswapSecretKeys.fromSeed keys seed = .ok secret ∧
      encodeAddress (secret.publicBytes keys) .shielded network = .ok wallet.address := by
  obtain ⟨secret, hsecret, h⟩ := bind_ok_iff.mp h
  obtain ⟨address, haddress, h⟩ := bind_ok_iff.mp h
  cases h
  exact ⟨secret, hsecret, haddress⟩

/-- A seed of 32 bytes makes a wallet on every network with a shielded prefix. -/
theorem ShieldedWallet.new_returns {keys : KeyFunctions} {seed : Bytes} {network : Network} (hseed : seed.length = 32)
    (hhrp : (AddrType.shielded, network) ∈ HRP_TABLE.keys) :
    ∃ wallet, ShieldedWallet.new keys seed network = .ok wallet := by
  have hsecret : ∃ secret, ZswapSecretKeys.fromSeed keys seed = .ok secret := ⟨_, if_neg (not_not.mpr hseed)⟩
  obtain ⟨secret, hsecret⟩ := hsecret
  obtain ⟨address, haddress, -⟩ := encodeAddress_decodes (secret.publicBytes keys) .shielded network hhrp
  rw [ShieldedWallet.new, hsecret, ok_bind, ← ZswapSecretKeys.publicBytes, haddress]
  exact ⟨_, rfl⟩

open ZswapSecretKeys in
/-- A shielded address and the viewing key of a session carry the same 64 bytes; equal ones mean one network, one
encryption key and, but for a collision, one seed. -/
theorem shielded_address_binds {keys : KeyFunctions} {seed other_seed : Bytes} {network other_network : Network}
    {wallet other : ShieldedWallet} (h : ShieldedWallet.new keys seed network = .ok wallet)
    (hother : ShieldedWallet.new keys other_seed other_network = .ok other) :
    ∃ secret other_secret payload, fromSeed keys seed = .ok secret ∧ fromSeed keys other_seed = .ok other_secret ∧
      payload.length = 64 ∧ decodeAddress wallet.address = .ok (.shielded, network, payload) ∧
      fromhex (secret.viewingKey keys) = .ok payload ∧
      (wallet.address = other.address ↔
        network = other_network ∧ secret.viewingKey keys = other_secret.viewingKey keys) ∧
      (secret.viewingKey keys = other_secret.viewingKey keys →
        secret.encryption_secret_key = other_secret.encryption_secret_key ∧
          (seed = other_seed ∨ keys.Collide (coinInput seed) (coinInput other_seed) ∨
            keys.Collide secret.publicInput other_secret.publicInput)) := by
  obtain ⟨secret, hsecret, hencoded⟩ := ShieldedWallet.new_ok h
  obtain ⟨other_secret, hsecret', hencoded'⟩ := ShieldedWallet.new_ok hother
  have hdecoded := encodeAddress_ok hencoded
  have hhex : secret.viewingKey keys = other_secret.viewingKey keys ↔
      secret.publicBytes keys = other_secret.publicBytes keys := by
    constructor
    · intro hkey
      have hread := congrArg fromhex hkey
      rw [viewingKey, viewingKey, fromhex_hexOf, fromhex_hexOf] at hread
      exact Except.ok.inj hread
    · intro hbytes
      rw [viewingKey, viewingKey, hbytes]
  refine ⟨secret, other_secret, secret.publicBytes keys, hsecret, hsecret', publicBytes_length secret, hdecoded,
    fromhex_hexOf _, ?_, ?_⟩
  · rw [hhex]
    constructor
    · intro haddress
      rw [haddress, encodeAddress_ok hencoded'] at hdecoded
      simp only [Except.ok.injEq, Prod.mk.injEq, true_and] at hdecoded
      exact ⟨hdecoded.1.symm, hdecoded.2.symm⟩
    · rintro ⟨rfl, hbytes⟩
      rw [hbytes, hencoded'] at hencoded
      exact (Except.ok.inj hencoded).symm
  · intro hkey
    exact publicBytes_bind hsecret hsecret' (hhex.mp hkey)

/-- Two seeds with different encryption keys have different addresses. -/
theorem shielded_address_binds_sample :
    ∃ wallet other, ShieldedWallet.new plainKeys (List.replicate 32 7) .preprod = .ok wallet ∧
      ShieldedWallet.new plainKeys (List.replicate 32 8) .preprod = .ok other ∧ wallet.address ≠ other.address := by
  have hmade (seed : Bytes) (hseed : seed.length = 32) :
      ∃ wallet, ShieldedWallet.new plainKeys seed .preprod = .ok wallet :=
    ShieldedWallet.new_returns hseed (by decide)
  obtain ⟨wallet, hwallet⟩ := hmade (List.replicate 32 7) rfl
  obtain ⟨other, hother⟩ := hmade (List.replicate 32 8) rfl
  obtain ⟨secret, other_secret, -, hsecret, hsecret', -, -, -, haddress, hkeys⟩ :=
    shielded_address_binds hwallet hother
  refine ⟨wallet, other, hwallet, hother, fun hsame => ?_⟩
  have hencryption := (hkeys (haddress.mp hsame).2).1
  cases hsecret
  cases hsecret'
  revert hencryption
  decide +kernel

end Noxipher
