import Noxipher.Address.RoundTrip
import Noxipher.Crypto.Keys
import Noxipher.Wallet.Wallets

namespace Noxipher

variable (keys : KeyFunctions)

/-- `Sr25519Signer.__init__` -/
def Sr25519Signer.new (secret_key_bytes : Bytes) : Sr25519Signer :=
  let pair := keys.pairFromSeed secret_key_bytes
  ⟨pair.1, keys.sign pair⟩

structure SpendingKey where
  night_key : Bytes
  zswap_seed : Bytes
  dust_seed : Bytes
  signer : Sr25519Signer
  network : Network

namespace SpendingKey

/-- `SpendingKey.__init__` -/
def new (mnemonic : String) (network : Network) (account : Int) : Except PyError SpendingKey := do
  let seed_64 ← KeyDerivation.mnemonicToSeed keys mnemonic
  let derived ← KeyDerivation.deriveAllRoles keys seed_64 account 0
  let night_key ← required "0" (derived.get? Roles.NIGHT_EXTERNAL)
  let zswap_seed ← required "3" (derived.get? Roles.ZSWAP)
  let dust_seed ← required "2" (derived.get? Roles.DUST)
  return ⟨night_key, zswap_seed, dust_seed, Sr25519Signer.new keys night_key, network⟩

/-- The class method has no account to pass on: the default of the constructor holds. -/
def fromMnemonic (mnemonic : String) (network : Network) : Except PyError SpendingKey := new keys mnemonic network 0

end SpendingKey

/-- `ShieldedWallet.__init__`: the address holds both public keys. -/
def ShieldedWallet.new (shielded_seed : Bytes) (network : Network) : Except PyError ShieldedWallet := do
  let secret ← ZswapSecretKeys.fromSeed keys shielded_seed
  let address ← encodeAddress (secret.coinPublicKey keys++secret.encryptionPublicKey) .shielded network
  return ⟨secret.coin_secret_key, secret.coinPublicKey keys, address⟩

/-- `DustWallet.__init__` -/
def DustWallet.new (dust_seed : Bytes) (network : Network) : DustWallet := ⟨Sr25519Signer.new keys dust_seed, network⟩

/-- A wallet with the spending key its constructor keeps. -/
structure KeyedWallet extends MidnightWallet where
  spending_key : SpendingKey

namespace MidnightWallet

/-- The unshielded wallet of a raw key. -/
def unshieldedOf (key_bytes : Bytes) (network : Network) : Except PyError UnshieldedWallet :=
  UnshieldedWallet.new (fun data => (keys.sha256 data).val) (Sr25519Signer.new keys key_bytes) network

/-- `MidnightWallet.__init__`; the account is not read. -/
def new (mnemonic : String) (network : Network) (_account : Int) : Except PyError KeyedWallet := do
  let spending_key ← SpendingKey.fromMnemonic keys mnemonic network
  let unshielded ← unshieldedOf keys spending_key.night_key network
  let shielded ← ShieldedWallet.new keys spending_key.zswap_seed network
  return {
    unshielded := unshielded
    shielded := shielded
    dust := DustWallet.new keys spending_key.dust_seed network
    shielded_state := ZswapState.new
    spending_key := spending_key }

end MidnightWallet

namespace KeyedWallet

/-- The three keys of the wallet, each in the part it belongs to. -/
structure Holds (network : Network) (night zswap dust : Bytes) (wallet : KeyedWallet) : Prop where
  night_key : wallet.spending_key.night_key = night
  zswap_seed : wallet.spending_key.zswap_seed = zswap
  dust_seed : wallet.spending_key.dust_seed = dust
  unshielded : MidnightWallet.unshieldedOf keys night network = .ok wallet.unshielded
  shielded : ShieldedWallet.new keys zswap network = .ok wallet.shielded
  dust : wallet.dust = DustWallet.new keys dust network

/-- The wallet holds the keys at index 0 of an account. -/
def HoldsAccount (mnemonic : String) (network : Network) (account : Int) (wallet : KeyedWallet) : Prop :=
  ∃ seed night zswap dust, KeyDerivation.mnemonicToSeed keys mnemonic = .ok seed ∧
    KeyDerivation.deriveKey keys seed account Roles.NIGHT_EXTERNAL 0 = .ok night ∧
    KeyDerivation.deriveKey keys seed account Roles.ZSWAP 0 = .ok zswap ∧
    KeyDerivation.deriveKey keys seed account Roles.DUST 0 = .ok dust ∧
    wallet.Holds keys network night zswap dust

end KeyedWallet

/-- The keys of two accounts agree in every role. -/
def SameKeys (mnemonic : String) (account other : Int) : Prop :=
  ∀ seed, KeyDerivation.mnemonicToSeed keys mnemonic = .ok seed →
    ∀ role ∈ [Roles.NIGHT_EXTERNAL, Roles.ZSWAP, Roles.DUST],
      KeyDerivation.deriveKey keys seed account role 0 = KeyDerivation.deriveKey keys seed other role 0

section Construction

variable {keys} {mnemonic : String} {network : Network} {account : Int} {wallet : KeyedWallet}

theorem SpendingKey.new_ok {spending_key : SpendingKey}
    (h : SpendingKey.new keys mnemonic network account = .ok spending_key) :
    ∃ seed, KeyDerivation.mnemonicToSeed keys mnemonic = .ok seed ∧
      KeyDerivation.deriveKey keys seed account Roles.NIGHT_EXTERNAL 0 = .ok spending_key.night_key ∧
      KeyDerivation.deriveKey keys seed account Roles.ZSWAP 0 = .ok spending_key.zswap_seed ∧
      KeyDerivation.deriveKey keys seed account Roles.DUST 0 = .ok spending_key.dust_seed := by
  obtain ⟨seed, hseed, h⟩ := bind_ok_iff.mp h
  obtain ⟨derived, hderived, h⟩ := bind_ok_iff.mp h
  obtain ⟨night, hnight, hderived⟩ := bind_ok_iff.mp hderived
  obtain ⟨zswap, hzswap, hderived⟩ := bind_ok_iff.mp hderived
  obtain ⟨dust, hdust, hderived⟩ := bind_ok_iff.mp hderived
  cases hderived
  cases h
  exact ⟨seed, hseed, hnight, hzswap, hdust⟩

/-- Whatever account is asked for, the wallet holds the keys of account 0. -/
theorem MidnightWallet.new_holds_zero (h : MidnightWallet.new keys mnemonic network account = .ok wallet) :
    wallet.HoldsAccount keys mnemonic network 0 := by
  obtain ⟨spending_key, hkey, h⟩ := bind_ok_iff.mp h
  obtain ⟨unshielded, hunshielded, h⟩ := bind_ok_iff.mp h
  obtain ⟨shielded, hshielded, h⟩ := bind_ok_iff.mp h
  cases h
  obtain ⟨seed, hseed, hnight, hzswap, hdust⟩ := SpendingKey.new_ok hkey
  exact ⟨seed, _, _, _, hseed, hnight, hzswap, hdust, rfl, rfl, rfl, hunshielded, hshielded, rfl⟩

/-- So it holds those of the account that was asked for exactly when they are the same. -/
theorem MidnightWallet.new_holds_iff (h : MidnightWallet.new keys mnemonic network account = .ok wallet) :
    wallet.HoldsAccount keys mnemonic network account ↔ SameKeys keys mnemonic account 0 := by
  obtain ⟨seed, night, zswap, dust, hseed, hnight, hzswap, hdust, hholds⟩ := MidnightWallet.new_holds_zero h
  constructor
  · intro hholds' other hother role hrole
    obtain ⟨seed', night', zswap', dust', hseed', hnight', hzswap', hdust', hholds'⟩ := hholds'
    rw [hseed] at hseed' hother
    cases hseed'
    cases hother
    simp only [List.mem_cons, List.not_mem_nil, or_false] at hrole
    rcases hrole with rfl | rfl | rfl
    · rw [hnight, hnight', ← hholds.night_key, hholds'.night_key]
    · rw [hzswap, hzswap', ← hholds.zswap_seed, hholds'.zswap_seed]
    · rw [hdust, hdust', ← hholds.dust_seed, hholds'.dust_seed]
  · intro hsame
    have hrole := hsame seed hseed
    refine ⟨seed, night, zswap, dust, hseed, ?_, ?_, ?_, hholds⟩
    · rw [hrole _ (by simp), hnight]
    · rw [hrole _ (by simp), hzswap]
    · rw [hrole _ (by simp), hdust]

/-- A valid mnemonic makes a wallet on every network that has both address prefixes. -/
theorem MidnightWallet.new_returns (hvalid : keys.check mnemonic = true)
    (hnight : (AddrType.unshielded, network) ∈ HRP_TABLE.keys)
    (hshielded : (AddrType.shielded, network) ∈ HRP_TABLE.keys) :
    ∃ wallet, MidnightWallet.new keys mnemonic network account = .ok wallet := by
  have hseed : KeyDerivation.mnemonicToSeed keys mnemonic = .ok (keys.toSeed mnemonic).val := if_pos hvalid
  have hzero : packIndex (Int.lor 0 HARDENED) = .ok [0x80, 0, 0, 0] := by decide
  have hrole (role : Int) (h : role ∈ [Roles.NIGHT_EXTERNAL, Roles.ZSWAP, Roles.DUST]) :
      ∃ key, KeyDerivation.deriveKey keys (keys.toSeed mnemonic).val 0 role 0 = .ok key := by
    have hfits : 0 ≤ role ∧ role < 2^32 := by
      simp only [List.mem_cons, List.not_mem_nil, or_false] at h
      rcases h with rfl | rfl | rfl <;> decide
    exact KeyDerivation.deriveKey_returns keys hzero (packIndex_ok hfits) (packIndex_ok (by decide)) _
  obtain ⟨night, hnight_key⟩ := hrole Roles.NIGHT_EXTERNAL (by simp)
  obtain ⟨zswap, hzswap⟩ := hrole Roles.ZSWAP (by simp)
  obtain ⟨dust, hdust⟩ := hrole Roles.DUST (by simp)
  have hkey : SpendingKey.fromMnemonic keys mnemonic network =
      .ok ⟨night, zswap, dust, Sr25519Signer.new keys night, network⟩ := by
    simp only [SpendingKey.fromMnemonic, SpendingKey.new, hseed, ok_bind, KeyDerivation.deriveAllRoles, hnight_key,
      hzswap, hdust]
    rfl
  obtain ⟨address, haddress, -⟩ := encodeAddress_decodes
    (keys.sha256 (Sr25519Signer.new keys night).public_key).val .unshielded network hnight
  have hunshielded : MidnightWallet.unshieldedOf keys night network = .ok ⟨Sr25519Signer.new keys night, address⟩ := by
    rw [MidnightWallet.unshieldedOf, UnshieldedWallet.new, Sr25519Signer.computeAddress, haddress]
    rfl
  have hsecret : ∃ secret, ZswapSecretKeys.fromSeed keys zswap = .ok secret := by
    have hlen := KeyDerivation.deriveKey_length keys hzswap
    exact ⟨_, if_neg (by simp [hlen])⟩
  obtain ⟨secret, hsecret⟩ := hsecret
  obtain ⟨own, hown, -⟩ := encodeAddress_decodes
    (secret.coinPublicKey keys++secret.encryptionPublicKey) .shielded network hshielded
  have hshielded_wallet : ShieldedWallet.new keys zswap network =
      .ok ⟨secret.coin_secret_key, secret.coinPublicKey keys, own⟩ := by
    rw [ShieldedWallet.new, hsecret, ok_bind, hown]
    rfl
  simp only [MidnightWallet.new, hkey, ok_bind, hunshielded, hshielded_wallet]
  exact ⟨_, rfl⟩

end Construction

namespace KeyDerivation

/-- A hardened child is its packed index. -/
theorem ckdHardened_plain {parent_key parent_cc : Bytes} {index : Int} {child : Bytes × Bytes}
    (hparent : parent_key.length = 32) (h : ckdHardened plainKeys parent_key parent_cc index = .ok child) :
    ∃ packed, packIndex (index.lor HARDENED) = .ok packed ∧ child.1 = packed++List.replicate 28 0 := by
  obtain ⟨packed, hpacked, h⟩ := bind_ok_iff.mp h
  have hlen := packIndex_length hpacked
  have hdata : (0::parent_key++packed).length = 37 := by simp [hparent, hlen]
  have hdrop : (0::parent_key++packed).drop 33 = packed := by
    have hfront : (0::parent_key).length = 33 := by simp [hparent]
    exact List.drop_left' hfront
  have hfit : (plainKeys.hmacSha512 parent_cc (0::parent_key++packed)).val = packed++List.replicate 60 0 := by
    show (fitted 64 (if (0::parent_key++packed).length = 37 then (0::parent_key++packed).drop 33
      else (0::parent_key++packed).take 32)).val = _
    rw [if_pos hdata, hdrop, fitted]
    simp [List.take_append, hlen]
  refine ⟨packed, hpacked, ?_⟩
  rw [← Except.ok.inj h, hmacHalves, hfit]
  simp [List.take_append, hlen]

/-- A normal child is its parent. -/
theorem ckdNormal_plain {parent_key parent_cc : Bytes} {index : Int} {child : Bytes × Bytes}
    (hparent : parent_key.length = 32) (h : ckdNormal plainKeys parent_key parent_cc index = .ok child) :
    child.1 = parent_key := by
  obtain ⟨packed, hpacked, h⟩ := bind_ok_iff.mp h
  have hlen := packIndex_length hpacked
  have hdata : (parent_key++packed).length ≠ 37 := by simp [hparent, hlen]
  have hfit : (plainKeys.hmacSha512 parent_cc (parent_key++packed)).val = parent_key++List.replicate 32 0 := by
    show (fitted 64 (if (parent_key++packed).length = 37 then (parent_key++packed).drop 33
      else (parent_key++packed).take 32)).val = _
    rw [if_neg hdata, List.take_left' hparent, fitted]
    simp [List.take_append, hparent]
  have hpub : (plainKeys.pairFromSeed parent_key).1 = parent_key := rfl
  rw [hpub] at h
  rw [← Except.ok.inj h, hmacHalves, hfit]
  simp [List.take_left' hparent]

/-- A key shows the packed account it was derived for. -/
theorem deriveKey_plain {seed_64 key : Bytes} {account role index : Int}
    (h : deriveKey plainKeys seed_64 account role index = .ok key) :
    ∃ packed, packIndex (account.lor HARDENED) = .ok packed ∧ key = packed++List.replicate 28 0 := by
  obtain ⟨purpose, hpurpose, h⟩ := bind_ok_iff.mp h
  obtain ⟨coin, hcoin, h⟩ := bind_ok_iff.mp h
  obtain ⟨owner, howner, h⟩ := bind_ok_iff.mp h
  obtain ⟨branch, hbranch, h⟩ := bind_ok_iff.mp h
  obtain ⟨leaf, hleaf, h⟩ := bind_ok_iff.mp h
  have howner_length := ckdHardened_length plainKeys howner
  obtain ⟨packed, hpacked, howner⟩ := ckdHardened_plain (ckdHardened_length plainKeys hcoin) howner
  have hbranch := ckdNormal_plain howner_length hbranch
  have hleaf := ckdNormal_plain (hbranch ▸ howner_length) hleaf
  refine ⟨packed, hpacked, ?_⟩
  rw [← Except.ok.inj h, hleaf, hbranch, howner]

end KeyDerivation

/-- Under these functions only the spellings of account 0 have its keys. -/
theorem sameKeys_plain {mnemonic : String} {account : Int} (h : SameKeys plainKeys mnemonic account 0) :
    account = 0 ∨ account = HARDENED := by
  have hzero : packIndex (Int.lor 0 HARDENED) = .ok [0x80, 0, 0, 0] := by decide
  have hfirst : packIndex 0 = .ok [0, 0, 0, 0] := by decide
  obtain ⟨key, hkey⟩ := KeyDerivation.deriveKey_returns plainKeys hzero hfirst hfirst (plainKeys.toSeed mnemonic).val
  have haccount : KeyDerivation.deriveKey plainKeys (plainKeys.toSeed mnemonic).val account 0 0 = .ok key := by
    rw [← hkey]
    exact h _ rfl Roles.NIGHT_EXTERNAL (by simp)
  obtain ⟨packed, hpacked, hsplit⟩ := KeyDerivation.deriveKey_plain haccount
  obtain ⟨packed', hpacked', hsplit'⟩ := KeyDerivation.deriveKey_plain hkey
  have hsame : packed = packed' := List.append_cancel_right (hsplit.symm.trans hsplit')
  rw [hsame, ← hpacked'] at hpacked
  exact packIndex_hardened.mp hpacked

/-- A wallet holds the keys of the account that was asked for when these are the keys of account 0, and whatever the
key functions are only for account 0, which has a second, hardened, spelling. -/
theorem account_honoured_iff (account : Int) :
    (∀ keys mnemonic network wallet, MidnightWallet.new keys mnemonic network account = .ok wallet →
      (wallet.HoldsAccount keys mnemonic network account ↔ SameKeys keys mnemonic account 0)) ∧
    ((∀ keys mnemonic network wallet, MidnightWallet.new keys mnemonic network account = .ok wallet →
      wallet.HoldsAccount keys mnemonic network account) ↔ account = 0 ∨ account = HARDENED) := by
  refine ⟨fun keys mnemonic network wallet h => MidnightWallet.new_holds_iff h, ?_⟩
  constructor
  · intro hall
    have hmade : ∃ wallet, MidnightWallet.new plainKeys "" .preprod account = .ok wallet :=
      MidnightWallet.new_returns rfl (by decide) (by decide)
    obtain ⟨wallet, hwallet⟩ := hmade
    have hholds := hall plainKeys "" .preprod wallet hwallet
    exact sameKeys_plain ((MidnightWallet.new_holds_iff hwallet).mp hholds)
  · intro haccount keys mnemonic network wallet hwallet
    apply (MidnightWallet.new_holds_iff hwallet).mpr
    intro seed _ role _
    exact KeyDerivation.deriveKey_packed keys (packIndex_hardened.mpr haccount) seed role 0

/-- "abandon " 23 times and "art" -/
def testMnemonic : String := String.join (List.replicate 23 "abandon ") ++ "art"

/-- A wallet made for account 1 does not hold its keys. -/
theorem account_one_ignored :
    ∃ wallet, MidnightWallet.new plainKeys testMnemonic .preprod 1 = .ok wallet ∧
      ¬ wallet.HoldsAccount plainKeys testMnemonic .preprod 1 := by
  have hmade : ∃ wallet, MidnightWallet.new plainKeys testMnemonic .preprod 1 = .ok wallet :=
    MidnightWallet.new_returns rfl (by decide) (by decide)
  obtain ⟨wallet, hwallet⟩ := hmade
  refine ⟨wallet, hwallet, ?_⟩
  intro hholds
  have haccount := sameKeys_plain ((MidnightWallet.new_holds_iff hwallet).mp hholds)
  revert haccount
  decide

end Noxipher
