import Noxipher.Core.Text
import Noxipher.Crypto.Curves
import Noxipher.Library.Dict
import Noxipher.Library.Outcome
import Mathlib.Data.Int.Bitwise

namespace Noxipher

/-- Coin type of the BIP-44 path. -/
def MIDNIGHT_COIN_TYPE : Int := 2400

/-- Hardened offset. -/
def HARDENED : Int := 0x80000000

def Roles.NIGHT_EXTERNAL : Int := 0

def Roles.DUST : Int := 2

def Roles.ZSWAP : Int := 3

/-- What the packages provide: the BIP39 check and its PBKDF2 seed, HMAC-SHA512, SHA-256, and the sr25519 key map
with its signature, which may use the number of the draw. Digests have their lengths. -/
structure KeyFunctions where
  check : String → Bool
  toSeed : String → { seed : Bytes // seed.length = 64 }
  hmacSha512 : Bytes → Bytes → { digest : Bytes // digest.length = 64 }
  sha256 : Bytes → { digest : Bytes // digest.length = 32 }
  pairFromSeed : Bytes → Bytes × Bytes
  sign : Bytes × Bytes → Nat → Bytes → Bytes

/-- Cut or filled up with zeros to `n` bytes. -/
def fitted (n : Nat) (bs : Bytes) : { fit : Bytes // fit.length = n } := ⟨(bs++List.replicate n 0).take n, by simp⟩

/-- Functions that keep the path in view: a hardened child is its packed index, a normal child is its parent. -/
def plainKeys : KeyFunctions where
  check _ := true
  toSeed _ := fitted 64 []
  hmacSha512 _ data := fitted 64 (if data.length = 37 then data.drop 33 else data.take 32)
  sha256 data := fitted 32 data
  pairFromSeed seed := (seed, seed)
  sign _ _ data := data

/-- `struct.pack(">I", index)` -/
def packIndex (index : Int) : Except PyError Bytes :=
  if 0 ≤ index ∧ index < 2^32 then .ok (leBytes 4 index.toNat).reverse
  else .error (.structError "argument out of range")

namespace KeyDerivation

variable (keys : KeyFunctions)

/-- The assertion on the length is part of the type of the seed. -/
def mnemonicToSeed (mnemonic : String) : Except PyError Bytes :=
  if keys.check mnemonic then .ok (keys.toSeed mnemonic).val
  else .error (.invalidMnemonicError "Invalid BIP39 mnemonic (word count or checksum)")

/-- `i_bytes[:32], i_bytes[32:]` of an HMAC-SHA512: a key and a chain code. -/
def hmacHalves (key data : Bytes) : Bytes × Bytes :=
  let i_bytes := (keys.hmacSha512 key data).val
  (i_bytes.take 32, i_bytes.drop 32)

def deriveMaster (seed_64 : Bytes) : Bytes × Bytes := hmacHalves keys (encodeStr "Bitcoin seed") seed_64

/-- data = 0x00 || parent_key || index -/
def ckdHardened (parent_key parent_cc : Bytes) (index : Int) : Except PyError (Bytes × Bytes) := do
  let packed ← packIndex (index.lor HARDENED)
  return hmacHalves keys parent_cc (0::parent_key++packed)

/-- data = public key of the parent || index -/
def ckdNormal (parent_key parent_cc : Bytes) (index : Int) : Except PyError (Bytes × Bytes) := do
  let pub_bytes := (keys.pairFromSeed parent_key).1
  let packed ← packIndex index
  return hmacHalves keys parent_cc (pub_bytes++packed)

/-- m/44'/2400'/account'/role/index -/
def deriveKey (seed_64 : Bytes) (account role index : Int) : Except PyError Bytes := do
  let master := deriveMaster keys seed_64
  let purpose ← ckdHardened keys master.1 master.2 44
  let coin ← ckdHardened keys purpose.1 purpose.2 MIDNIGHT_COIN_TYPE
  let owner ← ckdHardened keys coin.1 coin.2 account
  let branch ← ckdNormal keys owner.1 owner.2 role
  let leaf ← ckdNormal keys branch.1 branch.2 index
  return leaf.1

/-- The keys of the three roles, under the number of the role. -/
def deriveAllRoles (seed_64 : Bytes) (account index : Int) : Except PyError (Dict Int Bytes) := do
  let night ← deriveKey keys seed_64 account Roles.NIGHT_EXTERNAL index
  let zswap ← deriveKey keys seed_64 account Roles.ZSWAP index
  let dust ← deriveKey keys seed_64 account Roles.DUST index
  return Dict.ofList [(Roles.NIGHT_EXTERNAL, night), (Roles.ZSWAP, zswap), (Roles.DUST, dust)]

end KeyDerivation

/-- `while len(result) < length`: each round adds a digest of 32 bytes; the fuel bounds the rounds. -/
def sampleLoop (keys : KeyFunctions) (length : Nat) (domain_separator seed : Bytes) : Nat → Nat → Bytes → Bytes
  | 0, _, result => result
  | fuel+1, round_idx, result =>
    if result.length < length then
      let inner_hash := (keys.sha256 (leBytes 8 round_idx++seed)).val
      let round_hash := (keys.sha256 (domain_separator++inner_hash)).val
      let bytes_to_add := min 32 (length-result.length)
      sampleLoop keys length domain_separator seed fuel (round_idx+1) (result++round_hash.take bytes_to_add)
    else result

def sampleBytes (keys : KeyFunctions) (length : Nat) (domain_separator seed : Bytes) : Bytes :=
  sampleLoop keys length domain_separator seed length 0 []

structure ZswapSecretKeys where
  coin_secret_key : Bytes
  encryption_secret_key : EmbeddedFr

namespace ZswapSecretKeys

variable (keys : KeyFunctions)

def fromSeed (seed : Bytes) : Except PyError ZswapSecretKeys :=
  if seed.length ≠ 32 then .error (.valueError "Seed must be 32 bytes")
  else
    let coin_sk := (keys.sha256 (encodeStr "midnight:csk"++seed)).val
    let esk_bytes := sampleBytes keys 64 (encodeStr "midnight:esk") seed
    .ok ⟨coin_sk, FieldElement.fromLeBytes esk_bytes⟩

def coinPublicKey (secret : ZswapSecretKeys) : Bytes :=
  (keys.sha256 (encodeStr "midnight:zswap-pk[v1]"++secret.coin_secret_key)).val

/-- EPK = generator * enc_sk -/
def encryptionPublicKey (secret : ZswapSecretKeys) : Bytes :=
  (JubJubPoint.generator.mul secret.encryption_secret_key).toBytes

end ZswapSecretKeys

theorem packIndex_ok {index : Int} (h : 0 ≤ index ∧ index < 2^32) :
    packIndex index = .ok (leBytes 4 index.toNat).reverse := if_pos h

theorem packIndex_length {index : Int} {packed : Bytes} (h : packIndex index = .ok packed) : packed.length = 4 := by
  unfold packIndex at h
  split_ifs at h with hfits
  cases h
  simp

/-- Indices that fit are told apart by their bytes. -/
theorem packIndex_injective {index other : Int} {packed : Bytes} (h : packIndex index = .ok packed)
    (hother : packIndex other = .ok packed) : index = other := by
  unfold packIndex at h hother
  split_ifs at h hother with hfits hfits'
  have hbytes := List.reverse_injective ((Except.ok.inj h).trans (Except.ok.inj hother).symm)
  have hvalue := congrArg leValue hbytes
  rw [leValue_leBytes_of_lt 4 _ (by omega), leValue_leBytes_of_lt 4 _ (by omega)] at hvalue
  omega

/-- What fits after the offset was set fitted before. -/
theorem packIndex_hardened_range {index : Int} {packed : Bytes} (h : packIndex (index.lor HARDENED) = .ok packed) :
    0 ≤ index ∧ index < 2^32 := by
  unfold packIndex at h
  split_ifs at h with hfits
  cases index with
  | negSucc n =>
    have hneg : (Int.negSucc n).lor HARDENED < 0 := Int.negSucc_lt_zero _
    omega
  | ofNat n =>
    have hle : n ≤ n ||| 2^31 := Nat.left_le_or
    have hor : (Int.ofNat n).lor HARDENED = ((n ||| 2^31 : Nat) : Int) := rfl
    rw [hor] at hfits
    change (0 : Int) ≤ (n : Int) ∧ (n : Int) < 2^32
    omega

/-- Setting the offset keeps the low 31 bits. -/
theorem lor_hardened_eq {index : Int} (h : 0 ≤ index ∧ index < 2^32) : index.lor HARDENED = index%2^31+2^31 := by
  obtain ⟨n, rfl⟩ := Int.eq_ofNat_of_zero_le h.1
  have hor : n ||| 2^31 = n%2^31+2^31 := by
    have hlow : n%2^31 < 2^31 := Nat.mod_lt _ (by decide)
    have hset := Nat.two_pow_add_eq_or_of_lt hlow 1
    rw [Nat.mul_one] at hset
    rcases Nat.lt_or_ge n (2^31) with hlt | hge
    · have hmod : n%2^31 = n := Nat.mod_eq_of_lt hlt
      rw [hmod] at hset ⊢
      rw [Nat.or_comm, ← hset, Nat.add_comm]
    · have hn : n = 2^31 ||| n%2^31 := by omega
      calc n ||| 2^31 = (2^31 ||| n%2^31) ||| 2^31 := by rw [← hn]
        _ = 2^31 ||| n%2^31 := by rw [Nat.or_comm, ← Nat.or_assoc, Nat.or_self]
        _ = n%2^31+2^31 := by omega
  change ((n ||| 2^31 : Nat) : Int) = _
  rw [hor]
  omega

/-- Two accounts are packed alike only when they are the same or exactly the offset apart. -/
theorem lor_hardened_congr {account other : Int} (h : 0 ≤ account ∧ account < 2^32) (h' : 0 ≤ other ∧ other < 2^32) :
    account.lor HARDENED = other.lor HARDENED ↔ account = other ∨ (account-other).natAbs = 2^31 := by
  rw [lor_hardened_eq h, lor_hardened_eq h']
  omega

/-- An account is packed like account 0 only when it is 0 or the hardened spelling of 0. -/
theorem packIndex_hardened {account : Int} :
    packIndex (account.lor HARDENED) = packIndex (Int.lor 0 HARDENED) ↔ account = 0 ∨ account = HARDENED := by
  have hzero : packIndex (Int.lor 0 HARDENED) = .ok [0x80, 0, 0, 0] := by decide
  constructor
  · intro h
    rw [hzero] at h
    have hrange := packIndex_hardened_range h
    rcases (lor_hardened_congr hrange (by decide)).mp (packIndex_injective h hzero) with hsame | hapart
    · exact Or.inl hsame
    · right
      rw [HARDENED]
      omega
  · rintro (rfl | rfl)
    · rfl
    · decide

namespace KeyDerivation

variable (keys : KeyFunctions)

@[simp] theorem hmacHalves_length (key data : Bytes) : (hmacHalves keys key data).1.length = 32 := by
  have hlen := (keys.hmacSha512 key data).property
  simp [hmacHalves, hlen]

theorem ckdHardened_length {parent_key parent_cc : Bytes} {index : Int} {child : Bytes × Bytes}
    (h : ckdHardened keys parent_key parent_cc index = .ok child) : child.1.length = 32 := by
  obtain ⟨packed, -, h⟩ := bind_ok_iff.mp h
  rw [← Except.ok.inj h]
  simp

theorem ckdNormal_length {parent_key parent_cc : Bytes} {index : Int} {child : Bytes × Bytes}
    (h : ckdNormal keys parent_key parent_cc index = .ok child) : child.1.length = 32 := by
  obtain ⟨packed, -, h⟩ := bind_ok_iff.mp h
  rw [← Except.ok.inj h]
  simp

/-- A derived key has the 32 bytes that the signer and the Zswap keys ask for. -/
theorem deriveKey_length {seed_64 key : Bytes} {account role index : Int}
    (h : deriveKey keys seed_64 account role index = .ok key) : key.length = 32 := by
  obtain ⟨purpose, -, h⟩ := bind_ok_iff.mp h
  obtain ⟨coin, -, h⟩ := bind_ok_iff.mp h
  obtain ⟨owner, -, h⟩ := bind_ok_iff.mp h
  obtain ⟨branch, -, h⟩ := bind_ok_iff.mp h
  obtain ⟨leaf, hleaf, h⟩ := bind_ok_iff.mp h
  rw [← Except.ok.inj h]
  exact ckdNormal_length keys hleaf

theorem ckdHardened_returns {index : Int} {packed : Bytes} (h : packIndex (index.lor HARDENED) = .ok packed)
    (parent_key parent_cc : Bytes) : ∃ child, ckdHardened keys parent_key parent_cc index = .ok child := by
  rw [ckdHardened, h]
  exact ⟨_, rfl⟩

theorem ckdNormal_returns {index : Int} {packed : Bytes} (h : packIndex index = .ok packed)
    (parent_key parent_cc : Bytes) : ∃ child, ckdNormal keys parent_key parent_cc index = .ok child := by
  rw [ckdNormal, h]
  exact ⟨_, rfl⟩

/-- There is a key at every path whose numbers fit. -/
theorem deriveKey_returns {account role index : Int} {account_packed role_packed index_packed : Bytes}
    (haccount : packIndex (account.lor HARDENED) = .ok account_packed) (hrole : packIndex role = .ok role_packed)
    (hindex : packIndex index = .ok index_packed) (seed_64 : Bytes) :
    ∃ key, deriveKey keys seed_64 account role index = .ok key := by
  have hpurpose : packIndex (Int.lor 44 HARDENED) = .ok [0x80, 0, 0, 44] := by decide
  have hcoin : packIndex (MIDNIGHT_COIN_TYPE.lor HARDENED) = .ok [0x80, 0, 9, 0x60] := by decide
  obtain ⟨purpose, hpurpose⟩ := ckdHardened_returns keys hpurpose (deriveMaster keys seed_64).1 (deriveMaster keys seed_64).2
  obtain ⟨coin, hcoin⟩ := ckdHardened_returns keys hcoin purpose.1 purpose.2
  obtain ⟨owner, howner⟩ := ckdHardened_returns keys haccount coin.1 coin.2
  obtain ⟨branch, hbranch⟩ := ckdNormal_returns keys hrole owner.1 owner.2
  obtain ⟨leaf, hleaf⟩ := ckdNormal_returns keys hindex branch.1 branch.2
  refine ⟨leaf.1, ?_⟩
  simp only [deriveKey, hpurpose, hcoin, howner, hbranch, hleaf, ok_bind]
  rfl

/-- The account reaches a key through its packed index alone. -/
theorem deriveKey_packed {account other : Int}
    (h : packIndex (account.lor HARDENED) = packIndex (other.lor HARDENED)) (seed_64 : Bytes) (role index : Int) :
    deriveKey keys seed_64 account role index = deriveKey keys seed_64 other role index := by
  have hchild (k cc : Bytes) : ckdHardened keys k cc account = ckdHardened keys k cc other := by
    simp only [ckdHardened, h]
  simp only [deriveKey, hchild]

end KeyDerivation

end Noxipher
