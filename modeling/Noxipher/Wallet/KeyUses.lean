import Noxipher.Crypto.Digests
import Noxipher.Wallet.Accounts
import Noxipher.Wallet.Owners

namespace Noxipher

variable (keys : KeyFunctions)

/-- The domains of `sample_bytes`. -/
inductive SampleDomain where
  | esk | dsk
  deriving DecidableEq

def SampleDomain.text : SampleDomain → String
  | esk => "midnight:esk"
  | dsk => "midnight:dsk"

/-- What a digest is made for, with what goes into it. -/
inductive HashUse where
  | coinSecret (seed : Bytes)
  | coinPublic (coin_sk : Bytes)
  | sampled (domain : SampleDomain) (seed : Bytes) (round_idx : Nat)
  | commitment (nonce token_type : Bytes) (value : Int) (recipient_is_user : Bool) (recipient_hash : Bytes)
  | address (public_key : Bytes)

namespace HashUse

/-- The domain text in front. -/
def text : HashUse → String
  | coinSecret _ => "midnight:csk"
  | coinPublic _ => "midnight:zswap-pk[v1]"
  | sampled domain _ _ => domain.text
  | commitment .. => "midnight:zswap-cc[v1]"
  | address _ => ""

def body : HashUse → Bytes
  | coinSecret seed => seed
  | coinPublic coin_sk => coin_sk
  | sampled _ seed round_idx => (keys.sha256 (roundInput seed round_idx)).val
  | commitment nonce token_type value recipient_is_user recipient_hash =>
    nonce++token_type++leBytes 16 value.toNat++(if recipient_is_user then [1] else [0])++recipient_hash
  | address public_key => public_key

/-- Everything that is hashed on the way. -/
def inputs (use : HashUse) : List Bytes :=
  match use with
  | sampled _ seed round_idx => [encodeStr use.text++use.body keys, roundInput seed round_idx]
  | _ => [encodeStr use.text++use.body keys]

/-- The widths the functions check or document. -/
def Sized : HashUse → Prop
  | coinSecret seed => seed.length = 32
  | coinPublic coin_sk => coin_sk.length = 32
  | sampled _ seed round_idx => seed.length = 32 ∧ round_idx < 2^64
  | commitment nonce token_type value _ recipient_hash =>
    nonce.length = 32 ∧ token_type.length = 32 ∧ 0 ≤ value ∧ value < 2^128 ∧ recipient_hash.length = 32
  | address public_key => public_key.length = 32

/-- The functions of the key derivation made this digest for this use. -/
inductive Made : HashUse → Bytes → Prop
  | coinSecret {seed : Bytes} {secret : ZswapSecretKeys} (h : ZswapSecretKeys.fromSeed keys seed = .ok secret) :
    Made (.coinSecret seed) secret.coin_secret_key
  | coinPublic {seed : Bytes} {secret : ZswapSecretKeys} (h : ZswapSecretKeys.fromSeed keys seed = .ok secret) :
    Made (.coinPublic secret.coin_secret_key) (secret.coinPublicKey keys)
  | sampled {seed : Bytes} (domain : SampleDomain) {round_idx : Nat} (hseed : seed.length = 32) (h : round_idx < 2) :
    Made (.sampled domain seed round_idx) (window round_idx (sampleBytes keys 64 (encodeStr domain.text) seed))
  | commitment {nonce token_type recipient_hash digest : Bytes} {value : Int} {recipient_is_user : Bool}
    (hnonce : nonce.length = 32) (htoken : token_type.length = 32) (hrecipient : recipient_hash.length = 32)
    (h : coinCommitment keys nonce token_type value recipient_is_user recipient_hash = .ok digest) :
    Made (.commitment nonce token_type value recipient_is_user recipient_hash) digest
  | address {signer : Sr25519Signer} {network other : Network} {address : String} {payload : Bytes}
    (hkey : signer.public_key.length = 32)
    (h : signer.computeAddress (fun data => (keys.sha256 data).val) network = .ok address)
    (hdecode : decodeAddress address = .ok (.unshielded, other, payload)) : Made (.address signer.public_key) payload

variable {keys} {use other : HashUse}

/-- The length of the body of a sized use. -/
def width : HashUse → Nat
  | commitment .. => 113
  | _ => 32

theorem body_length (h : use.Sized) : (use.body keys).length = use.width := by
  cases use with
  | coinSecret seed => exact h
  | coinPublic coin_sk => exact h
  | sampled domain seed round_idx => exact (keys.sha256 _).property
  | commitment nonce token_type value recipient_is_user recipient_hash =>
    obtain ⟨hnonce, htoken, -, -, hrecipient⟩ := h
    cases recipient_is_user <;> simp [body, width, hnonce, htoken, hrecipient]
  | address public_key => exact h

@[simp] theorem text_length (domain : SampleDomain) : (encodeStr domain.text).length = 12 := by
  cases domain <;> decide

/-- The whole length tells the length of the domain text. -/
theorem text_length_congr (h : (encodeStr use.text).length+use.width = (encodeStr other.text).length+other.width) :
    (encodeStr use.text).length = (encodeStr other.text).length := by
  have hcsk : (encodeStr "midnight:csk").length = 12 := by decide
  have hpk : (encodeStr "midnight:zswap-pk[v1]").length = 21 := by decide
  have hcc : (encodeStr "midnight:zswap-cc[v1]").length = 21 := by decide
  have hnone : (encodeStr "").length = 0 := by decide
  cases use <;> cases other <;> simp_all [text, width]

/-- Sized uses that hash one text have one domain and one body. -/
theorem hashed_inj (h : use.Sized) (hother : other.Sized)
    (heq : encodeStr use.text++use.body keys = encodeStr other.text++other.body keys) :
    use.text = other.text ∧ use.body keys = other.body keys := by
  have hlen := congrArg List.length heq
  rw [List.length_append, List.length_append, body_length h, body_length hother] at hlen
  obtain ⟨htext, hbody⟩ := List.append_inj heq (text_length_congr hlen)
  exact ⟨encodeStr_injective _ _ htext, hbody⟩

theorem flag_inj {flag other_flag : Bool} (h : (if flag then [1] else [0] : Bytes) = if other_flag then [1] else [0]) :
    flag = other_flag := by
  cases flag <;> cases other_flag <;> simp_all

/-- One domain and one body are one use, but for the inner hash of a sample. -/
theorem eq_or_collide (h : use.Sized) (hother : other.Sized) (htext : use.text = other.text)
    (hbody : use.body keys = other.body keys) :
    use = other ∨ ∃ xs ∈ use.inputs keys, ∃ ys ∈ other.inputs keys, keys.Collide xs ys := by
  cases use with
  | coinSecret seed =>
    cases other with
    | coinSecret other_seed => exact Or.inl (congrArg coinSecret hbody)
    | sampled domain _ _ => cases domain <;> simp [text, SampleDomain.text] at htext
    | _ => simp [text] at htext
  | coinPublic coin_sk =>
    cases other with
    | coinPublic other_sk => exact Or.inl (congrArg coinPublic hbody)
    | sampled domain _ _ => cases domain <;> simp [text, SampleDomain.text] at htext
    | _ => simp [text] at htext
  | sampled domain seed round_idx =>
    cases other with
    | sampled other_domain other_seed other_round =>
      have hdomain : domain = other_domain := by
        cases domain <;> cases other_domain <;> simp_all [text, SampleDomain.text]
      subst hdomain
      rcases keys.eq_or_collide hbody with hround | hround
      · obtain ⟨rfl, rfl⟩ := roundInput_inj h.2 hother.2 hround
        exact Or.inl rfl
      · exact Or.inr ⟨_, by simp [inputs], _, by simp [inputs], hround⟩
    | _ => cases domain <;> simp [text, SampleDomain.text] at htext
  | commitment nonce token_type value recipient_is_user recipient_hash =>
    cases other with
    | commitment other_nonce other_token other_value other_flag other_hash =>
      obtain ⟨hnonce, htoken, hlow, hhigh, -⟩ := h
      obtain ⟨hnonce', htoken', hlow', hhigh', -⟩ := hother
      simp only [body, List.append_assoc] at hbody
      obtain ⟨rfl, hfrom_token⟩ := List.append_inj hbody (hnonce.trans hnonce'.symm)
      obtain ⟨rfl, hfrom_amount⟩ := List.append_inj hfrom_token (htoken.trans htoken'.symm)
      obtain ⟨hamount, hfrom_flag⟩ := List.append_inj hfrom_amount (by simp)
      obtain ⟨hflag, rfl⟩ := List.append_inj hfrom_flag (by split_ifs <;> rfl)
      have hvalue := congrArg leValue hamount
      rw [leValue_leBytes_of_lt 16 _ (by omega), leValue_leBytes_of_lt 16 _ (by omega)] at hvalue
      obtain rfl : value = other_value := by omega
      obtain rfl := flag_inj hflag
      exact Or.inl rfl
    | sampled domain _ _ => cases domain <;> simp [text, SampleDomain.text] at htext
    | _ => simp [text] at htext
  | address public_key =>
    cases other with
    | address other_key => exact Or.inl (congrArg address hbody)
    | sampled domain _ _ => cases domain <;> simp [text, SampleDomain.text] at htext
    | _ => simp [text] at htext

/-- What the functions make is the digest of the text of a sized use. -/
theorem Made.hashed {digest : Bytes} (h : Made keys use digest) :
    use.Sized ∧ digest = (keys.sha256 (encodeStr use.text++use.body keys)).val := by
  have hsecret {seed : Bytes} {secret : ZswapSecretKeys} (h : ZswapSecretKeys.fromSeed keys seed = .ok secret) :
      seed.length = 32 ∧ secret.coin_secret_key = (keys.sha256 (encodeStr "midnight:csk"++seed)).val := by
    unfold ZswapSecretKeys.fromSeed at h
    split_ifs at h with hlen
    cases h
    exact ⟨not_not.mp hlen, rfl⟩
  cases h with
  | coinSecret h => exact hsecret h
  | coinPublic h =>
    refine ⟨?_, rfl⟩
    show List.length _ = 32
    rw [(hsecret h).2]
    exact (keys.sha256 _).property
  | sampled domain hseed h =>
    exact ⟨⟨hseed, by omega⟩, window_sampleBytes (by omega)⟩
  | commitment hnonce htoken hrecipient h =>
    obtain ⟨amount, hamount, h⟩ := bind_ok_iff.mp h
    unfold u128Bytes at hamount
    split_ifs at hamount with hneg hbig
    cases hamount
    refine ⟨⟨hnonce, htoken, by omega, by omega, hrecipient⟩, ?_⟩
    rw [← Except.ok.inj h]
    simp only [text, body, List.append_assoc]
  | address hkey h hdecode =>
    rw [encodeAddress_ok h] at hdecode
    cases hdecode
    refine ⟨hkey, ?_⟩
    have hempty : encodeStr "" = [] := by decide
    rw [text, hempty]
    rfl

end HashUse

open HashUse in
/-- Secret keys, public keys, samples, coin commitments and address payloads are kept apart: two that are equal bytes
were made for one use, or two of the texts that went into them collide. -/
theorem uses_kept_apart {keys : KeyFunctions} {use other : HashUse} {digest : Bytes} (h : Made keys use digest)
    (hother : Made keys other digest) :
    use = other ∨ ∃ xs ∈ use.inputs keys, ∃ ys ∈ other.inputs keys, keys.Collide xs ys := by
  obtain ⟨hsized, hdigest⟩ := h.hashed
  obtain ⟨hsized', hdigest'⟩ := hother.hashed
  rcases keys.eq_or_collide (hdigest.symm.trans hdigest') with heq | hcollide
  · obtain ⟨htext, hbody⟩ := hashed_inj hsized hsized' heq
    exact eq_or_collide hsized hsized' htext hbody
  · refine Or.inr ⟨_, ?_, _, ?_, hcollide⟩
    · cases use <;> simp [inputs]
    · cases other <;> simp [inputs]

/-- A hash that keeps the first 32 bytes takes a coin secret key and an address payload together. -/
theorem uses_kept_apart_sample :
    let public_key := encodeStr "midnight:csk"++List.replicate 20 0
    ∃ xs ∈ HashUse.inputs plainKeys (.coinSecret (List.replicate 32 0)),
      ∃ ys ∈ HashUse.inputs plainKeys (.address public_key), plainKeys.Collide xs ys := by
  intro public_key
  have hsecret : HashUse.Made plainKeys (.coinSecret (List.replicate 32 0)) public_key :=
    .coinSecret (rfl : ZswapSecretKeys.fromSeed plainKeys (List.replicate 32 0) = .ok ⟨_, _⟩)
  obtain ⟨address, haddress, hdecode⟩ := encodeAddress_decodes public_key .unshielded .preprod (by decide)
  have hcomputed : Sr25519Signer.computeAddress (fun data => (plainKeys.sha256 data).val) ⟨public_key, fun _ _ => []⟩
      .preprod = .ok address := haddress
  have hpayload : HashUse.Made plainKeys (.address public_key) public_key := .address rfl hcomputed hdecode
  rcases uses_kept_apart hsecret hpayload with hsame | hcollide
  · cases hsame
  · exact hcollide

end Noxipher
