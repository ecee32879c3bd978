import Noxipher.Crypto.Keys
import Noxipher.Crypto.Poseidon
import Noxipher.Zswap.CommitmentBinding

namespace Noxipher

open ShieldedCoinNote (Collides SameResidue commitmentInputs fromLeBytes_eq_iff)

/-- `from_uniform_bytes` -/
def Fr.fromUniformBytes (data : Bytes) : Fr := FieldElement.ofNat (leValue data)

structure DustSecretKey where
  secret_key : Fr

namespace DustSecretKey

def fromSeed (keys : KeyFunctions) (seed : Bytes) : Except PyError DustSecretKey :=
  if seed.length ≠ 32 then .error (.valueError "Seed must be 32 bytes")
  else
    let dsk_bytes := sampleBytes keys 64 (encodeStr "midnight:dsk") seed
    .ok ⟨Fr.fromUniformBytes dsk_bytes⟩

/-- "mdn:dust:pk" as a field element -/
def domain : Fr := FieldElement.fromLeBytes (encodeStr "mdn:dust:pk")

def publicKey (transientHash : List Fr → Fr) (key : DustSecretKey) : Bytes :=
  (transientHash [domain, key.secret_key]).toBytes

end DustSecretKey

/-- "midnight:field_hash" as a field element -/
def fieldHashDomain : Fr := FieldElement.fromLeBytes (encodeStr "midnight:field_hash")

/-- `hash_to_field`; the error is the text of its only exception, a NotImplementedError. -/
def hashToField (transientHash : List Fr → Fr) (data : Bytes) : Except String Fr :=
  if 31 < data.length then .error "hash_to_field for large data not implemented"
  else .ok (transientHash [fieldHashDomain, FieldElement.fromLeBytes data])

/-- What the field hash is used for, with what goes into it. -/
inductive FieldHashUse where
  | node (left right : Fr)
  | nullifier (secret_scalar merkle_tree_index : Int)
  | commitment (note : ShieldedCoinNote)
  | dustKey (secret_key : Fr)
  | hashed (data : Bytes)

namespace FieldHashUse

def inputs : FieldHashUse → List Fr
  | node left right => [left, right]
  | nullifier secret_scalar merkle_tree_index => [FieldElement.ofInt secret_scalar, FieldElement.ofInt merkle_tree_index]
  | commitment note => note.commitmentInputs
  | dustKey secret_key => [DustSecretKey.domain, secret_key]
  | hashed data => [fieldHashDomain, FieldElement.fromLeBytes data]

/-- The functions of the package made these bytes for this use. -/
inductive Made (transientHash : List Fr → Fr) : FieldHashUse → Bytes → Prop
  | node (level : Nat) (nodes : Dict Int Fr) (p_idx : Int) :
    Made transientHash (.node (nodes.getD (p_idx*2) (MerkleTree.zeroVal transientHash level))
      (nodes.getD (p_idx*2+1) (MerkleTree.zeroVal transientHash level)))
      (MerkleTree.parentHash transientHash level nodes p_idx).toBytes
  | nullifier (note : ShieldedCoinNote) (secret_scalar : Int) :
    Made transientHash (.nullifier secret_scalar note.merkle_tree_index)
      (note.computeNullifier transientHash secret_scalar)
  | commitment (note : ShieldedCoinNote) : Made transientHash (.commitment note) (note.computeCommitment transientHash)
  | dustKey (key : DustSecretKey) : Made transientHash (.dustKey key.secret_key) (key.publicKey transientHash)
  | hashed {data : Bytes} {digest : Fr} (h : hashToField transientHash data = .ok digest) :
    Made transientHash (.hashed data) digest.toBytes

/-- Two uses that hash one list: those of a function with itself, and those of the tree and the nullifiers with any
function that hashes two elements. -/
inductive Same : FieldHashUse → FieldHashUse → Prop
  | node (left right : Fr) : Same (.node left right) (.node left right)
  | nullifier {secret other_secret index other_index : Int}
    (hsecret : secret % Fr.MODULUS = other_secret % Fr.MODULUS) (hindex : index % Fr.MODULUS = other_index % Fr.MODULUS) :
    Same (.nullifier secret index) (.nullifier other_secret other_index)
  | commitment {note other : ShieldedCoinNote} (htoken : SameResidue note.token_type other.token_type)
    (hvalue : note.value % Fr.MODULUS = other.value % Fr.MODULUS)
    (howner : SameResidue note.owner_pk other.owner_pk) (hnonce : SameResidue note.nonce other.nonce) :
    Same (.commitment note) (.commitment other)
  | dustKey (secret_key : Fr) : Same (.dustKey secret_key) (.dustKey secret_key)
  | hashed {data other : Bytes}
    (h : data++List.replicate (31-data.length) 0 = other++List.replicate (31-other.length) 0) :
    Same (.hashed data) (.hashed other)
  | nodeNullifier (secret index : Int) :
    Same (.node (FieldElement.ofInt secret) (FieldElement.ofInt index)) (.nullifier secret index)
  | nodeDustKey (secret_key : Fr) : Same (.node DustSecretKey.domain secret_key) (.dustKey secret_key)
  | nodeHashed (data : Bytes) : Same (.node fieldHashDomain (FieldElement.fromLeBytes data)) (.hashed data)
  | nullifierDustKey {secret index : Int} {secret_key : Fr} (hsecret : FieldElement.ofInt secret = DustSecretKey.domain)
    (hindex : FieldElement.ofInt index = secret_key) : Same (.nullifier secret index) (.dustKey secret_key)
  | nullifierHashed {secret index : Int} {data : Bytes} (hsecret : FieldElement.ofInt secret = fieldHashDomain)
    (hindex : (FieldElement.ofInt index : Fr) = FieldElement.fromLeBytes data) :
    Same (.nullifier secret index) (.hashed data)

/-- What `hash_to_field` accepts. -/
def Fits : FieldHashUse → Prop
  | hashed data => data.length ≤ 31
  | _ => True

theorem Made.fits {transientHash : List Fr → Fr} {use : FieldHashUse} {digest : Bytes}
    (h : Made transientHash use digest) : use.Fits := by
  cases h with
  | hashed h =>
    unfold hashToField at h
    split_ifs at h with hlong
    exact not_lt.mp hlong
  | _ => trivial

theorem Made.digest {transientHash : List Fr → Fr} {use : FieldHashUse} {digest : Bytes}
    (h : Made transientHash use digest) : digest = (transientHash use.inputs).toBytes := by
  cases h with
  | hashed h =>
    unfold hashToField at h
    split_ifs at h
    cases h
    rfl
  | _ => rfl

theorem ofInt_eq_iff {x y : Int} : (FieldElement.ofInt x : Fr) = FieldElement.ofInt y ↔
    x % Fr.MODULUS = y % Fr.MODULUS := by
  have hm : (0 : Int) < Fr.MODULUS := by decide
  have hx := Int.emod_nonneg x (ne_of_gt hm)
  have hy := Int.emod_nonneg y (ne_of_gt hm)
  unfold FieldElement.ofInt
  rw [FieldElement.mk.injEq]
  omega

/-- 31 bytes stay below the modulus. -/
theorem fromLeBytes_padded {data other : Bytes} (hdata : data.length ≤ 31) (hother : other.length ≤ 31) :
    (FieldElement.fromLeBytes data : Fr) = FieldElement.fromLeBytes other ↔
      data++List.replicate (31-data.length) 0 = other++List.replicate (31-other.length) 0 := by
  have hbelow {bs : Bytes} (h : bs.length ≤ 31) : leValue bs < Fr.MODULUS := by
    have hlt := leValue_lt bs
    have hpow : 256^bs.length ≤ 256^31 := Nat.pow_le_pow_right (by decide) h
    have hfits : 256^31 < Fr.MODULUS := by decide
    omega
  rw [fromLeBytes_eq_iff, SameResidue, Nat.mod_eq_of_lt (hbelow hdata), Nat.mod_eq_of_lt (hbelow hother)]
  exact leValue_eq_iff_padded hdata hother

theorem domains_differ : DustSecretKey.domain ≠ fieldHashDomain := by decide +kernel

theorem Same.inputs {use other : FieldHashUse} (huse : use.Fits) (hother : other.Fits) (h : Same use other) :
    use.inputs = other.inputs := by
  cases h with
  | node | dustKey | nodeNullifier | nodeDustKey | nodeHashed => rfl
  | nullifier hsecret hindex => simp only [FieldHashUse.inputs, ofInt_eq_iff.mpr hsecret, ofInt_eq_iff.mpr hindex]
  | commitment htoken hvalue howner hnonce =>
    simp only [FieldHashUse.inputs, commitmentInputs, fromLeBytes_eq_iff.mpr htoken, ofInt_eq_iff.mpr hvalue,
      fromLeBytes_eq_iff.mpr howner, fromLeBytes_eq_iff.mpr hnonce]
  | hashed h => simp only [FieldHashUse.inputs, (fromLeBytes_padded huse hother).mpr h]
  | nullifierDustKey hsecret hindex => simp only [FieldHashUse.inputs, hsecret, hindex]
  | nullifierHashed hsecret hindex => simp only [FieldHashUse.inputs, hsecret, hindex]

/-- Only a commitment hashes four elements. -/
theorem inputs_ne_commitment {use : FieldHashUse} {note : ShieldedCoinNote}
    (h : use.inputs = (commitment note).inputs) : ∃ other, use = commitment other := by
  cases use with
  | commitment other => exact ⟨other, rfl⟩
  | _ => cases congrArg List.length h

theorem same_of_inputs {use other : FieldHashUse} (huse : use.Fits) (hother : other.Fits)
    (h : use.inputs = other.inputs) : Same use other ∨ Same other use := by
  cases use with
  | commitment note =>
    obtain ⟨other, rfl⟩ := inputs_ne_commitment h.symm
    simp only [inputs, commitmentInputs, List.cons.injEq, and_true, fromLeBytes_eq_iff, ofInt_eq_iff] at h
    exact Or.inl (.commitment h.1 h.2.1 h.2.2.1 h.2.2.2)
  | node left right =>
    cases other with
    | commitment => cases congrArg List.length h
    | node =>
      cases h
      exact Or.inl (.node left right)
    | nullifier secret index =>
      cases h
      exact Or.inl (.nodeNullifier secret index)
    | dustKey secret_key =>
      cases h
      exact Or.inl (.nodeDustKey _)
    | hashed data =>
      cases h
      exact Or.inl (.nodeHashed data)
  | nullifier secret index =>
    cases other with
    | commitment => cases congrArg List.length h
    | node =>
      cases h
      exact Or.inr (.nodeNullifier secret index)
    | nullifier other_secret other_index =>
      simp only [inputs, List.cons.injEq, and_true, ofInt_eq_iff] at h
      exact Or.inl (.nullifier h.1 h.2)
    | dustKey secret_key =>
      simp only [inputs, List.cons.injEq, and_true] at h
      exact Or.inl (.nullifierDustKey h.1 h.2)
    | hashed data =>
      simp only [inputs, List.cons.injEq, and_true] at h
      exact Or.inl (.nullifierHashed h.1 h.2)
  | dustKey secret_key =>
    cases other with
    | commitment => cases congrArg List.length h
    | node =>
      cases h
      exact Or.inr (.nodeDustKey _)
    | nullifier secret index =>
      simp only [inputs, List.cons.injEq, and_true] at h
      exact Or.inr (.nullifierDustKey h.1.symm h.2.symm)
    | dustKey other_key =>
      cases h
      exact Or.inl (.dustKey _)
    | hashed data => exact absurd (List.cons.inj h).1 domains_differ
  | hashed data =>
    cases other with
    | commitment => cases congrArg List.length h
    | node =>
      cases h
      exact Or.inr (.nodeHashed data)
    | nullifier secret index =>
      simp only [inputs, List.cons.injEq, and_true] at h
      exact Or.inr (.nullifierHashed h.1.symm h.2.symm)
    | dustKey secret_key => exact absurd (List.cons.inj h).1.symm domains_differ
    | hashed other =>
      simp only [inputs, List.cons.injEq, and_true, true_and] at h
      exact Or.inl (.hashed ((fromLeBytes_padded huse hother).mp h))

theorem ofInt_of_value (x : Fr) : (FieldElement.ofInt x.value : Fr) = x := by
  apply FieldElement.ext
  have hvalue := FieldElement.ofInt_value (m := Fr.MODULUS) (Int.natCast_nonneg x.value) (Int.ofNat_lt.mpr x.isLt)
  exact Int.ofNat_inj.mp hvalue

/-- Exactly what one field hash can be made for: two uses have one digest if and only if they are the same up to the
residues that the field sees, or one is a Merkle node or a nullifier that spells the other, or the hash collides. Every
DUST public key is spelled by a nullifier. -/
theorem field_hash_uses (transientHash : List Fr → Fr) :
    (∀ use other digest other_digest, Made transientHash use digest → Made transientHash other other_digest →
      (digest = other_digest ↔
        Same use other ∨ Same other use ∨ Collides transientHash use.inputs other.inputs)) ∧
    ∀ key : DustSecretKey, ∃ note : ShieldedCoinNote, ∃ secret_scalar,
      note.computeNullifier transientHash secret_scalar = key.publicKey transientHash := by
  constructor
  · intro use other digest other_digest huse hother
    rw [huse.digest, hother.digest]
    constructor
    · intro h
      have hhash := FieldElement.toBytes_injective Fr.modulus_le _ _ h
      rcases Decidable.em (use.inputs = other.inputs) with hinputs | hne
      · rcases same_of_inputs huse.fits hother.fits hinputs with hsame | hsame
        · exact Or.inl hsame
        · exact Or.inr (Or.inl hsame)
      · exact Or.inr (Or.inr ⟨hne, hhash⟩)
    · rintro (hsame | hsame | ⟨-, hhash⟩)
      · rw [hsame.inputs huse.fits hother.fits]
      · rw [hsame.inputs hother.fits huse.fits]
      · rw [hhash]
  · intro key
    refine ⟨⟨[], 0, [], [], key.secret_key.value, none⟩, DustSecretKey.domain.value, ?_⟩
    rw [ShieldedCoinNote.computeNullifier, DustSecretKey.publicKey, ofInt_of_value, ofInt_of_value]

/-- `hash_to_field` does not see zero bytes at the end. -/
example : hashToField Poseidon.transientHash [7] = hashToField Poseidon.transientHash [7, 0] := by decide +kernel

end FieldHashUse

end Noxipher
