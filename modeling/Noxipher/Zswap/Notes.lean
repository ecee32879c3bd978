import Noxipher.Crypto.Fields

namespace Noxipher

/-- A shielded coin decrypted from on-chain data. -/
structure ShieldedCoinNote where
  token_type : Bytes
  value : Int
  nonce : Bytes
  owner_pk : Bytes
  merkle_tree_index : Int
  tx_hash : Option String := none
  deriving DecidableEq

namespace ShieldedCoinNote

variable (transientHash : List Fr → Fr)

/-- nullifier = transient_hash([csk, index]) -/
def computeNullifier (note : ShieldedCoinNote) (secretScalar : Int) : Bytes :=
  (transientHash [FieldElement.ofInt secretScalar, FieldElement.ofInt note.merkle_tree_index]).toBytes

/-- commitment = transient_hash([token_type, value, owner_pk, nonce]) -/
def computeCommitment (note : ShieldedCoinNote) : Bytes :=
  (transientHash [FieldElement.fromLeBytes note.token_type, FieldElement.ofInt note.value,
    FieldElement.fromLeBytes note.owner_pk, FieldElement.fromLeBytes note.nonce]).toBytes

/-- Without a secret there is no nullifier; the swallowed exception cannot occur on a typed note. -/
def computeNullifierSafe (note : ShieldedCoinNote) (secretScalar : Option Int) : Option Bytes :=
  match secretScalar with
  | none => none
  | some s => some (note.computeNullifier transientHash s)

end ShieldedCoinNote

end Noxipher
