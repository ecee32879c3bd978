import Noxipher.Tx.Scale
import Noxipher.Zswap.Notes

namespace Noxipher

/-- The proofs of a transaction: a list as the prover returns it, or the table the serializer reads. -/
inductive ProofHexes where
  | list (proofs : List String)
  | dict (spends outputs : Option (List HexOrBytes))
  deriving DecidableEq

inductive PrivateInputs where
  | spend (coin : ShieldedCoinNote) (sk_coin : String) (merkle_proof : List String)
  | output (value : Int) (recipient nonce : String)
  deriving DecidableEq

inductive PublicInputs where
  | spend (nullifier merkle_root : String)
  | output (commitment : String)
  deriving DecidableEq

/-- A circuit to prove; `none` is a missing key. -/
structure Circuit where
  id : Option String := none
  proving_key_hex : Option String := none
  private_inputs : Option PrivateInputs := none
  public_inputs : Option PublicInputs := none
  deriving DecidableEq

/-- The transaction dictionary handed from stage to stage; `none` is a missing key. -/
structure TxData where
  type : Option String := none
  standard : Option StandardTransaction := none
  fee : Option Int := none
  ttl : Option Int := none
  requires_unshielded_signature : Option Bool := none
  is_unshielded_only : Option Bool := none
  from_ : Option String := none
  to_ : Option String := none
  amount : Option Int := none
  circuits : Option (List Circuit) := none
  contract_address : Option String := none
  entry_point : Option String := none
  args : Option PyValue := none
  bytecode : Option Bytes := none
  initial_state : Option PyValue := none
  guaranteed_hex : Option String := none
  fallible_hexes : Option (List String) := none
  proof_hexes : Option ProofHexes := none
  merkle_root : Option HexOrBytes := none
  signing_payload_hex : Option String := none
  signature_hex : Option String := none

/-- The declared fields the prover reads; unknown keys are ignored by the validation. -/
structure UnsignedTransaction where
  type : String
  requires_unshielded_signature : Bool := false
  signing_payload_hex : String := ""
  circuits : List Circuit := []
  guaranteed_hex : String := ""
  fallible_hexes : List String := []

/-- `UnsignedTransaction.model_validate(tx)` -/
def UnsignedTransaction.modelValidate (tx : TxData) : Except PyError UnsignedTransaction := do
  let type ← validated "UnsignedTransaction" "type" tx.type
  return {
    type := type
    requires_unshielded_signature := tx.requires_unshielded_signature.getD false
    signing_payload_hex := tx.signing_payload_hex.getD ""
    circuits := tx.circuits.getD []
    guaranteed_hex := tx.guaranteed_hex.getD ""
    fallible_hexes := tx.fallible_hexes.getD [] }

structure ProvenTransaction where
  type : String
  guaranteed_hex : String := ""
  fallible_hexes : List String := []
  proof_hexes : List String := []
  requires_unshielded_signature : Bool := false
  signing_payload_hex : String := ""
  signature_hex : String := ""

/-- `model_dump()`: exactly the declared fields. -/
def ProvenTransaction.modelDump (tx : ProvenTransaction) : TxData where
  type := some tx.type
  guaranteed_hex := some tx.guaranteed_hex
  fallible_hexes := some tx.fallible_hexes
  proof_hexes := some (.list tx.proof_hexes)
  requires_unshielded_signature := some tx.requires_unshielded_signature
  signing_payload_hex := some tx.signing_payload_hex
  signature_hex := some tx.signature_hex

end Noxipher
