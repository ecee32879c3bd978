import Noxipher.Tx.Models

namespace Noxipher

structure ProveRequest where
  circuit_id : String
  proving_key : Bytes
  private_inputs : Option PrivateInputs
  public_inputs : Option PublicInputs
  deriving DecidableEq

/-- The Proof Server through its client: whether the health document is non-empty, and the answer to each
numbered request, an error when the client gives up. -/
structure ProofServer where
  health : Except PyError Bool
  prove : Nat → ProveRequest → Except PyError Bytes

namespace ZKProver

def proveRequest (circuit : Circuit) : Except PyError ProveRequest := do
  let circuit_id ← required "id" circuit.id
  let proving_key ← fromhex (circuit.proving_key_hex.getD "")
  return ⟨circuit_id, proving_key, circuit.private_inputs, circuit.public_inputs⟩

/-- The circuits in order; the first failure ends the loop. -/
def proveCircuits (server : ProofServer) : Nat → List Circuit → Except PyError (List String)
  | _, [] => .ok []
  | n, circuit::circuits => do
    let request ← proveRequest circuit
    let proof_bytes ← server.prove n request
    let proof_hexes ← proveCircuits server (n+1) circuits
    return hexOf proof_bytes :: proof_hexes

def proveTransaction (server : ProofServer) (unsigned_tx : TxData) : Except PyError ProvenTransaction := do
  let tx ← UnsignedTransaction.modelValidate unsigned_tx
  let health ← server.health
  if health = false then .error (.proofError "Proof Server is unreachable")
  else if tx.circuits = [] then
    .ok {
      type := tx.type
      guaranteed_hex := tx.guaranteed_hex
      fallible_hexes := tx.fallible_hexes
      proof_hexes := []
      requires_unshielded_signature := tx.requires_unshielded_signature
      signing_payload_hex := tx.signing_payload_hex }
  else do
    let proof_hexes ← proveCircuits server 0 tx.circuits
    .ok {
      type := tx.type
      guaranteed_hex := tx.guaranteed_hex
      fallible_hexes := tx.fallible_hexes
      proof_hexes := proof_hexes
      requires_unshielded_signature := tx.requires_unshielded_signature
      signing_payload_hex := tx.signing_payload_hex }

variable {server : ProofServer}

/-- Every circuit has its own proof, in the order of the circuits. -/
theorem proveCircuits_answers {n : Nat} {circuits : List Circuit} {proof_hexes : List String}
    (h : proveCircuits server n circuits = .ok proof_hexes) :
    List.Forall₂ (fun circuit proof => ∃ i request proof_bytes, proveRequest circuit = .ok request ∧
      server.prove i request = .ok proof_bytes ∧ proof = hexOf proof_bytes) circuits proof_hexes := by
  induction circuits generalizing n proof_hexes with
  | nil =>
    cases h
    exact List.Forall₂.nil
  | cons circuit circuits ih =>
    obtain ⟨request, hreq, h⟩ := bind_ok_iff.mp h
    obtain ⟨proof_bytes, hproof, h⟩ := bind_ok_iff.mp h
    obtain ⟨rest, hrest, h⟩ := bind_ok_iff.mp h
    cases h
    exact List.Forall₂.cons ⟨n, request, proof_bytes, hreq, hproof, rfl⟩ (ih hrest)

/-- Both branches keep the declared fields and nothing else. -/
theorem proveTransaction_ok {unsigned_tx : TxData} {proven : ProvenTransaction}
    (h : proveTransaction server unsigned_tx = .ok proven) :
    ∃ tx, UnsignedTransaction.modelValidate unsigned_tx = .ok tx ∧
      proven.proof_hexes.length = tx.circuits.length ∧
      proven = {
        type := tx.type
        guaranteed_hex := tx.guaranteed_hex
        fallible_hexes := tx.fallible_hexes
        proof_hexes := proven.proof_hexes
        requires_unshielded_signature := tx.requires_unshielded_signature
        signing_payload_hex := tx.signing_payload_hex } := by
  obtain ⟨tx, htx, h⟩ := bind_ok_iff.mp h
  obtain ⟨health, -, h⟩ := bind_ok_iff.mp h
  split_ifs at h with hh hc
  · cases h
    exact ⟨tx, htx, by rw [hc]; rfl, rfl⟩
  · obtain ⟨proof_hexes, hp, h⟩ := bind_ok_iff.mp h
    cases h
    exact ⟨tx, htx, (proveCircuits_answers hp).length_eq.symm, rfl⟩

end ZKProver

end Noxipher
