import Noxipher.Tx.Builder

namespace Noxipher

inductive OfferSlot where
  | guaranteed | fallible
  deriving DecidableEq, Repr

/-- One signature stored by the signing loop: where it went, who made it, over which payload. -/
structure SignRecord where
  segment : IntLike
  seg_id : Int
  slot : OfferSlot
  signer_key : Bytes
  payload : Bytes
  signature : Bytes
  deriving DecidableEq

/-- The locals of the signing loop: the intents as written so far, the signer, which outlives an
iteration, and the signatures made. -/
structure SignState where
  intents : Dict IntLike Intent
  signer : Option Sr25519Signer := none
  log : List SignRecord := []

/-- The local `signer` as the loop reads it before its first assignment or after. -/
def SignState.lastSigner (st : SignState) : Except PyError Sr25519Signer :=
  match st.signer with
  | some signer => .ok signer
  | none => .error (.unboundLocalError "signer")

/-- What `_serialize_transaction` leaves behind: the mutated dictionary, the signatures, the bytes. -/
structure Serialized where
  tx_data : TxData
  log : List SignRecord
  bytes : Bytes

namespace TransactionBuilder

/-- The envelope written in place of a missing `standard`. -/
def placeholderStandard (network_id : String) (ttl : Int) : StandardTransaction :=
  let intent : Intent := {
    guaranteed_unshielded_offer := some ⟨some [], some [], some []⟩
    ttl := some ttl
    actions := some []
    binding_commitment := some (List.replicate 32 0) }
  { network_id := some network_id
    intents := some (Dict.ofList [(.str "0", intent)])
    binding_randomness := some (List.replicate 32 0) }

def standardOrPlaceholder (network_id : String) (tx_data : TxData) : StandardTransaction :=
  tx_data.standard.getD (placeholderStandard network_id (tx_data.ttl.getD 1800))

/-- Write one field of segment "0" in place. -/
def updateSegmentZero (f : Intent → Intent) (intents : Dict IntLike Intent) : Except PyError (Dict IntLike Intent) := do
  let _ ← required "0" (intents.get? (.str "0"))
  return intents.modify (.str "0") f

def contractAction (tx_data : TxData) : Except PyError ContractAction :=
  if tx_data.type = some "contract_deploy" then do
    let bytecode ← required "bytecode" tx_data.bytecode
    let initial_state ← serializeContractArgs (tx_data.initial_state.getD (.bytes []))
    return .deploy bytecode (some initial_state)
  else do
    let contract_address ← required "contract_address" tx_data.contract_address
    let address ← fromhex contract_address
    let entry_point ← required "entry_point" tx_data.entry_point
    let args ← serializeContractArgs (tx_data.args.getD (.bytes []))
    return .call address entry_point (some args)

/-- The proofs as bytes; `proof_hexes` is asked for its two lists, which only a table has. -/
def zswapOfferOf (tx_data : TxData) : Except PyError ZswapOffer :=
  match tx_data.proof_hexes.getD (.dict none none) with
  | .list _ => .error (.attributeError "'list' object has no attribute 'get'")
  | .dict spends outputs => do
    let spend_proofs ← traverse HexOrBytes.toBytes (spends.getD [])
    let output_proofs ← traverse HexOrBytes.toBytes (outputs.getD [])
    return {
      spend_proofs := spend_proofs
      output_proofs := output_proofs
      zswap_memos := some []
      merkle_root := some (tx_data.merkle_root.getD (.bytes (List.replicate 32 0))) }

/-- Step 0: the placeholder envelope, the contract action, the shielded offer. -/
def prepareStandard (network_id : String) (tx_data : TxData) : Except PyError TxData :=
  if tx_data.type = some "contract_deploy" ∨ tx_data.type = some "contract_call" then do
    let stx := standardOrPlaceholder network_id tx_data
    let action ← contractAction tx_data
    let intents ← required "intents" stx.intents
    let intents ← updateSegmentZero (fun intent => { intent with actions := some [action] }) intents
    return { tx_data with standard := some { stx with intents := some intents } }
  else if tx_data.type = some "shielded_transfer" then do
    let stx := standardOrPlaceholder network_id tx_data
    let offer ← zswapOfferOf tx_data
    let fallible_coins := (stx.fallible_coins.getD Dict.empty).set (.str "0") offer
    return { tx_data with standard := some { stx with fallible_coins := some fallible_coins } }
  else .ok tx_data

/-- Step 1: fresh randomness and its commitment when the randomness is missing or zero. -/
def bindRandomness (rnd : Bytes) (tx_data : TxData) : Except PyError TxData :=
  match tx_data.standard with
  | none => .ok tx_data
  | some stx =>
    if stx.binding_randomness.getD (List.replicate 32 0) = List.replicate 32 0 then do
      let intents ← required "intents" stx.intents
      let commitment := computeBindingCommitment rnd (tx_data.fee.getD 0)
      let intents := intents.modify (.str "0") (fun intent => { intent with binding_commitment := some commitment })
      let stx := { stx with intents := some intents, binding_randomness := some rnd }
      return { tx_data with standard := some stx }
    else .ok tx_data

def signGuaranteed (wallet : MidnightWallet) (draw : Nat) (key : IntLike) (seg_id : Int) (intent : Intent)
    (st : SignState) : Except PyError (Intent × SignState) :=
  match present intent.guaranteed_unshielded_offer with
  | none => .ok (intent, st)
  | some offer => do
    let inputs ← required "inputs" offer.inputs
    let input_owner := (inputs.head?.map UtxoSpend.owner).getD []
    let signer := if input_owner = wallet.dust.publicKey then wallet.dust.signer else wallet.unshielded.signer
    let payload ← getUnshieldedSigningPayload seg_id intent
    let sig := signer.sign (draw+st.log.length) payload
    let signed := { offer with signatures := some [sig] }
    let entry : SignRecord := ⟨key, seg_id, .guaranteed, signer.public_key, payload, sig⟩
    return ({ intent with guaranteed_unshielded_offer := some signed },
      { st with signer := some signer, log := st.log++[entry] })

/-- The fallible offer is signed with whatever signer was assigned last. -/
def signFallible (draw : Nat) (key : IntLike) (seg_id : Int) (intent : Intent) (st : SignState) :
    Except PyError (Intent × SignState) :=
  match present intent.fallible_unshielded_offer with
  | none => .ok (intent, st)
  | some offer => do
    let payload ← getUnshieldedSigningPayload seg_id intent
    let signer ← st.lastSigner
    let sig := signer.sign (draw+st.log.length) payload
    let signed := { offer with signatures := some [sig] }
    let entry : SignRecord := ⟨key, seg_id, .fallible, signer.public_key, payload, sig⟩
    return ({ intent with fallible_unshielded_offer := some signed }, { st with log := st.log++[entry] })

def signSegment (wallet : MidnightWallet) (draw : Nat) (key : IntLike) (intent : Intent) (st : SignState) :
    Except PyError SignState := do
  let seg_id ← key.toInt
  let signed ← signGuaranteed wallet draw key seg_id intent st
  let signed ← signFallible draw key seg_id signed.1 signed.2
  return { signed.2 with intents := signed.2.intents.set key signed.1 }

/-- `for seg_id_str, intent in stx["intents"].items()` -/
def signLoop (wallet : MidnightWallet) (draw : Nat) : List (IntLike × Intent) → SignState → Except PyError SignState
  | [], st => .ok st
  | (key, intent)::entries, st => do
    let st ← signSegment wallet draw key intent st
    signLoop wallet draw entries st

/-- Step 2 of `_serialize_transaction`, with the signatures it stored. -/
def signTransaction (wallet : MidnightWallet) (draw : Nat) (tx_data : TxData) :
    Except PyError (TxData × List SignRecord) :=
  if tx_data.requires_unshielded_signature.getD false then do
    let stx ← required "standard" tx_data.standard
    let intents ← required "intents" stx.intents
    let st ← signLoop wallet draw intents.entries { intents := intents }
    return ({ tx_data with standard := some { stx with intents := some st.intents } }, st.log)
  else .ok (tx_data, [])

/-- `rnd` is what `secrets.token_bytes(32)` returns and `draw` numbers the first draw of the signers. -/
def serializeTransaction (network_id : String) (rnd : Bytes) (wallet : MidnightWallet) (draw : Nat)
    (tx_data : TxData) : Except PyError Serialized := do
  let tx_data ← prepareStandard network_id tx_data
  let tx_data ← bindRandomness rnd tx_data
  let signed ← signTransaction wallet draw tx_data
  let stx ← required "standard" signed.1.standard
  let midnight_tx_bytes ← serializeStandardTransaction stx
  let bytes ← serializeRawMidnightTx midnight_tx_bytes
  return ⟨signed.1, signed.2, bytes⟩

end TransactionBuilder

end Noxipher
