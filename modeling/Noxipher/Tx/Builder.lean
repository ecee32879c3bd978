import Noxipher.Crypto.Curves
import Noxipher.Library.Greedy
import Noxipher.Tx.Models
import Noxipher.Wallet.Wallets

namespace Noxipher

/-- NIGHT is all zeros. -/
def RawTokenType.NATIVE_NIGHT : Bytes := List.replicate 32 0

def RawTokenType.DUST : Bytes := [1, 0, 1]++List.replicate 29 0

/-- The services of `NoxipherClient` the builder asks before it submits. -/
structure NoxipherClient where
  config : NetworkConfig
  indexer : IndexerUtxos

namespace TransactionBuilder

/-- Minimum UTXO value to avoid spam. -/
def DUST_THRESHOLD : Int := 1000

/-- Keep the records whose token text is the hex of `token_type`. -/
def eligibleUtxos (token_type : Bytes) : List UtxoRecord → Except PyError (List UtxoRecord)
  | [] => .ok []
  | utxo::utxos => do
    let u_token_hex ← utxo.tokenHex
    let rest ← eligibleUtxos token_type utxos
    return if u_token_hex = lower (hexOf token_type).toList then utxo::rest else rest

/-- Step A: the first record of exactly the required value. -/
def exactMatch (required : Int) : List UtxoRecord → Except PyError (Option UtxoRecord)
  | [] => .ok none
  | utxo::utxos => do
    let value ← utxo.intValue
    if value = required then return some utxo
    else exactMatch required utxos

/-- Step B only runs when no record matches exactly; the sort keys are computed first. -/
def selectUtxos (required : Int) (eligible : List UtxoRecord) : Except PyError (List UtxoRecord × Int) := do
  match ← exactMatch required eligible with
  | some utxo => return ([utxo], required)
  | none =>
    let keyed ← traverse (fun (utxo : UtxoRecord) => do
      let value ← utxo.intValue
      return (value, utxo)) eligible
    let (selected, current_total) := Greedy.largestFirst Prod.fst required keyed
    return (selected.map Prod.snd, current_total)

def utxoSpend (owner_pk : Bytes) (utxo : UtxoRecord) : Except PyError UtxoSpend := do
  let value ← required "value" utxo.value
  let value ← value.toInt
  let intent_hash ← fromhex utxo.hashText
  let output_no ← utxo.outputNumber.toInt
  return ⟨value, owner_pk, 0, intent_hash, output_no⟩

/-- The recipient output is only added for a positive amount. -/
def recipientOutputs (amount : Int) (recipient_bytes : Bytes) : List UtxoOutput :=
  if amount > 0 then [⟨amount, recipient_bytes, 0⟩] else []

/-- Change below the threshold goes to the fee. -/
def changeOutputs (owner_pk : Bytes) (current_total required real_fee : Int) : List UtxoOutput × Int :=
  if current_total > required then
    let change := current_total-required
    if change < DUST_THRESHOLD then ([], real_fee+change) else ([⟨change, owner_pk, 0⟩], real_fee)
  else ([], real_fee)

/-- The envelope with one segment that holds the offer and the commitment to the fee. -/
def unshieldedEnvelope (network_id : String) (rnd : Bytes) (ttl real_fee : Int) (inputs : List UtxoSpend)
    (outputs : List UtxoOutput) : StandardTransaction :=
  let intent : Intent := {
    guaranteed_unshielded_offer := some ⟨some inputs, some outputs, some []⟩
    ttl := some ttl
    actions := some []
    binding_commitment := some (computeBindingCommitment rnd real_fee) }
  { network_id := some network_id
    intents := some (Dict.ofList [(.str "0", intent)])
    binding_randomness := some rnd }

/-- The payload of the recipient's address, whatever its kind and network. -/
def decodeRecipient (to_address : String) : Except PyError Bytes :=
  match decodeAddress to_address with
  | .ok (_, _, recipient_bytes) => .ok recipient_bytes
  | .error e => .error (.transactionError ("Invalid recipient address: " ++ e.str))

/-- The token type the records are filtered by. -/
def effectiveToken (token_type : Bytes) (use_dust : Bool) : Bytes :=
  if use_dust then RawTokenType.DUST else token_type

def fetchUtxos (client : NoxipherClient) (wallet : MidnightWallet) (use_dust : Bool) :
    Except PyError (List UtxoRecord) :=
  if use_dust then wallet.dust.getUtxos client.indexer else wallet.unshielded.getUtxos client.indexer

def ownerKey (wallet : MidnightWallet) (use_dust : Bool) : Bytes :=
  if use_dust then wallet.dust.publicKey else wallet.unshielded.publicKey

/-- From the shortfall check on: inputs, outputs, fee and envelope. -/
def settleTransfer (network_id : String) (rnd owner_pk recipient_bytes : Bytes) (amount real_fee ttl : Int)
    (selected : List UtxoRecord) (current_total : Int) : Except PyError TxData :=
  let required := amount+real_fee
  if current_total < required then
    .error (.transactionError
      s!"Insufficient unshielded balance for amount+fee: {current_total} < {required}")
  else do
    let inputs ← traverse (utxoSpend owner_pk) selected
    let settled := changeOutputs owner_pk current_total required real_fee
    let outputs := recipientOutputs amount recipient_bytes++settled.1
    return {
      type := some "unshielded_transfer"
      standard := some (unshieldedEnvelope network_id rnd ttl settled.2 inputs outputs)
      fee := some settled.2
      requires_unshielded_signature := some true
      is_unshielded_only := some true }

/-- `rnd` is what `secrets.token_bytes(32)` returns. -/
def buildUnshieldedTransfer (client : NoxipherClient) (rnd : Bytes) (wallet : MidnightWallet)
    (to_address : String) (amount : Int) (fee : Option Int) (ttl : Int) (token_type : Bytes)
    (use_dust : Bool) : Except PyError TxData := do
  let recipient_bytes ← decodeRecipient to_address
  let utxos ← fetchUtxos client wallet use_dust
  let eligible ← eligibleUtxos (effectiveToken token_type use_dust) utxos
  let real_fee := fee.getD client.config.min_fee
  let picked ← selectUtxos (amount+real_fee) eligible
  settleTransfer client.config.name rnd (ownerKey wallet use_dust) recipient_bytes amount real_fee ttl
    picked.1 picked.2

end TransactionBuilder

end Noxipher
