import Noxipher.Proof.Prover
import Noxipher.Tx.Serialize
import Noxipher.Tx.Shielded
import Noxipher.Tx.Transfer

namespace Noxipher

open Greedy

namespace TransactionBuilder

/-- `_prove_transaction` -/
def proveTransaction (server : ProofServer) (tx : TxData) : Except PyError TxData := do
  let proven ← ZKProver.proveTransaction server tx
  return proven.modelDump

/-- The unshielded part that pays the fee of another transaction. -/
def feePart (client : NoxipherClient) (rnd : Bytes) (wallet : MidnightWallet) (fee : Option Int) (ttl : Int) :
    Except PyError TxData :=
  buildUnshieldedTransfer client rnd wallet wallet.unshielded.address 0 fee ttl RawTokenType.NATIVE_NIGHT true

/-- What `call_contract` hands to the prover. -/
def unsignedCall (client : NoxipherClient) (rnd : Bytes) (wallet : MidnightWallet)
    (contract_address entry_point : String) (args : PyValue) (fee : Option Int) (ttl : Int) : Except PyError TxData := do
  let unshielded_part ← feePart client rnd wallet fee ttl
  return {
    type := some "contract_call"
    contract_address := some contract_address
    entry_point := some entry_point
    args := some args
    circuits := some []
    requires_unshielded_signature := some true
    standard := unshielded_part.standard
    fee := unshielded_part.fee }

/-- What `transfer` hands to the prover for a shielded transfer. -/
def unsignedShielded (transientHash : List Fr → Fr) (client : NoxipherClient) (rnd out_nonce change_nonce : Bytes)
    (wallet : MidnightWallet) (to_address : String) (amount : Int) (token_type : Bytes) (fee : Option Int)
    (ttl : Int) : Except PyError TxData := do
  let unsigned_tx ← buildShieldedTransfer transientHash wallet to_address amount token_type out_nonce change_nonce
  let unshielded_part ← feePart client rnd wallet fee ttl
  return { unsigned_tx with
    standard := unshielded_part.standard
    fee := unshielded_part.fee
    requires_unshielded_signature := some true }

/-- The bytes `transfer` hands to `submit_extrinsic`; `rnd` is drawn while building, `rnd'` while serializing. -/
def transfer (transientHash : List Fr → Fr) (client : NoxipherClient) (server : ProofServer)
    (rnd rnd' out_nonce change_nonce : Bytes) (draw : Nat) (wallet : MidnightWallet) (to_address : String)
    (amount : Int) (shielded : Bool) (token_type : Bytes) (fee : Option Int) (ttl : Int) : Except PyError Bytes :=
  if shielded then do
    let unsigned_tx ← unsignedShielded transientHash client rnd out_nonce change_nonce wallet to_address amount
      token_type fee ttl
    let proven_tx ← proveTransaction server unsigned_tx
    let raw ← serializeTransaction client.config.name rnd' wallet draw proven_tx
    return raw.bytes
  else do
    let tx ← buildUnshieldedTransfer client rnd wallet to_address amount fee ttl token_type false
    let raw ← serializeTransaction client.config.name rnd' wallet draw tx
    return raw.bytes

/-- The bytes `call_contract` hands to `submit_extrinsic`. -/
def callContract (client : NoxipherClient) (server : ProofServer) (rnd rnd' : Bytes) (draw : Nat)
    (wallet : MidnightWallet) (contract_address entry_point : String) (args : PyValue) (fee : Option Int)
    (ttl : Int) : Except PyError Bytes := do
  let unsigned_tx ← unsignedCall client rnd wallet contract_address entry_point args fee ttl
  let proven_tx ← proveTransaction server unsigned_tx
  let raw ← serializeTransaction client.config.name rnd' wallet draw proven_tx
  return raw.bytes

/-- The bytes `deploy_contract` hands to `submit_extrinsic`; nothing is proved on this path. -/
def deployContract (client : NoxipherClient) (rnd rnd' : Bytes) (draw : Nat) (wallet : MidnightWallet)
    (bytecode : Bytes) (initial_state : PyValue) (fee : Option Int) (ttl : Int) : Except PyError Bytes := do
  let unshielded_part ← feePart client rnd wallet fee ttl
  let raw ← serializeTransaction client.config.name rnd' wallet draw {
    type := some "contract_deploy"
    bytecode := some bytecode
    initial_state := some initial_state
    circuits := some []
    requires_unshielded_signature := some true
    standard := unshielded_part.standard
    fee := unshielded_part.fee }
  return raw.bytes

/-- The fields that are read from a proven transaction are the ones that were handed to the prover. -/
def CarriesNeeded (unsigned_tx proven_tx : TxData) : Prop :=
  proven_tx.standard = unsigned_tx.standard ∧ proven_tx.fee = unsigned_tx.fee ∧
  (unsigned_tx.type = some "contract_call" → proven_tx.contract_address = unsigned_tx.contract_address ∧
    proven_tx.entry_point = unsigned_tx.entry_point ∧ proven_tx.args = unsigned_tx.args)

/-- What is left after proving: the type and the proofs, but neither envelope nor call. -/
structure Bare (unsigned_tx proven_tx : TxData) : Prop where
  type : proven_tx.type = unsigned_tx.type
  standard : proven_tx.standard = none
  fee : proven_tx.fee = none
  contract_address : proven_tx.contract_address = none
  proof_hexes : ∃ proofs, proven_tx.proof_hexes = some (.list proofs)

theorem proveTransaction_bare {server : ProofServer} {unsigned_tx proven_tx : TxData}
    (h : proveTransaction server unsigned_tx = .ok proven_tx) : Bare unsigned_tx proven_tx := by
  obtain ⟨proven, hp, h⟩ := bind_ok_iff.mp h
  cases h
  obtain ⟨tx, htx, -, hproven⟩ := ZKProver.proveTransaction_ok hp
  have htype : unsigned_tx.type = some tx.type := by
    obtain ⟨type, hty, htx⟩ := bind_ok_iff.mp htx
    cases htx
    exact validated_ok_iff.mp hty
  refine ⟨?_, rfl, rfl, rfl, _, rfl⟩
  rw [htype, hproven]
  rfl

theorem Bare.not_carries {unsigned_tx proven_tx : TxData} (h : Bare unsigned_tx proven_tx)
    (hfee : unsigned_tx.fee.isSome) : ¬ CarriesNeeded unsigned_tx proven_tx := by
  intro hc
  have hfee' := hc.2.1
  rw [h.fee] at hfee'
  rw [← hfee'] at hfee
  cases hfee

/-- Without its address a call is refused, after the placeholder envelope was written. -/
theorem Bare.call_refused {network_id : String} {rnd : Bytes} {wallet : MidnightWallet} {draw : Nat}
    {unsigned_tx proven_tx : TxData} (h : Bare unsigned_tx proven_tx) (htype : unsigned_tx.type = some "contract_call") :
    serializeTransaction network_id rnd wallet draw proven_tx = .error (.keyError "contract_address") := by
  have hcall : proven_tx.type = some "contract_call" := h.type.trans htype
  have haction : contractAction proven_tx = .error (.keyError "contract_address") := by
    rw [contractAction, if_neg (by simp [hcall]), h.contract_address]
    rfl
  have hprepare : prepareStandard network_id proven_tx = .error (.keyError "contract_address") := by
    rw [prepareStandard, if_pos (Or.inr hcall), haction]
    rfl
  rw [serializeTransaction, hprepare]
  rfl

/-- The proofs come back as a list, where the serializer asks for a table. -/
theorem Bare.shielded_refused {network_id : String} {rnd : Bytes} {wallet : MidnightWallet} {draw : Nat}
    {unsigned_tx proven_tx : TxData} (h : Bare unsigned_tx proven_tx)
    (htype : unsigned_tx.type = some "shielded_transfer") :
    serializeTransaction network_id rnd wallet draw proven_tx =
      .error (.attributeError "'list' object has no attribute 'get'") := by
  have hshielded : proven_tx.type = some "shielded_transfer" := h.type.trans htype
  obtain ⟨proofs, hproofs⟩ := h.proof_hexes
  have hoffer : zswapOfferOf proven_tx = .error (.attributeError "'list' object has no attribute 'get'") := by
    rw [zswapOfferOf, hproofs]
    rfl
  have hprepare : prepareStandard network_id proven_tx =
      .error (.attributeError "'list' object has no attribute 'get'") := by
    rw [prepareStandard, if_neg (by simp [hshielded]), if_pos hshielded, hoffer]
    rfl
  rw [serializeTransaction, hprepare]
  rfl

section Runs

variable (transientHash : List Fr → Fr) (client : NoxipherClient) (server : ProofServer)
  (rnd rnd' out_nonce change_nonce : Bytes) (draw : Nat) (wallet : MidnightWallet)
  (contract_address entry_point : String) (args : PyValue) (to_address : String) (amount : Int)
  (token_type : Bytes) (fee : Option Int) (ttl : Int)

/-- The fee part always tells its fee. -/
theorem feePart_fee {part : TxData} (h : feePart client rnd wallet fee ttl = .ok part) : part.fee.isSome := by
  obtain ⟨recipient_bytes, -, h⟩ := bind_ok_iff.mp h
  obtain ⟨utxos, -, h⟩ := bind_ok_iff.mp h
  obtain ⟨eligible, -, h⟩ := bind_ok_iff.mp h
  obtain ⟨picked, -, h⟩ := bind_ok_iff.mp h
  unfold settleTransfer at h
  simp only at h
  split_ifs at h with hs
  obtain ⟨inputs, -, h⟩ := bind_ok_iff.mp h
  cases h
  rfl

theorem unsignedCall_ok {unsigned_tx : TxData}
    (h : unsignedCall client rnd wallet contract_address entry_point args fee ttl = .ok unsigned_tx) :
    unsigned_tx.type = some "contract_call" ∧ unsigned_tx.fee.isSome := by
  obtain ⟨part, hpart, h⟩ := bind_ok_iff.mp h
  have hfee := feePart_fee client rnd wallet fee ttl hpart
  cases h
  exact ⟨rfl, hfee⟩

theorem unsignedShielded_ok {unsigned_tx : TxData}
    (h : unsignedShielded transientHash client rnd out_nonce change_nonce wallet to_address amount token_type fee
      ttl = .ok unsigned_tx) :
    unsigned_tx.type = some "shielded_transfer" ∧ unsigned_tx.fee.isSome := by
  obtain ⟨tx, htx, h⟩ := bind_ok_iff.mp h
  obtain ⟨part, hpart, h⟩ := bind_ok_iff.mp h
  have hfee := feePart_fee client rnd wallet fee ttl hpart
  cases h
  refine ⟨?_, hfee⟩
  unfold buildShieldedTransfer at htx
  simp only at htx
  split_ifs at htx with hs
  obtain ⟨spends, -, htx⟩ := bind_ok_iff.mp htx
  obtain ⟨decoded, -, htx⟩ := bind_ok_iff.mp htx
  cases htx
  rfl

/-- Whatever the server answers, a call ends while its envelope is rebuilt at the latest. -/
theorem callContract_outcome :
    callContract client server rnd rnd' draw wallet contract_address entry_point args fee ttl =
      (unsignedCall client rnd wallet contract_address entry_point args fee ttl >>= fun unsigned_tx =>
        proveTransaction server unsigned_tx >>= fun _ => .error (.keyError "contract_address")) := by
  unfold callContract
  cases hu : unsignedCall client rnd wallet contract_address entry_point args fee ttl with
  | error e => rfl
  | ok unsigned_tx =>
    rw [ok_bind, ok_bind]
    cases hp : proveTransaction server unsigned_tx with
    | error e => rfl
    | ok proven_tx =>
      rw [ok_bind, ok_bind, (proveTransaction_bare hp).call_refused (unsignedCall_ok _ _ _ _ _ _ _ _ hu).1]
      rfl

theorem transfer_shielded_outcome :
    transfer transientHash client server rnd rnd' out_nonce change_nonce draw wallet to_address amount true
        token_type fee ttl =
      (unsignedShielded transientHash client rnd out_nonce change_nonce wallet to_address amount token_type fee
        ttl >>= fun unsigned_tx => proveTransaction server unsigned_tx >>= fun _ =>
          .error (.attributeError "'list' object has no attribute 'get'")) := by
  unfold transfer
  rw [if_pos rfl]
  cases hu : unsignedShielded transientHash client rnd out_nonce change_nonce wallet to_address amount
      token_type fee ttl with
  | error e => rfl
  | ok unsigned_tx =>
    rw [ok_bind, ok_bind]
    cases hp : proveTransaction server unsigned_tx with
    | error e => rfl
    | ok proven_tx =>
      rw [ok_bind, ok_bind,
        (proveTransaction_bare hp).shielded_refused (unsignedShielded_ok _ _ _ _ _ _ _ _ _ _ _ hu).1]
      rfl

/-- With funds for the fee and a healthy server nothing stops a call before its envelope is rebuilt. -/
theorem callContract_funded {kind : AddrType} {network : Network} {recipient_bytes : Bytes}
    {utxos : List UtxoRecord} (hrec : decodeAddress wallet.unshielded.address = .ok (kind, network, recipient_bytes))
    (hfetch : fetchUtxos client wallet true = .ok utxos) (hwf : ∀ utxo ∈ utxos, utxo.WellFormed)
    (hcover : fee.getD client.config.min_fee ≤
      total UtxoRecord.amount (utxos.filter (UtxoRecord.isToken RawTokenType.DUST)))
    (hhealth : server.health = .ok true) :
    ∃ unsigned_tx proven_tx,
      unsignedCall client rnd wallet contract_address entry_point args fee ttl = .ok unsigned_tx ∧
      proveTransaction server unsigned_tx = .ok proven_tx ∧ ¬ CarriesNeeded unsigned_tx proven_tx ∧
      callContract client server rnd rnd' draw wallet contract_address entry_point args fee ttl =
        .error (.keyError "contract_address") := by
  obtain ⟨part, hpart, -⟩ := (buildUnshieldedTransfer_outcome client rnd wallet wallet.unshielded.address 0 fee ttl
    RawTokenType.NATIVE_NIGHT true kind network recipient_bytes utxos hrec hfetch hwf le_rfl).2
    (by rw [zero_add]; exact hcover)
  obtain ⟨unsigned_tx, hu⟩ : ∃ unsigned_tx,
      unsignedCall client rnd wallet contract_address entry_point args fee ttl = .ok unsigned_tx := by
    rw [unsignedCall, feePart, hpart]
    exact ⟨_, rfl⟩
  have hcircuits : unsigned_tx.circuits = some [] := by
    obtain ⟨part', -, hu⟩ := bind_ok_iff.mp hu
    cases hu
    rfl
  obtain ⟨htype, hfee⟩ := unsignedCall_ok client rnd wallet contract_address entry_point args fee ttl hu
  obtain ⟨proven_tx, hp⟩ : ∃ proven_tx, proveTransaction server unsigned_tx = .ok proven_tx := by
    simp only [proveTransaction, ZKProver.proveTransaction, UnsignedTransaction.modelValidate, htype, validated,
      ok_bind, hhealth, hcircuits, pure_ok]
    exact ⟨_, rfl⟩
  refine ⟨unsigned_tx, proven_tx, hu, hp, (proveTransaction_bare hp).not_carries hfee, ?_⟩
  rw [callContract_outcome, hu, ok_bind, hp, ok_bind]

/-- Proving drops the envelope, the fee and the call: no call and no shielded transfer is ever submitted, even
with funds for the fee and a healthy server. -/
theorem proving_loses_transaction :
    (∀ unsigned_tx proven_tx,
      unsignedCall client rnd wallet contract_address entry_point args fee ttl = .ok unsigned_tx ∨
        unsignedShielded transientHash client rnd out_nonce change_nonce wallet to_address amount token_type fee
          ttl = .ok unsigned_tx →
      proveTransaction server unsigned_tx = .ok proven_tx → ¬ CarriesNeeded unsigned_tx proven_tx) ∧
    (∀ bytes, callContract client server rnd rnd' draw wallet contract_address entry_point args fee ttl ≠ .ok bytes) ∧
    (∀ bytes, transfer transientHash client server rnd rnd' out_nonce change_nonce draw wallet to_address amount true
      token_type fee ttl ≠ .ok bytes) ∧
    (∀ kind network recipient_bytes utxos,
      decodeAddress wallet.unshielded.address = .ok (kind, network, recipient_bytes) →
      fetchUtxos client wallet true = .ok utxos → (∀ utxo ∈ utxos, utxo.WellFormed) →
      fee.getD client.config.min_fee ≤
        total UtxoRecord.amount (utxos.filter (UtxoRecord.isToken RawTokenType.DUST)) →
      server.health = .ok true →
      ∃ unsigned_tx proven_tx,
        unsignedCall client rnd wallet contract_address entry_point args fee ttl = .ok unsigned_tx ∧
        proveTransaction server unsigned_tx = .ok proven_tx ∧ ¬ CarriesNeeded unsigned_tx proven_tx ∧
        callContract client server rnd rnd' draw wallet contract_address entry_point args fee ttl =
          .error (.keyError "contract_address")) := by
  refine ⟨?_, ?_, ?_, ?_⟩
  · intro unsigned_tx proven_tx hu hp
    apply (proveTransaction_bare hp).not_carries
    rcases hu with hu | hu
    · exact (unsignedCall_ok client rnd wallet contract_address entry_point args fee ttl hu).2
    · exact (unsignedShielded_ok transientHash client rnd out_nonce change_nonce wallet to_address amount
        token_type fee ttl hu).2
  · intro bytes h
    rw [callContract_outcome] at h
    obtain ⟨unsigned_tx, -, h⟩ := bind_ok_iff.mp h
    obtain ⟨proven_tx, -, h⟩ := bind_ok_iff.mp h
    cases h
  · intro bytes h
    rw [transfer_shielded_outcome] at h
    obtain ⟨unsigned_tx, -, h⟩ := bind_ok_iff.mp h
    obtain ⟨proven_tx, -, h⟩ := bind_ok_iff.mp h
    cases h
  · intro kind network recipient_bytes utxos hrec hfetch hwf hcover hhealth
    exact callContract_funded client server rnd rnd' draw wallet contract_address entry_point args fee ttl
      hrec hfetch hwf hcover hhealth

end Runs

def dustUtxos : List UtxoRecord :=
  [{ value := some (.str "50000"), tokenType := some (.str (hexOf RawTokenType.DUST)), outputNo := some (.int 1) }]

def feeClient : NoxipherClient :=
  ⟨⟨"preprod", .preprod, 10000⟩, ⟨fun _ => .ok dustUtxos⟩⟩

def healthyServer : ProofServer := ⟨.ok true, fun _ _ => .ok [1]⟩

def walletAt (address : String) : MidnightWallet :=
  { sampleWallet with unshielded := { sampleWallet.unshielded with address := address } }

theorem dustUtxos_wellFormed : ∀ utxo ∈ dustUtxos, utxo.WellFormed := by
  intro utxo hu
  obtain rfl := List.mem_singleton.mp hu
  exact ⟨⟨_, 50000, rfl, by decide, by decide⟩, ⟨(hexOf RawTokenType.DUST).toList, by decide⟩,
    ⟨List.replicate 32 0, by decide⟩, ⟨1, rfl⟩⟩

theorem feeClient_fetch (address : String) : fetchUtxos feeClient (walletAt address) true = .ok dustUtxos := by
  obtain ⟨dust_address, hd, -⟩ := encodeAddress_decodes (0x73 :: List.replicate 32 4) .dust .preprod (by decide)
  have haddress : (walletAt address).dust.address = .ok dust_address := hd
  simp only [fetchUtxos, if_true, DustWallet.getUtxos, haddress, ok_bind]
  rfl

theorem proving_loses_transaction_sample :
    ∃ address, callContract feeClient healthyServer (List.replicate 32 9) (List.replicate 32 8) 0 (walletAt address)
        (hexOf (List.replicate 32 6)) "increment" (.dict [("n", .int 1)]) none 1800 =
      .error (.keyError "contract_address") := by
  obtain ⟨address, -, hrec⟩ := encodeAddress_decodes (List.replicate 32 7) .unshielded .preprod (by decide)
  have h := proving_loses_transaction (fun _ => FieldElement.ofNat 0) feeClient healthyServer (List.replicate 32 9)
    (List.replicate 32 8) [] [] 0 (walletAt address) (hexOf (List.replicate 32 6)) "increment" (.dict [("n", .int 1)])
    address 0 RawTokenType.NATIVE_NIGHT none 1800
  obtain ⟨unsigned_tx, proven_tx, -, -, -, hcall⟩ := h.2.2.2 .unshielded .preprod (List.replicate 32 7) dustUtxos hrec
    (feeClient_fetch address) dustUtxos_wellFormed (by decide) rfl
  exact ⟨address, hcall⟩

/-- A funded call with a healthy server: the proven dictionary lost what the serializer asks for. -/
theorem funded_call_lost :
    ∃ address unsigned_tx proven_tx,
      unsignedCall feeClient (List.replicate 32 9) (walletAt address) (hexOf (List.replicate 32 6)) "increment"
        (.dict [("n", .int 1)]) none 1800 = .ok unsigned_tx ∧
      proveTransaction healthyServer unsigned_tx = .ok proven_tx ∧ ¬ CarriesNeeded unsigned_tx proven_tx ∧
      callContract feeClient healthyServer (List.replicate 32 9) (List.replicate 32 8) 0 (walletAt address)
        (hexOf (List.replicate 32 6)) "increment" (.dict [("n", .int 1)]) none 1800 =
          .error (.keyError "contract_address") := by
  obtain ⟨address, -, hrec⟩ := encodeAddress_decodes (List.replicate 32 7) .unshielded .preprod (by decide)
  obtain ⟨unsigned_tx, proven_tx, hall⟩ := callContract_funded feeClient healthyServer (List.replicate 32 9)
    (List.replicate 32 8) 0 (walletAt address) (hexOf (List.replicate 32 6)) "increment" (.dict [("n", .int 1)]) none
    1800 hrec (feeClient_fetch address) dustUtxos_wellFormed (by decide) rfl
  exact ⟨address, unsigned_tx, proven_tx, hall⟩

end TransactionBuilder

end Noxipher
