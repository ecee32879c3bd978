import Noxipher.Tx.Coverage
import Noxipher.Tx.Recipients
import Noxipher.Tx.SegmentZero
import Noxipher.Tx.Selection
import Noxipher.Tx.Submission
import Noxipher.Tx.Unambiguous
import Noxipher.Tx.Writable

namespace Noxipher

open Greedy PrefixCode

/-- The bytes a transaction is submitted as. -/
def StandardTransaction.extrinsic (stx : StandardTransaction) : Except PyError Bytes :=
  serializeStandardTransaction stx >>= serializeRawMidnightTx

/-- The wrapping for the pallet is read back. -/
theorem serializeRawMidnightTx_splits : Splits (fun _ _ => True) Eq serializeRawMidnightTx := by
  have hcall : Splits (fun _ _ : Bytes => True) (fun _ _ => True)
      (fun _ => (Except.ok [5, 0] : Except PyError Bytes)) :=
    splits_same (fun _ _ _ => rfl)
  have hcount : Splits (fun _ _ => True) _ _ := encodeCount_splits.field (List.length (α := UInt8))
  have hdata := hcount.consKnown (splits_raw (ε := PyError) (fun data => data) (fun _ _ hr => hr.2)).last
  exact (hcall.cons hdata).mono (fun _ _ hr => hr) (fun _ _ _ he => he.2.2)

/-- Whoever reads the submitted bytes finds the network, the segments and the randomness. -/
theorem extrinsic_reads {stx other : StandardTransaction} {bytes : Bytes} (hstx : stx.Sized) (hother : other.Sized)
    (h : stx.extrinsic = .ok bytes) (h' : other.extrinsic = .ok bytes) : stx.Equivalent other := by
  obtain ⟨x, hx, hbytes⟩ := bind_ok_iff.mp h
  obtain ⟨y, hy, hbytes'⟩ := bind_ok_iff.mp h'
  have hxy : x = y := serializeRawMidnightTx_splits.agree trivial hbytes hbytes'
  obtain ⟨p, hp, hpx⟩ := serializeStandardTransaction_ok hx
  obtain ⟨q, hq, hqy⟩ := serializeStandardTransaction_ok hy
  rw [← hxy] at hqy
  rw [← taggedSerialize_inj hpx hqy] at hq
  obtain ⟨hnet, ⟨d, e, l, m, hd, he, hl, hm, hlm⟩, hrand⟩ := standardPayload_splits.agree ⟨hstx, hother⟩ hp hq
  exact ⟨hnet, (sameSorted_iff hd he hl hm hstx.distinct).mp hlm, hrand⟩

/-- What a transaction of the SDK decides on its way to the node. -/
structure Payment where
  selected : List UtxoRecord
  inputs : List UtxoSpend
  outputs : List UtxoOutput
  actions : List ContractAction
  fee : Int
  ttl : Int
  randomness : Bytes
  signature : Bytes

namespace Payment

variable (payment : Payment) (network_id : String)

/-- The only intent, with the given signatures. -/
def intent (signatures : List Bytes) : Intent where
  guaranteed_unshielded_offer := some ⟨some payment.inputs, some payment.outputs, some signatures⟩
  ttl := some payment.ttl
  actions := some payment.actions
  binding_commitment := some (computeBindingCommitment payment.randomness payment.fee)

/-- The transaction with the intent as its only segment. -/
def standard (signatures : List Bytes) : StandardTransaction where
  network_id := some network_id
  intents := some (Dict.ofList [(.str "0", payment.intent signatures)])
  binding_randomness := some payment.randomness

theorem standard_segments (signatures : List Bytes) : (payment.standard network_id signatures).segments =
    [(.ok 0, (payment.intent signatures).normalize)] := rfl

end Payment

namespace TransactionBuilder

section Steps

variable {network_id : String} {wallet : MidnightWallet} {draw : Nat} {rnd : Bytes} {tx t : TxData}
  {log : List SignRecord} {payment : Payment}

/-- Step 1 replaces zero randomness. -/
theorem bindRandomness_payment (hs : tx.standard = some (payment.standard network_id []))
    (hfee : tx.fee = some payment.fee) (h : bindRandomness rnd tx = .ok t) :
    t.standard = some ({ payment with randomness :=
      if payment.randomness = List.replicate 32 0 then rnd else payment.randomness }.standard network_id []) := by
  by_cases hzero : payment.randomness = List.replicate 32 0
  · rw [bindRandomness_fresh hs rfl hzero, hfee] at h
    cases h
    rw [if_pos hzero]
    rfl
  · rw [bindRandomness_kept hs hzero] at h
    cases h
    rw [hs, if_neg hzero]

/-- The signer of the inputs signs the only intent, as it stands without signatures. -/
theorem signTransaction_payment (hs : tx.standard = some (payment.standard network_id []))
    (hflag : tx.requires_unshielded_signature = some true) (h : signTransaction wallet draw tx = .ok (t, log)) :
    ∃ payload, getUnshieldedSigningPayload 0 (payment.intent []) = .ok payload ∧
      t.standard = some (payment.standard network_id
        [(routedSigner wallet ⟨some payment.inputs, some payment.outputs, some []⟩).sign draw payload]) := by
  rw [signTransaction_loop wallet draw hflag hs rfl] at h
  obtain ⟨st, hst, h⟩ := bind_ok_iff.mp h
  cases h
  obtain ⟨st1, hsegment, hst⟩ := bind_ok_iff.mp hst
  cases hst
  obtain ⟨seg_id, hseg, hsegment⟩ := bind_ok_iff.mp hsegment
  obtain ⟨first, hg, hsegment⟩ := bind_ok_iff.mp hsegment
  obtain ⟨second, hf, hsegment⟩ := bind_ok_iff.mp hsegment
  cases hsegment
  cases hseg
  obtain ⟨inputs, hin, hg⟩ := bind_ok_iff.mp hg
  cases hin
  obtain ⟨payload, hpayload, hg⟩ := bind_ok_iff.mp hg
  cases hg
  cases hf
  exact ⟨payload, hpayload, rfl⟩

/-- The values of a signed intent fit their fields. -/
theorem payload_values {signatures : List Bytes} {payload : Bytes}
    (h : getUnshieldedSigningPayload 0 (payment.intent signatures) = .ok payload) :
    (∀ spend ∈ payment.inputs, 0 ≤ spend.value ∧ spend.value < 2^128) ∧
      ∀ output ∈ payment.outputs, 0 ≤ output.value ∧ output.value < 2^128 := by
  obtain ⟨hoffer, -⟩ := serializeIntent_returns_iff.mp (signingPayload_returns_iff.mp ⟨payload, h⟩).2
  obtain ⟨⟨inputs, hin, hspends⟩, ⟨outputs, hout, houtputs⟩, -⟩ :=
    serializeUnshieldedOffer_returns_iff.mp (serializeOptionalOffer_returns_iff.mp hoffer _ rfl)
  cases hin
  cases hout
  constructor
  · intro spend hspend
    have hwritten := (serializeVec_returns_iff.mp hspends).2 spend hspend
    exact serializeU128_returns_iff.mp (serializeUtxoSpend_returns_iff.mp hwritten).1
  · intro output houtput
    have hwritten := (serializeVec_returns_iff.mp houtputs).2 output houtput
    exact serializeU128_returns_iff.mp (serializeUtxoOutput_returns_iff.mp hwritten).1

end Steps

/-- Coins of one key are spent for a recipient and the key itself, and nothing is lost but the fee. -/
structure Settles (client : NoxipherClient) (wallet : MidnightWallet) (to_address : String) (amount : Int)
    (fee : Option Int) (ttl : Int) (token_type : Bytes) (use_dust : Bool) (payment : Payment) : Prop where
  coins : ∃ eligible, spendable client wallet token_type use_dust = .ok eligible ∧ payment.selected.Subperm eligible
  spent : traverse (utxoSpend (ownerKey wallet use_dust)) payment.selected = .ok payment.inputs
  outputs : ∃ (recipient_bytes : Bytes) (change : Option Int), decodeRecipient to_address = .ok recipient_bytes ∧
    payment.outputs = recipientOutputs amount recipient_bytes++
      change.toList.map (fun c => ⟨c, ownerKey wallet use_dust, 0⟩) ∧
    ∀ c ∈ change, DUST_THRESHOLD ≤ c ∧ payment.fee = fee.getD client.config.min_fee
  balanced : total UtxoSpend.value payment.inputs = total UtxoOutput.value payment.outputs+payment.fee+min amount 0
  least : fee.getD client.config.min_fee ≤ payment.fee
  most : payment.fee < fee.getD client.config.min_fee+DUST_THRESHOLD
  ttl : payment.ttl = ttl

/-- A key of the wallet that owns every input signed the intent as it stands without its signature. -/
structure Signs (wallet : MidnightWallet) (draw : Nat) (payment : Payment) : Prop where
  values : (∀ spend ∈ payment.inputs, 0 ≤ spend.value ∧ spend.value < 2^128) ∧
    ∀ output ∈ payment.outputs, 0 ≤ output.value ∧ output.value < 2^128
  signed : ∃ (signer : Sr25519Signer) (payload : Bytes),
    (signer = wallet.dust.signer ∨ signer = wallet.unshielded.signer) ∧
    (∀ spend ∈ payment.inputs, spend.owner = signer.public_key) ∧
    getUnshieldedSigningPayload 0 (payment.intent []) = .ok payload ∧ payment.signature = signer.sign draw payload

/-- The widths of keys, addresses, hashes, signatures and randomness. -/
structure Widths (wallet : MidnightWallet) (to_address : String) (randomness : Bytes) (selected : List UtxoRecord) :
    Prop where
  keys : wallet.KeysSized
  recipient : ∀ recipient_bytes, decodeRecipient to_address = .ok recipient_bytes → recipient_bytes.length = 32
  hashes : ∀ utxo ∈ selected, ∀ intent_hash, fromhex utxo.hashText = .ok intent_hash → intent_hash.length = 32
  signatures : ∀ signer, signer = wallet.dust.signer ∨ signer = wallet.unshielded.signer →
    ∀ n payload, (signer.sign n payload).length = 64
  randomness : randomness.length = 32

section Paths

variable {client : NoxipherClient} {rnd rnd' : Bytes} {draw : Nat} {wallet : MidnightWallet} {to_address : String}
  {amount : Int} {fee : Option Int} {ttl : Int} {token_type : Bytes} {use_dust : Bool} {payment : Payment}

/-- The recipient gets the amount; a negative one adds to the change. -/
theorem recipientOutputs_value (amount : Int) (recipient_bytes : Bytes) :
    total UtxoOutput.value (recipientOutputs amount recipient_bytes)+min amount 0 = amount := by
  rcases le_or_gt 0 amount with hpos | hneg
  · rw [recipientOutputs_total amount recipient_bytes hpos, min_eq_right hpos, add_zero]
  · rw [recipientOutputs, if_neg (by omega), total_nil, min_eq_left hneg.le, zero_add]

/-- What is built is a payment that lacks its signature. -/
theorem buildUnshieldedTransfer_payment {tx : TxData}
    (h : buildUnshieldedTransfer client rnd wallet to_address amount fee ttl token_type use_dust = .ok tx) :
    ∃ payment : Payment, Settles client wallet to_address amount fee ttl token_type use_dust payment ∧
      payment.actions = [] ∧ payment.randomness = rnd ∧
      tx.standard = some (payment.standard client.config.name []) ∧ tx.fee = some payment.fee ∧
      tx.type = some "unshielded_transfer" ∧ tx.requires_unshielded_signature = some true := by
  obtain ⟨recipient_bytes, hrec, h⟩ := bind_ok_iff.mp h
  obtain ⟨utxos, hfetch, h⟩ := bind_ok_iff.mp h
  obtain ⟨eligible, heligible, h⟩ := bind_ok_iff.mp h
  obtain ⟨⟨selected, current_total⟩, hpicked, h⟩ := bind_ok_iff.mp h
  obtain ⟨hsub, htotal, -⟩ := selectUtxos_part hpicked
  have htotal : current_total = total UtxoRecord.amount selected := htotal
  unfold settleTransfer at h
  simp only at h
  split_ifs at h with hshort
  obtain ⟨inputs, hinputs, h⟩ := bind_ok_iff.mp h
  obtain ⟨change, real_fee, hchange, hthreshold, hleast, hmost, hbalance⟩ := changeOutputs_spec
    (ownerKey wallet use_dust) current_total (amount+fee.getD client.config.min_fee) (fee.getD client.config.min_fee)
    (not_lt.mp hshort)
  rw [hchange] at h
  cases h
  have hvalue := utxoSpends_total hinputs
  have hpaid := recipientOutputs_value amount recipient_bytes
  have hkept := changeOutputs_total (ownerKey wallet use_dust) change
  let outputs := recipientOutputs amount recipient_bytes++change.toList.map (fun c => ⟨c, ownerKey wallet use_dust, 0⟩)
  have hbalanced : total UtxoSpend.value inputs = total UtxoOutput.value outputs+real_fee+min amount 0 := by
    rw [hvalue, ← htotal, total_append, hkept]
    omega
  exact ⟨⟨selected, inputs, outputs, [], real_fee, ttl, rnd, []⟩,
    ⟨⟨eligible, bind_ok_iff.mpr ⟨utxos, hfetch, heligible⟩, hsub⟩, hinputs,
      ⟨recipient_bytes, change, hrec, rfl, hthreshold⟩, hbalanced, hleast, hmost, rfl⟩, rfl, rfl, rfl, rfl, rfl, rfl⟩

theorem Settles.owner (h : Settles client wallet to_address amount fee ttl token_type use_dust payment) :
    ∀ spend ∈ payment.inputs, spend.owner = ownerKey wallet use_dust := by
  intro spend hspend
  obtain ⟨utxo, -, hutxo⟩ := traverse_mem h.spent hspend
  exact utxoSpend_owner hutxo

/-- A payment for which everything has its width is a transaction with fields of the right width. -/
theorem Settles.sized {network_id : String}
    (h : Settles client wallet to_address amount fee ttl token_type use_dust payment)
    (hsigns : Signs wallet draw payment) (hwidths : Widths wallet to_address payment.randomness payment.selected)
    (hactions : ∀ action ∈ payment.actions, action.Sized) :
    (payment.standard network_id [payment.signature]).Sized := by
  have hkey : (ownerKey wallet use_dust).length = 32 := by
    cases use_dust with
    | true => exact hwidths.keys.2
    | false => exact hwidths.keys.1
  have hspends : ∀ spend ∈ payment.inputs, spend.Sized := by
    intro spend hspend
    obtain ⟨utxo, hutxo, hmade⟩ := traverse_mem h.spent hspend
    obtain ⟨value, -, hmade⟩ := bind_ok_iff.mp hmade
    obtain ⟨n, -, hmade⟩ := bind_ok_iff.mp hmade
    obtain ⟨intent_hash, hread, hmade⟩ := bind_ok_iff.mp hmade
    obtain ⟨output_no, -, hmade⟩ := bind_ok_iff.mp hmade
    cases hmade
    exact ⟨hkey, hwidths.hashes utxo hutxo intent_hash hread⟩
  have houtputs : ∀ output ∈ payment.outputs, output.Sized := by
    obtain ⟨recipient_bytes, change, hrec, houtputs, -⟩ := h.outputs
    rw [houtputs]
    intro output houtput
    rcases List.mem_append.mp houtput with hpaid | hkept
    · unfold recipientOutputs at hpaid
      split_ifs at hpaid
      · rw [List.mem_singleton.mp hpaid]
        exact hwidths.recipient recipient_bytes hrec
      · cases hpaid
    · obtain ⟨c, -, rfl⟩ := List.mem_map.mp hkept
      exact hkey
  have hsignature : payment.signature.length = 64 := by
    obtain ⟨signer, payload, hsigner, -, -, hsig⟩ := hsigns.signed
    rw [hsig]
    exact hwidths.signatures signer hsigner draw payload
  have hintent : (payment.intent [payment.signature]).Sized := by
    constructor
    · intro offer hoffer
      cases hoffer
      refine ⟨?_, ?_, ?_⟩
      · intro l hl
        cases hl
        exact hspends
      · intro l hl
        cases hl
        exact houtputs
      · intro sig hsig
        rw [List.mem_singleton.mp hsig]
        exact hsignature
    · intro offer hoffer
      cases hoffer
    · exact hactions
    · intro c hc
      cases hc
      exact computeBindingCommitment_length _ _
  constructor
  · rfl
  · intro d hd p hp
    cases hd
    rw [List.mem_singleton.mp hp]
    exact hintent
  · rw [payment.standard_segments]
    exact List.nodup_singleton _
  · intro r hr
    cases hr
    exact hwidths.randomness

/-- The signer that an offer of inputs of one key is routed to has this key. -/
theorem routedSigner_key {inputs : List UtxoSpend} {outputs : List UtxoOutput} {signatures : List Bytes}
    (howner : ∀ spend ∈ inputs, spend.owner = ownerKey wallet use_dust) :
    ∀ spend ∈ inputs, spend.owner = (routedSigner wallet ⟨some inputs, some outputs, some signatures⟩).public_key := by
  intro spend hspend
  cases inputs with
  | nil => cases hspend
  | cons first rest =>
    rw [howner spend hspend, routedSigner, Option.getD_some, List.head?_cons, Option.map_some, Option.getD_some,
      howner first (by simp)]
    split_ifs with hsame
    · exact hsame
    · cases use_dust with
      | true => exact absurd rfl hsame
      | false => rfl

/-- Steps 1 and 2 bind and sign a payment, and its bytes are what is left. -/
theorem serializeTransaction_payment {network_id : String} {tx t1 : TxData} {raw : Serialized} (payment : Payment)
    (h1 : prepareStandard network_id tx = .ok t1) (hs : t1.standard = some (payment.standard network_id []))
    (hfee : t1.fee = some payment.fee) (hflag : tx.requires_unshielded_signature = some true)
    (howner : ∀ spend ∈ payment.inputs, spend.owner = ownerKey wallet use_dust)
    (h : serializeTransaction network_id rnd wallet draw tx = .ok raw) :
    ∃ signature, let payment' : Payment := { payment with
        randomness := if payment.randomness = List.replicate 32 0 then rnd else payment.randomness
        signature := signature }
      Signs wallet draw payment' ∧ (payment'.standard network_id [payment'.signature]).extrinsic = .ok raw.bytes := by
  obtain ⟨t, t2, ht, h2, h3, stx, midnight_tx_bytes, hstx, hmidnight, hbytes⟩ := serializeTransaction_ok.mp h
  rw [h1] at ht
  cases ht
  have hflag2 : t2.requires_unshielded_signature = some true := by
    rw [bindRandomness_flag h2, prepareStandard_flag h1, hflag]
  obtain ⟨payload, hpayload, hsigned⟩ := signTransaction_payment (bindRandomness_payment hs hfee h2) hflag2 h3
  rw [hstx] at hsigned
  cases hsigned
  let signer := routedSigner wallet ⟨some payment.inputs, some payment.outputs, some []⟩
  refine ⟨signer.sign draw payload, ⟨payload_values hpayload, signer, payload, routedSigner_wallet _ _,
    routedSigner_key howner, hpayload, rfl⟩, ?_⟩
  exact bind_ok_iff.mpr ⟨midnight_tx_bytes, hmidnight, hbytes⟩

theorem Settles.congr {payment' : Payment}
    (h : Settles client wallet to_address amount fee ttl token_type use_dust payment)
    (hsame : payment' = { payment with
      actions := payment'.actions, randomness := payment'.randomness, signature := payment'.signature }) :
    Settles client wallet to_address amount fee ttl token_type use_dust payment' := by
  rw [hsame]
  exact ⟨h.coins, h.spent, h.outputs, h.balanced, h.least, h.most, h.ttl⟩

end Paths

end TransactionBuilder

open TransactionBuilder

/-- What an application asks the builder to submit. -/
inductive BuilderRequest where
  | transfer (to_address : String) (amount : Int) (shielded : Bool) (token_type : Bytes)
  | call (contract_address entry_point : String) (args : PyValue)
  | deploy (bytecode : Bytes) (initial_state : PyValue)

namespace BuilderRequest

/-- Whom the unshielded part pays: a call and a deployment pay the wallet nothing. -/
def recipient (wallet : MidnightWallet) : BuilderRequest → String
  | .transfer to_address _ _ _ => to_address
  | _ => wallet.unshielded.address

section Submit

variable (transientHash : List Fr → Fr) (client : NoxipherClient) (server : ProofServer)
  (rnd rnd' out_nonce change_nonce : Bytes) (draw : Nat) (wallet : MidnightWallet) (fee : Option Int) (ttl : Int)

/-- The bytes that are handed to `submit_extrinsic`. -/
def submit : BuilderRequest → Except PyError Bytes
  | .transfer to_address amount shielded token_type => TransactionBuilder.transfer transientHash client server rnd rnd'
      out_nonce change_nonce draw wallet to_address amount shielded token_type fee ttl
  | .call contract_address entry_point args =>
    callContract client server rnd rnd' draw wallet contract_address entry_point args fee ttl
  | .deploy bytecode initial_state => deployContract client rnd rnd' draw wallet bytecode initial_state fee ttl

/-- The payment is the one asked for: shielded transfers and calls have none. -/
def PaidBy (payment : Payment) : BuilderRequest → Prop
  | .transfer to_address amount false token_type =>
    Settles client wallet to_address amount fee ttl token_type false payment ∧ payment.actions = []
  | .deploy bytecode initial_state => ∃ state, serializeContractArgs initial_state = .ok state ∧
    Settles client wallet wallet.unshielded.address 0 fee ttl RawTokenType.NATIVE_NIGHT true payment ∧
    payment.actions = [.deploy bytecode (some state)]
  | _ => False

end Submit

section Paths

variable {transientHash : List Fr → Fr} {client : NoxipherClient} {server : ProofServer}
  {rnd rnd' out_nonce change_nonce : Bytes} {draw : Nat} {wallet : MidnightWallet} {fee : Option Int} {ttl : Int}
  {bytes : Bytes}

theorem PaidBy.settles {request : BuilderRequest} {payment : Payment}
    (h : request.PaidBy client wallet fee ttl payment) :
    (∃ amount token_type use_dust,
      Settles client wallet (request.recipient wallet) amount fee ttl token_type use_dust payment) ∧
    (∀ action ∈ payment.actions, action.Sized) ∧ payment.actions.map ContractAction.normalize = payment.actions := by
  unfold PaidBy at h
  split at h
  · obtain ⟨hsettles, hactions⟩ := h
    rw [hactions]
    exact ⟨⟨_, _, _, hsettles⟩, by simp, rfl⟩
  · obtain ⟨state, -, hsettles, hactions⟩ := h
    rw [hactions]
    refine ⟨⟨_, _, _, hsettles⟩, ?_, rfl⟩
    intro action haction
    rw [List.mem_singleton.mp haction]
    trivial
  · exact h.elim

/-- The intent of a payment is read as it is. -/
theorem PaidBy.normalize {request : BuilderRequest} {payment : Payment}
    (h : request.PaidBy client wallet fee ttl payment) (signatures : List Bytes) :
    (payment.intent signatures).normalize = payment.intent signatures := by
  show ({ payment.intent signatures with
    actions := some (payment.actions.map ContractAction.normalize) } : Intent) = _
  rw [h.settles.2.2]
  rfl

theorem transfer_paid {to_address : String} {amount : Int} {token_type : Bytes}
    (h : TransactionBuilder.transfer transientHash client server rnd rnd' out_nonce change_nonce draw wallet to_address
      amount false token_type fee ttl = .ok bytes) :
    ∃ payment : Payment, Settles client wallet to_address amount fee ttl token_type false payment ∧
      payment.actions = [] ∧ Signs wallet draw payment ∧
      payment.randomness = (if rnd = List.replicate 32 0 then rnd' else rnd) ∧
      (payment.standard client.config.name [payment.signature]).extrinsic = .ok bytes := by
  rw [TransactionBuilder.transfer, if_neg (by simp)] at h
  obtain ⟨tx, hbuilt, h⟩ := bind_ok_iff.mp h
  obtain ⟨raw, hraw, h⟩ := bind_ok_iff.mp h
  cases h
  obtain ⟨payment, hsettles, hactions, hrandomness, hs, hfee, htype, hflag⟩ := buildUnshieldedTransfer_payment hbuilt
  have hprepare : prepareStandard client.config.name tx = .ok tx := by
    rw [prepareStandard, if_neg (by simp [htype]), if_neg (by simp [htype])]
  obtain ⟨signature, hsigns, hwritten⟩ := serializeTransaction_payment payment hprepare hs hfee hflag hsettles.owner
    hraw
  rw [hrandomness] at hsigns hwritten
  exact ⟨{ payment with randomness := _, signature := signature }, hsettles.congr rfl, hactions, hsigns, rfl, hwritten⟩

/-- The action of a deployment is there before the intent is signed. -/
theorem deploy_paid {bytecode : Bytes} {initial_state : PyValue}
    (h : deployContract client rnd rnd' draw wallet bytecode initial_state fee ttl = .ok bytes) :
    ∃ payment state, serializeContractArgs initial_state = .ok state ∧
      Settles client wallet wallet.unshielded.address 0 fee ttl RawTokenType.NATIVE_NIGHT true payment ∧
      payment.actions = [.deploy bytecode (some state)] ∧ Signs wallet draw payment ∧
      payment.randomness = (if rnd = List.replicate 32 0 then rnd' else rnd) ∧
      (payment.standard client.config.name [payment.signature]).extrinsic = .ok bytes := by
  obtain ⟨part, hpart, h⟩ := bind_ok_iff.mp h
  obtain ⟨raw, hraw, h⟩ := bind_ok_iff.mp h
  cases h
  obtain ⟨payment, hsettles, -, hrandomness, hs, hfee, -, -⟩ := buildUnshieldedTransfer_payment hpart
  obtain ⟨t1, t2, h1, -⟩ := serializeTransaction_ok.mp hraw
  have hprepared := h1
  rw [prepareStandard, if_pos (Or.inl rfl)] at h1
  obtain ⟨action, haction, h1⟩ := bind_ok_iff.mp h1
  rw [contractAction, if_pos rfl] at haction
  obtain ⟨code, hcode, haction⟩ := bind_ok_iff.mp haction
  obtain ⟨state, hstate, haction⟩ := bind_ok_iff.mp haction
  cases hcode
  cases haction
  rw [standardOrPlaceholder, hs, Option.getD_some] at h1
  obtain ⟨intents, hintents, h1⟩ := bind_ok_iff.mp h1
  cases hintents
  obtain ⟨written, hwritten, h1⟩ := bind_ok_iff.mp h1
  cases hwritten
  cases h1
  let deployed : Payment := { payment with actions := [.deploy bytecode (some state)] }
  have hsettled : Settles client wallet wallet.unshielded.address 0 fee ttl RawTokenType.NATIVE_NIGHT true deployed :=
    hsettles.congr rfl
  obtain ⟨signature, hsigns, hwritten⟩ := serializeTransaction_payment deployed hprepared rfl hfee rfl hsettled.owner
    hraw
  have hkept : deployed.randomness = rnd := hrandomness
  rw [hkept] at hsigns hwritten
  exact ⟨{ deployed with randomness := _, signature := signature }, state, hstate, hsettled.congr rfl, rfl, hsigns, rfl,
    hwritten⟩

end Paths

/-- The dictionary of a transfer of 500 from the larger of the sample records. -/
def builtSample : TxData :=
  let payment : Payment := ⟨[], [⟨5000, signingWallet.unshielded.publicKey, 0, List.replicate 32 0, 1⟩],
    [⟨500, List.replicate 32 7, 0⟩, ⟨4400, signingWallet.unshielded.publicKey, 0⟩], [], 100, 1800,
    1::List.replicate 31 0, []⟩
  { type := some "unshielded_transfer"
    standard := some (payment.standard "preprod" [])
    fee := some 100
    requires_unshielded_signature := some true
    is_unshielded_only := some true }

end BuilderRequest

end Noxipher
