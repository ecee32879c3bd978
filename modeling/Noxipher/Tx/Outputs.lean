import Noxipher.Tx.Transfer

namespace Noxipher

/-- The guaranteed offer of segment "0". -/
def TxData.guaranteedOffer (tx : TxData) : Option UnshieldedOffer := do
  let stx ← tx.standard
  let intents ← stx.intents
  let intent ← intents.get? (.str "0")
  intent.guaranteed_unshielded_offer

namespace TransactionBuilder

theorem utxoSpend_owner {owner_pk : Bytes} {utxo : UtxoRecord} {spend : UtxoSpend}
    (h : utxoSpend owner_pk utxo = .ok spend) : spend.owner = owner_pk := by
  obtain ⟨value, -, h⟩ := bind_ok_iff.mp h
  obtain ⟨n, -, h⟩ := bind_ok_iff.mp h
  obtain ⟨intent_hash, -, h⟩ := bind_ok_iff.mp h
  obtain ⟨output_no, -, h⟩ := bind_ok_iff.mp h
  cases h
  rfl

/-- The input made of a record has its value, which sorting reads too, and its output number. -/
theorem utxoSpend_fields {owner_pk : Bytes} {utxo : UtxoRecord} {spend : UtxoSpend}
    (h : utxoSpend owner_pk utxo = .ok spend) :
    spend.value = utxo.amount ∧ spend.type_ = 0 ∧ utxo.outputNumber.toInt = .ok spend.output_no := by
  obtain ⟨value, hvalue, h⟩ := bind_ok_iff.mp h
  obtain ⟨n, hn, h⟩ := bind_ok_iff.mp h
  obtain ⟨intent_hash, -, h⟩ := bind_ok_iff.mp h
  obtain ⟨output_no, hno, h⟩ := bind_ok_iff.mp h
  cases h
  have hint : utxo.intValue = .ok n := by
    rw [UtxoRecord.intValue, required_ok_iff.mp hvalue, Option.getD_some, hn]
  refine ⟨?_, rfl, hno⟩
  rw [UtxoRecord.amount, hint]

theorem utxoSpends_total {owner_pk : Bytes} {utxos : List UtxoRecord} {spends : List UtxoSpend}
    (h : traverse (utxoSpend owner_pk) utxos = .ok spends) :
    Greedy.total UtxoSpend.value spends = Greedy.total UtxoRecord.amount utxos := by
  induction utxos generalizing spends with
  | nil =>
    cases h
    rfl
  | cons utxo utxos ih =>
    obtain ⟨spend, rest, hspend, hrest, rfl⟩ := traverse_cons_ok.mp h
    rw [Greedy.total_cons, Greedy.total_cons, ih hrest, (utxoSpend_fields hspend).1]

theorem changeOutputs_owner (owner_pk : Bytes) (current_total required real_fee : Int) :
    ∀ output ∈ (changeOutputs owner_pk current_total required real_fee).1, output.owner = owner_pk := by
  intro output hmem
  unfold changeOutputs at hmem
  split_ifs at hmem with hmore
  · simp only at hmem
    split_ifs at hmem with hdust
    · cases hmem
    · rw [List.mem_singleton.mp hmem]
  · cases hmem

section Build

variable {client : NoxipherClient} {rnd : Bytes} {wallet : MidnightWallet} {to_address : String} {amount : Int}
  {fee : Option Int} {ttl : Int} {token_type : Bytes} {use_dust : Bool} {tx : TxData}

/-- A built transfer pays the payload of the address; inputs and change belong to the paying key. -/
theorem buildUnshieldedTransfer_owners
    (hbuilt : buildUnshieldedTransfer client rnd wallet to_address amount fee ttl token_type use_dust = .ok tx) :
    ∃ kind network recipient_bytes inputs change,
      decodeAddress to_address = .ok (kind, network, recipient_bytes) ∧
      tx.guaranteedOffer =
        some ⟨some inputs, some (recipientOutputs amount recipient_bytes++change), some []⟩ ∧
      (∀ spend ∈ inputs, spend.owner = ownerKey wallet use_dust) ∧
      ∀ output ∈ change, output.owner = ownerKey wallet use_dust := by
  obtain ⟨recipient_bytes, hrec, hbuilt⟩ := bind_ok_iff.mp hbuilt
  obtain ⟨utxos, -, hbuilt⟩ := bind_ok_iff.mp hbuilt
  obtain ⟨eligible, -, hbuilt⟩ := bind_ok_iff.mp hbuilt
  obtain ⟨picked, -, hbuilt⟩ := bind_ok_iff.mp hbuilt
  unfold settleTransfer at hbuilt
  simp only at hbuilt
  split_ifs at hbuilt with hshort
  obtain ⟨inputs, hinputs, hbuilt⟩ := bind_ok_iff.mp hbuilt
  cases hbuilt
  have hdecode : ∃ kind network, decodeAddress to_address = .ok (kind, network, recipient_bytes) := by
    unfold decodeRecipient at hrec
    cases hd : decodeAddress to_address with
    | error e =>
      rw [hd] at hrec
      cases hrec
    | ok decoded =>
      obtain ⟨kind, network, payload⟩ := decoded
      rw [hd] at hrec
      cases hrec
      exact ⟨kind, network, rfl⟩
  obtain ⟨kind, network, hdecode⟩ := hdecode
  refine ⟨kind, network, recipient_bytes, inputs, _, hdecode, rfl, ?_, ?_⟩
  · intro spend hspend
    obtain ⟨utxo, -, hutxo⟩ := traverse_mem hinputs hspend
    exact utxoSpend_owner hutxo
  · exact changeOutputs_owner _ _ _ _

end Build

/-- Some address is decoded to any given payload. -/
theorem exists_recipient (recipient_bytes : Bytes) : ∃ to_address, decodeRecipient to_address = .ok recipient_bytes := by
  obtain ⟨to_address, -, hdecode⟩ := encodeAddress_decodes recipient_bytes .unshielded .preprod (by decide)
  exact ⟨to_address, by rw [decodeRecipient, hdecode]⟩

/-- The sample records pay 500 from the larger of the two: one input, the payment and the change. -/
theorem sample_transfer (wallet : MidnightWallet) {to_address : String} {kind : AddrType} {network : Network}
    {payload : Bytes} (hdecode : decodeAddress to_address = .ok (kind, network, payload)) :
    ∃ tx, buildUnshieldedTransfer sampleClient (List.replicate 32 9) wallet to_address 500 (some 100) 1800
        RawTokenType.NATIVE_NIGHT false = .ok tx ∧
      tx.guaranteedOffer = some ⟨some [⟨5000, wallet.unshielded.publicKey, 0, List.replicate 32 0, 1⟩],
        some [⟨500, payload, 0⟩, ⟨4400, wallet.unshielded.publicKey, 0⟩], some []⟩ := by
  have hfetch : fetchUtxos sampleClient wallet false = .ok sampleUtxos := rfl
  have heligible : eligibleUtxos (effectiveToken RawTokenType.NATIVE_NIGHT false) sampleUtxos = .ok sampleUtxos := by
    decide
  have hselect : selectUtxos (500+(some 100).getD sampleClient.config.min_fee) sampleUtxos = .ok
      ([{ value := some (.str "5000"), tokenType := some (.str zeroHex), outputNo := some (.str "1") }], 5000) := by
    decide +kernel
  rw [buildUnshieldedTransfer, decodeRecipient, hdecode]
  simp only [ok_bind, hfetch, heligible, hselect]
  exact ⟨_, rfl, rfl⟩

end TransactionBuilder

end Noxipher
