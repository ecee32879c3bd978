import Noxipher.Dapp.Handover
import Noxipher.Dapp.NightCoins

namespace Noxipher

open Greedy TransactionBuilder

namespace TransactionBuilder

/-- The builder returns no change below the threshold. -/
theorem changeOutputs_threshold {owner_pk : Bytes} {current_total required real_fee : Int} {output : UtxoOutput}
    (h : output ∈ (changeOutputs owner_pk current_total required real_fee).1) : DUST_THRESHOLD ≤ output.value := by
  have hvalue := changeOutputs_value h
  unfold changeOutputs at h
  dsimp only at h
  split_ifs at h with hmore hdust
  · cases h
  · omega
  · cases h

end TransactionBuilder

namespace DAppConnector

/-- No change is due, or enough of it to be worth an output. -/
def ChangeWorthwhile (change : Int) : Prop := change = 0 ∨ DUST_THRESHOLD ≤ change

/-- The connector returns what the builder returns when that is nothing or worth an output. -/
theorem excess_values_iff (owner_pk own : Bytes) {required inputs_val : Int} (real_fee : Int)
    (hcover : required ≤ inputs_val) :
    (excess owner_pk required inputs_val).map UtxoOutput.value =
        (changeOutputs own inputs_val required real_fee).1.map UtxoOutput.value ↔
      ChangeWorthwhile (inputs_val-required) := by
  unfold excess changeOutputs ChangeWorthwhile
  dsimp only
  split_ifs with hmore hdust
  · have hpos : inputs_val-required ≠ 0 := by omega
    simp [hpos, hdust]
  · simp [not_lt.mp hdust]
  · have hzero : inputs_val-required = 0 := by omega
    simp [hzero]

/-- Under one key it returns the same outputs. -/
theorem excess_eq_changeOutputs {owner_pk : Bytes} {required inputs_val : Int} (real_fee : Int)
    (h : ChangeWorthwhile (inputs_val-required)) :
    excess owner_pk required inputs_val = (changeOutputs owner_pk inputs_val required real_fee).1 := by
  unfold ChangeWorthwhile at h
  unfold excess changeOutputs
  dsimp only
  split_ifs with hmore hdust
  · omega
  · rfl
  · rfl

/-- The connector returns an output too small for the builder exactly when the change is one. -/
theorem excess_dust_iff {owner_pk : Bytes} {required inputs_val : Int} (hcover : required ≤ inputs_val) :
    (∀ output ∈ excess owner_pk required inputs_val, ¬ (0 < output.value ∧ output.value < DUST_THRESHOLD)) ↔
      ChangeWorthwhile (inputs_val-required) := by
  unfold excess ChangeWorthwhile
  split_ifs with hmore
  · simp only [List.mem_singleton, forall_eq]
    omega
  · have hzero : inputs_val-required = 0 := by omega
    simp [hzero]

section Runs

variable {client other : NoxipherClient} {wallet : MidnightWallet} {ttl_seconds : Int} {unbound_tx : UnboundTx}
  {rnd : Bytes} {to_address : String} {amount : Int} {fee : Option Int} {ttl : Int} {token_type : Bytes}
  {use_dust : Bool} {tx : TxData}

/-- Balancing that succeeds appends what the final inputs exceed the outputs and the fee by. -/
theorem balanceOffer_change {offer settled : UnshieldedOffer}
    (h : balanceOffer client wallet offer = (settled, .ok ())) :
    outputsVal offer+client.config.min_fee ≤ inputsVal settled ∧
    settled.outputs.getD [] = offer.outputs.getD []++excess wallet.unshielded.publicKey
      (outputsVal offer+client.config.min_fee) (inputsVal settled) := by
  rcases lt_or_ge (inputsVal offer) (outputsVal offer+client.config.min_fee) with hless | hcovered
  · obtain ⟨utxos, inputs, before, last, rest, added, hgrown⟩ := balanceOffer_grown hless h
    have hval := hgrown.inputsVal_eq
    have hsum := hgrown.sum
    rw [hval]
    refine ⟨hgrown.reached, ?_⟩
    cases hout : offer.outputs with
    | none =>
      -- without outputs the sum leaves no excess
      have hnone : settled.outputs = none := by rw [hgrown.result, hout, Option.map_none]
      have hempty : outputsVal settled = outputsVal offer := by rw [outputsVal, outputsVal, hnone, hout]
      rw [hnone, excess, if_neg (by omega)]
      rfl
    | some outputs =>
      rw [hgrown.result, hout, Option.map_some, Option.getD_some, Option.getD_some]
  · rw [balanceOffer_covered client wallet hcovered] at h
    have hkept : inputsVal settled = inputsVal offer := by rw [addChange_settled h, inputsVal, inputsVal]
    rw [hkept]
    exact ⟨hcovered, addChange_outputs h⟩

theorem balanceTransaction_change (hok : (balanceTransaction client wallet ttl_seconds unbound_tx).2 = .ok ()) :
    let stx := unbound_tx.standard
    let after := (balanceTransaction client wallet ttl_seconds unbound_tx).1.standard
    let required := total UtxoOutput.value stx.zeroOutputs+client.config.min_fee
    required ≤ total UtxoSpend.value after.zeroInputs ∧
    after.zeroOutputs = stx.zeroOutputs++excess wallet.unshielded.publicKey required
      (total UtxoSpend.value after.zeroInputs) := by
  intro stx after required
  have hout : (openZero ttl_seconds stx).offer.outputs.getD [] = stx.zeroOutputs := openZero_list ttl_seconds rfl stx
  obtain ⟨settled, hsettled, hzero⟩ := balanceTransaction_ok_offer client wallet ttl_seconds hok
  have hafter : after.zeroOffer = some settled := hzero
  have hchange := balanceOffer_change hsettled
  rw [outputsVal, hout, inputsVal] at hchange
  rw [StandardTransaction.zeroInputs, StandardTransaction.zeroOutputs, hafter, Option.bind_some, Option.bind_some]
  exact hchange

/-- The outputs that balancing appends. -/
def balanceChange (before after : StandardTransaction) : List UtxoOutput :=
  after.zeroOutputs.drop before.zeroOutputs.length

/-- The inputs of a built transfer. -/
def transferInputs (tx : TxData) : List UtxoSpend := (tx.guaranteedOffer.bind UnshieldedOffer.inputs).getD []

/-- The outputs of a built transfer behind that of the recipient. -/
def transferChange (amount : Int) (tx : TxData) : List UtxoOutput :=
  ((tx.guaranteedOffer.bind UnshieldedOffer.outputs).getD []).drop (if 0 < amount then 1 else 0)

theorem transferChange_eq (stages : Stages other wallet to_address amount fee token_type use_dust tx) :
    transferChange amount tx = stages.change := by
  have hlength : (recipientOutputs amount stages.recipient_bytes).length = if 0 < amount then 1 else 0 := by
    unfold recipientOutputs
    split_ifs <;> rfl
  rw [transferChange, stages.offer, Option.bind_some, Option.getD_some, ← hlength, List.drop_left]

/-- For the same totals the change outputs of both paths are the same exactly when no change is due or it reaches the
threshold; below it the connector alone creates one. -/
theorem change_alike_iff (hok : (balanceTransaction client wallet ttl_seconds unbound_tx).2 = .ok ())
    (hbuilt : buildUnshieldedTransfer other rnd wallet to_address amount fee ttl token_type use_dust = .ok tx)
    (hinputs : total UtxoSpend.value (transferInputs tx) = total UtxoSpend.value
      (balanceTransaction client wallet ttl_seconds unbound_tx).1.standard.zeroInputs)
    (houtputs : amount = total UtxoOutput.value unbound_tx.standard.zeroOutputs)
    (hfee : fee.getD other.config.min_fee = client.config.min_fee) :
    let returned := balanceChange unbound_tx.standard
      (balanceTransaction client wallet ttl_seconds unbound_tx).1.standard
    let change := total UtxoSpend.value (transferInputs tx)-(amount+fee.getD other.config.min_fee)
    (returned.map UtxoOutput.value = (transferChange amount tx).map UtxoOutput.value ↔ ChangeWorthwhile change) ∧
    (ownerKey wallet use_dust = wallet.unshielded.publicKey →
      (returned = transferChange amount tx ↔ ChangeWorthwhile change)) ∧
    (∀ output ∈ transferChange amount tx, DUST_THRESHOLD ≤ output.value) ∧
    ((∀ output ∈ returned, ¬ (0 < output.value ∧ output.value < DUST_THRESHOLD)) ↔ ChangeWorthwhile change) := by
  obtain ⟨stages⟩ := buildUnshieldedTransfer_stages hbuilt
  have hown : transferInputs tx = stages.inputs := by
    rw [transferInputs, stages.offer, Option.bind_some, Option.getD_some]
  have htotal : total UtxoRecord.amount stages.selected = total UtxoSpend.value (transferInputs tx) := by
    rw [hown, utxoSpends_total stages.spent]
  obtain ⟨hcover, hbalanced⟩ := balanceTransaction_change hok
  rw [← hinputs, ← houtputs, ← hfee] at hcover hbalanced
  intro returned change
  have hreturned : returned = excess wallet.unshielded.publicKey (amount+fee.getD other.config.min_fee)
      (total UtxoSpend.value (transferInputs tx)) := by
    show List.drop _ _ = _
    rw [hbalanced, List.drop_left]
  have hchange : transferChange amount tx = (changeOutputs (ownerKey wallet use_dust)
      (total UtxoSpend.value (transferInputs tx)) (amount+fee.getD other.config.min_fee)
      (fee.getD other.config.min_fee)).1 := by
    rw [transferChange_eq stages, stages.returned, htotal]
  rw [hreturned, hchange]
  have hvalues : _ ↔ ChangeWorthwhile change := excess_values_iff wallet.unshielded.publicKey (ownerKey wallet use_dust)
    (fee.getD other.config.min_fee) hcover
  refine ⟨hvalues, ?_, ?_, excess_dust_iff hcover⟩
  · intro hkey
    rw [hkey] at hvalues ⊢
    constructor
    · intro hsame
      exact hvalues.mp (by rw [hsame])
    · exact excess_eq_changeOutputs _
  · intro output houtput
    exact changeOutputs_threshold houtput

end Runs

/-- A NIGHT record of a value, the only one. -/
def coin (value : Int) : UtxoRecord := { value := some (.int value) }

/-- The builder spends it to pay 5000 and the fee. -/
theorem coin_transfer {value : Int} {to_address : String} {recipient_bytes : Bytes}
    (hrec : decodeRecipient to_address = .ok recipient_bytes) (hcover : 15000 ≤ value) :
    ∃ tx, buildUnshieldedTransfer (clientWith [coin value]) (List.replicate 32 9) sampleWallet to_address 5000 none 1800
        RawTokenType.NATIVE_NIGHT false = .ok tx ∧
      tx.guaranteedOffer = some ⟨some [⟨value, sampleWallet.unshielded.publicKey, 0, List.replicate 32 0, 0⟩],
        some (recipientOutputs 5000 recipient_bytes++
          (changeOutputs sampleWallet.unshielded.publicKey value 15000 10000).1), some []⟩ := by
  have hlisted : spendable (clientWith [coin value]) sampleWallet RawTokenType.NATIVE_NIGHT false = .ok [coin value] := by
    show eligibleUtxos RawTokenType.NATIVE_NIGHT [coin value] = .ok [coin value]
    exact eligibleUtxos_singleton.mpr ((UtxoRecord.isToken_night _).mpr (Or.inl rfl))
  have hspend : utxoSpend sampleWallet.unshielded.publicKey (coin value) =
      .ok ⟨value, sampleWallet.unshielded.publicKey, 0, List.replicate 32 0, 0⟩ := by
    have hhash : fromhex (coin value).hashText = .ok (List.replicate 32 0) := fromhex_hexOf _
    rw [utxoSpend, hhash]
    rfl
  exact buildUnshieldedTransfer_single hrec hlisted hspend hcover

/-- Of 20000 both paths return 5000. -/
theorem change_alike_sample :
    ∃ to_address tx, buildUnshieldedTransfer (clientWith [coin 20000]) (List.replicate 32 9) sampleWallet to_address 5000
        none 1800 RawTokenType.NATIVE_NIGHT false = .ok tx ∧
      balanceChange unboundOutput.standard
        (balanceTransaction (clientWith [coin 20000]) sampleWallet 1800 unboundOutput).1.standard =
          transferChange 5000 tx := by
  obtain ⟨to_address, hrecipient⟩ := exists_recipient (List.replicate 32 7)
  obtain ⟨tx, hbuilt, hoffer⟩ := coin_transfer hrecipient (by decide : (15000 : Int) ≤ 20000)
  have hinputs : transferInputs tx = [⟨20000, sampleWallet.unshielded.publicKey, 0, List.replicate 32 0, 0⟩] := by
    rw [transferInputs, hoffer]
    rfl
  have hok : (balanceTransaction (clientWith [coin 20000]) sampleWallet 1800 unboundOutput).2 = .ok () := by
    decide +kernel
  have halike := change_alike_iff hok hbuilt (by rw [hinputs]; decide +kernel) (by decide +kernel) rfl
  refine ⟨to_address, tx, hbuilt, (halike.2.1 rfl).mpr (Or.inr ?_)⟩
  rw [hinputs]
  decide +kernel

/-- Of 15500 the connector returns 500, and the builder nothing. -/
theorem change_below_threshold :
    ∃ to_address tx, buildUnshieldedTransfer (clientWith [coin 15500]) (List.replicate 32 9) sampleWallet to_address 5000
        none 1800 RawTokenType.NATIVE_NIGHT false = .ok tx ∧
      (transferInputs tx).map UtxoSpend.value = [15500] ∧ transferChange 5000 tx = [] ∧
      let after := balanceTransaction (clientWith [coin 15500]) sampleWallet 1800 unboundOutput
      after.2 = .ok () ∧ after.1.standard.zeroInputs.map UtxoSpend.value = [15500] ∧
      balanceChange unboundOutput.standard after.1.standard = [⟨500, sampleWallet.unshielded.publicKey, 0⟩] ∧
      500 < DUST_THRESHOLD := by
  obtain ⟨to_address, hrecipient⟩ := exists_recipient (List.replicate 32 7)
  obtain ⟨tx, hbuilt, hoffer⟩ := coin_transfer hrecipient (by decide : (15000 : Int) ≤ 15500)
  refine ⟨to_address, tx, hbuilt, ?_, ?_, by decide +kernel⟩
  · rw [transferInputs, hoffer]
    rfl
  · rw [transferChange, hoffer]
    decide +kernel

end DAppConnector

end Noxipher
