import Noxipher.Tx.Selection
import Noxipher.Tx.Submission
import Noxipher.Wallet.Balance

namespace Noxipher

theorem hexOf_injective {bs cs : Bytes} (h : hexOf bs = hexOf cs) : bs = cs := by
  have hback := congrArg fromhex h
  simpa using hback

/-- A record is of one token type. -/
theorem UtxoRecord.isToken_unique {utxo : UtxoRecord} {token_type other : Bytes} (h : utxo.isToken token_type = true)
    (hother : utxo.isToken other = true) : token_type = other := by
  unfold UtxoRecord.isToken at h hother
  cases htoken : utxo.tokenHex with
  | error e =>
    rw [htoken] at h
    cases h
  | ok text =>
    rw [htoken] at h hother
    have htext := of_decide_eq_true h
    have hsame := htext.symm.trans (of_decide_eq_true hother)
    rw [lower_hexOf, lower_hexOf] at hsame
    exact hexOf_injective (String.toList_inj.mp hsame)

namespace TransactionBuilder

/-- When every selected record is DUST, every output belongs to the key of every input. -/
def DustStays (client : NoxipherClient) (wallet : MidnightWallet) (amount : Int) (fee : Option Int)
    (token_type : Bytes) (use_dust : Bool) (tx : TxData) : Prop :=
  ∀ eligible picked inputs outputs, spendable client wallet token_type use_dust = .ok eligible →
    selectUtxos (amount+fee.getD client.config.min_fee) eligible = .ok picked →
    tx.guaranteedOffer = some ⟨some inputs, some outputs, some []⟩ →
    (∀ utxo ∈ picked.1, utxo.isToken RawTokenType.DUST = true) →
    ∀ spend ∈ inputs, ∀ output ∈ outputs, output.owner = spend.owner

/-- Nothing but the paying key itself is paid, or no DUST is spent. -/
def DustHarmless (client : NoxipherClient) (wallet : MidnightWallet) (to_address : String) (amount : Int)
    (token_type : Bytes) (use_dust : Bool) : Prop :=
  effectiveToken token_type use_dust ≠ RawTokenType.DUST ∨ spendable client wallet token_type use_dust = .ok [] ∨
    amount ≤ 0 ∨ decodeRecipient to_address = .ok (ownerKey wallet use_dust)

section Build

variable {client : NoxipherClient} {rnd : Bytes} {wallet : MidnightWallet} {to_address : String} {amount : Int}
  {fee : Option Int} {ttl : Int} {token_type : Bytes} {use_dust : Bool} {tx : TxData}

/-- DUST stays with its owner exactly when no DUST is spent, nothing is paid, or the paying key is paid. -/
theorem dustStays_iff
    (hbuilt : buildUnshieldedTransfer client rnd wallet to_address amount fee ttl token_type use_dust = .ok tx) :
    DustStays client wallet amount fee token_type use_dust tx ↔
      DustHarmless client wallet to_address amount token_type use_dust := by
  obtain ⟨stages⟩ := buildUnshieldedTransfer_stages hbuilt
  have hselected : ∀ eligible picked, spendable client wallet token_type use_dust = .ok eligible →
      selectUtxos (amount+fee.getD client.config.min_fee) eligible = .ok picked → picked.1 = stages.selected := by
    intro eligible picked hlisted hpicked
    have hsame := stages.picked
    rw [Except.ok.inj (stages.listed.symm.trans hlisted), hpicked] at hsame
    exact congrArg Prod.fst (Except.ok.inj hsame)
  constructor
  · intro hstays
    by_contra hharmful
    obtain ⟨hdust, hlisted, hamount, hpayee⟩ := not_or.mp hharmful |>.imp id (fun h => not_or.mp h |>.imp id not_or.mp)
    have hdust := not_not.mp hdust
    have hne : stages.inputs ≠ [] := by
      intro hnil
      apply hlisted
      rw [stages.listed, stages.inputs_eq_nil.mp hnil]
    obtain ⟨spend, hspend⟩ := List.exists_mem_of_ne_nil stages.inputs hne
    have hrecipient : (⟨amount, stages.recipient_bytes, 0⟩ : UtxoOutput) ∈
        recipientOutputs amount stages.recipient_bytes++stages.change := by
      rw [recipientOutputs, if_pos (not_le.mp hamount)]
      simp
    have howner := hstays _ _ _ _ stages.listed stages.picked stages.offer (hdust ▸ stages.isToken) spend hspend _
      hrecipient
    apply hpayee
    rw [stages.decoded]
    exact congrArg Except.ok (howner.trans (stages.input_owner spend hspend))
  · intro hharmless eligible picked inputs outputs hlisted hpicked hoffer hdust spend hspend output houtput
    rw [stages.offer] at hoffer
    cases hoffer
    rw [hselected eligible picked hlisted hpicked] at hdust
    have hspend_owner := stages.input_owner spend hspend
    rcases List.mem_append.mp houtput with hrecipient | hchange
    · unfold recipientOutputs at hrecipient
      split_ifs at hrecipient with hpositive
      · obtain ⟨utxo, hu, -⟩ := traverse_mem stages.spent hspend
        have htoken := UtxoRecord.isToken_unique (stages.isToken utxo hu) (hdust utxo hu)
        have hlist : stages.eligible ≠ [] := by
          intro hnil
          rw [stages.inputs_eq_nil.mpr hnil] at hspend
          cases hspend
        rcases hharmless with hother | hnone | hamount | hpayee
        · exact absurd htoken hother
        · exact absurd (Except.ok.inj (stages.listed.symm.trans hnone)) hlist
        · omega
        · rw [stages.decoded] at hpayee
          rw [List.mem_singleton.mp hrecipient, hspend_owner]
          exact Except.ok.inj hpayee
      · cases hrecipient
    · rw [stages.change_owner output hchange, hspend_owner]

end Build

/-- What a call of `transfer` submits was built without the DUST flag, and no shielded transfer is submitted. -/
theorem transfer_built {transientHash : List Fr → Fr} {client : NoxipherClient} {server : ProofServer}
    {rnd rnd' out_nonce change_nonce : Bytes} {draw : Nat} {wallet : MidnightWallet} {to_address : String}
    {amount : Int} {shielded : Bool} {token_type : Bytes} {fee : Option Int} {ttl : Int} {bytes : Bytes}
    (h : transfer transientHash client server rnd rnd' out_nonce change_nonce draw wallet to_address amount shielded
      token_type fee ttl = .ok bytes) :
    shielded = false ∧ ∃ tx raw,
      buildUnshieldedTransfer client rnd wallet to_address amount fee ttl token_type false = .ok tx ∧
      serializeTransaction client.config.name rnd' wallet draw tx = .ok raw ∧ raw.bytes = bytes := by
  cases shielded with
  | true =>
    rw [transfer_shielded_outcome] at h
    obtain ⟨unsigned_tx, -, h⟩ := bind_ok_iff.mp h
    obtain ⟨proven_tx, -, h⟩ := bind_ok_iff.mp h
    cases h
  | false =>
    obtain ⟨tx, htx, h⟩ := bind_ok_iff.mp h
    obtain ⟨raw, hraw, h⟩ := bind_ok_iff.mp h
    exact ⟨rfl, tx, raw, htx, hraw, Except.ok.inj h⟩

/-- DUST stays with its owner, on both routes of the builder and in every transfer that is submitted, exactly when no
DUST is spent, nothing is paid, or the paying key is paid. -/
theorem dust_never_leaves_iff (client : NoxipherClient) (wallet : MidnightWallet) (to_address : String) (amount : Int)
    (fee : Option Int) (ttl : Int) (token_type : Bytes) :
    (∀ rnd use_dust tx,
      buildUnshieldedTransfer client rnd wallet to_address amount fee ttl token_type use_dust = .ok tx →
      (DustStays client wallet amount fee token_type use_dust tx ↔
        DustHarmless client wallet to_address amount token_type use_dust)) ∧
    ∀ transientHash server rnd rnd' out_nonce change_nonce draw shielded bytes,
      transfer transientHash client server rnd rnd' out_nonce change_nonce draw wallet to_address amount shielded
        token_type fee ttl = .ok bytes →
      shielded = false ∧ ∃ tx raw,
        buildUnshieldedTransfer client rnd wallet to_address amount fee ttl token_type false = .ok tx ∧
        serializeTransaction client.config.name rnd' wallet draw tx = .ok raw ∧ raw.bytes = bytes ∧
        (DustStays client wallet amount fee token_type false tx ↔
          DustHarmless client wallet to_address amount token_type false) := by
  refine ⟨fun rnd use_dust tx h => dustStays_iff h, ?_⟩
  intro transientHash server rnd rnd' out_nonce change_nonce draw shielded bytes h
  obtain ⟨hshielded, tx, raw, htx, hraw, hbytes⟩ := transfer_built h
  exact ⟨hshielded, tx, raw, htx, hraw, hbytes, dustStays_iff htx⟩

theorem feeClient_spendable (use_dust : Bool) :
    spendable feeClient (walletAt "night") RawTokenType.DUST use_dust = .ok dustUtxos := by
  have heligible : eligibleUtxos RawTokenType.DUST dustUtxos = .ok dustUtxos := by decide
  cases use_dust with
  | true => rw [spendable, feeClient_fetch]; exact heligible
  | false => exact heligible

/-- With the flag, and with the token type, 500 DUST are paid to a foreign key. -/
theorem dust_paid_away :
    ∃ to_address flagged typed,
      buildUnshieldedTransfer feeClient (List.replicate 32 9) (walletAt "night") to_address 500 (some 100) 1800
        RawTokenType.DUST true = .ok flagged ∧
      ¬ DustStays feeClient (walletAt "night") 500 (some 100) RawTokenType.DUST true flagged ∧
      buildUnshieldedTransfer feeClient (List.replicate 32 9) (walletAt "night") to_address 500 (some 100) 1800
        RawTokenType.DUST false = .ok typed ∧
      ¬ DustStays feeClient (walletAt "night") 500 (some 100) RawTokenType.DUST false typed := by
  obtain ⟨to_address, hrec⟩ := exists_recipient (List.replicate 32 7)
  have hselect : selectUtxos (500+(some 100).getD feeClient.config.min_fee) dustUtxos = .ok (dustUtxos, 50000) := by
    decide +kernel
  have hroute (use_dust : Bool) : ∃ tx, buildUnshieldedTransfer feeClient (List.replicate 32 9) (walletAt "night")
      to_address 500 (some 100) 1800 RawTokenType.DUST use_dust = .ok tx ∧
      ¬ DustStays feeClient (walletAt "night") 500 (some 100) RawTokenType.DUST use_dust tx := by
    have hbuild : ∃ tx, buildUnshieldedTransfer feeClient (List.replicate 32 9) (walletAt "night")
        to_address 500 (some 100) 1800 RawTokenType.DUST use_dust = .ok tx := by
      obtain ⟨utxos, hfetch, heligible⟩ := bind_ok_iff.mp (feeClient_spendable use_dust)
      simp only [buildUnshieldedTransfer, hrec, ok_bind, hfetch, heligible, hselect]
      exact ⟨_, rfl⟩
    obtain ⟨tx, htx⟩ := hbuild
    refine ⟨tx, htx, ?_⟩
    rw [dustStays_iff htx, DustHarmless, feeClient_spendable, hrec]
    have hkey : List.replicate 32 7 ≠ ownerKey (walletAt "night") use_dust := by
      cases use_dust <;> decide
    have htoken : effectiveToken RawTokenType.DUST use_dust = RawTokenType.DUST := by cases use_dust <;> rfl
    intro hharmless
    rcases hharmless with hother | hnone | hamount | hpayee
    · exact hother htoken
    · cases hnone
    · omega
    · exact hkey (Except.ok.inj hpayee)
  obtain ⟨flagged, hflagged, hleaves⟩ := hroute true
  obtain ⟨typed, htyped, hleaves'⟩ := hroute false
  exact ⟨to_address, flagged, typed, hflagged, hleaves, htyped, hleaves'⟩

end TransactionBuilder

end Noxipher
