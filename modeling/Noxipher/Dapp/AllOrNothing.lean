import Noxipher.Dapp.Connector

namespace Noxipher

open Greedy TransactionBuilder

namespace DAppConnector

/-- No input can be appended: the records cannot be fetched or sorted, there is no list to append to, or the
record that is tried first, if there is one, cannot be read. -/
def NothingToAppend (client : NoxipherClient) (wallet : MidnightWallet) (offer : UnshieldedOffer) : Prop :=
  ∀ utxos inputs, wallet.unshielded.getUtxos client.indexer = .ok utxos → offer.inputs = some inputs →
    (∀ utxo ∈ utxos.filter (isEligible inputs), ∃ n, utxo.intValue = .ok n) →
    ∀ first, (descending UtxoRecord.amount (utxos.filter (isEligible inputs))).head? = some first →
      ∃ e, utxoSpend wallet.unshielded.publicKey first = .error e

/-- Every level is there, and what can fail does so before the first input is appended. -/
def FailsEarly (client : NoxipherClient) (wallet : MidnightWallet) (stx : StandardTransaction) : Prop :=
  ∃ offer, stx.zeroOffer = some offer ∧
    (outputsVal offer+client.config.min_fee ≤ inputsVal offer ∨ NothingToAppend client wallet offer)

section Append

variable {owner_pk : Bytes} {required : Int}

theorem appendInputs_unchanged_iff (sorted : List UtxoRecord) (inputs : List UtxoSpend) (inputs_val : Int) :
    (appendInputs owner_pk required sorted inputs inputs_val).1 = inputs ↔
      ∀ first, sorted.head? = some first → ∃ e, utxoSpend owner_pk first = .error e := by
  cases sorted with
  | nil => simp [appendInputs]
  | cons utxo sorted =>
    rw [List.head?_cons]
    cases hspend : utxoSpend owner_pk utxo with
    | error e =>
      have hstop : (appendInputs owner_pk required (utxo::sorted) inputs inputs_val).1 = inputs := by
        simp only [appendInputs, hspend]
      refine iff_of_true hstop ?_
      intro first hfirst
      cases hfirst
      exact ⟨e, hspend⟩
    | ok spend =>
      refine iff_of_false ?_ ?_
      · intro hsame
        have hlonger : ∃ added, (appendInputs owner_pk required (utxo::sorted) inputs inputs_val).1 =
            inputs++spend::added := by
          by_cases hreach : required ≤ inputs_val+spend.value
          · refine ⟨[], ?_⟩
            simp only [appendInputs, hspend, if_pos hreach]
          · obtain ⟨-, -, spends, -, -, hgrown, -⟩ := appendInputs_made owner_pk required sorted (inputs++[spend])
              (inputs_val+spend.value)
            refine ⟨spends, ?_⟩
            simp only [appendInputs, hspend, if_neg hreach, hgrown, List.append_assoc, List.singleton_append]
        obtain ⟨added, hadded⟩ := hlonger
        rw [hsame] at hadded
        have hlength := congrArg List.length hadded
        rw [List.length_append, List.length_cons] at hlength
        omega
      · intro hunreadable
        obtain ⟨e, he⟩ := hunreadable utxo rfl
        rw [hspend] at he
        cases he

end Append

section Raise

variable {client : NoxipherClient} {wallet : MidnightWallet} {ttl_seconds : Int}

theorem addInputs_unchanged_iff (required : Int) (offer : UnshieldedOffer) :
    (addInputs client wallet required offer).1 = offer ↔ NothingToAppend client wallet offer := by
  cases hfound : candidates client wallet offer with
  | error e =>
    have hstop : (addInputs client wallet required offer).1 = offer := by simp only [addInputs, hfound]
    refine iff_of_true hstop ?_
    intro utxos inputs hutxos hinputs hnumbers
    have hok := candidates_ok_iff.mpr ⟨utxos, hutxos, hinputs, hnumbers, rfl⟩
    rw [hfound] at hok
    cases hok
  | ok found =>
    obtain ⟨inputs, sorted⟩ := found
    obtain ⟨utxos, hutxos, hinputs, hnumbers, hsorted⟩ := candidates_ok_iff.mp hfound
    have hadded : (addInputs client wallet required offer).1 = { offer with
        inputs := some (appendInputs wallet.unshielded.publicKey required sorted inputs (inputsVal offer)).1 } := by
      simp only [addInputs, hfound]
    have hsame : (addInputs client wallet required offer).1 = offer ↔
        (appendInputs wallet.unshielded.publicKey required sorted inputs (inputsVal offer)).1 = inputs := by
      rw [hadded]
      constructor
      · intro h
        have hlist := congrArg UnshieldedOffer.inputs h
        rw [hinputs] at hlist
        exact Option.some.inj hlist
      · intro h
        rw [h, ← hinputs]
    rw [hsame, appendInputs_unchanged_iff, hsorted]
    constructor
    · intro hfirst utxos' inputs' hutxos' hinputs' _
      rw [hutxos] at hutxos'
      cases hutxos'
      rw [hinputs] at hinputs'
      cases hinputs'
      exact hfirst
    · intro hnothing
      exact hnothing utxos inputs hutxos hinputs hnumbers

/-- The change output is the last step, so its error leaves the offer as it was before it. -/
theorem addChange_error {owner_pk : Bytes} {required inputs_val : Int} {offer : UnshieldedOffer} {e : PyError}
    (h : (addChange owner_pk required inputs_val offer).2 = .error e) :
    (addChange owner_pk required inputs_val offer).1 = offer := by
  unfold addChange at h ⊢
  split_ifs at h ⊢
  cases ho : offer.outputs with
  | none => rfl
  | some outputs =>
    rw [ho] at h
    cases h

theorem balanceOffer_unchanged_iff {offer : UnshieldedOffer} {e : PyError}
    (h : (balanceOffer client wallet offer).2 = .error e) :
    (balanceOffer client wallet offer).1 = offer ↔
      outputsVal offer+client.config.min_fee ≤ inputsVal offer ∨ NothingToAppend client wallet offer := by
  rcases lt_or_ge (inputsVal offer) (outputsVal offer+client.config.min_fee) with hless | hcovered
  · have hstate : (balanceOffer client wallet offer).1 =
        (addInputs client wallet (outputsVal offer+client.config.min_fee) offer).1 := by
      rcases hadd : addInputs client wallet (outputsVal offer+client.config.min_fee) offer with ⟨added, e' | inputs_val⟩
      · rw [balanceOffer_error client wallet hless hadd]
      · rw [balanceOffer_added client wallet hless hadd] at h ⊢
        exact addChange_error h
    rw [hstate, addInputs_unchanged_iff]
    constructor
    · exact Or.inr
    · intro hor
      rcases hor with hcovered | hnothing
      · omega
      · exact hnothing
  · rw [balanceOffer_covered client wallet hcovered] at h ⊢
    exact iff_of_true (addChange_error h) (Or.inl hcovered)

/-- When balancing raises, the caller's dictionary is what it was exactly when every level was there and the
failure came before the first input. -/
theorem balanceTransaction_unchanged_iff {unbound_tx : UnboundTx} {e : PyError}
    (hraise : (balanceTransaction client wallet ttl_seconds unbound_tx).2 = .error e) :
    (balanceTransaction client wallet ttl_seconds unbound_tx).1 = unbound_tx ↔
      FailsEarly client wallet unbound_tx.standard := by
  have hoffer := balanceTransaction_zeroOffer client wallet ttl_seconds unbound_tx
  rw [balanceTransaction_result] at hraise
  constructor
  · intro hsame
    rw [hsame] at hoffer
    obtain ⟨-, -, -, hopened⟩ := openZero_of_zeroOffer ttl_seconds hoffer
    refine ⟨(openZero ttl_seconds unbound_tx.standard).offer, ?_, ?_⟩
    · rw [hopened]
      exact hoffer
    · exact (balanceOffer_unchanged_iff hraise).mp hopened.symm
  · intro ⟨offer, hzero, hearly⟩
    obtain ⟨hintents, hget, hpresent, hopened⟩ := openZero_of_zeroOffer ttl_seconds hzero
    rw [hopened] at hraise
    have hkept := (balanceOffer_unchanged_iff hraise).mpr hearly
    have hbalanced : balanceOffer client wallet (openZero ttl_seconds unbound_tx.standard).offer =
        (offer, .error e) := by
      rw [hopened]
      exact Prod.ext hkept hraise
    have hguaranteed := Option.eq_some_of_filter_eq_some hpresent
    rw [balanceTransaction_error client wallet ttl_seconds hbalanced, ← hguaranteed, Dict.set_get? hget]
    exact UnboundTx.writeIntents_self hintents

end Raise

/-- A wrapped transaction that pays 5000 to somebody. -/
def unboundTransfer : UnboundTx where
  tx_data := { standard := some { intents := some (Dict.ofList [(.str "0", {
    guaranteed_unshielded_offer := some {
      inputs := some []
      outputs := some [⟨5000, List.replicate 32 7, 0⟩] } })]) } }

/-- The record that is tried first has no hash that can be read: nothing is appended, and the dictionary stays as it
was. -/
theorem balanceTransaction_unchanged_sample :
    let malformed : UtxoRecord := { value := some (.int 20000), intentHash := some "0x", outputNo := some (.int 0) }
    let utxo : UtxoRecord := { value := some (.int 1000), outputNo := some (.int 0) }
    (balanceTransaction (clientWith [malformed, utxo]) sampleWallet 1800 unboundTransfer).1 = unboundTransfer := by
  intro malformed utxo
  have hraise : (balanceTransaction (clientWith [malformed, utxo]) sampleWallet 1800 unboundTransfer).2 =
      .error (.valueError "non-hexadecimal number found in fromhex() arg") := by
    decide +kernel
  apply (balanceTransaction_unchanged_iff hraise).mpr
  refine ⟨_, rfl, Or.inr ?_⟩
  intro utxos inputs hutxos hinputs _ first hfirst
  cases hutxos
  cases hinputs
  have htried : (descending UtxoRecord.amount ([malformed, utxo].filter (isEligible []))).head? = some malformed := by
    decide +kernel
  rw [htried] at hfirst
  cases hfirst
  exact ⟨.valueError "non-hexadecimal number found in fromhex() arg", by decide +kernel⟩

/-- One record of 1000 does not cover 15000, but its input is left in the caller's offer. -/
theorem balanceTransaction_leaves_input :
    let utxo : UtxoRecord := { value := some (.int 1000), outputNo := some (.int 0) }
    let after := balanceTransaction (clientWith [utxo]) sampleWallet 1800 unboundTransfer
    after.2 = .error (.transactionError "Insufficient funds to balance transaction. Need 15000, have 1000") ∧
      after.1 ≠ unboundTransfer ∧
      after.1.standard.zeroOffer.bind UnshieldedOffer.inputs =
        some [⟨1000, sampleWallet.unshielded.publicKey, 0, List.replicate 32 0, 0⟩] := by
  intro utxo after
  have hinputs : after.1.standard.zeroOffer.bind UnshieldedOffer.inputs =
      some [⟨1000, sampleWallet.unshielded.publicKey, 0, List.replicate 32 0, 0⟩] := by
    decide +kernel
  refine ⟨by decide +kernel, ?_, hinputs⟩
  intro hsame
  rw [hsame] at hinputs
  have hbefore : unboundTransfer.standard.zeroOffer.bind UnshieldedOffer.inputs = some [] := by decide
  rw [hbefore] at hinputs
  cases hinputs

end DAppConnector

end Noxipher
