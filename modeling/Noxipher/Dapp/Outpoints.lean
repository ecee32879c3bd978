import Noxipher.Dapp.Handover

namespace Noxipher

open Greedy TransactionBuilder

/-- The outpoints that the inputs of an offer spend. -/
def outpoints (inputs : List UtxoSpend) : List (Bytes × Int) := inputs.map (fun i => (i.intent_hash, i.output_no))

/-- No two records stand for one outpoint, however they write it. -/
def UtxoRecord.DistinctOutpoints (utxos : List UtxoRecord) : Prop :=
  utxos.Pairwise (fun utxo other => ∀ outpoint, utxo.outpoint = .ok outpoint → other.outpoint ≠ .ok outpoint)

theorem UtxoRecord.spent_iff {inputs : List UtxoSpend} {utxo : UtxoRecord} :
    utxo.Spent inputs ↔ ∃ outpoint ∈ outpoints inputs, utxo.outpoint = .ok outpoint := by
  unfold UtxoRecord.Spent outpoints
  simp only [List.mem_map, exists_exists_and_eq_and]

/-- The inputs made of records have their outpoints, in order. -/
theorem outpoints_of_utxoSpends {owner_pk : Bytes} {utxos : List UtxoRecord} {spends : List UtxoSpend}
    (h : traverse (utxoSpend owner_pk) utxos = .ok spends) :
    utxos.map UtxoRecord.outpoint = (outpoints spends).map .ok := by
  induction utxos generalizing spends with
  | nil =>
    cases h
    rfl
  | cons utxo utxos ih =>
    obtain ⟨spend, rest, hspend, hrest, rfl⟩ := traverse_cons_ok.mp h
    simp only [outpoints, List.map_cons, UtxoRecord.outpoint_of_utxoSpend hspend, ih hrest]

/-- Inputs made of records with distinct outpoints repeat one exactly when a record stands for that of an input. -/
theorem nodup_grown_iff {owner_pk : Bytes} {inputs added : List UtxoSpend} {taken : List UtxoRecord}
    (hmade : traverse (utxoSpend owner_pk) taken = .ok added) (hdistinct : (outpoints inputs).Nodup)
    (htaken : UtxoRecord.DistinctOutpoints taken) :
    (outpoints (inputs++added)).Nodup ↔ ∀ utxo ∈ taken, ¬ utxo.Spent inputs := by
  have hpoints := outpoints_of_utxoSpends hmade
  have hadded : (outpoints added).Nodup := by
    have hmapped : (taken.map UtxoRecord.outpoint).Pairwise
        (fun p q => ∀ outpoint, p = .ok outpoint → q ≠ .ok outpoint) := List.pairwise_map.mpr htaken
    rw [hpoints] at hmapped
    apply (List.pairwise_map.mp hmapped).imp
    intro p q h hpq
    exact h p rfl (by rw [hpq])
  rw [outpoints, List.map_append]
  show (outpoints inputs++outpoints added).Nodup ↔ _
  rw [List.nodup_append]
  constructor
  · intro h utxo hutxo hspent
    obtain ⟨outpoint, hmem, hpoint⟩ := UtxoRecord.spent_iff.mp hspent
    have hin : (.ok outpoint : Except PyError (Bytes × Int)) ∈ (outpoints added).map .ok := by
      rw [← hpoints, ← hpoint]
      exact List.mem_map_of_mem hutxo
    obtain ⟨other, hother, heq⟩ := List.mem_map.mp hin
    cases heq
    exact h.2.2 outpoint hmem outpoint hother rfl
  · intro h
    refine ⟨hdistinct, hadded, ?_⟩
    intro outpoint hmem other hother heq
    have hin : Except.ok other ∈ taken.map UtxoRecord.outpoint := by
      rw [hpoints]
      exact List.mem_map_of_mem hother
    obtain ⟨utxo, hutxo, hpoint⟩ := List.mem_map.mp hin
    exact h utxo hutxo (UtxoRecord.spent_iff.mpr ⟨outpoint, hmem, by rw [hpoint, heq]⟩)

namespace DAppConnector

theorem distinctOutpoints_tried {utxos : List UtxoRecord} (inputs : List UtxoSpend)
    (h : UtxoRecord.DistinctOutpoints utxos) : UtxoRecord.DistinctOutpoints (tried inputs utxos) := by
  have hkept : UtxoRecord.DistinctOutpoints (utxos.filter (isEligible inputs)) := h.filter _
  apply (sortOn_perm _ _).symm.pairwise hkept
  intro utxo other hne outpoint hother hutxo
  exact hne outpoint hutxo hother

section Success

variable {client : NoxipherClient} {wallet : MidnightWallet} {ttl_seconds : Int} {unbound_tx : UnboundTx}

/-- Balancing that succeeds keeps the inputs, which cover, or adds those of a run of step 4. -/
theorem balanceTransaction_success
    (hok : (balanceTransaction client wallet ttl_seconds unbound_tx).2 = .ok ()) :
    let stx := unbound_tx.standard
    let after := (balanceTransaction client wallet ttl_seconds unbound_tx).1.standard
    let required := total UtxoOutput.value stx.zeroOutputs+client.config.min_fee
    let inputs_val := total UtxoSpend.value stx.zeroInputs
    (required ≤ inputs_val ∧ after.zeroInputs = stx.zeroInputs) ∨
    inputs_val < required ∧ ∃ utxos before last rest added,
      wallet.unshielded.getUtxos client.indexer = .ok utxos ∧
      tried stx.zeroInputs utxos = before++last::rest ∧
      Short UtxoRecord.amount required before inputs_val ∧
      required ≤ inputs_val+total UtxoRecord.amount (before++[last]) ∧
      traverse (utxoSpend wallet.unshielded.publicKey) (before++[last]) = .ok added ∧
      after.zeroInputs = stx.zeroInputs++added := by
  intro stx after required inputs_val
  have hgiven : (openZero ttl_seconds stx).offer.inputs.getD [] = stx.zeroInputs := openZero_list ttl_seconds rfl stx
  have hout : (openZero ttl_seconds stx).offer.outputs.getD [] = stx.zeroOutputs := openZero_list ttl_seconds rfl stx
  have hin : inputsVal (openZero ttl_seconds stx).offer = inputs_val := by rw [inputsVal, hgiven]
  have hrequired : outputsVal (openZero ttl_seconds stx).offer+client.config.min_fee = required := by
    rw [outputsVal, hout]
  obtain ⟨settled, hsettled, hzero⟩ := balanceTransaction_ok_offer client wallet ttl_seconds hok
  have hafter : after.zeroInputs = settled.inputs.getD [] := by
    show (after.zeroOffer.bind UnshieldedOffer.inputs).getD [] = _
    rw [hzero, Option.bind_some]
  rw [hafter]
  rcases lt_or_ge inputs_val required with hless | hcovered
  · right
    have hshort := hless
    rw [← hin, ← hrequired] at hshort
    obtain ⟨utxos, inputs, before, last, rest, added, hgrown⟩ := balanceOffer_grown hshort hsettled
    rw [hgrown.given, Option.getD_some] at hgiven
    rw [hgiven] at hgrown
    have hfirst := hgrown.short
    have hreached := hgrown.reached
    rw [hin, hrequired] at hfirst hreached
    refine ⟨hless, utxos, before, last, rest, added, hgrown.fetched, hgrown.tried, hfirst, hreached, hgrown.made, ?_⟩
    rw [hgrown.inputs_eq, Option.getD_some]
  · left
    rw [← hin, ← hrequired] at hcovered
    rw [balanceOffer_covered client wallet hcovered] at hsettled
    rw [hin, hrequired] at hcovered
    refine ⟨hcovered, ?_⟩
    rw [addChange_settled hsettled]
    exact hgiven

end Success

/-- Step 4 comes to no NIGHT record that spells the outpoint of an input in a way of its own. -/
def NoneRespelled (min_fee : Int) (stx : StandardTransaction) (utxos : List UtxoRecord) : Prop :=
  let required := total UtxoOutput.value stx.zeroOutputs+min_fee
  let inputs_val := total UtxoSpend.value stx.zeroInputs
  inputs_val < required → ∀ before utxo after, tried stx.zeroInputs utxos = before++utxo::after →
    Short UtxoRecord.amount required before inputs_val → ¬ utxo.Spent stx.zeroInputs

/-- Records that write an outpoint as `hex` and `int` do are never mistaken. -/
theorem noneRespelled_of_canonical {min_fee : Int} {stx : StandardTransaction} {utxos : List UtxoRecord}
    (h : ∀ utxo ∈ utxos, ∃ intent_hash output_no, utxo.hashText = hexOf intent_hash ∧ utxo.outputNumber = .int output_no) :
    NoneRespelled min_fee stx utxos := by
  intro _ before utxo after hsplit _ hspent
  have hmem : utxo ∈ tried stx.zeroInputs utxos := by
    rw [hsplit]
    simp
  obtain ⟨hu, heligible⟩ := of_mem_tried hmem
  obtain ⟨intent_hash, output_no, hhash, hno⟩ := h utxo hu
  obtain ⟨i, hi, hpoint⟩ := hspent
  rw [UtxoRecord.outpoint, hhash, hno, fromhex_hexOf, ok_bind, IntLike.toInt_int, ok_bind] at hpoint
  cases hpoint
  apply (of_decide_eq_true heligible).1
  rw [hhash, hno]
  exact List.mem_map_of_mem hi

/-- Balancing that succeeds spends no outpoint twice exactly when it comes to no such record. -/
theorem balanceTransaction_outpoints_nodup_iff {client : NoxipherClient} {wallet : MidnightWallet} {ttl_seconds : Int}
    {unbound_tx : UnboundTx} {utxos : List UtxoRecord}
    (hdistinct : (outpoints unbound_tx.standard.zeroInputs).Nodup)
    (hfetch : wallet.unshielded.getUtxos client.indexer = .ok utxos) (hrecords : UtxoRecord.DistinctOutpoints utxos)
    (hok : (balanceTransaction client wallet ttl_seconds unbound_tx).2 = .ok ()) :
    (outpoints (balanceTransaction client wallet ttl_seconds unbound_tx).1.standard.zeroInputs).Nodup ↔
      NoneRespelled client.config.min_fee unbound_tx.standard utxos := by
  rcases balanceTransaction_success hok with
    ⟨hcovered, hsame⟩ | ⟨hless, found, before, last, rest, added, hfound, htried, hshort, hreach, hmade, hgrown⟩
  · rw [hsame]
    apply iff_of_true hdistinct
    intro hless
    exact absurd hcovered (not_le.mpr hless)
  · rw [hfetch] at hfound
    cases hfound
    have hreached := reached_iff UtxoRecord.amount rest
      (fun utxo => ¬ utxo.Spent unbound_tx.standard.zeroInputs) hless hshort hreach
    have hnone : NoneRespelled client.config.min_fee unbound_tx.standard utxos ↔
        ∀ utxo ∈ before++[last], ¬ utxo.Spent unbound_tx.standard.zeroInputs := by
      unfold NoneRespelled
      simp only [hless, true_imp_iff, htried]
      exact hreached
    have htaken := distinctOutpoints_tried unbound_tx.standard.zeroInputs hrecords
    have hall : before++last::rest = (before++[last])++rest := by simp
    rw [htried, hall] at htaken
    rw [hnone, hgrown]
    exact nodup_grown_iff hmade hdistinct (List.pairwise_append.mp htaken).1

theorem balanceTransaction_outpoints_sample :
    let utxo : UtxoRecord := { value := some (.int 20000), outputNo := some (.int 1) }
    let after := (balanceTransaction (clientWith [utxo]) sampleWallet 1800 unboundSpend).1
    (outpoints after.standard.zeroInputs).Nodup := by
  intro utxo after
  have hcanonical : ∀ r ∈ [utxo], ∃ intent_hash output_no,
      r.hashText = hexOf intent_hash ∧ r.outputNumber = .int output_no := by
    intro r hr
    rw [List.mem_singleton.mp hr]
    exact ⟨List.replicate 32 0, 1, by decide +kernel, rfl⟩
  have hok : (balanceTransaction (clientWith [utxo]) sampleWallet 1800 unboundSpend).2 = .ok () := by decide +kernel
  exact (balanceTransaction_outpoints_nodup_iff (by decide +kernel) rfl (List.pairwise_singleton _ _) hok).mpr
    (noneRespelled_of_canonical hcanonical)

/-- The only record writes the outpoint of the only input in upper case. -/
theorem outpoint_spent_twice :
    let utxo : UtxoRecord := {
      value := some (.int 20000)
      intentHash := some (String.ofList (List.replicate 64 'A'))
      outputNo := some (.int 0) }
    let after := balanceTransaction (clientWith [utxo]) sampleWallet 1800 unboundSpend
    (outpoints unboundSpend.standard.zeroInputs).Nodup ∧ UtxoRecord.DistinctOutpoints [utxo] ∧ after.2 = .ok () ∧
      outpoints after.1.standard.zeroInputs = [(List.replicate 32 0xaa, 0), (List.replicate 32 0xaa, 0)] ∧
      ¬ (outpoints after.1.standard.zeroInputs).Nodup := by
  intro utxo after
  exact ⟨by decide +kernel, List.pairwise_singleton _ _, by decide +kernel, by decide +kernel, by decide +kernel⟩

end DAppConnector

end Noxipher
