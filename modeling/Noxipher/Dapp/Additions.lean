import Noxipher.Dapp.Balancing
import Noxipher.Tx.Writable

namespace Noxipher

open Greedy TransactionBuilder

namespace UtxoRecord

/-- The value and the output number fit the fields they are written to. -/
def Fits (utxo : UtxoRecord) : Prop :=
  (0 ≤ utxo.amount ∧ utxo.amount < 2^128) ∧ ∃ n, utxo.outputNumber.toInt = .ok n ∧ 0 ≤ n ∧ n < 2^32

theorem fits_iff {owner_pk : Bytes} {utxo : UtxoRecord} {spend : UtxoSpend} (h : utxoSpend owner_pk utxo = .ok spend) :
    utxo.Fits ↔ ∃ x, serializeUtxoSpend spend = .ok x := by
  obtain ⟨hvalue, htype, hno⟩ := utxoSpend_fields h
  rw [serializeUtxoSpend_returns_iff, serializeU128_returns_iff, serializeU32_returns_iff, hvalue, htype]
  constructor
  · intro ⟨hamount, n, hn, hfits⟩
    rw [hno] at hn
    cases hn
    exact ⟨hamount, ⟨[0], rfl⟩, hfits⟩
  · intro ⟨hamount, _, hfits⟩
    exact ⟨hamount, _, hno, hfits⟩

end UtxoRecord

namespace DAppConnector

/-- Every record that balancing reaches fits. -/
def RecordsFit (client : NoxipherClient) (wallet : MidnightWallet) (stx : StandardTransaction) : Prop :=
  let required := total UtxoOutput.value stx.zeroOutputs+client.config.min_fee
  let inputs_val := total UtxoSpend.value stx.zeroInputs
  ∀ utxos, wallet.unshielded.getUtxos client.indexer = .ok utxos →
    ∀ before utxo after, tried stx.zeroInputs utxos = before++utxo::after →
      Short UtxoRecord.amount required before inputs_val → utxo.Fits

/-- A balancing that adds inputs: it makes them of the records it tries up to `last`, which reaches the total. -/
structure Grown (client : NoxipherClient) (wallet : MidnightWallet) (offer settled : UnshieldedOffer)
    (utxos : List UtxoRecord) (inputs : List UtxoSpend) (before : List UtxoRecord) (last : UtxoRecord)
    (rest : List UtxoRecord) (added : List UtxoSpend) : Prop where
  fetched : wallet.unshielded.getUtxos client.indexer = .ok utxos
  given : offer.inputs = some inputs
  tried : tried inputs utxos = before++last::rest
  less : inputsVal offer < outputsVal offer+client.config.min_fee
  short : Short UtxoRecord.amount (outputsVal offer+client.config.min_fee) before (inputsVal offer)
  reached : outputsVal offer+client.config.min_fee ≤ inputsVal offer+total UtxoRecord.amount (before++[last])
  made : traverse (utxoSpend wallet.unshielded.publicKey) (before++[last]) = .ok added
  result : settled = { offer with
    inputs := some (inputs++added)
    outputs := offer.outputs.map (fun outputs => outputs++excess wallet.unshielded.publicKey
      (outputsVal offer+client.config.min_fee) (inputsVal offer+total UtxoRecord.amount (before++[last]))) }
  sum : inputsVal settled = outputsVal settled+client.config.min_fee

section Grown

variable {client : NoxipherClient} {wallet : MidnightWallet} {offer settled : UnshieldedOffer}
  {utxos : List UtxoRecord} {inputs : List UtxoSpend} {before : List UtxoRecord} {last : UtxoRecord}
  {rest : List UtxoRecord} {added : List UtxoSpend}

/-- Step 5 that succeeds appends the excess to the outputs, and there are outputs when there is one. -/
theorem addChange_settled {owner_pk : Bytes} {required inputs_val : Int}
    (h : addChange owner_pk required inputs_val offer = (settled, .ok ())) :
    settled = { offer with outputs := offer.outputs.map (fun outputs => outputs++excess owner_pk required inputs_val) } := by
  cases hout : offer.outputs with
  | none =>
    unfold addChange at h
    split_ifs at h with hmore
    · rw [hout] at h
      cases h
    · cases h
      rw [Option.map_none, ← hout]
  | some outputs =>
    rw [addChange_ok hout] at h
    cases h
    rw [Option.map_some]

theorem addChange_outputs {owner_pk : Bytes} {required inputs_val : Int}
    (h : addChange owner_pk required inputs_val offer = (settled, .ok ())) :
    settled.outputs.getD [] = offer.outputs.getD []++excess owner_pk required inputs_val := by
  cases hout : offer.outputs with
  | none =>
    unfold addChange at h
    split_ifs at h with hmore
    · rw [hout] at h
      cases h
    · cases h
      rw [hout, excess, if_neg hmore]
      rfl
  | some outputs =>
    rw [addChange_ok hout] at h
    cases h
    rfl

/-- What it adds to the sum of the outputs is the excess. -/
theorem addChange_sum {owner_pk : Bytes} {required inputs_val : Int}
    (h : addChange owner_pk required inputs_val offer = (settled, .ok ())) (hcover : required ≤ inputs_val) :
    outputsVal settled = outputsVal offer+(inputs_val-required) := by
  rw [outputsVal, outputsVal, addChange_outputs h, total_append, excess_total hcover]

/-- Balancing that succeeds on an offer that is short of the total adds inputs to it. -/
theorem balanceOffer_grown (hless : inputsVal offer < outputsVal offer+client.config.min_fee)
    (h : balanceOffer client wallet offer = (settled, .ok ())) :
    ∃ utxos inputs before last rest added, Grown client wallet offer settled utxos inputs before last rest added := by
  rcases hadd : addInputs client wallet (outputsVal offer+client.config.min_fee) offer with ⟨grown, e | inputs_val⟩
  · rw [balanceOffer_error client wallet hless hadd] at h
    cases h
  · rw [balanceOffer_added client wallet hless hadd] at h
    have hsettled := addChange_settled h
    unfold addInputs at hadd
    cases hfound : candidates client wallet offer with
    | error e =>
      rw [hfound] at hadd
      cases hadd
    | ok found =>
      obtain ⟨inputs, sorted⟩ := found
      obtain ⟨utxos, hfetch, hgiven, -, hsorted⟩ := candidates_ok_iff.mp hfound
      rw [hfound] at hadd
      obtain ⟨rfl, hval⟩ := Prod.mk.inj hadd
      obtain ⟨total_val, htotal, hval⟩ := bind_ok_iff.mp hval
      split_ifs at hval with hshort
      cases hval
      obtain ⟨taken, rest, added, hsplit, hmade, hgrown, hcount⟩ := appendInputs_made wallet.unshielded.publicKey
        (outputsVal offer+client.config.min_fee) sorted inputs (inputsVal offer)
      obtain ⟨rfl, hall | ⟨before, last, rfl, hbefore, -⟩⟩ := hcount _ htotal
      · -- everything was taken and is short of the total, which was tested
        rw [← List.append_nil taken] at hall
        exact absurd (hall.prefix_lt UtxoRecord.amount hless) hshort
      · have hcover := not_lt.mp hshort
        have hsum := addChange_sum h hcover
        have hkept : settled.inputs = some (inputs++added) := by rw [hsettled, hgrown]
        refine ⟨utxos, inputs, before, last, rest, added, hfetch, hgiven, ?_, hless, hbefore, hcover, hmade, ?_, ?_⟩
        · rw [tried, ← hsorted, hsplit, List.append_assoc, List.singleton_append]
        · rw [hsettled, hgrown]
        · have hgivenVal : inputsVal offer = total UtxoSpend.value inputs := by
            rw [inputsVal, hgiven, Option.getD_some]
          rw [inputsVal, hkept, Option.getD_some, total_append, utxoSpends_total hmade, hsum, ← hgivenVal]
          show _ = outputsVal offer+_+_
          omega

namespace Grown

theorem inputs_eq (h : Grown client wallet offer settled utxos inputs before last rest added) :
    settled.inputs = some (inputs++added) := by
  rw [h.result]

theorem inputsVal_eq (h : Grown client wallet offer settled utxos inputs before last rest added) :
    inputsVal settled = inputsVal offer+total UtxoRecord.amount (before++[last]) := by
  rw [inputsVal, inputsVal, h.inputs_eq, h.given, Option.getD_some, Option.getD_some, total_append,
    utxoSpends_total h.made]

theorem owners (h : Grown client wallet offer settled utxos inputs before last rest added) :
    ∀ spend ∈ added, spend.owner = wallet.unshielded.publicKey := by
  intro spend hspend
  obtain ⟨utxo, -, hutxo⟩ := traverse_mem h.made hspend
  exact utxoSpend_owner hutxo

theorem added_ne_nil (h : Grown client wallet offer settled utxos inputs before last rest added) : added ≠ [] := by
  obtain ⟨spend, hspend, -⟩ := traverse_all h.made last (by simp)
  exact List.ne_nil_of_mem hspend

/-- The excess is less than the record that reached the total. -/
theorem excess_lt (h : Grown client wallet offer settled utxos inputs before last rest added) :
    inputsVal offer+total UtxoRecord.amount (before++[last])-(outputsVal offer+client.config.min_fee) <
      last.amount := by
  have hshort := h.short
  rw [← List.append_nil before] at hshort
  have hbefore := hshort.prefix_lt UtxoRecord.amount h.less
  rw [total_append, total_cons, total_nil]
  omega

/-- The grown offer can be written exactly when the given one can and every record that was taken fits. -/
theorem fits_iff (h : Grown client wallet offer settled utxos inputs before last rest added)
    (hin : (settled.inputs.getD []).length < 2^63) (hout : (settled.outputs.getD []).length < 2^63) :
    (∃ x, serializeUnshieldedOffer settled = .ok x) ↔
      (∃ x, serializeUnshieldedOffer offer = .ok x) ∧ ∀ utxo ∈ before++[last], utxo.Fits := by
  have hadded : (∀ spend ∈ added, ∃ x, serializeUtxoSpend spend = .ok x) ↔ ∀ utxo ∈ before++[last], utxo.Fits := by
    constructor
    · intro hall utxo hutxo
      obtain ⟨spend, hspend, hmade⟩ := traverse_all h.made utxo hutxo
      exact (UtxoRecord.fits_iff hmade).mpr (hall spend hspend)
    · intro hall spend hspend
      obtain ⟨utxo, hutxo, hmade⟩ := traverse_mem h.made hspend
      exact (UtxoRecord.fits_iff hmade).mp (hall utxo hutxo)
  have hchange (hlast : last.Fits) : ∀ output ∈ excess wallet.unshielded.publicKey
      (outputsVal offer+client.config.min_fee) (inputsVal offer+total UtxoRecord.amount (before++[last])),
      ∃ x, serializeUtxoOutput output = .ok x := by
    intro output houtput
    have hlt := h.excess_lt
    have hmost := hlast.1.2
    unfold excess at houtput
    split_ifs at houtput with hmore
    · rw [List.mem_singleton.mp houtput, serializeUtxoOutput_returns_iff, serializeU128_returns_iff]
      dsimp only
      exact ⟨⟨by omega, by omega⟩, [0], rfl⟩
    · cases houtput
  rw [h.inputs_eq, Option.getD_some] at hin
  rw [h.result] at hout
  rw [serializeUnshieldedOffer_returns_iff, serializeUnshieldedOffer_returns_iff, h.result, h.given]
  cases houtputs : offer.outputs with
  | none => simp
  | some outputs =>
    rw [houtputs, Option.map_some, Option.getD_some] at hout
    simp only [Option.map_some, Option.some.injEq, exists_eq_left', serializeVec_append_iff hin,
      serializeVec_append_iff hout, hadded]
    constructor
    · intro ⟨⟨hgiven, hall⟩, ⟨hold, _⟩, hsigs⟩
      exact ⟨⟨hgiven, hold, hsigs⟩, hall⟩
    · intro ⟨⟨hgiven, hold, hsigs⟩, hall⟩
      exact ⟨⟨hgiven, hall⟩, ⟨hold, hchange (hall last (by simp))⟩, hsigs⟩

/-- The records that were taken are those that are reached. -/
theorem recordsFit_iff {stx : StandardTransaction}
    (h : Grown client wallet offer settled utxos inputs before last rest added)
    (hin : offer.inputs.getD [] = stx.zeroInputs) (hout : offer.outputs.getD [] = stx.zeroOutputs) :
    RecordsFit client wallet stx ↔ ∀ utxo ∈ before++[last], utxo.Fits := by
  have hless := h.less
  have hshort := h.short
  have hreached := h.reached
  have htried := h.tried
  rw [h.given, Option.getD_some] at hin
  rw [inputsVal, h.given, Option.getD_some, outputsVal, hout, hin] at hless hshort hreached
  rw [hin] at htried
  have hiff := reached_iff UtxoRecord.amount rest UtxoRecord.Fits hless hshort hreached
  constructor
  · intro hall
    apply hiff.mp
    intro first utxo after hsplit hfirst
    rw [← htried] at hsplit
    exact hall utxos h.fetched first utxo after hsplit hfirst
  · intro hall utxos' hfetched first utxo after hsplit hfirst
    rw [h.fetched] at hfetched
    cases hfetched
    rw [htried] at hsplit
    exact hiff.mpr hall first utxo after hsplit hfirst

end Grown

end Grown

end DAppConnector

end Noxipher
