import Noxipher.Dapp.Connector

namespace Noxipher

open Greedy TransactionBuilder

namespace UtxoRecord

/-- The outpoint a record stands for. -/
def outpoint (utxo : UtxoRecord) : Except PyError (Bytes × Int) := do
  let intent_hash ← fromhex utxo.hashText
  let output_no ← utxo.outputNumber.toInt
  return (intent_hash, output_no)

/-- The outpoint is that of an input, however the record writes it. -/
def Spent (inputs : List UtxoSpend) (utxo : UtxoRecord) : Prop :=
  ∃ i ∈ inputs, utxo.outpoint = .ok (i.intent_hash, i.output_no)

instance (inputs : List UtxoSpend) (utxo : UtxoRecord) : Decidable (utxo.Spent inputs) :=
  inferInstanceAs (Decidable (∃ i ∈ inputs, utxo.outpoint = .ok (i.intent_hash, i.output_no)))

/-- The input made of a record has its outpoint. -/
theorem outpoint_of_utxoSpend {owner_pk : Bytes} {utxo : UtxoRecord} {spend : UtxoSpend}
    (h : utxoSpend owner_pk utxo = .ok spend) : utxo.outpoint = .ok (spend.intent_hash, spend.output_no) := by
  obtain ⟨v, -, h⟩ := bind_ok_iff.mp h
  obtain ⟨value, -, h⟩ := bind_ok_iff.mp h
  obtain ⟨intent_hash, hhash, h⟩ := bind_ok_iff.mp h
  obtain ⟨output_no, hno, h⟩ := bind_ok_iff.mp h
  cases h
  rw [outpoint, hhash, ok_bind, hno]
  rfl

end UtxoRecord

namespace StandardTransaction

/-- The inputs of the guaranteed offer of segment 0; there are none without an offer. -/
def zeroInputs (stx : StandardTransaction) : List UtxoSpend := (stx.zeroOffer.bind UnshieldedOffer.inputs).getD []

def zeroOutputs (stx : StandardTransaction) : List UtxoOutput := (stx.zeroOffer.bind UnshieldedOffer.outputs).getD []

end StandardTransaction

namespace DAppConnector

/-- A NIGHT record that no input spends yet. -/
def isUnusedNight (inputs : List UtxoSpend) (utxo : UtxoRecord) : Bool :=
  ¬ utxo.Spent inputs ∧ utxo.listedToken = some zeroHex

/-- A used outpoint that is written as the input has it is used. -/
theorem spent_of_used {inputs : List UtxoSpend} {utxo : UtxoRecord}
    (h : (utxo.hashText, utxo.outputNumber) ∈ usedOutpoints inputs) : utxo.Spent inputs := by
  obtain ⟨i, hi, hpair⟩ := List.mem_map.mp h
  obtain ⟨hhash, hno⟩ := Prod.mk.inj hpair
  refine ⟨i, hi, ?_⟩
  rw [UtxoRecord.outpoint, ← hhash, ← hno, fromhex_hexOf, ok_bind, IntLike.toInt_int]
  rfl

/-- All unused records are eligible; of the eligible ones those are unused that are not spent. -/
theorem isUnusedNight_iff {inputs : List UtxoSpend} {utxo : UtxoRecord} :
    isUnusedNight inputs utxo = true ↔ isEligible inputs utxo = true ∧ ¬ utxo.Spent inputs := by
  unfold isUnusedNight isEligible
  rw [decide_eq_true_iff, decide_eq_true_iff]
  constructor
  · intro ⟨hunspent, hnight⟩
    exact ⟨⟨fun hused => hunspent (spent_of_used hused), hnight⟩, hunspent⟩
  · intro ⟨⟨_, hnight⟩, hunspent⟩
    exact ⟨hunspent, hnight⟩

/-- The change output, when there is an excess. -/
def excess (owner_pk : Bytes) (required inputs_val : Int) : List UtxoOutput :=
  if required < inputs_val then [⟨inputs_val-required, owner_pk, 0⟩] else []

theorem excess_total {owner_pk : Bytes} {required inputs_val : Int} (h : required ≤ inputs_val) :
    total UtxoOutput.value (excess owner_pk required inputs_val) = inputs_val-required := by
  unfold excess
  split_ifs with hmore
  · simp
  · rw [total_nil]
    omega

theorem excess_cases (owner_pk : Bytes) (required inputs_val : Int) :
    excess owner_pk required inputs_val = [] ∨
    ∃ c, 0 < c ∧ excess owner_pk required inputs_val = [⟨c, owner_pk, 0⟩] := by
  unfold excess
  split_ifs with hmore
  · exact Or.inr ⟨inputs_val-required, by omega, rfl⟩
  · exact Or.inl rfl

theorem addChange_ok {owner_pk : Bytes} {required inputs_val : Int} {offer : UnshieldedOffer}
    {outputs : List UtxoOutput} (h : offer.outputs = some outputs) :
    addChange owner_pk required inputs_val offer =
      ({ offer with outputs := some (outputs++excess owner_pk required inputs_val) }, .ok ()) := by
  unfold addChange excess
  split_ifs with hmore
  · rw [h]
  · rw [List.append_nil, ← h]

section Loop

variable (owner_pk : Bytes) (required : Int)

/-- On records that decode the loop takes what the greedy selection takes. -/
theorem appendInputs_taken {sorted : List UtxoRecord} (h : ∀ utxo ∈ sorted, utxo.Decodes) (inputs_val : Int) :
    ∃ taken spends, (∀ selected, takeUntil UtxoRecord.amount required sorted selected inputs_val =
        (selected++taken, inputs_val+total UtxoRecord.amount taken)) ∧
      traverse (utxoSpend owner_pk) taken = .ok spends ∧
      ∀ inputs, appendInputs owner_pk required sorted inputs inputs_val =
        (inputs++spends, .ok (inputs_val+total UtxoRecord.amount taken)) := by
  induction sorted generalizing inputs_val with
  | nil => exact ⟨[], [], by simp [takeUntil], rfl, by simp [appendInputs]⟩
  | cons utxo sorted ih =>
    obtain ⟨spend, hspend, hvalue⟩ := utxoSpend_ok owner_pk (h utxo (by simp))
    by_cases hreach : required ≤ inputs_val+utxo.amount
    · refine ⟨[utxo], [spend], ?_, ?_, ?_⟩
      · intro selected
        rw [takeUntil, if_pos hreach]
        simp
      · exact traverse_cons_ok.mpr ⟨spend, [], hspend, rfl, rfl⟩
      · intro inputs
        simp only [appendInputs, hspend, hvalue, if_pos hreach, total_cons, total_nil, add_zero]
    · obtain ⟨taken, spends, htake, htraverse, happend⟩ := ih (fun r hr => h r (by simp [hr])) (inputs_val+utxo.amount)
      refine ⟨utxo::taken, spend::spends, ?_, ?_, ?_⟩
      · intro selected
        rw [takeUntil, if_neg hreach, htake]
        simp [add_assoc]
      · exact traverse_cons_ok.mpr ⟨spend, spends, hspend, htraverse, rfl⟩
      · intro inputs
        simp only [appendInputs, hspend, hvalue, if_neg hreach, happend, total_cons]
        simp [add_assoc]

end Loop

section Outcome

variable {client : NoxipherClient} {wallet : MidnightWallet} {ttl_seconds : Int} {utxos : List UtxoRecord}

/-- The records in the order in which inputs are made of them. -/
def tried (inputs : List UtxoSpend) (utxos : List UtxoRecord) : List UtxoRecord :=
  descending UtxoRecord.amount (utxos.filter (isEligible inputs))

theorem total_tried (inputs : List UtxoSpend) (utxos : List UtxoRecord) :
    total UtxoRecord.amount (tried inputs utxos) = total UtxoRecord.amount (utxos.filter (isEligible inputs)) :=
  total_perm UtxoRecord.amount (sortOn_perm _ _)

theorem of_mem_tried {inputs : List UtxoSpend} {utxo : UtxoRecord} (h : utxo ∈ tried inputs utxos) :
    utxo ∈ utxos ∧ isEligible inputs utxo = true :=
  List.mem_filter.mp ((mem_descending UtxoRecord.amount).mp h)

/-- Step 4 appends what the greedy selection takes and then tests the total. -/
theorem addInputs_taken {offer : UnshieldedOffer} {inputs : List UtxoSpend} (required : Int)
    (hin : offer.inputs = some inputs) (hfetch : wallet.unshielded.getUtxos client.indexer = .ok utxos)
    (hdec : ∀ utxo ∈ tried inputs utxos, utxo.Decodes) :
    ∃ taken spends result, takeUntil UtxoRecord.amount required (tried inputs utxos) [] (inputsVal offer) =
        (taken, inputsVal offer+total UtxoRecord.amount taken) ∧
      traverse (utxoSpend wallet.unshielded.publicKey) taken = .ok spends ∧
      addInputs client wallet required offer = ({ offer with inputs := some (inputs++spends) }, result) ∧
      (inputsVal offer+total UtxoRecord.amount taken < required → ∃ e, result = .error e) ∧
      (required ≤ inputsVal offer+total UtxoRecord.amount taken →
        result = .ok (inputsVal offer+total UtxoRecord.amount taken)) := by
  obtain ⟨taken, spends, htake, htraverse, happend⟩ := appendInputs_taken wallet.unshielded.publicKey required hdec
    (inputsVal offer)
  have hfound : candidates client wallet offer = .ok (inputs, tried inputs utxos) := by
    apply candidates_ok_iff.mpr
    refine ⟨utxos, hfetch, hin, ?_, rfl⟩
    intro utxo hu
    exact ⟨_, (hdec utxo ((mem_descending UtxoRecord.amount).mpr hu)).intValue⟩
  refine ⟨taken, spends, _, htake [], htraverse, by simp only [addInputs, hfound, happend]; rfl, ?_, ?_⟩
  · intro hshort
    rw [ok_bind, if_pos hshort]
    exact ⟨_, rfl⟩
  · intro hcover
    rw [ok_bind, if_neg (not_lt.mpr hcover)]
    rfl

/-- Either all eligible records fall short and balancing raises, or it appends a prefix of the records tried, each
of them needed, and then the excess. -/
theorem balanceOffer_outcome {offer : UnshieldedOffer} {inputs : List UtxoSpend} {outputs : List UtxoOutput}
    (hin : offer.inputs = some inputs) (hout : offer.outputs = some outputs)
    (hfetch : wallet.unshielded.getUtxos client.indexer = .ok utxos) (hdec : ∀ utxo ∈ tried inputs utxos, utxo.Decodes) :
    let required := outputsVal offer+client.config.min_fee
    (inputsVal offer+total UtxoRecord.amount (tried inputs utxos) < required ∧
      ∃ e, (balanceOffer client wallet offer).2 = .error e) ∨
    ∃ taken rest spends, tried inputs utxos = taken++rest ∧
      traverse (utxoSpend wallet.unshielded.publicKey) taken = .ok spends ∧
      required ≤ inputsVal offer+total UtxoRecord.amount taken ∧
      (∀ before utxo after, taken = before++utxo::after →
        inputsVal offer+total UtxoRecord.amount before < required) ∧
      balanceOffer client wallet offer = ({ offer with
        inputs := some (inputs++spends)
        outputs := some (outputs++excess wallet.unshielded.publicKey required
          (inputsVal offer+total UtxoRecord.amount taken)) }, .ok ()) := by
  intro required
  rcases lt_or_ge (inputsVal offer) required with hless | hcovered
  · obtain ⟨taken, spends, result, htake, htraverse, hadd, hfail, hok⟩ := addInputs_taken required hin hfetch hdec
    rcases short_or_reached UtxoRecord.amount required (tried inputs utxos) (inputsVal offer) with
      hshort | ⟨before, utxo, after, hsplit, hshort, hreach⟩
    · left
      rw [takeUntil_short UtxoRecord.amount [] hshort] at htake
      obtain ⟨hall, htotal⟩ := Prod.mk.inj htake
      have hlast : inputsVal offer+total UtxoRecord.amount (tried inputs utxos) < required := by
        rw [← List.append_nil (tried inputs utxos)] at hshort
        exact hshort.prefix_lt UtxoRecord.amount hless
      refine ⟨hlast, ?_⟩
      obtain ⟨e, rfl⟩ := hfail (by rw [← htotal]; exact hlast)
      rw [balanceOffer_error client wallet hless hadd]
      exact ⟨e, rfl⟩
    · right
      rw [hsplit, takeUntil_reached UtxoRecord.amount after [] hshort hreach] at htake
      obtain ⟨rfl, htotal⟩ := Prod.mk.inj htake
      have hcover : required ≤ inputsVal offer+total UtxoRecord.amount ([]++(before++[utxo])) := by
        rw [List.nil_append, total_append, total_cons, total_nil]
        omega
      rw [hok hcover] at hadd
      refine ⟨_, after, spends, ?_, htraverse, hcover, ?_, ?_⟩
      · rw [hsplit]
        simp
      · intro first r rest htaken
        rw [List.nil_append] at htaken
        exact hshort.proper_prefix_lt UtxoRecord.amount hless htaken
      · rw [balanceOffer_added client wallet hless hadd]
        exact addChange_ok hout
  · right
    refine ⟨[], tried inputs utxos, [], rfl, rfl, ?_, ?_, ?_⟩
    · simpa using hcovered
    · intro before utxo after h
      cases before <;> cases h
    · rw [balanceOffer_covered client wallet hcovered, addChange_ok hout, total_nil, add_zero, List.append_nil, ← hin]

/-- What a balanced dictionary promises over the one it was made of, with inputs made of records of a pool. -/
def Balanced (client : NoxipherClient) (wallet : MidnightWallet) (before after : UnboundTx)
    (pool : List UtxoRecord) : Prop :=
  ∃ offer taken appended change, after.standard.zeroOffer = some offer ∧
    offer.inputs = some (before.standard.zeroInputs++appended) ∧
    offer.outputs = some (before.standard.zeroOutputs++change) ∧
    inputsVal offer = outputsVal offer+client.config.min_fee ∧
    (change = [] ∨ ∃ c, 0 < c ∧ change = [⟨c, wallet.unshielded.publicKey, 0⟩]) ∧
    taken.Subperm pool ∧ traverse (utxoSpend wallet.unshielded.publicKey) taken = .ok appended ∧
    -- again with any list of records and any ttl
    ∀ indexer ttl_seconds,
      let again := balanceTransaction { client with indexer := indexer } wallet ttl_seconds after
      again.2 = .ok () ∧ again.1.standard.zeroOffer = some offer

/-- Balancing succeeds exactly when the existing inputs and the pool cover the outputs and the fee, and is then
exact. -/
def BalancesFrom (client : NoxipherClient) (wallet : MidnightWallet) (ttl_seconds : Int) (unbound_tx : UnboundTx)
    (pool : List UtxoRecord) : Prop :=
  let after := balanceTransaction client wallet ttl_seconds unbound_tx
  (after.2 = .ok () ↔
    total UtxoOutput.value unbound_tx.standard.zeroOutputs+client.config.min_fee ≤
      total UtxoSpend.value unbound_tx.standard.zeroInputs+total UtxoRecord.amount pool) ∧
  (after.2 = .ok () → Balanced client wallet unbound_tx after.1 pool)

/-- The eligible records that spell the outpoint of an input differently are never reached: the eligible records
fall short anyway, or those tried before such a record cover. -/
def RespelledUnreached (min_fee : Int) (stx : StandardTransaction) (utxos : List UtxoRecord) : Prop :=
  let required := total UtxoOutput.value stx.zeroOutputs+min_fee
  let inputs_val := total UtxoSpend.value stx.zeroInputs
  inputs_val+total UtxoRecord.amount (tried stx.zeroInputs utxos) < required ∨
  ∀ before utxo after, tried stx.zeroInputs utxos = before++utxo::after → utxo.Spent stx.zeroInputs →
    required ≤ inputs_val+total UtxoRecord.amount before

/-- The offer of a dictionary whose offers have their lists. -/
def HasLists (stx : StandardTransaction) : Prop :=
  ∀ offer, stx.zeroOffer = some offer → offer.inputs.isSome ∧ offer.outputs.isSome

theorem hasLists_of_zeroOffer {stx : StandardTransaction} {inputs : List UtxoSpend} {outputs : List UtxoOutput}
    {signatures : Option (List Bytes)} (h : stx.zeroOffer = some ⟨some inputs, some outputs, signatures⟩) :
    HasLists stx := by
  intro offer hzero
  rw [h] at hzero
  cases hzero
  exact ⟨rfl, rfl⟩

theorem openZero_lists (ttl_seconds : Int) {stx : StandardTransaction} (h : HasLists stx) :
    (openZero ttl_seconds stx).offer.inputs = some stx.zeroInputs ∧
      (openZero ttl_seconds stx).offer.outputs = some stx.zeroOutputs := by
  unfold StandardTransaction.zeroInputs StandardTransaction.zeroOutputs
  cases hzero : stx.zeroOffer with
  | none =>
    rw [openZero_of_none ttl_seconds hzero]
    exact ⟨rfl, rfl⟩
  | some offer =>
    obtain ⟨-, -, -, hoffer⟩ := openZero_of_zeroOffer ttl_seconds hzero
    obtain ⟨hin, hout⟩ := h offer hzero
    obtain ⟨inputs, hinputs⟩ := Option.isSome_iff_exists.mp hin
    obtain ⟨outputs, houtputs⟩ := Option.isSome_iff_exists.mp hout
    rw [hoffer, Option.bind_some, Option.bind_some, hinputs, houtputs]
    exact ⟨rfl, rfl⟩

/-- An offer that balances is left alone. -/
theorem balanceTransaction_settled (client : NoxipherClient) (wallet : MidnightWallet) (ttl_seconds : Int)
    {unbound_tx : UnboundTx} {offer : UnshieldedOffer} (hzero : unbound_tx.standard.zeroOffer = some offer)
    (hsum : inputsVal offer = outputsVal offer+client.config.min_fee) :
    (balanceTransaction client wallet ttl_seconds unbound_tx).2 = .ok () ∧
      (balanceTransaction client wallet ttl_seconds unbound_tx).1.standard.zeroOffer = some offer := by
  obtain ⟨-, -, -, hopened⟩ := openZero_of_zeroOffer ttl_seconds hzero
  have hkept : balanceOffer client wallet offer = (offer, .ok ()) := by
    rw [balanceOffer_covered client wallet hsum.ge, addChange, if_neg (by omega)]
  rw [balanceTransaction_result, balanceTransaction_zeroOffer, hopened, hkept]
  exact ⟨rfl, rfl⟩

/-- A run that appended records of the pool and the excess is exact, and balances again. -/
theorem balanced_of_taken {unbound_tx : UnboundTx} {pool taken : List UtxoRecord} {spends : List UtxoSpend}
    (hlists : HasLists unbound_tx.standard) (hpool : taken.Subperm pool)
    (htraverse : traverse (utxoSpend wallet.unshielded.publicKey) taken = .ok spends) :
    let offer := (openZero ttl_seconds unbound_tx.standard).offer
    let required := outputsVal offer+client.config.min_fee
    required ≤ inputsVal offer+total UtxoRecord.amount taken →
    balanceOffer client wallet offer = ({ offer with
      inputs := some (unbound_tx.standard.zeroInputs++spends)
      outputs := some (unbound_tx.standard.zeroOutputs++excess wallet.unshielded.publicKey required
        (inputsVal offer+total UtxoRecord.amount taken)) }, .ok ()) →
    Balanced client wallet unbound_tx (balanceTransaction client wallet ttl_seconds unbound_tx).1 pool := by
  intro offer required hcover hbalanced
  obtain ⟨hin, hout⟩ := openZero_lists ttl_seconds hlists
  have hzero := balanceTransaction_zeroOffer client wallet ttl_seconds unbound_tx
  rw [hbalanced] at hzero
  have hsum := utxoSpends_total htraverse
  have hexact : total UtxoSpend.value (unbound_tx.standard.zeroInputs++spends) =
      total UtxoOutput.value (unbound_tx.standard.zeroOutputs++excess wallet.unshielded.publicKey required
        (inputsVal offer+total UtxoRecord.amount taken))+client.config.min_fee := by
    have hinputs : inputsVal offer = total UtxoSpend.value unbound_tx.standard.zeroInputs := by
      show total UtxoSpend.value (offer.inputs.getD []) = _
      rw [hin, Option.getD_some]
    have houtputs : outputsVal offer = total UtxoOutput.value unbound_tx.standard.zeroOutputs := by
      show total UtxoOutput.value (offer.outputs.getD []) = _
      rw [hout, Option.getD_some]
    have hrequired : required = outputsVal offer+client.config.min_fee := rfl
    rw [total_append, total_append, excess_total hcover, hsum]
    omega
  refine ⟨_, taken, spends, _, hzero, rfl, rfl, hexact, excess_cases _ _ _, hpool, htraverse, ?_⟩
  intro indexer ttl_again
  exact balanceTransaction_settled { client with indexer := indexer } wallet ttl_again hzero hexact

/-- The outcome on a dictionary whose offer has its lists, with what decides it read from the dictionary. -/
theorem balanceTransaction_outcome (ttl_seconds : Int) {unbound_tx : UnboundTx} (hlists : HasLists unbound_tx.standard)
    (hfetch : wallet.unshielded.getUtxos client.indexer = .ok utxos)
    (hdec : ∀ utxo ∈ tried unbound_tx.standard.zeroInputs utxos, utxo.Decodes) :
    let stx := unbound_tx.standard
    let required := total UtxoOutput.value stx.zeroOutputs+client.config.min_fee
    let inputs_val := total UtxoSpend.value stx.zeroInputs
    (inputs_val+total UtxoRecord.amount (tried stx.zeroInputs utxos) < required ∧
      (balanceTransaction client wallet ttl_seconds unbound_tx).2 ≠ .ok ()) ∨
    ∃ taken rest spends, tried stx.zeroInputs utxos = taken++rest ∧
      traverse (utxoSpend wallet.unshielded.publicKey) taken = .ok spends ∧
      required ≤ inputs_val+total UtxoRecord.amount taken ∧
      (∀ before utxo after, taken = before++utxo::after → inputs_val+total UtxoRecord.amount before < required) ∧
      (balanceTransaction client wallet ttl_seconds unbound_tx).2 = .ok () ∧
      (∃ offer, (balanceTransaction client wallet ttl_seconds unbound_tx).1.standard.zeroOffer = some offer ∧
        offer.inputs = some (stx.zeroInputs++spends)) ∧
      ∀ pool, taken.Subperm pool →
        Balanced client wallet unbound_tx (balanceTransaction client wallet ttl_seconds unbound_tx).1 pool := by
  intro stx required inputs_val
  obtain ⟨hin, hout⟩ := openZero_lists ttl_seconds hlists
  have hinputs : inputsVal (openZero ttl_seconds stx).offer = inputs_val := by
    rw [inputsVal, hin, Option.getD_some]
  have houtputs : outputsVal (openZero ttl_seconds stx).offer+client.config.min_fee = required := by
    rw [outputsVal, hout, Option.getD_some]
  have houtcome := balanceOffer_outcome hin hout hfetch hdec
  dsimp only at houtcome
  rw [houtputs, hinputs] at houtcome
  rcases houtcome with ⟨hshort, e, he⟩ | ⟨taken, rest, spends, hsplit, htraverse, hcover, hneeded, hbalanced⟩
  · left
    refine ⟨hshort, ?_⟩
    rw [balanceTransaction_result, he]
    simp
  · right
    refine ⟨taken, rest, spends, hsplit, htraverse, hcover, hneeded, ?_, ?_, ?_⟩
    · rw [balanceTransaction_result, hbalanced]
    · rw [balanceTransaction_zeroOffer, hbalanced]
      exact ⟨_, rfl, rfl⟩
    · intro pool hpool
      apply balanced_of_taken hlists hpool htraverse
      · rw [houtputs, hinputs]
        exact hcover
      · rw [houtputs, hinputs]
        exact hbalanced

/-- Balancing succeeds exactly when the eligible records cover what the inputs do not. -/
theorem balanceTransaction_ok_iff {unbound_tx : UnboundTx} (hlists : HasLists unbound_tx.standard)
    (hfetch : wallet.unshielded.getUtxos client.indexer = .ok utxos)
    (hdec : ∀ utxo ∈ tried unbound_tx.standard.zeroInputs utxos, utxo.Decodes) :
    (balanceTransaction client wallet ttl_seconds unbound_tx).2 = .ok () ↔
      total UtxoOutput.value unbound_tx.standard.zeroOutputs+client.config.min_fee ≤
        total UtxoSpend.value unbound_tx.standard.zeroInputs+
          total UtxoRecord.amount (utxos.filter (isEligible unbound_tx.standard.zeroInputs)) := by
  rw [← total_tried]
  rcases balanceTransaction_outcome ttl_seconds hlists hfetch hdec with
    ⟨hshort, hraise⟩ | ⟨taken, rest, spends, hsplit, -, hcover, -, hok, -⟩
  · exact iff_of_false hraise (not_le.mpr hshort)
  · apply iff_of_true hok
    have hmore := total_le_of_perm UtxoRecord.amount (List.Perm.of_eq hsplit.symm)
      (fun utxo hu => (hdec utxo hu).amount_nonneg)
    omega

/-- With the records the code takes for eligible, balancing is exact. -/
theorem balanceTransaction_eligible {unbound_tx : UnboundTx} (hlists : HasLists unbound_tx.standard)
    (hfetch : wallet.unshielded.getUtxos client.indexer = .ok utxos) (hdec : ∀ utxo ∈ utxos, utxo.Decodes) :
    BalancesFrom client wallet ttl_seconds unbound_tx
      (utxos.filter (isEligible unbound_tx.standard.zeroInputs)) := by
  have hread : ∀ utxo ∈ tried unbound_tx.standard.zeroInputs utxos, utxo.Decodes :=
    fun utxo hu => hdec utxo (of_mem_tried hu).1
  refine ⟨balanceTransaction_ok_iff hlists hfetch hread, ?_⟩
  intro hok
  rcases balanceTransaction_outcome ttl_seconds hlists hfetch hread with
    ⟨-, hraise⟩ | ⟨taken, rest, spends, hsplit, -, -, -, -, -, hbalanced⟩
  · exact absurd hok hraise
  · apply hbalanced
    have hfirst := (List.sublist_append_left taken rest).subperm
    rw [← hsplit] at hfirst
    exact hfirst.trans (sortOn_perm _ _).subperm

/-- With a selection that covers, and needs each of its records, a respelled record is reached when it is selected. -/
theorem respelledUnreached_iff {min_fee : Int} {stx : StandardTransaction} {taken rest : List UtxoRecord}
    (hdec : ∀ utxo ∈ utxos, utxo.Decodes) (hsplit : tried stx.zeroInputs utxos = taken++rest)
    (hcover : total UtxoOutput.value stx.zeroOutputs+min_fee ≤
      total UtxoSpend.value stx.zeroInputs+total UtxoRecord.amount taken)
    (hneeded : ∀ before utxo after, taken = before++utxo::after →
      total UtxoSpend.value stx.zeroInputs+total UtxoRecord.amount before <
        total UtxoOutput.value stx.zeroOutputs+min_fee) :
    RespelledUnreached min_fee stx utxos ↔ ∀ utxo ∈ taken, ¬ utxo.Spent stx.zeroInputs := by
  have hnonneg : ∀ utxo ∈ tried stx.zeroInputs utxos, 0 ≤ utxo.amount :=
    fun utxo hu => (hdec utxo (of_mem_tried hu).1).amount_nonneg
  constructor
  · intro hunreached utxo hu hspent
    rcases hunreached with hshort | hlast
    · have hall := total_le_of_perm UtxoRecord.amount (List.Perm.of_eq hsplit.symm) hnonneg
      omega
    · obtain ⟨before, after, htaken⟩ := List.append_of_mem hu
      have hfirst := hneeded before utxo after htaken
      rw [htaken, List.append_assoc, List.cons_append] at hsplit
      have hcovered := hlast before utxo (after++rest) hsplit hspent
      omega
  · intro hunspent
    right
    intro before utxo after hfound hspent
    rw [hsplit] at hfound
    rcases List.append_eq_append_iff.mp hfound with ⟨more, hbefore, -⟩ | ⟨more, htaken, hafter⟩
    · rw [hbefore, total_append]
      have hmore : 0 ≤ total UtxoRecord.amount more := by
        apply total_nonneg
        intro r hr
        apply hnonneg
        rw [hsplit, hfound, hbefore]
        simp [hr]
      omega
    · cases more with
      | nil =>
        rw [List.append_nil] at htaken
        rw [← htaken]
        exact hcover
      | cons r more =>
        obtain ⟨rfl, -⟩ := List.cons.inj hafter
        exfalso
        apply hunspent utxo _ hspent
        rw [htaken]
        simp

/-- What was appended from unused records spends no outpoint again. -/
theorem Balanced.unspent {before after : UnboundTx} {taken : List UtxoRecord} {spends : List UtxoSpend}
    (h : Balanced client wallet before after (utxos.filter (isUnusedNight before.standard.zeroInputs)))
    (hgrown : ∃ offer, after.standard.zeroOffer = some offer ∧
      offer.inputs = some (before.standard.zeroInputs++spends))
    (htraverse : traverse (utxoSpend wallet.unshielded.publicKey) taken = .ok spends) :
    ∀ utxo ∈ taken, ¬ utxo.Spent before.standard.zeroInputs := by
  obtain ⟨offer, chosen, appended, change, hoffer, hin, -, -, -, hpool, hchosen, -⟩ := h
  obtain ⟨grown, hgrown, hspends⟩ := hgrown
  rw [hoffer] at hgrown
  cases hgrown
  rw [hin] at hspends
  have hsame : appended = spends := List.append_cancel_left (Option.some.inj hspends)
  rw [hsame] at hchosen
  intro utxo hu hspent
  obtain ⟨spend, hspend, hutxo⟩ := traverse_all htraverse utxo hu
  obtain ⟨source, hsource, hmade⟩ := traverse_mem hchosen hspend
  have hunused := List.of_mem_filter (hpool.subset hsource)
  apply (isUnusedNight_iff.mp hunused).2
  obtain ⟨i, hi, hpoint⟩ := hspent
  refine ⟨i, hi, ?_⟩
  rw [UtxoRecord.outpoint_of_utxoSpend hmade, ← UtxoRecord.outpoint_of_utxoSpend hutxo, hpoint]

/-- Balancing takes only unused NIGHT records exactly when no record that spells a used outpoint differently is
reached. -/
theorem balanceTransaction_unused_iff {unbound_tx : UnboundTx} (hlists : HasLists unbound_tx.standard)
    (hfetch : wallet.unshielded.getUtxos client.indexer = .ok utxos) (hdec : ∀ utxo ∈ utxos, utxo.Decodes) :
    BalancesFrom client wallet ttl_seconds unbound_tx
      (utxos.filter (isUnusedNight unbound_tx.standard.zeroInputs)) ↔
    RespelledUnreached client.config.min_fee unbound_tx.standard utxos := by
  have hunused : ∀ utxo ∈ utxos.filter (isUnusedNight unbound_tx.standard.zeroInputs), utxo.Decodes :=
    fun utxo hu => hdec utxo (List.mem_of_mem_filter hu)
  rcases balanceTransaction_outcome ttl_seconds hlists hfetch (fun utxo hu => hdec utxo (of_mem_tried hu).1) with
    ⟨hshort, hraise⟩ | ⟨taken, rest, spends, hsplit, htraverse, hcover, hneeded, hok, hgrown, hbalanced⟩
  · have hless : total UtxoRecord.amount (utxos.filter (isUnusedNight unbound_tx.standard.zeroInputs)) ≤
        total UtxoRecord.amount (tried unbound_tx.standard.zeroInputs utxos) := by
      rw [total_tried]
      apply total_le_of_subperm UtxoRecord.amount
      · apply List.Sublist.subperm
        apply List.monotone_filter_right
        intro utxo hu
        exact (isUnusedNight_iff.mp hu).1
      · intro utxo hu
        exact (hdec utxo (List.mem_of_mem_filter hu)).amount_nonneg
    refine iff_of_true ⟨iff_of_false hraise ?_, ?_⟩ (Or.inl hshort)
    · apply not_le.mpr
      omega
    · intro hok
      exact absurd hok hraise
  · rw [respelledUnreached_iff hdec hsplit hcover hneeded]
    constructor
    · intro h
      obtain ⟨-, hexact⟩ := h
      exact (hexact hok).unspent hgrown htraverse
    · intro hunspent
      have hsub : taken.Subperm (utxos.filter (isUnusedNight unbound_tx.standard.zeroInputs)) := by
        -- what was tried and is not spent is unused
        have hkept : taken.filter (isUnusedNight unbound_tx.standard.zeroInputs) = taken := by
          apply List.filter_eq_self.mpr
          intro utxo hu
          have hmem : utxo ∈ tried unbound_tx.standard.zeroInputs utxos := by
            rw [hsplit]
            exact List.mem_append_left rest hu
          exact isUnusedNight_iff.mpr ⟨(of_mem_tried hmem).2, hunspent utxo hu⟩
        have hall : taken.Subperm utxos := by
          have hfirst := (List.sublist_append_left taken rest).subperm
          rw [← hsplit] at hfirst
          exact (hfirst.trans (sortOn_perm _ _).subperm).trans List.filter_sublist.subperm
        rw [← hkept]
        exact hall.filter _
      refine ⟨iff_of_true hok ?_, fun _ => hbalanced _ hsub⟩
      have hmore := total_le_of_subperm UtxoRecord.amount hsub (fun utxo hu => (hunused utxo hu).amount_nonneg)
      omega

end Outcome

/-- A transaction with an input of 5000 and an output of the same value. -/
def unboundSpend : UnboundTx where
  tx_data := { standard := some { intents := some (Dict.ofList [(.str "0", {
    guaranteed_unshielded_offer := some {
      inputs := some [⟨5000, sampleWallet.unshielded.publicKey, 0, List.replicate 32 0xaa, 0⟩]
      outputs := some [⟨5000, List.replicate 32 7, 0⟩] } })]) } }

theorem unboundSpend_lists : HasLists unboundSpend.standard := hasLists_of_zeroOffer rfl

theorem balanceTransaction_unused_sample :
    let utxo : UtxoRecord := { value := some (.int 20000), outputNo := some (.int 1) }
    let after := (balanceTransaction (clientWith [utxo]) sampleWallet 1800 unboundSpend).1
    Balanced (clientWith [utxo]) sampleWallet unboundSpend after
      ([utxo].filter (isUnusedNight unboundSpend.standard.zeroInputs)) := by
  intro utxo after
  have hdec : ∀ r ∈ [utxo], r.Decodes := by
    intro r hr
    rw [List.mem_singleton.mp hr]
    exact ⟨⟨_, 20000, rfl, rfl, by decide⟩, ⟨List.replicate 32 0, by decide⟩, ⟨1, rfl⟩⟩
  have hunspent : ¬ utxo.Spent unboundSpend.standard.zeroInputs := by decide +kernel
  have hunreached : RespelledUnreached (clientWith [utxo]).config.min_fee unboundSpend.standard [utxo] := by
    right
    intro before r rest hsplit hspent
    have hr : r ∈ tried unboundSpend.standard.zeroInputs [utxo] := by
      rw [hsplit]
      simp
    rw [List.mem_singleton.mp (of_mem_tried hr).1] at hspent
    exact absurd hspent hunspent
  have hok : (balanceTransaction (clientWith [utxo]) sampleWallet 1800 unboundSpend).2 = .ok () := by decide +kernel
  exact ((balanceTransaction_unused_iff unboundSpend_lists rfl hdec).mpr hunreached).2 hok

/-- The outpoint of the input, written in upper case, is spent a second time. -/
theorem balanceTransaction_respends :
    let utxo : UtxoRecord := {
      value := some (.int 20000)
      intentHash := some (String.ofList (List.replicate 64 'A'))
      outputNo := some (.int 0) }
    let after := balanceTransaction (clientWith [utxo]) sampleWallet 1800 unboundSpend
    utxo.Decodes ∧ after.2 = .ok () ∧
      after.1.standard.zeroInputs = [⟨5000, sampleWallet.unshielded.publicKey, 0, List.replicate 32 0xaa, 0⟩,
        ⟨20000, sampleWallet.unshielded.publicKey, 0, List.replicate 32 0xaa, 0⟩] ∧
      ¬ BalancesFrom (clientWith [utxo]) sampleWallet 1800 unboundSpend
        ([utxo].filter (isUnusedNight unboundSpend.standard.zeroInputs)) := by
  intro utxo after
  have hok : after.2 = .ok () := by decide +kernel
  refine ⟨⟨⟨_, 20000, rfl, rfl, by decide⟩, ⟨List.replicate 32 0xaa, by decide +kernel⟩, ⟨0, rfl⟩⟩, hok,
    by decide +kernel, ?_⟩
  intro hbalances
  have hcover := hbalances.1.mp hok
  revert hcover
  decide +kernel

end DAppConnector

end Noxipher
