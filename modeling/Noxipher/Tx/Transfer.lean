import Noxipher.Address.RoundTrip
import Noxipher.Tx.Builder
import Mathlib.Data.List.Perm.Subperm

namespace Noxipher

open Greedy

namespace UtxoRecord

/-- The integer value of a record; zero stands for one that has none. -/
def amount (utxo : UtxoRecord) : Int :=
  match utxo.intValue with
  | .ok n => n
  | .error _ => 0

/-- Whether the builder reads the record as one of `token_type`. -/
def isToken (token_type : Bytes) (utxo : UtxoRecord) : Bool :=
  match utxo.tokenHex with
  | .ok t => t = lower (hexOf token_type).toList
  | .error _ => false

/-- A record with a non-negative integer value, a hex hash and an output number. -/
structure Decodes (utxo : UtxoRecord) : Prop where
  value : ∃ v n, utxo.value = some v ∧ v.toInt = .ok n ∧ 0 ≤ n
  hash : ∃ b, fromhex utxo.hashText = .ok b
  output_no : ∃ n, utxo.outputNumber.toInt = .ok n

theorem Decodes.intValue {utxo : UtxoRecord} (h : utxo.Decodes) : utxo.intValue = .ok utxo.amount := by
  obtain ⟨v, n, hv, hn, -⟩ := h.value
  have hi : utxo.intValue = .ok n := by rw [UtxoRecord.intValue, hv, Option.getD_some, hn]
  rw [amount, hi]

theorem Decodes.amount_nonneg {utxo : UtxoRecord} (h : utxo.Decodes) : 0 ≤ utxo.amount := by
  obtain ⟨v, n, hv, hn, h0⟩ := h.value
  have hi : utxo.intValue = .ok n := by rw [UtxoRecord.intValue, hv, Option.getD_some, hn]
  rw [amount, hi]
  exact h0

/-- A record with a non-negative integer value, a readable token type, a hex hash and an output number. -/
structure WellFormed (utxo : UtxoRecord) : Prop where
  value : ∃ v n, utxo.value = some v ∧ v.toInt = .ok n ∧ 0 ≤ n
  token : ∃ t, utxo.tokenHex = .ok t
  hash : ∃ b, fromhex utxo.hashText = .ok b
  output_no : ∃ n, utxo.outputNumber.toInt = .ok n

theorem WellFormed.decodes {utxo : UtxoRecord} (h : utxo.WellFormed) : utxo.Decodes := ⟨h.value, h.hash, h.output_no⟩

theorem WellFormed.intValue {utxo : UtxoRecord} (h : utxo.WellFormed) : utxo.intValue = .ok utxo.amount :=
  h.decodes.intValue

theorem WellFormed.amount_nonneg {utxo : UtxoRecord} (h : utxo.WellFormed) : 0 ≤ utxo.amount :=
  h.decodes.amount_nonneg

end UtxoRecord

namespace TransactionBuilder

theorem eligibleUtxos_eq (token_type : Bytes) (utxos : List UtxoRecord)
    (h : ∀ utxo ∈ utxos, ∃ t, utxo.tokenHex = .ok t) :
    eligibleUtxos token_type utxos = .ok (utxos.filter (UtxoRecord.isToken token_type)) := by
  induction utxos with
  | nil => rfl
  | cons utxo utxos ih =>
    obtain ⟨t, ht⟩ := h utxo (by simp)
    have hrest := ih (fun u hu => h u (by simp [hu]))
    have htok : utxo.isToken token_type = decide (t = lower (hexOf token_type).toList) := by
      rw [UtxoRecord.isToken, ht]
    simp only [eligibleUtxos, ht, hrest, ok_bind, List.filter_cons, htok, decide_eq_true_eq]
    split_ifs <;> rfl

theorem exactMatch_eq (required : Int) (utxos : List UtxoRecord)
    (h : ∀ utxo ∈ utxos, utxo.intValue = .ok utxo.amount) :
    exactMatch required utxos = .ok (utxos.find? (fun utxo => utxo.amount = required)) := by
  induction utxos with
  | nil => rfl
  | cons utxo utxos ih =>
    have hv := h utxo (by simp)
    have hrest := ih (fun u hu => h u (by simp [hu]))
    simp only [exactMatch, hv, hrest, ok_bind, List.find?_cons]
    by_cases he : utxo.amount = required
    · simp [he, pure, Except.pure]
    · simp [he]

/-- Either branch splits the records into selected ones, whose total it knows, and a rest, and falls
short only when nothing is left. -/
theorem selectUtxos_spec (required : Int) (utxos : List UtxoRecord)
    (h : ∀ utxo ∈ utxos, utxo.intValue = .ok utxo.amount) :
    ∃ selected rest, selectUtxos required utxos = .ok (selected, total UtxoRecord.amount selected) ∧
      (selected++rest).Perm utxos ∧ (rest = [] ∨ required ≤ total UtxoRecord.amount selected) := by
  unfold selectUtxos
  rw [exactMatch_eq required utxos h, ok_bind]
  cases hf : utxos.find? (fun utxo => utxo.amount = required) with
  | some utxo =>
    obtain ⟨rest, hperm⟩ := (List.singleton_sublist.mpr (List.mem_of_find?_eq_some hf)).exists_perm_append
    have hval : utxo.amount = required := by simpa using List.find?_some hf
    have htotal : total UtxoRecord.amount [utxo] = required := by simp [hval]
    refine ⟨[utxo], rest, ?_, hperm.symm, Or.inr htotal.ge⟩
    rw [htotal]
    rfl
  | none =>
    let keyed := utxos.map (fun utxo => (utxo.amount, utxo))
    have hkeyed : traverse (fun (utxo : UtxoRecord) => do
        let value ← utxo.intValue
        return (value, utxo)) utxos = Except.ok keyed := by
      apply traverse_eq_map
      intro utxo hu
      rw [h utxo hu]
      rfl
    obtain ⟨picked, rest, hp, hperm, hreach⟩ := largestFirst_spec Prod.fst required keyed
    have hback : keyed.map Prod.snd = utxos := by simp [keyed, Function.comp_def]
    have hpair : ∀ p ∈ picked, p.1 = p.2.amount := by
      intro p hmem
      obtain ⟨utxo, -, rfl⟩ := List.mem_map.mp (hperm.subset (List.mem_append_left rest hmem))
      rfl
    have htotal : total UtxoRecord.amount (picked.map Prod.snd) = total Prod.fst picked := by
      unfold total
      rw [List.map_map]
      exact congrArg List.sum (List.map_congr_left (fun p hmem => (hpair p hmem).symm))
    refine ⟨picked.map Prod.snd, rest.map Prod.snd, ?_, ?_, ?_⟩
    · simp only [hkeyed, ok_bind, hp, htotal]
      rfl
    · rw [← List.map_append, ← hback]
      exact hperm.map Prod.snd
    · rw [htotal]
      exact hreach.imp (fun hr => by rw [hr, List.map_nil]) id

/-- The spend of a record that decodes carries its value. -/
theorem utxoSpend_ok (owner_pk : Bytes) {utxo : UtxoRecord} (h : utxo.Decodes) :
    ∃ spend, utxoSpend owner_pk utxo = .ok spend ∧ spend.value = utxo.amount := by
  obtain ⟨v, n, hv, hn, -⟩ := h.value
  obtain ⟨b, hb⟩ := h.hash
  obtain ⟨o, ho⟩ := h.output_no
  have hval : utxo.amount = n := by
    have hi : utxo.intValue = .ok n := by rw [UtxoRecord.intValue, hv, Option.getD_some, hn]
    rw [UtxoRecord.amount, hi]
  refine ⟨⟨n, owner_pk, 0, b, o⟩, ?_, hval.symm⟩
  simp only [utxoSpend, hv, required_some, ok_bind, hn, hb, ho]
  rfl

theorem utxoSpends_ok (owner_pk : Bytes) (utxos : List UtxoRecord) (h : ∀ utxo ∈ utxos, utxo.Decodes) :
    ∃ inputs, traverse (utxoSpend owner_pk) utxos = .ok inputs ∧
      total UtxoSpend.value inputs = total UtxoRecord.amount utxos := by
  induction utxos with
  | nil => exact ⟨[], rfl, rfl⟩
  | cons utxo utxos ih =>
    obtain ⟨spend, hs, hv⟩ := utxoSpend_ok owner_pk (h utxo (by simp))
    obtain ⟨inputs, ht, hsum⟩ := ih (fun u hu => h u (by simp [hu]))
    exact ⟨spend::inputs, traverse_cons_ok.mpr ⟨spend, inputs, hs, ht, rfl⟩, by simp [hv, hsum]⟩

/-- What becomes of the excess: one change output at or above the threshold, or a higher fee. -/
theorem changeOutputs_spec (owner_pk : Bytes) (current_total required real_fee : Int)
    (h : required ≤ current_total) :
    ∃ (change : Option Int) (returned_fee : Int),
      changeOutputs owner_pk current_total required real_fee =
        (change.toList.map (fun c => ⟨c, owner_pk, 0⟩), returned_fee) ∧
      (∀ c ∈ change, DUST_THRESHOLD ≤ c ∧ returned_fee = real_fee) ∧
      real_fee ≤ returned_fee ∧ returned_fee < real_fee+DUST_THRESHOLD ∧
      total id change.toList+returned_fee = current_total-required+real_fee := by
  have ht : (0 : Int) < DUST_THRESHOLD := by decide
  unfold changeOutputs
  dsimp only
  split_ifs with hc hd
  · exact ⟨none, real_fee+(current_total-required), rfl, by simp, by omega, by omega, by simp; omega⟩
  · refine ⟨some (current_total-required), real_fee, rfl, ?_, le_refl _, by omega, by simp⟩
    intro c hcm
    cases hcm
    exact ⟨by omega, rfl⟩
  · exact ⟨none, real_fee, rfl, by simp, le_refl _, by omega, by simp; omega⟩

theorem recipientOutputs_total (amount : Int) (recipient_bytes : Bytes) (h : 0 ≤ amount) :
    total UtxoOutput.value (recipientOutputs amount recipient_bytes) = amount := by
  unfold recipientOutputs
  split_ifs with hp
  · simp
  · have hz : amount = 0 := by omega
    simp [hz]

theorem changeOutputs_total (owner_pk : Bytes) (change : Option Int) :
    total UtxoOutput.value (change.toList.map (fun c => ⟨c, owner_pk, 0⟩)) = total id change.toList := by
  unfold total
  rw [List.map_map]
  rfl

/-- What a built transfer promises about value, for the records it was allowed to use. -/
def Conserves (rnd owner_pk recipient_bytes : Bytes) (amount fee : Int) (eligible : List UtxoRecord)
    (tx : TxData) : Prop :=
  ∃ (stx : StandardTransaction) (intent : Intent) (selected : List UtxoRecord) (inputs : List UtxoSpend)
    (outputs : List UtxoOutput) (change : Option Int) (returned_fee : Int),
    tx.standard = some stx ∧ tx.fee = some returned_fee ∧ stx.binding_randomness = some rnd ∧
    (stx.intents.getD Dict.empty).get? (.str "0") = some intent ∧
    intent.guaranteed_unshielded_offer = some ⟨some inputs, some outputs, some []⟩ ∧
    intent.binding_commitment = some (computeBindingCommitment rnd returned_fee) ∧
    selected.Subperm eligible ∧ traverse (utxoSpend owner_pk) selected = .ok inputs ∧
    outputs = recipientOutputs amount recipient_bytes++change.toList.map (fun c => ⟨c, owner_pk, 0⟩) ∧
    total UtxoSpend.value inputs = total UtxoOutput.value outputs+returned_fee ∧
    fee ≤ returned_fee ∧ returned_fee < fee+DUST_THRESHOLD ∧
    (∀ c ∈ change, DUST_THRESHOLD ≤ c ∧ returned_fee = fee)

/-- A selection that covers amount and fee is settled without loss. -/
theorem settleTransfer_conserves (network_id : String) (rnd owner_pk recipient_bytes : Bytes)
    (amount real_fee ttl : Int) (eligible selected : List UtxoRecord) (hsub : selected.Subperm eligible)
    (hwf : ∀ utxo ∈ selected, utxo.WellFormed) (hamount : 0 ≤ amount)
    (hcover : amount+real_fee ≤ total UtxoRecord.amount selected) :
    ∃ tx, settleTransfer network_id rnd owner_pk recipient_bytes amount real_fee ttl selected
        (total UtxoRecord.amount selected) = .ok tx ∧
      Conserves rnd owner_pk recipient_bytes amount real_fee eligible tx := by
  obtain ⟨inputs, hin, hsum⟩ := utxoSpends_ok owner_pk selected (fun utxo hu => (hwf utxo hu).decodes)
  obtain ⟨change, returned_fee, hch, hthr, hlow, hhigh, hbal⟩ := changeOutputs_spec owner_pk
    (total UtxoRecord.amount selected) (amount+real_fee) real_fee hcover
  let outputs := recipientOutputs amount recipient_bytes++change.toList.map (fun c => ⟨c, owner_pk, 0⟩)
  have htotal : total UtxoSpend.value inputs = total UtxoOutput.value outputs+returned_fee := by
    rw [total_append, recipientOutputs_total amount recipient_bytes hamount, changeOutputs_total, hsum]
    omega
  unfold settleTransfer
  rw [if_neg (not_lt.mpr hcover), hin, ok_bind, hch]
  exact ⟨_, rfl, _, _, selected, inputs, outputs, change, returned_fee, rfl, rfl, rfl, rfl, rfl, rfl, hsub, hin,
    rfl, htotal, hlow, hhigh, hthr⟩

section Build

variable (client : NoxipherClient) (rnd : Bytes) (wallet : MidnightWallet) (to_address : String)
  (amount : Int) (fee : Option Int) (ttl : Int) (token_type : Bytes) (use_dust : Bool)
  (kind : AddrType) (network : Network) (recipient_bytes : Bytes) (utxos : List UtxoRecord)

/-- Once the records are fetched and filtered the selection is settled. -/
theorem buildUnshieldedTransfer_select (hrec : decodeAddress to_address = .ok (kind, network, recipient_bytes))
    (hfetch : fetchUtxos client wallet use_dust = .ok utxos) (hwf : ∀ utxo ∈ utxos, utxo.WellFormed) :
    ∃ selected rest,
      (selected++rest).Perm (utxos.filter (UtxoRecord.isToken (effectiveToken token_type use_dust))) ∧
      (rest = [] ∨ amount+fee.getD client.config.min_fee ≤ total UtxoRecord.amount selected) ∧
      buildUnshieldedTransfer client rnd wallet to_address amount fee ttl token_type use_dust =
        settleTransfer client.config.name rnd (ownerKey wallet use_dust) recipient_bytes amount
          (fee.getD client.config.min_fee) ttl selected (total UtxoRecord.amount selected) := by
  have hfilter := eligibleUtxos_eq (effectiveToken token_type use_dust) utxos (fun utxo hu => (hwf utxo hu).token)
  obtain ⟨selected, rest, hsel, hperm, hreach⟩ := selectUtxos_spec (amount+fee.getD client.config.min_fee)
    (utxos.filter (UtxoRecord.isToken (effectiveToken token_type use_dust)))
    (fun utxo hu => (hwf utxo (List.mem_of_mem_filter hu)).intValue)
  refine ⟨selected, rest, hperm, hreach, ?_⟩
  simp only [buildUnshieldedTransfer, decodeRecipient, hrec, ok_bind, hfetch, hfilter, hsel]

/-- The eligible records decide: enough of them settle the transfer, too few are an error. -/
theorem buildUnshieldedTransfer_outcome
    (hrec : decodeAddress to_address = .ok (kind, network, recipient_bytes))
    (hfetch : fetchUtxos client wallet use_dust = .ok utxos) (hwf : ∀ utxo ∈ utxos, utxo.WellFormed)
    (hamount : 0 ≤ amount) :
    let built := buildUnshieldedTransfer client rnd wallet to_address amount fee ttl token_type use_dust
    let eligible := utxos.filter (UtxoRecord.isToken (effectiveToken token_type use_dust))
    let real_fee := fee.getD client.config.min_fee
    (total UtxoRecord.amount eligible < amount+real_fee → ∃ msg, built = .error (.transactionError msg)) ∧
    (amount+real_fee ≤ total UtxoRecord.amount eligible → ∃ tx, built = .ok tx ∧
      Conserves rnd (ownerKey wallet use_dust) recipient_bytes amount real_fee eligible tx) := by
  obtain ⟨selected, rest, hperm, hreach, hbuilt⟩ := buildUnshieldedTransfer_select client rnd
    wallet to_address amount fee ttl token_type use_dust kind network recipient_bytes utxos hrec hfetch hwf
  intro built eligible real_fee
  have hmem : ∀ utxo ∈ eligible, utxo.WellFormed := fun utxo hu => hwf utxo (List.mem_of_mem_filter hu)
  have hle : total UtxoRecord.amount selected ≤ total UtxoRecord.amount eligible :=
    total_le_of_perm UtxoRecord.amount hperm (fun utxo hu => (hmem utxo hu).amount_nonneg)
  constructor
  · intro hs
    exact ⟨_, hbuilt.trans (if_pos (lt_of_le_of_lt hle hs))⟩
  · intro hc
    have hsel : amount+real_fee ≤ total UtxoRecord.amount selected := by
      rcases hreach with rfl | hr
      · rw [List.append_nil] at hperm
        rwa [total_perm UtxoRecord.amount hperm]
      · exact hr
    have hsub : selected.Subperm eligible :=
      (List.sublist_append_left selected rest).subperm.trans hperm.subperm
    obtain ⟨tx, htx, hcons⟩ := settleTransfer_conserves client.config.name rnd (ownerKey wallet use_dust)
      recipient_bytes amount real_fee ttl eligible selected hsub (fun utxo hu => hmem utxo (hsub.subset hu))
      hamount hsel
    exact ⟨tx, hbuilt.trans htx, hcons⟩

/-- A transfer fails for lack of funds exactly when the eligible records fall short of amount and fee, and
otherwise it conserves value. -/
theorem buildUnshieldedTransfer_conserves
    (hrec : decodeAddress to_address = .ok (kind, network, recipient_bytes))
    (hfetch : fetchUtxos client wallet use_dust = .ok utxos) (hwf : ∀ utxo ∈ utxos, utxo.WellFormed)
    (hamount : 0 ≤ amount) :
    let built := buildUnshieldedTransfer client rnd wallet to_address amount fee ttl token_type use_dust
    let eligible := utxos.filter (UtxoRecord.isToken (effectiveToken token_type use_dust))
    let real_fee := fee.getD client.config.min_fee
    ((∃ e, built = .error e ∧ e.isTransactionError = true) ↔
      total UtxoRecord.amount eligible < amount+real_fee) ∧
    (amount+real_fee ≤ total UtxoRecord.amount eligible → ∃ tx, built = .ok tx ∧
      Conserves rnd (ownerKey wallet use_dust) recipient_bytes amount real_fee eligible tx) := by
  obtain ⟨hshort, hcover⟩ := buildUnshieldedTransfer_outcome client rnd wallet to_address amount fee ttl
    token_type use_dust kind network recipient_bytes utxos hrec hfetch hwf hamount
  intro built eligible real_fee
  refine ⟨?_, hcover⟩
  constructor
  · intro ⟨e, he, _⟩
    by_contra hc
    obtain ⟨tx, htx, -⟩ := hcover (not_lt.mp hc)
    have hboth : Except.ok tx = Except.error e := htx.symm.trans he
    cases hboth
  · intro hs
    obtain ⟨msg, hmsg⟩ := hshort hs
    exact ⟨_, hmsg, rfl⟩

end Build

end TransactionBuilder

def sampleUtxos : List UtxoRecord :=
  [{ value := some (.int 1000), outputNo := some (.int 0) },
   { value := some (.str "5000"), tokenType := some (.str zeroHex), outputNo := some (.str "1") }]

def sampleClient : NoxipherClient :=
  ⟨⟨"preprod", .preprod, 10000⟩, ⟨fun _ => .ok sampleUtxos⟩⟩

def sampleWallet : MidnightWallet :=
  ⟨⟨⟨List.replicate 32 3, fun _ data => data⟩, "night"⟩, ⟨[], [], "shielded"⟩,
    ⟨⟨List.replicate 32 4, fun _ data => data⟩, .preprod⟩, ZswapState.new⟩

theorem sampleUtxos_wellFormed : ∀ utxo ∈ sampleUtxos, utxo.WellFormed := by
  intro utxo hu
  simp only [sampleUtxos, List.mem_cons, List.not_mem_nil, or_false] at hu
  rcases hu with rfl | rfl
  · exact ⟨⟨_, 1000, rfl, rfl, by decide⟩, ⟨zeroHex.toList, by decide⟩, ⟨List.replicate 32 0, by decide⟩, ⟨0, rfl⟩⟩
  · exact ⟨⟨_, 5000, rfl, by decide, by decide⟩, ⟨zeroHex.toList, by decide⟩, ⟨List.replicate 32 0, by decide⟩,
      ⟨1, by decide⟩⟩

namespace TransactionBuilder

theorem buildUnshieldedTransfer_conserves_sample :
    ∃ to_address tx, buildUnshieldedTransfer sampleClient (List.replicate 32 9) sampleWallet to_address 500
        (some 100) 1800 RawTokenType.NATIVE_NIGHT false = .ok tx ∧
      Conserves (List.replicate 32 9) (List.replicate 32 3) (List.replicate 32 7) 500 100 sampleUtxos tx := by
  obtain ⟨to_address, -, hrec⟩ := encodeAddress_decodes (List.replicate 32 7) .unshielded .preprod (by decide)
  have hall : sampleUtxos.filter (UtxoRecord.isToken (effectiveToken RawTokenType.NATIVE_NIGHT false)) =
      sampleUtxos := by decide
  have h := (buildUnshieldedTransfer_conserves sampleClient (List.replicate 32 9) sampleWallet to_address 500
    (some 100) 1800 RawTokenType.NATIVE_NIGHT false .unshielded .preprod (List.replicate 32 7) sampleUtxos hrec rfl
    sampleUtxos_wellFormed (by decide)).2
  rw [hall] at h
  obtain ⟨tx, htx, hcons⟩ := h (by decide)
  exact ⟨to_address, tx, htx, hcons⟩

end TransactionBuilder

end Noxipher
