import Noxipher.Library.GreedyOptimal
import Noxipher.Tx.Outputs

namespace Noxipher

open Greedy

namespace TransactionBuilder

/-- The listed records of the token type that is moved. -/
def spendable (client : NoxipherClient) (wallet : MidnightWallet) (token_type : Bytes) (use_dust : Bool) :
    Except PyError (List UtxoRecord) := do
  let utxos ← fetchUtxos client wallet use_dust
  eligibleUtxos (effectiveToken token_type use_dust) utxos

theorem isToken_of_eligibleUtxos {token_type : Bytes} {utxos eligible : List UtxoRecord}
    (h : eligibleUtxos token_type utxos = .ok eligible) : ∀ utxo ∈ eligible, utxo.isToken token_type = true := by
  induction utxos generalizing eligible with
  | nil =>
    cases h
    simp
  | cons utxo utxos ih =>
    obtain ⟨u_token_hex, htoken, h⟩ := bind_ok_iff.mp h
    obtain ⟨rest, hrest, h⟩ := bind_ok_iff.mp h
    have hkept := ih hrest
    have htext : utxo.isToken token_type = decide (u_token_hex = lower (hexOf token_type).toList) := by
      rw [UtxoRecord.isToken, htoken]
    rw [← Except.ok.inj h]
    split_ifs with hsame
    · intro r hr
      rcases List.mem_cons.mp hr with rfl | hr
      · rw [htext]
        exact decide_eq_true hsame
      · exact hkept r hr
    · exact hkept

theorem eligibleUtxos_returns_iff {token_type : Bytes} {utxos : List UtxoRecord} :
    (∃ eligible, eligibleUtxos token_type utxos = .ok eligible) ↔ ∀ utxo ∈ utxos, ∃ t, utxo.tokenHex = .ok t := by
  constructor
  · intro h
    obtain ⟨eligible, h⟩ := h
    induction utxos generalizing eligible with
    | nil => simp
    | cons first utxos ih =>
      obtain ⟨t, ht, h⟩ := bind_ok_iff.mp h
      obtain ⟨rest, hrest, -⟩ := bind_ok_iff.mp h
      intro utxo hu
      rcases List.mem_cons.mp hu with rfl | hu
      · exact ⟨t, ht⟩
      · exact ih rest hrest utxo hu
  · intro h
    exact ⟨_, eligibleUtxos_eq token_type utxos h⟩

/-- The record is one the builder keeps. -/
theorem eligibleUtxos_singleton {token_type : Bytes} {utxo : UtxoRecord} :
    eligibleUtxos token_type [utxo] = .ok [utxo] ↔ utxo.isToken token_type = true := by
  constructor
  · intro h
    exact isToken_of_eligibleUtxos h utxo (by simp)
  · intro h
    have htext : ∀ r ∈ [utxo], ∃ t, r.tokenHex = .ok t := by
      intro r hr
      rw [List.mem_singleton.mp hr]
      cases htoken : utxo.tokenHex with
      | error e =>
        rw [UtxoRecord.isToken, htoken] at h
        cases h
      | ok t => exact ⟨t, rfl⟩
    rw [eligibleUtxos_eq token_type [utxo] htext, List.filter_singleton, h]
    rfl

theorem exactMatch_some {required : Int} {utxos : List UtxoRecord} {utxo : UtxoRecord}
    (h : exactMatch required utxos = .ok (some utxo)) : utxo ∈ utxos ∧ utxo.intValue = .ok required := by
  induction utxos with
  | nil => cases h
  | cons first utxos ih =>
    obtain ⟨value, hvalue, h⟩ := bind_ok_iff.mp h
    split_ifs at h with hsame
    · cases h
      exact ⟨by simp, by rw [hvalue, hsame]⟩
    · obtain ⟨hmem, hint⟩ := ih h
      exact ⟨by simp [hmem], hint⟩

theorem exactMatch_none {required : Int} {utxos : List UtxoRecord} (h : exactMatch required utxos = .ok none) :
    ∀ utxo ∈ utxos, utxo.intValue = .ok utxo.amount := by
  induction utxos with
  | nil => simp
  | cons first utxos ih =>
    obtain ⟨value, hvalue, h⟩ := bind_ok_iff.mp h
    split_ifs at h with hsame
    · cases h
    · intro utxo hu
      rcases List.mem_cons.mp hu with rfl | hu
      · rw [UtxoRecord.amount, hvalue]
      · exact ih h utxo hu

theorem changeOutputs_value {owner_pk : Bytes} {current_total required real_fee : Int} {output : UtxoOutput}
    (h : output ∈ (changeOutputs owner_pk current_total required real_fee).1) :
    output.value = current_total-required := by
  unfold changeOutputs at h
  dsimp only at h
  split_ifs at h with hmore hdust
  · cases h
  · rw [List.mem_singleton.mp h]
  · cases h

/-- A selection is one record of exactly the required value, or what largest first selects from records that are all
readable. -/
theorem selectUtxos_cases {required : Int} {eligible : List UtxoRecord} {picked : List UtxoRecord × Int}
    (h : selectUtxos required eligible = .ok picked) :
    (∃ utxo ∈ eligible, utxo.amount = required ∧ picked = ([utxo], required)) ∨
    ((∀ utxo ∈ eligible, utxo.intValue = .ok utxo.amount) ∧
      picked = largestFirst UtxoRecord.amount required eligible) := by
  obtain ⟨found, hfound, h⟩ := bind_ok_iff.mp h
  cases found with
  | some utxo =>
    obtain ⟨hmem, hint⟩ := exactMatch_some hfound
    left
    refine ⟨utxo, hmem, ?_, (Except.ok.inj h).symm⟩
    rw [UtxoRecord.amount, hint]
  | none =>
    have hread := exactMatch_none hfound
    right
    refine ⟨hread, ?_⟩
    have hkeyed : traverse (fun (utxo : UtxoRecord) => do
        let value ← utxo.intValue
        return (value, utxo)) eligible = Except.ok (eligible.map (fun utxo => (utxo.amount, utxo))) := by
      apply traverse_eq_map
      intro utxo hu
      rw [hread utxo hu]
      rfl
    simp only [hkeyed, ok_bind] at h
    have hmap : largestFirst Prod.fst required (eligible.map (fun utxo => (utxo.amount, utxo))) =
        ((largestFirst UtxoRecord.amount required eligible).1.map (fun utxo => (utxo.amount, utxo)),
          (largestFirst UtxoRecord.amount required eligible).2) :=
      largestFirst_map UtxoRecord.amount (by intro utxo; rfl) required eligible
    rw [← Except.ok.inj h, hmap, List.map_map]
    simp [Function.comp_def]

/-- A selection is a part of the eligible records with its total, and it is empty only when there are none. -/
theorem selectUtxos_part {required : Int} {eligible : List UtxoRecord} {picked : List UtxoRecord × Int}
    (h : selectUtxos required eligible = .ok picked) :
    picked.1.Subperm eligible ∧ picked.2 = total UtxoRecord.amount picked.1 ∧ (picked.1 = [] ↔ eligible = []) := by
  rcases selectUtxos_cases h with ⟨utxo, hmem, hvalue, rfl⟩ | ⟨-, rfl⟩
  · refine ⟨(List.singleton_sublist.mpr hmem).subperm, by simp [hvalue], ?_⟩
    constructor
    · intro hnil
      cases hnil
    · intro hnil
      rw [hnil] at hmem
      cases hmem
  · obtain ⟨selected, rest, hselect, hperm, -⟩ := largestFirst_spec UtxoRecord.amount required eligible
    rw [hselect]
    refine ⟨(List.sublist_append_left selected rest).subperm.trans hperm.subperm, rfl, ?_⟩
    constructor
    · intro hnil
      by_contra hne
      cases hnil
      exact largestFirst_ne_nil UtxoRecord.amount required hne (congrArg Prod.fst hselect)
    · intro hnil
      rw [hnil] at hperm
      exact (List.append_eq_nil_iff.mp (List.perm_nil.mp hperm)).1

theorem selectUtxos_returns {eligible : List UtxoRecord} (hread : ∀ utxo ∈ eligible, ∃ n, utxo.intValue = .ok n)
    (required : Int) : ∃ selected, selectUtxos required eligible = .ok (selected, total UtxoRecord.amount selected) := by
  have hvalue : ∀ utxo ∈ eligible, utxo.intValue = .ok utxo.amount := by
    intro utxo hu
    obtain ⟨n, hn⟩ := hread utxo hu
    rw [UtxoRecord.amount, hn]
  obtain ⟨selected, -, hselect, -⟩ := selectUtxos_spec required eligible hvalue
  exact ⟨selected, hselect⟩

/-- The only record is always selected. -/
theorem selectUtxos_singleton (required : Int) {utxo : UtxoRecord} {n : Int} (h : utxo.intValue = .ok n) :
    selectUtxos required [utxo] = .ok ([utxo], utxo.amount) := by
  have hread : ∀ r ∈ [utxo], ∃ n, r.intValue = .ok n := by
    intro r hr
    rw [List.mem_singleton.mp hr]
    exact ⟨n, h⟩
  obtain ⟨selected, hselect⟩ := selectUtxos_returns hread required
  obtain ⟨hsub, -, hnil⟩ := selectUtxos_part hselect
  have hne : selected ≠ [] := by
    intro hempty
    cases hnil.mp hempty
  have hlength : 1 ≤ selected.length := List.length_pos_iff.mpr hne
  have hperm : selected.Perm [utxo] := hsub.perm_of_length_le hlength
  have hall : selected = [utxo] := List.perm_singleton.mp hperm
  rw [hselect, hall, total_cons, total_nil, add_zero]

/-- A selection falls short exactly when every choice of records does. -/
theorem selectUtxos_short_iff {required : Int} {eligible selected : List UtxoRecord}
    (h : selectUtxos required eligible = .ok (selected, total UtxoRecord.amount selected)) :
    total UtxoRecord.amount selected < required ↔ Unreachable UtxoRecord.amount required eligible := by
  rcases selectUtxos_cases h with ⟨utxo, hmem, hvalue, hpicked⟩ | ⟨-, hpicked⟩
  · apply iff_of_false
    · rw [(Prod.mk.inj hpicked).1, total_cons, total_nil, hvalue]
      omega
    · intro hnone
      have hless := hnone.2 [utxo] (List.singleton_sublist.mpr hmem).subperm (by simp)
      rw [total_cons, total_nil] at hless
      omega
  · rw [← largestFirst_short_iff, ← hpicked]

/-- Of all choices that cover what is required none has fewer records. -/
theorem selectUtxos_length_le {required : Int} {eligible selected s : List UtxoRecord} (hpos : 0 < required)
    (h : selectUtxos required eligible = .ok (selected, total UtxoRecord.amount selected)) (hs : s.Subperm eligible)
    (hcover : required ≤ total UtxoRecord.amount s) : selected.length ≤ s.length := by
  have hne : s ≠ [] := by
    intro hnil
    rw [hnil, total_nil] at hcover
    omega
  rcases selectUtxos_cases h with ⟨utxo, -, -, hpicked⟩ | ⟨-, hpicked⟩
  · rw [(Prod.mk.inj hpicked).1]
    exact List.length_pos_iff.mpr hne
  · have hreach : required ≤ (largestFirst UtxoRecord.amount required eligible).2 := by
      by_contra hless
      have hnone := (largestFirst_short_iff UtxoRecord.amount).mp (not_le.mp hless)
      have htotal := hnone.2 s hs hne
      omega
    have hfew := largestFirst_length_le UtxoRecord.amount hreach hpos hs hcover
    rwa [← hpicked] at hfew

/-- Without any one of its records a selection is short. -/
theorem selectUtxos_needed {required : Int} {eligible selected : List UtxoRecord} (hpos : 0 < required)
    (h : selectUtxos required eligible = .ok (selected, total UtxoRecord.amount selected))
    (hcover : required ≤ total UtxoRecord.amount selected) :
    ∀ utxo ∈ selected, total UtxoRecord.amount selected-utxo.amount < required := by
  intro utxo hu
  rcases selectUtxos_cases h with ⟨exact_utxo, -, hvalue, hpicked⟩ | ⟨-, hpicked⟩
  · rw [(Prod.mk.inj hpicked).1] at hu ⊢
    rw [List.mem_singleton.mp hu]
    simpa using hpos
  · have hselected : (largestFirst UtxoRecord.amount required eligible).1 = selected := by rw [← hpicked]
    have htotal : (largestFirst UtxoRecord.amount required eligible).2 = total UtxoRecord.amount selected := by
      rw [← hpicked]
    rw [← hselected] at hu
    have hless := largestFirst_needed UtxoRecord.amount (by rw [htotal]; exact hcover) hpos hu
    rwa [htotal] at hless

/-- What the stages of a built transfer hand on, and what each of them guarantees. -/
structure Stages (client : NoxipherClient) (wallet : MidnightWallet) (to_address : String) (amount : Int)
    (fee : Option Int) (token_type : Bytes) (use_dust : Bool) (tx : TxData) where
  recipient_bytes : Bytes
  eligible : List UtxoRecord
  selected : List UtxoRecord
  inputs : List UtxoSpend
  change : List UtxoOutput
  decoded : decodeRecipient to_address = .ok recipient_bytes
  listed : spendable client wallet token_type use_dust = .ok eligible
  picked : selectUtxos (amount+fee.getD client.config.min_fee) eligible =
    .ok (selected, total UtxoRecord.amount selected)
  covered : amount+fee.getD client.config.min_fee ≤ total UtxoRecord.amount selected
  spent : traverse (utxoSpend (ownerKey wallet use_dust)) selected = .ok inputs
  returned : change = (changeOutputs (ownerKey wallet use_dust) (total UtxoRecord.amount selected)
    (amount+fee.getD client.config.min_fee) (fee.getD client.config.min_fee)).1
  offer : tx.guaranteedOffer = some ⟨some inputs, some (recipientOutputs amount recipient_bytes++change), some []⟩

section Build

variable {client : NoxipherClient} {rnd : Bytes} {wallet : MidnightWallet} {to_address : String} {amount : Int}
  {fee : Option Int} {ttl : Int} {token_type : Bytes} {use_dust : Bool} {tx : TxData}

theorem buildUnshieldedTransfer_stages
    (hbuilt : buildUnshieldedTransfer client rnd wallet to_address amount fee ttl token_type use_dust = .ok tx) :
    Nonempty (Stages client wallet to_address amount fee token_type use_dust tx) := by
  obtain ⟨recipient_bytes, hrec, hbuilt⟩ := bind_ok_iff.mp hbuilt
  obtain ⟨utxos, hfetch, hbuilt⟩ := bind_ok_iff.mp hbuilt
  obtain ⟨eligible, heligible, hbuilt⟩ := bind_ok_iff.mp hbuilt
  obtain ⟨picked, hpicked, hbuilt⟩ := bind_ok_iff.mp hbuilt
  unfold settleTransfer at hbuilt
  simp only at hbuilt
  split_ifs at hbuilt with hshort
  obtain ⟨inputs, hinputs, hbuilt⟩ := bind_ok_iff.mp hbuilt
  cases hbuilt
  obtain ⟨selected, current_total⟩ := picked
  obtain ⟨-, htotal, -⟩ := selectUtxos_part hpicked
  have htotal : current_total = total UtxoRecord.amount selected := htotal
  subst htotal
  exact ⟨⟨recipient_bytes, eligible, selected, inputs, _, hrec, bind_ok_iff.mpr ⟨utxos, hfetch, heligible⟩, hpicked,
    not_lt.mp hshort, hinputs, rfl, rfl⟩⟩

/-- A transfer that spends the only record of its token type. -/
theorem buildUnshieldedTransfer_single {recipient_bytes : Bytes} {utxo : UtxoRecord} {spend : UtxoSpend}
    (hrec : decodeRecipient to_address = .ok recipient_bytes)
    (hlisted : spendable client wallet token_type use_dust = .ok [utxo])
    (hspend : utxoSpend (ownerKey wallet use_dust) utxo = .ok spend)
    (hcover : amount+fee.getD client.config.min_fee ≤ spend.value) :
    ∃ tx, buildUnshieldedTransfer client rnd wallet to_address amount fee ttl token_type use_dust = .ok tx ∧
      tx.guaranteedOffer = some ⟨some [spend], some (recipientOutputs amount recipient_bytes++
        (changeOutputs (ownerKey wallet use_dust) spend.value (amount+fee.getD client.config.min_fee)
          (fee.getD client.config.min_fee)).1), some []⟩ := by
  have hvalue := (utxoSpend_fields hspend).1
  have hread : ∃ n, utxo.intValue = .ok n := by
    obtain ⟨value, hvalue, hspend⟩ := bind_ok_iff.mp hspend
    obtain ⟨n, hn, -⟩ := bind_ok_iff.mp hspend
    exact ⟨n, by rw [UtxoRecord.intValue, required_ok_iff.mp hvalue, Option.getD_some, hn]⟩
  obtain ⟨n, hn⟩ := hread
  have hselect := selectUtxos_singleton (amount+fee.getD client.config.min_fee) hn
  have hspends : traverse (utxoSpend (ownerKey wallet use_dust)) [utxo] = .ok [spend] :=
    traverse_cons_ok.mpr ⟨spend, [], hspend, rfl, rfl⟩
  rw [hvalue] at hcover ⊢
  obtain ⟨utxos, hfetch, heligible⟩ := bind_ok_iff.mp hlisted
  rw [buildUnshieldedTransfer, hrec, ok_bind, hfetch, ok_bind, heligible, ok_bind]
  simp only [hselect, ok_bind]
  rw [settleTransfer, if_neg (not_lt.mpr hcover), hspends, ok_bind]
  exact ⟨_, rfl, rfl⟩

namespace Stages

variable (stages : Stages client wallet to_address amount fee token_type use_dust tx)

theorem input_owner : ∀ spend ∈ stages.inputs, spend.owner = ownerKey wallet use_dust := by
  intro spend hspend
  obtain ⟨utxo, -, hutxo⟩ := traverse_mem stages.spent hspend
  exact utxoSpend_owner hutxo

theorem change_owner : ∀ output ∈ stages.change, output.owner = ownerKey wallet use_dust := by
  rw [stages.returned]
  exact changeOutputs_owner _ _ _ _

/-- Every selected record is of the token type that is moved. -/
theorem isToken : ∀ utxo ∈ stages.selected, utxo.isToken (effectiveToken token_type use_dust) = true := by
  obtain ⟨utxos, -, heligible⟩ := bind_ok_iff.mp stages.listed
  intro utxo hu
  exact isToken_of_eligibleUtxos heligible utxo ((selectUtxos_part stages.picked).1.subset hu)

theorem inputs_length : stages.inputs.length = stages.selected.length :=
  (traverse_forall₂ stages.spent).length_eq.symm

/-- Nothing is spent exactly when nothing is listed. -/
theorem inputs_eq_nil : stages.inputs = [] ↔ stages.eligible = [] := by
  rw [← (selectUtxos_part stages.picked).2.2, ← List.length_eq_zero_iff, stages.inputs_length, List.length_eq_zero_iff]

/-- What is left over is less than any record that was selected. -/
theorem change_lt (hpos : 0 < amount+fee.getD client.config.min_fee) :
    ∀ output ∈ stages.change, ∀ spend ∈ stages.inputs, output.value < spend.value := by
  intro output houtput spend hspend
  obtain ⟨utxo, hu, hutxo⟩ := traverse_mem stages.spent hspend
  have hneeded := selectUtxos_needed hpos stages.picked stages.covered utxo hu
  have hvalue : output.value = total UtxoRecord.amount stages.selected-(amount+fee.getD client.config.min_fee) := by
    rw [stages.returned] at houtput
    exact changeOutputs_value houtput
  rw [hvalue, (utxoSpend_fields hutxo).1]
  omega

end Stages

/-- For every positive amount with fee that the eligible records cover, the selection has as few records as any that
covers it; it needs each of them, and the change is less than each of them. -/
theorem selection_optimal {eligible : List UtxoRecord} (hlisted : spendable client wallet token_type use_dust = .ok eligible)
    (hread : ∀ utxo ∈ eligible, ∃ n, utxo.intValue = .ok n) (hpos : 0 < amount+fee.getD client.config.min_fee)
    (hcover : amount+fee.getD client.config.min_fee ≤ total UtxoRecord.amount eligible) :
    let required := amount+fee.getD client.config.min_fee
    ∃ selected, selectUtxos required eligible = .ok (selected, total UtxoRecord.amount selected) ∧
      IsLeast {n | ∃ s : List UtxoRecord, s.Subperm eligible ∧ required ≤ total UtxoRecord.amount s ∧ s.length = n}
        selected.length ∧
      (∀ before utxo after, selected = before++utxo::after → total UtxoRecord.amount (before++after) < required) ∧
      (∀ utxo ∈ selected, total UtxoRecord.amount selected-required < utxo.amount) ∧
      ∀ rnd to_address ttl tx,
        buildUnshieldedTransfer client rnd wallet to_address amount fee ttl token_type use_dust = .ok tx →
        ∃ recipient_bytes inputs change,
          tx.guaranteedOffer = some ⟨some inputs, some (recipientOutputs amount recipient_bytes++change), some []⟩ ∧
          traverse (utxoSpend (ownerKey wallet use_dust)) selected = .ok inputs ∧
          inputs.length = selected.length ∧ ∀ output ∈ change, ∀ spend ∈ inputs, output.value < spend.value := by
  intro required
  obtain ⟨selected, hselect⟩ := selectUtxos_returns hread required
  have hreach : required ≤ total UtxoRecord.amount selected := by
    by_contra hless
    have hnone := (selectUtxos_short_iff hselect).mp (not_le.mp hless)
    have hne : eligible ≠ [] := by
      intro hnil
      rw [hnil, total_nil] at hcover
      omega
    have htotal := hnone.2 eligible (List.Subperm.refl eligible) hne
    omega
  have hneeded := selectUtxos_needed hpos hselect hreach
  refine ⟨selected, hselect, ⟨?_, ?_⟩, ?_, ?_, ?_⟩
  · exact ⟨selected, (selectUtxos_part hselect).1, hreach, rfl⟩
  · intro n hn
    obtain ⟨s, hs, hcovers, rfl⟩ := hn
    exact selectUtxos_length_le hpos hselect hs hcovers
  · intro before utxo after hsplit
    have hless := hneeded utxo (by simp [hsplit])
    rw [hsplit] at hless
    simp only [total_append, total_cons] at hless ⊢
    omega
  · intro utxo hu
    have hless := hneeded utxo hu
    omega
  · intro rnd to_address ttl tx hbuilt
    obtain ⟨stages⟩ := buildUnshieldedTransfer_stages hbuilt
    have hsame : stages.eligible = eligible := Except.ok.inj (stages.listed.symm.trans hlisted)
    have hpicked := stages.picked
    rw [hsame, hselect] at hpicked
    have hselected : selected = stages.selected := (Prod.mk.inj (Except.ok.inj hpicked)).1
    refine ⟨stages.recipient_bytes, stages.inputs, stages.change, stages.offer, ?_, ?_, stages.change_lt hpos⟩
    · rw [hselected]
      exact stages.spent
    · rw [hselected]
      exact stages.inputs_length

/-- Of the two sample records the larger one pays 500 and the fee. -/
theorem selection_optimal_sample :
    ∃ selected, selectUtxos 600 sampleUtxos = .ok (selected, total UtxoRecord.amount selected) ∧
      IsLeast {n | ∃ s : List UtxoRecord, s.Subperm sampleUtxos ∧ 600 ≤ total UtxoRecord.amount s ∧ s.length = n}
        selected.length := by
  have hlisted : spendable sampleClient sampleWallet RawTokenType.NATIVE_NIGHT false = .ok sampleUtxos := by decide
  have hread : ∀ utxo ∈ sampleUtxos, ∃ n, utxo.intValue = .ok n := by
    intro utxo hu
    exact ⟨_, (sampleUtxos_wellFormed utxo hu).intValue⟩
  have hcover : (500 : Int)+(some 100).getD sampleClient.config.min_fee ≤ total UtxoRecord.amount sampleUtxos := by
    decide
  obtain ⟨selected, hselect, hleast, -⟩ := selection_optimal hlisted hread (by decide) hcover
  exact ⟨selected, hselect, hleast⟩

end Build

end TransactionBuilder

end Noxipher
