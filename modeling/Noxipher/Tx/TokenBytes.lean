import Noxipher.Tx.Scale
import Noxipher.Tx.Selection

namespace Noxipher

open Greedy

/-- The type fields of the inputs and the outputs. -/
def UnshieldedOffer.typeFields (offer : UnshieldedOffer) : List Int :=
  (offer.inputs.getD []).map UtxoSpend.type_++(offer.outputs.getD []).map UtxoOutput.type_

/-- Two offers that spend the same outpoints and move the same values. -/
def UnshieldedOffer.SameSpends (offer other : UnshieldedOffer) : Prop :=
  (offer.inputs.getD []).map (fun i => (i.intent_hash, i.output_no, i.value)) =
      (other.inputs.getD []).map (fun i => (i.intent_hash, i.output_no, i.value)) ∧
    (offer.outputs.getD []).map UtxoOutput.value = (other.outputs.getD []).map UtxoOutput.value

theorem UnshieldedOffer.SameSpends.typeFields_eq_nil {offer other : UnshieldedOffer} (h : offer.SameSpends other) :
    offer.typeFields = [] ↔ other.typeFields = [] := by
  have hinputs := congrArg List.length h.1
  have houtputs := congrArg List.length h.2
  simp only [List.length_map] at hinputs houtputs
  rw [← List.length_eq_zero_iff, ← List.length_eq_zero_iff, UnshieldedOffer.typeFields, UnshieldedOffer.typeFields]
  simp [hinputs, houtputs]

namespace TransactionBuilder

/-- Every type field is that of the token its offer moves, and offers that differ in the token alone differ in their
bytes. -/
def TokenInBytes (offer other : UnshieldedOffer) (token_type other_type : Bytes) : Prop :=
  (∃ token : Int → Bytes, (∀ type_ ∈ offer.typeFields, token type_ = token_type) ∧
    ∀ type_ ∈ other.typeFields, token type_ = other_type) ∧
  (offer.SameSpends other →
    ¬ ∃ bytes, serializeUnshieldedOffer offer = .ok bytes ∧ serializeUnshieldedOffer other = .ok bytes)

/-- A transfer of nothing from nothing: no record is listed, nothing is paid, and what a negative fee leaves over is not
worth an output. -/
def MovesNothing (client : NoxipherClient) (wallet : MidnightWallet) (amount : Int) (fee : Option Int)
    (token_type : Bytes) (use_dust : Bool) : Prop :=
  spendable client wallet token_type use_dust = .ok [] ∧ amount ≤ 0 ∧
    -DUST_THRESHOLD < amount+fee.getD client.config.min_fee

theorem recipientOutputs_type {amount : Int} {recipient_bytes : Bytes} :
    ∀ output ∈ recipientOutputs amount recipient_bytes, output.type_ = 0 := by
  intro output houtput
  unfold recipientOutputs at houtput
  split_ifs at houtput
  · rw [List.mem_singleton.mp houtput]
  · cases houtput

theorem changeOutputs_type {owner_pk : Bytes} {current_total required real_fee : Int} :
    ∀ output ∈ (changeOutputs owner_pk current_total required real_fee).1, output.type_ = 0 := by
  intro output houtput
  unfold changeOutputs at houtput
  dsimp only at houtput
  split_ifs at houtput
  · cases houtput
  · rw [List.mem_singleton.mp houtput]
  · cases houtput

theorem changeOutputs_eq_nil {owner_pk : Bytes} {current_total required real_fee : Int}
    (hcover : required ≤ current_total) :
    (changeOutputs owner_pk current_total required real_fee).1 = [] ↔ current_total-required < DUST_THRESHOLD := by
  have hpos : (0 : Int) < DUST_THRESHOLD := by decide
  unfold changeOutputs
  dsimp only
  split_ifs with hmore hdust
  · simp [hdust]
  · simp [hdust]
  · simp only [true_iff]
    omega

namespace Stages

variable {client other : NoxipherClient} {wallet : MidnightWallet} {to_address : String} {amount : Int}
  {fee other_fee : Option Int} {token_type other_type : Bytes} {use_dust other_dust : Bool} {tx other_tx : TxData}

/-- The offer that was built. -/
def built (stages : Stages client wallet to_address amount fee token_type use_dust tx) : UnshieldedOffer :=
  ⟨some stages.inputs, some (recipientOutputs amount stages.recipient_bytes++stages.change), some []⟩

/-- Every type field is written as zero. -/
theorem typeFields_zero (stages : Stages client wallet to_address amount fee token_type use_dust tx) :
    ∀ type_ ∈ stages.built.typeFields, type_ = 0 := by
  intro type_ htype
  rcases List.mem_append.mp htype with htype | htype
  · obtain ⟨spend, hspend, rfl⟩ := List.mem_map.mp htype
    obtain ⟨utxo, -, hutxo⟩ := traverse_mem stages.spent hspend
    exact (utxoSpend_fields hutxo).2.1
  · obtain ⟨output, houtput, rfl⟩ := List.mem_map.mp htype
    rcases List.mem_append.mp houtput with hrecipient | hchange
    · exact recipientOutputs_type output hrecipient
    · rw [stages.returned] at hchange
      exact changeOutputs_type output hchange

theorem typeFields_eq_nil (stages : Stages client wallet to_address amount fee token_type use_dust tx) :
    stages.built.typeFields = [] ↔ MovesNothing client wallet amount fee token_type use_dust := by
  have hpaid : recipientOutputs amount stages.recipient_bytes = [] ↔ amount ≤ 0 := by
    unfold recipientOutputs
    split_ifs with hpositive
    · simp [hpositive]
    · simpa using hpositive
  have hlisted : spendable client wallet token_type use_dust = .ok [] ↔ stages.inputs = [] := by
    rw [stages.inputs_eq_nil, stages.listed, Except.ok.injEq]
  have hselected : stages.inputs = [] → total UtxoRecord.amount stages.selected = 0 := by
    intro hnil
    have hempty : stages.selected = [] := (selectUtxos_part stages.picked).2.2.mpr (stages.inputs_eq_nil.mp hnil)
    rw [hempty, total_nil]
  have hchange : stages.change = [] ↔
      total UtxoRecord.amount stages.selected-(amount+fee.getD client.config.min_fee) < DUST_THRESHOLD := by
    rw [stages.returned]
    exact changeOutputs_eq_nil stages.covered
  unfold MovesNothing
  rw [hlisted, UnshieldedOffer.typeFields, built, Option.getD_some, Option.getD_some, List.append_eq_nil_iff,
    List.map_eq_nil_iff, List.map_eq_nil_iff, List.append_eq_nil_iff, hpaid, hchange]
  constructor
  · intro h
    obtain ⟨hnil, hamount, hless⟩ := h
    rw [hselected hnil] at hless
    exact ⟨hnil, hamount, by omega⟩
  · intro h
    obtain ⟨hnil, hamount, hless⟩ := h
    rw [hselected hnil]
    exact ⟨hnil, hamount, by omega⟩

/-- An input is its outpoint and its value, under the one key and type. -/
theorem restore_inputs (stages : Stages client wallet to_address amount fee token_type use_dust tx) :
    (stages.inputs.map (fun i => (i.intent_hash, i.output_no, i.value))).map
      (fun p => (⟨p.2.2, ownerKey wallet use_dust, 0, p.1, p.2.1⟩ : UtxoSpend)) = stages.inputs := by
  rw [List.map_map]
  conv_rhs => rw [← List.map_id stages.inputs]
  apply List.map_congr_left
  intro spend hspend
  have howner := stages.input_owner spend hspend
  obtain ⟨utxo, -, hutxo⟩ := traverse_mem stages.spent hspend
  have htype := (utxoSpend_fields hutxo).2.1
  obtain ⟨value, owner, type_, intent_hash, output_no⟩ := spend
  simp only at howner htype
  simp [howner, htype]

/-- A change output is its value, under the one key and type. -/
theorem restore_change (stages : Stages client wallet to_address amount fee token_type use_dust tx) :
    (stages.change.map UtxoOutput.value).map (fun v => (⟨v, ownerKey wallet use_dust, 0⟩ : UtxoOutput)) =
      stages.change := by
  rw [List.map_map]
  conv_rhs => rw [← List.map_id stages.change]
  apply List.map_congr_left
  intro output houtput
  have howner := stages.change_owner output houtput
  rw [stages.returned] at houtput
  have htype := changeOutputs_type output houtput
  obtain ⟨value, owner, type_⟩ := output
  simp only at howner htype
  simp [howner, htype]

/-- Transfers of one amount to one address from one key that spend the same are the same offer, whatever they move. -/
theorem built_of_same (stages : Stages client wallet to_address amount fee token_type use_dust tx)
    (others : Stages other wallet to_address amount other_fee other_type use_dust other_tx)
    (h : stages.built.SameSpends others.built) : stages.built = others.built := by
  obtain ⟨hinputs, houtputs⟩ := h
  have hrecipient : stages.recipient_bytes = others.recipient_bytes :=
    Except.ok.inj (stages.decoded.symm.trans others.decoded)
  simp only [built, Option.getD_some, List.map_append, hrecipient] at hinputs houtputs ⊢
  have hchange := List.append_cancel_left houtputs
  rw [← stages.restore_inputs, ← stages.restore_change, hinputs, hchange, others.restore_inputs, others.restore_change]

theorem built_of_nil (stages : Stages client wallet to_address amount fee token_type use_dust tx)
    (h : stages.built.typeFields = []) : stages.built = ⟨some [], some [], some []⟩ := by
  rw [UnshieldedOffer.typeFields, built, Option.getD_some, Option.getD_some, List.append_eq_nil_iff,
    List.map_eq_nil_iff, List.map_eq_nil_iff] at h
  rw [built, h.1, h.2]

end Stages

section Build

variable {client other : NoxipherClient} {rnd other_rnd : Bytes} {wallet : MidnightWallet} {to_address : String}
  {amount : Int} {fee other_fee : Option Int} {ttl other_ttl : Int} {token_type other_type : Bytes}
  {use_dust other_dust : Bool} {tx other_tx : TxData}

/-- Two transfers of different tokens can be told apart exactly when one of them moves nothing and the other one
something; from one key, with the same outpoints and values, they have the same bytes. -/
theorem token_in_bytes_iff (hdistinct : effectiveToken token_type use_dust ≠ effectiveToken other_type other_dust)
    (hbuilt : buildUnshieldedTransfer client rnd wallet to_address amount fee ttl token_type use_dust = .ok tx)
    (hother : buildUnshieldedTransfer other other_rnd wallet to_address amount other_fee other_ttl other_type
      other_dust = .ok other_tx) :
    ∃ offer other_offer, tx.guaranteedOffer = some offer ∧ other_tx.guaranteedOffer = some other_offer ∧
      (TokenInBytes offer other_offer (effectiveToken token_type use_dust) (effectiveToken other_type other_dust) ↔
        Xor (MovesNothing client wallet amount fee token_type use_dust)
          (MovesNothing other wallet amount other_fee other_type other_dust)) ∧
      (use_dust = other_dust → offer.SameSpends other_offer →
        serializeUnshieldedOffer offer = serializeUnshieldedOffer other_offer) := by
  obtain ⟨stages⟩ := buildUnshieldedTransfer_stages hbuilt
  obtain ⟨others⟩ := buildUnshieldedTransfer_stages hother
  refine ⟨stages.built, others.built, stages.offer, others.offer, ?_, ?_⟩
  · rw [← stages.typeFields_eq_nil, ← others.typeFields_eq_nil]
    constructor
    · intro h
      obtain ⟨⟨token, hown, hforeign⟩, hbytes⟩ := h
      by_cases hnil : stages.built.typeFields = []
      · left
        refine ⟨hnil, ?_⟩
        intro hnil'
        -- two empty offers are the same
        rw [stages.built_of_nil hnil, others.built_of_nil hnil'] at hbytes
        exact hbytes ⟨rfl, rfl⟩ ⟨[0, 0, 0], by decide, by decide⟩
      · right
        refine ⟨?_, hnil⟩
        by_contra hnil'
        obtain ⟨type_, htype⟩ := List.exists_mem_of_ne_nil _ hnil
        obtain ⟨type_', htype'⟩ := List.exists_mem_of_ne_nil _ hnil'
        have hone := hown type_ htype
        have hsecond := hforeign type_' htype'
        rw [stages.typeFields_zero type_ htype] at hone
        rw [others.typeFields_zero type_' htype'] at hsecond
        exact hdistinct (hone.symm.trans hsecond)
    · intro h
      have hdiffer : ¬ stages.built.SameSpends others.built := by
        intro hsame
        rcases h with ⟨hnil, hsome⟩ | ⟨hnil, hsome⟩
        · exact hsome (hsame.typeFields_eq_nil.mp hnil)
        · exact hsome (hsame.typeFields_eq_nil.mpr hnil)
      refine ⟨?_, fun hsame => absurd hsame hdiffer⟩
      rcases h with ⟨hnil, -⟩ | ⟨hnil, -⟩
      · exact ⟨fun _ => effectiveToken other_type other_dust, by simp [hnil], by simp⟩
      · exact ⟨fun _ => effectiveToken token_type use_dust, by simp, by simp [hnil]⟩
  · intro hdust hsame
    subst hdust
    rw [stages.built_of_same others hsame]

end Build

/-- A client whose indexer knows the given records. -/
def holding (utxos : List UtxoRecord) : NoxipherClient := ⟨⟨"preprod", .preprod, 10000⟩, ⟨fun _ => .ok utxos⟩⟩

/-- A record of 20000 of a token type. -/
def tokenRecord (token_type : Bytes) (output_no : Int) : UtxoRecord :=
  { value := some (.int 20000), token_type := some (.str (hexOf token_type)), outputNo := some (.int output_no) }

/-- It pays 5000 and the fee, and the rest returns. -/
theorem tokenRecord_transfer {utxos : List UtxoRecord} {to_address : String} {recipient_bytes token_type : Bytes}
    {use_dust : Bool} {output_no : Int} (hrec : decodeRecipient to_address = .ok recipient_bytes)
    (hlisted : spendable (holding utxos) sampleWallet token_type use_dust =
      .ok [tokenRecord (effectiveToken token_type use_dust) output_no]) :
    ∃ tx, buildUnshieldedTransfer (holding utxos) (List.replicate 32 9) sampleWallet to_address 5000 none 1800 token_type
        use_dust = .ok tx ∧
      tx.guaranteedOffer = some ⟨
        some [⟨20000, ownerKey sampleWallet use_dust, 0, List.replicate 32 0, output_no⟩],
        some [⟨5000, recipient_bytes, 0⟩, ⟨5000, ownerKey sampleWallet use_dust, 0⟩], some []⟩ := by
  have hspend : utxoSpend (ownerKey sampleWallet use_dust) (tokenRecord (effectiveToken token_type use_dust) output_no) =
      .ok ⟨20000, ownerKey sampleWallet use_dust, 0, List.replicate 32 0, output_no⟩ := by
    have hhash : fromhex (tokenRecord (effectiveToken token_type use_dust) output_no).hashText =
        .ok (List.replicate 32 0) := fromhex_hexOf _
    have hnumber : (tokenRecord (effectiveToken token_type use_dust) output_no).outputNumber = .int output_no := by
      by_cases hno : output_no = 0 <;> simp [UtxoRecord.outputNumber, tokenRecord, orElse, IntLike.truthy, hno]
    rw [utxoSpend, hhash, hnumber]
    rfl
  have hcover : (5000 : Int)+(none : Option Int).getD (holding utxos).config.min_fee ≤ 20000 := by
    show (15000 : Int) ≤ 20000
    decide
  exact buildUnshieldedTransfer_single hrec hlisted hspend hcover

/-- NIGHT and DUST of one wallet are moved with the same type fields. -/
theorem token_in_bytes_sample :
    let client := holding [tokenRecord RawTokenType.NATIVE_NIGHT 0, tokenRecord RawTokenType.DUST 1]
    ∃ to_address tx other_tx offer other_offer,
      buildUnshieldedTransfer client (List.replicate 32 9) sampleWallet to_address 5000 none 1800
        RawTokenType.NATIVE_NIGHT false = .ok tx ∧
      buildUnshieldedTransfer client (List.replicate 32 9) sampleWallet to_address 5000 none 1800
        RawTokenType.NATIVE_NIGHT true = .ok other_tx ∧
      tx.guaranteedOffer = some offer ∧ other_tx.guaranteedOffer = some other_offer ∧
      ¬ TokenInBytes offer other_offer RawTokenType.NATIVE_NIGHT RawTokenType.DUST := by
  intro client
  obtain ⟨to_address, hrec⟩ := exists_recipient (List.replicate 32 7)
  have hnight : spendable client sampleWallet RawTokenType.NATIVE_NIGHT false =
      .ok [tokenRecord RawTokenType.NATIVE_NIGHT 0] := by decide +kernel
  have hdust : spendable client sampleWallet RawTokenType.NATIVE_NIGHT true =
      .ok [tokenRecord RawTokenType.DUST 1] := by decide +kernel
  obtain ⟨tx, hbuilt, -⟩ := tokenRecord_transfer hrec hnight
  obtain ⟨other_tx, hother, -⟩ := tokenRecord_transfer hrec hdust
  obtain ⟨offer, other_offer, hoffer, hother_offer, hiff, -⟩ := token_in_bytes_iff (by decide) hbuilt hother
  refine ⟨to_address, tx, other_tx, offer, other_offer, hbuilt, hother, hoffer, hother_offer, ?_⟩
  intro htold
  -- both move 5000
  rcases hiff.mp htold with ⟨⟨-, hnothing, -⟩, -⟩ | ⟨⟨-, hnothing, -⟩, -⟩
  · exact absurd hnothing (by decide)
  · exact absurd hnothing (by decide)

/-- Two custom tokens of one wallet, moved with the same type fields; where the second stands at the outpoint of the
first, the bytes are the same, too. -/
theorem token_not_in_bytes :
    let first : Bytes := List.replicate 32 1
    let second : Bytes := List.replicate 32 2
    let client := holding [tokenRecord first 0, tokenRecord second 1]
    let later := holding [tokenRecord second 0]
    ∃ to_address tx other_tx later_tx offer other_offer bytes,
      buildUnshieldedTransfer client (List.replicate 32 9) sampleWallet to_address 5000 none 1800 first false = .ok tx ∧
      buildUnshieldedTransfer client (List.replicate 32 9) sampleWallet to_address 5000 none 1800 second false =
        .ok other_tx ∧
      buildUnshieldedTransfer later (List.replicate 32 9) sampleWallet to_address 5000 none 1800 second false =
        .ok later_tx ∧
      tx.guaranteedOffer = some offer ∧ other_tx.guaranteedOffer = some other_offer ∧
      later_tx.guaranteedOffer = some offer ∧
      offer.typeFields = [0, 0, 0] ∧ other_offer.typeFields = [0, 0, 0] ∧ serializeUnshieldedOffer offer = .ok bytes ∧
      ¬ TokenInBytes offer other_offer first second ∧ ¬ TokenInBytes offer offer first second := by
  intro first second client later
  obtain ⟨to_address, hrec⟩ := exists_recipient (List.replicate 32 7)
  have hfirst : spendable client sampleWallet first false = .ok [tokenRecord first 0] := by decide +kernel
  have hsecond : spendable client sampleWallet second false = .ok [tokenRecord second 1] := by decide +kernel
  have hlater : spendable later sampleWallet second false = .ok [tokenRecord second 0] := by decide +kernel
  obtain ⟨tx, hbuilt, hoffer⟩ := tokenRecord_transfer hrec hfirst
  obtain ⟨other_tx, hother, hother_offer⟩ := tokenRecord_transfer hrec hsecond
  obtain ⟨later_tx, hbuilt_later, hlater_offer⟩ := tokenRecord_transfer hrec hlater
  have huntold (offer other : UnshieldedOffer) (h : 0 ∈ offer.typeFields) (hother : 0 ∈ other.typeFields) :
      ¬ TokenInBytes offer other first second := by
    intro htold
    obtain ⟨⟨token, hown, hforeign⟩, -⟩ := htold
    have hsame : first = second := (hown 0 h).symm.trans (hforeign 0 hother)
    revert hsame
    decide
  exact ⟨to_address, tx, other_tx, later_tx, _, _, _, hbuilt, hother, hbuilt_later, hoffer, hother_offer, hlater_offer,
    rfl, rfl, rfl, huntold _ _ (by decide) (by decide), huntold _ _ (by decide) (by decide)⟩

end TransactionBuilder

end Noxipher
