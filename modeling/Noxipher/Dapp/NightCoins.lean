import Noxipher.Dapp.Balancing
import Noxipher.Tx.Selection
import Noxipher.Wallet.Balance

namespace Noxipher

open Greedy TransactionBuilder

theorem toLower_eq_zero {c : Char} (h : c.toLower = '0') : c = '0' := by
  unfold Char.toLower at h
  split_ifs at h with hupper
  · exfalso
    have hval := congrArg (fun d : Char => d.val.toNat) h
    obtain ⟨hlow, hhigh⟩ := hupper
    rw [ge_iff_le, UInt32.le_iff_toNat_le] at hlow
    rw [UInt32.le_iff_toNat_le] at hhigh
    simp [UInt32.toNat_add] at hval hlow hhigh
    omega
  · exact h

/-- No text but the zeros themselves is lowered to them. -/
theorem lower_eq_zeros {cs : List Char} : lower cs = zeroHex.toList ↔ cs = zeroHex.toList := by
  have hzeros : zeroHex.toList = List.replicate 64 '0' := by decide +kernel
  constructor
  · intro h
    rw [hzeros, lower, List.eq_replicate_iff, List.length_map] at h
    rw [hzeros, List.eq_replicate_iff]
    refine ⟨h.1, ?_⟩
    intro c hc
    exact toLower_eq_zero (h.2 _ (List.mem_map_of_mem hc))
  · intro h
    rw [h]
    exact lower_hexOf _

namespace UtxoRecord

/-- The builder lowers the text the connector compares, without its "0x". -/
theorem tokenHex_eq (utxo : UtxoRecord) :
    utxo.tokenHex = match utxo.listedToken with
      | some s => .ok (lower (removeHexPrefix s.toList))
      | none => .error (.attributeError "'NoneType' object has no attribute 'replace'") := by
  unfold tokenHex listedToken
  cases utxo.rawToken <;> rfl

theorem tokenHex_returns_iff (utxo : UtxoRecord) : (∃ t, utxo.tokenHex = .ok t) ↔ utxo.listedToken.isSome := by
  rw [tokenHex_eq]
  cases utxo.listedToken <;> simp

/-- The text carries an "0x" and is that of NIGHT without it. -/
def Marked (utxo : UtxoRecord) : Prop :=
  ∃ s ∈ utxo.listedToken, ['0', 'x'] <:+: s.toList ∧ removeHexPrefix s.toList = zeroHex.toList

instance (utxo : UtxoRecord) : Decidable utxo.Marked :=
  inferInstanceAs (Decidable (∃ s ∈ utxo.listedToken,
    ['0', 'x'] <:+: s.toList ∧ removeHexPrefix s.toList = zeroHex.toList))

theorem not_marked_of_listed {utxo : UtxoRecord} (h : utxo.listedToken = some zeroHex) : ¬ utxo.Marked := by
  intro hmarked
  obtain ⟨s, hs, hmark, -⟩ := hmarked
  rw [h] at hs
  cases hs
  exact x_not_mem_hexOf _ (hmark.subset (by simp))

/-- The builder takes a record for NIGHT when the connector does, and when it is marked. -/
theorem isToken_night (utxo : UtxoRecord) :
    utxo.isToken RawTokenType.NATIVE_NIGHT = true ↔ utxo.listedToken = some zeroHex ∨ utxo.Marked := by
  have hnight : lower (hexOf RawTokenType.NATIVE_NIGHT).toList = zeroHex.toList := lower_hexOf _
  unfold isToken
  rw [tokenHex_eq, hnight]
  cases hlisted : utxo.listedToken with
  | none => simp [Marked, hlisted]
  | some s =>
    simp only [decide_eq_true_eq, lower_eq_zeros, Marked, hlisted, Option.some.injEq, Option.mem_def, exists_eq_left']
    constructor
    · intro h
      by_cases hmark : ['0', 'x'] <:+: s.toList
      · exact Or.inr ⟨hmark, h⟩
      · rw [removeHexPrefix_of_absent hmark] at h
        exact Or.inl (String.toList_inj.mp h)
    · intro h
      rcases h with rfl | ⟨-, h⟩
      · exact removeHexPrefix_eq_self _ (x_not_mem_hexOf _)
      · exact h

end UtxoRecord

namespace TransactionBuilder

section Build

variable {client : NoxipherClient} {rnd : Bytes} {wallet : MidnightWallet} {to_address : String} {amount : Int}
  {fee : Option Int} {ttl : Int} {token_type : Bytes} {use_dust : Bool} {utxos : List UtxoRecord}

/-- The builder pays when it can read every token type and the eligible records cover. -/
theorem buildUnshieldedTransfer_ok_iff {recipient_bytes : Bytes}
    (hrec : decodeRecipient to_address = .ok recipient_bytes) (hfetch : fetchUtxos client wallet use_dust = .ok utxos)
    (hdec : ∀ utxo ∈ utxos, utxo.isToken (effectiveToken token_type use_dust) = true → utxo.Decodes) :
    (∃ tx, buildUnshieldedTransfer client rnd wallet to_address amount fee ttl token_type use_dust = .ok tx) ↔
      (∀ utxo ∈ utxos, utxo.listedToken.isSome) ∧ amount+fee.getD client.config.min_fee ≤
        total UtxoRecord.amount (utxos.filter (UtxoRecord.isToken (effectiveToken token_type use_dust))) := by
  have hkept : ∀ utxo ∈ utxos.filter (UtxoRecord.isToken (effectiveToken token_type use_dust)), utxo.Decodes := by
    intro utxo hu
    obtain ⟨hmem, htoken⟩ := List.mem_filter.mp hu
    exact hdec utxo hmem htoken
  simp only [← UtxoRecord.tokenHex_returns_iff]
  constructor
  · intro h
    obtain ⟨tx, hbuilt⟩ := h
    obtain ⟨stages⟩ := buildUnshieldedTransfer_stages hbuilt
    have hlisted := stages.listed
    rw [spendable, hfetch, ok_bind] at hlisted
    have hread := eligibleUtxos_returns_iff.mp ⟨_, hlisted⟩
    rw [eligibleUtxos_eq _ _ hread] at hlisted
    have hsub : stages.selected.Subperm stages.eligible := (selectUtxos_part stages.picked).1
    rw [← Except.ok.inj hlisted] at hsub
    have hall := total_le_of_subperm UtxoRecord.amount hsub (fun utxo hu => (hkept utxo hu).amount_nonneg)
    have hcover := stages.covered
    exact ⟨hread, by omega⟩
  · intro h
    obtain ⟨hread, hcover⟩ := h
    obtain ⟨selected, rest, hselect, hperm, hreach⟩ := selectUtxos_spec (amount+fee.getD client.config.min_fee)
      (utxos.filter (UtxoRecord.isToken (effectiveToken token_type use_dust))) (fun utxo hu => (hkept utxo hu).intValue)
    have hreached : amount+fee.getD client.config.min_fee ≤ total UtxoRecord.amount selected := by
      rcases hreach with rfl | hreach
      · rw [List.append_nil] at hperm
        rwa [total_perm UtxoRecord.amount hperm]
      · exact hreach
    obtain ⟨inputs, hinputs, -⟩ := utxoSpends_ok (ownerKey wallet use_dust) selected
      (fun utxo hu => hkept utxo (hperm.subset (List.mem_append_left rest hu)))
    have hsettled : ∃ tx, settleTransfer client.config.name rnd (ownerKey wallet use_dust) recipient_bytes amount
        (fee.getD client.config.min_fee) ttl selected (total UtxoRecord.amount selected) = .ok tx := by
      rw [settleTransfer, if_neg (not_lt.mpr hreached), hinputs, ok_bind]
      exact ⟨_, rfl⟩
    obtain ⟨tx, htx⟩ := hsettled
    refine ⟨tx, ?_⟩
    rw [buildUnshieldedTransfer, hrec, ok_bind, hfetch, ok_bind, eligibleUtxos_eq _ _ hread, ok_bind]
    simp only [hselect, ok_bind]
    exact htx

end Build

end TransactionBuilder

namespace DAppConnector

/-- The marked records are not needed: the inputs and the unused records that are zeros as they stand cover, or all
records of NIGHT together do not, or a token type cannot be read. -/
def MarkedUnneeded (required : Int) (inputs : List UtxoSpend) (utxos : List UtxoRecord) : Prop :=
  let plain := total UtxoRecord.amount (utxos.filter (fun utxo => utxo.listedToken = some zeroHex))
  let marked := total UtxoRecord.amount (utxos.filter (fun utxo => utxo.Marked))
  (∃ utxo ∈ utxos, utxo.listedToken = none) ∨
    required ≤ total UtxoSpend.value inputs+total UtxoRecord.amount (utxos.filter (isEligible inputs)) ∨
    plain+marked < required

theorem isEligible_nil : isEligible [] = fun utxo => decide (utxo.listedToken = some zeroHex) := by
  funext utxo
  simp [isEligible, usedOutpoints]

/-- Without marked records an offer of outputs alone needs none. -/
theorem markedUnneeded_of_none {required : Int} {utxos : List UtxoRecord} (h : ∀ utxo ∈ utxos, ¬ utxo.Marked) :
    MarkedUnneeded required [] utxos := by
  have hnone : utxos.filter (fun utxo => utxo.Marked) = [] := by
    apply List.filter_eq_nil_iff.mpr
    intro utxo hu
    simpa using h utxo hu
  unfold MarkedUnneeded
  simp only [hnone, isEligible_nil, total_nil, zero_add, add_zero]
  exact Or.inr (le_or_gt _ _)

theorem total_night (utxos : List UtxoRecord) :
    total UtxoRecord.amount (utxos.filter (UtxoRecord.isToken (effectiveToken RawTokenType.NATIVE_NIGHT false))) =
      total UtxoRecord.amount (utxos.filter (fun utxo => utxo.listedToken = some zeroHex))+
        total UtxoRecord.amount (utxos.filter (fun utxo => utxo.Marked)) := by
  rw [← total_filter_or]
  · congr 1
    apply List.filter_congr
    intro utxo _
    rw [Bool.eq_iff_iff, Bool.or_eq_true, decide_eq_true_iff, decide_eq_true_iff]
    exact UtxoRecord.isToken_night utxo
  · intro utxo _ hplain
    exact decide_eq_false (UtxoRecord.not_marked_of_listed (of_decide_eq_true hplain))

/-- Connector and builder take the same records for NIGHT but for the marked ones, so that the connector balances
what the builder pays exactly when these are not needed. -/
theorem night_coins_alike_iff (client : NoxipherClient) (wallet : MidnightWallet) (ttl_seconds : Int)
    (unbound_tx : UnboundTx) (rnd : Bytes) (to_address : String) {recipient_bytes : Bytes} (fee : Option Int) (ttl : Int)
    {utxos : List UtxoRecord} (hlists : HasLists unbound_tx.standard)
    (hrec : decodeRecipient to_address = .ok recipient_bytes)
    (hfee : fee.getD client.config.min_fee = client.config.min_fee)
    (hfetch : wallet.unshielded.getUtxos client.indexer = .ok utxos)
    (hdec : ∀ utxo ∈ utxos, utxo.isToken RawTokenType.NATIVE_NIGHT = true → utxo.Decodes) :
    let outputs_val := total UtxoOutput.value unbound_tx.standard.zeroOutputs
    (∀ utxo, (isEligible [] utxo = true ↔ eligibleUtxos RawTokenType.NATIVE_NIGHT [utxo] = .ok [utxo]) ↔
      ¬ utxo.Marked) ∧
    (((∃ tx, buildUnshieldedTransfer client rnd wallet to_address outputs_val fee ttl RawTokenType.NATIVE_NIGHT
          false = .ok tx) →
        (balanceTransaction client wallet ttl_seconds unbound_tx).2 = .ok ()) ↔
      MarkedUnneeded (outputs_val+client.config.min_fee) unbound_tx.standard.zeroInputs utxos) := by
  intro outputs_val
  constructor
  · intro utxo
    rw [eligibleUtxos_singleton, UtxoRecord.isToken_night, isEligible_nil, decide_eq_true_iff]
    constructor
    · intro h hmarked
      exact UtxoRecord.not_marked_of_listed (h.mpr (Or.inr hmarked)) hmarked
    · intro h
      simp [h]
  · have hread : ∀ utxo ∈ tried unbound_tx.standard.zeroInputs utxos, utxo.Decodes := by
      intro utxo hu
      obtain ⟨hmem, heligible⟩ := of_mem_tried hu
      have hnight := (of_decide_eq_true heligible).2
      exact hdec utxo hmem ((UtxoRecord.isToken_night utxo).mpr (Or.inl hnight))
    have hpays : (∃ tx, buildUnshieldedTransfer client rnd wallet to_address outputs_val fee ttl
        RawTokenType.NATIVE_NIGHT false = .ok tx) ↔ _ := buildUnshieldedTransfer_ok_iff hrec hfetch hdec
    rw [hpays, balanceTransaction_ok_iff hlists hfetch hread, hfee, total_night, MarkedUnneeded]
    constructor
    · intro h
      by_cases hnull : ∃ utxo ∈ utxos, utxo.listedToken = none
      · exact Or.inl hnull
      · right
        have hsome : ∀ utxo ∈ utxos, utxo.listedToken.isSome := by
          intro utxo hu
          exact Option.isSome_iff_ne_none.mpr (fun hnone => hnull ⟨utxo, hu, hnone⟩)
        rcases lt_or_ge (total UtxoRecord.amount (utxos.filter (fun utxo => utxo.listedToken = some zeroHex))+
            total UtxoRecord.amount (utxos.filter (fun utxo => utxo.Marked)))
          (outputs_val+client.config.min_fee) with hshort | hcover
        · exact Or.inr hshort
        · exact Or.inl (h ⟨hsome, hcover⟩)
    · intro h hpaid
      obtain ⟨hsome, hcover⟩ := hpaid
      rcases h with ⟨utxo, hu, hnone⟩ | hplain | hshort
      · have htext := hsome utxo hu
        rw [hnone] at htext
        cases htext
      · exact hplain
      · exact absurd hcover (not_le.mpr hshort)

/-- An output of 5000 without inputs. -/
def unboundOutput : UnboundTx where
  tx_data := { standard := some { intents := some (Dict.ofList [(.str "0", {
    guaranteed_unshielded_offer := some {
      inputs := some []
      outputs := some [⟨5000, List.replicate 32 7, 0⟩] } })]) } }

theorem unboundOutput_lists : HasLists unboundOutput.standard := hasLists_of_zeroOffer rfl

/-- A record of 20000 with the given token type. -/
def nightRecord (token_type : String) : UtxoRecord :=
  { value := some (.int 20000), token_type := some (.str token_type) }

theorem nightRecord_decodes (token_type : String) : (nightRecord token_type).Decodes :=
  ⟨⟨_, 20000, rfl, rfl, by decide⟩, ⟨List.replicate 32 0, fromhex_hexOf _⟩, ⟨0, rfl⟩⟩

/-- One plain record pays on both paths. -/
theorem night_coins_sample :
    ∃ to_address, (∃ tx, buildUnshieldedTransfer (clientWith [nightRecord zeroHex]) (List.replicate 32 9) sampleWallet
        to_address 5000 none 1800 RawTokenType.NATIVE_NIGHT false = .ok tx) →
      (balanceTransaction (clientWith [nightRecord zeroHex]) sampleWallet 1800 unboundOutput).2 = .ok () := by
  obtain ⟨to_address, hrecipient⟩ := exists_recipient (List.replicate 32 7)
  have hdec : ∀ utxo ∈ [nightRecord zeroHex], utxo.isToken RawTokenType.NATIVE_NIGHT = true → utxo.Decodes := by
    intro utxo hu _
    rw [List.mem_singleton.mp hu]
    exact nightRecord_decodes zeroHex
  have hunmarked : ∀ utxo ∈ [nightRecord zeroHex], ¬ utxo.Marked := by decide +kernel
  have halike := night_coins_alike_iff (clientWith [nightRecord zeroHex]) sampleWallet 1800 unboundOutput
    (List.replicate 32 9) to_address none 1800 unboundOutput_lists hrecipient rfl rfl hdec
  exact ⟨to_address, halike.2.mpr (markedUnneeded_of_none hunmarked)⟩

/-- With an "0x" before the zeros only the builder pays. -/
theorem marked_coin_unseen :
    let utxo := nightRecord (String.ofList ('0' :: 'x' :: zeroHex.toList))
    isEligible [] utxo = false ∧ eligibleUtxos RawTokenType.NATIVE_NIGHT [utxo] = .ok [utxo] ∧
    (balanceTransaction (clientWith [utxo]) sampleWallet 1800 unboundOutput).2 =
      .error (.transactionError "Insufficient funds to balance transaction. Need 15000, have 0") ∧
    ∃ to_address tx, buildUnshieldedTransfer (clientWith [utxo]) (List.replicate 32 9) sampleWallet to_address 5000
      none 1800 RawTokenType.NATIVE_NIGHT false = .ok tx := by
  intro utxo
  have hkept : eligibleUtxos RawTokenType.NATIVE_NIGHT [utxo] = .ok [utxo] := by decide +kernel
  obtain ⟨to_address, hrecipient⟩ := exists_recipient (List.replicate 32 7)
  have hdec : ∀ r ∈ [utxo], r.isToken RawTokenType.NATIVE_NIGHT = true → r.Decodes := by
    intro r hr _
    rw [List.mem_singleton.mp hr]
    exact nightRecord_decodes _
  have hfetch : fetchUtxos (clientWith [utxo]) sampleWallet false = .ok [utxo] := rfl
  have hpays : (∃ tx, buildUnshieldedTransfer (clientWith [utxo]) (List.replicate 32 9) sampleWallet to_address 5000
      none 1800 RawTokenType.NATIVE_NIGHT false = .ok tx) ↔ _ := buildUnshieldedTransfer_ok_iff hrecipient hfetch hdec
  obtain ⟨tx, htx⟩ := hpays.mpr ⟨by decide +kernel, by decide +kernel⟩
  exact ⟨by decide +kernel, hkept, by decide +kernel, to_address, tx, htx⟩

end DAppConnector

end Noxipher
