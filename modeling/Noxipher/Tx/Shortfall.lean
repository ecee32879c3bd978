import Noxipher.Tx.Recipients
import Noxipher.Tx.Selection
import Noxipher.Zswap.StoreRuns

namespace Noxipher

open Greedy

/-- A transaction error is an error of the library. -/
theorem PyError.isTransactionError_eq_false {e : PyError} (h : e.isNoxipherError = false) :
    e.isTransactionError = false := by
  cases e <;> first | rfl | cases h

/-- Errors of Python's own, raised on text that is no number or no hex and on missing keys. -/
theorem intOfStr_error {s : String} {e : PyError} (h : intOfStr s = .error e) : e.isTransactionError = false := by
  unfold intOfStr at h
  dsimp only at h
  split at h
  · cases h
    rfl
  · split_ifs at h
    cases h
    rfl

theorem IntLike.toInt_error {n : IntLike} {e : PyError} (h : n.toInt = .error e) : e.isTransactionError = false := by
  cases n with
  | int n => cases h
  | str s => exact intOfStr_error h

theorem fromhex_error {s : String} {e : PyError} (h : fromhex s = .error e) : e.isTransactionError = false := by
  unfold fromhex at h
  split at h
  · cases h
  · cases h
    rfl

theorem UtxoRecord.tokenHex_error {utxo : UtxoRecord} {e : PyError} (h : utxo.tokenHex = .error e) :
    e.isTransactionError = false := by
  unfold UtxoRecord.tokenHex at h
  cases hraw : utxo.rawToken with
  | null =>
    rw [hraw] at h
    cases h
    rfl
  | str s =>
    rw [hraw] at h
    cases h
  | obj fields =>
    rw [hraw] at h
    simp only [ok_bind] at h
    cases hhex : fields.getD "hex" (some zeroHex) with
    | some s =>
      rw [hhex] at h
      cases h
    | none =>
      rw [hhex] at h
      cases h
      rfl

namespace TransactionBuilder

theorem eligibleUtxos_error {token_type : Bytes} {utxos : List UtxoRecord} {e : PyError}
    (h : eligibleUtxos token_type utxos = .error e) : ∃ utxo ∈ utxos, utxo.tokenHex = .error e := by
  induction utxos with
  | nil => cases h
  | cons utxo utxos ih =>
    rcases bind_error_iff.mp h with h | ⟨u_token_hex, -, h⟩
    · exact ⟨utxo, by simp, h⟩
    · rcases bind_error_iff.mp h with h | ⟨rest, -, h⟩
      · obtain ⟨found, hmem, hfound⟩ := ih h
        exact ⟨found, by simp [hmem], hfound⟩
      · cases h

theorem exactMatch_error {required : Int} {utxos : List UtxoRecord} {e : PyError}
    (h : exactMatch required utxos = .error e) : ∃ utxo ∈ utxos, utxo.intValue = .error e := by
  induction utxos with
  | nil => cases h
  | cons utxo utxos ih =>
    rcases bind_error_iff.mp h with h | ⟨value, -, h⟩
    · exact ⟨utxo, by simp, h⟩
    · split_ifs at h
      · cases h
      · obtain ⟨found, hmem, hfound⟩ := ih h
        exact ⟨found, by simp [hmem], hfound⟩

/-- A selection stops only at a value that is no number. -/
theorem selectUtxos_error {required : Int} {eligible : List UtxoRecord} {e : PyError}
    (h : selectUtxos required eligible = .error e) : ∃ utxo ∈ eligible, utxo.intValue = .error e := by
  rcases bind_error_iff.mp h with h | ⟨found, -, h⟩
  · exact exactMatch_error h
  · cases found with
    | some utxo => cases h
    | none =>
      rcases bind_error_iff.mp h with h | ⟨keyed, -, h⟩
      · obtain ⟨utxo, hmem, hutxo⟩ := traverse_error h
        rcases bind_error_iff.mp hutxo with hutxo | ⟨value, -, hutxo⟩
        · exact ⟨utxo, hmem, hutxo⟩
        · cases hutxo
      · cases h

theorem utxoSpend_error {owner_pk : Bytes} {utxo : UtxoRecord} {e : PyError}
    (h : utxoSpend owner_pk utxo = .error e) : e.isTransactionError = false := by
  rcases bind_error_iff.mp h with h | ⟨value, -, h⟩
  · cases hvalue : utxo.value with
    | some value =>
      rw [hvalue] at h
      cases h
    | none =>
      rw [hvalue] at h
      cases h
      rfl
  · rcases bind_error_iff.mp h with h | ⟨n, -, h⟩
    · exact IntLike.toInt_error h
    · rcases bind_error_iff.mp h with h | ⟨intent_hash, -, h⟩
      · exact fromhex_error h
      · rcases bind_error_iff.mp h with h | ⟨output_no, -, h⟩
        · exact IntLike.toInt_error h
        · cases h

/-- The error of a selection that does not cover is the only one of its kind. -/
theorem settleTransfer_error {network_id : String} {rnd owner_pk recipient_bytes : Bytes}
    {amount real_fee ttl current_total : Int} {selected : List UtxoRecord} {e : PyError}
    (h : settleTransfer network_id rnd owner_pk recipient_bytes amount real_fee ttl selected current_total = .error e)
    (hkind : e.isTransactionError = true) : current_total < amount+real_fee := by
  by_contra hcover
  rw [settleTransfer, if_neg hcover] at h
  rcases bind_error_iff.mp h with h | ⟨inputs, -, h⟩
  · obtain ⟨utxo, -, hutxo⟩ := traverse_error h
    rw [utxoSpend_error hutxo] at hkind
    cases hkind
  · cases h

section Build

variable {client : NoxipherClient} {rnd : Bytes} {wallet : MidnightWallet} {to_address : String} {amount : Int}
  {fee : Option Int} {ttl : Int} {token_type : Bytes} {use_dust : Bool} {utxos : List UtxoRecord}

/-- The eligible records are readable, and no choice of them covers what is required. -/
def FallsShort (token_type : Bytes) (required : Int) (utxos : List UtxoRecord) : Prop :=
  ∃ eligible, eligibleUtxos token_type utxos = .ok eligible ∧ (∀ utxo ∈ eligible, ∃ n, utxo.intValue = .ok n) ∧
    Unreachable UtxoRecord.amount required eligible

/-- The unshielded builder raises its error for an address that does not decode, and when the records fall short of
amount and fee; the signs of the two are never looked at. -/
theorem buildUnshieldedTransfer_raises_iff (hfetch : fetchUtxos client wallet use_dust = .ok utxos) :
    (∃ e, buildUnshieldedTransfer client rnd wallet to_address amount fee ttl token_type use_dust = .error e ∧
      e.isTransactionError = true) ↔
    Undecodable to_address ∨
      FallsShort (effectiveToken token_type use_dust) (amount+fee.getD client.config.min_fee) utxos := by
  cases hdecode : decodeAddress to_address with
  | error e =>
    refine iff_of_true ⟨.transactionError ("Invalid recipient address: "++e.str), ?_, rfl⟩ (Or.inl ⟨e, hdecode⟩)
    rw [buildUnshieldedTransfer, decodeRecipient, hdecode]
    rfl
  | ok decoded =>
    have hrec : decodeRecipient to_address = .ok decoded.2.2 := by rw [decodeRecipient, hdecode]
    constructor
    · intro hraised
      obtain ⟨e, he, hkind⟩ := hraised
      right
      rw [buildUnshieldedTransfer, hrec, ok_bind, hfetch, ok_bind] at he
      rcases bind_error_iff.mp he with he | ⟨eligible, heligible, he⟩
      · obtain ⟨utxo, -, hutxo⟩ := eligibleUtxos_error he
        rw [UtxoRecord.tokenHex_error hutxo] at hkind
        cases hkind
      · rcases bind_error_iff.mp he with he | ⟨picked, hpicked, he⟩
        · obtain ⟨utxo, -, hutxo⟩ := selectUtxos_error he
          rw [IntLike.toInt_error hutxo] at hkind
          cases hkind
        · obtain ⟨-, htotal, -⟩ := selectUtxos_part hpicked
          obtain ⟨selected, current_total⟩ := picked
          have htotal : current_total = total UtxoRecord.amount selected := htotal
          subst htotal
          have hshort := settleTransfer_error he hkind
          have hnone := (selectUtxos_short_iff hpicked).mp hshort
          refine ⟨eligible, heligible, ?_, hnone⟩
          rcases selectUtxos_cases hpicked with ⟨utxo, -, hvalue, hsame⟩ | ⟨hread, -⟩
          · rw [(Prod.mk.inj hsame).1, total_cons, total_nil, hvalue] at hshort
            omega
          · intro utxo hu
            exact ⟨_, hread utxo hu⟩
    · intro hcause
      obtain ⟨eligible, heligible, hread, hnone⟩ := hcause.resolve_left (decodable hdecode)
      obtain ⟨selected, hselect⟩ := selectUtxos_returns hread (amount+fee.getD client.config.min_fee)
      have hshort := (selectUtxos_short_iff hselect).mpr hnone
      simp only [buildUnshieldedTransfer, hrec, ok_bind, hfetch, heligible, hselect, settleTransfer, if_pos hshort]
      exact ⟨_, rfl, rfl⟩

/-- The shielded builder raises its error when the coins fall short of the amount, and at no other point. -/
theorem buildShieldedTransfer_raises_iff (transientHash : List Fr → Fr) (out_nonce change_nonce : Bytes) :
    (∃ e, buildShieldedTransfer transientHash wallet to_address amount token_type out_nonce change_nonce = .error e ∧
      e.isTransactionError = true) ↔
    Unreachable ShieldedCoinNote.value amount
      (wallet.shielded_state.unspent_coins.filter (fun c => c.token_type = token_type)) := by
  rw [← largestFirst_short_iff]
  constructor
  · intro hraised
    obtain ⟨e, he, hkind⟩ := hraised
    by_contra hcover
    have hcover : amount ≤ (selectCoins wallet.shielded_state.unspent_coins token_type amount).2 := not_lt.mp hcover
    obtain ⟨finish, hbuild⟩ := buildShieldedTransfer_covered transientHash to_address out_nonce change_nonce hcover
    rw [hbuild] at he
    rcases bind_error_iff.mp he with he | ⟨spends, -, he⟩
    · obtain ⟨coin, -, hcoin⟩ := traverse_error he
      have hcannot : ¬ wallet.CanProve coin := by
        intro hcan
        obtain ⟨circuit, hok⟩ := spendCircuit_ok transientHash hcan
        rw [hok] at hcoin
        cases hcoin
      obtain ⟨e', he', hforeign⟩ := spendCircuit_error transientHash hcannot
      rw [hcoin] at he'
      rw [Except.error.inj he', PyError.isTransactionError_eq_false hforeign] at hkind
      cases hkind
    · rcases bind_error_iff.mp he with he | ⟨decoded, -, he⟩
      · obtain ⟨msg, rfl⟩ := decodeAddress_error he
        cases hkind
      · cases he
  · intro hshort
    exact ⟨_, if_pos hshort, rfl⟩

/-- Neither builder looks at a sign: for every amount and fee, negative or not, the error is raised exactly when no
choice of records or coins covers what is asked for, or, unshielded, when the address does not decode. -/
theorem transfers_raise_iff (hfetch : fetchUtxos client wallet use_dust = .ok utxos) (transientHash : List Fr → Fr)
    (out_nonce change_nonce : Bytes) :
    ((∃ e, buildUnshieldedTransfer client rnd wallet to_address amount fee ttl token_type use_dust = .error e ∧
      e.isTransactionError = true) ↔
      Undecodable to_address ∨
        FallsShort (effectiveToken token_type use_dust) (amount+fee.getD client.config.min_fee) utxos) ∧
    ((∃ e, buildShieldedTransfer transientHash wallet to_address amount token_type out_nonce change_nonce = .error e ∧
      e.isTransactionError = true) ↔
      Unreachable ShieldedCoinNote.value amount
        (wallet.shielded_state.unspent_coins.filter (fun c => c.token_type = token_type))) :=
  ⟨buildUnshieldedTransfer_raises_iff hfetch, buildShieldedTransfer_raises_iff transientHash out_nonce change_nonce⟩

end Build

/-- A transfer of -500 is refused where the records do not cover the fee, and the shielded one is not. -/
theorem transfers_raise_sample :
    ∃ to_address, ¬ Undecodable to_address ∧
      (∃ e, buildUnshieldedTransfer sampleClient [] sampleWallet to_address (-500) (some 100000) 1800
        RawTokenType.NATIVE_NIGHT false = .error e ∧ e.isTransactionError = true) ∧
      ¬ ∃ e, buildShieldedTransfer digitHash sampleWallet to_address (-500) RawTokenType.NATIVE_NIGHT [] [] = .error e ∧
        e.isTransactionError = true := by
  obtain ⟨to_address, -, hdecode⟩ := encodeAddress_decodes (List.replicate 32 7) .unshielded .preprod (by decide)
  have hfetch : fetchUtxos sampleClient sampleWallet false = .ok sampleUtxos := rfl
  have hread : ∀ utxo ∈ sampleUtxos, ∃ n, utxo.intValue = .ok n := by
    intro utxo hu
    exact ⟨_, (sampleUtxos_wellFormed utxo hu).intValue⟩
  have hshort : FallsShort (effectiveToken RawTokenType.NATIVE_NIGHT false)
      (-500+(some 100000).getD sampleClient.config.min_fee) sampleUtxos :=
    ⟨sampleUtxos, by decide, hread, (largestFirst_short_iff UtxoRecord.amount).mp (by decide +kernel)⟩
  obtain ⟨hunshielded, hshielded⟩ := transfers_raise_iff hfetch digitHash [] []
  refine ⟨to_address, decodable hdecode, hunshielded.mpr (Or.inr hshort), hshielded.not.mpr ?_⟩
  intro hnone
  exact absurd (hnone.1 rfl) (by decide)

/-- A transfer of -500 gives 5400 of change for an input of 5000; a shielded transfer of -5 without coins has an output
of -5 and one of 5. -/
theorem negative_amounts_built :
    ∃ to_address shielded_address tx shielded_tx spend change recipient own,
      buildUnshieldedTransfer sampleClient [] sampleWallet to_address (-500) (some 100) 1800 RawTokenType.NATIVE_NIGHT
        false = .ok tx ∧
      tx.guaranteedOffer = some ⟨some [spend], some [change], some []⟩ ∧ spend.value = 5000 ∧ change.value = 5400 ∧
      buildShieldedTransfer digitHash sampleWallet shielded_address (-5) RawTokenType.NATIVE_NIGHT [1] [2] =
        .ok shielded_tx ∧
      shielded_tx.circuits = some [recipient, own] ∧
      recipient.private_inputs = some (.output (-5) shielded_address (hexOf [1])) ∧
      own.private_inputs = some (.output 5 sampleWallet.shielded.address (hexOf [2])) := by
  obtain ⟨to_address, -, hdecode⟩ := encodeAddress_decodes (List.replicate 32 7) .unshielded .preprod (by decide)
  obtain ⟨shielded_address, -, hshielded⟩ := encodeAddress_decodes (List.replicate 64 7) .shielded .preprod (by decide)
  have hfetch : fetchUtxos sampleClient sampleWallet false = .ok sampleUtxos := rfl
  have heligible : eligibleUtxos (effectiveToken RawTokenType.NATIVE_NIGHT false) sampleUtxos = .ok sampleUtxos := by
    decide
  have hselect : selectUtxos (-500+(some 100).getD sampleClient.config.min_fee) sampleUtxos = .ok
      ([{ value := some (.str "5000"), tokenType := some (.str zeroHex), outputNo := some (.str "1") }], 5000) := by
    decide +kernel
  have hbuild : ∃ tx, buildUnshieldedTransfer sampleClient [] sampleWallet to_address (-500) (some 100) 1800
      RawTokenType.NATIVE_NIGHT false = .ok tx ∧
      tx.guaranteedOffer = some ⟨some [⟨5000, sampleWallet.unshielded.publicKey, 0, List.replicate 32 0, 1⟩],
        some [⟨5400, sampleWallet.unshielded.publicKey, 0⟩], some []⟩ := by
    rw [buildUnshieldedTransfer, decodeRecipient, hdecode]
    simp only [ok_bind, hfetch, heligible, hselect]
    exact ⟨_, rfl, rfl⟩
  obtain ⟨tx, htx, hoffer⟩ := hbuild
  have hpicked : selectCoins sampleWallet.shielded_state.unspent_coins RawTokenType.NATIVE_NIGHT (-5) = ([], 0) := rfl
  have hbuild_shielded : ∃ tx recipient own, buildShieldedTransfer digitHash sampleWallet shielded_address (-5)
      RawTokenType.NATIVE_NIGHT [1] [2] = .ok tx ∧ tx.circuits = some [recipient, own] ∧
      recipient.private_inputs = some (.output (-5) shielded_address (hexOf [1])) ∧
      own.private_inputs = some (.output 5 sampleWallet.shielded.address (hexOf [2])) := by
    rw [buildShieldedTransfer, hpicked]
    simp only [traverse, ok_bind, hshielded]
    exact ⟨_, _, _, rfl, rfl, rfl, rfl⟩
  obtain ⟨shielded_tx, recipient, own, hshielded_tx, hcircuits, hrecipient, hown⟩ := hbuild_shielded
  exact ⟨to_address, shielded_address, tx, shielded_tx, _, _, recipient, own, htx, hoffer, rfl, rfl, hshielded_tx,
    hcircuits, hrecipient, hown⟩

end TransactionBuilder

end Noxipher
