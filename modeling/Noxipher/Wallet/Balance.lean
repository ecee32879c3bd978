import Noxipher.Library.Tally
import Noxipher.Tx.Transfer

namespace Noxipher

open Greedy TransactionBuilder

namespace UtxoRecord

/-- The record carries its token type under `token_type` in lower case and without "0x", or it is NIGHT
and carries none there. -/
def CanonicalToken (utxo : UtxoRecord) : Prop :=
  match utxo.token_type with
  | none => utxo.tokenHex = .ok zeroHex.toList
  | some .null => False
  | some (.str s) => s ≠ "" ∧ lower (removeHexPrefix s.toList) = s.toList
  | some (.obj fields) =>
    match fields.get? "hex" with
    | some (some s) => lower (removeHexPrefix s.toList) = s.toList
    | some none => False
    | none => utxo.tokenHex = .ok zeroHex.toList

/-- The text of a record names some 32-byte token. -/
def NamesToken (utxo : UtxoRecord) : Prop := ∃ t : Bytes, t.length = 32 ∧ utxo.tokenHex = .ok (hexOf t).toList

end UtxoRecord

/-- Text without "0x" is left as it is. -/
theorem removeHexPrefix_of_absent {s : List Char} (h : ¬ ['0', 'x'] <:+: s) : removeHexPrefix s = s := by
  induction s using removeHexPrefix.induct with
  | case1 r ih => exact absurd ⟨[], r, rfl⟩ h
  | case2 c r hne ih =>
    rw [removeHexPrefix, ih (fun hr => h (List.infix_cons hr))]
    exact hne
  | case3 => rfl

theorem removeHexPrefix_eq_self (s : List Char) (h : 'x' ∉ s) : removeHexPrefix s = s := by
  apply removeHexPrefix_of_absent
  intro hmark
  exact h (hmark.subset (by simp))

theorem x_not_mem_hexOf (bs : Bytes) : 'x' ∉ (hexOf bs).toList := by
  have hchar : ∀ n < 16, hexChar n ≠ 'x' := by decide
  intro hm
  obtain ⟨n, hn, he⟩ := mem_hexOf hm
  exact hchar n hn he.symm

theorem lower_hexOf (bs : Bytes) : lower (hexOf bs).toList = (hexOf bs).toList := by
  have hchar : ∀ n < 16, (hexChar n).toLower = hexChar n := by decide
  rw [lower]
  conv_rhs => rw [← List.map_id (hexOf bs).toList]
  apply List.map_congr_left
  intro c hc
  obtain ⟨n, hn, rfl⟩ := mem_hexOf hc
  exact hchar n hn

/-- The text of a token type is already in the form the builder compares. -/
theorem normalize_hexOf (bs : Bytes) : lower (removeHexPrefix (hexOf bs).toList) = (hexOf bs).toList := by
  rw [removeHexPrefix_eq_self _ (x_not_mem_hexOf bs), lower_hexOf]

theorem hexOf_ne_empty {t : Bytes} (h : t.length = 32) : hexOf t ≠ "" := by
  intro he
  cases t with
  | nil => simp at h
  | cons b t =>
    have hl := congrArg String.toList he
    simp [hexOf] at hl

namespace UtxoRecord

/-- The token text as the builder compares it; unreadable records have none. -/
def tokenText (utxo : UtxoRecord) : List Char :=
  match utxo.tokenHex with
  | .ok h => h
  | .error _ => []

theorem isToken_eq {utxo : UtxoRecord} (h : utxo.NamesToken) (t : Bytes) :
    utxo.isToken t = decide (utxo.tokenText = (hexOf t).toList) := by
  obtain ⟨t', -, ht⟩ := h
  simp only [isToken, tokenText, ht, lower_hexOf]

theorem tokenHex_str {utxo : UtxoRecord} {s : String} (h : utxo.token_type = some (.str s)) (hs : s ≠ "") :
    utxo.tokenHex = .ok (lower (removeHexPrefix s.toList)) := by
  have hraw : utxo.rawToken = .str s := by simp [rawToken, h, orElse, TokenField.truthy, hs]
  simp only [tokenHex, hraw]
  rfl

theorem tokenHex_obj {utxo : UtxoRecord} {fields : Dict String (Option String)} {s : String}
    (h : utxo.token_type = some (.obj fields)) (hs : fields.get? "hex" = some (some s)) :
    utxo.tokenHex = .ok (lower (removeHexPrefix s.toList)) := by
  have hne : fields.entries ≠ [] := by
    intro he
    rw [Dict.get?, he] at hs
    cases hs
  have hraw : utxo.rawToken = .obj fields := by simp [rawToken, h, orElse, TokenField.truthy, hne]
  simp only [tokenHex, hraw, Dict.getD_eq, hs]
  rfl

end UtxoRecord

namespace UnshieldedWallet

/-- How the balance table files a record: under no text, under NIGHT for want of one, or under the text
that the builder then normalises. -/
theorem balanceKey_cases (utxo : UtxoRecord) :
    (balanceKey utxo = none ∧ ¬ utxo.CanonicalToken) ∨
    (balanceKey utxo = some zeroHex ∧ (utxo.CanonicalToken ↔ utxo.tokenHex = .ok zeroHex.toList)) ∨
    (balanceKey utxo = some "" ∧ ¬ utxo.CanonicalToken) ∨
    ∃ s, balanceKey utxo = some s ∧ utxo.tokenHex = .ok (lower (removeHexPrefix s.toList)) ∧
      (utxo.CanonicalToken ↔ lower (removeHexPrefix s.toList) = s.toList) := by
  cases hf : utxo.token_type with
  | none => exact Or.inr (Or.inl (by simp [balanceKey, UtxoRecord.CanonicalToken, hf]))
  | some field =>
    cases field with
    | null => exact Or.inl (by simp [balanceKey, UtxoRecord.CanonicalToken, hf])
    | str s =>
      by_cases hs : s = ""
      · exact Or.inr (Or.inr (Or.inl (by simp [balanceKey, UtxoRecord.CanonicalToken, hf, hs])))
      · refine Or.inr (Or.inr (Or.inr ⟨s, ?_, UtxoRecord.tokenHex_str hf hs, ?_⟩))
        · simp [balanceKey, hf]
        · simp [UtxoRecord.CanonicalToken, hf, hs]
    | obj fields =>
      cases hg : fields.get? "hex" with
      | none => exact Or.inr (Or.inl (by simp [balanceKey, UtxoRecord.CanonicalToken, hf, hg, Dict.getD_eq]))
      | some o =>
        cases o with
        | none => exact Or.inl (by simp [balanceKey, UtxoRecord.CanonicalToken, hf, hg, Dict.getD_eq])
        | some s =>
          refine Or.inr (Or.inr (Or.inr ⟨s, ?_, UtxoRecord.tokenHex_obj hf hg, ?_⟩))
          · simp [balanceKey, hf, hg, Dict.getD_eq]
          · simp [UtxoRecord.CanonicalToken, hf, hg]

/-- The canonical records are the ones filed under the text the builder compares. -/
theorem canonicalToken_iff {utxo : UtxoRecord} (h : utxo.NamesToken) :
    utxo.CanonicalToken ↔ (balanceKey utxo).map String.toList = some utxo.tokenText := by
  obtain ⟨t, hl, ht⟩ := h
  have htext : utxo.tokenText = (hexOf t).toList := by rw [UtxoRecord.tokenText, ht]
  rw [htext]
  rcases balanceKey_cases utxo with ⟨hk, hc⟩ | ⟨hk, hc⟩ | ⟨hk, hc⟩ | ⟨s, hk, hs, hc⟩
  · simp [hk, hc]
  · rw [hk, hc, ht, Except.ok.injEq, Option.map_some, Option.some.injEq, eq_comm]
  · have hne : ¬ "".toList = (hexOf t).toList := fun he => hexOf_ne_empty hl (String.toList_inj.mp he).symm
    rw [hk, Option.map_some, Option.some.injEq]
    exact ⟨fun h => absurd h hc, fun h => absurd h hne⟩
  · rw [hs, Except.ok.injEq] at ht
    rw [hk, hc, ht, Option.map_some, Option.some.injEq, eq_comm]

/-- A record filed under a token other than NIGHT is one of that token. -/
theorem balanceKey_token {utxo : UtxoRecord} {t : Bytes} (hz : hexOf t ≠ zeroHex) (hl : t.length = 32)
    (hk : balanceKey utxo = some (hexOf t)) : utxo.tokenText = (hexOf t).toList := by
  rcases balanceKey_cases utxo with ⟨hn, -⟩ | ⟨hn, -⟩ | ⟨hn, -⟩ | ⟨s, hn, hs, -⟩
  · rw [hk] at hn
    cases hn
  · rw [hk] at hn
    exact absurd (Option.some.inj hn) hz
  · rw [hk] at hn
    exact absurd (Option.some.inj hn) (hexOf_ne_empty hl)
  · rw [hk] at hn
    rw [UtxoRecord.tokenText, hs, ← Option.some.inj hn]
    exact normalize_hexOf t

theorem balanceLoop_ok (utxos : List UtxoRecord) (balances : Dict (Option String) Int)
    (h : ∀ utxo ∈ utxos, utxo.intValue = .ok utxo.amount) :
    ∃ after, balanceLoop utxos balances = .ok after ∧ ∀ key, after.getD key 0 =
      balances.getD key 0+total UtxoRecord.amount (utxos.filter (fun utxo => balanceKey utxo = key)) := by
  induction utxos generalizing balances with
  | nil => exact ⟨balances, rfl, by simp⟩
  | cons utxo utxos ih =>
    obtain ⟨after, hafter, hsum⟩ := ih (balances.set (balanceKey utxo)
      (balances.getD (balanceKey utxo) 0+utxo.amount)) (fun u hu => h u (by simp [hu]))
    refine ⟨after, ?_, ?_⟩
    · simp only [balanceLoop, h utxo (by simp), ok_bind, hafter]
    · intro key
      rw [hsum key, Dict.getD_eq, Dict.get?_set]
      by_cases hk : balanceKey utxo = key
      · simp only [hk, if_true, Option.getD_some, List.filter_cons, decide_true, total_cons, add_assoc]
      · simp only [hk, if_false, List.filter_cons, decide_false, Bool.false_eq_true, Dict.getD_eq]

/-- What the balance table reports under the hex text of a token type. -/
def reported (balances : Dict (Option String) Int) (t : Bytes) : Int := balances.getD (some (hexOf t)) 0

/-- What the builder may spend of a token type. -/
def spendable (utxos : List UtxoRecord) (t : Bytes) : Int :=
  total UtxoRecord.amount (utxos.filter (UtxoRecord.isToken t))

/-- The report under a token type is what the builder may spend of it. -/
def BalanceMatches (balances : Dict (Option String) Int) (utxos : List UtxoRecord) : Prop :=
  ∀ t : Bytes, t.length = 32 → reported balances t = spendable utxos t

/-- A transfer of a token type succeeds exactly when the report covers amount and fee. -/
def TransfersFollow (client : NoxipherClient) (wallet : MidnightWallet)
    (balances : Dict (Option String) Int) : Prop :=
  ∀ (t rnd : Bytes) (to_address : String) (kind : AddrType) (network : Network) (recipient_bytes : Bytes)
    (amount : Int) (fee : Option Int) (ttl : Int), t.length = 32 →
    decodeAddress to_address = .ok (kind, network, recipient_bytes) → 0 ≤ amount →
    ((∃ tx, buildUnshieldedTransfer client rnd wallet to_address amount fee ttl t false = .ok tx) ↔
      amount+fee.getD client.config.min_fee ≤ reported balances t)

/-- The report under a token type is the total of the records filed under its hex text. -/
theorem reported_eq {utxos : List UtxoRecord} {balances : Dict (Option String) Int}
    (hwf : ∀ utxo ∈ utxos, utxo.WellFormed) (hb : balanceLoop utxos Dict.empty = .ok balances) (t : Bytes) :
    reported balances t = total UtxoRecord.amount (utxos.filter
      (fun utxo => (balanceKey utxo).map String.toList = some (hexOf t).toList)) := by
  obtain ⟨after, hafter, hsum⟩ := balanceLoop_ok utxos Dict.empty (fun utxo hu => (hwf utxo hu).intValue)
  have heq : after = balances := Except.ok.inj (hafter.symm.trans hb)
  have hz : (Dict.empty : Dict (Option String) Int).getD (some (hexOf t)) 0 = 0 := rfl
  rw [reported, ← heq, hsum, hz, zero_add]
  apply total_filter_congr
  intro utxo _ _
  cases balanceKey utxo with
  | none => rfl
  | some s => simp [String.toList_inj]

theorem spendable_eq {utxos : List UtxoRecord} (hnames : ∀ utxo ∈ utxos, utxo.NamesToken) (t : Bytes) :
    spendable utxos t = total UtxoRecord.amount (utxos.filter (fun utxo => utxo.tokenText = (hexOf t).toList)) := by
  apply total_filter_congr
  intro utxo hu _
  exact UtxoRecord.isToken_eq (hnames utxo hu) t

/-- The table matches exactly when every record of value carries its token type canonically. -/
theorem balanceMatches_iff {utxos : List UtxoRecord} {balances : Dict (Option String) Int}
    (hwf : ∀ utxo ∈ utxos, utxo.WellFormed) (hnames : ∀ utxo ∈ utxos, utxo.NamesToken)
    (hb : balanceLoop utxos Dict.empty = .ok balances) :
    BalanceMatches balances utxos ↔ ∀ utxo ∈ utxos, utxo.amount ≠ 0 → utxo.CanonicalToken := by
  have hagree := tallies_agree_iff UtxoRecord.amount UtxoRecord.tokenText
    (fun utxo => (balanceKey utxo).map String.toList) (fun k => ∃ t : Bytes, t.length = 32 ∧ k = (hexOf t).toList)
    zeroHex.toList utxos (fun utxo hu => (hwf utxo hu).amount_nonneg) (by
      intro utxo hu
      obtain ⟨t, hl, ht⟩ := hnames utxo hu
      exact ⟨t, hl, by rw [UtxoRecord.tokenText, ht]⟩) (by
      intro utxo hu k ⟨t, hl, hk⟩ hne hfiled
      obtain ⟨s, hs, hsk⟩ := Option.map_eq_some_iff.mp hfiled
      have hst : s = hexOf t := String.toList_inj.mp (hsk.trans hk)
      have hz : hexOf t ≠ zeroHex := fun he => hne (by rw [hk, he])
      rw [hk]
      exact balanceKey_token hz hl (hst ▸ hs))
  constructor
  · intro hm utxo hu hv
    rw [canonicalToken_iff (hnames utxo hu)]
    refine hagree.mp ?_ utxo hu hv
    intro k ⟨t, hl, hk⟩
    rw [hk, ← reported_eq hwf hb, ← spendable_eq hnames]
    exact hm t hl
  · intro hc t hl
    rw [reported_eq hwf hb, spendable_eq hnames]
    exact hagree.mpr (fun utxo hu hv => (canonicalToken_iff (hnames utxo hu)).mp (hc utxo hu hv)) _ ⟨t, hl, rfl⟩

/-- The reported balance is the spendable one, for every token type and hence for every transfer, exactly
when every record of value carries its token type canonically. -/
theorem balance_spendable_iff (client : NoxipherClient) (wallet : MidnightWallet) (utxos : List UtxoRecord)
    (hfetch : wallet.unshielded.getUtxos client.indexer = .ok utxos)
    (hwf : ∀ utxo ∈ utxos, utxo.WellFormed) (hnames : ∀ utxo ∈ utxos, utxo.NamesToken) :
    ∃ balances, wallet.unshielded.getBalance client.indexer = .ok balances ∧
      (BalanceMatches balances utxos ∧ TransfersFollow client wallet balances ↔
        ∀ utxo ∈ utxos, utxo.amount ≠ 0 → utxo.CanonicalToken) := by
  obtain ⟨balances, hb, -⟩ := balanceLoop_ok utxos Dict.empty (fun utxo hu => (hwf utxo hu).intValue)
  have hiff := balanceMatches_iff hwf hnames hb
  refine ⟨balances, ?_, fun h => hiff.mp h.1, fun hc => ⟨hiff.mpr hc, ?_⟩⟩
  · simp only [getBalance, hfetch, ok_bind, hb]
  · intro t rnd to_address kind network recipient_bytes amount fee ttl hl hrec hamount
    obtain ⟨hshort, hcover⟩ := buildUnshieldedTransfer_outcome client rnd wallet to_address amount fee ttl t
      false kind network recipient_bytes utxos hrec hfetch hwf hamount
    have hsame : reported balances t = total UtxoRecord.amount
        (utxos.filter (UtxoRecord.isToken (effectiveToken t false))) := hiff.mpr hc t hl
    rw [hsame]
    constructor
    · intro ⟨tx, htx⟩
      by_contra hlt
      obtain ⟨msg, hmsg⟩ := hshort (not_le.mp hlt)
      rw [htx] at hmsg
      cases hmsg
    · intro hle
      obtain ⟨tx, htx, -⟩ := hcover hle
      exact ⟨tx, htx⟩

/-- With a record of another token that names it under `token_type` the table is followed. -/
theorem balance_spendable_sample :
    let colored : UtxoRecord :=
      { value := some (.str "5"), token_type := some (.str (hexOf (List.replicate 32 1))), outputNo := some (.int 2) }
    let client : NoxipherClient := ⟨sampleClient.config, ⟨fun _ => .ok (colored::sampleUtxos)⟩⟩
    ∃ balances, sampleWallet.unshielded.getBalance client.indexer = .ok balances ∧
      BalanceMatches balances (colored::sampleUtxos) ∧ TransfersFollow client sampleWallet balances := by
  intro colored client
  have htoken : colored.tokenHex = .ok (hexOf (List.replicate 32 1)).toList := by decide
  have hwf : ∀ utxo ∈ colored::sampleUtxos, utxo.WellFormed :=
    List.forall_mem_cons.mpr ⟨⟨⟨_, 5, rfl, by decide, by decide⟩, ⟨_, htoken⟩, ⟨List.replicate 32 0, by decide⟩,
      ⟨2, rfl⟩⟩, sampleUtxos_wellFormed⟩
  have hnight : ∀ utxo ∈ sampleUtxos, utxo.tokenHex = .ok zeroHex.toList := by decide
  have hnames : ∀ utxo ∈ colored::sampleUtxos, utxo.NamesToken :=
    List.forall_mem_cons.mpr ⟨⟨List.replicate 32 1, rfl, htoken⟩,
      fun utxo hu => ⟨List.replicate 32 0, rfl, hnight utxo hu⟩⟩
  have hcanonical : ∀ utxo ∈ colored::sampleUtxos, utxo.amount ≠ 0 → utxo.CanonicalToken := by
    rw [List.forall_mem_cons]
    refine ⟨fun _ => ⟨by decide, by decide⟩, ?_⟩
    intro utxo hu _
    have hunnamed : utxo.token_type = none := by
      revert utxo
      decide
    rw [UtxoRecord.CanonicalToken, hunnamed]
    exact hnight utxo hu
  obtain ⟨balances, hbalances, hiff⟩ := balance_spendable_iff client sampleWallet (colored::sampleUtxos) rfl hwf hnames
  exact ⟨balances, hbalances, hiff.mpr hcanonical⟩

/-- A record as the indexer query returns it: the token type stands under `tokenType`. -/
def queriedUtxo : UtxoRecord where
  value := some (.str "5")
  tokenType := some (.str (hexOf (List.replicate 32 1)))

/-- The queried record can be spent under its token type, but the table files it under NIGHT. -/
theorem queriedUtxo_misfiled :
    ∃ balances, balanceLoop [queriedUtxo] Dict.empty = .ok balances ∧
      reported balances (List.replicate 32 1) = 0 ∧ spendable [queriedUtxo] (List.replicate 32 1) = 5 ∧
      reported balances RawTokenType.NATIVE_NIGHT = 5 ∧ spendable [queriedUtxo] RawTokenType.NATIVE_NIGHT = 0 ∧
      ¬ BalanceMatches balances [queriedUtxo] := by
  have hloop : balanceLoop [queriedUtxo] Dict.empty = .ok (Dict.ofList [(some zeroHex, 5)]) := by decide
  have hrep : reported (Dict.ofList [(some zeroHex, 5)]) (List.replicate 32 1) = 0 := by decide
  have hspend : spendable [queriedUtxo] (List.replicate 32 1) = 5 := by decide
  refine ⟨_, hloop, hrep, hspend, by decide, by decide, ?_⟩
  intro hm
  have h := hm (List.replicate 32 1) rfl
  rw [hrep, hspend] at h
  exact absurd h (by decide)

end UnshieldedWallet

end Noxipher
