import Noxipher.Tx.Outputs
import Noxipher.Tx.ScalarFields
import Noxipher.Tx.Shielded
import Noxipher.Zswap.MerkleProof

namespace Noxipher

/-- The string is an address of the given kind and network with a payload of the given length. -/
def Pays (kind : AddrType) (len : Nat) (network : Network) (address : String) : Prop :=
  ∃ payload, decodeAddress address = .ok (kind, network, payload) ∧ payload.length = len

def Undecodable (address : String) : Prop := ∃ e, decodeAddress address = .error e

theorem not_undecodable {address : String} (h : ¬ Undecodable address) :
    ∃ kind network payload, decodeAddress address = .ok (kind, network, payload) := by
  cases hd : decodeAddress address with
  | error e => exact absurd ⟨e, hd⟩ h
  | ok decoded => exact ⟨decoded.1, decoded.2.1, decoded.2.2, rfl⟩

theorem decodable {address : String} {decoded : AddrType × Network × Bytes}
    (h : decodeAddress address = .ok decoded) : ¬ Undecodable address := by
  intro hundecodable
  obtain ⟨e, he⟩ := hundecodable
  rw [h] at he
  cases he

theorem Pays.decodes {kind : AddrType} {len : Nat} {network : Network} {address : String}
    {decoded : AddrType × Network × Bytes} (h : Pays kind len network address)
    (hd : decodeAddress address = .ok decoded) :
    decoded.1 = kind ∧ decoded.2.1 = network ∧ decoded.2.2.length = len := by
  obtain ⟨payload, hp, hlen⟩ := h
  rw [hd] at hp
  cases hp
  exact ⟨rfl, rfl, hlen⟩

/-- The bytes of an output are its value, its owner as it stands and its type. -/
theorem serializeUtxoOutput_length {output : UtxoOutput} {bytes : Bytes} (h : serializeUtxoOutput output = .ok bytes) :
    bytes.length = 17+output.owner.length := by
  obtain ⟨value, after_value, hvalue, hfields, rfl⟩ := gather_cons_ok.mp h
  obtain ⟨owner, after_owner, howner, htail, rfl⟩ := gather_cons_ok.mp hfields
  obtain ⟨type_, rest, htype, hend, rfl⟩ := gather_cons_ok.mp htail
  cases hend
  cases howner
  have hvalue_len : value.length = 16 := by
    obtain ⟨low, after_low, hlow, hlast, rfl⟩ := gather_cons_ok.mp hvalue
    obtain ⟨high, rest, hhigh, hend, rfl⟩ := gather_cons_ok.mp hlast
    cases hend
    rw [List.length_append, List.length_append, structPack_length hlow, structPack_length hhigh, List.length_nil]
  have htype_len : type_.length = 1 := by
    unfold byteOf at htype
    split_ifs at htype with hrange
    cases htype
    rfl
  simp only [List.length_append, hvalue_len, htype_len, List.length_nil]
  omega

namespace MidnightWallet

/-- The coin's index passes the bound, and the tree is empty or has a root to read. -/
def CanProve (wallet : MidnightWallet) (coin : ShieldedCoinNote) : Prop :=
  let tree := wallet.shielded_state.merkle_tree
  coin.merkle_tree_index < 2^tree.depth ∧
    (tree.leaves.entries = [] ∨ ∃ i ∈ tree.leaves.keys, 0 ≤ i ∧ i < 2^tree.depth)

/-- The coins of one token type in the order in which they are tried. -/
def tried (wallet : MidnightWallet) (token_type : Bytes) : List ShieldedCoinNote :=
  Greedy.descending ShieldedCoinNote.value
    (wallet.shielded_state.unspent_coins.filter (fun c => c.token_type = token_type))

/-- Every coin that is worth something, or is the first to be tried, can be proved. -/
def CoinsProvable (wallet : MidnightWallet) : Prop :=
  ∀ coin ∈ wallet.shielded_state.unspent_coins,
    0 < coin.value ∨ (wallet.tried coin.token_type).head? = some coin → wallet.CanProve coin

/-- The signing keys are 32 bytes, as sr25519 keys are. -/
def KeysSized (wallet : MidnightWallet) : Prop :=
  wallet.unshielded.publicKey.length = 32 ∧ wallet.dust.publicKey.length = 32

end MidnightWallet

namespace TransactionBuilder

/-- A transfer is built only for an unshielded address of the network, anything else is refused with an error
of the library; and every owner that is written has its 32 bytes. -/
def PaysUnshieldedOnly (config : NetworkConfig) (wallet : MidnightWallet) (to_address : String) : Prop :=
  ∀ indexer rnd amount fee ttl token_type use_dust,
    let built := buildUnshieldedTransfer ⟨config, indexer⟩ rnd wallet to_address amount fee ttl token_type use_dust
    (¬ Pays .unshielded 32 config.network to_address → ∃ e, built = .error e ∧ e.isNoxipherError = true) ∧
    (wallet.KeysSized → ∀ tx inputs outputs signatures, built = .ok tx →
      tx.guaranteedOffer = some ⟨inputs, some outputs, signatures⟩ → ∀ output ∈ outputs,
        output.owner.length = 32 ∧ ∀ bytes, serializeUtxoOutput output = .ok bytes → bytes.length = 49)

/-- A shielded transfer is built only for a shielded address of the network, anything else is refused with an
error of the library; and the output is committed to the coin public key of that address. -/
def PaysShieldedOnly (transientHash : List Fr → Fr) (network : Network) (wallet : MidnightWallet)
    (to_address : String) : Prop :=
  ∀ amount token_type out_nonce change_nonce,
    let built := buildShieldedTransfer transientHash wallet to_address amount token_type out_nonce change_nonce
    (¬ Pays .shielded 64 network to_address → ∃ e, built = .error e ∧ e.isNoxipherError = true) ∧
    (∀ tx, built = .ok tx → ∃ coin_pk encryption_pk spends change,
      coin_pk.length = 32 ∧ encryption_pk.length = 32 ∧
      decodeAddress to_address = .ok (.shielded, network, coin_pk++encryption_pk) ∧
      tx.circuits = some (spends++outputCircuit transientHash token_type coin_pk out_nonce amount to_address::change))

section Unshielded

variable {to_address : String}

/-- An address that decodes is accepted, whatever it decodes to. -/
theorem decodable_accepted (config : NetworkConfig) (wallet : MidnightWallet) {kind : AddrType} {network : Network}
    {payload : Bytes} (hdecode : decodeAddress to_address = .ok (kind, network, payload)) :
    ∃ tx, buildUnshieldedTransfer ⟨config, ⟨fun _ => .ok sampleUtxos⟩⟩ [] wallet to_address 500 (some 100) 1800
      RawTokenType.NATIVE_NIGHT false = .ok tx := by
  have houtcome := buildUnshieldedTransfer_outcome ⟨config, ⟨fun _ => .ok sampleUtxos⟩⟩ [] wallet to_address 500
    (some 100) 1800 RawTokenType.NATIVE_NIGHT false kind network payload sampleUtxos hdecode rfl
    sampleUtxos_wellFormed (by decide)
  have hcover : (500 : Int)+100 ≤ Greedy.total UtxoRecord.amount (sampleUtxos.filter
      (UtxoRecord.isToken (effectiveToken RawTokenType.NATIVE_NIGHT false))) := by decide
  obtain ⟨tx, htx, -⟩ := houtcome.2 hcover
  exact ⟨tx, htx⟩

theorem paysUnshieldedOnly_iff (config : NetworkConfig) (wallet : MidnightWallet) (to_address : String) :
    PaysUnshieldedOnly config wallet to_address ↔
      Pays .unshielded 32 config.network to_address ∨ Undecodable to_address := by
  constructor
  · intro h
    by_contra hneither
    obtain ⟨hpays, hundecodable⟩ := not_or.mp hneither
    obtain ⟨kind, network, payload, hdecode⟩ := not_undecodable hundecodable
    obtain ⟨tx, htx⟩ := decodable_accepted config wallet hdecode
    obtain ⟨e, he, -⟩ := (h _ _ _ _ _ _ _).1 hpays
    rw [htx] at he
    cases he
  · intro h indexer rnd amount fee ttl token_type use_dust
    constructor
    · intro hpays
      obtain ⟨e, hdecode⟩ := h.resolve_left hpays
      refine ⟨.transactionError ("Invalid recipient address: "++e.str), ?_, rfl⟩
      rw [buildUnshieldedTransfer, decodeRecipient, hdecode]
      rfl
    · intro hkeys tx inputs outputs signatures hbuilt hoffer output houtput
      obtain ⟨kind, network, recipient_bytes, spends, change, hdecode, hoffer', -, hchange⟩ :=
        buildUnshieldedTransfer_owners hbuilt
      have hpays : Pays .unshielded 32 config.network to_address := h.resolve_right (decodable hdecode)
      have hlen : output.owner.length = 32 := by
        rw [hoffer] at hoffer'
        cases hoffer'
        rcases List.mem_append.mp houtput with hrecipient | hmem
        · unfold recipientOutputs at hrecipient
          split_ifs at hrecipient with hpositive
          · rw [List.mem_singleton.mp hrecipient]
            exact (hpays.decodes hdecode).2.2
          · cases hrecipient
        · rw [hchange output hmem]
          cases use_dust
          · exact hkeys.1
          · exact hkeys.2
      refine ⟨hlen, ?_⟩
      intro bytes hbytes
      rw [serializeUtxoOutput_length hbytes, hlen]

end Unshielded

section Shielded

variable (transientHash : List Fr → Fr) {wallet : MidnightWallet} {to_address : String}

theorem spendCircuit_ok {coin : ShieldedCoinNote} (h : wallet.CanProve coin) :
    ∃ circuit, spendCircuit transientHash wallet coin = .ok circuit := by
  obtain ⟨hindex, hroot⟩ := h
  have hproof : ∃ path, wallet.shielded_state.merkle_tree.proof transientHash coin.merkle_tree_index = .ok path := by
    rw [MerkleTree.proof, if_neg (by omega)]
    exact ⟨_, rfl⟩
  have hroot : ∃ root, wallet.shielded_state.merkle_tree.root transientHash = .ok root := by
    rcases hroot with hempty | ⟨i, hi, hlow, hhigh⟩
    · rw [MerkleTree.root, hempty]
      exact ⟨_, rfl⟩
    · exact ⟨_, MerkleTree.root_of_stored transientHash _ hi hlow hhigh⟩
  obtain ⟨path, hpath⟩ := hproof
  obtain ⟨root, hroot⟩ := hroot
  rw [spendCircuit, hpath, ok_bind, hroot, ok_bind]
  exact ⟨_, rfl⟩

/-- A coin without proof or root raises an error of Python's own. -/
theorem spendCircuit_error {coin : ShieldedCoinNote} (h : ¬ wallet.CanProve coin) :
    ∃ e, spendCircuit transientHash wallet coin = .error e ∧ e.isNoxipherError = false := by
  by_cases hindex : coin.merkle_tree_index < 2^wallet.shielded_state.merkle_tree.depth
  · have hproof : wallet.shielded_state.merkle_tree.proof transientHash coin.merkle_tree_index =
        .ok (MerkleTree.proofPath transientHash wallet.shielded_state.merkle_tree.leafNodes
          wallet.shielded_state.merkle_tree.depth 0 coin.merkle_tree_index) := if_neg (by omega)
    obtain ⟨hempty, hnone⟩ := not_or.mp (fun hroot => h ⟨hindex, hroot⟩)
    have hroot := MerkleTree.root_of_none_stored transientHash wallet.shielded_state.merkle_tree hempty
      (fun i hi hrange => hnone ⟨i, hi, hrange⟩)
    refine ⟨.keyError "0", ?_, rfl⟩
    rw [spendCircuit, hproof, ok_bind, hroot, error_bind]
  · refine ⟨.valueError s!"Index {coin.merkle_tree_index} out of bounds", ?_, rfl⟩
    rw [spendCircuit, MerkleTree.proof, if_pos (by omega), error_bind]

/-- A transfer of nothing in a token the wallet does not hold needs no coin. -/
theorem decodable_shielded_accepted (wallet : MidnightWallet) {decoded : AddrType × Network × Bytes}
    (hdecode : decodeAddress to_address = .ok decoded) :
    ∃ token_type tx, buildShieldedTransfer transientHash wallet to_address 0 token_type [] [] = .ok tx := by
  obtain ⟨token_type, hfresh⟩ := Infinite.exists_notMem_finset
    (wallet.shielded_state.unspent_coins.map ShieldedCoinNote.token_type).toFinset
  have hnone : wallet.shielded_state.unspent_coins.filter (fun c => c.token_type = token_type) = [] := by
    apply List.filter_eq_nil_iff.mpr
    intro coin hcoin htoken
    apply hfresh
    rw [List.mem_toFinset]
    exact List.mem_map.mpr ⟨coin, hcoin, of_decide_eq_true htoken⟩
  have hselect : selectCoins wallet.shielded_state.unspent_coins token_type 0 = ([], 0) := by
    rw [selectCoins, hnone]
    rfl
  refine ⟨token_type, ?_⟩
  rw [buildShieldedTransfer]
  simp only [hselect, traverse, ok_bind, hdecode]
  exact ⟨_, rfl⟩

/-- Past the shortfall check the spends are made before the recipient is looked at. -/
theorem buildShieldedTransfer_covered (to_address : String) {amount : Int} {token_type : Bytes}
    (out_nonce change_nonce : Bytes) (hcover : amount ≤ (selectCoins wallet.shielded_state.unspent_coins token_type amount).2) :
    ∃ finish : List Circuit → AddrType × Network × Bytes → TxData,
      buildShieldedTransfer transientHash wallet to_address amount token_type out_nonce change_nonce =
        (traverse (spendCircuit transientHash wallet)
          (selectCoins wallet.shielded_state.unspent_coins token_type amount).1 >>= fun spends =>
            decodeAddress to_address >>= fun decoded => .ok (finish spends decoded)) := by
  unfold buildShieldedTransfer
  exact ⟨_, if_neg (not_lt.mpr hcover)⟩

/-- When every selected coin can be proved, all spends are made. -/
theorem spendCircuits_ok {coins : List ShieldedCoinNote} (h : ∀ coin ∈ coins, wallet.CanProve coin) :
    ∃ spends, traverse (spendCircuit transientHash wallet) coins = .ok spends := by
  cases htraverse : traverse (spendCircuit transientHash wallet) coins with
  | ok spends => exact ⟨spends, rfl⟩
  | error e =>
    obtain ⟨coin, hcoin, hfail⟩ := traverse_error htraverse
    obtain ⟨circuit, hok⟩ := spendCircuit_ok transientHash (h coin hcoin)
    rw [hok] at hfail
    cases hfail

/-- A coin that cannot be proved stops the spends with an error of Python's own. -/
theorem spendCircuits_error {coins : List ShieldedCoinNote} {coin : ShieldedCoinNote} (hcoin : coin ∈ coins)
    (h : ¬ wallet.CanProve coin) :
    ∃ e, traverse (spendCircuit transientHash wallet) coins = .error e ∧ e.isNoxipherError = false := by
  cases htraverse : traverse (spendCircuit transientHash wallet) coins with
  | ok spends =>
    obtain ⟨circuit, -, hok⟩ := traverse_all htraverse coin hcoin
    obtain ⟨e, he, -⟩ := spendCircuit_error transientHash h
    rw [hok] at he
    cases he
  | error e =>
    obtain ⟨source, -, hsource⟩ := traverse_error htraverse
    by_cases hcan : wallet.CanProve source
    · obtain ⟨circuit, hok⟩ := spendCircuit_ok transientHash hcan
      rw [hok] at hsource
      cases hsource
    · obtain ⟨e', he', hforeign⟩ := spendCircuit_error transientHash hcan
      rw [hsource] at he'
      cases he'
      exact ⟨e, rfl, hforeign⟩

/-- The coins a covering selection can return are those that have to be provable. -/
theorem coinsProvable_iff (wallet : MidnightWallet) :
    wallet.CoinsProvable ↔ ∀ token_type amount,
      amount ≤ (selectCoins wallet.shielded_state.unspent_coins token_type amount).2 →
      ∀ coin ∈ (selectCoins wallet.shielded_state.unspent_coins token_type amount).1, wallet.CanProve coin := by
  constructor
  · intro h token_type amount hcover coin hcoin
    obtain ⟨hmem, hneeded⟩ := Greedy.of_mem_largestFirst ShieldedCoinNote.value hcover hcoin
    obtain ⟨hlisted, htoken⟩ := List.mem_filter.mp hmem
    apply h coin hlisted
    rw [MidnightWallet.tried, of_decide_eq_true htoken]
    exact hneeded
  · intro h coin hlisted hneeded
    have hmem : coin ∈ wallet.shielded_state.unspent_coins.filter (fun c => c.token_type = coin.token_type) := by
      apply List.mem_filter.mpr
      exact ⟨hlisted, by simp⟩
    obtain ⟨amount, hcover, hcoin⟩ := Greedy.exists_largestFirst ShieldedCoinNote.value hmem hneeded
    exact h coin.token_type amount hcover coin hcoin

theorem paysShieldedOnly_iff (network : Network) (wallet : MidnightWallet) (to_address : String) :
    PaysShieldedOnly transientHash network wallet to_address ↔
      Pays .shielded 64 network to_address ∨ (Undecodable to_address ∧ wallet.CoinsProvable) := by
  constructor
  · intro h
    by_cases hpays : Pays .shielded 64 network to_address
    · exact Or.inl hpays
    · right
      constructor
      · by_contra hundecodable
        obtain ⟨kind, net, payload, hdecode⟩ := not_undecodable hundecodable
        obtain ⟨token_type, tx, htx⟩ := decodable_shielded_accepted transientHash wallet hdecode
        obtain ⟨e, he, -⟩ := (h 0 token_type [] []).1 hpays
        rw [htx] at he
        cases he
      · apply (coinsProvable_iff wallet).mpr
        intro token_type amount hcover
        obtain ⟨e, he, hlibrary⟩ := (h amount token_type [] []).1 hpays
        obtain ⟨finish, hbuild⟩ := buildShieldedTransfer_covered transientHash to_address [] [] hcover
        intro coin hcoin
        by_contra hcannot
        obtain ⟨e', hspends, hforeign⟩ := spendCircuits_error transientHash hcoin hcannot
        rw [hbuild, hspends] at he
        cases he
        rw [hlibrary] at hforeign
        cases hforeign
  · intro h amount token_type out_nonce change_nonce
    constructor
    · intro hpays
      obtain ⟨⟨e, hdecode⟩, hprovable⟩ := h.resolve_left hpays
      by_cases hshort : (selectCoins wallet.shielded_state.unspent_coins token_type amount).2 < amount
      · refine ⟨_, if_pos hshort, rfl⟩
      · have hcover := not_lt.mp hshort
        obtain ⟨finish, hbuild⟩ := buildShieldedTransfer_covered transientHash to_address out_nonce change_nonce
          hcover
        obtain ⟨spends, hspends⟩ := spendCircuits_ok transientHash
          ((coinsProvable_iff wallet).mp hprovable token_type amount hcover)
        obtain ⟨msg, rfl⟩ := decodeAddress_error hdecode
        refine ⟨.addressError msg, ?_, rfl⟩
        rw [hbuild, hspends, ok_bind, hdecode, error_bind]
    · intro tx hbuilt
      obtain ⟨spends, decoded, -, -, hdecode, rfl⟩ := of_buildShieldedTransfer hbuilt
      have hpays : Pays .shielded 64 network to_address := h.resolve_right (fun hneither => decodable hdecode hneither.1)
      obtain ⟨hkind, hnet, hlen⟩ := hpays.decodes hdecode
      obtain ⟨kind, net, payload⟩ := decoded
      cases hkind
      cases hnet
      refine ⟨payload.take 32, payload.drop 32, spends, _, ?_, ?_, ?_, rfl⟩
      · rw [List.length_take, hlen]
        rfl
      · rw [List.length_drop, hlen]
      · rw [List.take_append_drop]
        exact hdecode

end Shielded

/-- The builders keep addresses apart only where decoding itself fails: each holds to its kind of address exactly
for the addresses it should pay and for text that is no address at all. -/
theorem recipients_checked_iff (config : NetworkConfig) (wallet : MidnightWallet) (to_address : String)
    (transientHash : List Fr → Fr) :
    (PaysUnshieldedOnly config wallet to_address ↔
      Pays .unshielded 32 config.network to_address ∨ Undecodable to_address) ∧
    (PaysShieldedOnly transientHash config.network wallet to_address ↔
      Pays .shielded 64 config.network to_address ∨ (Undecodable to_address ∧ wallet.CoinsProvable)) :=
  ⟨paysUnshieldedOnly_iff config wallet to_address, paysShieldedOnly_iff transientHash config.network wallet to_address⟩

/-- A transfer to the sample wallet's DUST address is built, with an owner of 33 bytes. -/
theorem dust_address_paid :
    ∃ to_address tx inputs signatures, ∃ recipient change : UtxoOutput,
      decodeAddress to_address = .ok (.dust, .preprod, 0x73::List.replicate 32 4) ∧
      ¬ Pays .unshielded 32 sampleClient.config.network to_address ∧
      buildUnshieldedTransfer sampleClient (List.replicate 32 9) sampleWallet to_address 500 (some 100) 1800
        RawTokenType.NATIVE_NIGHT false = .ok tx ∧
      tx.guaranteedOffer = some ⟨inputs, some [recipient, change], signatures⟩ ∧ recipient.owner.length = 33 := by
  obtain ⟨to_address, -, hdecode⟩ := encodeAddress_decodes (0x73::List.replicate 32 4) .dust .preprod (by decide)
  obtain ⟨tx, htx, hoffer⟩ := sample_transfer sampleWallet hdecode
  refine ⟨to_address, tx, _, _, _, _, hdecode, ?_, htx, hoffer, rfl⟩
  intro hpays
  have hkind := (hpays.decodes hdecode).1
  cases hkind

end TransactionBuilder

end Noxipher
