import Noxipher.Tx.Builder

namespace Noxipher

namespace TransactionBuilder

section Circuits

variable (transientHash : List Fr → Fr)

/-- The coins of one token type, largest first, until the amount is reached. -/
def selectCoins (coins : List ShieldedCoinNote) (token_type : Bytes) (amount : Int) :
    List ShieldedCoinNote × Int :=
  Greedy.largestFirst ShieldedCoinNote.value amount (coins.filter (fun c => c.token_type = token_type))

/-- A coin with its Merkle proof, its nullifier and the root. -/
def spendCircuit (wallet : MidnightWallet) (coin : ShieldedCoinNote) : Except PyError Circuit := do
  let proof ← wallet.shielded_state.merkle_tree.proof transientHash coin.merkle_tree_index
  let root ← wallet.shielded_state.merkle_tree.root transientHash
  let nullifier := coin.computeNullifier transientHash (leValue wallet.shielded.coin_secret_key)
  return {
    id := some "zswap_spend"
    private_inputs := some (.spend coin (hexOf wallet.shielded.coin_secret_key) (proof.map hexOf))
    public_inputs := some (.spend (hexOf nullifier) (hexOf root)) }

/-- commitment = hash(token_type, value, recipient_pk, nonce) -/
def outputCircuit (token_type coin_pk nonce : Bytes) (value : Int) (recipient : String) : Circuit :=
  let commitment := (transientHash [FieldElement.fromLeBytes token_type, FieldElement.ofInt value,
    FieldElement.fromLeBytes coin_pk, FieldElement.fromLeBytes nonce]).toBytes
  { id := some "zswap_output"
    private_inputs := some (.output value recipient (hexOf nonce))
    public_inputs := some (.output (hexOf commitment)) }

/-- The own output for what is left, if anything is. -/
def changeCircuits (wallet : MidnightWallet) (token_type change_nonce : Bytes) (amount total_selected : Int) :
    List Circuit :=
  if total_selected > amount then
    [outputCircuit transientHash token_type wallet.shielded.coin_public_key change_nonce (total_selected-amount)
      wallet.shielded.address]
  else []

/-- `out_nonce` and `change_nonce` are what `secrets.token_bytes(32)` returns. -/
def buildShieldedTransfer (wallet : MidnightWallet) (to_address : String) (amount : Int)
    (token_type out_nonce change_nonce : Bytes) : Except PyError TxData :=
  let picked := selectCoins wallet.shielded_state.unspent_coins token_type amount
  if picked.2 < amount then
    .error (.transactionError s!"Insufficient shielded balance: {picked.2} < {amount}")
  else do
    let spends ← traverse (spendCircuit transientHash wallet) picked.1
    let decoded ← decodeAddress to_address
    let recipient_coin_pk := decoded.2.2.take 32
    let output := outputCircuit transientHash token_type recipient_coin_pk out_nonce amount to_address
    let change := changeCircuits transientHash wallet token_type change_nonce amount picked.2
    return {
      type := some "shielded_transfer"
      from_ := some wallet.shielded.address
      to_ := some to_address
      amount := some amount
      circuits := some (spends++output::change)
      requires_unshielded_signature := some false
      guaranteed_hex := some ""
      fallible_hexes := some [] }

variable {transientHash}

/-- The change is one output circuit at most. -/
theorem mem_changeCircuits {wallet : MidnightWallet} {token_type change_nonce : Bytes} {amount total_selected : Int}
    {circuit : Circuit}
    (h : circuit ∈ changeCircuits transientHash wallet token_type change_nonce amount total_selected) :
    circuit = outputCircuit transientHash token_type wallet.shielded.coin_public_key change_nonce
      (total_selected-amount) wallet.shielded.address := by
  unfold changeCircuits at h
  split_ifs at h with hmore
  · exact List.mem_singleton.mp h
  · cases h

/-- A spend circuit is made of the Merkle proof and the root of the wallet's tree. -/
theorem of_spendCircuit {wallet : MidnightWallet} {coin : ShieldedCoinNote} {circuit : Circuit}
    (h : spendCircuit transientHash wallet coin = .ok circuit) :
    ∃ path root, wallet.shielded_state.merkle_tree.proof transientHash coin.merkle_tree_index = .ok path ∧
      wallet.shielded_state.merkle_tree.root transientHash = .ok root ∧
      circuit = {
        id := some "zswap_spend"
        private_inputs := some (.spend coin (hexOf wallet.shielded.coin_secret_key) (path.map hexOf))
        public_inputs := some (.spend
          (hexOf (coin.computeNullifier transientHash (leValue wallet.shielded.coin_secret_key))) (hexOf root)) } := by
  obtain ⟨path, hpath, h⟩ := bind_ok_iff.mp h
  obtain ⟨root, hroot, h⟩ := bind_ok_iff.mp h
  exact ⟨path, root, hpath, hroot, (Except.ok.inj h).symm⟩

/-- A built shielded transfer: its coins cover the amount and all have their circuits, and the address decodes. -/
theorem of_buildShieldedTransfer {wallet : MidnightWallet} {to_address : String} {amount : Int}
    {token_type out_nonce change_nonce : Bytes} {tx : TxData}
    (h : buildShieldedTransfer transientHash wallet to_address amount token_type out_nonce change_nonce = .ok tx) :
    let picked := selectCoins wallet.shielded_state.unspent_coins token_type amount
    ∃ spends decoded, amount ≤ picked.2 ∧ traverse (spendCircuit transientHash wallet) picked.1 = .ok spends ∧
      decodeAddress to_address = .ok decoded ∧
      tx = {
        type := some "shielded_transfer"
        from_ := some wallet.shielded.address
        to_ := some to_address
        amount := some amount
        circuits := some (spends++outputCircuit transientHash token_type (decoded.2.2.take 32) out_nonce amount to_address::
          changeCircuits transientHash wallet token_type change_nonce amount picked.2)
        requires_unshielded_signature := some false
        guaranteed_hex := some ""
        fallible_hexes := some [] } := by
  unfold buildShieldedTransfer at h
  simp only at h
  split_ifs at h with hshort
  obtain ⟨spends, hspends, h⟩ := bind_ok_iff.mp h
  obtain ⟨decoded, hdecode, h⟩ := bind_ok_iff.mp h
  exact ⟨spends, decoded, not_lt.mp hshort, hspends, hdecode, (Except.ok.inj h).symm⟩

end Circuits

end TransactionBuilder

end Noxipher
