import Noxipher.Tx.Shielded
import Noxipher.Zswap.MerkleProof
import Noxipher.Zswap.StoreRuns

namespace Noxipher

variable (transientHash : List Fr → Fr)

/-- The proof of the coin's position, folded from its commitment, gives the root. -/
def MerkleTree.Proves (tree : MerkleTree) (coin : ShieldedCoinNote) (path : List Bytes) (root : Bytes) : Prop :=
  tree.proof transientHash coin.merkle_tree_index = .ok path ∧ tree.root transientHash = .ok root ∧
  (MerkleTree.foldProof transientHash path coin.merkle_tree_index
    (FieldElement.fromLeBytes (coin.computeCommitment transientHash))).toBytes = root

namespace ZswapState

/-- A note with its position as it is inserted. -/
def inserted (note : ShieldedCoinNote) : Int × Bytes :=
  (note.merkle_tree_index, note.computeCommitment transientHash)

/-- A coin at a proper position that no later note took with another commitment. -/
def Standing (notes : List ShieldedCoinNote) (coin : ShieldedCoinNote) : Prop :=
  0 ≤ coin.merkle_tree_index ∧ ∃ earlier later, notes = earlier++coin::later ∧
    ∀ note ∈ later, note.merkle_tree_index = coin.merkle_tree_index →
      note.computeCommitment transientHash = coin.computeCommitment transientHash

/-- Additions that return list the notes in order and insert their commitments in order. -/
theorem run_addCoin {state final : ZswapState} {notes : List ShieldedCoinNote}
    (h : run transientHash state (notes.map StoreOp.addCoin) = (.ok (), final)) :
    final.unspent_coins = state.unspent_coins++notes ∧
      MerkleTree.insertAll state.merkle_tree (notes.map (inserted transientHash)) = .ok final.merkle_tree := by
  induction notes generalizing state with
  | nil =>
    cases h
    exact ⟨(List.append_nil _).symm, rfl⟩
  | cons note notes ih =>
    simp only [List.map_cons, run, step, addCoin] at h
    cases hins : state.merkle_tree.insert note.merkle_tree_index (note.computeCommitment transientHash) with
    | error e =>
      rw [hins] at h
      cases h
    | ok tree =>
      rw [hins] at h
      obtain ⟨hcoins, htree⟩ := ih h
      constructor
      · rw [hcoins, List.append_assoc]
        rfl
      · have hfirst : MerkleTree.insertAll state.merkle_tree ((note::notes).map (inserted transientHash)) =
            (state.merkle_tree.insert note.merkle_tree_index (note.computeCommitment transientHash) >>= fun tree =>
              MerkleTree.insertAll tree (notes.map (inserted transientHash))) := rfl
        rw [hfirst, hins, ok_bind]
        exact htree

theorem Standing.lastInserted {notes : List ShieldedCoinNote} {coin : ShieldedCoinNote}
    (h : Standing transientHash notes coin) :
    MerkleTree.lastInserted (notes.map (inserted transientHash)) coin.merkle_tree_index =
      some (coin.computeCommitment transientHash) := by
  obtain ⟨-, earlier, later, rfl, hlater⟩ := h
  have hsplit : ((earlier++coin::later).map (inserted transientHash)).reverse =
      (later.map (inserted transientHash)).reverse++
        inserted transientHash coin::(earlier.map (inserted transientHash)).reverse := by simp
  rw [MerkleTree.lastInserted, hsplit, List.find?_append]
  cases hf : (later.map (inserted transientHash)).reverse.find? (fun p => p.1 = coin.merkle_tree_index) with
  | none => simp [inserted]
  | some p =>
    obtain ⟨note, hnote, rfl⟩ := List.mem_map.mp (List.mem_reverse.mp (List.mem_of_find?_eq_some hf))
    have hfound := List.find?_some hf
    have hindex : note.merkle_tree_index = coin.merkle_tree_index := of_decide_eq_true hfound
    rw [Option.some_or, Option.map_some]
    exact congrArg some (hlater note hnote hindex)

/-- After a run of additions a standing coin has its proof. -/
theorem Standing.proves {notes : List ShieldedCoinNote} {final : ZswapState} {coin : ShieldedCoinNote}
    (h : Standing transientHash notes coin)
    (hrun : run transientHash new (notes.map StoreOp.addCoin) = (.ok (), final)) :
    ∃ path root, path.length = 32 ∧ final.merkle_tree.Proves transientHash coin path root := by
  obtain ⟨-, hins⟩ := run_addCoin transientHash hrun
  obtain ⟨hdepth, hfits, hget⟩ := MerkleTree.insertAll_ok hins
  have hleaf := hget coin.merkle_tree_index
  rw [h.lastInserted, Option.some_or] at hleaf
  have hkey : coin.merkle_tree_index ∈ final.merkle_tree.leaves.keys := by
    apply (Dict.get?_isSome _ _).mp
    rw [hleaf]
    rfl
  have hhigh : coin.merkle_tree_index < 2^final.merkle_tree.depth := by
    obtain ⟨-, earlier, later, rfl, -⟩ := h
    rw [hdepth]
    exact hfits (inserted transientHash coin) (List.mem_map_of_mem (by simp))
  obtain ⟨path, hpath, hlen, hfold⟩ := MerkleTree.foldProof_proof transientHash final.merkle_tree
    coin.merkle_tree_index h.1 hhigh
  have hroot := MerkleTree.root_of_stored transientHash final.merkle_tree hkey h.1 hhigh
  rw [MerkleTree.leafFn_leafNodes, hleaf, Option.map_some, Option.getD_some] at hfold
  exact ⟨path, _, hlen.trans hdepth, hpath, hroot, congrArg FieldElement.toBytes hfold⟩

end ZswapState

namespace TransactionBuilder

/-- A built circuit with the private inputs of a spend is the spend circuit of its coin. -/
theorem buildShieldedTransfer_spend {wallet : MidnightWallet} {to_address : String} {amount : Int}
    {token_type out_nonce change_nonce : Bytes} {tx : TxData}
    (hbuilt : buildShieldedTransfer transientHash wallet to_address amount token_type out_nonce change_nonce = .ok tx)
    {circuit : Circuit} (hmem : circuit ∈ tx.circuits.getD []) {coin : ShieldedCoinNote} {sk : String}
    {merkle_proof : List String} (hspend : circuit.private_inputs = some (.spend coin sk merkle_proof)) :
    spendCircuit transientHash wallet coin = .ok circuit := by
  obtain ⟨spends, decoded, -, hspends, -, rfl⟩ := of_buildShieldedTransfer hbuilt
  rw [Option.getD_some] at hmem
  rcases List.mem_append.mp hmem with hmem | hmem
  · obtain ⟨source, -, hsource⟩ := traverse_mem hspends hmem
    have hcoin : source = coin := by
      obtain ⟨path, root, -, -, rfl⟩ := of_spendCircuit hsource
      exact (PrivateInputs.spend.inj (Option.some.inj hspend)).1
    rwa [← hcoin]
  · -- the other circuits are outputs
    exfalso
    rcases List.mem_cons.mp hmem with rfl | hmem
    · cases hspend
    · rw [mem_changeCircuits hmem] at hspend
      cases hspend

/-- Whatever was added before or after it, a standing coin folds to the root, and so does each spend circuit
built for one. -/
theorem standing_coins_provable (notes : List ShieldedCoinNote) (final : ZswapState)
    (hrun : ZswapState.run transientHash ZswapState.new (notes.map StoreOp.addCoin) = (.ok (), final)) :
    final.unspent_coins = notes ∧
    (∀ coin, ZswapState.Standing transientHash notes coin →
      ∃ path root, path.length = 32 ∧ final.merkle_tree.Proves transientHash coin path root) ∧
    ∀ wallet to_address amount token_type out_nonce change_nonce tx, wallet.shielded_state = final →
      buildShieldedTransfer transientHash wallet to_address amount token_type out_nonce change_nonce = .ok tx →
      ∀ circuit ∈ tx.circuits.getD [], ∀ coin sk merkle_proof,
        circuit.private_inputs = some (.spend coin sk merkle_proof) → ZswapState.Standing transientHash notes coin →
        ∃ path root nullifier, merkle_proof = path.map hexOf ∧
          circuit.public_inputs = some (.spend nullifier (hexOf root)) ∧
          final.merkle_tree.Proves transientHash coin path root := by
  refine ⟨?_, ?_, ?_⟩
  · obtain ⟨hcoins, -⟩ := ZswapState.run_addCoin transientHash hrun
    rw [hcoins]
    rfl
  · intro coin hstands
    exact hstands.proves transientHash hrun
  · intro wallet to_address amount token_type out_nonce change_nonce tx hstate hbuilt circuit hmem coin sk
      merkle_proof hspend hstands
    obtain ⟨path, root, -, hpath, hroot, hfold⟩ := hstands.proves transientHash hrun
    have hcircuit := buildShieldedTransfer_spend transientHash hbuilt hmem hspend
    rw [spendCircuit, hstate, hpath, ok_bind, hroot, ok_bind] at hcircuit
    cases hcircuit
    cases hspend
    exact ⟨path, root, _, rfl, rfl, hpath, hroot, hfold⟩

end TransactionBuilder

/-- The sample coin with another value. -/
def otherCoin : ShieldedCoinNote := { sampleCoin with value := 7 }

/-- The store after two coins were added at one position. -/
def overtaken : ZswapState :=
  (ZswapState.run digitHash ZswapState.new [.addCoin otherCoin, .addCoin sampleCoin]).2

theorem standing_coins_provable_sample :
    ∃ path root, path.length = 32 ∧ overtaken.merkle_tree.Proves digitHash sampleCoin path root :=
  (TransactionBuilder.standing_coins_provable digitHash [otherCoin, sampleCoin] overtaken rfl).2.1 sampleCoin
    ⟨by decide, [otherCoin], [], rfl, by simp⟩

/-- The coin whose position a later note took is still listed, and no longer has a proof. -/
theorem overtaken_coin_unprovable :
    ZswapState.run digitHash ZswapState.new [.addCoin otherCoin, .addCoin sampleCoin] = (.ok (), overtaken) ∧
    otherCoin ∈ overtaken.unspent_coins ∧
    ¬ ∃ path root, overtaken.merkle_tree.Proves digitHash otherCoin path root := by
  refine ⟨rfl, ?_, ?_⟩
  · change otherCoin ∈ [otherCoin, sampleCoin]
    simp
  · intro ⟨path, root, hpath, hroot, hfold⟩
    have hfails : (do
        let path ← overtaken.merkle_tree.proof digitHash otherCoin.merkle_tree_index
        let root ← overtaken.merkle_tree.root digitHash
        return decide ((MerkleTree.foldProof digitHash path otherCoin.merkle_tree_index
          (FieldElement.fromLeBytes (otherCoin.computeCommitment digitHash))).toBytes = root)) =
        (.ok false : Except PyError Bool) := by
      decide +kernel
    rw [hpath, ok_bind, hroot, ok_bind, hfold] at hfails
    simp at hfails

end Noxipher
