import Noxipher.Zswap.Bounds
import Noxipher.Zswap.StoreRuns

namespace Noxipher.ZswapState

variable (transientHash : List Fr → Fr)

/-- The coin is listed, and its commitment is stored at its index. -/
def Contains (state : ZswapState) (note : ShieldedCoinNote) : Prop :=
  note ∈ state.unspent_coins ∧
  state.merkle_tree.leaves.get? note.merkle_tree_index = some (note.computeCommitment transientHash)

/-- Coins, balances and tree are those of the other state. -/
structure SameStore (state other : ZswapState) : Prop where
  unspent_coins : state.unspent_coins = other.unspent_coins
  balances : ∀ token_type, state.getBalance token_type = other.getBalance token_type
  merkle_tree : state.merkle_tree = other.merkle_tree

/-- Adding a coin either raises and changes nothing, or puts the coin into both structures. -/
def AddsAtomically (state : ZswapState) (note : ShieldedCoinNote) : Prop :=
  match state.addCoin transientHash note with
  | (.error _, left) => SameStore left state
  | (.ok _, left) => left.Contains transientHash note

/-- Every coin of a run is added atomically; an exception is caught and the run goes on with what it left. -/
def AtomicRun : ZswapState → List StoreOp → Prop
  | _, [] => True
  | state, .addCoin note::ops =>
    state.AddsAtomically transientHash note ∧ AtomicRun (state.step transientHash (.addCoin note)).2 ops
  | state, .markSpent nullifier::ops => AtomicRun (state.step transientHash (.markSpent nullifier)).2 ops

/-- A coin whose index is too large is refused after it was listed. -/
theorem addCoin_outOfRange {state : ZswapState} {note : ShieldedCoinNote}
    (h : 2^state.merkle_tree.depth ≤ note.merkle_tree_index) :
    ∃ msg, state.addCoin transientHash note =
      (.error (.valueError msg), { state with unspent_coins := state.unspent_coins++[note] }) := by
  obtain ⟨msg, hraise⟩ := MerkleTree.insert_raises (note.computeCommitment transientHash) h
  refine ⟨msg, ?_⟩
  unfold addCoin
  simp only [hraise]

theorem addsAtomically_iff {state : ZswapState} {note : ShieldedCoinNote} :
    state.AddsAtomically transientHash note ↔ note.merkle_tree_index < 2^state.merkle_tree.depth := by
  unfold AddsAtomically
  rcases lt_or_ge note.merkle_tree_index (2^state.merkle_tree.depth) with hlt | hge
  · refine iff_of_true ?_ hlt
    rw [addCoin]
    simp only [MerkleTree.insert_of_lt _ _ (note.computeCommitment transientHash) hlt]
    refine ⟨by simp, ?_⟩
    exact Dict.get?_set_self _ _ _
  · obtain ⟨msg, hadd⟩ := addCoin_outOfRange transientHash hge
    rw [hadd]
    refine iff_of_false ?_ (not_lt.mpr hge)
    intro hsame
    have hlength := congrArg List.length hsame.unspent_coins
    simp at hlength

/-- No operation changes the depth of the tree. -/
theorem step_depth (state : ZswapState) (op : StoreOp) :
    (state.step transientHash op).2.merkle_tree.depth = state.merkle_tree.depth := by
  cases op with
  | addCoin note =>
    rcases lt_or_ge note.merkle_tree_index (2^state.merkle_tree.depth) with hlt | hge
    · obtain ⟨tree, hdepth, hadd⟩ := addCoin_inRange transientHash state note hlt
      rw [step, hadd]
      exact hdepth
    · obtain ⟨msg, hadd⟩ := addCoin_outOfRange transientHash hge
      rw [step, hadd]
  | markSpent nullifier => rfl

/-- In a run from any state every coin is added atomically exactly when no index is too large for the tree. -/
theorem atomicRun_iff (state : ZswapState) (ops : List StoreOp) :
    state.AtomicRun transientHash ops ↔
      ∀ note ∈ StoreOp.added ops, note.merkle_tree_index < 2^state.merkle_tree.depth := by
  induction ops generalizing state with
  | nil => simp [AtomicRun, StoreOp.added]
  | cons op ops ih =>
    cases op with
    | addCoin note =>
      rw [AtomicRun, addsAtomically_iff, ih, step_depth, StoreOp.added, List.forall_mem_cons]
    | markSpent nullifier => rw [AtomicRun, ih, step_depth, StoreOp.added]

/-- The refused coin stays in the list and in the balance of its token, and the tree is empty. -/
theorem refused_coin_listed :
    let note : ShieldedCoinNote := { sampleCoin with merkle_tree_index := 2^32 }
    let left := new.addCoin digitHash note
    (∃ msg, left.1 = .error (.valueError msg)) ∧ left.2.unspent_coins = [note] ∧ left.2.merkle_tree.leaves.keys = [] ∧
      left.2.balanceOf note.token_type = 1000 ∧ new.balanceOf note.token_type = 0 ∧
      ¬ new.AtomicRun digitHash [.addCoin note] := by
  intro note left
  have hlarge : (2^new.merkle_tree.depth : Int) ≤ note.merkle_tree_index := le_refl _
  obtain ⟨msg, hadd⟩ := addCoin_outOfRange digitHash hlarge
  have hleft : left = (.error (.valueError msg), { new with unspent_coins := [note] }) := hadd
  rw [hleft]
  refine ⟨⟨msg, rfl⟩, rfl, rfl, rfl, rfl, ?_⟩
  rw [atomicRun_iff]
  intro h
  exact absurd (h note (by simp [StoreOp.added])) (not_lt.mpr hlarge)

end Noxipher.ZswapState
