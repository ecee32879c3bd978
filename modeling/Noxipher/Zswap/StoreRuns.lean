import Noxipher.Zswap.State
import Mathlib.Algebra.BigOperators.Group.List.Basic
import Mathlib.Tactic.Ring

namespace Noxipher

/-- The two ways a run changes the shielded store. -/
inductive StoreOp where
  | addCoin (note : ShieldedCoinNote)
  | markSpent (nullifier : Bytes)

namespace StoreOp

def added : List StoreOp → List ShieldedCoinNote
  | [] => []
  | addCoin note::ops => note :: added ops
  | markSpent _::ops => added ops

def marked : List StoreOp → List Bytes
  | [] => []
  | addCoin _::ops => marked ops
  | markSpent nullifier::ops => nullifier :: marked ops

end StoreOp

namespace ZswapState

variable (transientHash : List Fr → Fr)

def step (state : ZswapState) : StoreOp → Except PyError Unit × ZswapState
  | .addCoin note => state.addCoin transientHash note
  | .markSpent nullifier => (.ok (), state.markSpent transientHash nullifier)

/-- Run the operations in order; the first exception ends the run. -/
def run (state : ZswapState) : List StoreOp → Except PyError Unit × ZswapState
  | [] => (.ok (), state)
  | op::ops =>
    match step transientHash state op with
    | (.ok _, next) => run next ops
    | (.error e, next) => (.error e, next)

/-- Every added note fits below the upper bound the tree checks. -/
def NotesInRange (depth : Nat) (ops : List StoreOp) : Prop :=
  ∀ note ∈ StoreOp.added ops, 0 ≤ note.merkle_tree_index ∧ note.merkle_tree_index < 2^depth

theorem markSpent_unspent (state : ZswapState) (nullifier : Bytes) :
    (state.markSpent transientHash nullifier).unspent_coins = state.unspent_coins := by
  simp [markSpent, ShieldedCoinNote.computeNullifierSafe]

theorem addCoin_inRange (state : ZswapState) (note : ShieldedCoinNote)
    (h : note.merkle_tree_index < 2^state.merkle_tree.depth) :
    ∃ tree, tree.depth = state.merkle_tree.depth ∧ state.addCoin transientHash note =
      (.ok (), { state with
        unspent_coins := state.unspent_coins ++ [note]
        merkle_tree := tree }) := by
  let commitment := note.computeCommitment transientHash
  let leaves := state.merkle_tree.leaves.set note.merkle_tree_index commitment
  refine ⟨{ state.merkle_tree with leaves := leaves }, rfl, ?_⟩
  simp only [addCoin, MerkleTree.insert_of_lt _ _ commitment h, commitment, leaves]

/-- A whole run appends the added notes in order and never removes one. -/
theorem run_unspent (state : ZswapState) (ops : List StoreOp)
    (h : NotesInRange state.merkle_tree.depth ops) :
    (run transientHash state ops).1 = .ok () ∧
    (run transientHash state ops).2.unspent_coins = state.unspent_coins ++ StoreOp.added ops := by
  induction ops generalizing state with
  | nil => simp [run, StoreOp.added]
  | cons op ops ih =>
    cases op with
    | addCoin note =>
      have hnote := h note (by simp [StoreOp.added])
      obtain ⟨tree, hd, hadd⟩ := addCoin_inRange transientHash state note hnote.2
      have hrest : NotesInRange tree.depth ops := by
        intro n hn
        rw [hd]
        exact h n (by simp [StoreOp.added, hn])
      have ht := ih { state with
        unspent_coins := state.unspent_coins ++ [note]
        merkle_tree := tree } hrest
      simp only [run, step, hadd, StoreOp.added]
      exact ⟨ht.1, by rw [ht.2]; simp⟩
    | markSpent nullifier =>
      have ht := ih (state.markSpent transientHash nullifier) h
      simp only [run, step, StoreOp.added]
      exact ⟨ht.1, by rw [ht.2, markSpent_unspent]⟩

/-- The sum of the values of the notes of one token type. -/
def tokenSum (t : Bytes) (coins : List ShieldedCoinNote) : Int :=
  ((coins.filter (fun c => c.token_type = t)).map ShieldedCoinNote.value).sum

/-- `get_balance(t).get(t, 0)` -/
def balanceOf (state : ZswapState) (t : Bytes) : Int := (state.getBalance (some t)).getD t 0

theorem getBalance_loop (t : Bytes) (coins : List ShieldedCoinNote) (balances : Dict Bytes Int) :
    (coins.foldl (fun (balances : Dict Bytes Int) coin =>
      if some t = none ∨ some t = some coin.token_type then
        balances.set coin.token_type (balances.getD coin.token_type 0 + coin.value)
      else balances) balances).getD t 0 = balances.getD t 0 + tokenSum t coins := by
  induction coins generalizing balances with
  | nil => simp [tokenSum]
  | cons coin coins ih =>
    rw [List.foldl_cons, ih]
    by_cases hc : coin.token_type = t
    · have hset : (balances.set t (balances.getD t 0 + coin.value)).getD t 0 =
          balances.getD t 0 + coin.value := by
        rw [Dict.getD_eq, Dict.get?_set_self]
        rfl
      simp only [hc, or_true, if_true, hset, tokenSum, List.filter_cons, decide_true, List.map_cons,
        List.sum_cons]
      ring
    · have hc' : t ≠ coin.token_type := Ne.symm hc
      simp [hc, hc', tokenSum]

theorem balanceOf_eq (state : ZswapState) (t : Bytes) :
    balanceOf state t = tokenSum t state.unspent_coins := by
  have h := getBalance_loop t state.unspent_coins Dict.empty
  simpa [balanceOf, getBalance, Dict.getD_eq] using h

/-- The notes of a run whose nullifier under the wallet secret was never marked. -/
def expectedUnspent (secret : Int) (ops : List StoreOp) : List ShieldedCoinNote :=
  (StoreOp.added ops).filter
    (fun note => note.computeNullifier transientHash secret ∉ StoreOp.marked ops)

/-- After the run the list and every balance describe exactly the notes not marked spent. -/
def TracksUnspent (secret : Int) (ops : List StoreOp) : Prop :=
  let state := (run transientHash new ops).2
  state.unspent_coins.Perm (expectedUnspent transientHash secret ops) ∧
  ∀ t, balanceOf state t = tokenSum t (expectedUnspent transientHash secret ops)

/-- No marked nullifier belongs to a note of the run. -/
def NothingSpent (secret : Int) (ops : List StoreOp) : Prop :=
  ∀ note ∈ StoreOp.added ops, note.computeNullifier transientHash secret ∉ StoreOp.marked ops

/-- The store follows the chain exactly as long as none of its own notes is marked spent. -/
theorem tracksUnspent_iff_nothingSpent (secret : Int) (ops : List StoreOp)
    (h : NotesInRange 32 ops) :
    TracksUnspent transientHash secret ops ↔ NothingSpent transientHash secret ops := by
  have hrun : (run transientHash new ops).2.unspent_coins = StoreOp.added ops := by
    simpa [new] using (run_unspent transientHash new ops h).2
  constructor
  · intro ht
    have hlen := ht.1.length_eq
    rw [hrun] at hlen
    have hall := List.length_filter_eq_length_iff.mp hlen.symm
    intro note hn
    simpa using hall note hn
  · intro hn
    have hkeep : expectedUnspent transientHash secret ops = StoreOp.added ops := by
      apply List.filter_eq_self.mpr
      intro note hmem
      simpa using hn note hmem
    refine ⟨?_, ?_⟩
    · rw [hrun, hkeep]
    · intro t
      rw [balanceOf_eq, hrun, hkeep]

end ZswapState

/-- A field-valued stand-in for the hash: the elements as digits. -/
def digitHash (xs : List Fr) : Fr := FieldElement.ofNat (xs.foldl (fun a x => 65537*a + x.value) 1)

def sampleCoin : ShieldedCoinNote := ⟨List.replicate 32 0, 1000, List.replicate 32 0, List.replicate 32 1, 5, none⟩

def sampleSpend : List StoreOp :=
  [.addCoin sampleCoin, .markSpent (sampleCoin.computeNullifier digitHash 7)]

theorem tracksUnspent_iff_sample :
    ZswapState.NotesInRange 32 sampleSpend ∧
    (ZswapState.TracksUnspent digitHash 7 sampleSpend ↔ ZswapState.NothingSpent digitHash 7 sampleSpend) := by
  have h : ZswapState.NotesInRange 32 sampleSpend := by
    intro note hn
    simp only [sampleSpend, StoreOp.added, List.mem_singleton] at hn
    rw [hn]
    decide
  exact ⟨h, ZswapState.tracksUnspent_iff_nothingSpent digitHash 7 sampleSpend h⟩

/-- The coin whose own nullifier was marked is still listed, so the store does not track it. -/
theorem marked_coin_stays :
    (ZswapState.run digitHash ZswapState.new sampleSpend).2.unspent_coins = [sampleCoin] ∧
    ZswapState.expectedUnspent digitHash 7 sampleSpend = [] ∧
    ¬ ZswapState.TracksUnspent digitHash 7 sampleSpend := by
  have hlist : (ZswapState.run digitHash ZswapState.new sampleSpend).2.unspent_coins = [sampleCoin] := by
    rfl
  have hexp : ZswapState.expectedUnspent digitHash 7 sampleSpend = [] := by
    simp [ZswapState.expectedUnspent, sampleSpend, StoreOp.added, StoreOp.marked]
  refine ⟨hlist, hexp, ?_⟩
  intro ht
  have hperm := ht.1
  rw [hlist, hexp] at hperm
  exact absurd hperm.length_eq (by decide)

end Noxipher
