import Noxipher.Core.Errors
import Noxipher.Library.Dict
import Noxipher.Zswap.Notes
import Mathlib.Data.Finset.Insert

namespace Noxipher

/-- Commitment tree: the depth and the inserted commitments by index. -/
structure MerkleTree where
  depth : Nat
  leaves : Dict Int Bytes

namespace MerkleTree

variable (transientHash : List Fr → Fr)

/-- `_zero_nodes[level]`: each level hashes the one below with itself. -/
def zeroNode : Nat → Bytes
  | 0 => List.replicate 32 0
  | i+1 =>
    let f_val : Fr := FieldElement.fromLeBytes (zeroNode i)
    (transientHash [f_val, f_val]).toBytes

/-- `Fr.from_le_bytes(self._zero_nodes[level])` -/
def zeroVal (level : Nat) : Fr := FieldElement.fromLeBytes (zeroNode transientHash level)

def new (depth : Nat) : MerkleTree := ⟨depth, Dict.empty⟩

/-- Only the upper bound is checked. -/
def insert (tree : MerkleTree) (index : Int) (commitment : Bytes) : Except PyError MerkleTree :=
  if index ≥ 2^tree.depth then
    .error (.valueError s!"Index {index} out of bounds for depth {tree.depth}")
  else .ok { tree with leaves := tree.leaves.set index commitment }

theorem insert_of_lt (tree : MerkleTree) (index : Int) (commitment : Bytes)
    (h : index < 2^tree.depth) :
    tree.insert index commitment = .ok { tree with leaves := tree.leaves.set index commitment } :=
  if_neg (by omega)

/-- The leaves read as field elements. -/
def leafNodes (tree : MerkleTree) : Dict Int Fr := tree.leaves.mapValues FieldElement.fromLeBytes

def parentHash (level : Nat) (nodes : Dict Int Fr) (p_idx : Int) : Fr :=
  let left_idx := p_idx*2
  let right_idx := left_idx+1
  transientHash [nodes.getD left_idx (zeroVal transientHash level),
    nodes.getD right_idx (zeroVal transientHash level)]

/-- One round of `root`: the set of parent indices is taken first, then each is hashed. -/
def nextNodes (level : Nat) (current_nodes : Dict Int Fr) : Dict Int Fr :=
  let parent_indices := (current_nodes.keys.map (· / 2)).dedup
  parent_indices.foldl (fun d p => d.set p (parentHash transientHash level current_nodes p)) Dict.empty

def rootNodes (nodes : Dict Int Fr) : Nat → Dict Int Fr
  | 0 => nodes
  | level+1 => nextNodes transientHash level (rootNodes nodes level)

def root (tree : MerkleTree) : Except PyError Bytes :=
  if tree.leaves.entries.isEmpty then .ok (zeroNode transientHash tree.depth)
  else do
    let top ← required "0" ((rootNodes transientHash tree.leafNodes tree.depth).get? 0)
    return top.toBytes

/-- One level of `proof`: a parent is hashed when its first child is met. -/
def proofUp (level : Nat) (nodes : Dict Int Fr) : Dict Int Fr :=
  nodes.keys.foldl (fun above idx =>
    let p_idx := idx/2
    if (above.get? p_idx).isSome then above
    else above.set p_idx (parentHash transientHash level nodes p_idx)) Dict.empty

def treeNodes (nodes : Dict Int Fr) : Nat → Dict Int Fr
  | 0 => nodes
  | level+1 => proofUp transientHash level (treeNodes nodes level)

/-- The sibling loop of `proof` from `level` upwards, `n` levels still to go. -/
def proofPath (nodes : Dict Int Fr) : Nat → Nat → Int → List Bytes
  | 0, _, _ => []
  | n+1, level, curr =>
    let sibling_idx := if curr % 2 = 0 then curr+1 else curr-1
    let sibling_val := (treeNodes transientHash nodes level).getD sibling_idx (zeroVal transientHash level)
    sibling_val.toBytes :: proofPath nodes n (level+1) (curr/2)

def proof (tree : MerkleTree) (index : Int) : Except PyError (List Bytes) :=
  if index ≥ 2^tree.depth then .error (.valueError s!"Index {index} out of bounds")
  else .ok (proofPath transientHash tree.leafNodes tree.depth 0 index)

end MerkleTree

/-- Local shielded state of a wallet. -/
structure ZswapState where
  unspent_coins : List ShieldedCoinNote
  spent_nullifiers : Finset Bytes
  merkle_tree : MerkleTree

namespace ZswapState

variable (transientHash : List Fr → Fr)

def new : ZswapState := ⟨[], ∅, MerkleTree.new 32⟩

/-- The coin is appended before the tree insertion, which may raise. -/
def addCoin (state : ZswapState) (note : ShieldedCoinNote) : Except PyError Unit × ZswapState :=
  let appended := { state with unspent_coins := state.unspent_coins ++ [note] }
  match appended.merkle_tree.insert note.merkle_tree_index (note.computeCommitment transientHash) with
  | .ok tree => (.ok (), { appended with merkle_tree := tree })
  | .error e => (.error e, appended)

/-- The filter asks each coin for a nullifier without passing the secret. -/
def markSpent (state : ZswapState) (nullifier : Bytes) : ZswapState :=
  { state with
    spent_nullifiers := insert nullifier state.spent_nullifiers
    unspent_coins := state.unspent_coins.filter
      (fun c => c.computeNullifierSafe transientHash none ≠ some nullifier) }

/-- `None` keeps every token type. -/
def getBalance (state : ZswapState) (token_type : Option Bytes) : Dict Bytes Int :=
  state.unspent_coins.foldl (fun balances coin =>
    if token_type = none ∨ token_type = some coin.token_type then
      balances.set coin.token_type (balances.getD coin.token_type 0 + coin.value)
    else balances) Dict.empty

end ZswapState

end Noxipher
