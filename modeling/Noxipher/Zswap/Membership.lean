import Noxipher.Zswap.DenseRoot
import Noxipher.Zswap.RootBinding

namespace Noxipher.MerkleTree

variable (transientHash : List Fr → Fr)

/-- The pairs hashed while a proof is folded, from the leaf upwards. -/
def foldPairs (path : List Bytes) (index : Int) (leaf : Fr) : List (List Fr) :=
  (HashTree.rungs (pairHash transientHash) (path.map FieldElement.fromLeBytes) index leaf).map
    (fun pair => [pair.1, pair.2])

/-- Every root that is returned is the one of the full tree, whatever indices are stored. -/
theorem root_ok_fullNode {tree : MerkleTree} {root : Bytes} (h : tree.root transientHash = .ok root) :
    root = (fullNode transientHash tree.leafNodes tree.depth 0).toBytes := by
  by_cases hstored : ∃ i ∈ tree.leaves.keys, 0 ≤ i ∧ i < 2^tree.depth
  · obtain ⟨i, hi, hlow, hhigh⟩ := hstored
    rw [root_of_stored transientHash tree hi hlow hhigh] at h
    exact (Except.ok.inj h).symm
  · by_cases hempty : tree.leaves.entries = []
    · have hrange : tree.InRange := by
        intro i hi
        simp [Dict.keys, hempty] at hi
      rw [root_eq_fullNode transientHash tree hrange] at h
      exact (Except.ok.inj h).symm
    · rw [root_of_none_stored transientHash tree hempty (fun i hi hin => hstored ⟨i, hi, hin⟩)] at h
      cases h

theorem childPair_eq_children (tree : MerkleTree) (level : Nat) (k : Int) :
    childPair transientHash tree level k =
      [(HashTree.children (pairHash transientHash) (leafFn tree.leafNodes) level k).1,
        (HashTree.children (pairHash transientHash) (leafFn tree.leafNodes) level k).2] := by
  simp only [childPair, nodeAt_eq_fullNode]
  rfl

/-- A proof that is accepted under a root of a tree was made for the leaf at its index and carries the siblings of the
tree, or one of the pairs hashed by the verifier collides with the pair of the tree in the same place. -/
theorem accepted_proof_genuine (tree : MerkleTree) (index : Int) (path : List Bytes) (leaf : Fr)
    (hindex : 0 ≤ index ∧ index < 2^tree.depth) (hlength : path.length = tree.depth)
    (hroot : tree.root transientHash = .ok (foldProof transientHash path index leaf).toBytes) :
    (leaf = leafAt tree index ∧ ∃ own, tree.proof transientHash index = .ok own ∧
      path.map (FieldElement.fromLeBytes : Bytes → Fr) = own.map FieldElement.fromLeBytes) ∨
    ∃ (level : Nat) (pair : List Fr), (foldPairs transientHash path index leaf)[level]? = some pair ∧
      pair ≠ childPair transientHash tree level (index/2^(level+1)) ∧
      transientHash pair = transientHash (childPair transientHash tree level (index/2^(level+1))) := by
  have htop := FieldElement.toBytes_injective Fr.modulus_le _ _ (root_ok_fullNode transientHash hroot)
  have hclimb : HashTree.climb (pairHash transientHash) (path.map FieldElement.fromLeBytes) index leaf =
      HashTree.node (pairHash transientHash) (leafFn tree.leafNodes)
        (0+(path.map (FieldElement.fromLeBytes : Bytes → Fr)).length)
        (index/2^(path.map (FieldElement.fromLeBytes : Bytes → Fr)).length) := by
    rw [List.length_map, hlength, below_top.mpr hindex, Nat.zero_add]
    exact htop
  rcases HashTree.climb_pins_or_collision (pairHash transientHash) (leafFn tree.leafNodes) _ 0 index leaf hclimb with
    ⟨hleaf, hpath⟩ | ⟨level, pair, hpair, hne, hhash⟩
  · obtain ⟨own, hown, -, -⟩ := foldProof_proof transientHash tree index hindex.1 hindex.2
    refine Or.inl ⟨hleaf, own, hown, ?_⟩
    rw [proof, if_neg (by omega)] at hown
    cases hown
    rw [hpath, List.length_map, hlength, proofPath_siblings]
  · rw [Nat.zero_add] at hne hhash
    refine Or.inr ⟨level, [pair.1, pair.2], ?_, ?_, ?_⟩
    · rw [foldPairs, List.getElem?_map, hpair]
      rfl
    · rw [childPair_eq_children]
      intro he
      simp only [List.cons.injEq, and_true] at he
      exact hne (Prod.ext he.1 he.2)
    · rw [childPair_eq_children]
      exact hhash

/-- The proof of an absent leaf of a small tree, read back. -/
theorem accepted_proof_genuine_sample :
    let firstOf : List Fr → Fr := fun xs => xs.headD (FieldElement.ofNat 0)
    let tree : MerkleTree := ⟨2, Dict.ofList [(0, [7])]⟩
    let path : List Bytes := [List.replicate 32 0, [7]]
    (FieldElement.ofNat 0 = leafAt tree 2 ∧ ∃ own, tree.proof firstOf 2 = .ok own ∧
      path.map (FieldElement.fromLeBytes : Bytes → Fr) = own.map FieldElement.fromLeBytes) ∨
    ∃ (level : Nat) (pair : List Fr), (foldPairs firstOf path 2 (FieldElement.ofNat 0))[level]? = some pair ∧
      pair ≠ childPair firstOf tree level (2/2^(level+1)) ∧
      firstOf pair = firstOf (childPair firstOf tree level (2/2^(level+1))) := by
  intro firstOf tree path
  exact accepted_proof_genuine firstOf tree 2 path (FieldElement.ofNat 0) (by decide) rfl (by decide +kernel)

end Noxipher.MerkleTree
