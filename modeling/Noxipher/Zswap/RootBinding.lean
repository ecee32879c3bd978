import Noxipher.Zswap.MerkleProof

namespace Noxipher.MerkleTree

variable (transientHash : List Fr → Fr)

/-- What `root` reads at a position of a level: the stored node, or the precomputed zero node. -/
def nodeAt (tree : MerkleTree) (level : Nat) (i : Int) : Fr :=
  (rootNodes transientHash tree.leafNodes level).getD i (zeroVal transientHash level)

/-- The two nodes below position `k`, which are hashed for it. -/
def childPair (tree : MerkleTree) (level : Nat) (k : Int) : List Fr :=
  [nodeAt transientHash tree level (2*k), nodeAt transientHash tree level (2*k+1)]

/-- The field element at an index; an absent leaf counts as zero. -/
def leafAt (tree : MerkleTree) (i : Int) : Fr := leafFn tree.leafNodes i

theorem nodeAt_eq_fullNode (tree : MerkleTree) (level : Nat) (i : Int) :
    nodeAt transientHash tree level i = fullNode transientHash tree.leafNodes level i := by
  have hs := rootNodes_stands transientHash tree.leafNodes level
  exact hs.getD_zeroVal transientHash i

/-- Two trees of one depth with one root hold the same leaves, or the hash collides on two different pairs
of nodes of the two trees. -/
theorem equal_roots_leaves_or_collision (tree other : MerkleTree) (hdepth : other.depth = tree.depth)
    (htree : tree.InRange) (hother : other.InRange)
    (hroot : tree.root transientHash = other.root transientHash) :
    (∀ i, 0 ≤ i → i < 2^tree.depth → leafAt tree i = leafAt other i) ∨
    ∃ level < tree.depth, ∃ k, 0 ≤ k ∧ k < 2^(tree.depth-1-level) ∧
      childPair transientHash tree level k ≠ childPair transientHash other level k ∧
      transientHash (childPair transientHash tree level k) = transientHash (childPair transientHash other level k) := by
  rw [root_eq_fullNode transientHash tree htree, root_eq_fullNode transientHash other hother, hdepth] at hroot
  have htop : fullNode transientHash tree.leafNodes tree.depth 0 =
      fullNode transientHash other.leafNodes tree.depth 0 := by
    apply FieldElement.toBytes_injective Fr.modulus_le
    exact Except.ok.inj hroot
  rcases HashTree.leaves_or_collision (pairHash transientHash) (leafFn tree.leafNodes) (leafFn other.leafNodes)
    tree.depth 0 htop with hleaves | ⟨level, hlevel, k, hk, hne, hhash⟩
  · left
    intro i hlow hhigh
    exact hleaves i (below_top.mpr ⟨hlow, hhigh⟩)
  · obtain ⟨hlow, hhigh⟩ := below_top.mp hk
    refine Or.inr ⟨level, hlevel, k, hlow, hhigh, ?_, ?_⟩
    · intro he
      simp only [childPair, nodeAt_eq_fullNode, List.cons.injEq, and_true] at he
      exact hne (Prod.ext he.1 he.2)
    · simp only [childPair, nodeAt_eq_fullNode]
      exact hhash

/-- A single leaf at index zero of a depth-two tree. -/
def oneLeaf (leaf : Bytes) : MerkleTree := ⟨2, Dict.ofList [(0, leaf)]⟩

/-- A hash that keeps only its second argument loses the leaf at index zero. -/
theorem equal_roots_sample :
    let keepsLast : List Fr → Fr := fun xs => xs.getLastD (FieldElement.ofNat 0)
    (∀ i, 0 ≤ i → i < 2^2 → leafAt (oneLeaf [7]) i = leafAt (oneLeaf [8]) i) ∨
    ∃ level < 2, ∃ k, 0 ≤ k ∧ k < 2^(2-1-level) ∧
      childPair keepsLast (oneLeaf [7]) level k ≠ childPair keepsLast (oneLeaf [8]) level k ∧
      keepsLast (childPair keepsLast (oneLeaf [7]) level k) = keepsLast (childPair keepsLast (oneLeaf [8]) level k) := by
  intro keepsLast
  have hrange (leaf : Bytes) : (oneLeaf leaf).InRange := by
    intro i hi
    have h0 : i = 0 := by simpa [oneLeaf, Dict.ofList, Dict.mem_keys_set] using hi
    rw [h0]
    change (0 : Int) ≤ 0 ∧ (0 : Int) < 2^2
    decide
  exact equal_roots_leaves_or_collision keepsLast (oneLeaf [7]) (oneLeaf [8]) rfl (hrange [7]) (hrange [8])
    (by decide +kernel)

end Noxipher.MerkleTree
