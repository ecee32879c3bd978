import Noxipher.Library.Outcome
import Noxipher.Library.HashTree
import Noxipher.Zswap.State

namespace Noxipher.MerkleTree

variable (transientHash : List Fr → Fr)

def pairHash (left right : Fr) : Fr := transientHash [left, right]

theorem zeroVal_eq_blank (level : Nat) :
    zeroVal transientHash level = HashTree.blank (pairHash transientHash) (FieldElement.ofNat 0) level := by
  induction level with
  | zero => rfl
  | succ l ih =>
    have hstep : zeroVal transientHash (l+1) =
        pairHash transientHash (zeroVal transientHash l) (zeroVal transientHash l) := by
      simp only [zeroVal, zeroNode, Fr.fromLeBytes_toBytes, pairHash]
    rw [hstep, ih, HashTree.blank]

/-- Both constructions of the next level: parents of present nodes, hashed over zero defaults. -/
def IsUp (level : Nat) (nodes above : Dict Int Fr) : Prop :=
  ∀ p, above.get? p =
    if p ∈ nodes.keys.map (· / 2) then some (parentHash transientHash level nodes p) else none

theorem nextNodes_isUp (level : Nat) (nodes : Dict Int Fr) :
    IsUp transientHash level nodes (nextNodes transientHash level nodes) := by
  intro p
  have hfill := Dict.get?_foldl_set id (parentHash transientHash level nodes)
    (nodes.keys.map (· / 2)).dedup Dict.empty p (fun i _ j _ h => congrArg _ h)
  refine hfill.trans ?_
  have hmem : p ∈ (nodes.keys.map (· / 2)).dedup ↔ p ∈ nodes.keys.map (· / 2) := List.mem_dedup
  split
  · rename_i i hi
    have hip : i = p := by simpa using List.find?_some hi
    have hm := hmem.mp (hip ▸ List.mem_of_find?_eq_some hi)
    rw [if_pos hm, hip]
  · rename_i hn
    have hm : p ∉ nodes.keys.map (· / 2) := by
      intro h
      have hp := List.find?_eq_none.mp hn p (hmem.mpr h)
      simp at hp
    rw [if_neg hm]
    rfl

/-- The guarded loop of `proof` fills exactly the parents of the indices met so far. -/
theorem proofUp_loop (level : Nat) (nodes : Dict Int Fr) (met rest : List Int) (above : Dict Int Fr)
    (h : ∀ p, above.get? p =
      if p ∈ met.map (· / 2) then some (parentHash transientHash level nodes p) else none) :
    ∀ p, (rest.foldl (fun above idx =>
      let p_idx := idx/2
      if (above.get? p_idx).isSome then above
      else above.set p_idx (parentHash transientHash level nodes p_idx)) above).get? p =
        if p ∈ (met++rest).map (· / 2) then some (parentHash transientHash level nodes p) else none := by
  induction rest generalizing met above with
  | nil => simpa using h
  | cons idx rest ih =>
    have hsplit : met++idx::rest = (met++[idx])++rest := by simp
    rw [hsplit, List.foldl_cons]
    apply ih
    intro p
    by_cases hmet : idx/2 ∈ met.map (· / 2)
    · have hsome : (above.get? (idx/2)).isSome := by rw [h, if_pos hmet]; rfl
      have hiff : p ∈ (met++[idx]).map (· / 2) ↔ p ∈ met.map (· / 2) := by
        simp only [List.map_append, List.map_cons, List.map_nil, List.mem_append, List.mem_singleton]
        constructor
        · intro hp
          rcases hp with hp | hp
          · exact hp
          · exact hp ▸ hmet
        · exact Or.inl
      simp only [hsome, if_true, h p, hiff]
    · have hnone : (above.get? (idx/2)).isSome = false := by rw [h, if_neg hmet]; rfl
      simp only [hnone, Bool.false_eq_true, if_false, Dict.get?_set]
      by_cases hp : idx/2 = p
      · simp [hp]
      · have hp' : p ≠ idx/2 := Ne.symm hp
        simp [hp, hp', h p]

theorem proofUp_isUp (level : Nat) (nodes : Dict Int Fr) :
    IsUp transientHash level nodes (proofUp transientHash level nodes) := by
  have h := proofUp_loop transientHash level nodes [] nodes.keys Dict.empty (fun p => by simp)
  simpa [IsUp, proofUp] using h

/-- The full tree of which both sparse constructions are a part. -/
def leafFn (nodes : Dict Int Fr) (i : Int) : Fr := nodes.getD i (FieldElement.ofNat 0)

def fullNode (nodes : Dict Int Fr) : Nat → Int → Fr :=
  HashTree.node (pairHash transientHash) (leafFn nodes)

def StandsAt (leaves : Dict Int Fr) (level : Nat) (nodes : Dict Int Fr) : Prop :=
  HashTree.Stands (pairHash transientHash) (FieldElement.ofNat 0) (leafFn leaves) level nodes.get?

theorem StandsAt.getD_zeroVal {leaves nodes : Dict Int Fr} {level : Nat}
    (h : StandsAt transientHash leaves level nodes) (i : Int) :
    nodes.getD i (zeroVal transientHash level) = fullNode transientHash leaves level i := by
  rw [Dict.getD_eq, zeroVal_eq_blank]
  exact h i

theorem StandsAt.up {leaves nodes above : Dict Int Fr} {level : Nat}
    (h : StandsAt transientHash leaves level nodes) (hup : IsUp transientHash level nodes above) :
    StandsAt transientHash leaves (level+1) above := by
  apply HashTree.Stands.up (pairHash transientHash) _ _ level nodes.get? above.get? h
  · intro p hp
    have hnot : p ∉ nodes.keys.map (· / 2) := by
      intro hm
      rw [hup p, if_pos hm] at hp
      cases hp
    have habsent (j : Int) (hj : j/2 = p) : nodes.get? j = none := by
      apply (Dict.get?_eq_none nodes j).mpr
      intro hk
      exact hnot (List.mem_map.mpr ⟨j, hk, hj⟩)
    exact ⟨habsent (2*p) (by omega), habsent (2*p+1) (by omega)⟩
  · intro p x hx
    rw [hup p] at hx
    split_ifs at hx
    have hval := Option.some.inj hx
    have hl : p*2 = 2*p := by omega
    simp only [← hval, parentHash, hl, Dict.getD_eq, zeroVal_eq_blank, pairHash]

theorem rootNodes_stands (leaves : Dict Int Fr) (level : Nat) :
    StandsAt transientHash leaves level (rootNodes transientHash leaves level) := by
  induction level with
  | zero => intro i; rfl
  | succ l ih => exact ih.up transientHash (nextNodes_isUp transientHash l _)

theorem treeNodes_stands (leaves : Dict Int Fr) (level : Nat) :
    StandsAt transientHash leaves level (treeNodes transientHash leaves level) := by
  induction level with
  | zero => intro i; rfl
  | succ l ih => exact ih.up transientHash (proofUp_isUp transientHash l _)

theorem mem_rootNodes (leaves : Dict Int Fr) (level : Nat) (k : Int) :
    k ∈ (rootNodes transientHash leaves level).keys ↔ ∃ j ∈ leaves.keys, j/2^level = k := by
  induction level generalizing k with
  | zero => simp [rootNodes]
  | succ l ih =>
    have hdiv (j : Int) : j/2^(l+1) = j/2^l/2 := by
      rw [pow_succ, Int.ediv_ediv_of_nonneg (by positivity)]
    have hup := nextNodes_isUp transientHash l (rootNodes transientHash leaves l) k
    have hkeys : k ∈ (rootNodes transientHash leaves (l+1)).keys ↔
        k ∈ (rootNodes transientHash leaves l).keys.map (· / 2) := by
      rw [← Dict.get?_isSome, rootNodes, hup]
      split_ifs with h <;> simp [h]
    rw [hkeys, List.mem_map]
    constructor
    · intro ⟨i, hi, hik⟩
      obtain ⟨j, hj, hji⟩ := (ih i).mp hi
      exact ⟨j, hj, by rw [hdiv, hji, hik]⟩
    · intro ⟨j, hj, hjk⟩
      exact ⟨j/2^l, (ih _).mpr ⟨j, hj, rfl⟩, by rw [← hdiv, hjk]⟩

/-- The indices below one node at the top are those of the tree. -/
theorem below_top {depth : Nat} {i : Int} : i/2^depth = 0 ↔ 0 ≤ i ∧ i < 2^depth := by
  have hpos : (0 : Int) < 2^depth := by positivity
  constructor
  · intro h
    have hsplit := Int.emod_add_mul_ediv i (2^depth)
    have hlow := Int.emod_nonneg i (ne_of_gt hpos)
    have hhigh := Int.emod_lt_of_pos i hpos
    rw [h, mul_zero, add_zero] at hsplit
    rw [← hsplit]
    exact ⟨hlow, hhigh⟩
  · intro ⟨hlow, hhigh⟩
    exact Int.ediv_eq_zero_of_lt hlow hhigh

/-- Every stored index addresses a leaf of the tree. -/
def InRange (tree : MerkleTree) : Prop := ∀ i ∈ tree.leaves.keys, 0 ≤ i ∧ i < 2^tree.depth

/-- A commitment stored at an index inside the tree. -/
theorem InRange.set {tree : MerkleTree} (h : tree.InRange) {index : Int} (commitment : Bytes) (hlow : 0 ≤ index)
    (hhigh : index < 2^tree.depth) : InRange { tree with leaves := tree.leaves.set index commitment } := by
  intro i hi
  rcases (Dict.mem_keys_set _ _ _ _).mp hi with he | hi
  · rw [he]
    exact ⟨hlow, hhigh⟩
  · exact h i hi

/-- One stored index inside the tree is enough for the sparse root to be that of the full tree. -/
theorem root_of_stored (tree : MerkleTree) {i : Int} (hi : i ∈ tree.leaves.keys) (hlow : 0 ≤ i)
    (hhigh : i < 2^tree.depth) :
    tree.root transientHash = .ok (fullNode transientHash tree.leafNodes tree.depth 0).toBytes := by
  have hs := rootNodes_stands transientHash tree.leafNodes tree.depth 0
  have hkey : (0 : Int) ∈ (rootNodes transientHash tree.leafNodes tree.depth).keys := by
    apply (mem_rootNodes transientHash _ _ 0).mpr
    exact ⟨i, by simpa [leafNodes] using hi, Int.ediv_eq_zero_of_lt hlow hhigh⟩
  obtain ⟨top, htop⟩ := Option.isSome_iff_exists.mp ((Dict.get?_isSome _ _).mpr hkey)
  have hempty : tree.leaves.entries.isEmpty = false := by
    obtain ⟨p, hp, -⟩ := List.mem_map.mp hi
    exact List.isEmpty_eq_false_iff_exists_mem.mpr ⟨p, hp⟩
  rw [htop, Option.getD_some] at hs
  unfold root
  simp only [hempty, Bool.false_eq_true, if_false, htop, required_some, ok_bind, pure, Except.pure, hs]
  rfl

/-- Without a stored index inside the tree the top level has no node to read. -/
theorem root_of_none_stored (tree : MerkleTree) (hempty : tree.leaves.entries ≠ [])
    (h : ∀ i ∈ tree.leaves.keys, ¬ (0 ≤ i ∧ i < 2^tree.depth)) :
    tree.root transientHash = .error (.keyError "0") := by
  have hnone : (rootNodes transientHash tree.leafNodes tree.depth).get? 0 = none := by
    apply (Dict.get?_eq_none _ _).mpr
    intro hmem
    obtain ⟨i, hi, htop⟩ := (mem_rootNodes transientHash _ _ 0).mp hmem
    exact h i (by simpa [leafNodes] using hi) (below_top.mp htop)
  have hsome : tree.leaves.entries.isEmpty = false := by simpa using hempty
  unfold root
  rw [hsome, hnone]
  rfl

/-- The sparse root is the root of the full tree. -/
theorem root_eq_fullNode (tree : MerkleTree) (h : tree.InRange) :
    tree.root transientHash = .ok (fullNode transientHash tree.leafNodes tree.depth 0).toBytes := by
  by_cases hempty : tree.leaves.entries = []
  · have hs := rootNodes_stands transientHash tree.leafNodes tree.depth 0
    have hblank : zeroNode transientHash tree.depth = (zeroVal transientHash tree.depth).toBytes := by
      cases tree.depth with
      | zero => simp [zeroNode, zeroVal]; decide
      | succ d => simp [zeroNode, zeroVal]
    have hkey : (rootNodes transientHash tree.leafNodes tree.depth).get? 0 = none := by
      have hk : tree.leafNodes.keys = [] := by simp [leafNodes, Dict.keys, Dict.mapValues, hempty]
      rw [Dict.get?_eq_none, mem_rootNodes, hk]
      simp
    rw [hkey, Option.getD_none, ← zeroVal_eq_blank] at hs
    rw [root, hempty, if_pos List.isEmpty_nil, hblank, hs]
    rfl
  · obtain ⟨p, hp⟩ := List.exists_mem_of_ne_nil tree.leaves.entries hempty
    have hmem : p.1 ∈ tree.leaves.keys := List.mem_map.mpr ⟨p, hp, rfl⟩
    obtain ⟨hlow, hhigh⟩ := h p.1 hmem
    exact root_of_stored transientHash tree hmem hlow hhigh

/-- The published siblings are those of the full tree. -/
theorem proofPath_siblings (nodes : Dict Int Fr) (n level : Nat) (curr : Int) :
    (proofPath transientHash nodes n level curr).map FieldElement.fromLeBytes =
      HashTree.siblings (pairHash transientHash) (leafFn nodes) n level curr := by
  induction n generalizing level curr with
  | zero => rfl
  | succ n ih =>
    have hs := (treeNodes_stands transientHash nodes level).getD_zeroVal transientHash
      (HashTree.sibling curr)
    simp only [HashTree.sibling] at hs
    simp only [proofPath, List.map_cons, ih, HashTree.siblings, Fr.fromLeBytes_toBytes, hs]
    rfl

/-- Fold a proof from a leaf: the bit of the index at each level orders the pair. -/
def foldProof (path : List Bytes) (index : Int) (leaf : Fr) : Fr :=
  HashTree.climb (pairHash transientHash) (path.map FieldElement.fromLeBytes) index leaf

/-- A proof folds from the leaf it was made for to the root of the full tree. -/
theorem foldProof_proof (tree : MerkleTree) (index : Int) (hlow : 0 ≤ index) (hhigh : index < 2^tree.depth) :
    ∃ path, tree.proof transientHash index = .ok path ∧ path.length = tree.depth ∧
      foldProof transientHash path index (leafFn tree.leafNodes index) =
        fullNode transientHash tree.leafNodes tree.depth 0 := by
  have hsiblings := proofPath_siblings transientHash tree.leafNodes tree.depth 0 index
  refine ⟨proofPath transientHash tree.leafNodes tree.depth 0 index, ?_, ?_, ?_⟩
  · rw [proof, if_neg (by omega)]
  · have hlen := congrArg List.length hsiblings
    rwa [HashTree.siblings_length, List.length_map] at hlen
  · have hclimb := HashTree.climb_siblings (pairHash transientHash) (leafFn tree.leafNodes) tree.depth 0 index
    rw [Int.ediv_eq_zero_of_lt hlow hhigh, Nat.zero_add] at hclimb
    rw [foldProof, hsiblings]
    exact hclimb

/-- Insert commitments one after another. -/
def insertAll (tree : MerkleTree) : List (Int × Bytes) → Except PyError MerkleTree
  | [] => .ok tree
  | p::ps => do
    let tree' ← tree.insert p.1 p.2
    insertAll tree' ps

/-- The commitment inserted last at an index. -/
def lastInserted (ps : List (Int × Bytes)) (index : Int) : Option Bytes :=
  (ps.reverse.find? (fun p => p.1 = index)).map Prod.snd

/-- The inserted commitment read as a field element, or zero. -/
def leafValue (ps : List (Int × Bytes)) (index : Int) : Fr :=
  match lastInserted ps index with
  | some c => FieldElement.fromLeBytes c
  | none => FieldElement.ofNat 0

/-- Insertions that return leave the last commitment at every index. -/
theorem insertAll_ok {tree t : MerkleTree} {ps : List (Int × Bytes)} (h : insertAll tree ps = .ok t) :
    t.depth = tree.depth ∧ (∀ p ∈ ps, p.1 < 2^tree.depth) ∧
      ∀ i, t.leaves.get? i = (lastInserted ps i).or (tree.leaves.get? i) := by
  induction ps generalizing tree with
  | nil =>
    cases h
    exact ⟨rfl, by simp, fun i => rfl⟩
  | cons p ps ih =>
    obtain ⟨next, hins, h⟩ := bind_ok_iff.mp h
    have hfits : p.1 < 2^tree.depth := by
      by_contra hbig
      rw [insert, if_pos (by omega)] at hins
      cases hins
    rw [insert_of_lt tree p.1 p.2 hfits] at hins
    cases hins
    obtain ⟨hdepth, hrest, hget⟩ := ih h
    refine ⟨hdepth, ?_, ?_⟩
    · intro q hq
      rcases List.mem_cons.mp hq with rfl | hq
      · exact hfits
      · exact hrest q hq
    · intro i
      rw [hget i]
      simp only [lastInserted, List.reverse_cons, List.find?_append, Dict.get?_set]
      cases List.find? (fun p => decide (p.1 = i)) ps.reverse with
      | some q => simp
      | none => by_cases hi : p.1 = i <;> simp [hi]

theorem insertAll_spec (tree : MerkleTree) (ps : List (Int × Bytes)) (hr : tree.InRange)
    (h : ∀ p ∈ ps, 0 ≤ p.1 ∧ p.1 < 2^tree.depth) :
    ∃ t, insertAll tree ps = .ok t ∧ t.depth = tree.depth ∧ t.InRange ∧
      ∀ i, t.leaves.get? i = (lastInserted ps i).or (tree.leaves.get? i) := by
  have hall : ∃ t, insertAll tree ps = .ok t ∧ t.InRange := by
    induction ps generalizing tree with
    | nil => exact ⟨tree, rfl, hr⟩
    | cons p ps ih =>
      obtain ⟨hlow, hhigh⟩ := h p (by simp)
      have hins := insert_of_lt tree p.1 p.2 hhigh
      obtain ⟨t, ht, hin⟩ := ih _ (hr.set p.2 hlow hhigh) (fun q hq => h q (by simp [hq]))
      exact ⟨t, by rw [insertAll, hins]; exact ht, hin⟩
  obtain ⟨t, ht, hin⟩ := hall
  obtain ⟨hdepth, -, hget⟩ := insertAll_ok ht
  exact ⟨t, ht, hdepth, hin, hget⟩

theorem leafFn_leafNodes (tree : MerkleTree) (i : Int) :
    leafFn tree.leafNodes i = ((tree.leaves.get? i).map FieldElement.fromLeBytes).getD (FieldElement.ofNat 0) := by
  rw [leafFn, leafNodes, Dict.getD_eq, Dict.get?_mapValues]

/-- A Merkle proof for any index, present or absent, folds to the root of the tree it was taken from. -/
theorem proof_folds_to_root (depth : Nat) (ps : List (Int × Bytes)) (index : Int)
    (hps : ∀ p ∈ ps, 0 ≤ p.1 ∧ p.1 < 2^depth) (hi : 0 ≤ index ∧ index < 2^depth) :
    ∃ tree path, insertAll (new depth) ps = .ok tree ∧ tree.proof transientHash index = .ok path ∧
      path.length = depth ∧
      tree.root transientHash = .ok (foldProof transientHash path index (leafValue ps index)).toBytes := by
  have hnew : (new depth).InRange := by intro i h; simp [new] at h
  obtain ⟨tree, ht, hd, hr, hget⟩ := insertAll_spec (new depth) ps hnew hps
  have hd : tree.depth = depth := hd
  have hleaf : leafValue ps index = leafFn tree.leafNodes index := by
    have hg := hget index
    simp only [new, Dict.get?_empty, Option.or_none] at hg
    rw [leafFn_leafNodes, hg, leafValue]
    cases lastInserted ps index <;> rfl
  obtain ⟨path, hpath, hlen, hfold⟩ := foldProof_proof transientHash tree index hi.1 (by rw [hd]; exact hi.2)
  refine ⟨tree, path, ht, hpath, hlen.trans hd, ?_⟩
  rw [root_eq_fullNode transientHash tree hr, hleaf, hfold]

/-- Two leaves of a depth-two tree, and the proof of an index that holds none. -/
theorem proof_folds_to_root_sample :
    ∃ tree path, insertAll (new 2) [(3, [7]), (0, [1, 2])] = .ok tree ∧
      tree.proof (fun xs => xs.headD (FieldElement.ofNat 0)) 1 = .ok path ∧ path.length = 2 ∧
      tree.root (fun xs => xs.headD (FieldElement.ofNat 0)) =
        .ok (foldProof (fun xs => xs.headD (FieldElement.ofNat 0)) path 1
          (leafValue [(3, [7]), (0, [1, 2])] 1)).toBytes :=
  proof_folds_to_root (fun xs => xs.headD (FieldElement.ofNat 0)) 2 [(3, [7]), (0, [1, 2])] 1
    (by decide) (by decide)

end Noxipher.MerkleTree
