import Noxipher.Zswap.MerkleProof
import Mathlib.Data.List.Perm.Subperm

namespace Noxipher.MerkleTree

variable (transientHash : List Fr → Fr)

/-- The stored index lies below the sibling that a proof of `index` has at the level. -/
def Touches (index : Int) (level : Nat) (other : Int) : Prop := other/2^level = HashTree.sibling (index/2^level)

instance (index : Int) (level : Nat) (other : Int) : Decidable (Touches index level other) :=
  inferInstanceAs (Decidable (_ = _))

/-- The levels at which two proofs have different entries. -/
def outdated (depth : Nat) (before after : List Bytes) : List Nat :=
  (List.range depth).filter (fun level => before[level]? ≠ after[level]?)

theorem proofPath_getElem? (nodes : Dict Int Fr) (n level : Nat) (curr : Int) {k : Nat} (hk : k < n) :
    (proofPath transientHash nodes n level curr)[k]? =
      some (fullNode transientHash nodes (level+k) (HashTree.sibling (curr/2^k))).toBytes := by
  induction n generalizing level curr k with
  | zero => exact absurd hk (Nat.not_lt_zero k)
  | succ n ih =>
    cases k with
    | zero =>
      have hs := (treeNodes_stands transientHash nodes level).getD_zeroVal transientHash (HashTree.sibling curr)
      simp only [HashTree.sibling] at hs
      simp only [proofPath, List.getElem?_cons_zero, hs, pow_zero, Int.ediv_one, Nat.add_zero, HashTree.sibling]
    | succ k =>
      have hdiv : curr/2/2^k = curr/2^(k+1) := by rw [pow_succ', Int.ediv_ediv_of_nonneg (by norm_num)]
      rw [proofPath, List.getElem?_cons_succ, ih (level+1) (curr/2) (by omega), hdiv, Nat.add_right_comm, Nat.add_assoc]

theorem proofPath_length (nodes : Dict Int Fr) (n level : Nat) (curr : Int) :
    (proofPath transientHash nodes n level curr).length = n := by
  induction n generalizing level curr with
  | zero => rfl
  | succ n ih => rw [proofPath, List.length_cons, ih]

/-- The leaves below a position where nothing was inserted are what they were. -/
theorem insertAll_leaf_kept {tree t : MerkleTree} {ps : List (Int × Bytes)} (h : insertAll tree ps = .ok t) {i : Int}
    (hi : ∀ p ∈ ps, p.1 ≠ i) : leafFn t.leafNodes i = leafFn tree.leafNodes i := by
  obtain ⟨-, -, hget⟩ := insertAll_ok h
  have hnone : lastInserted ps i = none := by
    rw [lastInserted, Option.map_eq_none_iff, List.find?_eq_none]
    intro p hp
    simpa using hi p (List.mem_reverse.mp hp)
  rw [leafFn_leafNodes, leafFn_leafNodes, hget i, hnone, Option.none_or]

/-- An insertion that does not touch a level leaves the entry there alone. -/
theorem proof_entry_kept {tree t : MerkleTree} {ps : List (Int × Bytes)} (h : insertAll tree ps = .ok t) (index : Int)
    {level : Nat} (hlevel : level < tree.depth) (huntouched : ∀ p ∈ ps, ¬ Touches index level p.1) :
    (proofPath transientHash t.leafNodes t.depth 0 index)[level]? =
      (proofPath transientHash tree.leafNodes tree.depth 0 index)[level]? := by
  obtain ⟨hdepth, -, -⟩ := insertAll_ok h
  rw [hdepth, proofPath_getElem? transientHash _ _ _ _ hlevel, proofPath_getElem? transientHash _ _ _ _ hlevel,
    Nat.zero_add]
  have hnode : fullNode transientHash t.leafNodes level (HashTree.sibling (index/2^level)) =
      fullNode transientHash tree.leafNodes level (HashTree.sibling (index/2^level)) := by
    apply HashTree.node_congr
    intro j hj
    apply insertAll_leaf_kept h
    rintro p hp rfl
    exact huntouched p hp hj
  rw [hnode]

theorem not_touches_self (index : Int) (level : Nat) : ¬ Touches index level index := by
  unfold Touches HashTree.sibling
  split_ifs <;> omega

/-- After any run of insertions a proof has new entries only at levels that an insertion touched, at most one for each
other index that was inserted. -/
theorem witness_upkeep (tree t : MerkleTree) (ps : List (Int × Bytes)) (hrun : insertAll tree ps = .ok t) (index : Int)
    (hindex : index < 2^tree.depth) :
    ∃ before after, tree.proof transientHash index = .ok before ∧ t.proof transientHash index = .ok after ∧
      before.length = tree.depth ∧ after.length = tree.depth ∧
      (∀ level ∈ outdated tree.depth before after, ∃ p ∈ ps, Touches index level p.1) ∧
      (outdated tree.depth before after).length ≤ ((ps.map Prod.fst).dedup.filter (· ≠ index)).length := by
  obtain ⟨hdepth, -, -⟩ := insertAll_ok hrun
  have hbefore : tree.proof transientHash index = .ok (proofPath transientHash tree.leafNodes tree.depth 0 index) :=
    if_neg (by omega)
  have hafter : t.proof transientHash index = .ok (proofPath transientHash t.leafNodes t.depth 0 index) :=
    if_neg (by rw [hdepth]; omega)
  have htouched : ∀ level ∈ outdated tree.depth (proofPath transientHash tree.leafNodes tree.depth 0 index)
      (proofPath transientHash t.leafNodes t.depth 0 index), ∃ p ∈ ps, Touches index level p.1 := by
    intro level hlevel
    obtain ⟨hrange, hne⟩ := List.mem_filter.mp hlevel
    by_contra hno
    have hkept := proof_entry_kept transientHash hrun index (List.mem_range.mp hrange)
      (fun p hp ht => hno ⟨p, hp, ht⟩)
    simp [hkept] at hne
  refine ⟨_, _, hbefore, hafter, proofPath_length _ _ _ _ _, by rw [proofPath_length, hdepth], htouched, ?_⟩
  -- each new entry is charged to an index inserted below it, and no index is charged twice
  choose! charged hmem htouches using htouched
  have hnodup : ((outdated tree.depth (proofPath transientHash tree.leafNodes tree.depth 0 index)
      (proofPath transientHash t.leafNodes t.depth 0 index)).map (fun level => (charged level).1)).Nodup := by
    apply List.Nodup.map_on
    · intro a ha b hb he
      have htouch := htouches b hb
      rw [← he] at htouch
      exact HashTree.sibling_height_unique (htouches a ha) htouch
    · exact List.nodup_range.filter _
  have hsub : (outdated tree.depth (proofPath transientHash tree.leafNodes tree.depth 0 index)
      (proofPath transientHash t.leafNodes t.depth 0 index)).map (fun level => (charged level).1) ⊆
      (ps.map Prod.fst).dedup.filter (· ≠ index) := by
    intro i hi
    obtain ⟨level, hlevel, rfl⟩ := List.mem_map.mp hi
    rw [List.mem_filter, List.mem_dedup]
    refine ⟨List.mem_map_of_mem (hmem level hlevel), ?_⟩
    have hself := not_touches_self index level
    have htouch := htouches level hlevel
    rw [decide_eq_true_iff]
    intro he
    rw [he] at htouch
    exact hself htouch
  have hlength := (hnodup.subperm hsub).length_le
  rwa [List.length_map] at hlength

theorem witness_upkeep_sample :
    let firstOf : List Fr → Fr := fun xs => xs.headD (FieldElement.ofNat 0)
    ∃ before after, (new 3).proof firstOf 2 = .ok before ∧
      (MerkleTree.mk 3 (Dict.ofList [(6, [7]), (2, [9])])).proof firstOf 2 = .ok after ∧
      before.length = 3 ∧ after.length = 3 ∧
      (∀ level ∈ outdated 3 before after, ∃ p ∈ [((6 : Int), ([7] : Bytes)), (2, [9])], Touches 2 level p.1) ∧
      (outdated 3 before after).length ≤ ((([(6, [7]), (2, [9])] : List (Int × Bytes)).map Prod.fst).dedup.filter
        (· ≠ (2 : Int))).length := by
  intro firstOf
  exact witness_upkeep firstOf (new 3) _ [(6, [7]), (2, [9])] rfl 2 (by decide)

end Noxipher.MerkleTree
