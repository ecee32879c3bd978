import Noxipher.Zswap.RootBinding

namespace Noxipher.MerkleTree

variable (transientHash : List Fr → Fr)

/-- The root of the complete binary tree of a depth over the leaves `0` to `2^depth-1`. -/
def denseRoot (leaf : Int → Fr) (depth : Nat) : Fr := HashTree.dense (pairHash transientHash) leaf depth 0

theorem denseRoot_congr {leaf leaf' : Int → Fr} (depth : Nat)
    (h : ∀ i, 0 ≤ i → i < 2^depth → leaf i = leaf' i) :
    denseRoot transientHash leaf depth = denseRoot transientHash leaf' depth := by
  apply HashTree.dense_congr
  intro i hlow hhigh
  exact h i hlow (by omega)

/-- The loop over touched nodes ends at the root of the complete tree. -/
theorem root_eq_denseRoot (tree : MerkleTree) (h : tree.InRange) :
    tree.root transientHash = .ok (denseRoot transientHash (leafAt tree) tree.depth).toBytes := by
  have htop := HashTree.dense_eq_node (pairHash transientHash) (leafAt tree) tree.depth 0
  rw [zero_mul] at htop
  rw [root_eq_fullNode transientHash tree h, denseRoot, htop]
  rfl

/-- The root of a fresh tree after a list of insertions. -/
def rootAfter (depth : Nat) (ps : List (Int × Bytes)) : Except PyError Bytes := do
  let tree ← insertAll (new depth) ps
  tree.root transientHash

/-- Every index addresses a leaf of a tree of the depth. -/
def InDepth (depth : Nat) (ps : List (Int × Bytes)) : Prop := ∀ p ∈ ps, 0 ≤ p.1 ∧ p.1 < 2^depth

instance (depth : Nat) (ps : List (Int × Bytes)) : Decidable (InDepth depth ps) :=
  inferInstanceAs (Decidable (∀ p ∈ ps, 0 ≤ p.1 ∧ p.1 < 2^depth))

theorem inDepth_append {depth : Nat} {ps qs : List (Int × Bytes)} :
    InDepth depth (ps++qs) ↔ InDepth depth ps ∧ InDepth depth qs := List.forall_mem_append

theorem inDepth_cons {depth : Nat} {p : Int × Bytes} {ps : List (Int × Bytes)} :
    InDepth depth (p::ps) ↔ (0 ≤ p.1 ∧ p.1 < 2^depth) ∧ InDepth depth ps := List.forall_mem_cons

theorem rootAfter_eq_denseRoot (depth : Nat) (ps : List (Int × Bytes)) (h : InDepth depth ps) :
    rootAfter transientHash depth ps = .ok (denseRoot transientHash (leafValue ps) depth).toBytes := by
  have hnew : (new depth).InRange := by intro i hi; simp [new] at hi
  obtain ⟨tree, htree, hdepth, hrange, hget⟩ := insertAll_spec (new depth) ps hnew h
  have hdepth : tree.depth = depth := hdepth
  have hleaves : leafAt tree = leafValue ps := by
    funext i
    have hg := hget i
    simp only [new, Dict.get?_empty, Option.or_none] at hg
    rw [leafAt, leafFn_leafNodes, hg, leafValue]
    cases lastInserted ps i <;> rfl
  rw [rootAfter, htree, ok_bind, root_eq_denseRoot transientHash tree hrange, hdepth, hleaves]

/-- Only what the leaves of the tree are read as counts for the root. -/
theorem rootAfter_congr {depth : Nat} {ps qs : List (Int × Bytes)} (hps : InDepth depth ps) (hqs : InDepth depth qs)
    (h : ∀ i, 0 ≤ i → i < 2^depth → leafValue ps i = leafValue qs i) :
    rootAfter transientHash depth ps = rootAfter transientHash depth qs := by
  rw [rootAfter_eq_denseRoot transientHash depth ps hps, rootAfter_eq_denseRoot transientHash depth qs hqs,
    denseRoot_congr transientHash depth h]

theorem lastInserted_append (ps qs : List (Int × Bytes)) (i : Int) :
    lastInserted (ps++qs) i = (lastInserted qs i).or (lastInserted ps i) := by
  simp only [lastInserted, List.reverse_append, List.find?_append]
  cases List.find? (fun p => decide (p.1 = i)) qs.reverse <;> simp

theorem lastInserted_cons (p : Int × Bytes) (ps : List (Int × Bytes)) (i : Int) :
    lastInserted (p::ps) i = (lastInserted ps i).or (if p.1 = i then some p.2 else none) := by
  have hsplit := lastInserted_append [p] ps i
  rw [List.singleton_append] at hsplit
  rw [hsplit]
  by_cases h : p.1 = i <;> simp [lastInserted, h]

theorem lastInserted_isSome {ps : List (Int × Bytes)} {i : Int} (h : i ∈ ps.map Prod.fst) :
    (lastInserted ps i).isSome := by
  obtain ⟨p, hp, hpi⟩ := List.mem_map.mp h
  simp only [lastInserted, Option.isSome_map, List.find?_isSome]
  exact ⟨p, by simpa using hp, by simp [hpi]⟩

theorem lastInserted_mem {ps : List (Int × Bytes)} {i : Int} {c : Bytes} (h : lastInserted ps i = some c) :
    (i, c) ∈ ps := by
  obtain ⟨p, hp, hpc⟩ := Option.map_eq_some_iff.mp h
  have hi : p.1 = i := by simpa using List.find?_some hp
  have hmem := List.mem_of_find?_eq_some hp
  rw [← hi, ← hpc]
  simpa using hmem

theorem lastInserted_eq_some {ps : List (Int × Bytes)} {i : Int} {c : Bytes} (hnd : (ps.map Prod.fst).Nodup) :
    lastInserted ps i = some c ↔ (i, c) ∈ ps := by
  constructor
  · exact lastInserted_mem
  · intro h
    obtain ⟨c', hc'⟩ := Option.isSome_iff_exists.mp (lastInserted_isSome (List.mem_map_of_mem h))
    have hinj := List.inj_on_of_nodup_map hnd (lastInserted_mem hc') h rfl
    cases hinj
    exact hc'

/-- A map of leaves can be inserted in any order. -/
theorem lastInserted_perm {ps qs : List (Int × Bytes)} (h : ps.Perm qs) (hnd : (ps.map Prod.fst).Nodup) (i : Int) :
    lastInserted ps i = lastInserted qs i := by
  have hnd' : (qs.map Prod.fst).Nodup := (h.map Prod.fst).nodup hnd
  ext c
  rw [lastInserted_eq_some hnd, lastInserted_eq_some hnd', h.mem_iff]

/-- A value that reads as zero, where zero or nothing stood. -/
theorem leafValue_zero (ps qs : List (Int × Bytes)) {i : Int} {c : Bytes}
    (hc : FieldElement.fromLeBytes c = (FieldElement.ofNat 0 : Fr))
    (hi : leafValue ps i = FieldElement.ofNat 0) (j : Int) :
    leafValue (ps++(i, c)::qs) j = leafValue (ps++qs) j := by
  simp only [leafValue, lastInserted_append, lastInserted_cons] at hi ⊢
  cases lastInserted qs j with
  | some c' => rfl
  | none =>
    by_cases hij : i = j
    · subst hij
      cases hp : lastInserted ps i with
      | some c' =>
        rw [hp] at hi
        simpa [hc] using hi.symm
      | none => simpa using hc
    · simp [hij]

/-- A value that is inserted over again at the same index. -/
theorem leafValue_overwritten (ps qs rs : List (Int × Bytes)) (i : Int) (c c' : Bytes) (j : Int) :
    leafValue (ps++(i, c)::(qs++(i, c')::rs)) j = leafValue (ps++(qs++(i, c')::rs)) j := by
  simp only [leafValue, lastInserted_append, lastInserted_cons]
  cases lastInserted rs j with
  | some _ => rfl
  | none => by_cases hij : i = j <;> simp [hij]

/-- The sparse root is the dense root; insertion order, explicit zero leaves and overwritten values do not count. -/
theorem sparse_root_is_dense (depth : Nat) (ps : List (Int × Bytes)) (h : InDepth depth ps) :
    rootAfter transientHash depth ps = .ok (denseRoot transientHash (leafValue ps) depth).toBytes ∧
    (∀ qs, ps.Perm qs → (ps.map Prod.fst).Nodup →
      rootAfter transientHash depth qs = rootAfter transientHash depth ps) ∧
    (∀ before after i zero, ps = before++(i, zero)::after →
      FieldElement.fromLeBytes zero = (FieldElement.ofNat 0 : Fr) → leafValue before i = FieldElement.ofNat 0 →
      rootAfter transientHash depth (before++after) = rootAfter transientHash depth ps) ∧
    (∀ before between after i old last, ps = before++(i, old)::(between++(i, last)::after) →
      rootAfter transientHash depth (before++(between++(i, last)::after)) = rootAfter transientHash depth ps) := by
  refine ⟨rootAfter_eq_denseRoot transientHash depth ps h, ?_, ?_, ?_⟩
  · intro qs hperm hnd
    have hqs : InDepth depth qs := fun p hp => h p (hperm.mem_iff.mpr hp)
    apply rootAfter_congr transientHash hqs h
    intro i _ _
    simp only [leafValue, lastInserted_perm hperm hnd]
  · intro before after i zero hps hzero hi
    subst hps
    obtain ⟨hbefore, hrest⟩ := inDepth_append.mp h
    have hless := inDepth_append.mpr ⟨hbefore, (inDepth_cons.mp hrest).2⟩
    apply rootAfter_congr transientHash hless h
    intro j _ _
    exact (leafValue_zero before after hzero hi j).symm
  · intro before between after i old last hps
    subst hps
    obtain ⟨hbefore, hrest⟩ := inDepth_append.mp h
    have hless := inDepth_append.mpr ⟨hbefore, (inDepth_cons.mp hrest).2⟩
    apply rootAfter_congr transientHash hless h
    intro j _ _
    exact (leafValue_overwritten before between after i old last j).symm

/-- Two leaves, one of them zero, swapped, left out and inserted over. -/
theorem sparse_root_sample :
    let hash : List Fr → Fr := fun xs => FieldElement.ofNat (xs.foldl (fun n x => 3*n+x.value) 1)
    let root : List (Int × Bytes) → Except PyError Bytes := rootAfter hash 2
    root [(3, [7]), (0, [0])] = .ok (denseRoot hash (leafValue [(3, [7]), (0, [0])]) 2).toBytes ∧
    root [(0, [0]), (3, [7])] = root [(3, [7]), (0, [0])] ∧
    root [(3, [7])] = root [(3, [7]), (0, [0])] ∧
    root [(0, [0]), (3, [7])] = root [(3, [5]), (0, [0]), (3, [7])] := by
  intro hash root
  obtain ⟨hdense, horder, hzero, -⟩ := sparse_root_is_dense hash 2 [(3, [7]), (0, [0])] (by decide)
  obtain ⟨-, -, -, hover⟩ := sparse_root_is_dense hash 2 [(3, [5]), (0, [0]), (3, [7])] (by decide)
  exact ⟨hdense, horder _ (List.Perm.swap _ _ _) (by decide),
    hzero [(3, [7])] [] 0 [0] rfl (by decide) (by decide), hover [] [(0, [0])] [] 3 [5] [7] rfl⟩

end Noxipher.MerkleTree
