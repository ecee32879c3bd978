import Noxipher.Zswap.MerkleProof

namespace Noxipher

/-- The calls on a commitment tree that take an index. -/
inductive TreeOp where
  | insert (index : Int) (commitment : Bytes)
  | proof (index : Int)
  deriving DecidableEq

def TreeOp.index : TreeOp → Int
  | insert index _ | proof index => index

namespace MerkleTree

variable (transientHash : List Fr → Fr)

/-- What a call raises or not, and the tree it leaves behind. -/
def step (tree : MerkleTree) : TreeOp → Except PyError Unit × MerkleTree
  | .insert index commitment =>
    match tree.insert index commitment with
    | .ok next => (.ok (), next)
    | .error e => (.error e, tree)
  | .proof index => ((tree.proof transientHash index).map (fun _ => ()), tree)

def InBounds (depth : Nat) (index : Int) : Prop := 0 ≤ index ∧ index < 2^depth

def RaisesValueError {α : Type} (x : Except PyError α) : Prop := ∃ msg, x = .error (.valueError msg)

/-- A call raises exactly when its index is out of bounds, and leaves the tree alone then. -/
def Guarded (tree : MerkleTree) (op : TreeOp) : Prop :=
  (RaisesValueError (tree.step transientHash op).1 ↔ ¬ InBounds tree.depth op.index) ∧
  (¬ InBounds tree.depth op.index → (tree.step transientHash op).2 = tree)

/-- All leaves are in bounds, and the root is found. -/
def Sound (tree : MerkleTree) : Prop := tree.InRange ∧ ∃ root, tree.root transientHash = .ok root

/-- Every call of a run is guarded, and every tree on the way is sound; a call that raises does not end the run. -/
def GuardedRun : MerkleTree → List TreeOp → Prop
  | tree, [] => tree.Sound transientHash
  | tree, op::ops => tree.Sound transientHash ∧ tree.Guarded transientHash op ∧
      GuardedRun (tree.step transientHash op).2 ops

theorem InRange.sound {tree : MerkleTree} (h : tree.InRange) : tree.Sound transientHash :=
  ⟨h, _, root_eq_fullNode transientHash tree h⟩

theorem new_inRange (depth : Nat) : (new depth).InRange := by
  intro i hi
  simp [new] at hi

theorem step_insert_of_lt {tree : MerkleTree} {index : Int} (commitment : Bytes) (h : index < 2^tree.depth) :
    tree.step transientHash (.insert index commitment) =
      (.ok (), { tree with leaves := tree.leaves.set index commitment }) := by
  rw [step, insert_of_lt tree index commitment h]

theorem insert_raises {tree : MerkleTree} {index : Int} (commitment : Bytes) (h : 2^tree.depth ≤ index) :
    RaisesValueError (tree.insert index commitment) := by
  rw [insert, if_pos h]
  exact ⟨_, rfl⟩

/-- Only the upper bound decides whether a call raises. -/
theorem step_raises_iff {tree : MerkleTree} {op : TreeOp} :
    RaisesValueError (tree.step transientHash op).1 ↔ 2^tree.depth ≤ op.index := by
  cases op with
  | insert index commitment =>
    rcases lt_or_ge index (2^tree.depth) with hlt | hge
    · rw [step_insert_of_lt transientHash commitment hlt]
      simp [RaisesValueError, TreeOp.index, hlt]
    · obtain ⟨msg, hraise⟩ := insert_raises commitment hge
      rw [step, hraise]
      exact iff_of_true ⟨msg, rfl⟩ hge
  | proof index =>
    rcases lt_or_ge index (2^tree.depth) with hlt | hge
    · rw [step, proof, if_neg (not_le.mpr hlt)]
      simp [RaisesValueError, TreeOp.index, hlt, Except.map]
    · rw [step, proof, if_pos hge]
      exact iff_of_true ⟨_, rfl⟩ hge

theorem step_unchanged {tree : MerkleTree} {op : TreeOp} (h : 2^tree.depth ≤ op.index) :
    (tree.step transientHash op).2 = tree := by
  cases op with
  | insert index commitment =>
    obtain ⟨msg, hraise⟩ : RaisesValueError (tree.insert index commitment) := insert_raises commitment h
    rw [step, hraise]
  | proof index => rfl

/-- A call is guarded exactly when its index is not negative. -/
theorem guarded_iff {tree : MerkleTree} {op : TreeOp} : tree.Guarded transientHash op ↔ 0 ≤ op.index := by
  unfold Guarded InBounds
  rw [step_raises_iff]
  constructor
  · intro ⟨hraises, _⟩
    by_contra hneg
    have hbig := hraises.mpr (fun hin => hneg hin.1)
    have hpos : (0 : Int) < 2^tree.depth := by positivity
    omega
  · intro hlow
    refine ⟨by omega, ?_⟩
    intro hout
    exact step_unchanged transientHash (by omega)

/-- A call whose index is not negative keeps all leaves in bounds. -/
theorem InRange.step {tree : MerkleTree} (hrange : tree.InRange) {op : TreeOp} (h : 0 ≤ op.index) :
    (tree.step transientHash op).2.InRange := by
  rcases lt_or_ge op.index (2^tree.depth) with hlt | hge
  · cases op with
    | insert index commitment =>
      have hfits : index < 2^tree.depth := hlt
      rw [step_insert_of_lt transientHash commitment hfits]
      exact hrange.set commitment h hfits
    | proof index => exact hrange
  · rw [step_unchanged transientHash hge]
    exact hrange

theorem guardedRun_iff {tree : MerkleTree} (hrange : tree.InRange) (ops : List TreeOp) :
    tree.GuardedRun transientHash ops ↔ ∀ op ∈ ops, 0 ≤ op.index := by
  induction ops generalizing tree with
  | nil => simpa [GuardedRun] using hrange.sound transientHash
  | cons op ops ih =>
    rw [GuardedRun, guarded_iff, List.forall_mem_cons]
    constructor
    · intro ⟨_, hop, hrest⟩
      exact ⟨hop, (ih (hrange.step transientHash hop)).mp hrest⟩
    · intro ⟨hop, hrest⟩
      exact ⟨hrange.sound transientHash, hop, (ih (hrange.step transientHash hop)).mpr hrest⟩

/-- Over runs of a fresh tree the bounds are kept exactly when no call is made with a negative index. -/
theorem bounds_kept_iff (depth : Nat) (ops : List TreeOp) :
    (new depth).GuardedRun transientHash ops ↔ ∀ op ∈ ops, 0 ≤ op.index :=
  guardedRun_iff transientHash (new_inRange depth) ops

/-- Index -1 is taken by both calls, and the root is not found after it was stored. -/
theorem negative_index_stored :
    let hash : List Fr → Fr := fun xs => xs.headD (FieldElement.ofNat 0)
    let tree := (new 32).step hash (.insert (-1) [7])
    tree.1 = .ok () ∧ tree.2.leaves.keys = [-1] ∧ (tree.2.step hash (.proof (-1))).1 = .ok () ∧
      tree.2.root hash = .error (.keyError "0") ∧ ¬ (new 32).GuardedRun hash [.insert (-1) [7]] := by
  intro hash tree
  have hkeys : tree.2.leaves.keys = [-1] := rfl
  refine ⟨rfl, hkeys, rfl, ?_, ?_⟩
  · apply root_of_none_stored hash tree.2
    · intro hempty
      cases hempty
    intro i hi
    rw [hkeys, List.mem_singleton] at hi
    omega
  · rw [bounds_kept_iff]
    decide

end MerkleTree

end Noxipher
