import Noxipher.Zswap.CommitmentBinding

namespace Noxipher

/-- Track spent nullifiers to prevent double-spend. -/
structure NullifierSet where
  nullifiers : Finset Bytes

namespace NullifierSet

variable (transientHash : List Fr → Fr)

def new : NullifierSet := ⟨∅⟩

def add (set : NullifierSet) (nullifier : Bytes) : NullifierSet := ⟨insert nullifier set.nullifiers⟩

def contains (set : NullifierSet) (nullifier : Bytes) : Bool := nullifier ∈ set.nullifiers

/-- `compute_nullifier` never raises the exception that is caught. -/
def isSpent (set : NullifierSet) (note : ShieldedCoinNote) (secret_scalar : Int) : Bool :=
  set.contains (note.computeNullifier transientHash secret_scalar)

end NullifierSet

/-- A wallet learns of a coin, or that a coin was spent with a key. -/
inductive CoinEvent where
  | received (note : ShieldedCoinNote)
  | spent (note : ShieldedCoinNote) (secret_scalar : Int)

namespace CoinEvent

def spends : List CoinEvent → List (ShieldedCoinNote × Int)
  | [] => []
  | received _::events => spends events
  | spent note secret_scalar::events => (note, secret_scalar) :: spends events

end CoinEvent

namespace ShieldedCoinNote

/-- The two field elements that `compute_nullifier` hashes. -/
def nullifierInputs (note : ShieldedCoinNote) (secret_scalar : Int) : List Fr :=
  [FieldElement.ofInt secret_scalar, FieldElement.ofInt note.merkle_tree_index]

end ShieldedCoinNote

namespace NullifierSet

open ShieldedCoinNote

variable (transientHash : List Fr → Fr)

/-- The shielded store and the set side by side; what `add_coin` raises is caught. -/
def replay (state : ZswapState) (set : NullifierSet) : List CoinEvent → ZswapState × NullifierSet
  | [] => (state, set)
  | .received note::events => replay (state.addCoin transientHash note).2 set events
  | .spent note secret_scalar::events =>
    let nullifier := note.computeNullifier transientHash secret_scalar
    replay (state.markSpent transientHash nullifier) (set.add nullifier) events

/-- A coin at the index was spent with the key, both read modulo the field. -/
def WasSpent (history : List CoinEvent) (note : ShieldedCoinNote) (secret_scalar : Int) : Prop :=
  ∃ p ∈ CoinEvent.spends history, p.2 % Fr.MODULUS = secret_scalar % Fr.MODULUS ∧
    p.1.merkle_tree_index % Fr.MODULUS = note.merkle_tree_index % Fr.MODULUS

theorem ofInt_eq_iff {x y : Int} : (FieldElement.ofInt x : Fr) = FieldElement.ofInt y ↔
    x % Fr.MODULUS = y % Fr.MODULUS := by
  have hpos : (0 : Int) < Fr.MODULUS := by decide
  have hx := Int.emod_nonneg x (ne_of_gt hpos)
  have hy := Int.emod_nonneg y (ne_of_gt hpos)
  constructor
  · intro h
    have hval := congrArg FieldElement.value h
    simp only [FieldElement.ofInt] at hval
    omega
  · intro h
    apply FieldElement.ext
    simp only [FieldElement.ofInt, h]

theorem nullifierInputs_eq_iff {note other : ShieldedCoinNote} {s t : Int} :
    other.nullifierInputs t = note.nullifierInputs s ↔ t % Fr.MODULUS = s % Fr.MODULUS ∧
      other.merkle_tree_index % Fr.MODULUS = note.merkle_tree_index % Fr.MODULUS := by
  simp only [nullifierInputs, List.cons.injEq, and_true, ofInt_eq_iff]

/-- Whatever `add_coin` does, it leaves the spent nullifiers alone. -/
theorem addCoin_spent (state : ZswapState) (note : ShieldedCoinNote) :
    (state.addCoin transientHash note).2.spent_nullifiers = state.spent_nullifiers := by
  unfold ZswapState.addCoin
  dsimp only
  split <;> rfl

/-- The store and the set record the same nullifiers. -/
theorem replay_agree (history : List CoinEvent) (state : ZswapState) (set : NullifierSet)
    (h : state.spent_nullifiers = set.nullifiers) :
    (replay transientHash state set history).1.spent_nullifiers =
      (replay transientHash state set history).2.nullifiers := by
  induction history generalizing state set with
  | nil => exact h
  | cons event history ih =>
    cases event with
    | received note => exact ih _ _ ((addCoin_spent transientHash state note).trans h)
    | spent note secret_scalar =>
      apply ih
      simp only [ZswapState.markSpent, add, h]

/-- The set holds what it held and the nullifiers of the coins spent since. -/
theorem mem_replay (history : List CoinEvent) (state : ZswapState) (set : NullifierSet) (nullifier : Bytes) :
    nullifier ∈ (replay transientHash state set history).2.nullifiers ↔ nullifier ∈ set.nullifiers ∨
      ∃ p ∈ CoinEvent.spends history, p.1.computeNullifier transientHash p.2 = nullifier := by
  induction history generalizing state set with
  | nil => simp [replay, CoinEvent.spends]
  | cons event history ih =>
    cases event with
    | received note => exact ih _ _
    | spent note secret_scalar =>
      rw [replay, ih, CoinEvent.spends]
      simp only [add, Finset.mem_insert, List.exists_mem_cons_iff]
      constructor
      · rintro ((rfl | hold) | hnew)
        · exact Or.inr (Or.inl rfl)
        · exact Or.inl hold
        · exact Or.inr (Or.inr hnew)
      · rintro (hold | hfirst | hnew)
        · exact Or.inl (Or.inr hold)
        · exact Or.inl (Or.inl hfirst.symm)
        · exact Or.inr hnew

/-- With one key and the indices of the tree the coins that were spent are those at their indices. -/
theorem wasSpent_iff_index {history : List CoinEvent} {note : ShieldedCoinNote} {secret_scalar : Int}
    (h : ∀ p ∈ CoinEvent.spends history,
      p.2 = secret_scalar ∧ 0 ≤ p.1.merkle_tree_index ∧ p.1.merkle_tree_index < 2^32)
    (hnote : 0 ≤ note.merkle_tree_index ∧ note.merkle_tree_index < 2^32) :
    WasSpent history note secret_scalar ↔
      note.merkle_tree_index ∈ (CoinEvent.spends history).map (fun p => p.1.merkle_tree_index) := by
  have hfits : (2^32 : Int) < Fr.MODULUS := by decide
  constructor
  · rintro ⟨p, hp, -, hindex⟩
    obtain ⟨-, hlow, hhigh⟩ := h p hp
    rw [Int.emod_eq_of_lt hlow (hhigh.trans hfits), Int.emod_eq_of_lt hnote.1 (hnote.2.trans hfits)] at hindex
    exact List.mem_map.mpr ⟨p, hp, hindex⟩
  · intro hmem
    obtain ⟨p, hp, hindex⟩ := List.mem_map.mp hmem
    exact ⟨p, hp, by rw [(h p hp).1], by rw [hindex]⟩

/-- Over every history of received and spent coins the set and the store agree on what is spent, a spent coin is reported
from then on, and a coin is reported only when it was spent or when its nullifier collides with that of a spent one. With
one key and the indices of the tree it is reported exactly when its index was spent, or the nullifiers collide. -/
theorem spent_coins_tracked (history : List CoinEvent) (note : ShieldedCoinNote) (secret_scalar : Int) :
    let after := replay transientHash ZswapState.new new history
    let reported := after.2.isSpent transientHash note secret_scalar = true
    let collision := ∃ p ∈ CoinEvent.spends history,
      Collides transientHash (p.1.nullifierInputs p.2) (note.nullifierInputs secret_scalar)
    after.1.spent_nullifiers = after.2.nullifiers ∧
    (WasSpent history note secret_scalar → reported) ∧
    (reported → WasSpent history note secret_scalar ∨ collision) ∧
    ((∀ p ∈ CoinEvent.spends history, p.2 = secret_scalar ∧ 0 ≤ p.1.merkle_tree_index ∧ p.1.merkle_tree_index < 2^32) →
      0 ≤ note.merkle_tree_index ∧ note.merkle_tree_index < 2^32 →
      let indices := (CoinEvent.spends history).map (fun p => p.1.merkle_tree_index)
      (note.merkle_tree_index ∈ indices → reported) ∧ (reported → note.merkle_tree_index ∈ indices ∨ collision)) := by
  intro after reported collision
  have hmem := mem_replay transientHash history ZswapState.new new (note.computeNullifier transientHash secret_scalar)
  simp only [new, Finset.notMem_empty, false_or] at hmem
  have hspent : reported ↔ ∃ p ∈ CoinEvent.spends history,
      p.1.computeNullifier transientHash p.2 = note.computeNullifier transientHash secret_scalar := by
    rw [← hmem]
    exact decide_eq_true_iff
  have hkept : WasSpent history note secret_scalar → reported := by
    rintro ⟨p, hp, hsame⟩
    refine hspent.mpr ⟨p, hp, ?_⟩
    have hinputs := nullifierInputs_eq_iff.mpr hsame
    unfold nullifierInputs at hinputs
    simp only [computeNullifier, hinputs]
  have honly : reported → WasSpent history note secret_scalar ∨ collision := by
    intro h
    obtain ⟨p, hp, hsame⟩ := hspent.mp h
    have hhash := FieldElement.toBytes_injective Fr.modulus_le _ _ hsame
    by_cases hinputs : p.1.nullifierInputs p.2 = note.nullifierInputs secret_scalar
    · exact Or.inl ⟨p, hp, nullifierInputs_eq_iff.mp hinputs⟩
    · exact Or.inr ⟨p, hp, hinputs, hhash⟩
  refine ⟨replay_agree transientHash history ZswapState.new new rfl, hkept, honly, ?_⟩
  intro hrange hnote
  have hindex := wasSpent_iff_index hrange hnote
  exact ⟨fun h => hkept (hindex.mpr h), fun h => (honly h).imp_left hindex.mp⟩

/-- A spent coin is reported by its index, and another index only with a collision. -/
theorem spent_coins_tracked_sample :
    let after := replay digitHash ZswapState.new new [.received sampleCoin, .spent sampleCoin 7]
    after.2.isSpent digitHash sampleCoin 7 = true ∧
      after.2.isSpent digitHash { sampleCoin with merkle_tree_index := 1 } 7 = false := by
  have hrange : ∀ p ∈ CoinEvent.spends [.received sampleCoin, .spent sampleCoin 7],
      p.2 = 7 ∧ 0 ≤ p.1.merkle_tree_index ∧ p.1.merkle_tree_index < 2^32 := by
    intro p hp
    rw [List.mem_singleton.mp hp]
    decide
  have hspent := spent_coins_tracked digitHash [.received sampleCoin, .spent sampleCoin 7] sampleCoin 7
  have hother := spent_coins_tracked digitHash [.received sampleCoin, .spent sampleCoin 7]
    { sampleCoin with merkle_tree_index := 1 } 7
  refine ⟨(hspent.2.2.2 hrange (by decide)).1 (by decide), ?_⟩
  rw [← Bool.not_eq_true]
  intro hreported
  rcases (hother.2.2.2 hrange (by decide)).2 hreported with hindex | ⟨p, hp, -, hhash⟩
  · revert hindex
    decide
  · rw [List.mem_singleton.mp hp] at hhash
    revert hhash
    decide

end NullifierSet

end Noxipher
