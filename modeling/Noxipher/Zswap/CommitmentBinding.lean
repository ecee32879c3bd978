import Noxipher.Zswap.StoreRuns

namespace Noxipher

namespace FieldElement

variable {m : Nat} [NeZero m]

theorem ofNat_eq_iff {x y : Nat} : (ofNat x : FieldElement m) = ofNat y ↔ x % m = y % m := by
  constructor
  · intro h
    exact congrArg FieldElement.value h
  · intro h
    exact ext h

/-- Integers in canonical form are kept as they are. -/
theorem ofInt_value {x : Int} (hlow : 0 ≤ x) (hhigh : x < m) : ((ofInt x : FieldElement m).value : Int) = x := by
  have hmod := Int.emod_eq_of_lt hlow hhigh
  unfold ofInt
  dsimp only
  omega

end FieldElement

namespace ShieldedCoinNote

variable (transientHash : List Fr → Fr)

/-- The four field elements that `compute_commitment` hashes. -/
def commitmentInputs (note : ShieldedCoinNote) : List Fr :=
  [FieldElement.fromLeBytes note.token_type, FieldElement.ofInt note.value,
    FieldElement.fromLeBytes note.owner_pk, FieldElement.fromLeBytes note.nonce]

/-- The widths the fields are declared with, and a value that fits the ledger. -/
structure Sized (note : ShieldedCoinNote) : Prop where
  token_type : note.token_type.length = 32
  owner_pk : note.owner_pk.length = 32
  nonce : note.nonce.length = 32
  value_nonneg : 0 ≤ note.value
  value_lt : note.value < 2^128

structure SameCoin (note other : ShieldedCoinNote) : Prop where
  token_type : note.token_type = other.token_type
  value : note.value = other.value
  owner_pk : note.owner_pk = other.owner_pk
  nonce : note.nonce = other.nonce

/-- Two different lists with one hash. -/
def Collides (xs ys : List Fr) : Prop := xs ≠ ys ∧ transientHash xs = transientHash ys

/-- One commitment means one coin, or shows a collision. -/
def Binds (note other : ShieldedCoinNote) : Prop :=
  note.computeCommitment transientHash = other.computeCommitment transientHash →
    SameCoin note other ∨ Collides transientHash note.commitmentInputs other.commitmentInputs

/-- Bytes that the field reads as one element. -/
def SameResidue (xs ys : Bytes) : Prop := leValue xs % Fr.MODULUS = leValue ys % Fr.MODULUS

/-- The coins differ, but only by multiples of the modulus in their byte fields. -/
structure Alias (note other : ShieldedCoinNote) : Prop where
  token_type : SameResidue note.token_type other.token_type
  value : note.value = other.value
  owner_pk : SameResidue note.owner_pk other.owner_pk
  nonce : SameResidue note.nonce other.nonce
  differ : note.token_type ≠ other.token_type ∨ note.owner_pk ≠ other.owner_pk ∨ note.nonce ≠ other.nonce

theorem fromLeBytes_eq_iff {xs ys : Bytes} :
    (FieldElement.fromLeBytes xs : Fr) = FieldElement.fromLeBytes ys ↔ SameResidue xs ys := FieldElement.ofNat_eq_iff

/-- Below the modulus there is one spelling of each element. -/
theorem SameResidue.eq {xs ys : Bytes} (h : SameResidue xs ys) (hlength : xs.length = ys.length)
    (hx : leValue xs < Fr.MODULUS) (hy : leValue ys < Fr.MODULUS) : xs = ys := by
  unfold SameResidue at h
  rw [Nat.mod_eq_of_lt hx, Nat.mod_eq_of_lt hy] at h
  exact leValue_inj hlength h

theorem ofInt_inj {note other : ShieldedCoinNote} (hnote : note.Sized) (hother : other.Sized)
    (h : (FieldElement.ofInt note.value : Fr) = FieldElement.ofInt other.value) : note.value = other.value := by
  have hfits : (2^128 : Int) < Fr.MODULUS := by decide
  rw [← FieldElement.ofInt_value hnote.value_nonneg (hnote.value_lt.trans hfits),
    ← FieldElement.ofInt_value hother.value_nonneg (hother.value_lt.trans hfits), h]

theorem commitmentInputs_eq_iff {note other : ShieldedCoinNote} (hnote : note.Sized) (hother : other.Sized) :
    note.commitmentInputs = other.commitmentInputs ↔
      SameResidue note.token_type other.token_type ∧ note.value = other.value ∧
      SameResidue note.owner_pk other.owner_pk ∧ SameResidue note.nonce other.nonce := by
  simp only [commitmentInputs, List.cons.injEq, and_true, fromLeBytes_eq_iff]
  constructor
  · intro ⟨htoken, hvalue, howner, hnonce⟩
    exact ⟨htoken, ofInt_inj hnote hother hvalue, howner, hnonce⟩
  · intro ⟨htoken, hvalue, howner, hnonce⟩
    exact ⟨htoken, by rw [hvalue], howner, hnonce⟩

/-- Coins with one commitment are hashed from one list, or collide. -/
theorem inputs_or_collision {note other : ShieldedCoinNote}
    (h : note.computeCommitment transientHash = other.computeCommitment transientHash) :
    note.commitmentInputs = other.commitmentInputs ∨
      Collides transientHash note.commitmentInputs other.commitmentInputs := by
  have hhash := FieldElement.toBytes_injective Fr.modulus_le _ _ h
  by_cases hinputs : note.commitmentInputs = other.commitmentInputs
  · exact Or.inl hinputs
  · exact Or.inr ⟨hinputs, hhash⟩

/-- A commitment binds two coins, whatever the hash, exactly when neither is an alias of the other; there is none
among byte fields below the modulus. -/
theorem commitment_binds_iff {note other : ShieldedCoinNote} (hnote : note.Sized) (hother : other.Sized) :
    (Binds transientHash note other ↔ ¬ Alias note other) ∧
    ((∀ coin ∈ [note, other], ∀ field ∈ [coin.token_type, coin.owner_pk, coin.nonce], leValue field < Fr.MODULUS) →
      ¬ Alias note other) := by
  refine ⟨⟨?_, ?_⟩, ?_⟩
  · intro hbinds halias
    have hinputs := (commitmentInputs_eq_iff hnote hother).mpr
      ⟨halias.token_type, halias.value, halias.owner_pk, halias.nonce⟩
    have hsame : note.computeCommitment transientHash = other.computeCommitment transientHash := by
      show (transientHash note.commitmentInputs).toBytes = _
      rw [hinputs]
      rfl
    rcases hbinds hsame with hcoin | hcollides
    · rcases halias.differ with hdiffer | hdiffer | hdiffer
      · exact hdiffer hcoin.token_type
      · exact hdiffer hcoin.owner_pk
      · exact hdiffer hcoin.nonce
    · exact hcollides.1 hinputs
  · intro hno hsame
    rcases inputs_or_collision transientHash hsame with hinputs | hcollides
    · left
      obtain ⟨htoken, hvalue, howner, hnonce⟩ := (commitmentInputs_eq_iff hnote hother).mp hinputs
      by_contra hother'
      apply hno
      refine ⟨htoken, hvalue, howner, hnonce, ?_⟩
      by_contra hsame'
      push Not at hsame'
      exact hother' ⟨hsame'.1, hvalue, hsame'.2.1, hsame'.2.2⟩
    · exact Or.inr hcollides
  · intro hcanonical halias
    have hbelow (field other_field : Bytes) (hfield : field ∈ [note.token_type, note.owner_pk, note.nonce])
        (hfield' : other_field ∈ [other.token_type, other.owner_pk, other.nonce])
        (hlength : field.length = other_field.length) (h : SameResidue field other_field) : field = other_field :=
      h.eq hlength (hcanonical note (by simp) field hfield) (hcanonical other (by simp) other_field hfield')
    rcases halias.differ with hdiffer | hdiffer | hdiffer
    · exact hdiffer (hbelow _ _ (by simp) (by simp) (by rw [hnote.token_type, hother.token_type]) halias.token_type)
    · exact hdiffer (hbelow _ _ (by simp) (by simp) (by rw [hnote.owner_pk, hother.owner_pk]) halias.owner_pk)
    · exact hdiffer (hbelow _ _ (by simp) (by simp) (by rw [hnote.nonce, hother.nonce]) halias.nonce)

/-- The sample coin and one of twice its value. -/
theorem commitment_binds_sample : Binds digitHash sampleCoin { sampleCoin with value := 2000 } := by
  have hsized (value : Int) (hlow : 0 ≤ value) (hhigh : value < 2^128) :
      Sized { sampleCoin with value := value } := ⟨rfl, rfl, rfl, hlow, hhigh⟩
  obtain ⟨hiff, hnone⟩ := commitment_binds_iff digitHash (hsized 1000 (by decide) (by decide))
    (hsized 2000 (by decide) (by decide))
  exact hiff.mpr (hnone (by decide +kernel))

/-- The nonce zero and the nonce that spells the modulus are one element, so the two coins have one commitment. -/
theorem nonce_aliased :
    let coin : ShieldedCoinNote := { sampleCoin with nonce := List.replicate 32 0 }
    let other : ShieldedCoinNote := { sampleCoin with nonce := leBytes 32 Fr.MODULUS }
    coin.Sized ∧ other.Sized ∧ coin.nonce ≠ other.nonce ∧ coin.commitmentInputs = other.commitmentInputs ∧
      ¬ Binds digitHash coin other := by
  intro coin other
  have hcoin : coin.Sized := ⟨rfl, rfl, rfl, by decide, by decide⟩
  have hother : other.Sized := ⟨rfl, rfl, rfl, by decide, by decide⟩
  have hnonce : coin.nonce ≠ other.nonce := by decide +kernel
  have hinputs : coin.commitmentInputs = other.commitmentInputs := by decide +kernel
  refine ⟨hcoin, hother, hnonce, hinputs, ?_⟩
  intro hbinds
  have hsame : coin.computeCommitment digitHash = other.computeCommitment digitHash := by
    show (digitHash coin.commitmentInputs).toBytes = (digitHash other.commitmentInputs).toBytes
    rw [hinputs]
  rcases hbinds hsame with hcoins | hcollides
  · exact hnonce hcoins.nonce
  · exact hcollides.1 hinputs

end ShieldedCoinNote

end Noxipher
