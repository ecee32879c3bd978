import Noxipher.Crypto.GroupOrder
import Noxipher.Crypto.Keys

namespace Noxipher

open JubJubPoint

/-- What the compressed multiple of the generator tells: the randomness plus twice the value. -/
def openingScalar (randomness : Bytes) (value : Int) : Nat := randomScalar randomness+2*valueScalar value

theorem openingScalar_lt (randomness : Bytes) (value : Int) : openingScalar randomness value < 8*JUBJUB_ORDER := by
  have hr := randomScalar_lt randomness
  have hv := valueScalar_lt value
  unfold openingScalar
  omega

theorem computeBindingCommitment_eq_iff (randomness other_randomness : Bytes) (value other : Int) :
    computeBindingCommitment randomness value = computeBindingCommitment other_randomness other ↔
      openingScalar randomness value = openingScalar other_randomness other := by
  rw [computeBindingCommitment_inj_iff]
  exact nsmul_base_inj (openingScalar_lt randomness value) (openingScalar_lt other_randomness other)

/-- Every scalar below the order is the randomness of 32 bytes. -/
theorem randomScalar_surjective {n : Nat} (h : n < JUBJUB_ORDER) :
    ∃ randomness : Bytes, randomness.length = 32 ∧ randomScalar randomness = n := by
  have hfits : n < 256^32 := lt_trans h (by decide)
  refine ⟨leBytes 32 n, leBytes_length 32 n, ?_⟩
  rw [randomScalar, leValue_leBytes_of_lt 32 n hfits, Nat.mod_eq_of_lt h]

/-- A commitment fixes only the sum of the randomness and twice the value: it opens to another value exactly when the
randomness that is left over is a scalar. -/
theorem openings_iff (randomness : Bytes) (value other : Int) :
    (∀ other_randomness, computeBindingCommitment randomness value = computeBindingCommitment other_randomness other ↔
      leValue randomness % JUBJUB_ORDER+2*(value % JUBJUB_ORDER) =
        leValue other_randomness % JUBJUB_ORDER+2*(other % JUBJUB_ORDER)) ∧
    ((∃ other_randomness : Bytes, other_randomness.length = 32 ∧
        computeBindingCommitment randomness value = computeBindingCommitment other_randomness other) ↔
      2*(other % JUBJUB_ORDER) ≤ leValue randomness % JUBJUB_ORDER+2*(value % JUBJUB_ORDER) ∧
        leValue randomness % JUBJUB_ORDER+2*(value % JUBJUB_ORDER) < 2*(other % JUBJUB_ORDER)+JUBJUB_ORDER) := by
  have hcast (v : Int) : v % JUBJUB_ORDER = (valueScalar v : Int) := by
    unfold valueScalar JUBJUB_ORDER
    omega
  have hsum (other_randomness : Bytes) :
      computeBindingCommitment randomness value = computeBindingCommitment other_randomness other ↔
        (randomScalar randomness : Int)+2*valueScalar value = randomScalar other_randomness+2*valueScalar other := by
    rw [computeBindingCommitment_eq_iff, openingScalar, openingScalar]
    omega
  have hrandom (bs : Bytes) : (leValue bs : Int) % JUBJUB_ORDER = (randomScalar bs : Int) := by
    rw [randomScalar]
    exact (Int.natCast_mod _ _).symm
  simp only [hrandom]
  simp only [hcast]
  refine ⟨hsum, ?_⟩
  constructor
  · rintro ⟨other_randomness, -, hsame⟩
    have hlt := randomScalar_lt other_randomness
    rw [hsum] at hsame
    omega
  · rintro ⟨hlow, hhigh⟩
    obtain ⟨other_randomness, hlength, hscalar⟩ := randomScalar_surjective
      (show randomScalar randomness+2*valueScalar value-2*valueScalar other < JUBJUB_ORDER by omega)
    refine ⟨other_randomness, hlength, ?_⟩
    rw [hsum, hscalar]
    omega

/-- The encryption public key has only one secret key. -/
theorem encryptionPublicKey_inj {secret other : ZswapSecretKeys}
    (h : secret.encryptionPublicKey = other.encryptionPublicKey) :
    secret.encryption_secret_key = other.encryption_secret_key := by
  have hstands := generator_stands.mul secret.encryption_secret_key
  have hother := generator_stands.mul other.encryption_secret_key
  have hsame := hstands.onCurve.toBytes_inj hother.onCurve h
  rw [← hsame] at hother
  have hbound (scalar : EmbeddedFr) : scalar.value < 8*JUBJUB_ORDER := by
    have hlt : scalar.value < JUBJUB_ORDER := scalar.isLt
    omega
  exact FieldElement.ext ((nsmul_base_inj (hbound _) (hbound _)).mp (hstands.eq hother))

end Noxipher
