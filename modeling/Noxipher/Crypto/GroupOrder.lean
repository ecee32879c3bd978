import Noxipher.Crypto.Binding

namespace Noxipher

/-- A number, a generator modulo it, and the prime factors of its predecessor. -/
structure Rung where
  number : Nat
  generator : Nat
  factors : List Nat

namespace Rung

/-- The numeric part of `prime_of_generator`, with every factor among those known to be prime. -/
def Holds (known : List Nat) (rung : Rung) : Prop :=
  1 < rung.number ∧ rung.factors.prod = rung.number-1 ∧
    powMod rung.generator (rung.number-1) rung.number = 1 ∧
    ∀ q ∈ rung.factors, q ∈ known ∧ powMod rung.generator ((rung.number-1)/q) rung.number ≠ 1

instance (known : List Nat) (rung : Rung) : Decidable (rung.Holds known) := inferInstanceAs (Decidable (_ ∧ _))

theorem Holds.prime {known : List Nat} {rung : Rung} (h : rung.Holds known) (hknown : ∀ q ∈ known, q.Prime) :
    rung.number.Prime := by
  obtain ⟨hp, hprod, hone, hfactors⟩ := h
  exact prime_of_generator rung.number rung.generator rung.factors hp hprod
    (fun q hq => hknown q (hfactors q hq).1) hone (fun q hq => (hfactors q hq).2)

/-- Every rung stands on those before it. -/
def Ladder : List Nat → List Rung → Prop
  | _, [] => True
  | known, rung::rungs => rung.Holds known ∧ Ladder (rung.number::known) rungs

instance Ladder.decidable : (known : List Nat) → (rungs : List Rung) → Decidable (Ladder known rungs)
  | _, [] => isTrue trivial
  | known, rung::rungs =>
    have : Decidable (Ladder (rung.number::known) rungs) := Ladder.decidable (rung.number::known) rungs
    inferInstanceAs (Decidable (_ ∧ _))

theorem Ladder.prime {known : List Nat} {rungs : List Rung} (h : Ladder known rungs) (hknown : ∀ q ∈ known, q.Prime) :
    ∀ rung ∈ rungs, rung.number.Prime := by
  induction rungs generalizing known with
  | nil => simp
  | cons rung rungs ih =>
    have hfirst := h.1.prime hknown
    intro other hother
    rcases List.mem_cons.mp hother with rfl | hother
    · exact hfirst
    · exact ih h.2 (List.forall_mem_cons.mpr ⟨hfirst, hknown⟩) other hother

end Rung

def smallFactors : List Nat :=
  [2, 3, 5, 7, 11, 23, 311, 457, 499, 1361, 1699, 5521, 12281, 19861, 62701, 74149, 567097, 6566909, 187256983]

def orderLadder : List Rung :=
  [⟨2567293236931, 2, [2, 3, 5, 457, 187256983]⟩,
    ⟨431305263804409, 13, [2, 2, 2, 3, 7, 2567293236931]⟩,
    ⟨203928654140967434528233, 5, [2, 2, 2, 3, 3, 6566909, 431305263804409]⟩,
    ⟨1036009829, 2, [2, 2, 7, 499, 74149]⟩,
    ⟨35203613989421, 2, [2, 2, 5, 1699, 1036009829]⟩,
    ⟨12954929948106929, 3, [2, 2, 2, 2, 23, 35203613989421]⟩,
    ⟨1710050753150114629, 6, [2, 2, 3, 11, 12954929948106929]⟩,
    ⟨16356472538621, 2, [2, 2, 5, 23, 62701, 567097]⟩,
    ⟨623312455501769069, 2, [2, 2, 7, 1361, 16356472538621]⟩,
    ⟨255074062430788457494141376149, 2, [2, 2, 3, 311, 5521, 19861, 623312455501769069]⟩,
    ⟨JUBJUB_ORDER, 6, [2, 3, 12281, 1710050753150114629, 203928654140967434528233, 255074062430788457494141376149]⟩]

theorem JUBJUB_ORDER_prime : JUBJUB_ORDER.Prime := by
  have hladder : Rung.Ladder smallFactors orderLadder := by decide +kernel
  have hsmall : ∀ q ∈ smallFactors, q.Prime := by norm_num [smallFactors]
  have hlast : (⟨JUBJUB_ORDER, 6, [2, 3, 12281, 1710050753150114629, 203928654140967434528233,
      255074062430788457494141376149]⟩ : Rung) ∈ orderLadder := by simp [orderLadder]
  exact hladder.prime hsmall _ hlast

namespace JubJubPoint

theorem Stands.double {p : JubJubPoint} {P : JubJub} {n : Nat} (hp : Stands p (n • P)) :
    Stands (p.add p) ((2*n) • P) := by
  rw [two_mul, add_nsmul]
  exact hp.add hp

theorem Stands.eq_zero_iff {p : JubJubPoint} {P : JubJub} (hp : Stands p P) : P = 0 ↔ p = identity := by
  constructor
  · rintro rfl
    exact hp.unique identity_stands
  · rintro rfl
    exact hp.eq identity_stands

/-- The hard-coded generator generates the whole cyclic group, cofactor included. -/
theorem addOrderOf_base : addOrderOf base = 8*JUBJUB_ORDER := by
  have htwo := torsion_stands.double
  have hfour := htwo.double
  have height := hfour.double
  have hbase : Stands generator (1 • base) := by
    rw [one_nsmul]
    exact generator_stands
  have hcofactor := hbase.double.double.double
  apply addOrderOf_eq_of_nsmul_and_div_prime_nsmul
  · decide
  · have h := height.eq_zero_iff.mpr (by decide +kernel)
    rwa [show 2*(2*(2*JUBJUB_ORDER)) = 8*JUBJUB_ORDER by omega] at h
  · intro q hq hdvd
    rcases (Nat.Prime.dvd_mul hq).mp hdvd with hsmall | hlarge
    · have htwo' : q = 2 := by
        have hpow : q ∣ 2^3 := hsmall
        exact (Nat.prime_dvd_prime_iff_eq hq Nat.prime_two).mp (hq.dvd_of_dvd_pow hpow)
      subst htwo'
      have h := hfour.eq_zero_iff.not.mpr (by decide +kernel)
      rwa [show 2*(2*JUBJUB_ORDER) = 8*JUBJUB_ORDER/2 by omega] at h
    · have horder : q = JUBJUB_ORDER := (Nat.prime_dvd_prime_iff_eq hq JUBJUB_ORDER_prime).mp hlarge
      subst horder
      have h := hcofactor.eq_zero_iff.not.mpr (by decide +kernel)
      rwa [show 2*(2*(2*1)) = 8*JUBJUB_ORDER/JUBJUB_ORDER by rfl] at h

/-- Multiples below the order are told apart. -/
theorem nsmul_base_inj {a b : Nat} (ha : a < 8*JUBJUB_ORDER) (hb : b < 8*JUBJUB_ORDER) :
    a • base = b • base ↔ a = b := by
  rw [nsmul_eq_nsmul_iff_modEq, addOrderOf_base, Nat.ModEq, Nat.mod_eq_of_lt ha, Nat.mod_eq_of_lt hb]

end JubJubPoint

end Noxipher
