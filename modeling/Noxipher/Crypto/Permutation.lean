import Noxipher.Crypto.Poseidon
import Noxipher.Library.SubstitutionNetwork
import Mathlib.LinearAlgebra.Matrix.Determinant.Basic

namespace Noxipher.Poseidon

theorem residues_injective : Function.Injective residues := by
  intro s t h
  apply Vector.ext
  intro i hi
  exact FieldElement.residue_injective (congrFun h ⟨i, hi⟩)

theorem residues_surjective : Function.Surjective residues := by
  intro x
  refine ⟨Vector.ofFn fun i => FieldElement.ofNat (x i).val, ?_⟩
  funext i
  simp [residues_apply]

/-- Five is prime to the order of the unit group. -/
theorem fifth_power_injective : Function.Injective (fun x : ZMod Fr.MODULUS => x^5) := by
  apply pow_injective_of_coprime (by decide)
  rw [ZMod.card]
  decide +kernel

def mixMatrix : Matrix (Fin WIDTH) (Fin WIDTH) (ZMod Fr.MODULUS) :=
  fun i j => (((MDS.getD i []).getD j 0 : Nat) : ZMod Fr.MODULUS)

theorem mixMatrix_det : mixMatrix.det ≠ 0 := by
  let entry (i j : Nat) : Int := (MDS.getD i []).getD j 0
  have hcast : mixMatrix.det =
      ((entry 0 0*entry 1 1*entry 2 2-entry 0 0*entry 1 2*entry 2 1-entry 0 1*entry 1 0*entry 2 2+
        entry 0 1*entry 1 2*entry 2 0+entry 0 2*entry 1 0*entry 2 1-entry 0 2*entry 1 1*entry 2 0 : Int) :
        ZMod Fr.MODULUS) := by
    rw [Matrix.det_fin_three]
    push_cast
    rfl
  rw [hcast, Ne, ZMod.intCast_zmod_eq_zero_iff_dvd]
  decide +kernel

/-- The rounds that substitute in every lane. -/
def FullRound (r : Nat) : Prop := r < FULL_ROUNDS/2 ∨ FULL_ROUNDS/2+PARTIAL_ROUNDS ≤ r

instance (r : Nat) : Decidable (FullRound r) := inferInstanceAs (Decidable (_ ∨ _))

/-- The permutation in the terms of a network over the residue classes. -/
def network : SubstitutionNetwork (Fin WIDTH) (ZMod Fr.MODULUS) where
  mix := mixMatrix
  mix_det := mixMatrix_det
  subst r i := if FullRound r ∨ i.val = 2 then fun x => x^5 else id
  subst_injective r i := by
    split_ifs
    · exact fifth_power_injective
    · exact Function.injective_id
  constants r i := (((linearConstants r).getD i 0 : Nat) : ZMod Fr.MODULUS)

theorem residues_linearLayer (state : State) (r : Nat) :
    residues (linearLayer state r) = mixMatrix.mulVec (residues state)+network.constants r := by
  have hfin : List.finRange WIDTH = [0, 1, 2] := by decide
  funext i
  simp only [residues_apply, linearLayer, linearEntry, hfin, List.foldl_cons, List.foldl_nil, Fin.getElem_fin,
    Vector.getElem_ofFn, FieldElement.residue_add, FieldElement.residue_mul, FieldElement.residue_ofNat,
    Nat.cast_zero, zero_add, Pi.add_apply, Matrix.mulVec, dotProduct, Fin.sum_univ_three]
  rfl

theorem residues_fullRound {r : Nat} (hr : FullRound r) (state : State) :
    residues (fullRound state r) = network.round (residues state) r := by
  rw [fullRound, residues_linearLayer, SubstitutionNetwork.round]
  congr 2
  funext i
  simp [residues_apply, network, sbox, hr]

theorem residues_partialRound {r : Nat} (hr : ¬ FullRound r) (state : State) :
    residues (partialRound state r) = network.round (residues state) r := by
  rw [partialRound, residues_linearLayer, SubstitutionNetwork.round]
  congr 2
  funext i
  by_cases hi : i.val = 2
  · simp [residues_apply, network, sbox, hi]
  · simp [residues_apply, network, hr, hi, Ne.symm hi]

def firstConstants : Fin WIDTH → ZMod Fr.MODULUS := fun i =>
  (((ROUND_CONSTANTS.getD 0 []).getD i 0 : Nat) : ZMod Fr.MODULUS)

theorem residues_addFirstConstants (state : State) :
    residues (addFirstConstants state) = residues state+firstConstants := by
  funext i
  simp [residues_apply, addFirstConstants, firstConstants]

def schedule : List Nat := List.range (FULL_ROUNDS+PARTIAL_ROUNDS)

/-- The three loops of the code run the network through all its rounds. -/
theorem residues_permutation (state : State) :
    residues (permutation state) = network.run schedule (residues state+firstConstants) := by
  have hschedule : schedule = List.range 4++List.range' 4 60++List.range' 64 4 := by decide
  have hfirst (r : Nat) (hr : r ∈ List.range 4) : FullRound r := Or.inl (List.mem_range.mp hr)
  have hmiddle (r : Nat) (hr : r ∈ List.range' 4 60) : ¬ FullRound r := by
    rw [List.mem_range'_1] at hr
    unfold FullRound FULL_ROUNDS PARTIAL_ROUNDS
    omega
  have hlast (r : Nat) (hr : r ∈ List.range' 64 4) : FullRound r := by
    rw [List.mem_range'_1] at hr
    exact Or.inr hr.1
  rw [← residues_addFirstConstants, SubstitutionNetwork.run, hschedule, List.foldl_append, List.foldl_append,
    ← foldl_simulates residues _ fun r hr => residues_fullRound (hfirst r hr),
    ← foldl_simulates residues _ fun r hr => residues_partialRound (hmiddle r hr),
    ← foldl_simulates residues _ fun r hr => residues_fullRound (hlast r hr)]
  rfl

theorem permutation_injective : Function.Injective permutation := by
  intro s t h
  apply residues_injective
  apply add_right_cancel (b := firstConstants)
  apply network.run_injective schedule
  rw [← residues_permutation, ← residues_permutation, h]

theorem permutation_surjective : Function.Surjective permutation := by
  intro t
  obtain ⟨x, hx⟩ := (network.run_bijective schedule).surjective (residues t)
  obtain ⟨s, hs⟩ := residues_surjective (x-firstConstants)
  refine ⟨s, residues_injective ?_⟩
  rw [residues_permutation, hs, sub_add_cancel, hx]

/-- The permutation is one: it keeps distinct states apart and reaches every state. -/
theorem permutation_bijective :
    (∀ s t : State, s ≠ t → permutation s ≠ permutation t) ∧ ∀ t : State, ∃ s : State, permutation s = t :=
  ⟨fun _ _ hne h => hne (permutation_injective h), permutation_surjective⟩

theorem permutation_bijective_lanes :
    permutation (Vector.replicate WIDTH (FieldElement.ofNat 0)) ≠
      permutation (addAt (Vector.replicate WIDTH (FieldElement.ofNat 0)) 2 (FieldElement.ofNat 1)) :=
  permutation_bijective.1 _ _ (by decide)

theorem addAt_injective (j : Fin WIDTH) (val : Fr) : Function.Injective fun register => addAt register j val := by
  intro s t h
  apply residues_injective
  funext i
  have hi := congrFun (congrArg residues h) i
  by_cases hij : i = j
  · subst hij
    have hsum : (s[i]+val).residue = (t[i]+val).residue := by simpa [residues_apply, addAt] using hi
    rw [FieldElement.residue_add, FieldElement.residue_add] at hsum
    exact add_right_cancel hsum
  · have hne : j.val ≠ i.val := fun he => hij (Fin.ext he.symm)
    simpa [residues_apply, addAt, hne] using hi

/-- Registers that read the same inputs stay apart. -/
theorem absorb_injective (inputs : List Fr) : Function.Injective fun register => absorb register inputs := by
  intro s t h
  induction s, inputs using absorb.induct generalizing t with
  | case1 s => exact h
  | case2 s x => exact addAt_injective 0 x (permutation_injective h)
  | case3 s x y rest ih => exact addAt_injective 0 x (addAt_injective 1 y (permutation_injective (ih h)))

/-- One chunk is read into the first lanes, beside the number of inputs. -/
theorem hashRegister_chunk (inputs : List Fr) (hpos : 0 < inputs.length) (hle : inputs.length ≤ RATE) :
    ∃ s : State, hashRegister inputs = permutation s ∧
      residues s = ![(inputs.getD 0 (FieldElement.ofNat 0)).residue, (inputs.getD 1 (FieldElement.ofNat 0)).residue,
        (inputs.length : ZMod Fr.MODULUS)] := by
  match inputs with
  | [] => exact absurd hpos (Nat.lt_irrefl 0)
  | [x] =>
    refine ⟨addAt _ 0 x, by rw [hashRegister, absorb], ?_⟩
    funext i
    fin_cases i <;> simp [residues_apply, addAt]
  | [x, y] =>
    refine ⟨addAt (addAt _ 0 x) 1 y, by rw [hashRegister, absorb, absorb], ?_⟩
    funext i
    fin_cases i <;> simp [residues_apply, addAt]
  | _::_::_::_ => simp [RATE] at hle

/-- Inputs of one chunk never leave the sponge in one state, whether one or two of them. -/
theorem hashRegister_separates {xs ys : List Fr} (hx : 0 < xs.length ∧ xs.length ≤ RATE)
    (hy : 0 < ys.length ∧ ys.length ≤ RATE) (h : hashRegister xs = hashRegister ys) : xs = ys := by
  obtain ⟨s, hs, hxs⟩ := hashRegister_chunk xs hx.1 hx.2
  obtain ⟨t, ht, hyt⟩ := hashRegister_chunk ys hy.1 hy.2
  have hst : s = t := permutation_injective (hs.symm.trans (h.trans ht))
  rw [hst, hyt] at hxs
  have hlanes := congrFun hxs
  have hfirst : ys.getD 0 _ = xs.getD 0 _ := FieldElement.residue_injective (hlanes 0)
  have hsecond : ys.getD 1 _ = xs.getD 1 _ := FieldElement.residue_injective (hlanes 1)
  have hsmall {n : Nat} (hn : n ≤ RATE) : n < Fr.MODULUS := hn.trans_lt (by decide)
  have hlength : ys.length = xs.length := by
    have hcast := (ZMod.natCast_eq_natCast_iff' ys.length xs.length Fr.MODULUS).mp (hlanes 2)
    rwa [Nat.mod_eq_of_lt (hsmall hy.2), Nat.mod_eq_of_lt (hsmall hx.2)] at hcast
  apply List.ext_getElem hlength.symm
  intro i hi hi'
  have hcases : i = 0 ∨ i = 1 := by
    have hrate := hx.2
    unfold RATE at hrate
    omega
  rw [List.getElem_eq_getD (FieldElement.ofNat 0), List.getElem_eq_getD (FieldElement.ofNat 0)]
  rcases hcases with rfl | rfl
  · exact hfirst.symm
  · exact hsecond.symm

/-- Where two such inputs have one hash, they differ in the lanes it drops. -/
theorem transientHash_collision {xs ys : List Fr} (hx : 0 < xs.length ∧ xs.length ≤ RATE)
    (hy : 0 < ys.length ∧ ys.length ≤ RATE) (hne : xs ≠ ys) (h : transientHash xs = transientHash ys) :
    (hashRegister xs)[1] ≠ (hashRegister ys)[1] ∨ (hashRegister xs)[2] ≠ (hashRegister ys)[2] := by
  by_contra hsame
  rw [not_or, not_not, not_not] at hsame
  obtain ⟨h1, h2⟩ := hsame
  apply hne
  apply hashRegister_separates hx hy
  apply Vector.ext
  intro i hi
  have hcases : i = 0 ∨ i = 1 ∨ i = 2 := by
    change i < 3 at hi
    omega
  rcases hcases with rfl | rfl | rfl
  · exact h
  · exact h1
  · exact h2

end Noxipher.Poseidon
