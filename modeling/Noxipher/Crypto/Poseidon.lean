import Noxipher.Crypto.Residues
import Noxipher.Crypto.PoseidonConstants

namespace Noxipher.Poseidon

abbrev WIDTH : Nat := 3

def RATE : Nat := 2

def FULL_ROUNDS : Nat := 8

def PARTIAL_ROUNDS : Nat := 60

/-- The list of field elements a permutation works on. -/
abbrev State := Vector Fr WIDTH

def sbox (x : Fr) : Fr := x^5

/-- One entry of the sum `constants + MDS*state`, accumulated as the inner loop does. -/
def linearEntry (constants : List Nat) (state : State) (i : Fin WIDTH) : Fr :=
  let val := (List.finRange WIDTH).foldl
    (fun (val : Fr) (j : Fin WIDTH) => val+FieldElement.ofNat ((MDS.getD i []).getD j 0)*state[j]) (FieldElement.ofNat 0)
  val+FieldElement.ofNat (constants.getD i 0)

/-- The row after the round's own; the last round has none left and adds zeros. -/
def linearConstants (round_index : Nat) : List Nat :=
  if round_index+1 < ROUND_CONSTANTS.length then ROUND_CONSTANTS.getD (round_index+1) [] else [0, 0, 0]

def linearLayer (state : State) (round_index : Nat) : State :=
  Vector.ofFn (linearEntry (linearConstants round_index) state)

/-- The loop body of the full rounds. -/
def fullRound (state : State) (r : Nat) : State := linearLayer (state.map sbox) r

/-- The loop body of the partial rounds: the S-box on the last element only. -/
def partialRound (state : State) (r : Nat) : State :=
  linearLayer (state.set (WIDTH-1) (sbox state[WIDTH-1])) r

def addFirstConstants (state : State) : State :=
  Vector.ofFn fun i => state[i]+FieldElement.ofNat ((ROUND_CONSTANTS.getD 0 []).getD i 0)

def permutation (state : State) : State :=
  let total_rounds := FULL_ROUNDS+PARTIAL_ROUNDS
  let half_full := FULL_ROUNDS/2
  let state := addFirstConstants state
  let state := (List.range half_full).foldl fullRound state
  let state := (List.range' half_full PARTIAL_ROUNDS).foldl partialRound state
  (List.range' (half_full+PARTIAL_ROUNDS) (total_rounds-(half_full+PARTIAL_ROUNDS))).foldl fullRound state

/-- `register[j] += val` -/
def addAt (register : State) (j : Fin WIDTH) (val : Fr) : State := register.set j (register[j]+val)

/-- The chunks of at most `RATE` inputs, each added to the register and permuted. -/
def absorb (register : State) : List Fr → State
  | [] => register
  | [x] => permutation (addAt register 0 x)
  | x::y::rest => absorb (permutation (addAt (addAt register 0 x) 1 y)) rest

/-- The register of the sponge when `hash` has read its inputs. -/
def hashRegister (inputs : List Fr) : State :=
  absorb ((Vector.replicate WIDTH (FieldElement.ofNat 0)).set 2 (FieldElement.ofNat inputs.length)) inputs

def hash (inputs : List Fr) : Fr := (hashRegister inputs)[0]

def transientHash (elems : List Fr) : Fr := hash elems

/-- There is a row for each round, of canonical elements. -/
theorem constants_complete :
    ROUND_CONSTANTS.length = FULL_ROUNDS+PARTIAL_ROUNDS ∧ MDS.length = WIDTH ∧
    ∀ row ∈ ROUND_CONSTANTS++MDS, row.length = WIDTH ∧ ∀ c ∈ row, c < Fr.MODULUS := by
  decide +kernel

/-- No round reads past the end of its row. -/
theorem linearConstants_length (round_index : Nat) : (linearConstants round_index).length = WIDTH := by
  unfold linearConstants
  split_ifs with h
  · rw [← List.getElem_eq_getD (h := h) []]
    exact (constants_complete.2.2 _ (List.mem_append_left _ (List.getElem_mem h))).1
  · rfl

/-- The elements of a state as residue classes. -/
def residues (state : State) : Fin WIDTH → ZMod Fr.MODULUS := fun i => state[i].residue

theorem residues_apply (state : State) (i : Fin WIDTH) : residues state i = state[i].residue := rfl

end Noxipher.Poseidon
