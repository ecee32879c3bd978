import Mathlib.Tactic.Common
import Mathlib.Tactic.Ring
import Mathlib.Data.Int.Order.Basic
import Mathlib.Tactic.Positivity

namespace Noxipher.HashTree

variable {α : Type} (hash : α → α → α)

/-- Level `l` of the full binary tree over `leaf`; leaves are at level zero. -/
def node (leaf : Int → α) : Nat → Int → α
  | 0, i => leaf i
  | l+1, i => hash (node leaf l (2*i)) (node leaf l (2*i+1))

/-- The node of a subtree all of whose leaves hold the same value. -/
def blank (z : α) : Nat → α
  | 0 => z
  | l+1 => hash (blank z l) (blank z l)

/-- The complete tree of depth `d` over the leaves from `first` on, split into its two halves. -/
def dense (leaf : Int → α) : Nat → Int → α
  | 0, first => leaf first
  | d+1, first => hash (dense leaf d first) (dense leaf d (first+2^d))

theorem dense_eq_node (leaf : Int → α) (d : Nat) (i : Int) : dense hash leaf d (i*2^d) = node hash leaf d i := by
  induction d generalizing i with
  | zero => simp [dense, node]
  | succ d ih =>
    have hleft : i*2^(d+1) = (2*i)*2^d := by ring
    have hright : i*2^(d+1)+2^d = (2*i+1)*2^d := by ring
    simp only [dense, node]
    rw [hright, hleft, ih, ih]

/-- Only the `2^d` leaves from `first` on count. -/
theorem dense_congr {leaf leaf' : Int → α} (d : Nat) (first : Int)
    (h : ∀ i, first ≤ i → i < first+2^d → leaf i = leaf' i) :
    dense hash leaf d first = dense hash leaf' d first := by
  induction d generalizing first with
  | zero => exact h first (by omega) (by simp)
  | succ d ih =>
    have hwidth : (2:Int)^(d+1) = 2^d+2^d := by ring
    have hpos : (0:Int) < 2^d := by positivity
    simp only [dense]
    rw [ih first (fun i hlow hhigh => h i hlow (by omega)),
      ih (first+2^d) (fun i hlow hhigh => h i (by omega) (by omega))]

def sibling (i : Int) : Int := if i % 2 = 0 then i+1 else i-1

/-- Climb from `x` at index `i`; the index bit says on which side the sibling stands. -/
def climb : List α → Int → α → α
  | [], _, x => x
  | s::ss, i, x => climb ss (i/2) (if i % 2 = 0 then hash x s else hash s x)

/-- The siblings met on the way from level `l` up `n` levels. -/
def siblings (leaf : Int → α) : Nat → Nat → Int → List α
  | 0, _, _ => []
  | n+1, l, i => node hash leaf l (sibling i) :: siblings leaf n (l+1) (i/2)

theorem siblings_length (leaf : Int → α) (n l : Nat) (i : Int) :
    (siblings hash leaf n l i).length = n := by
  induction n generalizing l i with
  | zero => rfl
  | succ n ih => simp [siblings, ih]

theorem node_parent (leaf : Int → α) (l : Nat) (i : Int) :
    node hash leaf (l+1) (i/2) =
      if i % 2 = 0 then hash (node hash leaf l i) (node hash leaf l (sibling i))
      else hash (node hash leaf l (sibling i)) (node hash leaf l i) := by
  by_cases h : i % 2 = 0
  · have hl : 2*(i/2) = i := by omega
    simp only [node, sibling, h, if_true, hl]
  · have hl : 2*(i/2) = i-1 := by omega
    simp only [node, sibling, h, if_false, hl, sub_add_cancel]

/-- Climbing with the tree's own siblings reaches the tree's own ancestor. -/
theorem climb_siblings (leaf : Int → α) (n l : Nat) (i : Int) :
    climb hash (siblings hash leaf n l i) i (node hash leaf l i) = node hash leaf (l+n) (i/2^n) := by
  induction n generalizing l i with
  | zero => simp [siblings, climb]
  | succ n ih =>
    have hdiv : i/2^(n+1) = i/2/2^n := by
      rw [pow_succ', Int.ediv_ediv_of_nonneg (by norm_num)]
    simp only [siblings, climb]
    rw [← node_parent, ih (l+1) (i/2), hdiv]
    congr 1
    omega

/-- A partial map stands for level `l` when its gaps are read as blank subtrees. -/
def Stands (z : α) (leaf : Int → α) (l : Nat) (nodes : Int → Option α) : Prop :=
  ∀ i, (nodes i).getD (blank hash z l) = node hash leaf l i

/-- One sparse level up: a parent is present exactly when one of its children is. -/
theorem Stands.up (z : α) (leaf : Int → α) (l : Nat) (nodes parents : Int → Option α)
    (hs : Stands hash z leaf l nodes)
    (habs : ∀ p, parents p = none → nodes (2*p) = none ∧ nodes (2*p+1) = none)
    (hval : ∀ p x, parents p = some x → x = hash ((nodes (2*p)).getD (blank hash z l))
      ((nodes (2*p+1)).getD (blank hash z l))) :
    Stands hash z leaf (l+1) parents := by
  intro p
  cases hp : parents p with
  | none =>
    obtain ⟨hl, hr⟩ := habs p hp
    have h0 := hs (2*p)
    have h1 := hs (2*p+1)
    rw [hl, Option.getD_none] at h0
    rw [hr, Option.getD_none] at h1
    rw [Option.getD_none, blank, node, ← h0, ← h1]
  | some x =>
    rw [Option.getD_some, hval p x hp, hs, hs, node]

/-- The children of one position of two trees: different pairs with the same hash. -/
def Collides (leaf leaf' : Int → α) (l : Nat) (k : Int) : Prop :=
  (node hash leaf l (2*k), node hash leaf l (2*k+1)) ≠ (node hash leaf' l (2*k), node hash leaf' l (2*k+1)) ∧
  hash (node hash leaf l (2*k)) (node hash leaf l (2*k+1)) =
    hash (node hash leaf' l (2*k)) (node hash leaf' l (2*k+1))

/-- Equal nodes have equal leaves below them, or the descent meets a collision. -/
theorem leaves_or_collision (leaf leaf' : Int → α) (n : Nat) (i : Int) (h : node hash leaf n i = node hash leaf' n i) :
    (∀ j, j/2^n = i → leaf j = leaf' j) ∨ ∃ l < n, ∃ k, k/2^(n-1-l) = i ∧ Collides hash leaf leaf' l k := by
  induction n generalizing i with
  | zero =>
    left
    intro j hj
    rw [pow_zero, Int.ediv_one] at hj
    rw [hj]
    exact h
  | succ n ih =>
    have hdiv (j : Int) (m : Nat) : j/2^(m+1) = j/2^m/2 := by
      rw [pow_succ, Int.ediv_ediv_of_nonneg (by positivity)]
    by_cases hpair : (node hash leaf n (2*i), node hash leaf n (2*i+1)) =
        (node hash leaf' n (2*i), node hash leaf' n (2*i+1))
    · obtain ⟨hl, hr⟩ := Prod.mk.inj hpair
      -- a collision below either child is one below the parent
      have hlift (c : Int) (hc : c/2 = i)
          (hcol : ∃ l < n, ∃ k, k/2^(n-1-l) = c ∧ Collides hash leaf leaf' l k) :
          ∃ l < n+1, ∃ k, k/2^(n+1-1-l) = i ∧ Collides hash leaf leaf' l k := by
        obtain ⟨l, hln, k, hk, hcol⟩ := hcol
        refine ⟨l, by omega, k, ?_, hcol⟩
        have hexp : n+1-1-l = n-1-l+1 := by omega
        rw [hexp, hdiv, hk, hc]
      rcases ih (2*i) hl with hleft | hcol
      · rcases ih (2*i+1) hr with hright | hcol
        · left
          intro j hj
          rw [hdiv] at hj
          by_cases heven : j/2^n = 2*i
          · exact hleft j heven
          · exact hright j (by omega)
        · exact Or.inr (hlift (2*i+1) (by omega) hcol)
      · exact Or.inr (hlift (2*i) (by omega) hcol)
    · exact Or.inr ⟨n, by omega, i, by simp, hpair, h⟩

/-- A node depends on the leaves below it only. -/
theorem node_congr {leaf leaf' : Int → α} (n : Nat) (i : Int) (h : ∀ j, j/2^n = i → leaf j = leaf' j) :
    node hash leaf n i = node hash leaf' n i := by
  induction n generalizing i with
  | zero => exact h i (by simp)
  | succ n ih =>
    have hdiv (j : Int) : j/2^(n+1) = j/2^n/2 := by rw [pow_succ, Int.ediv_ediv_of_nonneg (by positivity)]
    simp only [node]
    rw [ih (2*i) (fun j hj => h j (by rw [hdiv, hj]; omega)), ih (2*i+1) (fun j hj => h j (by rw [hdiv, hj]; omega))]

/-- The index bit orders the value and its sibling. -/
def pairAt (i : Int) (x s : α) : α × α := if i % 2 = 0 then (x, s) else (s, x)

/-- The pairs that a climb hashes, from the leaf upwards. -/
def rungs : List α → Int → α → List (α × α)
  | [], _, _ => []
  | s::ss, i, x => pairAt i x s :: rungs ss (i/2) (if i % 2 = 0 then hash x s else hash s x)

/-- The two children of a node of the tree. -/
def children (leaf : Int → α) (l : Nat) (k : Int) : α × α := (node hash leaf l (2*k), node hash leaf l (2*k+1))

theorem pairAt_children {leaf : Int → α} {l : Nat} {i : Int} {x s : α}
    (h : pairAt i x s = children hash leaf l (i/2)) :
    x = node hash leaf l i ∧ s = node hash leaf l (sibling i) := by
  unfold pairAt children at h
  split_ifs at h with hbit
  · obtain ⟨hx, hs⟩ := Prod.mk.inj h
    have hleft : 2*(i/2) = i := by omega
    rw [hleft] at hx hs
    exact ⟨hx, by rw [sibling, if_pos hbit, hs]⟩
  · obtain ⟨hs, hx⟩ := Prod.mk.inj h
    have hleft : 2*(i/2) = i-1 := by omega
    rw [hleft] at hx hs
    exact ⟨by rw [hx, sub_add_cancel], by rw [sibling, if_neg hbit, hs]⟩

/-- Whoever reaches a node of the tree started from its own leaf and passed its own siblings, or one of the pairs hashed
on the way collides with the children of the node above it. -/
theorem climb_pins_or_collision (leaf : Int → α) (ss : List α) (l : Nat) (i : Int) (x : α)
    (h : climb hash ss i x = node hash leaf (l+ss.length) (i/2^ss.length)) :
    (x = node hash leaf l i ∧ ss = siblings hash leaf ss.length l i) ∨
    ∃ k pair, (rungs hash ss i x)[k]? = some pair ∧ pair ≠ children hash leaf (l+k) (i/2^(k+1)) ∧
      hash pair.1 pair.2 = hash (children hash leaf (l+k) (i/2^(k+1))).1 (children hash leaf (l+k) (i/2^(k+1))).2 := by
  induction ss generalizing l i x with
  | nil => exact Or.inl ⟨by simpa [climb] using h, rfl⟩
  | cons s ss ih =>
    have hdiv (m : Nat) : i/2/2^m = i/2^(m+1) := by rw [pow_succ', Int.ediv_ediv_of_nonneg (by norm_num)]
    have hup : climb hash ss (i/2) (if i % 2 = 0 then hash x s else hash s x) =
        node hash leaf (l+1+ss.length) (i/2/2^ss.length) := by
      have hlevel : l+1+ss.length = l+(s::ss).length := by
        rw [List.length_cons]
        omega
      rw [hdiv, hlevel]
      exact h
    rcases ih (l+1) (i/2) _ hup with ⟨hparent, hrest⟩ | ⟨k, pair, hpair, hne, hhash⟩
    · have hhash : hash (pairAt i x s).1 (pairAt i x s).2 =
          hash (children hash leaf l (i/2)).1 (children hash leaf l (i/2)).2 := by
        rw [node] at hparent
        rw [children, ← hparent, pairAt]
        split_ifs <;> rfl
      by_cases hpair : pairAt i x s = children hash leaf l (i/2)
      · obtain ⟨hx, hs⟩ := pairAt_children hash hpair
        exact Or.inl ⟨hx, by rw [List.length_cons, siblings, ← hs, ← hrest]⟩
      · refine Or.inr ⟨0, pairAt i x s, by simp [rungs], ?_, ?_⟩
        · simpa using hpair
        · simpa using hhash
    · refine Or.inr ⟨k+1, pair, by simpa [rungs] using hpair, ?_, ?_⟩
      · rw [hdiv (k+1), Nat.add_right_comm, Nat.add_assoc] at hne
        exact hne
      · rw [hdiv (k+1), Nat.add_right_comm, Nat.add_assoc] at hhash
        exact hhash

/-- Another leaf lies below the sibling of an ancestor at one height at most. -/
theorem sibling_height_unique {i j : Int} {a b : Nat} (ha : j/2^a = sibling (i/2^a)) (hb : j/2^b = sibling (i/2^b)) :
    a = b := by
  have hdiv (x : Int) (m k : Nat) : x/2^(m+k) = x/2^m/2^k := by
    rw [pow_add, Int.ediv_ediv_of_nonneg (by positivity)]
  -- above a height where they part, the ancestors are the same
  have hmeet {m n : Nat} (hm : j/2^m = sibling (i/2^m)) (hn : j/2^n = sibling (i/2^n)) (hlt : m < n) : False := by
    obtain ⟨k, rfl⟩ : ∃ k, n = m+(1+k) := ⟨n-m-1, by omega⟩
    have hsame : j/2^m/2 = i/2^m/2 := by
      rw [hm, sibling]
      split_ifs <;> omega
    have habove : j/2^(m+(1+k)) = i/2^(m+(1+k)) := by
      rw [hdiv j, hdiv i, pow_add, pow_one, ← Int.ediv_ediv_of_nonneg (by norm_num),
        ← Int.ediv_ediv_of_nonneg (by norm_num), hsame]
    rw [habove, sibling] at hn
    split_ifs at hn <;> omega
  rcases Nat.lt_trichotomy a b with hlt | he | hlt
  · exact (hmeet ha hb hlt).elim
  · exact he
  · exact (hmeet hb ha hlt).elim

end Noxipher.HashTree
