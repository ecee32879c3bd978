import Noxipher.Library.KeySort
import Mathlib.Algebra.BigOperators.Group.List.Basic
import Mathlib.Algebra.Order.BigOperators.Group.List
import Mathlib.Algebra.Ring.Int.Defs
import Mathlib.Data.List.Perm.Subperm

namespace Noxipher.Greedy

variable {α β : Type} (value : α → Int)

def total (l : List α) : Int := (l.map value).sum

@[simp] theorem total_nil : total value [] = 0 := rfl

@[simp] theorem total_cons (a : α) (l : List α) : total value (a::l) = value a+total value l := by
  simp [total]

theorem total_append (l m : List α) : total value (l++m) = total value l+total value m := by
  simp [total]

theorem total_perm {l m : List α} (h : l.Perm m) : total value l = total value m :=
  (h.map value).sum_eq

theorem total_nonneg {l : List α} (h : ∀ a ∈ l, 0 ≤ value a) : 0 ≤ total value l := by
  apply List.sum_nonneg
  intro x hx
  obtain ⟨a, ha, rfl⟩ := List.mem_map.mp hx
  exact h a ha

/-- Append items until the running total reaches `required`, which is tested after each item. -/
def takeUntil (required : Int) : List α → List α → Int → List α × Int
  | [], selected, current_total => (selected, current_total)
  | a::as, selected, current_total =>
    if required ≤ current_total+value a then (selected++[a], current_total+value a)
    else takeUntil required as (selected++[a]) (current_total+value a)

/-- Adding the items one after another never reaches `required`. -/
def Short (required : Int) : List α → Int → Prop
  | [], _ => True
  | a::as, current_total => current_total+value a < required ∧ Short required as (current_total+value a)

theorem Short.total_lt {required current_total : Int} {as : List α} (h : Short value required as current_total)
    (hne : as ≠ []) : current_total+total value as < required := by
  induction as generalizing current_total with
  | nil => exact absurd rfl hne
  | cons a as ih =>
    obtain ⟨hfirst, hrest⟩ := h
    cases as with
    | nil => simpa using hfirst
    | cons b as =>
      have hlast := ih hrest (by simp)
      rw [total_cons value a]
      omega

theorem Short.of_append {required current_total : Int} {before after : List α}
    (h : Short value required (before++after) current_total) : Short value required before current_total := by
  induction before generalizing current_total with
  | nil => trivial
  | cons a before ih => exact ⟨h.1, ih h.2⟩

/-- What comes before an item that is still short of the total is short of it, too. -/
theorem Short.prefix_lt {required current_total : Int} {before after : List α}
    (h : Short value required (before++after) current_total) (hcur : current_total < required) :
    current_total+total value before < required := by
  induction before generalizing current_total with
  | nil => simpa using hcur
  | cons a before ih =>
    have hrest := ih h.2 h.1
    rw [total_cons]
    omega

/-- So is what comes before the item that reaches the total. -/
theorem Short.proper_prefix_lt {required current_total : Int} {before first rest : List α} {last a : α}
    (h : Short value required before current_total) (hcur : current_total < required)
    (hsplit : before++[last] = first++a::rest) : current_total+total value first < required := by
  have hbefore : before = first++(a::rest).dropLast := by
    have hdrop := congrArg List.dropLast hsplit
    rwa [List.dropLast_concat, List.dropLast_append_of_ne_nil (List.cons_ne_nil a rest)] at hdrop
  rw [hbefore] at h
  exact h.prefix_lt value hcur

/-- Items of positive value stay short as long as their total does. -/
theorem short_of_pos {required current_total : Int} {as : List α} (hpos : ∀ a ∈ as, 0 < value a)
    (h : current_total+total value as < required) : Short value required as current_total := by
  induction as generalizing current_total with
  | nil => trivial
  | cons a as ih =>
    rw [total_cons] at h
    have hrest : 0 ≤ total value as := total_nonneg value (fun b hb => (hpos b (by simp [hb])).le)
    refine ⟨by omega, ?_⟩
    apply ih (fun b hb => hpos b (by simp [hb]))
    omega

/-- Either no item reaches the total, or a first one does. -/
theorem short_or_reached (required : Int) (as : List α) (current_total : Int) :
    Short value required as current_total ∨
    ∃ before a after, as = before++a::after ∧ Short value required before current_total ∧
      required ≤ current_total+total value before+value a := by
  induction as generalizing current_total with
  | nil => exact Or.inl trivial
  | cons a as ih =>
    by_cases h : required ≤ current_total+value a
    · exact Or.inr ⟨[], a, as, rfl, trivial, by simpa using h⟩
    · rcases ih (current_total+value a) with hshort | ⟨before, b, after, rfl, hshort, hreach⟩
      · exact Or.inl ⟨not_le.mp h, hshort⟩
      · refine Or.inr ⟨a::before, b, after, rfl, ⟨not_le.mp h, hshort⟩, ?_⟩
        rw [total_cons]
        omega

/-- The items that are reached are those up to the first that reaches the total. -/
theorem reached_iff {required current_total : Int} {before : List α} {last : α} (rest : List α) (P : α → Prop)
    (hcur : current_total < required) (hshort : Short value required before current_total)
    (hreach : required ≤ current_total+total value (before++[last])) :
    (∀ first a after, before++last::rest = first++a::after → Short value required first current_total → P a) ↔
      ∀ a ∈ before++[last], P a := by
  have hall : before++last::rest = (before++[last])++rest := by simp
  rw [hall]
  constructor
  · intro h a ha
    obtain ⟨first, more, hsplit⟩ := List.append_of_mem ha
    apply h first a (more++rest)
    · rw [hsplit, List.append_assoc, List.cons_append]
    · rcases List.append_eq_append_iff.mp hsplit with ⟨between, hfirst, hrest⟩ | ⟨between, hbefore, -⟩
      · -- nothing lies between the items before the last one and the last one
        cases between with
        | nil =>
          rw [hfirst, List.append_nil]
          exact hshort
        | cons b between =>
          have hlength := congrArg List.length hrest
          simp at hlength
      · rw [hbefore] at hshort
        exact hshort.of_append value
  · intro h first a after hsplit hfirst
    apply h
    rcases List.append_eq_append_iff.mp hsplit with ⟨between, hmore, -⟩ | ⟨between, htaken, hafter⟩
    · -- the items taken reach the total, so none comes after them
      rw [hmore] at hfirst
      have hlater := hfirst.prefix_lt value hcur
      exact absurd hreach (not_le.mpr hlater)
    · cases between with
      | nil =>
        rw [List.append_nil] at htaken
        rw [← htaken, ← List.append_nil (before++[last])] at hfirst
        have hlater := hfirst.prefix_lt value hcur
        exact absurd hreach (not_le.mpr hlater)
      | cons b between =>
        obtain ⟨rfl, -⟩ := List.cons.inj hafter
        rw [htaken]
        simp

theorem takeUntil_short {required current_total : Int} {as : List α} (selected : List α)
    (h : Short value required as current_total) :
    takeUntil value required as selected current_total = (selected++as, current_total+total value as) := by
  induction as generalizing selected current_total with
  | nil => simp [takeUntil]
  | cons a as ih =>
    rw [takeUntil, if_neg (not_le.mpr h.1), ih (selected++[a]) h.2, total_cons]
    simp [add_assoc]

/-- The loop ends with the first item that reaches the total. -/
theorem takeUntil_reached {required current_total : Int} {before : List α} {a : α} (after selected : List α)
    (h : Short value required before current_total)
    (hreach : required ≤ current_total+total value before+value a) :
    takeUntil value required (before++a::after) selected current_total =
      (selected++(before++[a]), current_total+total value (before++[a])) := by
  induction before generalizing selected current_total with
  | nil =>
    rw [total_nil, add_zero] at hreach
    rw [List.nil_append, takeUntil, if_pos hreach]
    simp
  | cons b before ih =>
    have hnext : required ≤ current_total+value b+total value before+value a := by
      rw [total_cons] at hreach
      omega
    rw [List.cons_append, takeUntil, if_neg (not_le.mpr h.1), ih (selected++[b]) h.2 hnext]
    simp [total_append, add_assoc]

/-- The items taken are a prefix, and it is the whole list unless the total was reached. -/
theorem takeUntil_prefix (required : Int) (as selected : List α) (current_total : Int) :
    ∃ taken rest, as = taken++rest ∧
      takeUntil value required as selected current_total =
        (selected++taken, current_total+total value taken) ∧
      (rest = [] ∨ required ≤ current_total+total value taken) := by
  rcases short_or_reached value required as current_total with hshort | ⟨before, a, after, rfl, hshort, hreach⟩
  · exact ⟨as, [], (List.append_nil as).symm, takeUntil_short value selected hshort, Or.inl rfl⟩
  · refine ⟨before++[a], after, by simp, takeUntil_reached value after selected hshort hreach, Or.inr ?_⟩
    rw [total_append, total_cons, total_nil]
    omega

/-- Largest first: a stable descending sort, then items until the total is reached. -/
def largestFirst (required : Int) (l : List α) : List α × Int :=
  takeUntil value required (sortOn (fun a => OrderDual.toDual (value a)) l) [] 0

/-- The list falls into what is selected and a rest, its total is the sum of the selected items, and it
falls short only when nothing is left. -/
theorem largestFirst_spec (required : Int) (l : List α) :
    ∃ selected rest : List α, largestFirst value required l = (selected, total value selected) ∧
      (selected++rest).Perm l ∧ (rest = [] ∨ required ≤ total value selected) := by
  obtain ⟨taken, rest, hs, ht, hr⟩ := takeUntil_prefix value required
    (sortOn (fun a => OrderDual.toDual (value a)) l) [] 0
  refine ⟨taken, rest, ?_, hs ▸ sortOn_perm _ l, ?_⟩
  · simpa [largestFirst] using ht
  · simpa using hr

/-- The order in which the items are tried. -/
def descending (l : List α) : List α := sortOn (fun a => OrderDual.toDual (value a)) l

theorem mem_descending {l : List α} {a : α} : a ∈ descending value l ↔ a ∈ l := (sortOn_perm _ l).mem_iff

/-- What is selected is the beginning of the sorted list. -/
theorem largestFirst_initial (required : Int) (l : List α) :
    (largestFirst value required l).1 <+: descending value l := by
  obtain ⟨taken, rest, hsplit, htaken, -⟩ := takeUntil_prefix value required (descending value l) [] 0
  have hselected : (largestFirst value required l).1 = taken := by
    rw [largestFirst, ← descending, htaken, List.nil_append]
  rw [hselected, hsplit]
  exact List.prefix_append taken rest

/-- Items worth as much as what they are made of are tried in the same order. -/
theorem descending_map {value' : β → Int} {f : α → β} (hf : ∀ a, value' (f a) = value a) (l : List α) :
    descending value' (l.map f) = (descending value l).map f := by
  symm
  apply sortOn_map
  intro a
  rw [hf a]

/-- Of two items the earlier one is worth no less. -/
theorem descending_le {l before after : List α} {a b : α} (h : descending value l = before++a::after)
    (hb : b ∈ before) : value a ≤ value b := by
  have hsorted : (descending value l).Pairwise (fun x y => OrderDual.toDual (value x) ≤ OrderDual.toDual (value y)) :=
    sortOn_pairwise _ l
  rw [h] at hsorted
  have hpair := (List.pairwise_append.mp hsorted).2.2 b hb a (by simp)
  exact OrderDual.toDual_le_toDual.mp hpair

/-- An item that is worth something, or is tried first, is selected for some total that is reached. -/
theorem exists_largestFirst {l : List α} {a : α} (hmem : a ∈ l)
    (h : 0 < value a ∨ (descending value l).head? = some a) :
    ∃ required, required ≤ (largestFirst value required l).2 ∧ a ∈ (largestFirst value required l).1 := by
  have hreached (before after : List α) (hsplit : descending value l = before++a::after)
      (hpos : ∀ b ∈ before, 0 < value b) (hlast : before = [] ∨ 0 < value a) :
      ∃ required, required ≤ (largestFirst value required l).2 ∧ a ∈ (largestFirst value required l).1 := by
    have hshort : Short value (total value before+value a) before 0 := by
      rcases hlast with rfl | hlast
      · trivial
      · exact short_of_pos value hpos (by omega)
    have hloop := takeUntil_reached value after [] hshort (by rw [zero_add])
    rw [← hsplit] at hloop
    change largestFirst value (total value before+value a) l = _ at hloop
    refine ⟨total value before+value a, ?_, ?_⟩
    · rw [hloop, total_append, total_cons, total_nil]
      omega
    · rw [hloop]
      simp
  rcases h with hpos | hfirst
  · obtain ⟨before, after, hsplit⟩ := List.append_of_mem ((mem_descending value).mpr hmem)
    exact hreached before after hsplit (fun b hb => lt_of_lt_of_le hpos (descending_le value hsplit hb)) (Or.inr hpos)
  · obtain ⟨after, hsplit⟩ := List.head?_eq_some_iff.mp hfirst
    exact hreached [] after hsplit (by simp) (Or.inl rfl)

/-- A selection that reaches its total ends with an item that was needed: every selected item is worth something,
or it is the one tried first. -/
theorem of_mem_largestFirst {required : Int} {l : List α} {a : α} (hcover : required ≤ (largestFirst value required l).2)
    (ha : a ∈ (largestFirst value required l).1) :
    a ∈ l ∧ (0 < value a ∨ (descending value l).head? = some a) := by
  have hloop : largestFirst value required l = takeUntil value required (descending value l) [] 0 := rfl
  -- within a prefix that ends above all its proper prefixes, the last item is positive
  have hneeded (before after : List α) (b : α) (hsplit : descending value l = before++b::after)
      (hshort : Short value required before 0) (hreach : required ≤ 0+total value before+value b)
      (ha : a ∈ before++[b]) : 0 < value a ∨ (descending value l).head? = some a := by
    cases before with
    | nil =>
      right
      rw [hsplit, List.mem_singleton.mp ha]
      rfl
    | cons c before =>
      left
      have htotal := hshort.total_lt value (by simp)
      have hb : 0 < value b := by omega
      rcases List.mem_append.mp ha with ha | ha
      · exact lt_of_lt_of_le hb (descending_le value hsplit ha)
      · rw [List.mem_singleton.mp ha]
        exact hb
  rcases short_or_reached value required (descending value l) 0 with hshort | ⟨before, b, after, hsplit, hshort, hreach⟩
  · rw [hloop, takeUntil_short value [] hshort] at hcover ha
    have hne : descending value l ≠ [] := List.ne_nil_of_mem ha
    have htotal := hshort.total_lt value hne
    exact absurd hcover (not_le.mpr htotal)
  · rw [hloop, hsplit, takeUntil_reached value after [] hshort hreach] at ha
    simp only [List.nil_append] at ha
    refine ⟨?_, hneeded before after b hsplit hshort hreach ha⟩
    apply (mem_descending value).mp
    rw [hsplit]
    rcases List.mem_append.mp ha with ha | ha
    · exact List.mem_append_left _ ha
    · rw [List.mem_singleton.mp ha]
      simp

/-- With non-negative values a part is worth at most the whole. -/
theorem total_le_of_perm {selected rest l : List α} (h : (selected++rest).Perm l)
    (hn : ∀ a ∈ l, 0 ≤ value a) : total value selected ≤ total value l := by
  have hrest : 0 ≤ total value rest :=
    total_nonneg value (fun a ha => hn a (h.subset (List.mem_append_right selected ha)))
  have hsum := total_perm value h
  rw [total_append] at hsum
  omega

theorem total_le_of_subperm {part whole : List α} (h : part.Subperm whole) (hn : ∀ a ∈ whole, 0 ≤ value a) :
    total value part ≤ total value whole := by
  obtain ⟨l, hperm, hsub⟩ := h
  obtain ⟨rest, hrest⟩ := hsub.exists_perm_append
  exact total_le_of_perm value ((hperm.symm.append_right rest).trans hrest.symm) hn

end Noxipher.Greedy
