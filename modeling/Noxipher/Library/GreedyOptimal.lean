import Noxipher.Library.Greedy
import Mathlib.Order.Bounds.Basic

namespace Noxipher.Greedy

variable {α β : Type} (value : α → Int)

theorem takeUntil_map {value' : β → Int} {f : α → β} (hf : ∀ a, value' (f a) = value a) (required : Int)
    (l selected : List α) (current_total : Int) :
    takeUntil value' required (l.map f) (selected.map f) current_total =
      ((takeUntil value required l selected current_total).1.map f,
        (takeUntil value required l selected current_total).2) := by
  induction l generalizing selected current_total with
  | nil => rfl
  | cons a l ih =>
    have hnext := ih (selected++[a]) (current_total+value a)
    rw [List.map_append, List.map_singleton] at hnext
    simp only [List.map_cons, takeUntil, hf]
    split_ifs with hreach
    · simp
    · exact hnext

/-- Items worth as much as what they are made of are selected alike. -/
theorem largestFirst_map {value' : β → Int} {f : α → β} (hf : ∀ a, value' (f a) = value a) (required : Int)
    (l : List α) :
    largestFirst value' required (l.map f) =
      ((largestFirst value required l).1.map f, (largestFirst value required l).2) := by
  have hsorted := descending_map value hf l
  have hmap := takeUntil_map value hf required (descending value l) [] 0
  rw [← hsorted] at hmap
  exact hmap

/-- Putting a larger item in front does not lower what the first items are worth. -/
theorem total_take_cons_le {a : α} {l : List α} {n : Nat} (hsorted : (a::l).Pairwise (fun x y => value y ≤ value x))
    (hn : n ≤ l.length) : total value (l.take n) ≤ total value ((a::l).take n) := by
  induction n generalizing a l with
  | zero => simp
  | succ n ih =>
    cases l with
    | nil => simp at hn
    | cons b l =>
      obtain ⟨hfirst, hrest⟩ := List.pairwise_cons.mp hsorted
      have hb := hfirst b (by simp)
      have htail := ih hrest (by simpa using hn)
      rw [List.take_succ_cons, List.take_succ_cons, total_cons, total_cons]
      omega

/-- The first items of a descending list are worth no less than any other choice of as many. -/
theorem total_le_take_of_sublist {s l : List α} (hsorted : l.Pairwise (fun x y => value y ≤ value x))
    (h : s.Sublist l) : total value s ≤ total value (l.take s.length) := by
  induction h with
  | slnil => simp
  | cons a hsub ih =>
    have hskip := total_take_cons_le value hsorted hsub.length_le
    have hrest := ih (List.pairwise_cons.mp hsorted).2
    omega
  | cons_cons a hsub ih =>
    have hrest := ih (List.pairwise_cons.mp hsorted).2
    rw [List.length_cons, List.take_succ_cons, total_cons, total_cons]
    omega

theorem descending_sorted (l : List α) : (descending value l).Pairwise (fun x y => value y ≤ value x) :=
  sortOn_pairwise (fun a => OrderDual.toDual (value a)) l

theorem total_le_take_descending {s l : List α} (h : s.Subperm l) :
    total value s ≤ total value ((descending value l).take s.length) := by
  obtain ⟨t, hperm, hsub⟩ := h.trans (sortOn_perm (fun a => OrderDual.toDual (value a)) l).symm.subperm
  have hbest := total_le_take_of_sublist value (descending_sorted value l) hsub
  rw [hperm.length_eq, total_perm value hperm] at hbest
  exact hbest

/-- A prefix of items that are short of the total is short of it. -/
theorem Short.take_lt {required current_total : Int} {as : List α} (h : Short value required as current_total) {n : Nat}
    (hpos : 0 < n) (hn : n ≤ as.length) : current_total+total value (as.take n) < required := by
  rw [← List.take_append_drop n as] at h
  apply (h.of_append value).total_lt value
  intro hnil
  have hlen := List.length_take_of_le hn
  rw [hnil, List.length_nil] at hlen
  omega

/-- Something is selected as soon as there is something. -/
theorem largestFirst_ne_nil (required : Int) {l : List α} (hne : l ≠ []) : (largestFirst value required l).1 ≠ [] := by
  have hloop : largestFirst value required l = takeUntil value required (descending value l) [] 0 := rfl
  rw [hloop]
  rcases short_or_reached value required (descending value l) 0 with hshort | ⟨before, a, after, hsplit, hshort, hreach⟩
  · rw [takeUntil_short value [] hshort]
    intro hnil
    have hperm : (descending value l).Perm l := sortOn_perm _ l
    rw [show descending value l = [] from hnil] at hperm
    exact hne (List.nil_perm.mp hperm)
  · rw [hsplit, takeUntil_reached value after [] hshort hreach]
    simp

/-- What largest first selects, when it reaches its total, is a prefix whose last item is the first to reach it. -/
theorem largestFirst_reached {required : Int} {l : List α} (hcover : required ≤ (largestFirst value required l).2)
    (hpos : 0 < required) :
    ∃ before a after, descending value l = before++a::after ∧ Short value required before 0 ∧
      largestFirst value required l = (before++[a], total value (before++[a])) := by
  have hloop : largestFirst value required l = takeUntil value required (descending value l) [] 0 := rfl
  rcases short_or_reached value required (descending value l) 0 with hshort | ⟨before, a, after, hsplit, hshort, hreach⟩
  · exfalso
    rw [hloop, takeUntil_short value [] hshort, zero_add] at hcover
    simp only at hcover
    cases hd : descending value l with
    | nil =>
      rw [hd, total_nil] at hcover
      omega
    | cons a after =>
      have htotal := hshort.total_lt value (by simp [hd])
      omega
  · refine ⟨before, a, after, hsplit, hshort, ?_⟩
    rw [hloop, hsplit, takeUntil_reached value after [] hshort hreach, List.nil_append, zero_add]

/-- No smaller choice reaches the total: the items selected are as few as possible. -/
theorem largestFirst_length_le {required : Int} {l s : List α} (hcover : required ≤ (largestFirst value required l).2)
    (hpos : 0 < required) (h : s.Subperm l) (hs : required ≤ total value s) :
    (largestFirst value required l).1.length ≤ s.length := by
  obtain ⟨before, a, after, hsplit, hshort, hselect⟩ := largestFirst_reached value hcover hpos
  by_contra hfewer
  rw [hselect, List.length_append, List.length_singleton] at hfewer
  have hbest := total_le_take_descending value h
  rw [hsplit, List.take_append_of_le_length (by omega)] at hbest
  cases s with
  | nil =>
    rw [total_nil] at hs
    omega
  | cons b s =>
    have hlen : (b::s).length ≤ before.length := by omega
    have hless := hshort.take_lt value (List.length_pos_of_ne_nil (List.cons_ne_nil b s)) hlen
    omega

/-- Without any one of the items selected too little is left. -/
theorem largestFirst_needed {required : Int} {l : List α} (hcover : required ≤ (largestFirst value required l).2)
    (hpos : 0 < required) {a : α} (ha : a ∈ (largestFirst value required l).1) :
    (largestFirst value required l).2-value a < required := by
  obtain ⟨before, last, after, hsplit, hshort, hselect⟩ := largestFirst_reached value hcover hpos
  rw [hselect] at ha ⊢
  have hbefore : total value before < required := by
    cases before with
    | nil => simpa using hpos
    | cons b before =>
      have hless := hshort.total_lt value (by simp)
      omega
  have hlast : value last ≤ value a := by
    rcases List.mem_append.mp ha with ha | ha
    · exact descending_le value hsplit ha
    · rw [List.mem_singleton.mp ha]
  simp only [total_append, total_cons, total_nil]
  omega

/-- No choice of items reaches the total; without items there is something to reach. -/
def Unreachable (required : Int) (l : List α) : Prop :=
  (l = [] → 0 < required) ∧ ∀ s : List α, s.Subperm l → s ≠ [] → total value s < required

/-- Largest first falls short exactly when every choice does. -/
theorem largestFirst_short_iff {required : Int} {l : List α} :
    (largestFirst value required l).2 < required ↔ Unreachable value required l := by
  have hloop : largestFirst value required l = takeUntil value required (descending value l) [] 0 := rfl
  have hperm : (descending value l).Perm l := sortOn_perm _ l
  rcases short_or_reached value required (descending value l) 0 with hshort | ⟨before, a, after, hsplit, hshort, hreach⟩
  · rw [hloop, takeUntil_short value [] hshort, zero_add]
    constructor
    · intro hless
      refine ⟨?_, ?_⟩
      · intro hnil
        have hempty : descending value l = [] := List.perm_nil.mp (hnil ▸ hperm)
        simpa [hempty] using hless
      · intro s hs hne
        have hbest := total_le_take_descending value hs
        have hlen : s.length ≤ (descending value l).length := hperm.length_eq ▸ hs.length_le
        have hprefix := hshort.take_lt value (List.length_pos_iff.mpr hne) hlen
        omega
    · intro hnone
      obtain ⟨hempty, hall⟩ := hnone
      by_cases hnil : l = []
      · have hd : descending value l = [] := by
          rw [hnil]
          rfl
        rw [hd]
        exact hempty hnil
      · have htotal := hall (descending value l) hperm.subperm (by
          intro hd
          rw [hd] at hperm
          exact hnil (List.nil_perm.mp hperm))
        exact htotal
  · rw [hloop, hsplit, takeUntil_reached value after [] hshort hreach]
    constructor
    · intro hless
      rw [List.nil_append, total_append, total_cons, total_nil] at hless
      omega
    · intro hnone
      have hsub : (before++[a]).Subperm l := by
        have hfirst : (before++[a]).Sublist (descending value l) := by
          rw [hsplit]
          simp
        exact hfirst.subperm.trans hperm.subperm
      have hless := hnone.2 _ hsub (by simp)
      omega

/-- With non-negative values only the whole has to be looked at. -/
theorem unreachable_iff_of_nonneg {required : Int} {l : List α} (hn : ∀ a ∈ l, 0 ≤ value a) :
    Unreachable value required l ↔ total value l < required := by
  constructor
  · intro h
    by_cases hnil : l = []
    · rw [hnil]
      exact h.1 hnil
    · exact h.2 l (List.Subperm.refl l) hnil
  · intro h
    refine ⟨?_, ?_⟩
    · intro hnil
      rwa [hnil] at h
    · intro s hs _
      have hless := total_le_of_subperm value hs hn
      omega

end Noxipher.Greedy
