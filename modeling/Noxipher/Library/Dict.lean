import Mathlib.Data.List.Nodup
import Mathlib.Data.List.Dedup

namespace Noxipher

/-- Replace the value at `k` where it stands, or append the pair. -/
def setEntry {κ ν : Type} [DecidableEq κ] (k : κ) (v : ν) : List (κ × ν) → List (κ × ν)
  | [] => [(k, v)]
  | p::r => if p.1 = k then (p.1, v)::r else p::setEntry k v r

theorem setEntry_keys {κ ν : Type} [DecidableEq κ] (k : κ) (v : ν) (r : List (κ × ν)) :
    (setEntry k v r).map Prod.fst =
      if k ∈ r.map Prod.fst then r.map Prod.fst else r.map Prod.fst ++ [k] := by
  induction r with
  | nil => simp [setEntry]
  | cons p r ih =>
    by_cases hp : p.1 = k
    · simp [setEntry, hp]
    · have hk : k ≠ p.1 := Ne.symm hp
      simp only [setEntry, hp, if_false, List.map_cons, ih, List.mem_cons, hk, false_or]
      split_ifs <;> simp

/-- A key that is there keeps its place. -/
theorem setEntry_append {κ ν : Type} [DecidableEq κ] {k : κ} {done : List (κ × ν)} (v u : ν) (rest : List (κ × ν))
    (h : k ∉ done.map Prod.fst) : setEntry k v (done++(k, u)::rest) = done++(k, v)::rest := by
  induction done with
  | nil => simp [setEntry]
  | cons p done ih =>
    simp only [List.map_cons, List.mem_cons, not_or] at h
    simp only [List.cons_append, setEntry, if_neg (Ne.symm h.1), ih h.2]

/-- A dictionary that remembers insertion order, with one entry for each key. -/
structure Dict (κ ν : Type) where
  entries : List (κ × ν)
  nodup : (entries.map Prod.fst).Nodup

namespace Dict

variable {κ ν μ : Type}

theorem ext_entries {d e : Dict κ ν} (h : d.entries = e.entries) : d = e := by
  cases d
  cases e
  simp_all

instance [DecidableEq κ] [DecidableEq ν] : DecidableEq (Dict κ ν) := fun d e =>
  decidable_of_iff (d.entries = e.entries) ⟨ext_entries, congrArg entries⟩

def empty : Dict κ ν := ⟨[], List.nodup_nil⟩

def keys (d : Dict κ ν) : List κ := d.entries.map Prod.fst

@[simp] theorem keys_empty : (empty : Dict κ ν).keys = [] := rfl

def mapValues (f : ν → μ) (d : Dict κ ν) : Dict κ μ :=
  ⟨d.entries.map (fun p => (p.1, f p.2)), by
    have hk : (d.entries.map (fun p => (p.1, f p.2))).map Prod.fst = d.entries.map Prod.fst := by
      simp [Function.comp_def]
    rw [hk]
    exact d.nodup⟩

@[simp] theorem keys_mapValues (f : ν → μ) (d : Dict κ ν) : (d.mapValues f).keys = d.keys := by
  simp [keys, mapValues, Function.comp_def]

variable [DecidableEq κ]

def get? (d : Dict κ ν) (k : κ) : Option ν := (d.entries.find? (fun p => p.1 = k)).map Prod.snd

def getD (d : Dict κ ν) (k : κ) (dflt : ν) : ν := (d.get? k).getD dflt

def set (d : Dict κ ν) (k : κ) (v : ν) : Dict κ ν :=
  ⟨setEntry k v d.entries, by
    have hd := d.nodup
    rw [setEntry_keys]
    split_ifs with hk
    · exact hd
    · refine List.nodup_append.mpr ⟨hd, List.nodup_singleton k, ?_⟩
      intro a ha b hb hab
      rw [List.mem_singleton.mp hb] at hab
      exact hk (hab ▸ ha)⟩

/-- Later pairs overwrite earlier ones, as in a dictionary display. -/
def ofList (ps : List (κ × ν)) : Dict κ ν := ps.foldl (fun d p => d.set p.1 p.2) empty

@[simp] theorem get?_empty (k : κ) : (empty : Dict κ ν).get? k = none := rfl

theorem get?_set (d : Dict κ ν) (k j : κ) (v : ν) :
    (d.set k v).get? j = if k = j then some v else d.get? j := by
  simp only [get?, set]
  generalize d.entries = r
  induction r with
  | nil => by_cases h : k = j <;> simp [setEntry, h]
  | cons p r ih =>
    by_cases hp : p.1 = k
    · by_cases h : k = j
      · simp [setEntry, hp, h]
      · have hpj : p.1 ≠ j := fun he => h (hp.symm.trans he)
        simp [setEntry, hp, h]
    · by_cases hj : p.1 = j
      · have h : k ≠ j := fun he => hp (hj.trans he.symm)
        simp [setEntry, hj, h, h.symm]
      · simp only [setEntry, hp, if_false, List.find?_cons, hj, decide_false]
        exact ih

@[simp] theorem get?_set_self (d : Dict κ ν) (k : κ) (v : ν) : (d.set k v).get? k = some v := by
  rw [get?_set, if_pos rfl]

theorem get?_set_ne (d : Dict κ ν) {k j : κ} (v : ν) (h : k ≠ j) : (d.set k v).get? j = d.get? j := by
  rw [get?_set, if_neg h]

theorem get?_mapValues (f : ν → μ) (d : Dict κ ν) (k : κ) :
    (d.mapValues f).get? k = (d.get? k).map f := by
  simp only [get?, mapValues, List.find?_map, Function.comp_def, Option.map_map]

theorem getD_eq (d : Dict κ ν) (k : κ) (v : ν) : d.getD k v = (d.get? k).getD v := rfl

theorem mem_keys_set (d : Dict κ ν) (k j : κ) (v : ν) :
    j ∈ (d.set k v).keys ↔ j = k ∨ j ∈ d.keys := by
  simp only [keys, set, setEntry_keys]
  split_ifs with hk
  · constructor
    · exact Or.inr
    · rintro (rfl | h)
      · exact hk
      · exact h
  · simp [or_comm]

theorem get?_isSome (d : Dict κ ν) (k : κ) : (d.get? k).isSome ↔ k ∈ d.keys := by
  simp only [get?, Option.isSome_map, keys, List.mem_map]
  rw [List.find?_isSome]
  simp

theorem get?_eq_none (d : Dict κ ν) (k : κ) : d.get? k = none ↔ k ∉ d.keys := by
  rw [← get?_isSome]
  simp

theorem get?_of_mem (d : Dict κ ν) {k : κ} {v : ν} (h : (k, v) ∈ d.entries) : d.get? k = some v := by
  obtain ⟨r, hd⟩ := d
  simp only [get?]
  induction r with
  | nil => simp at h
  | cons p r ih =>
    simp only [List.map_cons, List.nodup_cons] at hd
    rcases List.mem_cons.mp h with rfl | hr
    · simp
    · have hk : p.1 ≠ k := by
        intro he
        exact hd.1 (List.mem_map.mpr ⟨(k, v), hr, he.symm⟩)
      simpa [hk] using ih hd.2 hr

theorem mem_of_get? (d : Dict κ ν) {k : κ} {v : ν} (h : d.get? k = some v) : (k, v) ∈ d.entries := by
  simp only [get?, Option.map_eq_some_iff] at h
  obtain ⟨p, hp, rfl⟩ := h
  have hk : p.1 = k := by simpa using List.find?_some hp
  exact hk ▸ List.mem_of_find?_eq_some hp

/-- Reading a dictionary whose entries are given by a list. -/
theorem get?_of_map {ι : Type} {f : ι → κ} {g : ι → ν} {is : List ι} {d : Dict κ ν}
    (hd : d.entries = is.map (fun i => (f i, g i))) {k : κ} {v : ν} :
    d.get? k = some v ↔ ∃ i ∈ is, f i = k ∧ g i = v := by
  constructor
  · intro h
    have hmem := d.mem_of_get? h
    rw [hd] at hmem
    obtain ⟨i, hi, he⟩ := List.mem_map.mp hmem
    exact ⟨i, hi, Prod.mk.inj he⟩
  · intro ⟨i, hi, hk, hv⟩
    apply d.get?_of_mem
    rw [hd, ← hk, ← hv]
    exact List.mem_map_of_mem (f := fun i => (f i, g i)) hi

/-- Writing over a value keeps what is read of each entry when it is read the same of both values. -/
theorem map_set {φ : κ × ν → μ} {d : Dict κ ν} {k : κ} {v u : ν} (h : d.get? k = some u)
    (hφ : φ (k, v) = φ (k, u)) : (d.set k v).entries.map φ = d.entries.map φ := by
  obtain ⟨done, rest, hd⟩ := List.append_of_mem (d.mem_of_get? h)
  have hk : k ∉ done.map Prod.fst := by
    have hn := d.nodup
    rw [hd, List.map_append, List.map_cons] at hn
    intro hmem
    exact (List.nodup_append.mp hn).2.2 k hmem k (by simp) rfl
  change (setEntry k v d.entries).map φ = d.entries.map φ
  rw [hd, setEntry_append v u rest hk]
  simp only [List.map_append, List.map_cons, hφ]

/-- Writing the value that is there changes nothing. -/
theorem set_get? {d : Dict κ ν} {k : κ} {v : ν} (h : d.get? k = some v) : d.set k v = d := by
  apply ext_entries
  have hm := map_set (φ := fun p => p) (v := v) h rfl
  simpa using hm

/-- The entries after a write: the written one and those under other keys. -/
theorem forall_mem_set {P : κ × ν → Prop} {d : Dict κ ν} {k : κ} {v : ν} :
    (∀ p ∈ (d.set k v).entries, P p) ↔ P (k, v) ∧ ∀ p ∈ d.entries, p.1 ≠ k → P p := by
  have hmem (p : κ × ν) : p ∈ (d.set k v).entries ↔ p = (k, v) ∨ p ∈ d.entries ∧ p.1 ≠ k := by
    have hread (e : Dict κ ν) (p : κ × ν) : p ∈ e.entries ↔ e.get? p.1 = some p.2 := ⟨e.get?_of_mem, e.mem_of_get?⟩
    rw [hread, hread, get?_set]
    split_ifs with hk
    · subst hk
      simp [Prod.ext_iff, eq_comm]
    · simp [Prod.ext_iff, Ne.symm hk]
  simp only [hmem]
  constructor
  · intro h
    exact ⟨h _ (Or.inl rfl), fun p hp hne => h p (Or.inr ⟨hp, hne⟩)⟩
  · rintro ⟨hv, h⟩ p (rfl | ⟨hp, hne⟩)
    · exact hv
    · exact h p hp hne

/-- The number of entries does not depend on the value that is written. -/
theorem length_set (d : Dict κ ν) (k : κ) (u v : ν) : (d.set k u).entries.length = (d.set k v).entries.length := by
  have hkeys : (setEntry k u d.entries).map Prod.fst = (setEntry k v d.entries).map Prod.fst := by
    rw [setEntry_keys, setEntry_keys]
  have hlength := congrArg List.length hkeys
  rwa [List.length_map, List.length_map] at hlength

theorem length_set_le (d : Dict κ ν) (k : κ) (v : ν) : (d.set k v).entries.length ≤ d.entries.length+1 := by
  show (setEntry k v d.entries).length ≤ _
  rw [← List.length_map Prod.fst, setEntry_keys]
  split_ifs <;> simp

/-- Change the value at `k` in place, when there is one. -/
def modify (d : Dict κ ν) (k : κ) (f : ν → ν) : Dict κ ν :=
  match d.get? k with
  | some v => d.set k (f v)
  | none => d

theorem get?_modify (d : Dict κ ν) (k j : κ) (f : ν → ν) :
    (d.modify k f).get? j = if k = j then (d.get? j).map f else d.get? j := by
  unfold modify
  split_ifs with h
  · subst h
    cases hd : d.get? k with
    | none => exact hd
    | some v => exact get?_set_self d k (f v)
  · cases d.get? k with
    | none => rfl
    | some v => exact get?_set_ne d (f v) h

/-- A change keeps what is read of each entry when it keeps it of the changed value. -/
theorem map_modify {φ : κ × ν → μ} (d : Dict κ ν) (k : κ) {f : ν → ν} (hφ : ∀ v, φ (k, f v) = φ (k, v)) :
    (d.modify k f).entries.map φ = d.entries.map φ := by
  unfold modify
  cases hd : d.get? k with
  | none => rfl
  | some v => exact map_set hd (hφ v)

/-- A change that does nothing to the value that is there does nothing. -/
theorem modify_eq_self {d : Dict κ ν} {k : κ} {f : ν → ν} (h : ∀ v, d.get? k = some v → f v = v) :
    d.modify k f = d := by
  unfold modify
  cases hd : d.get? k with
  | none => rfl
  | some v =>
    apply set_get?
    rw [hd, h v hd]

/-- The later of two values written under one key stays. -/
theorem set_set (d : Dict κ ν) (k : κ) (u v : ν) : (d.set k u).set k v = d.set k v := by
  apply ext_entries
  show setEntry k v (setEntry k u d.entries) = setEntry k v d.entries
  induction d.entries with
  | nil => simp [setEntry]
  | cons p r ih =>
    by_cases hp : p.1 = k
    · simp [setEntry, hp]
    · simp only [setEntry, hp, if_false, ih]

theorem modify_set_self (d : Dict κ ν) (k : κ) (v : ν) (f : ν → ν) : (d.set k v).modify k f = d.set k (f v) := by
  rw [modify, get?_set_self]
  exact set_set d k v (f v)

/-- Changes under one key compose. -/
theorem modify_modify (d : Dict κ ν) (k : κ) (f g : ν → ν) :
    (d.modify k f).modify k g = d.modify k (fun v => g (f v)) := by
  cases hd : d.get? k with
  | none =>
    have hsame (h : ν → ν) : d.modify k h = d := by simp only [modify, hd]
    rw [hsame, hsame, hsame]
  | some v =>
    have hset (h : ν → ν) : d.modify k h = d.set k (h v) := by simp only [modify, hd]
    rw [hset f, hset (fun v => g (f v)), modify_set_self]

/-- The entries of a changed dictionary. -/
theorem entries_modify (d : Dict κ ν) (k : κ) (f : ν → ν) :
    (d.modify k f).entries = d.entries.map (fun p => (p.1, if p.1 = k then f p.2 else p.2)) := by
  have hkept (ps : List (κ × ν)) (hps : k ∉ ps.map Prod.fst) :
      ps.map (fun p => (p.1, if p.1 = k then f p.2 else p.2)) = ps := by
    conv_rhs => rw [← List.map_id ps]
    apply List.map_congr_left
    intro p hp
    rw [if_neg (fun he => hps (List.mem_map.mpr ⟨p, hp, he⟩))]
    rfl
  unfold modify
  cases hd : d.get? k with
  | none => exact (hkept d.entries ((d.get?_eq_none k).mp hd)).symm
  | some v =>
    obtain ⟨done, rest, hsplit⟩ := List.append_of_mem (d.mem_of_get? hd)
    have hn := d.nodup
    rw [hsplit, List.map_append, List.map_cons] at hn
    obtain ⟨-, hrest, hapart⟩ := List.nodup_append.mp hn
    have hdone : k ∉ done.map Prod.fst := fun hmem => hapart k hmem k (by simp) rfl
    change setEntry k (f v) d.entries = _
    rw [hsplit, setEntry_append _ _ _ hdone, List.map_append, List.map_cons, if_pos rfl, hkept done hdone,
      hkept rest (List.nodup_cons.mp hrest).1]

/-- Changes commute when they do on every value. -/
theorem modify_comm (d : Dict κ ν) (k j : κ) {f g : ν → ν} (h : ∀ v, f (g v) = g (f v)) :
    (d.modify k f).modify j g = (d.modify j g).modify k f := by
  apply ext_entries
  simp only [entries_modify, List.map_map]
  apply List.map_congr_left
  intro p _
  simp only [Function.comp_apply]
  split_ifs
  · rw [h]
  · rfl
  · rfl
  · rfl

/-- Filling a dictionary over a list of keys: a listed key holds its value, any other is untouched. -/
theorem get?_foldl_set {ι : Type} (f : ι → κ) (g : ι → ν) (is : List ι) (d : Dict κ ν) (k : κ)
    (hg : ∀ i ∈ is, ∀ j ∈ is, f i = f j → g i = g j) :
    (is.foldl (fun d i => d.set (f i) (g i)) d).get? k =
      match is.find? (fun i => f i = k) with
      | some i => some (g i)
      | none => d.get? k := by
  induction is generalizing d with
  | nil => rfl
  | cons i is ih =>
    rw [List.foldl_cons, ih _ (fun a ha b hb => hg a (by simp [ha]) b (by simp [hb]))]
    by_cases hi : f i = k
    · simp only [List.find?_cons, hi, decide_true]
      split
      · rename_i j hj
        have hj' : f j = k := by simpa using List.find?_some hj
        rw [hg j (by simp [List.mem_of_find?_eq_some hj]) i (by simp) (hj'.trans hi.symm)]
      · rw [get?_set_self]
    · simp only [List.find?_cons, hi, decide_false, get?_set_ne d (g i) hi]

end Dict

end Noxipher
