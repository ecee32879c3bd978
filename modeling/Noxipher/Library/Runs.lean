import Mathlib.Data.List.Induction
import Mathlib.Logic.Function.Basic
import Mathlib.Tactic.Common

namespace Noxipher

section Runs

variable {σ α : Type} (step : σ → α → Option σ)

/-- Take the steps of a list one after another; a step that cannot be taken ends the run. -/
def runs : σ → List α → Option σ
  | s, [] => some s
  | s, a::as =>
    match step s a with
    | some s' => runs s' as
    | none => none

theorem runs_append {s : σ} {as bs : List α} :
    runs step s (as++bs) = (runs step s as).bind (fun s' => runs step s' bs) := by
  induction as generalizing s with
  | nil => rfl
  | cons a as ih =>
    simp only [List.cons_append, runs]
    cases step s a with
    | none => rfl
    | some s' => exact ih

/-- What holds at the start with no steps behind it, and is kept by a step that is added to the history, holds after
every run. -/
theorem runs_history (Inv : List α → σ → Prop) {s : σ} (hstart : Inv [] s)
    (hstep : ∀ past s a s', Inv past s → step s a = some s' → Inv (past++[a]) s') :
    ∀ {as : List α} {s' : σ}, runs step s as = some s' → Inv as s' := by
  intro as
  induction as using List.reverseRecOn with
  | nil =>
    intro s' h
    cases h
    exact hstart
  | append_singleton as a ih =>
    intro s' h
    rw [runs_append] at h
    obtain ⟨middle, hmiddle, hlast⟩ := Option.bind_eq_some_iff.mp h
    have htaken : step middle a = some s' := by
      simp only [runs] at hlast
      split at hlast
      · rename_i next hnext
        rw [hnext, hlast]
      · cases hlast
    exact hstep as middle a s' (ih hmiddle) htaken

/-- An invariant that does not look at the history. -/
theorem runs_invariant (Inv : σ → Prop) {s : σ} (hstart : Inv s)
    (hstep : ∀ s a s', Inv s → step s a = some s' → Inv s') {as : List α} {s' : σ} (h : runs step s as = some s') :
    Inv s' :=
  runs_history step (fun _ => Inv) hstart (fun _ s a s' => hstep s a s') h

/-- An invariant of the steps that a guard admits, for the runs that take no others. -/
theorem runs_guarded (Inv : σ → Prop) (guard : σ → α → Prop) {s : σ} (hstart : Inv s)
    (hstep : ∀ s a s', Inv s → guard s a → step s a = some s' → Inv s') {as : List α} {s' : σ}
    (h : runs step s as = some s')
    (hguard : ∀ past a rest middle, as = past++a::rest → runs step s past = some middle → guard middle a) : Inv s' := by
  induction as generalizing s with
  | nil =>
    cases h
    exact hstart
  | cons a as ih =>
    cases hnext : step s a with
    | none =>
      simp only [runs, hnext] at h
      cases h
    | some next =>
      simp only [runs, hnext] at h
      apply ih (hstep s a next hstart (hguard [] a as s rfl rfl) hnext) h
      intro past b rest middle hsplit hpast
      apply hguard (a::past) b rest middle (by rw [hsplit, List.cons_append])
      simp only [runs, hnext]
      exact hpast

/-- A fact that no step takes back under an invariant holds after a run exactly when a step of the run brought it
about. -/
theorem runs_event (Inv P : σ → Prop) (brings : σ → α → Prop) {s : σ} (hinv : Inv s) (hstart : ¬ P s)
    (hkept : ∀ s a s', Inv s → step s a = some s' → Inv s')
    (hstep : ∀ s a s', Inv s → step s a = some s' → (P s' ↔ P s ∨ brings s a)) {as : List α} {s' : σ}
    (h : runs step s as = some s') :
    P s' ↔ ∃ past a rest middle, as = past++a::rest ∧ runs step s past = some middle ∧ brings middle a := by
  refine (runs_history step (fun as s' => runs step s as = some s' ∧ (P s' ↔ ∃ past a rest middle,
    as = past++a::rest ∧ runs step s past = some middle ∧ brings middle a)) ?_ ?_ h).2
  · refine ⟨rfl, iff_of_false hstart ?_⟩
    rintro ⟨past, a, rest, middle, hsplit, -⟩
    cases past <;> cases hsplit
  · intro as middle a s' ⟨hruns, ih⟩ ha
    have hnext : runs step s (as++[a]) = some s' := by
      rw [runs_append, hruns]
      simp only [Option.bind_some, runs, ha]
    refine ⟨hnext, ?_⟩
    rw [hstep middle a s' (runs_invariant step Inv hinv hkept hruns) ha, ih]
    constructor
    · rintro (⟨past, b, rest, earlier, rfl, hpast, hbrings⟩ | hbrings)
      · exact ⟨past, b, rest++[a], earlier, by simp, hpast, hbrings⟩
      · exact ⟨as, a, [], middle, rfl, hruns, hbrings⟩
    · rintro ⟨past, b, rest, earlier, hsplit, hpast, hbrings⟩
      rcases List.eq_nil_or_concat rest with rfl | ⟨rest, last, rfl⟩
      · obtain ⟨rfl, hlast⟩ := List.append_inj' hsplit rfl
        cases hlast
        rw [hruns] at hpast
        cases hpast
        exact Or.inr hbrings
      · rw [List.concat_eq_append, ← List.cons_append, ← List.append_assoc] at hsplit
        obtain ⟨rfl, -⟩ := List.append_inj' hsplit rfl
        exact Or.inl ⟨past, b, rest, earlier, rfl, hpast, hbrings⟩

end Runs

/-- The value after an update is the new one or an old one. -/
theorem update_cases {ι β : Type} [DecidableEq ι] {f : ι → β} {i j : ι} {b x : β} (h : Function.update f i b j = x) :
    (j = i ∧ b = x) ∨ (j ≠ i ∧ f j = x) := by
  rcases eq_or_ne j i with rfl | hne
  · rw [Function.update_self] at h
    exact Or.inl ⟨rfl, h⟩
  · rw [Function.update_of_ne hne] at h
    exact Or.inr ⟨hne, h⟩

/-- What an update keeps at its own place it keeps everywhere. -/
theorem update_kept {ι β : Type} [DecidableEq ι] {f : ι → β} {i : ι} {b : β} (p : β → Prop) (h : p (f i) → p b) {j : ι}
    (hj : p (f j)) : p (Function.update f i b j) := by
  rcases eq_or_ne j i with rfl | hne
  · rw [Function.update_self]
    exact h hj
  · rwa [Function.update_of_ne hne]

end Noxipher
