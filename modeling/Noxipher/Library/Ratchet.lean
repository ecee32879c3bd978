import Mathlib.Data.List.Basic

namespace Noxipher.Ratchet

variable {σ ι χ : Type} (input : σ → ι → χ) (next : χ → σ)

/-- The state after all items: what is called depends on the state and the item, and the answer is the next state. -/
def final (s : σ) : List ι → σ
  | [] => s
  | i::rest => final (next (input s i)) rest

/-- The calls of a run, each with the state it was made in. -/
def trace (s : σ) : List ι → List (σ × χ)
  | [] => []
  | i::rest => (s, input s i)::trace (next (input s i)) rest

/-- The calls alone. -/
def calls (s : σ) (items : List ι) : List χ := (trace input next s items).map Prod.snd

@[simp] theorem trace_length (s : σ) (items : List ι) : (trace input next s items).length = items.length := by
  induction items generalizing s with
  | nil => rfl
  | cons i rest ih => simp [trace, ih]

theorem trace_append (s : σ) (before after : List ι) :
    trace input next s (before++after) =
      trace input next s before++trace input next (final input next s before) after := by
  induction before generalizing s with
  | nil => rfl
  | cons i before ih => simp only [List.cons_append, trace, final, ih]

/-- The calls before a place do not depend on the items from there on. -/
theorem trace_take (s : σ) (before after : List ι) :
    (trace input next s (before++after)).take before.length = trace input next s before := by
  rw [trace_append, List.take_left' (trace_length input next s before)]

theorem trace_get (s : σ) (before : List ι) (i : ι) (after : List ι) :
    (trace input next s (before++i::after))[before.length]? =
      some (final input next s before, input (final input next s before) i) := by
  have hlen := trace_length input next s before
  rw [trace_append, List.getElem?_append_right (Nat.le_of_eq hlen), hlen, Nat.sub_self]
  rfl

theorem calls_get (s : σ) (before : List ι) (i : ι) (after : List ι) :
    (calls input next s (before++i::after))[before.length]? = some (input (final input next s before) i) := by
  rw [calls, List.getElem?_map, trace_get]
  rfl

/-- When a call shows a part of the state it was made in, runs that called differently reach states of the same
observation only if at some place the answers to different calls agree in that part or in the observation. -/
theorem collision {κ τ : Type} (shown : σ → κ) (observed : σ → τ)
    (hshown : ∀ s s' i j, input s i = input s' j → shown s = shown s') (items others : List ι) (s s' : σ)
    (hlen : items.length = others.length)
    (hne : calls input next s items ≠ calls input next s' others)
    (hsame : observed (final input next s items) = observed (final input next s' others)) :
    ∃ (n : Nat) (c c' : χ), (calls input next s items)[n]? = some c ∧ (calls input next s' others)[n]? = some c' ∧
      c ≠ c' ∧ (observed (next c) = observed (next c') ∨ shown (next c) = shown (next c')) := by
  induction items generalizing s s' others with
  | nil =>
    have hothers : others = [] := List.eq_nil_of_length_eq_zero hlen.symm
    rw [hothers] at hne
    exact absurd rfl hne
  | cons i rest ih =>
    cases others with
    | nil => cases hlen
    | cons j others =>
      have hlen : rest.length = others.length := Nat.succ.inj hlen
      let c := input s i
      let c' := input s' j
      by_cases htail : calls input next (next c) rest = calls input next (next c') others
      · -- the last calls that differ
        have hcalls : c ≠ c' := by
          intro hc
          apply hne
          exact congrArg₂ List.cons hc htail
        refine ⟨0, c, c', rfl, rfl, hcalls, ?_⟩
        cases rest with
        | nil =>
          have hothers : others = [] := List.eq_nil_of_length_eq_zero hlen.symm
          rw [hothers] at hsame
          exact Or.inl hsame
        | cons k rest =>
          cases others with
          | nil => cases hlen
          | cons l others => exact Or.inr (hshown _ _ k l (List.cons.inj htail).1)
      · obtain ⟨n, d, d', hd, hd', hdiffer, hagree⟩ := ih others (next c) (next c') hlen htail hsame
        exact ⟨n+1, d, d', hd, hd', hdiffer, hagree⟩

end Noxipher.Ratchet
