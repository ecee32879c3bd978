import Mathlib.Tactic.Common

namespace Noxipher

/-- A fallible computation returns a value exactly when both of its stages do. -/
theorem bind_ok_iff {ε α β : Type} {x : Except ε α} {f : α → Except ε β} {r : β} :
    (x >>= f) = .ok r ↔ ∃ a, x = .ok a ∧ f a = .ok r := by
  rcases x with e | a
  · constructor
    · intro h; cases h
    · rintro ⟨a, h, -⟩; cases h
  · exact ⟨fun h => ⟨a, rfl, h⟩, fun ⟨b, hb, hr⟩ => by cases hb; exact hr⟩

/-- It fails when one of its stages does. -/
theorem bind_error_iff {ε α β : Type} {x : Except ε α} {f : α → Except ε β} {e : ε} :
    (x >>= f) = .error e ↔ x = .error e ∨ ∃ a, x = .ok a ∧ f a = .error e := by
  rcases x with e' | a
  · constructor
    · intro h
      cases h
      exact Or.inl rfl
    · rintro (h | ⟨a, h, -⟩)
      · cases h
        rfl
      · cases h
  · constructor
    · intro h
      exact Or.inr ⟨a, rfl, h⟩
    · rintro (h | ⟨b, hb, he⟩)
      · cases h
      · cases hb
        exact he

@[simp] theorem ok_bind {ε α β : Type} (a : α) (f : α → Except ε β) :
    ((.ok a : Except ε α) >>= f) = f a := rfl

@[simp] theorem error_bind {ε α β : Type} (e : ε) (f : α → Except ε β) :
    ((.error e : Except ε α) >>= f) = .error e := rfl

@[simp] theorem pure_ok {ε α : Type} (a : α) : (pure a : Except ε α) = .ok a := rfl

@[simp] theorem bind_ok {ε α : Type} (x : Except ε α) : (x >>= .ok) = x := by
  cases x <;> rfl

theorem exists_ok {ε α : Type} {x : Except ε α} (h : x.toBool = true) : ∃ a, x = .ok a := by
  cases x with
  | error e => cases h
  | ok a => exact ⟨a, rfl⟩

/-- Another exception in place of the raised one changes no result. -/
theorem mapError_ok {ε ε' α : Type} {f : ε → ε'} {x : Except ε α} {a : α} : x.mapError f = .ok a ↔ x = .ok a := by
  cases x <;> simp [Except.mapError]

/-- Evaluate `f` over a list from the left, stopping at the first error. -/
def traverse {ε α β : Type} (f : α → Except ε β) : List α → Except ε (List β)
  | [] => .ok []
  | a::as => do
    let b ← f a
    let bs ← traverse f as
    return b::bs

theorem traverse_cons_ok {ε α β : Type} {f : α → Except ε β} {a : α} {as : List α} {r : List β} :
    traverse f (a::as) = .ok r ↔ ∃ b bs, f a = .ok b ∧ traverse f as = .ok bs ∧ r = b::bs := by
  simp only [traverse, bind_ok_iff, pure, Except.pure, Except.ok.injEq]
  constructor
  · rintro ⟨b, hb, bs, hbs, rfl⟩
    exact ⟨b, bs, hb, hbs, rfl⟩
  · rintro ⟨b, bs, hb, hbs, rfl⟩
    exact ⟨b, hb, bs, hbs, rfl⟩

/-- What a traversal collects, it got from an item. -/
theorem traverse_mem {ε α β : Type} {f : α → Except ε β} {as : List α} {bs : List β} (h : traverse f as = .ok bs)
    {b : β} (hb : b ∈ bs) : ∃ a ∈ as, f a = .ok b := by
  induction as generalizing bs with
  | nil =>
    cases h
    cases hb
  | cons a as ih =>
    obtain ⟨c, cs, hc, hcs, rfl⟩ := traverse_cons_ok.mp h
    rcases List.mem_cons.mp hb with rfl | hb
    · exact ⟨a, by simp, hc⟩
    · obtain ⟨x, hx, hfx⟩ := ih hcs hb
      exact ⟨x, by simp [hx], hfx⟩

/-- A traversal that returns had no failing item, and collected something from each. -/
theorem traverse_all {ε α β : Type} {f : α → Except ε β} {as : List α} {bs : List β} (h : traverse f as = .ok bs) :
    ∀ a ∈ as, ∃ b ∈ bs, f a = .ok b := by
  induction as generalizing bs with
  | nil => simp
  | cons a as ih =>
    obtain ⟨c, cs, hc, hcs, rfl⟩ := traverse_cons_ok.mp h
    intro x hx
    rcases List.mem_cons.mp hx with rfl | hx
    · exact ⟨c, List.mem_cons_self, hc⟩
    · obtain ⟨b, hb, hfx⟩ := ih hcs x hx
      exact ⟨b, List.mem_cons_of_mem c hb, hfx⟩

/-- A traversal relates its items and what it collects one by one. -/
theorem traverse_forall₂ {ε α β : Type} {f : α → Except ε β} {as : List α} {bs : List β} (h : traverse f as = .ok bs) :
    List.Forall₂ (fun a b => f a = .ok b) as bs := by
  induction as generalizing bs with
  | nil =>
    cases h
    exact List.Forall₂.nil
  | cons a as ih =>
    obtain ⟨c, cs, hc, hcs, rfl⟩ := traverse_cons_ok.mp h
    exact List.Forall₂.cons hc (ih hcs)

/-- A traversal of fewer items collects the beginning of what it collects of more. -/
theorem traverse_initial {ε α β : Type} {f : α → Except ε β} {as bs : List α} {xs ys : List β} (h : as <+: bs)
    (hx : traverse f as = .ok xs) (hy : traverse f bs = .ok ys) : xs <+: ys := by
  induction as generalizing bs xs ys with
  | nil =>
    cases hx
    exact List.nil_prefix
  | cons a as ih =>
    cases bs with
    | nil => exact absurd (List.prefix_nil.mp h) (by simp)
    | cons b bs =>
      obtain ⟨rfl, hrest⟩ := List.cons_prefix_cons.mp h
      obtain ⟨x, xs, hax, hxs, rfl⟩ := traverse_cons_ok.mp hx
      obtain ⟨y, ys, hay, hys, rfl⟩ := traverse_cons_ok.mp hy
      rw [hax] at hay
      cases hay
      exact List.cons_prefix_cons.mpr ⟨rfl, ih hrest hxs hys⟩

/-- The first hit among the results is the result of the first hit. -/
theorem traverse_first {ε α β : Type} {f : α → Except ε β} {p : α → Bool} {q : β → Bool}
    (hpq : ∀ a b, f a = .ok b → p a = q b) {as : List α} {bs : List β} (h : traverse f as = .ok bs) :
    (as.find? p = none ∧ bs.find? q = none) ∨
      ∃ a b, as.find? p = some a ∧ bs.find? q = some b ∧ f a = .ok b := by
  induction as generalizing bs with
  | nil =>
    cases h
    exact Or.inl ⟨rfl, rfl⟩
  | cons a as ih =>
    obtain ⟨b, bs, hb, hbs, rfl⟩ := traverse_cons_ok.mp h
    have hhit := hpq a b hb
    cases hp : p a with
    | true =>
      rw [hp] at hhit
      exact Or.inr ⟨a, b, by rw [List.find?_cons, hp], by rw [List.find?_cons, ← hhit], hb⟩
    | false =>
      rw [hp] at hhit
      rw [List.find?_cons, hp, List.find?_cons, ← hhit]
      exact ih hbs

/-- A traversal that fails raises the error of an item. -/
theorem traverse_error {ε α β : Type} {f : α → Except ε β} {as : List α} {e : ε} (h : traverse f as = .error e) :
    ∃ a ∈ as, f a = .error e := by
  induction as with
  | nil => cases h
  | cons a as ih =>
    rcases bind_error_iff.mp h with ha | ⟨b, -, h⟩
    · exact ⟨a, by simp, ha⟩
    · rcases bind_error_iff.mp h with has | ⟨bs, -, h⟩
      · obtain ⟨x, hx, hfx⟩ := ih has
        exact ⟨x, by simp [hx], hfx⟩
      · cases h

theorem traverse_returns_iff {ε α β : Type} {f : α → Except ε β} {as : List α} :
    (∃ bs, traverse f as = .ok bs) ↔ ∀ a ∈ as, ∃ b, f a = .ok b := by
  constructor
  · intro ⟨bs, h⟩ a ha
    obtain ⟨b, -, hb⟩ := traverse_all h a ha
    exact ⟨b, hb⟩
  · intro h
    induction as with
    | nil => exact ⟨[], rfl⟩
    | cons a as ih =>
      obtain ⟨b, hb⟩ := h a List.mem_cons_self
      obtain ⟨bs, hbs⟩ := ih (fun x hx => h x (List.mem_cons_of_mem a hx))
      exact ⟨b::bs, traverse_cons_ok.mpr ⟨b, bs, hb, hbs, rfl⟩⟩

/-- A traversal whose steps all succeed with the values of `g` collects them in order. -/
theorem traverse_eq_map {ε α β : Type} (f : α → Except ε β) (g : α → β) (as : List α)
    (h : ∀ a ∈ as, f a = .ok (g a)) : traverse f as = .ok (as.map g) := by
  induction as with
  | nil => rfl
  | cons a as ih =>
    exact traverse_cons_ok.mpr ⟨g a, as.map g, h a (by simp), ih (fun x hx => h x (by simp [hx])), rfl⟩

/-- Run the steps in order and join what they write; the first error ends it. -/
def gather {ε σ : Type} : List (Except ε (List σ)) → Except ε (List σ)
  | [] => .ok []
  | x::xs => do
    let a ← x
    let b ← gather xs
    return a++b

@[simp] theorem gather_nil {ε σ : Type} : gather ([] : List (Except ε (List σ))) = .ok [] := rfl

theorem gather_cons_ok {ε σ : Type} {x : Except ε (List σ)} {xs : List (Except ε (List σ))} {r : List σ} :
    gather (x::xs) = .ok r ↔ ∃ a b, x = .ok a ∧ gather xs = .ok b ∧ r = a++b := by
  simp only [gather, bind_ok_iff, pure, Except.pure, Except.ok.injEq]
  constructor
  · intro ⟨a, ha, b, hb, hr⟩
    exact ⟨a, b, ha, hb, hr.symm⟩
  · intro ⟨a, b, ha, hb, hr⟩
    exact ⟨a, ha, b, hb, hr.symm⟩

/-- Gathering returns exactly when every step does. -/
theorem gather_returns_iff {ε σ : Type} {xs : List (Except ε (List σ))} :
    (∃ r, gather xs = .ok r) ↔ ∀ x ∈ xs, ∃ a, x = .ok a := by
  induction xs with
  | nil => simp
  | cons x xs ih =>
    rw [List.forall_mem_cons, ← ih]
    constructor
    · intro ⟨r, hr⟩
      obtain ⟨a, b, ha, hb, -⟩ := gather_cons_ok.mp hr
      exact ⟨⟨a, ha⟩, b, hb⟩
    · intro ⟨⟨a, ha⟩, b, hb⟩
      exact ⟨a++b, gather_cons_ok.mpr ⟨a, b, ha, hb, rfl⟩⟩

/-- Two stages return exactly when the first does and the second does on what it gives. -/
theorem bind_returns_iff {ε α β : Type} {x : Except ε α} {f : α → Except ε β} :
    (∃ r, (x >>= f) = .ok r) ↔ ∃ a, x = .ok a ∧ ∃ r, f a = .ok r := by
  constructor
  · intro ⟨r, h⟩
    obtain ⟨a, ha, hr⟩ := bind_ok_iff.mp h
    exact ⟨a, ha, r, hr⟩
  · intro ⟨a, ha, r, hr⟩
    exact ⟨r, bind_ok_iff.mpr ⟨a, ha, hr⟩⟩

/-- In two lists related item by item every item has a partner. -/
theorem forall₂_mem_left {α β : Type} {R : α → β → Prop} {as : List α} {bs : List β} (h : List.Forall₂ R as bs)
    {a : α} (ha : a ∈ as) : ∃ b ∈ bs, R a b := by
  induction h with
  | nil => cases ha
  | cons hr _ ih =>
    rcases List.mem_cons.mp ha with rfl | ha
    · exact ⟨_, List.mem_cons_self, hr⟩
    · obtain ⟨b, hb, hab⟩ := ih ha
      exact ⟨b, List.mem_cons_of_mem _ hb, hab⟩

theorem forall₂_mem_right {α β : Type} {R : α → β → Prop} {as : List α} {bs : List β} (h : List.Forall₂ R as bs)
    {b : β} (hb : b ∈ bs) : ∃ a ∈ as, R a b := by
  induction h with
  | nil => cases hb
  | cons hr _ ih =>
    rcases List.mem_cons.mp hb with rfl | hb
    · exact ⟨_, List.mem_cons_self, hr⟩
    · obtain ⟨a, ha, hab⟩ := ih hb
      exact ⟨a, List.mem_cons_of_mem _ ha, hab⟩

end Noxipher
