import Noxipher.Library.Outcome
import Mathlib.Data.List.Forall2

namespace Noxipher.PrefixCode

variable {ε σ α β : Type}

/-- Among `R`-related arguments the output tells the argument up to `E`, and where its encoding ends
whatever is written after it. -/
def Splits (R E : α → α → Prop) (enc : α → Except ε (List σ)) : Prop :=
  ∀ a b x y s t, R a b → enc a = .ok x → enc b = .ok y → x++s = y++t → E a b ∧ s = t

variable {R R' E E' : α → α → Prop} {enc f : α → Except ε (List σ)}
  {g : α → List (Except ε (List σ))}

/-- Equal whole outputs come from arguments that agree. -/
theorem Splits.agree (h : Splits R E enc) {a b : α} {x : List σ} (hr : R a b)
    (ha : enc a = .ok x) (hb : enc b = .ok x) : E a b :=
  (h a b x x [] [] hr ha hb rfl).1

theorem Splits.mono (h : Splits R E enc) (hR : ∀ a b, R' a b → R a b)
    (hE : ∀ a b, R' a b → E a b → E' a b) : Splits R' E' enc := by
  intro a b x y s t hr ha hb he
  obtain ⟨hab, hst⟩ := h a b x y s t (hR a b hr) ha hb he
  exact ⟨hE a b hr hab, hst⟩

theorem Splits.comap (h : Splits R E enc) (p : β → α) :
    Splits (fun a b => R (p a) (p b)) (fun a b => E (p a) (p b)) (fun a => enc (p a)) := by
  intro a b x y s t hr ha hb he
  exact h (p a) (p b) x y s t hr ha hb he

/-- Arguments of one form are told apart by what the form holds. -/
theorem Splits.ofForm {F G : β → β → Prop} {enc' : β → Except ε (List σ)} (h : Splits F G enc') (form : β → α)
    (hform : ∀ a b, R a b → ∃ a' b', a = form a' ∧ b = form b' ∧ F a' b') (henc : ∀ a', enc (form a') = enc' a')
    (hE : ∀ a' b', G a' b' → E (form a') (form b')) : Splits R E enc := by
  intro a b x y s t hr ha hb he
  obtain ⟨a', b', rfl, rfl, hf⟩ := hform a b hr
  rw [henc] at ha hb
  obtain ⟨hg, hst⟩ := h a' b' x y s t hf ha hb he
  exact ⟨hE a' b' hg, hst⟩

/-- A field that is readable on its own may stand anywhere in a record. -/
theorem Splits.field {enc : β → Except ε (List σ)} (h : Splits (fun _ _ => True) Eq enc) (p : α → β) :
    Splits R (fun a b => p a = p b) (fun a => enc (p a)) :=
  (h.comap p).mono (fun _ _ _ => trivial) (fun _ _ _ he => he)

/-- A field of fixed width only has to be injective. -/
theorem splits_width (n : Nat) (hw : ∀ a x, enc a = .ok x → x.length = n)
    (hinj : ∀ a b x, R a b → enc a = .ok x → enc b = .ok x → E a b) : Splits R E enc := by
  intro a b x y s t hr ha hb he
  have hl : x.length = y.length := by rw [hw a x ha, hw b y hb]
  obtain ⟨hxy, hst⟩ := List.append_inj he hl
  rw [← hxy] at hb
  exact ⟨hinj a b x hr ha hb, hst⟩

/-- A field whose first symbol tells its length only has to be injective. -/
theorem splits_headed (len : σ → Nat)
    (hl : ∀ a x, enc a = .ok x → ∃ c r, x = c::r ∧ x.length = len c)
    (hinj : ∀ a b x, R a b → enc a = .ok x → enc b = .ok x → E a b) : Splits R E enc := by
  intro a b x y s t hr ha hb he
  obtain ⟨c, r, hx, hcx⟩ := hl a x ha
  obtain ⟨d, q, hy, hdy⟩ := hl b y hb
  have hcd : c = d := by
    rw [hx, hy] at he
    exact (List.cons.inj he).1
  obtain ⟨hxy, hst⟩ := List.append_inj he (by rw [hcx, hdy, hcd])
  rw [← hxy] at hb
  exact ⟨hinj a b x hr ha hb, hst⟩

/-- Raw text is recovered once its length is known. -/
theorem splits_raw (p : α → List σ) (hl : ∀ a b, R a b → (p a).length = (p b).length) :
    Splits (ε := ε) R (fun a b => p a = p b) (fun a => .ok (p a)) := by
  intro a b x y s t hr ha hb he
  cases ha
  cases hb
  exact List.append_inj he (hl a b hr)

theorem splits_nil : Splits (ε := ε) (σ := σ) R (fun _ _ => True) (fun _ => gather []) := by
  intro a b x y s t hr ha hb he
  cases ha
  cases hb
  exact ⟨trivial, he⟩

/-- A field that is written the same on both sides tells nothing, but where it ends. -/
theorem splits_same (h : ∀ a b, R a b → enc a = enc b) : Splits R (fun _ _ => True) enc := by
  intro a b x y s t hr ha hb he
  rw [h a b hr, hb] at ha
  cases ha
  exact ⟨trivial, List.append_cancel_left he⟩

/-- What the first field tells may be used to read the rest. -/
theorem Splits.consKnown (hf : Splits R E f)
    (hg : Splits (fun a b => R a b ∧ E a b) E' (fun a => gather (g a))) :
    Splits R (fun a b => E a b ∧ E' a b) (fun a => gather (f a :: g a)) := by
  intro a b x y s t hr ha hb he
  obtain ⟨x1, x2, hx1, hx2, rfl⟩ := gather_cons_ok.mp ha
  obtain ⟨y1, y2, hy1, hy2, rfl⟩ := gather_cons_ok.mp hb
  rw [List.append_assoc, List.append_assoc] at he
  obtain ⟨h1, hrest⟩ := hf a b x1 y1 _ _ hr hx1 hy1 he
  obtain ⟨h2, hst⟩ := hg a b x2 y2 s t ⟨hr, h1⟩ hx2 hy2 hrest
  exact ⟨⟨h1, h2⟩, hst⟩

theorem Splits.cons (hf : Splits R E f) (hg : Splits R E' (fun a => gather (g a))) :
    Splits R (fun a b => E a b ∧ E' a b) (fun a => gather (f a :: g a)) :=
  hf.consKnown (hg.mono (fun _ _ hr => hr.1) (fun _ _ _ he => he))

/-- The last field of a record. -/
theorem Splits.last (hf : Splits R E f) : Splits R E (fun a => gather [f a]) :=
  (hf.cons splits_nil).mono (fun _ _ hr => hr) (fun _ _ _ he => he.1)

/-- Items written one after another, once their number is known. -/
theorem Splits.items (h : Splits R E enc) :
    Splits (fun xs ys => xs.length = ys.length ∧ ∀ p ∈ xs.zip ys, R p.1 p.2) (List.Forall₂ E)
      (fun xs => gather (xs.map enc)) := by
  intro xs
  induction xs with
  | nil =>
    intro ys x y s t hr ha hb he
    have hnil : ys = [] := List.length_eq_zero_iff.mp hr.1.symm
    subst hnil
    cases ha
    cases hb
    exact ⟨List.Forall₂.nil, he⟩
  | cons a xs ih =>
    intro ys x y s t hr ha hb he
    cases ys with
    | nil => exact absurd hr.1 (by simp)
    | cons b ys =>
      obtain ⟨x1, x2, hx1, hx2, rfl⟩ := gather_cons_ok.mp ha
      obtain ⟨y1, y2, hy1, hy2, rfl⟩ := gather_cons_ok.mp hb
      rw [List.append_assoc, List.append_assoc] at he
      obtain ⟨hab, hrest⟩ := h a b x1 y1 _ _ (hr.2 (a, b) (by simp)) hx1 hy1 he
      have hr' : xs.length = ys.length ∧ ∀ p ∈ xs.zip ys, R p.1 p.2 :=
        ⟨by simpa using hr.1, fun p hp => hr.2 p (by simp [hp])⟩
      obtain ⟨htail, hst⟩ := ih ys x2 y2 s t hr' hx2 hy2 hrest
      exact ⟨List.Forall₂.cons hab htail, hst⟩

/-- A vector: the number of items, then the items; items at one position have to be related. -/
theorem Splits.vector {count : Nat → Except ε (List σ)} (hc : Splits (fun _ _ => True) Eq count)
    (h : Splits R E enc) :
    Splits (fun xs ys => ∀ p ∈ xs.zip ys, R p.1 p.2) (List.Forall₂ E)
      (fun xs => gather [count xs.length, gather (xs.map enc)]) := by
  have hcount : Splits (fun xs ys => ∀ p ∈ xs.zip ys, R p.1 p.2) (fun xs ys => xs.length = ys.length)
      (fun xs : List α => count xs.length) :=
    (hc.comap (List.length (α := α))).mono (fun _ _ _ => trivial) (fun _ _ _ he => he)
  have hitems : Splits (fun xs ys => (∀ p ∈ xs.zip ys, R p.1 p.2) ∧ xs.length = ys.length)
      (List.Forall₂ E) (fun xs => gather (xs.map enc)) :=
    h.items.mono (fun _ _ hr => ⟨hr.2, hr.1⟩) (fun _ _ _ he => he)
  exact (hcount.consKnown hitems.last).mono (fun _ _ hr => hr) (fun _ _ _ he => he.2)

/-- A tag that says whether a value follows. -/
def optional (yes no : σ) (enc : α → Except ε (List σ)) : Option α → Except ε (List σ)
  | some a => gather [.ok [yes], enc a]
  | none => .ok [no]

theorem Splits.option {yes no : σ} (hne : yes ≠ no) (h : Splits R E enc) :
    Splits (fun o p => ∀ a ∈ o, ∀ b ∈ p, R a b) (Option.Rel E) (optional yes no enc) := by
  intro o p x y s t hr ha hb he
  cases o with
  | none =>
    cases p with
    | none =>
      cases ha
      cases hb
      exact ⟨Option.Rel.none, by simpa using he⟩
    | some b =>
      obtain ⟨y1, y2, hy1, -, rfl⟩ := gather_cons_ok.mp hb
      cases ha
      cases hy1
      simp only [List.cons_append, List.cons.injEq] at he
      exact absurd he.1.symm hne
  | some a =>
    obtain ⟨x1, x2, hx1, hx2, rfl⟩ := gather_cons_ok.mp ha
    cases hx1
    cases p with
    | none =>
      cases hb
      simp only [List.cons_append, List.cons.injEq] at he
      exact absurd he.1 hne
    | some b =>
      obtain ⟨y1, y2, hy1, hy2, rfl⟩ := gather_cons_ok.mp hb
      cases hy1
      simp only [List.cons_append, List.cons.injEq, true_and] at he
      obtain ⟨hab, hst⟩ := h.last a b x2 y2 s t (hr a rfl b rfl) hx2 hy2 he
      exact ⟨Option.Rel.some hab, hst⟩

end Noxipher.PrefixCode
