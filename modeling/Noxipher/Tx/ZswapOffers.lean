import Noxipher.Tx.Unambiguous

namespace Noxipher

open PrefixCode

namespace ZswapOffer

/-- The root as it is written: hex text decoded, then cut or padded to 32 bytes. -/
def root (offer : ZswapOffer) : Except PyError Bytes :=
  (offer.merkle_root.getD (.bytes (List.replicate 32 0))).toBytes >>= fun root => .ok (normalizeRoot root)

def memos (offer : ZswapOffer) : List Bytes := offer.zswap_memos.getD []

/-- Items at one position have one length. -/
def Aligned (xs ys : List Bytes) : Prop := ∀ p ∈ xs.zip ys, p.1.length = p.2.length

/-- Corresponding vectors of the two offers are aligned. -/
def SameWidths (a b : ZswapOffer) : Prop :=
  Aligned a.spend_proofs b.spend_proofs ∧ Aligned a.output_proofs b.output_proofs ∧ Aligned a.memos b.memos

end ZswapOffer

theorem normalizeRoot_length (root : Bytes) : (normalizeRoot root).length = 32 := by
  simp only [normalizeRoot, List.length_append, List.length_take, List.length_replicate]
  omega

theorem serializeProofs_splits : Splits ZswapOffer.Aligned Eq (serializeVec .ok) := by
  refine (serializeVec_zip rawBytes_splits).mono (fun _ _ hr => hr) ?_
  intro xs ys _ he
  rwa [List.forall₂_eq_eq_eq] at he

theorem zswapRoot_splits : Splits (fun _ _ => True) (fun a b => a.root = b.root) ZswapOffer.root := by
  apply splits_width 32
  · intro a x hx
    obtain ⟨r, -, hr⟩ := bind_ok_iff.mp hx
    cases hr
    exact normalizeRoot_length r
  · intro a b x _ hx hy
    rw [hx, hy]

/-- Between aligned offers the payload tells every item and the root as written. -/
theorem zswapPayload_splits :
    Splits ZswapOffer.SameWidths
      (fun a b => a.spend_proofs = b.spend_proofs ∧ a.output_proofs = b.output_proofs ∧
        a.memos = b.memos ∧ a.root = b.root)
      (fun a => gather [serializeVec .ok a.spend_proofs, serializeVec .ok a.output_proofs,
        serializeVec .ok a.memos, a.root]) := by
  have hspend : Splits ZswapOffer.SameWidths _ _ :=
    (serializeProofs_splits.comap ZswapOffer.spend_proofs).mono (fun _ _ hr => hr.1) (fun _ _ _ he => he)
  have houtput : Splits ZswapOffer.SameWidths _ _ :=
    (serializeProofs_splits.comap ZswapOffer.output_proofs).mono (fun _ _ hr => hr.2.1) (fun _ _ _ he => he)
  have hmemos : Splits ZswapOffer.SameWidths _ _ :=
    (serializeProofs_splits.comap ZswapOffer.memos).mono (fun _ _ hr => hr.2.2) (fun _ _ _ he => he)
  have hroot : Splits ZswapOffer.SameWidths _ _ :=
    zswapRoot_splits.mono (fun _ _ _ => trivial) (fun _ _ _ he => he)
  exact hspend.cons (houtput.cons (hmemos.cons hroot.last))

theorem serializeZswapOffer_aligned (a b : ZswapOffer) (x : Bytes) (h : a.SameWidths b)
    (ha : serializeZswapOffer a = .ok x) (hb : serializeZswapOffer b = .ok x) :
    a.spend_proofs = b.spend_proofs ∧ a.output_proofs = b.output_proofs ∧ a.memos = b.memos ∧
      a.root = b.root := by
  obtain ⟨p, hp, hpx⟩ := bind_ok_iff.mp ha
  obtain ⟨q, hq, hqx⟩ := bind_ok_iff.mp hb
  rw [← taggedSerialize_inj hpx hqx] at hq
  exact zswapPayload_splits.agree h hp hq

def sampleZswapOffer (memos : Option (List Bytes)) (root : Bytes) : ZswapOffer :=
  ⟨[[1, 2], [3, 4, 5]], [[6]], memos, some (.bytes root)⟩

theorem serializeZswapOffer_aligned_sample :
    (sampleZswapOffer none [10]).SameWidths (sampleZswapOffer (some []) [10, 0]) ∧
    (sampleZswapOffer none [10]).root = (sampleZswapOffer (some []) [10, 0]).root := by
  have hw : (sampleZswapOffer none [10]).SameWidths (sampleZswapOffer (some []) [10, 0]) := by
    simp [sampleZswapOffer, ZswapOffer.SameWidths, ZswapOffer.Aligned, ZswapOffer.memos]
  obtain ⟨x, hx⟩ : ∃ x, serializeZswapOffer (sampleZswapOffer none [10]) = .ok x := ⟨_, rfl⟩
  have hy : serializeZswapOffer (sampleZswapOffer (some []) [10, 0]) = .ok x := by
    rw [← hx]
    rfl
  exact ⟨hw, (serializeZswapOffer_aligned _ _ x hw hx hy).2.2.2⟩

/-- Item boundaries and short roots are not written: both pairs share their bytes. -/
theorem serializeZswapOffer_ambiguous :
    (∃ x, serializeZswapOffer ⟨[[1], [2, 3]], [], none, none⟩ = .ok x ∧
      serializeZswapOffer ⟨[[1, 2], [3]], [], none, none⟩ = .ok x) ∧
    (∃ x, serializeZswapOffer ⟨[], [], none, some (.bytes [7])⟩ = .ok x ∧
      serializeZswapOffer ⟨[], [], none, some (.bytes [7, 0])⟩ = .ok x) ∧
    ¬ ∀ (a b : ZswapOffer) (x : Bytes), serializeZswapOffer a = .ok x → serializeZswapOffer b = .ok x →
      a.spend_proofs = b.spend_proofs ∧ a.merkle_root = b.merkle_root := by
  have hitems : serializeZswapOffer ⟨[[1], [2, 3]], [], none, none⟩ =
      serializeZswapOffer ⟨[[1, 2], [3]], [], none, none⟩ := by decide
  obtain ⟨x, hx⟩ : ∃ x, serializeZswapOffer ⟨[[1], [2, 3]], [], none, none⟩ = .ok x := ⟨_, rfl⟩
  refine ⟨⟨x, hx, hitems ▸ hx⟩, ⟨_, rfl, rfl⟩, ?_⟩
  intro hall
  exact absurd (hall _ _ x hx (hitems ▸ hx)).1 (by decide)

end Noxipher
