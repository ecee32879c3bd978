import Noxipher.Tx.Serialize
import Noxipher.Tx.Unambiguous

namespace Noxipher

open PrefixCode

namespace OfferSlot

def offer : OfferSlot → Intent → Option UnshieldedOffer
  | guaranteed, intent => intent.guaranteed_unshielded_offer
  | fallible, intent => intent.fallible_unshielded_offer

def write (offer : UnshieldedOffer) : OfferSlot → Intent → Intent
  | guaranteed, intent => { intent with guaranteed_unshielded_offer := some offer }
  | fallible, intent => { intent with fallible_unshielded_offer := some offer }

@[simp] theorem offer_write (slot : OfferSlot) (offer : UnshieldedOffer) (intent : Intent) :
    slot.offer (slot.write offer intent) = some offer := by
  cases slot <;> rfl

theorem offer_write_ne {slot other : OfferSlot} (offer : UnshieldedOffer) (intent : Intent) (h : other ≠ slot) :
    other.offer (slot.write offer intent) = other.offer intent := by
  cases slot <;> cases other <;> first | rfl | exact absurd rfl h

end OfferSlot

/-- The offer with its list of signatures emptied. -/
def UnshieldedOffer.stripped (offer : UnshieldedOffer) : UnshieldedOffer :=
  { offer with signatures := offer.signatures.map (fun _ => []) }

/-- The intent with every list of signatures emptied. -/
def Intent.stripped (intent : Intent) : Intent :=
  { intent with
    guaranteed_unshielded_offer := intent.guaranteed_unshielded_offer.map UnshieldedOffer.stripped
    fallible_unshielded_offer := intent.fallible_unshielded_offer.map UnshieldedOffer.stripped }

/-- What an intent says apart from its signatures. -/
def Intent.body (intent : Intent) : Intent := intent.stripped.normalize

/-- What an offer says apart from its signatures. -/
def UnshieldedOffer.body (offer : UnshieldedOffer) : UnshieldedOffer := { offer with signatures := some [] }

def UnshieldedOffer.Unsigned (offer : UnshieldedOffer) : Prop := offer.signatures.getD [] = []

/-- No offer that is there carries a signature. -/
def Intent.Unsigned (intent : Intent) : Prop :=
  ∀ slot : OfferSlot, ∀ offer ∈ present (slot.offer intent), offer.Unsigned

theorem UnshieldedOffer.stripped_truthy (offer : UnshieldedOffer) : offer.stripped.truthy = offer.truthy := by
  simp [stripped, truthy]

theorem UnshieldedOffer.stripped_unsigned (offer : UnshieldedOffer) : offer.stripped.Unsigned := by
  unfold Unsigned stripped
  cases offer.signatures <;> rfl

theorem UnshieldedOffer.body_stripped (offer : UnshieldedOffer) : offer.stripped.body = offer.body := rfl

theorem present_stripped (o : Option UnshieldedOffer) :
    present (o.map UnshieldedOffer.stripped) = (present o).map UnshieldedOffer.stripped := by
  cases o with
  | none => rfl
  | some offer =>
    simp only [Option.map_some, present, Option.filter, offer.stripped_truthy]
    split_ifs <;> rfl

theorem present_signed (offer : UnshieldedOffer) (sigs : List Bytes) :
    present (some { offer with signatures := some sigs }) = some { offer with signatures := some sigs } := by
  simp [present, Option.filter, UnshieldedOffer.truthy]

theorem Intent.stripped_unsigned (intent : Intent) : intent.stripped.Unsigned := by
  intro slot offer h
  have hs : slot.offer intent.stripped = (slot.offer intent).map UnshieldedOffer.stripped := by
    cases slot <;> rfl
  rw [hs, present_stripped] at h
  obtain ⟨o, -, rfl⟩ := Option.mem_map.mp h
  exact o.stripped_unsigned

/-- The offers of the body: the signatures are gone, whether they were listed or missing. -/
theorem Intent.body_eq (intent : Intent) : intent.body =
    { guaranteed_unshielded_offer := (present intent.guaranteed_unshielded_offer).map UnshieldedOffer.body
      fallible_unshielded_offer := (present intent.fallible_unshielded_offer).map UnshieldedOffer.body
      ttl := intent.ttl
      actions := some ((intent.actions.getD []).map ContractAction.normalize)
      binding_commitment := intent.binding_commitment } := by
  have hoffer : (fun offer : UnshieldedOffer => offer.stripped.normalize) = UnshieldedOffer.body := by
    funext offer
    unfold UnshieldedOffer.stripped UnshieldedOffer.normalize UnshieldedOffer.body
    cases offer.signatures <;> rfl
  simp only [body, stripped, normalize, present_stripped, Option.map_map, Function.comp_def, hoffer]

theorem Intent.body_stripped (intent : Intent) : intent.stripped.body = intent.body := by
  simp only [body_eq, stripped, present_stripped, Option.map_map, Function.comp_def,
    UnshieldedOffer.body_stripped]

theorem Intent.Unsigned.normalize_eq {intent : Intent} (h : intent.Unsigned) : intent.normalize = intent.body := by
  have hoffer (o : Option UnshieldedOffer) (ho : ∀ offer ∈ present o, offer.Unsigned) :
      (present o).map UnshieldedOffer.normalize = (present o).map UnshieldedOffer.body := by
    apply Option.map_congr
    intro offer hmem
    rw [UnshieldedOffer.normalize, ho offer hmem, UnshieldedOffer.body]
  rw [Intent.body_eq, Intent.normalize]
  congr 1
  · exact hoffer _ (h .guaranteed)
  · exact hoffer _ (h .fallible)

theorem getUnshieldedSigningPayload_normalize (segment_id : Int) (intent : Intent) :
    getUnshieldedSigningPayload segment_id intent.normalize = getUnshieldedSigningPayload segment_id intent := by
  unfold getUnshieldedSigningPayload
  rw [serializeIntent_normalize]

/-- Next to an unsigned offer with the same inputs and outputs, equal bytes come from an unsigned offer. -/
theorem serializeUnshieldedOffer_unsigned :
    Splits (fun a b : UnshieldedOffer => a.inputs = b.inputs ∧ a.outputs = b.outputs ∧ b.Unsigned)
      (fun a _ => a.Unsigned) serializeUnshieldedOffer := by
  have hsig : Splits (fun a b : UnshieldedOffer => a.inputs = b.inputs ∧ a.outputs = b.outputs ∧ b.Unsigned)
      (fun a _ => a.Unsigned) (fun a => serializeVec .ok (a.signatures.getD [])) := by
    refine ((serializeVec_zip rawBytes_splits).comap (fun a : UnshieldedOffer => a.signatures.getD [])).mono ?_ ?_
    · intro a b hr p hp
      rw [hr.2.2, List.zip_nil_right] at hp
      cases hp
    · intro a b hr he
      rw [hr.2.2, List.forall₂_nil_right_iff] at he
      exact he
  have hin : Splits (fun a b : UnshieldedOffer => a.inputs = b.inputs ∧ a.outputs = b.outputs ∧ b.Unsigned) _
      (fun a => required "inputs" a.inputs >>= serializeVec serializeUtxoSpend) :=
    splits_same (fun a b hr => by rw [hr.1])
  have hout : Splits (fun a b : UnshieldedOffer => a.inputs = b.inputs ∧ a.outputs = b.outputs ∧ b.Unsigned) _
      (fun a => required "outputs" a.outputs >>= serializeVec serializeUtxoOutput) :=
    splits_same (fun a b hr => by rw [hr.2.1])
  exact (hin.cons (hout.cons hsig.last)).mono (fun _ _ hr => hr) (fun _ _ _ he => he.2.2)

/-- Two optional offers that differ in their signatures only. -/
def SameOffer (o p : Option UnshieldedOffer) : Prop :=
  (present o).map UnshieldedOffer.body = (present p).map UnshieldedOffer.body

theorem serializeOptionalOffer_unsigned :
    Splits (fun o p => SameOffer o p ∧ ∀ offer ∈ present p, offer.Unsigned)
      (fun o _ => ∀ offer ∈ present o, offer.Unsigned) serializeOptionalOffer := by
  have hopt := (Splits.option (show (1 : UInt8) ≠ 0 by decide) serializeUnshieldedOffer_unsigned).comap present
  rw [serializeOptionalOffer_eq]
  refine hopt.mono ?_ ?_
  · intro o p hr a ha b hb
    have hs := hr.1
    rw [SameOffer, Option.mem_def.mp ha, Option.mem_def.mp hb, Option.map_some, Option.map_some] at hs
    simp only [Option.some.injEq, UnshieldedOffer.body, UnshieldedOffer.mk.injEq, and_true] at hs
    exact ⟨hs.1, hs.2, hr.2 b hb⟩
  · intro o p _ he a ha
    rw [Option.mem_def.mp ha] at he
    generalize present p = q at he
    cases he with
    | some hab => exact hab

/-- Intents that differ in their signatures only, the second unsigned, have the same bytes only when the
first is unsigned too. -/
theorem serializeIntent_unsigned :
    Splits (fun i j : Intent => i.body = j.body ∧ j.Unsigned) (fun i _ => i.Unsigned) serializeIntent := by
  have hfields (i j : Intent) (h : i.body = j.body) :
      SameOffer i.guaranteed_unshielded_offer j.guaranteed_unshielded_offer ∧
      SameOffer i.fallible_unshielded_offer j.fallible_unshielded_offer ∧ i.ttl = j.ttl ∧
      (i.actions.getD []).map ContractAction.normalize = (j.actions.getD []).map ContractAction.normalize ∧
      i.binding_commitment = j.binding_commitment := by
    simpa only [Intent.body_eq, Intent.mk.injEq, Option.some.injEq, SameOffer] using h
  have hg : Splits (fun i j : Intent => i.body = j.body ∧ j.Unsigned) _ _ :=
    (serializeOptionalOffer_unsigned.comap Intent.guaranteed_unshielded_offer).mono
      (fun i j hr => ⟨(hfields i j hr.1).1, hr.2 .guaranteed⟩) (fun _ _ _ he => he)
  have hf : Splits (fun i j : Intent => i.body = j.body ∧ j.Unsigned) _ _ :=
    (serializeOptionalOffer_unsigned.comap Intent.fallible_unshielded_offer).mono
      (fun i j hr => ⟨(hfields i j hr.1).2.1, hr.2 .fallible⟩) (fun _ _ _ he => he)
  have hrest : Splits (fun i j : Intent => i.body = j.body ∧ j.Unsigned) (fun _ _ => True)
      (fun i => gather [required "ttl" i.ttl >>= serializeU32,
        serializeVec serializeContractAction (i.actions.getD []),
        required "binding_commitment" i.binding_commitment]) := by
    apply splits_same
    intro i j hr
    obtain ⟨-, -, httl, hact, hbind⟩ := hfields i j hr.1
    rw [httl, hbind, ← serializeActions_normalize (i.actions.getD []),
      ← serializeActions_normalize (j.actions.getD []), hact]
  refine (hg.cons (hf.cons hrest)).mono (fun _ _ hr => hr) ?_
  intro i j _ he slot
  cases slot with
  | guaranteed => exact he.1
  | fallible => exact he.2.1

theorem signingPayload_unsigned {segment_id : Int} {i j : Intent} {x : Bytes} (hb : i.body = j.body)
    (hj : j.Unsigned) (hx : getUnshieldedSigningPayload segment_id i = .ok x)
    (hy : getUnshieldedSigningPayload segment_id j = .ok x) : i.Unsigned := by
  have htag : Splits (fun i j : Intent => i.body = j.body ∧ j.Unsigned) (fun _ _ => True)
      (fun _ => (Except.ok (encodeStr "midnight:unshielded-sig[v1]") : Except PyError Bytes)) :=
    splits_same (fun _ _ _ => rfl)
  have hseg : Splits (fun i j : Intent => i.body = j.body ∧ j.Unsigned) (fun _ _ => True)
      (fun _ => serializeU32 segment_id) :=
    splits_same (fun _ _ _ => rfl)
  exact ((htag.cons (hseg.cons serializeIntent_unsigned.last)).agree ⟨hb, hj⟩ hx hy).2.2

/-- A payload over an intent is the payload of the stripped intent exactly when nothing was signed yet. -/
theorem signingPayload_covers {segment_id : Int} {i j : Intent} {x : Bytes} (hb : i.body = j.body)
    (hx : getUnshieldedSigningPayload segment_id i = .ok x) :
    getUnshieldedSigningPayload segment_id j.stripped = .ok x ↔ i.Unsigned := by
  constructor
  · intro hy
    exact signingPayload_unsigned (hb.trans j.body_stripped.symm) j.stripped_unsigned hx hy
  · intro hi
    have hbody : getUnshieldedSigningPayload segment_id j.body = .ok x := by
      rw [← hb, ← hi.normalize_eq, getUnshieldedSigningPayload_normalize, hx]
    rwa [Intent.body, getUnshieldedSigningPayload_normalize] at hbody

/-- Signing one offer: nothing where there is none, else one record over the intent as it stands. -/
inductive SlotSigned (slot : OfferSlot) (key : IntLike) (seg_id : Int) : Intent → Intent → List SignRecord → Prop
  | absent {intent : Intent} (h : present (slot.offer intent) = none) : SlotSigned slot key seg_id intent intent []
  | signed {intent : Intent} {offer : UnshieldedOffer} (r : SignRecord)
      (h : present (slot.offer intent) = some offer) (hr : r.segment = key ∧ r.seg_id = seg_id ∧ r.slot = slot)
      (hp : getUnshieldedSigningPayload seg_id intent = .ok r.payload) :
      SlotSigned slot key seg_id intent (slot.write { offer with signatures := some [r.signature] } intent) [r]

/-- One iteration of the signing loop. -/
structure SegmentStep where
  key : IntLike
  seg_id : Int
  before : Intent
  between : Intent
  after : Intent
  guaranteed : List SignRecord
  fallible : List SignRecord
  parsed : key.toInt = .ok seg_id
  first : SlotSigned .guaranteed key seg_id before between guaranteed
  second : SlotSigned .fallible key seg_id between after fallible

def SegmentStep.records (s : SegmentStep) : List SignRecord := s.guaranteed++s.fallible

namespace SlotSigned

variable {slot : OfferSlot} {key : IntLike} {seg_id : Int} {before after : Intent} {records : List SignRecord}

theorem frame (h : SlotSigned slot key seg_id before after records) :
    after.ttl = before.ttl ∧ after.actions = before.actions ∧
      after.binding_commitment = before.binding_commitment := by
  cases h with
  | absent => exact ⟨rfl, rfl, rfl⟩
  | signed => cases slot <;> exact ⟨rfl, rfl, rfl⟩

/-- The other offer is not touched. -/
theorem other (h : SlotSigned slot key seg_id before after records) {other : OfferSlot} (hne : other ≠ slot) :
    other.offer after = other.offer before := by
  cases h with
  | absent => rfl
  | signed r => exact OfferSlot.offer_write_ne _ _ hne

theorem body (h : SlotSigned slot key seg_id before after records) : after.body = before.body := by
  cases h with
  | absent => rfl
  | signed r h =>
    cases slot
    · change present before.guaranteed_unshielded_offer = _ at h
      simp only [Intent.body_eq, OfferSlot.write, present_signed, h, Option.map_some, UnshieldedOffer.body]
    · change present before.fallible_unshielded_offer = _ at h
      simp only [Intent.body_eq, OfferSlot.write, present_signed, h, Option.map_some, UnshieldedOffer.body]

/-- An offer is signed exactly when it is there, and stays there. -/
theorem presence (h : SlotSigned slot key seg_id before after records) :
    (present (slot.offer after)).isSome = (present (slot.offer before)).isSome ∧
      records.length = (present (slot.offer before)).toList.length := by
  cases h with
  | absent h => simp [h]
  | signed r h => simp [present_signed, h]

/-- A signed offer is no longer unsigned. -/
theorem signed_after {r : SignRecord} (h : SlotSigned slot key seg_id before after [r]) : ¬ after.Unsigned := by
  cases h with
  | signed r h hr hp =>
    intro hu
    have hs := hu slot _ (by rw [OfferSlot.offer_write]; exact present_signed _ _)
    cases hs

end SlotSigned

/-- At most one offer is there, and it carries no signature yet. -/
structure Intent.ReadyToSign (intent : Intent) : Prop where
  single : present intent.guaranteed_unshielded_offer = none ∨ present intent.fallible_unshielded_offer = none
  unsigned : intent.Unsigned

def Intent.NothingToSign (intent : Intent) : Prop := ∀ slot : OfferSlot, present (slot.offer intent) = none

theorem Intent.NothingToSign.ready {intent : Intent} (h : intent.NothingToSign) : intent.ReadyToSign where
  single := Or.inl (h .guaranteed)
  unsigned := by
    intro slot offer ho
    rw [h slot] at ho
    cases ho

/-- The record signs what is rebuilt from the intent that holds its signature. -/
structure SignRecord.CoveredBy (r : SignRecord) (intent : Intent) : Prop where
  stored : ∃ offer, r.slot.offer intent = some offer ∧ offer.signatures = some [r.signature]
  payload : getUnshieldedSigningPayload r.seg_id intent.stripped = .ok r.payload

theorem SlotSigned.stored {slot : OfferSlot} {key : IntLike} {seg_id : Int} {before after : Intent}
    {records : List SignRecord} (h : SlotSigned slot key seg_id before after records) {r : SignRecord}
    (hr : r ∈ records) : r.segment = key ∧ r.seg_id = seg_id ∧ r.slot = slot ∧
      ∃ offer, slot.offer after = some offer ∧ offer.signatures = some [r.signature] := by
  cases h with
  | absent => cases hr
  | signed r' h hr' =>
    obtain rfl := List.mem_singleton.mp hr
    exact ⟨hr'.1, hr'.2.1, hr'.2.2, _, OfferSlot.offer_write _ _ _, rfl⟩

theorem SlotSigned.logged {slot : OfferSlot} {key : IntLike} {seg_id : Int} {before after : Intent}
    {records : List SignRecord} (h : SlotSigned slot key seg_id before after records) {offer : UnshieldedOffer}
    (ho : present (slot.offer after) = some offer) :
    ∃ r ∈ records, r.slot = slot ∧ offer.signatures = some [r.signature] := by
  cases h with
  | absent h =>
    rw [h] at ho
    cases ho
  | signed r h hr =>
    rw [OfferSlot.offer_write, present_signed] at ho
    cases ho
    exact ⟨r, List.mem_singleton_self r, hr.2.2, rfl⟩

namespace SegmentStep

theorem body (s : SegmentStep) : s.after.body = s.before.body := s.second.body.trans s.first.body

/-- A segment step keeps the offer in every place apart from its signatures. -/
theorem offer_kept (s : SegmentStep) (slot : OfferSlot) :
    (present (slot.offer s.after)).map UnshieldedOffer.body =
      (present (slot.offer s.before)).map UnshieldedOffer.body := by
  have hbody := s.body
  rw [Intent.body_eq, Intent.body_eq] at hbody
  cases slot with
  | guaranteed => exact congrArg Intent.guaranteed_unshielded_offer hbody
  | fallible => exact congrArg Intent.fallible_unshielded_offer hbody

theorem frame (s : SegmentStep) : s.after.ttl = s.before.ttl ∧ s.after.actions = s.before.actions ∧
    s.after.binding_commitment = s.before.binding_commitment := by
  obtain ⟨h1, h2, h3⟩ := s.first.frame
  obtain ⟨k1, k2, k3⟩ := s.second.frame
  exact ⟨k1.trans h1, k2.trans h2, k3.trans h3⟩

theorem stored (s : SegmentStep) {r : SignRecord} (hr : r ∈ s.records) :
    r.segment = s.key ∧ r.seg_id = s.seg_id ∧
      ∃ offer, r.slot.offer s.after = some offer ∧ offer.signatures = some [r.signature] := by
  rcases List.mem_append.mp hr with hg | hf
  · obtain ⟨hkey, hseg, hslot, offer, ho, hsig⟩ := s.first.stored hg
    have hkeep : OfferSlot.guaranteed.offer s.after = OfferSlot.guaranteed.offer s.between :=
      s.second.other (by decide)
    rw [hslot]
    exact ⟨hkey, hseg, offer, hkeep.trans ho, hsig⟩
  · obtain ⟨hkey, hseg, hslot, offer, ho, hsig⟩ := s.second.stored hf
    rw [hslot]
    exact ⟨hkey, hseg, offer, ho, hsig⟩

/-- The payloads of one segment are all rebuilt exactly when one unsigned offer at most was there. -/
theorem rebuilt_iff (s : SegmentStep) :
    (∀ r ∈ s.records, getUnshieldedSigningPayload s.seg_id s.after.stripped = .ok r.payload) ↔
      s.before.ReadyToSign := by
  obtain ⟨key, seg_id, before, between, after, guaranteed, fallible, -, hfirst, hsecond⟩ := s
  have hbody : before.body = after.body := (hsecond.body.trans hfirst.body).symm
  simp only [records]
  cases hfirst with
  | absent hg =>
    cases hsecond with
    | absent hf =>
      have hnone : before.NothingToSign := by
        intro slot
        cases slot
        · exact hg
        · exact hf
      exact ⟨fun _ => hnone.ready, fun _ r hr => absurd hr (List.not_mem_nil)⟩
    | signed r hf hr hp =>
      simp only [List.nil_append, List.mem_singleton, forall_eq, signingPayload_covers hbody hp]
      exact ⟨fun hu => ⟨Or.inl hg, hu⟩, fun hu => hu.unsigned⟩
  | signed r hg hr hp =>
    cases hsecond with
    | absent hf =>
      rw [OfferSlot.offer_write_ne _ _ (by decide)] at hf
      simp only [List.append_nil, List.mem_singleton, forall_eq, signingPayload_covers hbody hp]
      exact ⟨fun hu => ⟨Or.inr hf, hu⟩, fun hu => hu.unsigned⟩
    | signed r' hf hr' hp' =>
      have hsigned := SlotSigned.signed r hg hr hp
      have hagain := SlotSigned.signed r' hf hr' hp'
      constructor
      · intro hall
        have hun := (signingPayload_covers hagain.body.symm hp').mp (hall r' (by simp))
        exact absurd hun hsigned.signed_after
      · intro hready
        rw [OfferSlot.offer_write_ne _ _ (by decide)] at hf
        change present before.guaranteed_unshielded_offer = _ at hg
        change present before.fallible_unshielded_offer = _ at hf
        rcases hready.single with h | h
        · rw [h] at hg; cases hg
        · rw [h] at hf; cases hf

theorem covered_iff (s : SegmentStep) : (∀ r ∈ s.records, r.CoveredBy s.after) ↔ s.before.ReadyToSign := by
  rw [← s.rebuilt_iff]
  constructor
  · intro h r hr
    rw [← (s.stored hr).2.1]
    exact (h r hr).payload
  · intro h r hr
    obtain ⟨-, hseg, hst⟩ := s.stored hr
    exact ⟨hst, by rw [hseg]; exact h r hr⟩

end SegmentStep

end Noxipher
