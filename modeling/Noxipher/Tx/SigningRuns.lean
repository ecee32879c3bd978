import Noxipher.Tx.Signing

namespace Noxipher

namespace TransactionBuilder

section Steps

variable {wallet : MidnightWallet} {draw : Nat} {key : IntLike} {seg_id : Int} {intent : Intent} {st : SignState}

theorem signGuaranteed_ok {r : Intent × SignState} (h : signGuaranteed wallet draw key seg_id intent st = .ok r) :
    ∃ records, SlotSigned .guaranteed key seg_id intent r.1 records ∧ r.2.intents = st.intents ∧
      r.2.log = st.log++records := by
  unfold signGuaranteed at h
  cases ho : present intent.guaranteed_unshielded_offer with
  | none =>
    rw [ho] at h
    cases h
    exact ⟨[], SlotSigned.absent ho, rfl, (List.append_nil _).symm⟩
  | some offer =>
    rw [ho] at h
    obtain ⟨inputs, -, h⟩ := bind_ok_iff.mp h
    obtain ⟨payload, hp, h⟩ := bind_ok_iff.mp h
    cases h
    have hslot : present (OfferSlot.guaranteed.offer intent) = some offer := ho
    exact ⟨_, SlotSigned.signed ⟨key, seg_id, .guaranteed, _, payload, _⟩ hslot ⟨rfl, rfl, rfl⟩ hp, rfl, rfl⟩

theorem signFallible_ok {r : Intent × SignState} (h : signFallible draw key seg_id intent st = .ok r) :
    ∃ records, SlotSigned .fallible key seg_id intent r.1 records ∧ r.2.intents = st.intents ∧
      r.2.log = st.log++records := by
  unfold signFallible at h
  cases ho : present intent.fallible_unshielded_offer with
  | none =>
    rw [ho] at h
    cases h
    exact ⟨[], SlotSigned.absent ho, rfl, (List.append_nil _).symm⟩
  | some offer =>
    rw [ho] at h
    obtain ⟨payload, hp, h⟩ := bind_ok_iff.mp h
    obtain ⟨signer, -, h⟩ := bind_ok_iff.mp h
    cases h
    have hslot : present (OfferSlot.fallible.offer intent) = some offer := ho
    exact ⟨_, SlotSigned.signed ⟨key, seg_id, .fallible, _, payload, _⟩ hslot ⟨rfl, rfl, rfl⟩ hp, rfl, rfl⟩

theorem signSegment_ok {st' : SignState} (h : signSegment wallet draw key intent st = .ok st') :
    ∃ s : SegmentStep, s.key = key ∧ s.before = intent ∧ st'.intents = st.intents.set key s.after ∧
      st'.log = st.log++s.records := by
  obtain ⟨seg_id, hseg, h⟩ := bind_ok_iff.mp h
  obtain ⟨first, hg, h⟩ := bind_ok_iff.mp h
  obtain ⟨second, hf, h⟩ := bind_ok_iff.mp h
  cases h
  obtain ⟨guaranteed, hfirst, hi, hl⟩ := signGuaranteed_ok hg
  obtain ⟨fallible, hsecond, hi', hl'⟩ := signFallible_ok hf
  refine ⟨⟨key, seg_id, intent, first.1, second.1, guaranteed, fallible, hseg, hfirst, hsecond⟩, rfl, rfl, ?_, ?_⟩
  · simp only [hi', hi]
  · simp only [hl', hl, SegmentStep.records, List.append_assoc]

/-- The loop over the remaining segments is a list of steps; the segments before them are not touched. -/
theorem signLoop_ok {entries done : List (IntLike × Intent)} {st' : SignState}
    (hd : st.intents.entries = done++entries) (h : signLoop wallet draw entries st = .ok st') :
    ∃ steps : List SegmentStep, steps.map (fun s => (s.key, s.before)) = entries ∧
      st'.intents.entries = done++steps.map (fun s => (s.key, s.after)) ∧
      st'.log = st.log++steps.flatMap SegmentStep.records := by
  induction entries generalizing st done with
  | nil =>
    cases h
    exact ⟨[], rfl, hd, (List.append_nil _).symm⟩
  | cons p entries ih =>
    obtain ⟨key, intent⟩ := p
    obtain ⟨st1, h1, hrest⟩ := bind_ok_iff.mp h
    obtain ⟨s, rfl, rfl, hi, hl⟩ := signSegment_ok h1
    have hk : s.key ∉ done.map Prod.fst := by
      have hn := st.intents.nodup
      rw [hd, List.map_append, List.map_cons] at hn
      intro hmem
      exact (List.nodup_append.mp hn).2.2 s.key hmem s.key (by simp) rfl
    have hd1 : st1.intents.entries = (done++[(s.key, s.after)])++entries := by
      rw [hi]
      change setEntry s.key s.after st.intents.entries = _
      rw [hd, setEntry_append _ _ _ hk, List.append_assoc]
      rfl
    obtain ⟨steps, hb, ha, hlog⟩ := ih hd1 hrest
    refine ⟨s::steps, ?_, ?_, ?_⟩
    · rw [List.map_cons, hb]
    · rw [ha, List.append_assoc]
      rfl
    · rw [hlog, hl, List.flatMap_cons, List.append_assoc]

/-- A segment without offers is left as it is. -/
theorem signSegment_idle (hkey : key.toInt = .ok seg_id) (hidle : intent.NothingToSign)
    (hget : st.intents.get? key = some intent) : signSegment wallet draw key intent st = .ok st := by
  have hg : present intent.guaranteed_unshielded_offer = none := hidle .guaranteed
  have hf : present intent.fallible_unshielded_offer = none := hidle .fallible
  simp only [signSegment, hkey, ok_bind, signGuaranteed, hg, signFallible, hf, Dict.set_get? hget]
  rfl

theorem signLoop_idle {entries : List (IntLike × Intent)}
    (h : ∀ p ∈ entries, (∃ n, p.1.toInt = .ok n) ∧ p.2.NothingToSign ∧ st.intents.get? p.1 = some p.2) :
    signLoop wallet draw entries st = .ok st := by
  induction entries with
  | nil => rfl
  | cons p entries ih =>
    obtain ⟨⟨n, hn⟩, hidle, hget⟩ := h p (by simp)
    simp only [signLoop, signSegment_idle hn hidle hget, ok_bind]
    exact ih (fun q hq => h q (by simp [hq]))

end Steps

end TransactionBuilder

namespace SegmentStep

/-- As many signatures as there are offers, which later changes to signatures do not change. -/
theorem records_length (s : SegmentStep) : s.records.length =
    s.before.body.guaranteed_unshielded_offer.toList.length +
      s.before.body.fallible_unshielded_offer.toList.length := by
  have hmap (o : Option UnshieldedOffer) : (o.map UnshieldedOffer.body).toList.length = o.toList.length := by
    cases o <;> rfl
  have hf : OfferSlot.fallible.offer s.between = OfferSlot.fallible.offer s.before := s.first.other (by decide)
  rw [records, List.length_append, s.first.presence.2, s.second.presence.2, Intent.body_eq]
  simp only [hmap]
  rw [hf]
  rfl

theorem nothingToSign_of_records (s : SegmentStep) (h : s.records = []) : s.before.NothingToSign := by
  have hlen := s.records_length
  rw [h, List.length_nil, Intent.body_eq] at hlen
  have hnone (o : Option UnshieldedOffer) (ho : (o.map UnshieldedOffer.body).toList.length = 0) : o = none := by
    cases o with
    | none => rfl
    | some offer => cases ho
  obtain ⟨hg, hf⟩ := Nat.add_eq_zero_iff.mp hlen.symm
  intro slot
  cases slot with
  | guaranteed => exact hnone _ hg
  | fallible => exact hnone _ hf

/-- The first signature of a segment is made over the intent as the step finds it. -/
theorem head_payload (s : SegmentStep) {r : SignRecord} {rest : List SignRecord} (h : s.records = r::rest) :
    getUnshieldedSigningPayload s.seg_id s.before = .ok r.payload := by
  obtain ⟨key, seg_id, before, between, after, guaranteed, fallible, _, hfirst, hsecond⟩ := s
  simp only [records] at h
  cases hfirst with
  | absent =>
    cases hsecond with
    | absent => cases h
    | signed r' _ _ hp =>
      obtain rfl : r' = r := (List.cons.inj h).1
      exact hp
  | signed r' _ _ hp =>
    obtain rfl : r' = r := (List.cons.inj h).1
    exact hp

theorem signed_after (s : SegmentStep) {r : SignRecord} (hr : r ∈ s.records) : ¬ s.after.Unsigned := by
  intro hu
  obtain ⟨-, -, offer, ho, hsig⟩ := s.stored hr
  have hp : present (r.slot.offer s.after) = some offer := by
    simp [ho, present, Option.filter, UnshieldedOffer.truthy, hsig]
  have hnil := hu r.slot offer hp
  rw [UnshieldedOffer.Unsigned, hsig] at hnil
  cases hnil

/-- What a submitted offer carries is the signature made for it. -/
theorem logged (s : SegmentStep) {slot : OfferSlot} {offer : UnshieldedOffer}
    (ho : present (slot.offer s.after) = some offer) :
    ∃ r ∈ s.records, r.slot = slot ∧ offer.signatures = some [r.signature] := by
  cases slot with
  | guaranteed =>
    have hkeep : OfferSlot.guaranteed.offer s.after = OfferSlot.guaranteed.offer s.between :=
      s.second.other (by decide)
    rw [hkeep] at ho
    obtain ⟨r, hr, hrec⟩ := s.first.logged ho
    exact ⟨r, List.mem_append_left _ hr, hrec⟩
  | fallible =>
    obtain ⟨r, hr, hrec⟩ := s.second.logged ho
    exact ⟨r, List.mem_append_right _ hr, hrec⟩

/-- Signing a signed segment once more gives other payloads, unless there was nothing to sign. -/
theorem resigned {s s' : SegmentStep} (hkey : s'.key = s.key) (hbefore : s'.before = s.after)
    (hu : s.before.Unsigned) (hp : s'.records.map SignRecord.payload = s.records.map SignRecord.payload) :
    s.before.NothingToSign := by
  apply s.nothingToSign_of_records
  cases hr : s.records with
  | nil => rfl
  | cons r rest =>
    rw [hr] at hp
    cases hr' : s'.records with
    | nil =>
      rw [hr'] at hp
      cases hp
    | cons r' rest' =>
      rw [hr', List.map_cons, List.map_cons] at hp
      have hseg : s'.seg_id = s.seg_id := by
        have hparsed := s'.parsed
        rw [hkey, s.parsed] at hparsed
        exact (Except.ok.inj hparsed).symm
      have hagain := s'.head_payload hr'
      rw [hseg, hbefore, (List.cons.inj hp).1] at hagain
      have hafter := signingPayload_unsigned s.body hu hagain (s.head_payload hr)
      exact absurd hafter (s.signed_after (r := r) (by rw [hr]; simp))

theorem run_resigned {steps steps' : List SegmentStep}
    (hb : steps'.map (fun s => (s.key, s.before)) = steps.map (fun s => (s.key, s.after)))
    (hu : ∀ s ∈ steps, s.before.Unsigned)
    (hp : (steps'.flatMap records).map SignRecord.payload = (steps.flatMap records).map SignRecord.payload) :
    ∀ s ∈ steps, s.before.NothingToSign := by
  induction steps generalizing steps' with
  | nil => simp
  | cons s steps ih =>
    cases steps' with
    | nil => cases hb
    | cons s' steps' =>
      simp only [List.map_cons, List.cons.injEq, Prod.mk.injEq] at hb
      obtain ⟨⟨hkey, hbefore⟩, hb⟩ := hb
      have hlen : s'.records.length = s.records.length := by
        rw [s'.records_length, s.records_length, hbefore, s.body]
      simp only [List.flatMap_cons, List.map_append] at hp
      obtain ⟨hhead, htail⟩ := List.append_inj hp (by simpa using hlen)
      have hs := resigned hkey hbefore (hu s (by simp)) hhead
      have hrest := ih hb (fun t ht => hu t (by simp [ht])) htail
      intro t ht
      rcases List.mem_cons.mp ht with rfl | ht
      · exact hs
      · exact hrest t ht

end SegmentStep

end Noxipher
