import Noxipher.Tx.Routing

namespace Noxipher

namespace TransactionBuilder

/-- The randomness a serialization leaves: `rnd` for a missing or zero one. -/
def usedRandomness (rnd : Bytes) (stx : StandardTransaction) : Bytes :=
  if stx.binding_randomness.getD (List.replicate 32 0) = List.replicate 32 0 then rnd
  else stx.binding_randomness.getD (List.replicate 32 0)

/-- The commitment it leaves in the intent under `key`: with fresh randomness only the one under "0" is written. -/
def leftCommitment (rnd : Bytes) (fee : Int) (stx : StandardTransaction) (key : IntLike) (commitment : Option Bytes) :
    Option Bytes :=
  if stx.binding_randomness.getD (List.replicate 32 0) = List.replicate 32 0 ∧ key = .str "0" then
    some (computeBindingCommitment rnd fee)
  else commitment

def setCommitment (c : Bytes) (intent : Intent) : Intent := { intent with binding_commitment := some c }

/-- Segment 0 stands under "0", or under the number with nothing under "0". -/
def ZeroSegment (intents : Dict IntLike Intent) (key : IntLike) (intent : Intent) : Prop :=
  intents.get? key = some intent ∧ (key = .str "0" ∨ key = .int 0 ∧ intents.get? (.str "0") = none)

section Segment

variable {network_id : String} {rnd : Bytes} {tx_data : TxData} {stx : StandardTransaction}
  {intents : Dict IntLike Intent} {key : IntLike} {intent : Intent}

/-- The randomness and the segment that step 0 leaves: it writes actions and shielded offers only. -/
theorem prepareStandard_segment {t : TxData} (hs : tx_data.standard = some stx) (hd : stx.intents = some intents)
    (hzero : ZeroSegment intents key intent) (h : prepareStandard network_id tx_data = .ok t) :
    ∃ stx' intents' intent', t.standard = some stx' ∧ stx'.intents = some intents' ∧ t.fee = tx_data.fee ∧
      stx'.binding_randomness = stx.binding_randomness ∧ ZeroSegment intents' key intent' ∧
      intent'.guaranteed_unshielded_offer = intent.guaranteed_unshielded_offer ∧
      intent'.binding_commitment = intent.binding_commitment := by
  have hstart : standardOrPlaceholder network_id tx_data = stx := by
    rw [standardOrPlaceholder, hs, Option.getD_some]
  by_cases haction : tx_data.type = some "contract_deploy" ∨ tx_data.type = some "contract_call"
  · obtain ⟨d, found, action, hd', hfound, -, rfl⟩ := prepareStandard_action haction h
    rw [hstart, hd] at hd'
    cases hd'
    obtain ⟨hget, rfl | ⟨-, hnone⟩⟩ := hzero
    · rw [hget] at hfound
      cases hfound
      refine ⟨_, _, { intent with actions := some [action] }, rfl, rfl, rfl, ?_, ⟨?_, Or.inl rfl⟩, rfl, rfl⟩
      · rw [hstart]
      · rw [Dict.get?_modify, if_pos rfl, hget, Option.map_some]
    · rw [hnone] at hfound
      cases hfound
  · by_cases hoffer : tx_data.type = some "shielded_transfer"
    · obtain ⟨offer, -, rfl⟩ := prepareStandard_offer haction hoffer h
      rw [hstart]
      exact ⟨_, intents, intent, rfl, hd, rfl, rfl, hzero, rfl, rfl⟩
    · rw [prepareStandard, if_neg haction, if_neg hoffer] at h
      cases h
      exact ⟨stx, intents, intent, hs, hd, rfl, rfl, hzero, rfl, rfl⟩

/-- Step 1 leaves a randomness that is set. -/
theorem bindRandomness_kept (hs : tx_data.standard = some stx)
    (hset : stx.binding_randomness.getD (List.replicate 32 0) ≠ List.replicate 32 0) :
    bindRandomness rnd tx_data = .ok tx_data := by
  unfold bindRandomness
  rw [hs]
  exact if_neg hset

/-- Step 1 fills a missing or zero randomness. -/
theorem bindRandomness_fresh (hs : tx_data.standard = some stx) (hd : stx.intents = some intents)
    (hzero : stx.binding_randomness.getD (List.replicate 32 0) = List.replicate 32 0) :
    bindRandomness rnd tx_data = .ok { tx_data with standard := some { stx with
      intents := some (intents.modify (.str "0") (setCommitment (computeBindingCommitment rnd (tx_data.fee.getD 0))))
      binding_randomness := some rnd } } := by
  unfold bindRandomness
  rw [hs]
  simp only [if_pos hzero, hd, required_some, ok_bind]
  rfl

/-- The randomness and the segment that step 1 leaves. -/
theorem bindRandomness_segment {t : TxData} (hs : tx_data.standard = some stx) (hd : stx.intents = some intents)
    (hzero : ZeroSegment intents key intent) (h : bindRandomness rnd tx_data = .ok t) :
    ∃ stx' intents' intent', t.standard = some stx' ∧ stx'.intents = some intents' ∧
      stx'.binding_randomness = some (usedRandomness rnd stx) ∧ intents'.get? key = some intent' ∧
      intent'.guaranteed_unshielded_offer = intent.guaranteed_unshielded_offer ∧
      intent'.binding_commitment = leftCommitment rnd (tx_data.fee.getD 0) stx key intent.binding_commitment := by
  unfold usedRandomness leftCommitment
  by_cases hz : stx.binding_randomness.getD (List.replicate 32 0) = List.replicate 32 0
  · rw [bindRandomness_fresh hs hd hz] at h
    cases h
    rw [if_pos hz]
    obtain ⟨hget, rfl | ⟨rfl, hnone⟩⟩ := hzero
    · refine ⟨_, _, setCommitment (computeBindingCommitment rnd (tx_data.fee.getD 0)) intent, rfl, rfl, rfl, ?_, rfl, ?_⟩
      · rw [Dict.get?_modify, if_pos rfl, hget, Option.map_some]
      · rw [if_pos ⟨hz, rfl⟩]
        rfl
    · refine ⟨_, _, intent, rfl, rfl, rfl, ?_, rfl, ?_⟩
      · rw [Dict.get?_modify, if_neg (by decide), hget]
      · rw [if_neg (fun hboth => absurd hboth.2 (by decide))]
  · rw [bindRandomness_kept hs hz] at h
    cases h
    refine ⟨stx, intents, intent, hs, hd, ?_, hzero.1, rfl, ?_⟩
    · rw [if_neg hz]
      cases hr : stx.binding_randomness with
      | none =>
        rw [hr] at hz
        exact absurd rfl hz
      | some r => rfl
    · rw [if_neg (fun hboth => hz hboth.1)]

/-- A signature over the guaranteed offer of a segment is made by the signer the offer is routed to. -/
theorem signLoop_routed {wallet : MidnightWallet} {draw : Nat} {st : SignState} {offer : UnshieldedOffer}
    {entry : SignRecord} (h : signLoop wallet draw intents.entries { intents := intents } = .ok st)
    (hget : intents.get? key = some intent) (ho : present intent.guaranteed_unshielded_offer = some offer)
    (hentry : entry ∈ st.log) (hsegment : entry.segment = key) (hslot : entry.slot = .guaranteed) :
    entry.signer_key = (routedSigner wallet offer).public_key ∧
      ∃ n, entry.signature = (routedSigner wallet offer).sign n entry.payload := by
  obtain ⟨records, hrecords, hmade⟩ := signLoop_made h
  rw [List.nil_append] at hrecords
  rw [hrecords] at hentry
  obtain ⟨a, ha, hplace, signer, hsigner, hmadekey, hmadesig⟩ := forall₂_mem_right hmade hentry
  obtain ⟨hseg, hsl⟩ := Prod.mk.inj hplace
  obtain ⟨found, hfound, hoffer, hrouted⟩ := mem_assignments ha
  have hfound := intents.get?_of_mem hfound
  rw [← hseg, hsegment, hget] at hfound
  cases hfound
  rw [← hsl, hslot] at hoffer
  have hthis : a.offer = offer := Option.some.inj (hoffer.symm.trans ho)
  have hnext := hrouted (hsl.symm.trans hslot)
  rw [hsigner, hthis] at hnext
  rw [← Option.some.inj hnext]
  exact ⟨hmadekey, hmadesig⟩

/-- What a signing serialization leaves of segment 0: the randomness and commitment of step 1 and the guaranteed
offer as it was, with the signature of the signer it is routed to. -/
theorem serializeTransaction_segment {wallet : MidnightWallet} {draw : Nat} {out : Serialized}
    {offer : UnshieldedOffer} (hflag : tx_data.requires_unshielded_signature = some true)
    (hs : tx_data.standard = some stx) (hd : stx.intents = some intents) (hzero : ZeroSegment intents key intent)
    (ho : present intent.guaranteed_unshielded_offer = some offer)
    (h : serializeTransaction network_id rnd wallet draw tx_data = .ok out) :
    ∃ stx' intents' intent' signed, out.tx_data.standard = some stx' ∧ stx'.intents = some intents' ∧
      stx'.binding_randomness = some (usedRandomness rnd stx) ∧ intents'.get? key = some intent' ∧
      intent'.binding_commitment = leftCommitment rnd (tx_data.fee.getD 0) stx key intent.binding_commitment ∧
      intent'.guaranteed_unshielded_offer = some signed ∧ signed.inputs = offer.inputs ∧
      signed.outputs = offer.outputs ∧
      (∃ entry ∈ out.log, entry.segment = key ∧ entry.slot = .guaranteed ∧
        signed.signatures = some [entry.signature]) ∧
      ∀ entry ∈ out.log, entry.segment = key → entry.slot = .guaranteed →
        entry.signer_key = (routedSigner wallet offer).public_key ∧
          ∃ n, entry.signature = (routedSigner wallet offer).sign n entry.payload := by
  obtain ⟨t1, t2, h1, h2, h3, -⟩ := serializeTransaction_ok.mp h
  have hflag2 : t2.requires_unshielded_signature = some true := by
    rw [bindRandomness_flag h2, prepareStandard_flag h1, hflag]
  obtain ⟨stx1, d1, intent1, hs1, hd1, hfee, hr1, hzero1, hg1, hc1⟩ := prepareStandard_segment hs hd hzero h1
  obtain ⟨stx2, d2, intent2, hs2, hd2, hr2, hget2, hg2, hc2⟩ := bindRandomness_segment hs1 hd1 hzero1 h2
  have hused : usedRandomness rnd stx1 = usedRandomness rnd stx := by rw [usedRandomness, hr1, usedRandomness]
  have hcommitment : intent2.binding_commitment =
      leftCommitment rnd (tx_data.fee.getD 0) stx key intent.binding_commitment := by
    rw [hc2, hfee, hc1, leftCommitment, hr1, leftCommitment]
  have ho2 : present intent2.guaranteed_unshielded_offer = some offer := by rw [hg2, hg1, ho]
  rw [signTransaction_loop wallet draw hflag2 hs2 hd2] at h3
  obtain ⟨st, hst, h3⟩ := bind_ok_iff.mp h3
  obtain ⟨hdata, hlog⟩ := Prod.mk.inj (Except.ok.inj h3)
  obtain ⟨steps, hbefore, hafter, hsteps⟩ := signLoop_ok (List.nil_append d2.entries).symm hst
  rw [List.nil_append] at hafter hsteps
  have hentry : (key, intent2) ∈ steps.map (fun s => (s.key, s.before)) := by
    rw [hbefore]
    exact d2.mem_of_get? hget2
  obtain ⟨s, hmem, hpair⟩ := List.mem_map.mp hentry
  obtain ⟨hkey, hintent⟩ := Prod.mk.inj hpair
  have hbody : (present (OfferSlot.guaranteed.offer s.after)).map UnshieldedOffer.body = some offer.body := by
    rw [s.offer_kept .guaranteed, hintent]
    show (present intent2.guaranteed_unshielded_offer).map UnshieldedOffer.body = _
    rw [ho2, Option.map_some]
  obtain ⟨signed, hsigned, hsame⟩ := Option.map_eq_some_iff.mp hbody
  have hinputs : signed.body.inputs = offer.body.inputs := by rw [hsame]
  have houtputs : signed.body.outputs = offer.body.outputs := by rw [hsame]
  obtain ⟨entry, hentry, hslot, hsignature⟩ := s.logged hsigned
  refine ⟨{ stx2 with intents := some st.intents }, st.intents, s.after, signed, ?_, rfl, ?_, ?_, ?_, ?_, hinputs,
    houtputs, ?_, ?_⟩
  · rw [← hdata]
  · rw [← hused]
    exact hr2
  · exact (Dict.get?_of_map hafter).mpr ⟨s, hmem, hkey, rfl⟩
  · rw [s.frame.2.2, hintent, hcommitment]
  · exact Option.eq_some_of_filter_eq_some hsigned
  · refine ⟨entry, ?_, ?_, hslot, hsignature⟩
    · rw [← hlog, hsteps]
      exact List.mem_flatMap.mpr ⟨s, hmem, hentry⟩
    · rw [(s.stored hentry).1, hkey]
  · intro made hmade hsegment hguaranteed
    rw [← hlog] at hmade
    exact signLoop_routed hst hget2 ho2 hmade hsegment hguaranteed

/-- Without the flag nothing is signed. -/
theorem flagged_of_log {wallet : MidnightWallet} {draw : Nat} {out : Serialized} {entry : SignRecord}
    (h : serializeTransaction network_id rnd wallet draw tx_data = .ok out) (hentry : entry ∈ out.log) :
    tx_data.requires_unshielded_signature = some true := by
  obtain ⟨t1, t2, h1, h2, h3, -⟩ := serializeTransaction_ok.mp h
  rw [← prepareStandard_flag h1, ← bindRandomness_flag h2]
  unfold signTransaction at h3
  split_ifs at h3 with hflag
  · cases hvalue : t2.requires_unshielded_signature with
    | none =>
      rw [hvalue] at hflag
      cases hflag
    | some flag =>
      rw [hvalue] at hflag
      rw [show flag = true from hflag]
  · obtain ⟨-, hlog⟩ := Prod.mk.inj (Except.ok.inj h3)
    rw [← hlog] at hentry
    cases hentry

/-- A raw transaction is replaced by a placeholder, whose offers spend nothing. -/
theorem placeholder_spends_nothing {wallet : MidnightWallet} {draw : Nat} {out : Serialized}
    {signed : UnshieldedOffer} (hraw : tx_data.standard = none)
    (hflag : tx_data.requires_unshielded_signature = some true)
    (h : serializeTransaction network_id rnd wallet draw tx_data = .ok out)
    (hs : out.tx_data.standard = some stx) (hd : stx.intents = some intents) (hget : intents.get? key = some intent)
    (hsigned : present intent.guaranteed_unshielded_offer = some signed) : signed.inputs = some [] := by
  obtain ⟨run⟩ := serializeTransaction_run hflag h
  have hstandard := run.submitted
  rw [hs] at hstandard
  cases hstandard
  cases hd
  obtain ⟨s, hmem, -, rfl⟩ := (Dict.get?_of_map run.after).mp hget
  have hoffers : s.before.offers ∈ (startingIntents network_id tx_data).entries.map (fun p => p.2.offers) := by
    rw [run.offers]
    exact List.mem_map_of_mem hmem
  obtain ⟨p, hp, hsame⟩ := List.mem_map.mp hoffers
  have hplaceholder : startingIntents network_id tx_data =
      (placeholderStandard network_id (tx_data.ttl.getD 1800)).intents.getD Dict.empty := by
    rw [startingIntents, standardOrPlaceholder, hraw, Option.getD_none]
  rw [hplaceholder] at hp
  rw [List.mem_singleton.mp hp] at hsame
  have hbefore : s.before.guaranteed_unshielded_offer = some ⟨some [], some [], some []⟩ :=
    (congrArg Prod.fst hsame).symm
  have hthere : present (OfferSlot.guaranteed.offer s.before) = some ⟨some [], some [], some []⟩ := by
    show present s.before.guaranteed_unshielded_offer = _
    rw [hbefore]
    rfl
  obtain ⟨found, hfound, hinputs⟩ := inputs_kept (s.offer_kept .guaranteed).symm hthere
  have hsigned' : present (OfferSlot.guaranteed.offer s.after) = some signed := hsigned
  rw [hsigned'] at hfound
  cases hfound
  exact hinputs

end Segment

end TransactionBuilder

end Noxipher
