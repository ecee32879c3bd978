import Noxipher.Tx.SigningRuns

namespace Noxipher

def Intent.offers (intent : Intent) : Option UnshieldedOffer × Option UnshieldedOffer :=
  (intent.guaranteed_unshielded_offer, intent.fallible_unshielded_offer)

theorem Intent.ReadyToSign.congr {i j : Intent} (h : i.offers = j.offers) (hi : i.ReadyToSign) :
    j.ReadyToSign := by
  obtain ⟨hg, hf⟩ := Prod.mk.inj h
  constructor
  · rw [← hg, ← hf]
    exact hi.single
  · intro slot offer ho
    apply hi.unsigned slot offer
    cases slot
    · change offer ∈ present i.guaranteed_unshielded_offer
      rw [hg]
      exact ho
    · change offer ∈ present i.fallible_unshielded_offer
      rw [hf]
      exact ho

theorem Intent.NothingToSign.congr {i j : Intent} (h : i.offers = j.offers) (hi : i.NothingToSign) :
    j.NothingToSign := by
  obtain ⟨hg, hf⟩ := Prod.mk.inj h
  intro slot
  cases slot
  · change present j.guaranteed_unshielded_offer = none
    rw [← hg]
    exact hi .guaranteed
  · change present j.fallible_unshielded_offer = none
    rw [← hf]
    exact hi .fallible

/-- A property of the offers holds of all segments of one list or of neither. -/
theorem forall_offers {α β : Type} {P : Intent → Prop} {f : α → Intent} {g : β → Intent} {l : List α} {m : List β}
    (hP : ∀ i j : Intent, i.offers = j.offers → P i → P j)
    (h : l.map (fun a => (f a).offers) = m.map (fun b => (g b).offers)) (hl : ∀ a ∈ l, P (f a)) :
    ∀ b ∈ m, P (g b) := by
  intro b hb
  have hmem : (g b).offers ∈ l.map (fun a => (f a).offers) := by
    rw [h]
    exact List.mem_map_of_mem (f := fun b => (g b).offers) hb
  obtain ⟨a, ha, he⟩ := List.mem_map.mp hmem
  exact hP (f a) (g b) he (hl a ha)

namespace TransactionBuilder

/-- The segments that `_serialize_transaction` starts from: those given, or the placeholder's. -/
def startingIntents (network_id : String) (tx_data : TxData) : Dict IntLike Intent :=
  (standardOrPlaceholder network_id tx_data).intents.getD Dict.empty

/-- What step 0 writes is there. -/
structure Prepared (tx_data : TxData) : Prop where
  action : tx_data.type = some "contract_deploy" ∨ tx_data.type = some "contract_call" →
    ∃ stx d intent action, tx_data.standard = some stx ∧ stx.intents = some d ∧
      d.get? (.str "0") = some intent ∧ contractAction tx_data = .ok action ∧ intent.actions = some [action]
  offer : tx_data.type = some "shielded_transfer" →
    ∃ stx coins offer, tx_data.standard = some stx ∧ stx.fallible_coins = some coins ∧
      coins.get? (.str "0") = some offer ∧ zswapOfferOf tx_data = .ok offer

/-- What step 1 would write with `rnd` is there. -/
def Bound (rnd : Bytes) (tx_data : TxData) : Prop :=
  ∀ stx, tx_data.standard = some stx → stx.binding_randomness.getD (List.replicate 32 0) = List.replicate 32 0 →
    stx.binding_randomness = some rnd ∧ ∃ d, stx.intents = some d ∧ ∀ intent, d.get? (.str "0") = some intent →
      intent.binding_commitment = some (computeBindingCommitment rnd (tx_data.fee.getD 0))

section Steps

variable {network_id : String} {rnd rnd' : Bytes} {tx_data t : TxData}

theorem prepareStandard_action (htype : tx_data.type = some "contract_deploy" ∨ tx_data.type = some "contract_call")
    (h : prepareStandard network_id tx_data = .ok t) :
    ∃ d intent action, (standardOrPlaceholder network_id tx_data).intents = some d ∧
      d.get? (.str "0") = some intent ∧ contractAction tx_data = .ok action ∧
      t = { tx_data with standard := some { standardOrPlaceholder network_id tx_data with
        intents := some (d.modify (.str "0") (fun intent => { intent with actions := some [action] })) } } := by
  rw [prepareStandard, if_pos htype] at h
  obtain ⟨action, ha, h⟩ := bind_ok_iff.mp h
  obtain ⟨d, hd, h⟩ := bind_ok_iff.mp h
  obtain ⟨d', hd', h⟩ := bind_ok_iff.mp h
  obtain ⟨intent, hi, hd'⟩ := bind_ok_iff.mp hd'
  cases hd'
  cases h
  exact ⟨d, intent, action, required_ok_iff.mp hd, required_ok_iff.mp hi, ha, rfl⟩

theorem prepareStandard_offer (hno : ¬ (tx_data.type = some "contract_deploy" ∨ tx_data.type = some "contract_call"))
    (htype : tx_data.type = some "shielded_transfer") (h : prepareStandard network_id tx_data = .ok t) :
    ∃ offer, zswapOfferOf tx_data = .ok offer ∧
      t = { tx_data with standard := some { standardOrPlaceholder network_id tx_data with
        fallible_coins := some (((standardOrPlaceholder network_id tx_data).fallible_coins.getD Dict.empty).set
          (.str "0") offer) } } := by
  rw [prepareStandard, if_neg hno, if_pos htype] at h
  obtain ⟨offer, ho, h⟩ := bind_ok_iff.mp h
  cases h
  exact ⟨offer, ho, rfl⟩

/-- Step 0 keeps the offers of every segment. -/
theorem prepareStandard_offers (h : prepareStandard network_id tx_data = .ok t) {stx : StandardTransaction}
    {d : Dict IntLike Intent} (hs : t.standard = some stx) (hd : stx.intents = some d) :
    (startingIntents network_id tx_data).entries.map (fun p => p.2.offers) =
      d.entries.map (fun p => p.2.offers) := by
  unfold startingIntents
  by_cases haction : tx_data.type = some "contract_deploy" ∨ tx_data.type = some "contract_call"
  · obtain ⟨d0, intent, action, hd0, -, -, rfl⟩ := prepareStandard_action haction h
    cases hs
    cases hd
    rw [hd0, Option.getD_some]
    symm
    apply Dict.map_modify
    intro v
    rfl
  · by_cases hoffer : tx_data.type = some "shielded_transfer"
    · obtain ⟨offer, -, rfl⟩ := prepareStandard_offer haction hoffer h
      cases hs
      change (standardOrPlaceholder network_id tx_data).intents = some d at hd
      rw [hd, Option.getD_some]
    · rw [prepareStandard, if_neg haction, if_neg hoffer] at h
      cases h
      rw [standardOrPlaceholder, hs, Option.getD_some, hd, Option.getD_some]

theorem prepareStandard_prepared (h : prepareStandard network_id tx_data = .ok t) : Prepared t := by
  by_cases haction : tx_data.type = some "contract_deploy" ∨ tx_data.type = some "contract_call"
  · obtain ⟨d0, intent, action, hd0, hi, ha, rfl⟩ := prepareStandard_action haction h
    constructor
    · intro _
      refine ⟨_, _, { intent with actions := some [action] }, action, rfl, rfl, ?_, ha, rfl⟩
      rw [Dict.get?_modify, if_pos rfl, hi]
      rfl
    · intro hoffer
      rw [show tx_data.type = some "shielded_transfer" from hoffer] at haction
      simp at haction
  · by_cases hoffer : tx_data.type = some "shielded_transfer"
    · obtain ⟨offer, ho, rfl⟩ := prepareStandard_offer haction hoffer h
      exact ⟨fun hc => absurd hc haction, fun _ => ⟨_, _, offer, rfl, rfl, Dict.get?_set_self _ _ _, ho⟩⟩
    · rw [prepareStandard, if_neg haction, if_neg hoffer] at h
      cases h
      exact ⟨fun hc => absurd hc haction, fun ho => absurd ho hoffer⟩

/-- Step 0 done again changes nothing. -/
theorem Prepared.again (h : Prepared t) : prepareStandard network_id t = .ok t := by
  unfold prepareStandard
  split_ifs with haction hoffer
  · obtain ⟨stx, d, intent, action, hs, hd, hi, ha, hact⟩ := h.action haction
    have hsame : d.modify (.str "0") (fun intent => { intent with actions := some [action] }) = d := by
      apply Dict.modify_eq_self
      intro v hv
      rw [hi] at hv
      cases hv
      rw [← hact]
    simp only [standardOrPlaceholder, hs, Option.getD_some, ha, hd, updateSegmentZero, hi, required_some, ok_bind,
      pure_ok, hsame]
    rw [← hd, ← hs]
  · obtain ⟨stx, coins, offer, hs, hc, hget, ho⟩ := h.offer hoffer
    simp only [standardOrPlaceholder, hs, Option.getD_some, ho, hc, ok_bind, pure_ok, Dict.set_get? hget]
    rw [← hc, ← hs]
  · rfl

theorem bindRandomness_cases (h : bindRandomness rnd tx_data = .ok t) :
    (t = tx_data ∧ ∀ stx, tx_data.standard = some stx →
      stx.binding_randomness.getD (List.replicate 32 0) ≠ List.replicate 32 0) ∨
    ∃ stx d, tx_data.standard = some stx ∧ stx.intents = some d ∧
      t = { tx_data with standard := some { stx with
        intents := some (d.modify (.str "0") (fun intent => { intent with
          binding_commitment := some (computeBindingCommitment rnd (tx_data.fee.getD 0)) }))
        binding_randomness := some rnd } } := by
  unfold bindRandomness at h
  cases hs : tx_data.standard with
  | none =>
    rw [hs] at h
    cases h
    exact Or.inl ⟨rfl, fun stx hstx => by cases hstx⟩
  | some stx =>
    rw [hs] at h
    simp only at h
    split_ifs at h with hz
    · obtain ⟨d, hd, h⟩ := bind_ok_iff.mp h
      cases h
      exact Or.inr ⟨stx, d, rfl, required_ok_iff.mp hd, rfl⟩
    · cases h
      refine Or.inl ⟨rfl, ?_⟩
      intro stx' hstx
      cases hstx
      exact hz

/-- Step 1 keeps the offers of every segment. -/
theorem bindRandomness_offers (h : bindRandomness rnd tx_data = .ok t) {stx' : StandardTransaction}
    {d' : Dict IntLike Intent} (hs' : t.standard = some stx') (hd' : stx'.intents = some d') :
    ∃ stx d, tx_data.standard = some stx ∧ stx.intents = some d ∧
      d.entries.map (fun p => p.2.offers) = d'.entries.map (fun p => p.2.offers) := by
  rcases bindRandomness_cases h with ⟨rfl, -⟩ | ⟨stx, d, hs, hd, rfl⟩
  · exact ⟨stx', d', hs', hd', rfl⟩
  · cases hs'
    cases hd'
    refine ⟨stx, d, hs, hd, ?_⟩
    symm
    apply Dict.map_modify
    intro v
    rfl

theorem Prepared.bind (hp : Prepared tx_data) (h : bindRandomness rnd tx_data = .ok t) : Prepared t := by
  rcases bindRandomness_cases h with ⟨rfl, -⟩ | ⟨stx, d, hs, hd, rfl⟩
  · exact hp
  · constructor
    · intro haction
      obtain ⟨stx0, d0, intent, action, hs0, hd0, hi, ha, hact⟩ := hp.action haction
      cases hs.symm.trans hs0
      cases hd.symm.trans hd0
      refine ⟨_, _, { intent with
        binding_commitment := some (computeBindingCommitment rnd (tx_data.fee.getD 0)) }, action, rfl, rfl, ?_, ha, hact⟩
      rw [Dict.get?_modify, if_pos rfl, hi]
      rfl
    · intro hoffer
      obtain ⟨stx0, coins, offer, hs0, hc, hget, ho⟩ := hp.offer hoffer
      cases hs.symm.trans hs0
      exact ⟨_, coins, offer, rfl, hc, hget, ho⟩

theorem bindRandomness_bound (h : bindRandomness rnd tx_data = .ok t)
    (hrnd : rnd' = rnd ∨ rnd ≠ List.replicate 32 0) : Bound rnd' t := by
  intro stx' hs' hz
  rcases bindRandomness_cases h with ⟨rfl, hne⟩ | ⟨stx, d, hs, hd, rfl⟩
  · exact absurd hz (hne stx' hs')
  · cases hs'
    rcases hrnd with rfl | hne
    · refine ⟨rfl, _, rfl, ?_⟩
      intro intent hi
      rw [Dict.get?_modify, if_pos rfl] at hi
      obtain ⟨intent0, -, rfl⟩ := Option.map_eq_some_iff.mp hi
      rfl
    · exact absurd hz hne

/-- Step 1 done again changes nothing. -/
theorem Bound.again (h : Bound rnd t) : bindRandomness rnd t = .ok t := by
  unfold bindRandomness
  cases hs : t.standard with
  | none => rfl
  | some stx =>
    simp only
    split_ifs with hz
    · obtain ⟨hr, d, hd, hc⟩ := h stx hs hz
      have hsame : d.modify (.str "0") (fun intent => { intent with
          binding_commitment := some (computeBindingCommitment rnd (t.fee.getD 0)) }) = d := by
        apply Dict.modify_eq_self
        intro v hv
        rw [← hc v hv]
      simp only [hd, required_some, ok_bind, pure_ok, hsame]
      rw [← hd, ← hr, ← hs]
    · rfl

/-- The run of the signing loop over the whole dictionary. -/
theorem signTransaction_ok {wallet : MidnightWallet} {draw : Nat} {log : List SignRecord}
    (hflag : tx_data.requires_unshielded_signature = some true)
    (h : signTransaction wallet draw tx_data = .ok (t, log)) :
    ∃ stx d d', ∃ steps : List SegmentStep, tx_data.standard = some stx ∧ stx.intents = some d ∧
      d.entries = steps.map (fun s => (s.key, s.before)) ∧ d'.entries = steps.map (fun s => (s.key, s.after)) ∧
      t = { tx_data with standard := some { stx with intents := some d' } } ∧
      log = steps.flatMap SegmentStep.records := by
  rw [signTransaction, if_pos (by rw [hflag]; rfl)] at h
  obtain ⟨stx, hs, h⟩ := bind_ok_iff.mp h
  obtain ⟨d, hd, h⟩ := bind_ok_iff.mp h
  obtain ⟨st, hst, h⟩ := bind_ok_iff.mp h
  cases h
  obtain ⟨steps, hb, ha, hl⟩ := signLoop_ok (List.nil_append d.entries).symm hst
  exact ⟨stx, d, st.intents, steps, required_ok_iff.mp hs, required_ok_iff.mp hd, hb.symm, ha, rfl, hl⟩

theorem Prepared.sign {wallet : MidnightWallet} {draw : Nat} {log : List SignRecord} (hp : Prepared tx_data)
    (hflag : tx_data.requires_unshielded_signature = some true)
    (h : signTransaction wallet draw tx_data = .ok (t, log)) : Prepared t := by
  obtain ⟨stx, d, d', steps, hs, hd, hb, ha, rfl, -⟩ := signTransaction_ok hflag h
  constructor
  · intro haction
    obtain ⟨stx0, d0, intent, action, hs0, hd0, hi, hca, hact⟩ := hp.action haction
    cases hs.symm.trans hs0
    cases hd.symm.trans hd0
    obtain ⟨s, hmem, hkey, rfl⟩ := (Dict.get?_of_map hb).mp hi
    have hget := (Dict.get?_of_map ha).mpr ⟨s, hmem, hkey, rfl⟩
    exact ⟨_, d', s.after, action, rfl, rfl, hget, hca, s.frame.2.1.trans hact⟩
  · intro hoffer
    obtain ⟨stx0, coins, offer, hs0, hc, hget, ho⟩ := hp.offer hoffer
    cases hs.symm.trans hs0
    exact ⟨_, coins, offer, rfl, hc, hget, ho⟩

theorem Bound.sign {wallet : MidnightWallet} {draw : Nat} {log : List SignRecord} (hbound : Bound rnd tx_data)
    (hflag : tx_data.requires_unshielded_signature = some true)
    (h : signTransaction wallet draw tx_data = .ok (t, log)) : Bound rnd t := by
  obtain ⟨stx, d, d', steps, hs, hd, hb, ha, rfl, -⟩ := signTransaction_ok hflag h
  intro stx' hs' hz
  cases hs'
  obtain ⟨hr, d0, hd0, hc⟩ := hbound stx hs hz
  cases hd.symm.trans hd0
  refine ⟨hr, d', rfl, ?_⟩
  intro intent hi
  obtain ⟨s, hmem, hkey, rfl⟩ := (Dict.get?_of_map ha).mp hi
  rw [s.frame.2.2]
  exact hc s.before ((Dict.get?_of_map hb).mpr ⟨s, hmem, hkey, rfl⟩)

end Steps

end TransactionBuilder

end Noxipher
