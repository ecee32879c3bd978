import Noxipher.Tx.Fitting

namespace Noxipher

namespace TransactionBuilder

/-- The network, the other segments and the shielded offers fit, and a segment under `key` that assigns a signer leads
the fallible offers. -/
structure OthersFit (network_id : Option String) (coins : Dict IntLike ZswapOffer) (intents : Dict IntLike Intent)
    (key : IntLike) : Prop where
  network : ∃ net, network_id = some net ∧ Compact (encodeStr net).length
  segments : ∀ p ∈ intents.entries, p.1 ≠ key → SegmentId p.1 ∧ p.2.Fits
  led : Led HasFallible (fun p => p.1 = key ∨ HasGuaranteed p) intents.entries
  coins : Compact coins.entries.length ∧ ∀ p ∈ coins.entries, SegmentId p.1 ∧ p.2.Fits

theorem writable_set_iff {wallet : MidnightWallet} {stx : StandardTransaction} {intents : Dict IntLike Intent}
    {key : IntLike} {zero : Intent} (hkey : SegmentId key) (hzero : HasGuaranteed (key, zero))
    (hcount : (intents.set key zero).entries.length < 2^63) :
    Writable wallet stx (intents.set key zero) ↔
      zero.Fits ∧ OthersFit stx.network_id (stx.fallible_coins.getD Dict.empty) intents key := by
  have hnetwork : (∃ net x, stx.network_id = some net ∧ serializeBytes (encodeStr net) = .ok x) ↔
      ∃ net, stx.network_id = some net ∧ Compact (encodeStr net).length := by
    simp only [exists_and_left, serializeBytes_returns_iff]
  have hsegments : (∀ p ∈ (intents.set key zero).entries, SegmentFits p) ↔
      zero.Fits ∧ ∀ p ∈ intents.entries, p.1 ≠ key → SegmentId p.1 ∧ p.2.Fits := by
    simp only [segmentFits_fits, Dict.forall_mem_set, hkey, true_and]
  have hled : (∀ a ∈ assignments wallet none (intents.set key zero).entries, a.signer.isSome) ↔
      Led HasFallible (fun p => p.1 = key ∨ HasGuaranteed p) intents.entries := by
    rw [assignments_signed_iff]
    exact led_setEntry hzero intents.entries
  constructor
  · intro h
    obtain ⟨hfits, hothers⟩ := hsegments.mp h.segments
    exact ⟨hfits, hnetwork.mp h.network, hothers, hled.mp h.signers, serializeCoins_fits.mp h.coins⟩
  · rintro ⟨hfits, h⟩
    exact ⟨hnetwork.mpr h.network, encodeCount_returns hcount, hsegments.mpr ⟨hfits, h.segments⟩, hled.mpr h.led,
      serializeCoins_fits.mpr h.coins⟩

section Stages

variable {network_id : String} {rnd : Bytes} {wallet : MidnightWallet} {tx_data t : TxData} {stx : StandardTransaction}
  {intents : Dict IntLike Intent} {key : IntLike} {zero : Intent}

/-- Segment 0 is written under "0", or under the number with nothing under "0". -/
def WritesZero (intents : Dict IntLike Intent) (key : IntLike) : Prop :=
  key = .str "0" ∨ key = .int 0 ∧ intents.get? (.str "0") = none

theorem WritesZero.segmentId (h : WritesZero intents key) : SegmentId key := by
  rcases h with rfl | ⟨rfl, -⟩
  · exact ⟨0, by decide, by decide, by decide⟩
  · exact ⟨0, by decide, by decide, by decide⟩

/-- Step 1 leaves its commitment in segment 0. -/
theorem bindRandomness_zero (rnd : Bytes) (hkey : WritesZero intents key) (hs : t.standard = some stx)
    (hd : stx.intents = some (intents.set key zero)) :
    ∃ ready left, bindRandomness rnd t = .ok ready ∧ ready.standard = some left ∧
      left.intents = some (intents.set key { zero with
        binding_commitment := leftCommitment rnd (t.fee.getD 0) stx key zero.binding_commitment }) ∧
      left.network_id = stx.network_id ∧ left.fallible_coins = stx.fallible_coins := by
  by_cases hz : stx.binding_randomness.getD (List.replicate 32 0) = List.replicate 32 0
  · refine ⟨_, _, bindRandomness_fresh hs hd hz, rfl, ?_, rfl, rfl⟩
    rcases hkey with rfl | ⟨rfl, hnone⟩
    · rw [Dict.modify_set_self, leftCommitment, if_pos ⟨hz, rfl⟩]
      rfl
    · have hkept : (intents.set (.int 0) zero).modify (.str "0")
          (setCommitment (computeBindingCommitment rnd (t.fee.getD 0))) = intents.set (.int 0) zero := by
        apply Dict.modify_eq_self
        intro v hv
        rw [Dict.get?_set_ne _ _ (by decide), hnone] at hv
        cases hv
      rw [hkept, leftCommitment, if_neg (fun hboth => absurd hboth.2 (by decide))]
  · refine ⟨t, stx, bindRandomness_kept hs hz, hs, ?_, rfl, rfl⟩
    rw [leftCommitment, if_neg (fun hboth => hz hboth.1)]
    exact hd

/-- What step 0 gave is serializable when its fields fit, with the commitment that step 1 leaves. -/
theorem serializable_prepared (hflag : tx_data.requires_unshielded_signature = some true)
    (hprepare : prepareStandard network_id tx_data = .ok t) (hkey : WritesZero intents key)
    (hs : t.standard = some stx) (hd : stx.intents = some (intents.set key zero)) (hzero : HasGuaranteed (key, zero))
    (hcount : (intents.set key zero).entries.length < 2^63) :
    Serializable network_id rnd wallet tx_data ↔
      Intent.Fits { zero with
        binding_commitment := leftCommitment rnd (t.fee.getD 0) stx key zero.binding_commitment } ∧
      OthersFit stx.network_id (stx.fallible_coins.getD Dict.empty) intents key := by
  let bound : Intent := { zero with
    binding_commitment := leftCommitment rnd (t.fee.getD 0) stx key zero.binding_commitment }
  obtain ⟨ready, left, hbind, hleft, hwritten, hnet, hcoins⟩ := bindRandomness_zero rnd hkey hs hd
  have hreach : ReachesSigning network_id rnd tx_data ready left (intents.set key bound) :=
    ⟨⟨t, hprepare, hbind⟩, by rw [bindRandomness_flag hbind, prepareStandard_flag hprepare, hflag], hleft, hwritten⟩
  have hcount' : (intents.set key bound).entries.length < 2^63 := by
    rw [intents.length_set key bound zero]
    exact hcount
  have hwritable : Writable wallet left (intents.set key bound) ↔ _ := writable_set_iff hkey.segmentId hzero hcount'
  rw [hnet, hcoins] at hwritable
  rw [← hwritable]
  constructor
  · rintro ⟨found, stx', d, hfound, hwrites⟩
    obtain ⟨t', hprepare', hbind'⟩ := hfound.stages
    rw [hprepare] at hprepare'
    cases hprepare'
    rw [hbind] at hbind'
    cases hbind'
    have hstandard := hfound.standard
    rw [hleft] at hstandard
    cases hstandard
    have hsegments := hfound.segments
    rw [hwritten] at hsegments
    cases hsegments
    exact hwrites
  · intro hwrites
    exact ⟨ready, left, _, hreach, hwrites⟩

/-- The types whose action is written into segment 0. -/
def WritesAction (tx_data : TxData) : Prop :=
  tx_data.type = some "contract_deploy" ∨ tx_data.type = some "contract_call"

def WritesOffer (tx_data : TxData) : Prop := tx_data.type = some "shielded_transfer"

/-- The fields of a contract action: the code or the called entry, and the arguments. -/
def ActionFits (tx_data : TxData) : Prop :=
  if tx_data.type = some "contract_deploy" then
    (∃ bytecode, tx_data.bytecode = some bytecode ∧ Compact bytecode.length) ∧
      ∀ value, tx_data.initial_state = some value → value.Fits
  else
    (∃ address, tx_data.contract_address = some address ∧ ∃ b, fromhex address = .ok b) ∧
      (∃ entry_point, tx_data.entry_point = some entry_point ∧ Compact (encodeStr entry_point).length) ∧
      ∀ value, tx_data.args = some value → value.Fits

/-- No argument is written to as many bytes as a byte string of Python cannot have. -/
def ArgumentsSized (tx_data : TxData) : Prop :=
  ∀ value, tx_data.initial_state = some value ∨ tx_data.args = some value →
    ∀ x, serializeContractArgs value = .ok x → x.length < 2^63

/-- The proofs are missing or a table of readable ones, and so is the root. -/
structure ProofsFit (tx_data : TxData) : Prop where
  proofs : ∃ spends outputs, tx_data.proof_hexes.getD (.dict none none) = .dict spends outputs ∧
    VecFits HexOrBytes.Readable (spends.getD []) ∧ VecFits HexOrBytes.Readable (outputs.getD [])
  merkle_root : ∀ root, tx_data.merkle_root = some root → root.Readable

/-- A missing argument is written as no bytes. -/
theorem arguments_returns_iff {o : Option PyValue} (hsize : ∀ value, o = some value →
    ∀ x, serializeContractArgs value = .ok x → x.length < 2^63) :
    (∃ x, serializeContractArgs (o.getD (.bytes [])) = .ok x ∧ Compact x.length) ↔
      ∀ value, o = some value → value.Fits := by
  cases o with
  | none =>
    refine iff_of_true ⟨[0], rfl, compact_count (by decide)⟩ ?_
    intro value hvalue
    cases hvalue
  | some value =>
    rw [Option.getD_some]
    constructor
    · rintro ⟨x, hx, -⟩ found hfound
      cases hfound
      exact (serializeContractArgs_fits value).mp ⟨x, hx⟩
    · intro h
      obtain ⟨x, hx⟩ := (serializeContractArgs_fits value).mpr (h value rfl)
      exact ⟨x, hx, compact_count (hsize value rfl x hx).le⟩

/-- An action is made, and fits, exactly when its fields do. -/
theorem contractAction_fits (hsize : ArgumentsSized tx_data) :
    (∃ action, contractAction tx_data = .ok action ∧ action.Fits) ↔ ActionFits tx_data := by
  unfold contractAction ActionFits
  split_ifs with hdeploy
  · rw [← arguments_returns_iff (fun value hvalue => hsize value (Or.inl hvalue))]
    simp only [bind_ok_iff, required_ok_iff, pure_ok, Except.ok.injEq]
    constructor
    · rintro ⟨action, ⟨bytecode, hcode, x, hx, rfl⟩, hcompact, hlength⟩
      exact ⟨⟨bytecode, hcode, hcompact⟩, x, hx, hlength⟩
    · rintro ⟨⟨bytecode, hcode, hcompact⟩, x, hx, hlength⟩
      exact ⟨_, ⟨bytecode, hcode, x, hx, rfl⟩, hcompact, hlength⟩
  · rw [← arguments_returns_iff (fun value hvalue => hsize value (Or.inr hvalue))]
    simp only [bind_ok_iff, required_ok_iff, pure_ok, Except.ok.injEq]
    constructor
    · rintro ⟨action, ⟨address, haddress, b, hb, entry_point, hentry, x, hx, rfl⟩, hcompact, hlength⟩
      exact ⟨⟨address, haddress, b, hb⟩, ⟨entry_point, hentry, hcompact⟩, x, hx, hlength⟩
    · rintro ⟨⟨address, haddress, b, hb⟩, ⟨entry_point, hentry, hcompact⟩, x, hx, hlength⟩
      exact ⟨_, ⟨address, haddress, b, hb, entry_point, hentry, x, hx, rfl⟩, hcompact, hlength⟩

/-- The proofs of a list are read one by one. -/
theorem traverse_proofs_iff {proofs : List HexOrBytes} :
    (∃ found, traverse HexOrBytes.toBytes proofs = .ok found ∧ Compact found.length) ↔
      VecFits HexOrBytes.Readable proofs := by
  constructor
  · rintro ⟨found, hfound, hcompact⟩
    rw [← (traverse_forall₂ hfound).length_eq] at hcompact
    exact ⟨hcompact, traverse_returns_iff.mp ⟨found, hfound⟩⟩
  · rintro ⟨hcompact, hall⟩
    obtain ⟨found, hfound⟩ := traverse_returns_iff.mpr hall
    rw [(traverse_forall₂ hfound).length_eq] at hcompact
    exact ⟨found, hfound, hcompact⟩

/-- A shielded offer is made, and fits, exactly when its fields do. -/
theorem zswapOfferOf_fits : (∃ offer, zswapOfferOf tx_data = .ok offer ∧ offer.Fits) ↔ ProofsFit tx_data := by
  have hroot : (∀ root, some (tx_data.merkle_root.getD (.bytes (List.replicate 32 0))) = some root → root.Readable) ↔
      ∀ root, tx_data.merkle_root = some root → root.Readable := by
    cases tx_data.merkle_root with
    | none => simp [HexOrBytes.Readable, HexOrBytes.toBytes]
    | some root => simp
  unfold zswapOfferOf
  cases hproofs : tx_data.proof_hexes.getD (.dict none none) with
  | list proofs =>
    constructor
    · rintro ⟨offer, h, -⟩
      cases h
    · intro h
      obtain ⟨spends, outputs, hdict, -⟩ := h.proofs
      rw [hproofs] at hdict
      cases hdict
  | dict spends outputs =>
    simp only [bind_ok_iff, pure_ok, Except.ok.injEq]
    constructor
    · rintro ⟨offer, ⟨first, hfirst, second, hsecond, rfl⟩, hfits⟩
      refine ⟨⟨spends, outputs, hproofs, ?_, ?_⟩, hroot.mp hfits.merkle_root⟩
      · exact traverse_proofs_iff.mp ⟨first, hfirst, hfits.spend_proofs⟩
      · exact traverse_proofs_iff.mp ⟨second, hsecond, hfits.output_proofs⟩
    · intro h
      obtain ⟨spends', outputs', hdict, hspends, houtputs⟩ := h.proofs
      rw [hproofs] at hdict
      cases hdict
      obtain ⟨first, hfirst, hfirst'⟩ := traverse_proofs_iff.mpr hspends
      obtain ⟨second, hsecond, hsecond'⟩ := traverse_proofs_iff.mpr houtputs
      refine ⟨_, ⟨first, hfirst, second, hsecond, rfl⟩, hfirst', hsecond', compact_count (Nat.zero_le _), ?_⟩
      exact hroot.mpr h.merkle_root

/-- What serialization needs of a dictionary whose segment 0 is `zero` under `key`, field by field. -/
structure FieldsFit (tx_data : TxData) (stx : StandardTransaction) (intents : Dict IntLike Intent) (key : IntLike)
    (zero : Intent) : Prop where
  network : ∃ net, stx.network_id = some net ∧ Compact (encodeStr net).length
  offers : ∀ slot offer, present (OfferSlot.offer slot zero) = some offer → offer.Fits
  ttl : ∃ ttl, zero.ttl = some ttl ∧ 0 ≤ ttl ∧ ttl < 2^32
  action : WritesAction tx_data → key = .str "0" ∧ ActionFits tx_data
  actions : ¬ WritesAction tx_data → VecFits ContractAction.Fits (zero.actions.getD [])
  segments : ∀ p ∈ intents.entries, p.1 ≠ key → SegmentId p.1 ∧ p.2.Fits
  led : Led HasFallible (fun p => p.1 = key ∨ HasGuaranteed p) intents.entries
  proofs : WritesOffer tx_data → ProofsFit tx_data
  coins : ∀ p ∈ (stx.fallible_coins.getD Dict.empty).entries, (WritesOffer tx_data → p.1 ≠ .str "0") →
    SegmentId p.1 ∧ p.2.Fits

/-- The types of step 0 exclude each other. -/
theorem not_writesOffer (h : WritesAction tx_data) : ¬ WritesOffer tx_data := by
  intro hoffer
  rw [WritesAction, hoffer] at h
  simp at h

theorem intentFits_iff {c : Bytes} {actions : Option (List ContractAction)} :
    Intent.Fits { zero with actions := actions, binding_commitment := some c } ↔
      (∀ slot offer, present (OfferSlot.offer slot zero) = some offer → offer.Fits) ∧
      (∃ ttl, zero.ttl = some ttl ∧ 0 ≤ ttl ∧ ttl < 2^32) ∧ VecFits ContractAction.Fits (actions.getD []) := by
  constructor
  · intro h
    refine ⟨?_, h.ttl, h.actions⟩
    intro slot
    cases slot with
    | guaranteed => exact h.guaranteed
    | fallible => exact h.fallible
  · rintro ⟨hoffers, httl, hactions⟩
    exact ⟨hoffers .guaranteed, hoffers .fallible, httl, hactions, rfl⟩

/-- A dictionary that asks for signatures, with an offer in its segment 0, in which step 1 leaves the commitment `c`. -/
structure Presented (rnd : Bytes) (tx_data : TxData) (stx : StandardTransaction) (intents : Dict IntLike Intent)
    (key : IntLike) (zero : Intent) (c : Bytes) : Prop where
  flag : tx_data.requires_unshielded_signature = some true
  standard : tx_data.standard = some stx
  segments : stx.intents = some (intents.set key zero)
  writes : WritesZero intents key
  offer : HasGuaranteed (key, zero)
  count : (intents.set key zero).entries.length < 2^63
  coinCount : (stx.fallible_coins.getD Dict.empty).entries.length < 2^63
  left : leftCommitment rnd (tx_data.fee.getD 0) stx key zero.binding_commitment = some c

section Presented

variable {c : Bytes}

/-- Step 0 writes the action into the segment under "0" only. -/
theorem Presented.action_iff (given : Presented rnd tx_data stx intents key zero c) (hsize : ArgumentsSized tx_data)
    (haction : WritesAction tx_data) :
    Serializable network_id rnd wallet tx_data ↔ FieldsFit tx_data stx intents key zero := by
  have htype : tx_data.type = some "contract_deploy" ∨ tx_data.type = some "contract_call" := haction
  have hoffer := not_writesOffer haction
  have hstart : standardOrPlaceholder network_id tx_data = stx := by
    rw [standardOrPlaceholder, given.standard, Option.getD_some]
  by_cases htext : key = .str "0"
  · subst htext
    have hprepare {action : ContractAction} (h : contractAction tx_data = .ok action) :
        prepareStandard network_id tx_data = .ok { tx_data with standard := some { stx with
          intents := some (intents.set (.str "0") { zero with actions := some [action] }) } } := by
      rw [prepareStandard, if_pos htype, hstart, h, ok_bind]
      simp only [given.segments, required_some, ok_bind, updateSegmentZero, Dict.get?_set_self, pure_ok,
        Dict.modify_set_self]
    have hserializable {action : ContractAction} (h : contractAction tx_data = .ok action) :
        Serializable network_id rnd wallet tx_data ↔
          Intent.Fits { zero with actions := some [action], binding_commitment := some c } ∧
          OthersFit stx.network_id (stx.fallible_coins.getD Dict.empty) intents (.str "0") := by
      rw [← given.left]
      apply serializable_prepared given.flag (hprepare h) given.writes rfl rfl given.offer
      rw [intents.length_set _ _ zero]
      exact given.count
    constructor
    · intro hser
      have hmade : ∃ action, contractAction tx_data = .ok action := by
        obtain ⟨ready, stx', d, hreach, -⟩ := hser
        obtain ⟨t, hstage, -⟩ := hreach.stages
        obtain ⟨-, -, action, -, -, hmade, -⟩ := prepareStandard_action haction hstage
        exact ⟨action, hmade⟩
      obtain ⟨action, hmade⟩ := hmade
      obtain ⟨hfits, hothers⟩ := (hserializable hmade).mp hser
      obtain ⟨hoffers, httl, hactions⟩ := intentFits_iff.mp hfits
      have hthis : action.Fits := hactions.2 action List.mem_cons_self
      exact ⟨hothers.network, hoffers, httl, fun _ => ⟨rfl, (contractAction_fits hsize).mp ⟨action, hmade, hthis⟩⟩,
        fun hnone => absurd haction hnone, hothers.segments, hothers.led, fun h => absurd h hoffer,
        fun p hp _ => hothers.coins.2 p hp⟩
    · intro h
      obtain ⟨action, hmade, hthis⟩ := (contractAction_fits hsize).mpr (h.action haction).2
      apply (hserializable hmade).mpr
      constructor
      · refine intentFits_iff.mpr ⟨h.offers, h.ttl, compact_count (n := 1) (by decide), ?_⟩
        intro a ha
        rw [List.mem_singleton.mp ha]
        exact hthis
      · exact ⟨h.network, h.segments, h.led, compact_count given.coinCount.le,
          fun p hp => h.coins p hp (fun hwrites => absurd hwrites hoffer)⟩
  · -- nothing stands under "0", so step 0 raises
    refine iff_of_false ?_ (fun h => htext (h.action haction).1)
    rintro ⟨ready, stx', d, hreach, -⟩
    obtain ⟨t, hstage, -⟩ := hreach.stages
    obtain ⟨d', found, action, hd', hfound, -, -⟩ := prepareStandard_action haction hstage
    rw [hstart, given.segments] at hd'
    cases hd'
    rw [Dict.get?_set_ne _ _ htext] at hfound
    rcases given.writes with hkey | ⟨-, hnone⟩
    · exact htext hkey
    · rw [hnone] at hfound
      cases hfound

/-- The offer made of the proofs takes the place of one under "0". -/
theorem Presented.offer_iff (given : Presented rnd tx_data stx intents key zero c) (haction : ¬ WritesAction tx_data)
    (hoffer : WritesOffer tx_data) :
    Serializable network_id rnd wallet tx_data ↔ FieldsFit tx_data stx intents key zero := by
  have htype : ¬ (tx_data.type = some "contract_deploy" ∨ tx_data.type = some "contract_call") := haction
  have htype' : tx_data.type = some "shielded_transfer" := hoffer
  have hstart : standardOrPlaceholder network_id tx_data = stx := by
    rw [standardOrPlaceholder, given.standard, Option.getD_some]
  have hprepare {offer : ZswapOffer} (h : zswapOfferOf tx_data = .ok offer) :
      prepareStandard network_id tx_data = .ok { tx_data with standard := some { stx with
        fallible_coins := some ((stx.fallible_coins.getD Dict.empty).set (.str "0") offer) } } := by
    rw [prepareStandard, if_neg htype, if_pos htype', hstart, h, ok_bind]
    rfl
  have hserializable {offer : ZswapOffer} (h : zswapOfferOf tx_data = .ok offer) :
      Serializable network_id rnd wallet tx_data ↔ Intent.Fits { zero with binding_commitment := some c } ∧
        OthersFit stx.network_id ((stx.fallible_coins.getD Dict.empty).set (.str "0") offer) intents key := by
    rw [← given.left]
    exact serializable_prepared given.flag (hprepare h) given.writes rfl given.segments given.offer given.count
  have hid : SegmentId (.str "0") := ⟨0, by decide, by decide, by decide⟩
  constructor
  · intro hser
    have hmade : ∃ offer, zswapOfferOf tx_data = .ok offer := by
      obtain ⟨ready, stx', d, hreach, -⟩ := hser
      obtain ⟨t, hstage, -⟩ := hreach.stages
      obtain ⟨offer, hmade, -⟩ := prepareStandard_offer haction hoffer hstage
      exact ⟨offer, hmade⟩
    obtain ⟨offer, hmade⟩ := hmade
    obtain ⟨hfits, hothers⟩ := (hserializable hmade).mp hser
    obtain ⟨hoffers, httl, hactions⟩ := intentFits_iff.mp hfits
    obtain ⟨⟨-, hthis⟩, hrest⟩ := Dict.forall_mem_set.mp hothers.coins.2
    exact ⟨hothers.network, hoffers, httl, fun h => absurd h haction, fun _ => hactions, hothers.segments,
      hothers.led, fun _ => zswapOfferOf_fits.mp ⟨offer, hmade, hthis⟩, fun p hp hne => hrest p hp (hne hoffer)⟩
  · intro h
    obtain ⟨offer, hmade, hthis⟩ := zswapOfferOf_fits.mpr (h.proofs hoffer)
    apply (hserializable hmade).mpr
    refine ⟨intentFits_iff.mpr ⟨h.offers, h.ttl, h.actions haction⟩, h.network, h.segments, h.led, ?_, ?_⟩
    · apply compact_count
      have hle := (stx.fallible_coins.getD Dict.empty).length_set_le (.str "0") offer
      have hmost := given.coinCount
      omega
    · exact Dict.forall_mem_set.mpr ⟨⟨hid, hthis⟩, fun p hp hne => h.coins p hp (fun _ => hne)⟩

/-- Any other transaction is left as it is by step 0. -/
theorem Presented.plain_iff (given : Presented rnd tx_data stx intents key zero c) (haction : ¬ WritesAction tx_data)
    (hoffer : ¬ WritesOffer tx_data) :
    Serializable network_id rnd wallet tx_data ↔ FieldsFit tx_data stx intents key zero := by
  have htype : ¬ (tx_data.type = some "contract_deploy" ∨ tx_data.type = some "contract_call") := haction
  have htype' : ¬ tx_data.type = some "shielded_transfer" := hoffer
  have hprepare : prepareStandard network_id tx_data = .ok tx_data := by
    rw [prepareStandard, if_neg htype, if_neg htype']
  have hserializable : Serializable network_id rnd wallet tx_data ↔
      Intent.Fits { zero with binding_commitment := some c } ∧
        OthersFit stx.network_id (stx.fallible_coins.getD Dict.empty) intents key := by
    rw [← given.left]
    exact serializable_prepared given.flag hprepare given.writes given.standard given.segments given.offer given.count
  rw [hserializable]
  constructor
  · rintro ⟨hfits, hothers⟩
    obtain ⟨hoffers, httl, hactions⟩ := intentFits_iff.mp hfits
    exact ⟨hothers.network, hoffers, httl, fun h => absurd h haction, fun _ => hactions, hothers.segments,
      hothers.led, fun h => absurd h hoffer, fun p hp _ => hothers.coins.2 p hp⟩
  · intro h
    exact ⟨intentFits_iff.mpr ⟨h.offers, h.ttl, h.actions haction⟩, h.network, h.segments, h.led,
      compact_count given.coinCount.le, fun p hp => h.coins p hp (fun hwrites => absurd hwrites hoffer)⟩

/-- A dictionary that asks for signatures and gets its commitment is serializable exactly when its fields fit. -/
theorem Presented.serializable_iff (given : Presented rnd tx_data stx intents key zero c)
    (hsize : ArgumentsSized tx_data) :
    Serializable network_id rnd wallet tx_data ↔ FieldsFit tx_data stx intents key zero := by
  by_cases haction : WritesAction tx_data
  · exact given.action_iff hsize haction
  · by_cases hoffer : WritesOffer tx_data
    · exact given.offer_iff haction hoffer
    · exact given.plain_iff haction hoffer

end Presented

end Stages

end TransactionBuilder

end Noxipher
