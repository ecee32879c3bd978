import Noxipher.Dapp.Handover
import Noxipher.Crypto.Openings

namespace Noxipher

open Greedy TransactionBuilder

namespace DAppConnector

/-- Intent 0, empty when there is none. -/
def zeroIntent (stx : StandardTransaction) : Intent := (stx.zeroSegment.map Prod.snd).getD {}

/-- The randomness is missing or zero, so that one is drawn. -/
def DrawsRandomness (stx : StandardTransaction) : Prop :=
  stx.binding_randomness.getD (List.replicate 32 0) = List.replicate 32 0

/-- Intent 0 carries the commitment to the least fee, or gets it from the fee that is named: with a drawn randomness the
intent under "0" is written, and no other. -/
structure CommitsToFee (rnd : Bytes) (min_fee : Int) (fee : Option Int) (stx : StandardTransaction) : Prop where
  kept : ∀ r, stx.binding_randomness = some r → r ≠ List.replicate 32 0 →
    zeroCommitment stx = some (computeBindingCommitment r min_fee)
  written : DrawsRandomness stx → zeroKey stx = .str "0" → fee.getD 0 ≡ min_fee [ZMOD JUBJUB_ORDER]
  unwritten : DrawsRandomness stx → zeroKey stx ≠ .str "0" →
    zeroCommitment stx = some (computeBindingCommitment rnd min_fee)

/-- What balancing leaves to the DApp is there in the dictionary: the envelope, the flag, a first input that does not go
to the DUST side, the commitment to the fee, and fields that fit; and the records that balancing reaches fit. -/
structure Submittable (client : NoxipherClient) (wallet : MidnightWallet) (rnd : Bytes) (ttl_seconds : Int)
    (unbound_tx : UnboundTx) : Prop where
  wrapped : unbound_tx.tx_data.standard.isSome
  flagged : unbound_tx.tx_data.requires_unshielded_signature = some true
  routed : ∀ first, unbound_tx.standard.zeroInputs.head? = some first → first.owner = wallet.dust.publicKey →
    wallet.dust.publicKey = wallet.unshielded.publicKey
  bound : CommitsToFee rnd client.config.min_fee unbound_tx.tx_data.fee unbound_tx.standard
  fields : FieldsFit unbound_tx.tx_data unbound_tx.standard (unbound_tx.standard.intents.getD Dict.empty)
    (zeroKey unbound_tx.standard) { zeroIntent unbound_tx.standard with ttl := some ttl_seconds }
  records : RecordsFit client wallet unbound_tx.standard

section Submittable

variable {client : NoxipherClient} {wallet : MidnightWallet} {rnd : Bytes} {draw : Nat} {ttl_seconds : Int}
  {unbound_tx balanced : UnboundTx} {stx : StandardTransaction} {intents : Dict IntLike Intent} {intent : Intent}
  {offer : UnshieldedOffer} {added : List UtxoSpend}

/-- Two values have one commitment when they are the same scalar. -/
theorem commitment_eq_iff (rnd : Bytes) (value other : Int) :
    computeBindingCommitment rnd value = computeBindingCommitment rnd other ↔ value ≡ other [ZMOD JUBJUB_ORDER] := by
  rw [computeBindingCommitment_eq_iff, openingScalar, openingScalar, Int.ModEq]
  unfold valueScalar JUBJUB_ORDER
  omega

/-- The commitment that serialization leaves is that to the least fee exactly when the dictionary has it or names it. -/
theorem commitsToFee_iff (min_fee : Int) (fee : Option Int) :
    leftCommitment rnd (fee.getD 0) stx (zeroKey stx) (zeroCommitment stx) =
        some (computeBindingCommitment (usedRandomness rnd stx) min_fee) ↔ CommitsToFee rnd min_fee fee stx := by
  by_cases hdraws : DrawsRandomness stx
  · have hused : usedRandomness rnd stx = rnd := if_pos hdraws
    have hkept : ∀ r, stx.binding_randomness = some r → r ≠ List.replicate 32 0 →
        zeroCommitment stx = some (computeBindingCommitment r min_fee) := by
      intro r hr hne
      rw [DrawsRandomness, hr, Option.getD_some] at hdraws
      exact absurd hdraws hne
    rw [hused]
    by_cases hkey : zeroKey stx = .str "0"
    · rw [leftCommitment, if_pos ⟨hdraws, hkey⟩, Option.some.injEq, commitment_eq_iff]
      exact ⟨fun h => ⟨hkept, fun _ _ => h, fun _ hne => absurd hkey hne⟩, fun h => h.written hdraws hkey⟩
    · rw [leftCommitment, if_neg (fun hboth => hkey hboth.2)]
      exact ⟨fun h => ⟨hkept, fun _ hthis => absurd hthis hkey, fun _ _ => h⟩, fun h => h.unwritten hdraws hkey⟩
  · have hnot : ¬ stx.binding_randomness.getD (List.replicate 32 0) = List.replicate 32 0 := hdraws
    obtain ⟨r, hr⟩ : ∃ r, stx.binding_randomness = some r := by
      cases hr : stx.binding_randomness with
      | none =>
        rw [hr] at hnot
        exact absurd rfl hnot
      | some r => exact ⟨r, rfl⟩
    have hne : r ≠ List.replicate 32 0 := by
      intro hzero
      rw [hr, Option.getD_some] at hnot
      exact hnot hzero
    rw [leftCommitment, if_neg (fun hboth => hnot hboth.1), usedRandomness, if_neg hnot, hr, Option.getD_some]
    constructor
    · intro h
      refine ⟨?_, fun h' => absurd h' hdraws, fun h' => absurd h' hdraws⟩
      intro found hfound _
      rw [hr] at hfound
      cases hfound
      exact h
    · intro h
      exact h.kept r hr hne

/-- The segment that is worked on is written into the intents that were given. -/
theorem openZero_written (ttl_seconds : Int) (stx : StandardTransaction) (intent : Intent) :
    (openZero ttl_seconds stx).intents.set (openZero ttl_seconds stx).key intent =
      (stx.intents.getD Dict.empty).set (zeroKey stx) intent := by
  rw [openZero_key_eq]
  by_cases hfull : (stx.intents.getD Dict.empty).entries = []
  · have hempty : stx.intents.getD Dict.empty = Dict.empty := Dict.ext_entries hfull
    have hkey : zeroKey stx = .str "0" := by
      unfold zeroKey StandardTransaction.zeroSegment
      cases hintents : stx.intents with
      | none => rfl
      | some intents =>
        rw [hintents, Option.getD_some] at hempty
        rw [hempty]
        rfl
    have hopened : (openZero ttl_seconds stx).intents = Dict.ofList [(.str "0", newIntent ttl_seconds)] := by
      unfold openZero
      cases hintents : stx.intents with
      | none => rfl
      | some intents =>
        rw [hintents, Option.getD_some] at hempty
        rw [hempty]
        rfl
    rw [hkey, hopened, hempty]
    exact Dict.set_set Dict.empty (IntLike.str "0") _ intent
  · cases hintents : stx.intents with
    | none =>
      rw [hintents] at hfull
      exact absurd rfl hfull
    | some intents =>
      rw [hintents, Option.getD_some] at hfull
      have hopened : (openZero ttl_seconds stx).intents = intents := by
        unfold openZero
        dsimp only
        rw [hintents, Option.filter_some, if_pos (by simpa using hfull), Option.getD_some]
      rw [hopened, Option.getD_some]

/-- One form of the key leaves nothing else where segment 0 is written. -/
theorem OneForm.writesZero (h : OneForm stx) : WritesZero (stx.intents.getD Dict.empty) (zeroKey stx) := by
  cases hsegment : stx.zeroSegment with
  | none =>
    left
    rw [zeroKey, hsegment]
    rfl
  | some zero =>
    obtain ⟨key, intent⟩ := zero
    obtain ⟨intents, hthere, hzero⟩ := Option.bind_eq_some_iff.mp hsegment
    have hkey : zeroKey stx = key := by
      rw [zeroKey, hsegment]
      rfl
    rw [hkey, hthere, Option.getD_some]
    rcases StandardTransaction.segmentZero_key hzero with rfl | ⟨rfl, -⟩
    · exact Or.inl rfl
    · rcases h intents hthere with hnone | hnone
      · exact Or.inr ⟨rfl, hnone⟩
      · rw [StandardTransaction.segmentZero_get? hzero] at hnone
        cases hnone

/-- Intent 0 as it is opened differs from the given one in what an empty intent does not have. -/
theorem openZero_intent (ttl_seconds : Int) (stx : StandardTransaction) :
    (openZero ttl_seconds stx).intent.guaranteed_unshielded_offer = (zeroIntent stx).guaranteed_unshielded_offer ∧
    (openZero ttl_seconds stx).intent.fallible_unshielded_offer = (zeroIntent stx).fallible_unshielded_offer ∧
    (openZero ttl_seconds stx).intent.actions.getD [] = (zeroIntent stx).actions.getD [] := by
  have hpair := openZero_zeroSegment ttl_seconds stx
  rw [zeroIntent]
  cases hsegment : stx.zeroSegment with
  | none =>
    rw [hsegment, Option.getD_none] at hpair
    rw [(Prod.mk.inj hpair).2]
    exact ⟨rfl, rfl, rfl⟩
  | some zero =>
    rw [hsegment, Option.getD_some] at hpair
    rw [← hpair]
    exact ⟨rfl, rfl, rfl⟩

/-- The offer that is worked on fits when the given one does: a new one has empty lists. -/
theorem openZero_offerFits (ttl_seconds : Int) (stx : StandardTransaction) :
    (openZero ttl_seconds stx).offer.Fits ↔
      ∀ offer, present (zeroIntent stx).guaranteed_unshielded_offer = some offer → offer.Fits := by
  rw [openZero_offer, (openZero_intent ttl_seconds stx).1]
  cases present (zeroIntent stx).guaranteed_unshielded_offer with
  | none =>
    have hnone : VecFits UtxoSpend.Fits [] := ⟨compact_count (Nat.zero_le _), by simp⟩
    have hnone' : VecFits UtxoOutput.Fits [] := ⟨compact_count (Nat.zero_le _), by simp⟩
    exact iff_of_true ⟨⟨[], rfl, hnone⟩, ⟨[], rfl, hnone'⟩, compact_count (n := 0) (Nat.zero_le _)⟩ (by simp)
  | some offer => simp

/-- The opened dictionary fits exactly when the given one does with the ttl that is set. -/
theorem opened_fields_iff (ttl_seconds : Int) (unbound_tx : UnboundTx) {d : Option (Dict IntLike Intent)} :
    let opened := openZero ttl_seconds unbound_tx.standard
    FieldsFit (openedTx ttl_seconds unbound_tx).tx_data { unbound_tx.standard with intents := d }
        (unbound_tx.standard.intents.getD Dict.empty) (zeroKey unbound_tx.standard)
        { opened.intent with guaranteed_unshielded_offer := some opened.offer, ttl := some ttl_seconds } ↔
      FieldsFit unbound_tx.tx_data unbound_tx.standard (unbound_tx.standard.intents.getD Dict.empty)
        (zeroKey unbound_tx.standard) { zeroIntent unbound_tx.standard with ttl := some ttl_seconds } := by
  intro opened
  obtain ⟨-, hfallible, hactions⟩ := openZero_intent ttl_seconds unbound_tx.standard
  have hpresent : present (some opened.offer) = some opened.offer := by
    rw [present, Option.filter_some, if_pos (openZero_truthy ttl_seconds unbound_tx.standard)]
  have hoffers : (∀ slot offer, present (OfferSlot.offer slot { opened.intent with
        guaranteed_unshielded_offer := some opened.offer
        ttl := some ttl_seconds }) = some offer → offer.Fits) ↔
      ∀ slot offer, present (OfferSlot.offer slot { zeroIntent unbound_tx.standard with
        ttl := some ttl_seconds }) = some offer → offer.Fits := by
    have hguaranteed := openZero_offerFits ttl_seconds unbound_tx.standard
    constructor
    · intro h slot
      cases slot with
      | guaranteed => exact hguaranteed.mp (h .guaranteed opened.offer hpresent)
      | fallible =>
        intro offer hoffer
        apply h .fallible offer
        show present opened.intent.fallible_unshielded_offer = some offer
        rw [hfallible]
        exact hoffer
    · intro h slot
      cases slot with
      | guaranteed =>
        intro offer hoffer
        have hthis : some opened.offer = some offer := hpresent.symm.trans hoffer
        rw [← Option.some.inj hthis]
        exact hguaranteed.mpr (h .guaranteed)
      | fallible =>
        intro offer hoffer
        apply h .fallible offer
        show present (zeroIntent unbound_tx.standard).fallible_unshielded_offer = some offer
        rw [← hfallible]
        exact hoffer
  have hdata := UnboundTx.tx_data_writeIntents unbound_tx (opened.intents.set opened.key
    { opened.intent with guaranteed_unshielded_offer := some opened.offer, ttl := some ttl_seconds })
  have hopened : (openedTx ttl_seconds unbound_tx).tx_data = _ := hdata
  rw [hopened]
  constructor
  · intro h
    refine ⟨h.network, hoffers.mp h.offers, h.ttl, h.action, ?_, h.segments, h.led, ?_, h.coins⟩
    · intro hwrites
      show VecFits ContractAction.Fits ((zeroIntent unbound_tx.standard).actions.getD [])
      rw [← hactions]
      exact h.actions hwrites
    · intro hwrites
      exact ⟨(h.proofs hwrites).proofs, (h.proofs hwrites).merkle_root⟩
  · intro h
    refine ⟨h.network, hoffers.mpr h.offers, h.ttl, h.action, ?_, h.segments, h.led, ?_, h.coins⟩
    · intro hwrites
      show VecFits ContractAction.Fits (opened.intent.actions.getD [])
      rw [hactions]
      exact h.actions hwrites
    · intro hwrites
      exact ⟨(h.proofs hwrites).proofs, (h.proofs hwrites).merkle_root⟩

/-- The opened dictionary asks for signatures and gets the commitment to the least fee. -/
theorem Settled.presented (h : Settled client wallet ttl_seconds unbound_tx balanced intents intent offer added)
    (hform : OneForm unbound_tx.standard) (hsized : Sized client wallet rnd draw balanced)
    (hwrapped : unbound_tx.tx_data.standard.isSome)
    (hflagged : unbound_tx.tx_data.requires_unshielded_signature = some true) {c : Bytes}
    (hbound : leftCommitment rnd (unbound_tx.tx_data.fee.getD 0) unbound_tx.standard (zeroKey unbound_tx.standard)
      (zeroCommitment unbound_tx.standard) = some c) :
    let opened := openZero ttl_seconds unbound_tx.standard
    let zero : Intent := { opened.intent with
      guaranteed_unshielded_offer := some opened.offer
      ttl := some ttl_seconds }
    let given := unbound_tx.standard.intents.getD Dict.empty
    Presented rnd (openedTx ttl_seconds unbound_tx).tx_data
      { unbound_tx.standard with intents := some (given.set (zeroKey unbound_tx.standard) zero) } given
      (zeroKey unbound_tx.standard) zero c := by
  intro opened zero given
  have hset : opened.intents.set opened.key zero = given.set (zeroKey unbound_tx.standard) zero :=
    openZero_written ttl_seconds unbound_tx.standard zero
  have hthere : (openedTx ttl_seconds unbound_tx).tx_data.standard.isSome := by
    rw [openedTx, UnboundTx.isSome_writeIntents]
    exact hwrapped
  have hstandard := UnboundTx.standard_of_isSome hthere
  rw [openedTx, UnboundTx.standard_writeIntents, ← openedTx] at hstandard
  have hstandard : (openedTx ttl_seconds unbound_tx).tx_data.standard =
      some { unbound_tx.standard with intents := some (given.set (zeroKey unbound_tx.standard) zero) } := by
    rw [hstandard, ← hset]
  have hdata : (openedTx ttl_seconds unbound_tx).tx_data = { unbound_tx.tx_data with
      standard := unbound_tx.tx_data.standard.map
        (fun stx => { stx with intents := some (opened.intents.set opened.key zero) }) } :=
    UnboundTx.tx_data_writeIntents unbound_tx _
  constructor
  · rw [hdata]
    exact hflagged
  · exact hstandard
  · rfl
  · exact hform.writesZero
  · show (Noxipher.present (some opened.offer)).isSome
    rw [Noxipher.present, Option.filter_some, if_pos (openZero_truthy ttl_seconds unbound_tx.standard)]
    rfl
  · -- the balanced dictionary has the same segments
    have hwritten := congrArg TxData.standard h.written
    rw [h.wrapped hwrapped, withOffer_standard _ _ hstandard rfl] at hwritten
    have hcount := hsized.segments _ (congrArg StandardTransaction.intents (Option.some.inj hwritten))
    rwa [Dict.entries_modify, List.length_map] at hcount
  · have hcoins := hsized.coins
    rw [h.standard] at hcoins
    exact hcoins
  · show leftCommitment rnd _ _ _ opened.intent.binding_commitment = some c
    rw [openZero_commitment, hdata]
    exact hbound

/-- What serialization needs of the opened dictionary is a condition on the given one. -/
theorem Settled.ready_iff (h : Settled client wallet ttl_seconds unbound_tx balanced intents intent offer added)
    (hform : OneForm unbound_tx.standard) (hsized : Sized client wallet rnd draw balanced) :
    Ready client wallet rnd ttl_seconds unbound_tx ↔ Submittable client wallet rnd ttl_seconds unbound_tx := by
  have hsize : ArgumentsSized (openedTx ttl_seconds unbound_tx).tx_data := by
    have harguments := hsized.arguments
    rw [h.envelope] at harguments
    rw [openedTx, UnboundTx.tx_data_writeIntents]
    exact harguments
  constructor
  · intro hready
    have given := h.presented hform hsized hready.wrapped hready.flagged hready.bound
    exact ⟨hready.wrapped, hready.flagged, hready.routed, (commitsToFee_iff _ _).mp hready.bound,
      (opened_fields_iff ttl_seconds unbound_tx).mp ((given.serializable_iff hsize).mp hready.rest), hready.records⟩
  · intro hsubmittable
    have hbound := (commitsToFee_iff _ _).mpr hsubmittable.bound
    have given := h.presented hform hsized hsubmittable.wrapped hsubmittable.flagged hbound
    exact ⟨hsubmittable.wrapped, hsubmittable.flagged, hsubmittable.routed, hbound,
      (given.serializable_iff hsize).mpr ((opened_fields_iff ttl_seconds unbound_tx).mpr hsubmittable.fields),
      hsubmittable.records⟩

end Submittable

/-- A transaction without segments, as an envelope with fee and flag. -/
def unboundEnvelope : UnboundTx where
  tx_data := {
    standard := some { network_id := some "preprod" }
    fee := some 10000
    requires_unshielded_signature := some true }

/-- The same transaction on its own. -/
def unboundRaw : UnboundTx where
  raw := { network_id := some "preprod" }

def feeUtxo : UtxoRecord := { value := some (.int 20000), outputNo := some (.int 0) }

/-- Thirty-two bytes that are not all zero. -/
def drawnRandomness : Bytes := 1::List.replicate 31 0

end DAppConnector

end Noxipher
