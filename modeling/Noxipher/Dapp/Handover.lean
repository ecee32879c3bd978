import Noxipher.Dapp.Additions
import Noxipher.Tx.Presented

namespace Noxipher

open Greedy TransactionBuilder

namespace DAppConnector

/-- `submit_transaction` up to the node: the dictionary is read as an envelope. -/
def submitTransaction (client : NoxipherClient) (wallet : MidnightWallet) (rnd : Bytes) (draw : Nat)
    (finalized_tx : UnboundTx) : Except PyError Serialized :=
  serializeTransaction client.config.name rnd wallet draw finalized_tx.tx_data

/-- No segment is there under both forms of its key. -/
def OneForm (stx : StandardTransaction) : Prop :=
  ∀ intents, stx.intents = some intents → intents.get? (.str "0") = none ∨ intents.get? (.int 0) = none

/-- The key of segment 0: the text form when the segment is created. -/
def zeroKey (stx : StandardTransaction) : IntLike := (stx.zeroSegment.map Prod.fst).getD (.str "0")

/-- The commitment segment 0 already carries. -/
def zeroCommitment (stx : StandardTransaction) : Option Bytes :=
  stx.zeroSegment.bind (fun zero => zero.2.binding_commitment)

/-- The dictionary with the levels that balancing creates and the ttl that it sets, and with nothing added. -/
def openedTx (ttl_seconds : Int) (unbound_tx : UnboundTx) : UnboundTx :=
  let opened := openZero ttl_seconds unbound_tx.standard
  unbound_tx.writeIntents (opened.intents.set opened.key
    { opened.intent with guaranteed_unshielded_offer := some opened.offer, ttl := some ttl_seconds })

section Opened

variable (ttl_seconds : Int)

theorem openZero_key_eq (stx : StandardTransaction) : (openZero ttl_seconds stx).key = zeroKey stx := by
  have hkey : (openZero ttl_seconds stx).key = (stx.zeroSegment.getD (.str "0", newIntent ttl_seconds)).1 :=
    congrArg Prod.fst (openZero_zeroSegment ttl_seconds stx)
  rw [hkey, zeroKey]
  cases stx.zeroSegment <;> rfl

theorem openZero_commitment (stx : StandardTransaction) :
    (openZero ttl_seconds stx).intent.binding_commitment = zeroCommitment stx := by
  have hintent : (openZero ttl_seconds stx).intent = (stx.zeroSegment.getD (.str "0", newIntent ttl_seconds)).2 :=
    congrArg Prod.snd (openZero_zeroSegment ttl_seconds stx)
  rw [hintent, zeroCommitment]
  cases stx.zeroSegment <;> rfl

/-- A list of the offer that is worked on is the one that was given, and empty when there was no offer. -/
theorem openZero_list {α : Type} {list : UnshieldedOffer → Option (List α)}
    (hempty : list ⟨some [], some [], some []⟩ = some []) (stx : StandardTransaction) :
    (list (openZero ttl_seconds stx).offer).getD [] = (stx.zeroOffer.bind list).getD [] := by
  cases hzero : stx.zeroOffer with
  | none =>
    rw [openZero_of_none ttl_seconds hzero, hempty]
    rfl
  | some offer =>
    obtain ⟨-, -, -, hoffer⟩ := openZero_of_zeroOffer ttl_seconds hzero
    rw [hoffer, Option.bind_some]

/-- The number is only used when nothing stands under the text. -/
theorem openZero_oneForm {stx : StandardTransaction} (h : OneForm stx) :
    (openZero ttl_seconds stx).key = .str "0" ∨
    (openZero ttl_seconds stx).key = .int 0 ∧ (openZero ttl_seconds stx).intents.get? (.str "0") = none := by
  have hpair := openZero_zeroSegment ttl_seconds stx
  cases hsegment : stx.zeroSegment with
  | none =>
    rw [hsegment, Option.getD_none] at hpair
    exact Or.inl (Prod.mk.inj hpair).1
  | some zero =>
    obtain ⟨key, intent⟩ := zero
    rw [hsegment, Option.getD_some] at hpair
    obtain ⟨hkey, -⟩ := Prod.mk.inj hpair
    have hintents := openZero_intents ttl_seconds hsegment
    obtain ⟨intents, hthere, hzero⟩ := Option.bind_eq_some_iff.mp hsegment
    rw [hintents] at hthere
    cases hthere
    rcases StandardTransaction.segmentZero_key hzero with rfl | ⟨rfl, -⟩
    · exact Or.inl hkey
    · right
      refine ⟨hkey, ?_⟩
      rcases h _ hintents with hnone | hnone
      · exact hnone
      · rw [StandardTransaction.segmentZero_get? hzero] at hnone
        cases hnone

/-- What is written under the key of segment 0 is its segment. -/
theorem openZero_set {stx : StandardTransaction} (h : OneForm stx) (intent : Intent) :
    ZeroSegment ((openZero ttl_seconds stx).intents.set (openZero ttl_seconds stx).key intent) (zeroKey stx) intent := by
  rw [← openZero_key_eq ttl_seconds]
  refine ⟨Dict.get?_set_self _ _ _, ?_⟩
  rcases openZero_oneForm ttl_seconds h with htext | ⟨hnumber, hnone⟩
  · exact Or.inl htext
  · refine Or.inr ⟨hnumber, ?_⟩
    rw [Dict.get?_set_ne _ _ (by rw [hnumber]; decide)]
    exact hnone

/-- Another offer in the place of the opened one. -/
theorem openedTx_withOffer (unbound_tx : UnboundTx) (offer : UnshieldedOffer) :
    let opened := openZero ttl_seconds unbound_tx.standard
    withOffer (zeroKey unbound_tx.standard) offer (openedTx ttl_seconds unbound_tx).tx_data =
      (unbound_tx.writeIntents (opened.intents.set opened.key
        { opened.intent with guaranteed_unshielded_offer := some offer, ttl := some ttl_seconds })).tx_data := by
  intro opened
  rw [← openZero_key_eq ttl_seconds, openedTx]
  simp only [UnboundTx.tx_data_writeIntents, withOffer, Option.map_map, Function.comp_def, Option.map_some,
    Dict.modify_set_self]
  rfl

end Opened

/-- What a dictionary that balanced by adding inputs looks like next to the one given. -/
structure Settled (client : NoxipherClient) (wallet : MidnightWallet) (ttl_seconds : Int)
    (unbound_tx balanced : UnboundTx) (intents : Dict IntLike Intent) (intent : Intent) (offer : UnshieldedOffer)
    (added : List UtxoSpend) : Prop where
  standard : balanced.standard = { unbound_tx.standard with intents := some intents }
  envelope : balanced.tx_data = { unbound_tx.tx_data with
    standard := unbound_tx.tx_data.standard.map (fun stx => { stx with intents := some intents }) }
  key : zeroKey balanced.standard = zeroKey unbound_tx.standard
  segment : ZeroSegment intents (zeroKey unbound_tx.standard) intent
  present : present intent.guaranteed_unshielded_offer = some offer
  zeroOffer : balanced.standard.zeroOffer = some offer
  commitment : intent.binding_commitment = zeroCommitment unbound_tx.standard
  grown : ∃ utxos before last rest, Grown client wallet (openZero ttl_seconds unbound_tx.standard).offer offer utxos
    unbound_tx.standard.zeroInputs before last rest added
  written : balanced.tx_data =
    withOffer (zeroKey unbound_tx.standard) offer (openedTx ttl_seconds unbound_tx).tx_data

section Success

variable {client : NoxipherClient} {wallet : MidnightWallet} {ttl_seconds : Int}

/-- More inputs than before were added because the given ones were short. -/
theorem balanceOffer_more {offer settled : UnshieldedOffer} (h : balanceOffer client wallet offer = (settled, .ok ()))
    (hmore : (offer.inputs.getD []).length < (settled.inputs.getD []).length) :
    inputsVal offer < outputsVal offer+client.config.min_fee := by
  by_contra hcovered
  rw [balanceOffer_covered client wallet (not_lt.mp hcovered)] at h
  rw [addChange_settled h] at hmore
  exact absurd hmore (lt_irrefl _)

theorem settled_of_ok {unbound_tx balanced : UnboundTx} (hform : OneForm unbound_tx.standard)
    (hadded : unbound_tx.standard.zeroInputs.length < balanced.standard.zeroInputs.length)
    (h : balanceTransaction client wallet ttl_seconds unbound_tx = (balanced, .ok ())) :
    ∃ intents intent offer added,
      Settled client wallet ttl_seconds unbound_tx balanced intents intent offer added := by
  have hok : (balanceTransaction client wallet ttl_seconds unbound_tx).2 = .ok () := by rw [h]
  obtain ⟨offer, hoffer, hzero⟩ := balanceTransaction_ok_offer client wallet ttl_seconds hok
  have htruthy := balanceOffer_truthy client wallet (openZero_truthy ttl_seconds unbound_tx.standard)
  rw [h] at hzero
  rw [hoffer] at htruthy
  rw [balanceTransaction_ok client wallet ttl_seconds hoffer] at h
  obtain ⟨hwritten, -⟩ := Prod.mk.inj h
  have hgiven : ((openZero ttl_seconds unbound_tx.standard).offer.inputs).getD [] = unbound_tx.standard.zeroInputs :=
    openZero_list ttl_seconds rfl unbound_tx.standard
  have hmore : ((openZero ttl_seconds unbound_tx.standard).offer.inputs.getD []).length <
      (offer.inputs.getD []).length := by
    rw [StandardTransaction.zeroInputs, StandardTransaction.zeroInputs, hzero, Option.bind_some] at hadded
    rw [hgiven]
    exact hadded
  obtain ⟨utxos, inputs, before, last, rest, added, hgrown⟩ := balanceOffer_grown (balanceOffer_more hoffer hmore) hoffer
  rw [hgrown.given, Option.getD_some] at hgiven
  rw [hgiven] at hgrown
  let opened := openZero ttl_seconds unbound_tx.standard
  let intent : Intent := { opened.intent with guaranteed_unshielded_offer := some offer, ttl := some ttl_seconds }
  have hstandard : balanced.standard =
      { unbound_tx.standard with intents := some (opened.intents.set opened.key intent) } := by
    rw [← hwritten, UnboundTx.standard_writeIntents]
  refine ⟨opened.intents.set opened.key intent, intent, offer, added, ?_⟩
  constructor
  · exact hstandard
  · rw [← hwritten, UnboundTx.tx_data_writeIntents]
  · rw [zeroKey, hstandard, StandardTransaction.zeroSegment, Option.bind_some,
      StandardTransaction.segmentZero_set (openZero_key ttl_seconds unbound_tx.standard) (by simp [intent, Intent.truthy]),
      ← openZero_key_eq ttl_seconds]
    rfl
  · exact openZero_set ttl_seconds hform intent
  · show present (some offer) = some offer
    rw [present, Option.filter_some, if_pos htruthy]
  · exact hzero
  · exact openZero_commitment ttl_seconds unbound_tx.standard
  · exact ⟨utxos, before, last, rest, hgrown⟩
  · rw [← hwritten, openedTx_withOffer]

end Success

/-- The balanced offer is serialized with a signature by the wallet's unshielded key and next to the commitment to
the value it leaves for the fee. -/
def SubmitsBalanced (client : NoxipherClient) (wallet : MidnightWallet) (rnd : Bytes) (draw : Nat)
    (balanced : UnboundTx) : Prop :=
  ∃ out stx intents intent offer signed r, submitTransaction client wallet rnd draw balanced = .ok out ∧
    balanced.standard.zeroOffer = some offer ∧
    out.tx_data.standard = some stx ∧ stx.intents = some intents ∧
    intents.get? (zeroKey balanced.standard) = some intent ∧
    intent.guaranteed_unshielded_offer = some signed ∧ signed.inputs = offer.inputs ∧ signed.outputs = offer.outputs ∧
    (∃ entry ∈ out.log, entry.segment = zeroKey balanced.standard ∧ entry.slot = .guaranteed ∧
      signed.signatures = some [entry.signature] ∧
      ∃ signer : Sr25519Signer, (signer = wallet.dust.signer ∨ signer = wallet.unshielded.signer) ∧
        signer.public_key = wallet.unshielded.publicKey ∧ entry.signer_key = signer.public_key ∧
        ∃ n, entry.signature = signer.sign n entry.payload) ∧
    stx.binding_randomness = some r ∧
    intent.binding_commitment = some (computeBindingCommitment r (inputsVal signed-outputsVal signed))

/-- What balancing leaves to serialization is there: the envelope, the flag, a first input that does not go to the DUST
side, the commitment to the fee under the randomness that is used, and a rest that can be written. -/
structure Ready (client : NoxipherClient) (wallet : MidnightWallet) (rnd : Bytes) (ttl_seconds : Int)
    (unbound_tx : UnboundTx) : Prop where
  wrapped : unbound_tx.tx_data.standard.isSome
  flagged : unbound_tx.tx_data.requires_unshielded_signature = some true
  routed : ∀ first, unbound_tx.standard.zeroInputs.head? = some first → first.owner = wallet.dust.publicKey →
    wallet.dust.publicKey = wallet.unshielded.publicKey
  bound : leftCommitment rnd (unbound_tx.tx_data.fee.getD 0) unbound_tx.standard (zeroKey unbound_tx.standard)
      (zeroCommitment unbound_tx.standard) =
    some (computeBindingCommitment (usedRandomness rnd unbound_tx.standard) client.config.min_fee)
  rest : Serializable client.config.name rnd wallet (openedTx ttl_seconds unbound_tx).tx_data
  records : RecordsFit client wallet unbound_tx.standard

/-- No list, dictionary or byte string of Python has as many items. -/
structure Sized (client : NoxipherClient) (wallet : MidnightWallet) (rnd : Bytes) (draw : Nat) (balanced : UnboundTx) :
    Prop where
  inputs : balanced.standard.zeroInputs.length < 2^63
  outputs : balanced.standard.zeroOutputs.length < 2^63
  segments : ∀ intents, balanced.standard.intents = some intents → intents.entries.length < 2^63
  coins : (balanced.standard.fallible_coins.getD Dict.empty).entries.length < 2^63
  arguments : ArgumentsSized balanced.tx_data
  bytes : ∀ x, midnightBytes client.config.name rnd wallet draw balanced.tx_data = .ok x → x.length < 2^63

section Handover

variable {client : NoxipherClient} {wallet : MidnightWallet} {rnd : Bytes} {draw : Nat} {ttl_seconds : Int}
  {unbound_tx balanced : UnboundTx} {intents : Dict IntLike Intent} {intent : Intent} {offer : UnshieldedOffer}
  {added : List UtxoSpend}

namespace Settled

theorem spends (h : Settled client wallet ttl_seconds unbound_tx balanced intents intent offer added) :
    offer.inputs = some (unbound_tx.standard.zeroInputs++added) := by
  obtain ⟨utxos, before, last, rest, hgrown⟩ := h.grown
  exact hgrown.inputs_eq

/-- The first input decides: an own one goes to the NIGHT side. -/
theorem routed_iff (h : Settled client wallet ttl_seconds unbound_tx balanced intents intent offer added) :
    (routedSigner wallet offer).public_key = wallet.unshielded.publicKey ↔
      ∀ first, unbound_tx.standard.zeroInputs.head? = some first → first.owner = wallet.dust.publicKey →
        wallet.dust.publicKey = wallet.unshielded.publicKey := by
  have hfirst : ∃ first, (offer.inputs.getD []).head? = some first ∧
      (unbound_tx.standard.zeroInputs.head? = some first ∨
        unbound_tx.standard.zeroInputs = [] ∧ first.owner = wallet.unshielded.publicKey) := by
    rw [h.spends, Option.getD_some]
    cases hin : unbound_tx.standard.zeroInputs with
    | nil =>
      obtain ⟨utxos, before, last, rest, hgrown⟩ := h.grown
      obtain ⟨first, more, rfl⟩ := List.exists_cons_of_ne_nil hgrown.added_ne_nil
      exact ⟨first, rfl, Or.inr ⟨rfl, hgrown.owners first List.mem_cons_self⟩⟩
    | cons first rest => exact ⟨first, rfl, Or.inl rfl⟩
  obtain ⟨first, hhead, hwhose⟩ := hfirst
  have hrouted : routedSigner wallet offer =
      if first.owner = wallet.dust.publicKey then wallet.dust.signer else wallet.unshielded.signer := by
    rw [routedSigner, hhead]
    rfl
  rw [hrouted]
  by_cases hdust : first.owner = wallet.dust.publicKey
  · rw [if_pos hdust]
    constructor
    · intro hsame _ _ _
      exact hsame
    · intro hcond
      rcases hwhose with hgiven | ⟨-, hown⟩
      · exact hcond first hgiven hdust
      · exact hdust.symm.trans hown
  · rw [if_neg hdust]
    refine iff_of_true rfl ?_
    intro found hfound howner
    rcases hwhose with hgiven | ⟨hnil, -⟩
    · rw [hgiven] at hfound
      cases hfound
      exact absurd howner hdust
    · rw [hnil] at hfound
      cases hfound

theorem flag (h : Settled client wallet ttl_seconds unbound_tx balanced intents intent offer added) :
    balanced.tx_data.requires_unshielded_signature = unbound_tx.tx_data.requires_unshielded_signature := by
  rw [h.envelope]

theorem used (h : Settled client wallet ttl_seconds unbound_tx balanced intents intent offer added) :
    usedRandomness rnd balanced.standard = usedRandomness rnd unbound_tx.standard := by
  rw [h.standard, usedRandomness, usedRandomness]

/-- Serialization leaves the same commitment in the balanced segment as it would have in the one given. -/
theorem left (h : Settled client wallet ttl_seconds unbound_tx balanced intents intent offer added) :
    leftCommitment rnd (balanced.tx_data.fee.getD 0) balanced.standard (zeroKey unbound_tx.standard)
        intent.binding_commitment =
      leftCommitment rnd (unbound_tx.tx_data.fee.getD 0) unbound_tx.standard (zeroKey unbound_tx.standard)
        (zeroCommitment unbound_tx.standard) := by
  rw [h.envelope, h.commitment, h.standard, leftCommitment, leftCommitment]

theorem segments (h : Settled client wallet ttl_seconds unbound_tx balanced intents intent offer added) :
    balanced.standard.intents = some intents := by
  rw [h.standard]

theorem wrapped (h : Settled client wallet ttl_seconds unbound_tx balanced intents intent offer added)
    (hwrapped : unbound_tx.tx_data.standard.isSome) : balanced.tx_data.standard = some balanced.standard := by
  apply UnboundTx.standard_of_isSome
  rw [h.envelope, Option.isSome_map]
  exact hwrapped

theorem raw (h : Settled client wallet ttl_seconds unbound_tx balanced intents intent offer added)
    (hraw : ¬ unbound_tx.tx_data.standard.isSome) : balanced.tx_data.standard = none := by
  rw [h.envelope, Option.not_isSome_iff_eq_none.mp hraw, Option.map_none]

/-- An offer with the lists of the balanced one leaves the fee. -/
theorem fee (h : Settled client wallet ttl_seconds unbound_tx balanced intents intent offer added)
    {signed : UnshieldedOffer} (hin : signed.inputs = offer.inputs) (hout : signed.outputs = offer.outputs) :
    inputsVal signed-outputsVal signed = client.config.min_fee := by
  obtain ⟨utxos, before, last, rest, hgrown⟩ := h.grown
  have hsum := hgrown.sum
  rw [inputsVal, outputsVal] at hsum
  rw [inputsVal, hin, outputsVal, hout]
  omega

/-- The balanced dictionary is serializable exactly when the opened one is and the records reached fit. -/
theorem serializable_iff (h : Settled client wallet ttl_seconds unbound_tx balanced intents intent offer added)
    (hform : OneForm unbound_tx.standard) (hwrapped : unbound_tx.tx_data.standard.isSome) {network_id : String}
    (hin : balanced.standard.zeroInputs.length < 2^63) (hout : balanced.standard.zeroOutputs.length < 2^63) :
    Serializable network_id rnd wallet balanced.tx_data ↔
      Serializable network_id rnd wallet (openedTx ttl_seconds unbound_tx).tx_data ∧
        RecordsFit client wallet unbound_tx.standard := by
  obtain ⟨utxos, before, last, rest, hgrown⟩ := h.grown
  let opened := openZero ttl_seconds unbound_tx.standard
  have hrecords := hgrown.recordsFit_iff (openZero_list ttl_seconds rfl unbound_tx.standard)
    (openZero_list ttl_seconds rfl unbound_tx.standard)
  rw [StandardTransaction.zeroInputs, h.zeroOffer, Option.bind_some] at hin
  rw [StandardTransaction.zeroOutputs, h.zeroOffer, Option.bind_some] at hout
  have hfits := hgrown.fits_iff hin hout
  rw [← hrecords] at hfits
  have htruthy := (Option.filter_eq_some_iff.mp h.present).2
  have hopened : opened.offer.truthy = true := openZero_truthy ttl_seconds unbound_tx.standard
  constructor
  · intro hser
    obtain ⟨hgiven, hall⟩ := hfits.mp (hser.offer_fits (h.wrapped hwrapped) h.segments h.segment h.present)
    refine ⟨?_, hall⟩
    have hback := hser.withOffer (h.wrapped hwrapped) h.segments h.segment h.present hopened hgiven
    rw [h.written, withOffer_withOffer, openedTx_withOffer] at hback
    exact hback
  · intro ⟨hser, hall⟩
    have hthere : (openedTx ttl_seconds unbound_tx).tx_data.standard.isSome := by
      rw [openedTx, UnboundTx.isSome_writeIntents]
      exact hwrapped
    have hs := UnboundTx.standard_of_isSome hthere
    rw [openedTx, UnboundTx.standard_writeIntents, ← openedTx] at hs
    have hsegment := openZero_set ttl_seconds hform { opened.intent with
      guaranteed_unshielded_offer := some opened.offer
      ttl := some ttl_seconds }
    have hpresent : Noxipher.present (some opened.offer) = some opened.offer := by
      rw [Noxipher.present, Option.filter_some, if_pos hopened]
    have hgiven := hser.offer_fits hs rfl hsegment hpresent
    rw [h.written]
    exact hser.withOffer hs rfl hsegment hpresent htruthy (hfits.mpr ⟨hgiven, hall⟩)

/-- The submitted bytes with the balanced offer in them need everything that balancing left. -/
theorem ready (h : Settled client wallet ttl_seconds unbound_tx balanced intents intent offer added)
    (hform : OneForm unbound_tx.standard) (hsized : Sized client wallet rnd draw balanced)
    (hsubmits : SubmitsBalanced client wallet rnd draw balanced) :
    Ready client wallet rnd ttl_seconds unbound_tx := by
  obtain ⟨out, stx, found, foundIntent, given, signed, r, hout, hgiven, hs, hd, hget, hsigned, hin, hout', hentry, hr,
    hcommitment⟩ := hsubmits
  rw [h.zeroOffer] at hgiven
  cases hgiven
  rw [h.key] at hget hentry
  obtain ⟨entry, hmem, hsegment, hslot, -, signer, -, hkey, hsignerkey, -⟩ := hentry
  have hflagged := flagged_of_log hout hmem
  have hthere : unbound_tx.tx_data.standard.isSome := by
    by_contra hraw
    have hpresent : Noxipher.present foundIntent.guaranteed_unshielded_offer = some signed := by
      have htruthy : signed.truthy = true := by
        unfold UnshieldedOffer.truthy
        rw [hin, h.spends]
        rfl
      rw [hsigned, Noxipher.present, Option.filter_some, if_pos htruthy]
    have hempty := placeholder_spends_nothing (h.raw hraw) hflagged hout hs hd hget hpresent
    rw [hin, h.spends] at hempty
    obtain ⟨utxos, before, last, rest, hgrown⟩ := h.grown
    exact hgrown.added_ne_nil (List.append_eq_nil_iff.mp (Option.some.inj hempty)).2
  obtain ⟨stx', intents', intent', signed', hs', hd', hr', hget', hc', hg', -, -, -, hsigner⟩ :=
    serializeTransaction_segment hflagged (h.wrapped hthere) h.segments h.segment h.present hout
  rw [hs] at hs'
  cases hs'
  rw [hd] at hd'
  cases hd'
  rw [hget] at hget'
  cases hget'
  rw [hr] at hr'
  cases hr'
  obtain ⟨x, hbytes, -⟩ := serializeTransaction_midnightBytes.mp ⟨out, hout⟩
  have hserializable := (midnightBytes_serializable draw hflagged).mp ⟨x, hbytes⟩
  obtain ⟨hrest, hrecords⟩ := (h.serializable_iff hform hthere hsized.inputs hsized.outputs).mp hserializable
  constructor
  · exact hthere
  · rw [← h.flag]
    exact hflagged
  · apply h.routed_iff.mp
    rw [← (hsigner entry hmem hsegment hslot).1, hsignerkey, hkey]
  · rw [← h.left, ← hc', hcommitment, h.fee hin hout', h.used]
  · exact hrest
  · exact hrecords

/-- With all of it there the balanced dictionary is submitted. -/
theorem submits (h : Settled client wallet ttl_seconds unbound_tx balanced intents intent offer added)
    (hform : OneForm unbound_tx.standard) (hsized : Sized client wallet rnd draw balanced)
    (hready : Ready client wallet rnd ttl_seconds unbound_tx) :
    SubmitsBalanced client wallet rnd draw balanced := by
  have hthere := h.wrapped hready.wrapped
  have hflagged : balanced.tx_data.requires_unshielded_signature = some true := h.flag.trans hready.flagged
  have hbound := h.left.trans hready.bound
  have hserializable := (h.serializable_iff hform hready.wrapped hsized.inputs hsized.outputs).mpr
    ⟨hready.rest, hready.records⟩
  obtain ⟨x, hx⟩ := (midnightBytes_serializable draw hflagged).mpr hserializable
  obtain ⟨out, hout⟩ := serializeTransaction_midnightBytes.mpr
    ⟨x, hx, serializeRawMidnightTx_returns (hsized.bytes x hx)⟩
  obtain ⟨stx, found, foundIntent, signed, hs, hd, hr, hget, hc, hsigned, hin, hout', ⟨entry, hmem, hsegment, hslot,
    hsignature⟩, hsigner⟩ := serializeTransaction_segment hflagged hthere h.segments h.segment h.present hout
  refine ⟨out, stx, found, foundIntent, offer, signed, _, hout, h.zeroOffer, hs, hd, ?_, hsigned, hin, hout', ?_, hr, ?_⟩
  · rw [h.key]
    exact hget
  · rw [h.key]
    obtain ⟨hkey, hmade⟩ := hsigner entry hmem hsegment hslot
    exact ⟨entry, hmem, hsegment, hslot, hsignature, routedSigner wallet offer, routedSigner_wallet wallet offer,
      h.routed_iff.mpr hready.routed, hkey, hmade⟩
  · rw [hc, hbound, h.fee hin hout', h.used]

end Settled

end Handover

end DAppConnector

end Noxipher
