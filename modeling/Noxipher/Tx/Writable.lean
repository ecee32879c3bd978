import Noxipher.Tx.CompactIntegers
import Noxipher.Tx.SegmentZero

namespace Noxipher

open PrefixCode

/-- A length that a Python object can have is written. -/
theorem encodeCount_returns {n : Nat} (h : n < 2^63) : ∃ x, encodeScaleInt n = .ok x := by
  obtain ⟨form, -, hwritten, -⟩ := encodeScaleInt_form n (h.trans (by decide))
  exact ⟨_, hwritten⟩

theorem taggedSerialize_returns {tag : String} (h : (encodeStr tag).length < 2^63) (payload : Bytes) :
    ∃ x, taggedSerialize tag payload = .ok x := by
  obtain ⟨c, hc⟩ := encodeCount_returns h
  rw [taggedSerialize, gather_returns_iff]
  simp only [List.forall_mem_cons]
  exact ⟨⟨c, hc⟩, ⟨_, rfl⟩, ⟨payload, rfl⟩, by simp⟩

theorem serializeVec_returns_iff {α : Type} {item : α → Except PyError Bytes} {items : List α} :
    (∃ x, serializeVec item items = .ok x) ↔
      (∃ c, encodeScaleInt items.length = .ok c) ∧ ∀ a ∈ items, ∃ y, item a = .ok y := by
  rw [serializeVec, gather_returns_iff]
  simp only [List.forall_mem_cons, gather_returns_iff, List.forall_mem_map]
  constructor
  · intro h
    exact ⟨h.1, h.2.1⟩
  · intro h
    exact ⟨h.1, h.2, by simp⟩

/-- Items appended to a list that is written have to be written, too; the count is no obstacle. -/
theorem serializeVec_append_iff {α : Type} {item : α → Except PyError Bytes} {items more : List α}
    (h : (items++more).length < 2^63) :
    (∃ x, serializeVec item (items++more) = .ok x) ↔
      (∃ x, serializeVec item items = .ok x) ∧ ∀ a ∈ more, ∃ y, item a = .ok y := by
  have hfirst : items.length < 2^63 := by
    rw [List.length_append] at h
    omega
  simp only [serializeVec_returns_iff, encodeCount_returns h, encodeCount_returns hfirst, true_and,
    List.forall_mem_append]

/-- The keys are sorted as soon as each of them is a number. -/
theorem sortedByInt_returns_iff {ν : Type} {d : Dict IntLike ν} :
    (∃ l, sortedByInt d = .ok l) ↔ ∀ p ∈ d.entries, ∃ seg_id, p.1.toInt = .ok seg_id := by
  constructor
  · intro ⟨l, hl⟩ p hp
    obtain ⟨keyed, hkeyed, -⟩ := bind_ok_iff.mp hl
    obtain ⟨q, -, hq⟩ := traverse_all hkeyed p hp
    obtain ⟨seg_id, hid, -⟩ := bind_ok_iff.mp hq
    exact ⟨seg_id, hid⟩
  · intro h
    have hkeyed := traverse_eq_map (fun (p : IntLike × ν) => p.1.toInt >>= fun seg_id => .ok (seg_id, p.2))
      (fun p => (p.1.toInt.toOption.getD 0, p.2)) d.entries (by
        intro p hp
        obtain ⟨seg_id, hid⟩ := h p hp
        rw [hid]
        rfl)
    exact ⟨_, bind_ok_iff.mpr ⟨_, hkeyed, rfl⟩⟩

theorem mem_sortedByInt {ν : Type} {d : Dict IntLike ν} {l : List (Int × ν)} (h : sortedByInt d = .ok l)
    {seg_id : Int} {v : ν} : (seg_id, v) ∈ l ↔ ∃ p ∈ d.entries, p.1.toInt = .ok seg_id ∧ p.2 = v := by
  obtain ⟨keyed, rfl, hkeyed⟩ := sortedByInt_ok h
  have hmem : (Except.ok seg_id, v) ∈ keyed.map (fun p => ((Except.ok p.1 : Except PyError Int), p.2)) ↔
      (seg_id, v) ∈ keyed := by simp
  rw [(sortOn_perm _ _).mem_iff, ← hmem, hkeyed, List.mem_map]
  simp only [Prod.mk.injEq]

/-- A map from segment ids is written when its count, every id and every value are. -/
theorem serializeSegments_returns_iff {ν : Type} {item : ν → Except PyError Bytes} {d : Dict IntLike ν} :
    (∃ x, serializeSegments item d = .ok x) ↔
      (∃ c, encodeScaleInt d.entries.length = .ok c) ∧
      ∀ p ∈ d.entries, ∃ seg_id, p.1.toInt = .ok seg_id ∧ (∃ x, serializeU32 seg_id = .ok x) ∧
        ∃ y, item p.2 = .ok y := by
  have hpair (q : Int × ν) : (∃ z, gather [serializeU32 q.1, item q.2] = .ok z) ↔
      (∃ x, serializeU32 q.1 = .ok x) ∧ ∃ y, item q.2 = .ok y := by
    rw [gather_returns_iff]
    simp
  unfold serializeSegments
  rw [bind_returns_iff]
  constructor
  · intro ⟨c, hc, x, h⟩
    obtain ⟨l, hl, h⟩ := bind_ok_iff.mp h
    refine ⟨⟨c, hc⟩, ?_⟩
    intro p hp
    obtain ⟨seg_id, hid⟩ := sortedByInt_returns_iff.mp ⟨l, hl⟩ p hp
    have hall := gather_returns_iff.mp ⟨x, h⟩
    rw [List.forall_mem_cons, List.forall_mem_map] at hall
    have hentry := hall.2 _ ((mem_sortedByInt hl).mpr ⟨p, hp, hid, rfl⟩)
    obtain ⟨hu32, hitem⟩ := (hpair (seg_id, p.2)).mp hentry
    exact ⟨seg_id, hid, hu32, hitem⟩
  · intro ⟨⟨c, hc⟩, h⟩
    have hsorted : ∃ l, sortedByInt d = .ok l := by
      apply sortedByInt_returns_iff.mpr
      intro p hp
      obtain ⟨seg_id, hid, -⟩ := h p hp
      exact ⟨seg_id, hid⟩
    obtain ⟨l, hl⟩ := hsorted
    refine ⟨c, hc, ?_⟩
    rw [hl, ok_bind, gather_returns_iff, List.forall_mem_cons, List.forall_mem_map]
    refine ⟨⟨c, rfl⟩, ?_⟩
    intro q hq
    obtain ⟨p, hp, hid, hvalue⟩ := (mem_sortedByInt hl).mp hq
    obtain ⟨n, hn, hu32, hitem⟩ := h p hp
    rw [hid] at hn
    cases hn
    rw [hvalue] at hitem
    exact (hpair q).mpr ⟨hu32, hitem⟩

theorem structPack_returns_iff {n : Nat} {val : Int} : (∃ x, structPack n val = .ok x) ↔ 0 ≤ val ∧ val < 256^n := by
  constructor
  · intro ⟨x, h⟩
    obtain ⟨hleast, hmost, -⟩ := structPack_ok h
    exact ⟨hleast, hmost⟩
  · intro h
    exact ⟨_, if_pos h⟩

theorem serializeU32_returns_iff {val : Int} : (∃ x, serializeU32 val = .ok x) ↔ 0 ≤ val ∧ val < 2^32 := by
  rw [serializeU32, structPack_returns_iff]
  norm_num

/-- The high half fits its field exactly when the whole does; the low half always fits. -/
theorem serializeU128_returns_iff {val : Int} : (∃ x, serializeU128 val = .ok x) ↔ 0 ≤ val ∧ val < 2^128 := by
  rw [serializeU128, gather_returns_iff]
  simp only [List.forall_mem_cons, structPack_returns_iff, List.not_mem_nil, false_imp_iff, implies_true, and_true]
  omega

theorem serializeUtxoSpend_returns_iff {spend : UtxoSpend} :
    (∃ x, serializeUtxoSpend spend = .ok x) ↔ (∃ x, serializeU128 spend.value = .ok x) ∧
      (∃ x, byteOf spend.type_ = .ok x) ∧ ∃ x, serializeU32 spend.output_no = .ok x := by
  unfold serializeUtxoSpend
  rw [gather_returns_iff]
  simp

theorem serializeUtxoOutput_returns_iff {output : UtxoOutput} :
    (∃ x, serializeUtxoOutput output = .ok x) ↔ (∃ x, serializeU128 output.value = .ok x) ∧
      ∃ x, byteOf output.type_ = .ok x := by
  unfold serializeUtxoOutput
  rw [gather_returns_iff]
  simp

theorem serializeUnshieldedOffer_returns_iff {offer : UnshieldedOffer} :
    (∃ x, serializeUnshieldedOffer offer = .ok x) ↔
      (∃ inputs, offer.inputs = some inputs ∧ ∃ x, serializeVec serializeUtxoSpend inputs = .ok x) ∧
      (∃ outputs, offer.outputs = some outputs ∧ ∃ x, serializeVec serializeUtxoOutput outputs = .ok x) ∧
      ∃ x, serializeVec .ok (offer.signatures.getD []) = (.ok x : Except PyError Bytes) := by
  unfold serializeUnshieldedOffer
  rw [gather_returns_iff]
  simp [bind_returns_iff, required_ok_iff]

namespace TransactionBuilder

/-- The segment id fits its field, and the intent can be serialized. -/
def SegmentFits (p : IntLike × Intent) : Prop :=
  ∃ seg_id, p.1.toInt = .ok seg_id ∧ ∃ payload, getUnshieldedSigningPayload seg_id p.2 = .ok payload

/-- Whatever serialization still has to sign and to write can be signed and written. -/
structure Writable (wallet : MidnightWallet) (stx : StandardTransaction) (intents : Dict IntLike Intent) : Prop where
  network : ∃ net x, stx.network_id = some net ∧ serializeBytes (encodeStr net) = .ok x
  count : ∃ x, encodeScaleInt intents.entries.length = .ok x
  segments : ∀ p ∈ intents.entries, SegmentFits p
  signers : ∀ a ∈ assignments wallet none intents.entries, a.signer.isSome
  coins : ∃ x, serializeSegments serializeZswapOffer (stx.fallible_coins.getD Dict.empty) = .ok x

/-- The bytes that are wrapped for the pallet. -/
def midnightBytes (network_id : String) (rnd : Bytes) (wallet : MidnightWallet) (draw : Nat) (tx_data : TxData) :
    Except PyError Bytes := do
  let tx_data ← prepareStandard network_id tx_data
  let tx_data ← bindRandomness rnd tx_data
  let signed ← signTransaction wallet draw tx_data
  let stx ← required "standard" signed.1.standard
  serializeStandardTransaction stx

theorem segmentFits_iff {p : IntLike × Intent} :
    SegmentFits p ↔ ∃ seg_id, p.1.toInt = .ok seg_id ∧ (∃ x, serializeU32 seg_id = .ok x) ∧
      ∃ y, serializeIntent p.2 = .ok y := by
  simp only [SegmentFits, signingPayload_returns_iff]

/-- A payload that exists still does after a slot was signed. -/
theorem signed_payload {slot : OfferSlot} {key : IntLike} {seg_id : Int} {before after : Intent}
    {records : List SignRecord} {x : Bytes} (h : SlotSigned slot key seg_id before after records)
    (hpayload : getUnshieldedSigningPayload seg_id before = .ok x) :
    ∃ y, getUnshieldedSigningPayload seg_id after = .ok y := by
  cases h with
  | absent => exact ⟨x, hpayload⟩
  | signed r hslot => exact signingPayload_signed r.signature hslot hpayload

theorem step_fits_after {s : SegmentStep} (h : SegmentFits (s.key, s.before)) : SegmentFits (s.key, s.after) := by
  obtain ⟨seg_id, hkey, x, hpayload⟩ := h
  have hsame : s.seg_id = seg_id := Except.ok.inj (s.parsed.symm.trans hkey)
  rw [← hsame] at hpayload
  obtain ⟨y, hy⟩ := signed_payload s.first hpayload
  exact ⟨s.seg_id, s.parsed, signed_payload s.second hy⟩

/-- A step that signed had a payload; one that did not left the segment as it was. -/
theorem step_fits_before {s : SegmentStep} (h : SegmentFits (s.key, s.after)) : SegmentFits (s.key, s.before) := by
  cases hr : s.records with
  | nil =>
    have hidle := s.nothingToSign_of_records hr
    obtain ⟨key, seg_id, before, between, after, guaranteed, fallible, hparsed, hfirst, hsecond⟩ := s
    cases hfirst with
    | absent =>
      cases hsecond with
      | absent => exact h
      | signed r hslot =>
        rw [hidle .fallible] at hslot
        cases hslot
    | signed r hslot =>
      rw [hidle .guaranteed] at hslot
      cases hslot
  | cons r rest => exact ⟨s.seg_id, s.parsed, r.payload, s.head_payload hr⟩

theorem serializeStandardTransaction_returns_iff {stx : StandardTransaction} {intents : Dict IntLike Intent}
    (hintents : stx.intents = some intents) :
    (∃ x, serializeStandardTransaction stx = .ok x) ↔
      (∃ net x, stx.network_id = some net ∧ serializeBytes (encodeStr net) = .ok x) ∧
      (∃ x, serializeSegments serializeIntent intents = .ok x) ∧
      (∃ x, serializeSegments serializeZswapOffer (stx.fallible_coins.getD Dict.empty) = .ok x) ∧
      stx.binding_randomness.isSome := by
  have htag (payload : Bytes) : ∃ x, taggedSerialize "standard-tx[v1]" payload = .ok x :=
    taggedSerialize_returns (by decide) payload
  have hnetwork : (∃ x, (required "network_id" stx.network_id >>= fun net => serializeBytes (encodeStr net)) = .ok x) ↔
      ∃ net x, stx.network_id = some net ∧ serializeBytes (encodeStr net) = .ok x := by
    simp only [bind_returns_iff, required_ok_iff, exists_and_left]
  have hrandomness : (∃ x, required "binding_randomness" stx.binding_randomness = .ok x) ↔
      stx.binding_randomness.isSome := by
    simp only [required_ok_iff, Option.isSome_iff_exists]
  unfold serializeStandardTransaction
  rw [bind_returns_iff]
  simp only [htag, and_true, gather_returns_iff, List.forall_mem_cons, hintents, required_some, ok_bind, hnetwork,
    hrandomness]
  simp

section Run

variable {network_id : String} {rnd : Bytes} {wallet : MidnightWallet} {draw : Nat} {tx_data ready : TxData}
  {stx : StandardTransaction} {intents : Dict IntLike Intent}

theorem serializeRawMidnightTx_returns {x : Bytes} (h : x.length < 2^63) : ∃ y, serializeRawMidnightTx x = .ok y := by
  obtain ⟨c, hc⟩ := encodeCount_returns h
  rw [serializeRawMidnightTx, gather_returns_iff]
  simp only [List.forall_mem_cons]
  exact ⟨⟨_, rfl⟩, ⟨c, hc⟩, ⟨x, rfl⟩, by simp⟩

theorem serializeTransaction_midnightBytes :
    (∃ out, serializeTransaction network_id rnd wallet draw tx_data = .ok out) ↔
      ∃ x, midnightBytes network_id rnd wallet draw tx_data = .ok x ∧ ∃ y, serializeRawMidnightTx x = .ok y := by
  unfold serializeTransaction midnightBytes
  simp only [bind_ok_iff, pure_ok]
  constructor
  · intro ⟨_, t1, h1, t2, h2, signed, h3, stx, hs, x, hx, y, hy, _⟩
    exact ⟨x, ⟨t1, h1, t2, h2, signed, h3, stx, hs, hx⟩, y, hy⟩
  · intro ⟨x, ⟨t1, h1, t2, h2, signed, h3, stx, hs, hx⟩, y, hy⟩
    exact ⟨_, t1, h1, t2, h2, signed, h3, stx, hs, x, hx, y, hy, rfl⟩

/-- After step 1 the randomness is there. -/
theorem bindRandomness_set {t : TxData} (h : bindRandomness rnd tx_data = .ok t) (hs : t.standard = some stx) :
    stx.binding_randomness.isSome := by
  rcases bindRandomness_cases h with ⟨rfl, hset⟩ | ⟨stx', d, -, -, rfl⟩
  · cases hr : stx.binding_randomness with
    | none =>
      have hne := hset stx hs
      rw [hr] at hne
      exact absurd rfl hne
    | some r => rfl
  · cases hs
    rfl

/-- Behind steps 0 and 1 there are bytes exactly when the signing loop ends and leaves what can be written. -/
theorem midnightBytes_loop (draw : Nat) (hreach : ReachesSigning network_id rnd tx_data ready stx intents) :
    (∃ x, midnightBytes network_id rnd wallet draw tx_data = .ok x) ↔
      ∃ st, signLoop wallet draw intents.entries { intents := intents } = .ok st ∧
        ∃ x, serializeStandardTransaction { stx with intents := some st.intents } = .ok x := by
  obtain ⟨t, hprepare, hbind⟩ := hreach.stages
  unfold midnightBytes
  rw [hprepare, ok_bind, hbind, ok_bind, signTransaction_loop wallet draw hreach.flag hreach.standard hreach.segments,
    bind_returns_iff]
  constructor
  · intro ⟨signed, hsigned, x, hx⟩
    obtain ⟨st, hst, h⟩ := bind_ok_iff.mp hsigned
    cases h
    exact ⟨st, hst, x, hx⟩
  · intro ⟨st, hst, x, hx⟩
    rw [hst, ok_bind]
    exact ⟨_, rfl, x, hx⟩

/-- A transaction that reaches the signing loop is signed and written exactly when all of it can be. -/
theorem midnightBytes_returns_iff (draw : Nat) (hreach : ReachesSigning network_id rnd tx_data ready stx intents) :
    (∃ x, midnightBytes network_id rnd wallet draw tx_data = .ok x) ↔ Writable wallet stx intents := by
  obtain ⟨t, -, hbind⟩ := hreach.stages
  have hset := bindRandomness_set hbind hreach.standard
  rw [midnightBytes_loop draw hreach]
  constructor
  · intro ⟨st, hst, hx⟩
    obtain ⟨steps, hbefore, hafter, -⟩ := signLoop_ok (List.nil_append intents.entries).symm hst
    obtain ⟨records, -, hmade⟩ := signLoop_made hst
    obtain ⟨hnet, hsegments, hcoins, -⟩ := (serializeStandardTransaction_returns_iff rfl).mp hx
    obtain ⟨hcount, hfits⟩ := serializeSegments_returns_iff.mp hsegments
    rw [List.nil_append] at hafter
    rw [hafter] at hcount hfits
    constructor
    · exact hnet
    · rw [← hbefore, List.length_map]
      rw [List.length_map] at hcount
      exact hcount
    · intro p hp
      rw [← hbefore] at hp
      obtain ⟨s, hs, rfl⟩ := List.mem_map.mp hp
      apply step_fits_before
      apply segmentFits_iff.mpr
      exact hfits _ (List.mem_map.mpr ⟨s, hs, rfl⟩)
    · intro a ha
      obtain ⟨r, -, -, signer, hsigner, -⟩ := forall₂_mem_left hmade ha
      rw [hsigner]
      rfl
    · exact hcoins
  · intro hw
    have hready : ∀ p ∈ intents.entries, Signable p := by
      intro p hp
      obtain ⟨seg_id, hkey, hpayload⟩ := hw.segments p hp
      exact ⟨seg_id, hkey, Or.inr hpayload⟩
    obtain ⟨st, hst⟩ := signLoop_runs draw { intents := intents } hready hw.signers
    obtain ⟨steps, hbefore, hafter, -⟩ := signLoop_ok (List.nil_append intents.entries).symm hst
    rw [List.nil_append] at hafter
    refine ⟨st, hst, ?_⟩
    rw [serializeStandardTransaction_returns_iff rfl, serializeSegments_returns_iff]
    refine ⟨hw.network, ⟨?_, ?_⟩, hw.coins, hset⟩
    · have hcount := hw.count
      rw [← hbefore, List.length_map] at hcount
      rw [hafter, List.length_map]
      exact hcount
    · intro p hp
      rw [hafter] at hp
      obtain ⟨s, hs, rfl⟩ := List.mem_map.mp hp
      apply segmentFits_iff.mp
      apply step_fits_after
      apply hw.segments
      rw [← hbefore]
      exact List.mem_map.mpr ⟨s, hs, rfl⟩

end Run

/-- The transaction with another guaranteed offer in one of its segments. -/
def withOffer (key : IntLike) (offer : UnshieldedOffer) (tx_data : TxData) : TxData :=
  { tx_data with standard := tx_data.standard.map (fun stx => { stx with
      intents := stx.intents.map (fun intents => intents.modify key (OfferSlot.guaranteed.write offer)) }) }

section Replace

variable {network_id : String} {rnd : Bytes} {wallet : MidnightWallet} {tx_data ready t : TxData}
  {stx : StandardTransaction} {intents : Dict IntLike Intent} {key : IntLike} {offer : UnshieldedOffer}

theorem withOffer_standard (key : IntLike) (offer : UnshieldedOffer) (hs : tx_data.standard = some stx)
    (hd : stx.intents = some intents) :
    (withOffer key offer tx_data).standard = some { stx with
      intents := some (intents.modify key (OfferSlot.guaranteed.write offer)) } := by
  rw [withOffer, hs, Option.map_some, hd, Option.map_some]

/-- The later of two offers stays. -/
theorem withOffer_withOffer (key : IntLike) (offer other : UnshieldedOffer) (tx_data : TxData) :
    withOffer key other (withOffer key offer tx_data) = withOffer key other tx_data := by
  simp only [withOffer, Option.map_map, Function.comp_def, Dict.modify_modify]
  rfl

/-- Step 0 does not look at the offers. -/
theorem prepareStandard_withOffer (key : IntLike) (offer : UnshieldedOffer) (hs : tx_data.standard = some stx)
    (h : prepareStandard network_id tx_data = .ok t) :
    prepareStandard network_id (withOffer key offer tx_data) = .ok (withOffer key offer t) := by
  have hstart : standardOrPlaceholder network_id tx_data = stx := by
    rw [standardOrPlaceholder, hs, Option.getD_some]
  have hwritten : standardOrPlaceholder network_id (withOffer key offer tx_data) = { stx with
      intents := stx.intents.map (fun intents => intents.modify key (OfferSlot.guaranteed.write offer)) } := by
    rw [standardOrPlaceholder, withOffer, hs, Option.map_some, Option.getD_some]
  have htype : (withOffer key offer tx_data).type = tx_data.type := rfl
  by_cases haction : tx_data.type = some "contract_deploy" ∨ tx_data.type = some "contract_call"
  · obtain ⟨d, found, action, hd, hfound, hact, rfl⟩ := prepareStandard_action haction h
    rw [hstart] at hd ⊢
    have hact' : contractAction (withOffer key offer tx_data) = .ok action := hact
    have hthere : ∃ written, (d.modify key (OfferSlot.guaranteed.write offer)).get? (.str "0") = some written := by
      rw [Dict.get?_modify, hfound]
      split_ifs
      · exact ⟨_, rfl⟩
      · exact ⟨found, rfl⟩
    obtain ⟨written, hget⟩ := hthere
    have hcomm := d.modify_comm key (.str "0") (f := OfferSlot.guaranteed.write offer)
      (g := fun intent => { intent with actions := some [action] }) (fun v => rfl)
    rw [prepareStandard, htype, if_pos haction, hwritten, hact', ok_bind]
    simp only [hd, Option.map_some, required_some, ok_bind, updateSegmentZero, hget, pure_ok, hcomm]
    rfl
  · by_cases hoffer : tx_data.type = some "shielded_transfer"
    · obtain ⟨coins, hcoins, rfl⟩ := prepareStandard_offer haction hoffer h
      rw [hstart]
      have hcoins' : zswapOfferOf (withOffer key offer tx_data) = .ok coins := hcoins
      rw [prepareStandard, htype, if_neg haction, if_pos hoffer, hwritten, hcoins', ok_bind]
      rfl
    · rw [prepareStandard, if_neg haction, if_neg hoffer] at h
      cases h
      rw [prepareStandard, htype, if_neg haction, if_neg hoffer]

/-- Neither does step 1. -/
theorem bindRandomness_withOffer (key : IntLike) (offer : UnshieldedOffer) (hs : tx_data.standard = some stx)
    (hd : stx.intents = some intents) (h : bindRandomness rnd tx_data = .ok t) :
    bindRandomness rnd (withOffer key offer tx_data) = .ok (withOffer key offer t) := by
  have hs' := withOffer_standard key offer hs hd
  by_cases hz : stx.binding_randomness.getD (List.replicate 32 0) = List.replicate 32 0
  · rw [bindRandomness_fresh hs hd hz] at h
    cases h
    have hcomm := intents.modify_comm key (.str "0") (f := OfferSlot.guaranteed.write offer)
      (g := setCommitment (computeBindingCommitment rnd (tx_data.fee.getD 0))) (fun v => rfl)
    rw [bindRandomness_fresh hs' rfl hz]
    simp only [withOffer, Option.map_some, ← hcomm]
  · rw [bindRandomness_kept hs hz] at h
    cases h
    exact bindRandomness_kept hs' hz

theorem ReachesSigning.withOffer (key : IntLike) (offer : UnshieldedOffer) {given : StandardTransaction}
    (hs : tx_data.standard = some given) (hreach : ReachesSigning network_id rnd tx_data ready stx intents) :
    ReachesSigning network_id rnd (withOffer key offer tx_data) (withOffer key offer ready)
      { stx with intents := some (intents.modify key (OfferSlot.guaranteed.write offer)) }
      (intents.modify key (OfferSlot.guaranteed.write offer)) := by
  obtain ⟨t, hprepare, hbind⟩ := hreach.stages
  obtain ⟨found, d, hfound, hd, -⟩ := bindRandomness_offers hbind hreach.standard hreach.segments
  constructor
  · exact ⟨_, prepareStandard_withOffer key offer hs hprepare, bindRandomness_withOffer key offer hfound hd hbind⟩
  · exact hreach.flag
  · exact withOffer_standard key offer hreach.standard hreach.segments
  · rfl

/-- Two segments whose guaranteed offers are both there or both missing, with one fallible offer. -/
def SameSlots (p q : IntLike × Intent) : Prop :=
  (present p.2.guaranteed_unshielded_offer).isSome = (present q.2.guaranteed_unshielded_offer).isSome ∧
    p.2.fallible_unshielded_offer = q.2.fallible_unshielded_offer

/-- Whether every offer has a signer depends on which offers are there. -/
theorem signers_congr {entries others : List (IntLike × Intent)} (h : List.Forall₂ SameSlots entries others)
    {signer other : Option Sr25519Signer} (hsigner : signer.isSome → other.isSome)
    (hall : ∀ a ∈ assignments wallet signer entries, a.signer.isSome) :
    ∀ a ∈ assignments wallet other others, a.signer.isSome := by
  induction h generalizing signer other with
  | nil => simp [assignments]
  | @cons p q entries others hpq _ ih =>
    obtain ⟨key, intent⟩ := p
    obtain ⟨key', intent'⟩ := q
    obtain ⟨hguaranteed, hfallible⟩ := hpq
    have hnext : (nextSigner wallet signer intent).isSome → (nextSigner wallet other intent').isSome := by
      unfold nextSigner
      cases hg' : present intent'.guaranteed_unshielded_offer with
      | some offer => exact fun _ => rfl
      | none =>
        have hg : present intent.guaranteed_unshielded_offer = none := by
          simpa [hg'] using hguaranteed
        rw [hg]
        exact hsigner
    intro a ha
    rcases List.mem_append.mp ha with hhere | hrest
    · rcases List.mem_append.mp hhere with hg | hf
      · rw [(mem_guaranteedAssignment hg).2.2]
        rfl
      · obtain ⟨-, ho, hlast⟩ := mem_fallibleAssignment hf
        rw [hlast]
        apply hnext
        apply hall ⟨key, .fallible, a.offer, nextSigner wallet signer intent⟩
        apply List.mem_append_left _ (List.mem_append_right _ _)
        refine List.mem_map.mpr ⟨a.offer, Option.mem_toList.mpr ?_, rfl⟩
        rw [show intent.fallible_unshielded_offer = _ from hfallible]
        exact ho
    · exact ih hnext (fun b hb => hall b (List.mem_append_right _ hb)) a hrest

/-- An offer that is there can be replaced by one that fits. -/
theorem Writable.withOffer {intent : Intent} (h : Writable wallet stx intents) (hget : intents.get? key = some intent)
    (hthere : (present intent.guaranteed_unshielded_offer).isSome) (hoffer : offer.truthy = true)
    (hfits : ∃ x, serializeUnshieldedOffer offer = .ok x) :
    Writable wallet { stx with intents := some (intents.modify key (OfferSlot.guaranteed.write offer)) }
      (intents.modify key (OfferSlot.guaranteed.write offer)) := by
  have hentries := intents.entries_modify key (OfferSlot.guaranteed.write offer)
  have hpresent : present (some offer) = some offer := by
    rw [present, Option.filter_some, if_pos hoffer]
  constructor
  · exact h.network
  · rw [hentries, List.length_map]
    exact h.count
  · intro q hq
    rw [hentries] at hq
    obtain ⟨p, hp, rfl⟩ := List.mem_map.mp hq
    obtain ⟨seg_id, hkey, x, hpayload⟩ := h.segments p hp
    refine ⟨seg_id, hkey, ?_⟩
    dsimp only
    split_ifs
    · obtain ⟨hid, hintent⟩ := signingPayload_returns_iff.mp ⟨x, hpayload⟩
      obtain ⟨-, hrest⟩ := serializeIntent_returns_iff.mp hintent
      refine signingPayload_returns_iff.mpr ⟨hid, serializeIntent_returns_iff.mpr ⟨?_, hrest⟩⟩
      apply serializeOptionalOffer_returns_iff.mpr
      intro found hfound
      have hsame : some offer = some found := hpresent.symm.trans hfound
      rw [← Option.some.inj hsame]
      exact hfits
    · exact ⟨x, hpayload⟩
  · refine signers_congr ?_ (fun hnone => hnone) h.signers
    rw [hentries, List.forall₂_map_right_iff]
    apply List.forall₂_same.mpr
    intro p hp
    by_cases hkey : p.1 = key
    · have hthis : p.2 = intent := by
        have hp' := intents.get?_of_mem (k := p.1) (v := p.2) hp
        rw [hkey, hget] at hp'
        exact (Option.some.inj hp').symm
      rw [if_pos hkey]
      refine ⟨?_, rfl⟩
      show _ = (present (some offer)).isSome
      rw [hthis, hthere, hpresent]
      rfl
    · rw [if_neg hkey]
      exact ⟨rfl, rfl⟩
  · exact h.coins

end Replace

/-- Serialization gets to the signing loop, with segments that can be signed and written. -/
def Serializable (network_id : String) (rnd : Bytes) (wallet : MidnightWallet) (tx_data : TxData) : Prop :=
  ∃ ready stx intents, ReachesSigning network_id rnd tx_data ready stx intents ∧ Writable wallet stx intents

section Serializable

variable {network_id : String} {rnd : Bytes} {wallet : MidnightWallet} {tx_data ready : TxData}
  {stx given : StandardTransaction} {intents d : Dict IntLike Intent} {key : IntLike} {intent : Intent}
  {offer other : UnshieldedOffer}

/-- A transaction that asks for signatures gives bytes exactly when it is serializable. -/
theorem midnightBytes_serializable (draw : Nat) (hflag : tx_data.requires_unshielded_signature = some true) :
    (∃ x, midnightBytes network_id rnd wallet draw tx_data = .ok x) ↔ Serializable network_id rnd wallet tx_data := by
  constructor
  · intro ⟨x, h⟩
    have hstages := h
    unfold midnightBytes at hstages
    obtain ⟨t1, h1, hstages⟩ := bind_ok_iff.mp hstages
    obtain ⟨t2, h2, hstages⟩ := bind_ok_iff.mp hstages
    obtain ⟨signed, h3, -⟩ := bind_ok_iff.mp hstages
    have hflag2 : t2.requires_unshielded_signature = some true := by
      rw [bindRandomness_flag h2, prepareStandard_flag h1, hflag]
    obtain ⟨stx, d, -, -, hs, hd, -⟩ := signTransaction_ok hflag2 h3
    have hreach : ReachesSigning network_id rnd tx_data t2 stx d := ⟨⟨t1, h1, h2⟩, hflag2, hs, hd⟩
    exact ⟨t2, stx, d, hreach, (midnightBytes_returns_iff draw hreach).mp ⟨x, h⟩⟩
  · intro ⟨ready, stx, intents, hreach, hwritable⟩
    exact (midnightBytes_returns_iff draw hreach).mpr hwritable

/-- The loop finds the guaranteed offer that was given. -/
theorem ReachesSigning.offer_kept (hreach : ReachesSigning network_id rnd tx_data ready stx intents)
    (hs : tx_data.standard = some given) (hd : given.intents = some d) (hzero : ZeroSegment d key intent) :
    ∃ found, intents.get? key = some found ∧
      found.guaranteed_unshielded_offer = intent.guaranteed_unshielded_offer := by
  obtain ⟨t, hprepare, hbind⟩ := hreach.stages
  obtain ⟨stx1, d1, intent1, hs1, hd1, -, -, hzero1, hg1, -⟩ := prepareStandard_segment hs hd hzero hprepare
  obtain ⟨stx2, d2, intent2, hs2, hd2, -, hget2, hg2, -⟩ := bindRandomness_segment hs1 hd1 hzero1 hbind
  rw [hreach.standard] at hs2
  cases hs2
  rw [hreach.segments] at hd2
  cases hd2
  exact ⟨intent2, hget2, hg2.trans hg1⟩

theorem Serializable.offer_fits (h : Serializable network_id rnd wallet tx_data) (hs : tx_data.standard = some given)
    (hd : given.intents = some d) (hzero : ZeroSegment d key intent)
    (ho : present intent.guaranteed_unshielded_offer = some offer) : ∃ x, serializeUnshieldedOffer offer = .ok x := by
  obtain ⟨ready, stx, intents, hreach, hwritable⟩ := h
  obtain ⟨found, hget, hkept⟩ := hreach.offer_kept hs hd hzero
  obtain ⟨seg_id, -, x, hpayload⟩ := hwritable.segments (key, found) (intents.mem_of_get? hget)
  obtain ⟨-, hintent⟩ := signingPayload_returns_iff.mp ⟨x, hpayload⟩
  obtain ⟨hguaranteed, -⟩ := serializeIntent_returns_iff.mp hintent
  apply serializeOptionalOffer_returns_iff.mp hguaranteed
  show present found.guaranteed_unshielded_offer = some offer
  rw [hkept, ho]

/-- With another offer that fits in the place of the one given it stays serializable. -/
theorem Serializable.withOffer (h : Serializable network_id rnd wallet tx_data) (hs : tx_data.standard = some given)
    (hd : given.intents = some d) (hzero : ZeroSegment d key intent)
    (ho : present intent.guaranteed_unshielded_offer = some offer) (hother : other.truthy = true)
    (hfits : ∃ x, serializeUnshieldedOffer other = .ok x) :
    Serializable network_id rnd wallet (withOffer key other tx_data) := by
  obtain ⟨ready, stx, intents, hreach, hwritable⟩ := h
  obtain ⟨found, hget, hkept⟩ := hreach.offer_kept hs hd hzero
  refine ⟨_, _, _, hreach.withOffer key other hs, hwritable.withOffer hget ?_ hother hfits⟩
  rw [hkept, ho]
  rfl

end Serializable

end TransactionBuilder

end Noxipher
