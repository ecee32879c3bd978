import Noxipher.Tx.Outputs
import Noxipher.Tx.Serialize

namespace Noxipher

open Greedy

/-- An intent dictionary without fields is falsy. -/
def Intent.truthy (intent : Intent) : Bool :=
  intent.guaranteed_unshielded_offer.isSome || intent.fallible_unshielded_offer.isSome || intent.ttl.isSome ||
    intent.actions.isSome || intent.binding_commitment.isSome

namespace StandardTransaction

/-- `intents.get("0") or intents.get(0)`, with the key it was found under. -/
def segmentZero (intents : Dict IntLike Intent) : Option (IntLike × Intent) :=
  match (intents.get? (.str "0")).filter Intent.truthy with
  | some intent => some (.str "0", intent)
  | none => ((intents.get? (.int 0)).filter Intent.truthy).map (fun intent => (.int 0, intent))

/-- Segment 0 with its key, when it is there and not empty. -/
def zeroSegment (stx : StandardTransaction) : Option (IntLike × Intent) := stx.intents.bind segmentZero

/-- The guaranteed offer of segment 0, when it is there and not empty. -/
def zeroOffer (stx : StandardTransaction) : Option UnshieldedOffer :=
  stx.intents.bind (fun intents => (segmentZero intents).bind (fun zero => present zero.2.guaranteed_unshielded_offer))

theorem segmentZero_get? {intents : Dict IntLike Intent} {key : IntLike} {intent : Intent}
    (h : segmentZero intents = some (key, intent)) : intents.get? key = some intent := by
  unfold segmentZero at h
  cases htext : (intents.get? (.str "0")).filter Intent.truthy with
  | some found =>
    rw [htext] at h
    cases h
    exact Option.eq_some_of_filter_eq_some htext
  | none =>
    rw [htext] at h
    obtain ⟨found, hfound, hpair⟩ := Option.map_eq_some_iff.mp h
    cases hpair
    exact Option.eq_some_of_filter_eq_some hfound

theorem zeroOffer_eq (stx : StandardTransaction) :
    stx.zeroOffer = stx.zeroSegment.bind (fun zero => present zero.2.guaranteed_unshielded_offer) := by
  unfold zeroOffer zeroSegment
  rw [Option.bind_assoc]

/-- The key is where segment 0 is looked for first, or nothing is found before it. -/
def ZeroKey (intents : Dict IntLike Intent) (key : IntLike) : Prop :=
  key = .str "0" ∨ key = .int 0 ∧ (intents.get? (.str "0")).filter Intent.truthy = none

theorem segmentZero_key {intents : Dict IntLike Intent} {key : IntLike} {intent : Intent}
    (h : segmentZero intents = some (key, intent)) : ZeroKey intents key := by
  unfold segmentZero at h
  cases htext : (intents.get? (.str "0")).filter Intent.truthy with
  | some found =>
    rw [htext] at h
    cases h
    exact Or.inl rfl
  | none =>
    rw [htext] at h
    obtain ⟨found, -, hpair⟩ := Option.map_eq_some_iff.mp h
    cases hpair
    exact Or.inr ⟨rfl, htext⟩

/-- A non-empty intent written under the key of segment 0 is found there. -/
theorem segmentZero_set {intents : Dict IntLike Intent} {key : IntLike} {intent : Intent}
    (hkey : ZeroKey intents key) (htruthy : intent.truthy = true) :
    segmentZero (intents.set key intent) = some (key, intent) := by
  unfold segmentZero
  rcases hkey with rfl | ⟨rfl, hnone⟩
  · rw [Dict.get?_set_self, Option.filter_some, if_pos htruthy]
  · rw [Dict.get?_set_ne _ _ (by decide), hnone, Dict.get?_set_self, Option.filter_some, if_pos htruthy]
    rfl

end StandardTransaction

/-- The dictionary a DApp passes: the keys of an envelope beside those of a bare standard transaction. -/
structure UnboundTx where
  tx_data : TxData := {}
  raw : StandardTransaction := {}

namespace UnboundTx

/-- `unbound_tx.get("standard", unbound_tx)` -/
def standard (unbound_tx : UnboundTx) : StandardTransaction := unbound_tx.tx_data.standard.getD unbound_tx.raw

/-- Write the intents where `standard` reads them. -/
def writeIntents (unbound_tx : UnboundTx) (intents : Dict IntLike Intent) : UnboundTx :=
  match unbound_tx.tx_data.standard with
  | some stx => { unbound_tx with
      tx_data := { unbound_tx.tx_data with standard := some { stx with intents := some intents } } }
  | none => { unbound_tx with raw := { unbound_tx.raw with intents := some intents } }

@[simp] theorem standard_writeIntents (unbound_tx : UnboundTx) (intents : Dict IntLike Intent) :
    (unbound_tx.writeIntents intents).standard = { unbound_tx.standard with intents := some intents } := by
  obtain ⟨tx_data, raw⟩ := unbound_tx
  cases hs : tx_data.standard with
  | some stx => simp only [writeIntents, standard, hs, Option.getD_some]
  | none => simp only [writeIntents, standard, hs, Option.getD_none]

theorem tx_data_writeIntents (unbound_tx : UnboundTx) (intents : Dict IntLike Intent) :
    (unbound_tx.writeIntents intents).tx_data = { unbound_tx.tx_data with
      standard := unbound_tx.tx_data.standard.map (fun stx => { stx with intents := some intents }) } := by
  obtain ⟨tx_data, raw⟩ := unbound_tx
  cases hs : tx_data.standard with
  | some stx => simp only [writeIntents, hs, Option.map_some]
  | none =>
    simp only [writeIntents, hs, Option.map_none]
    rw [← hs]

/-- In an envelope `standard` is what stands under its key. -/
theorem standard_of_isSome {unbound_tx : UnboundTx} (h : unbound_tx.tx_data.standard.isSome) :
    unbound_tx.tx_data.standard = some unbound_tx.standard := by
  obtain ⟨stx, hs⟩ := Option.isSome_iff_exists.mp h
  rw [standard, hs, Option.getD_some]

theorem isSome_writeIntents (unbound_tx : UnboundTx) (intents : Dict IntLike Intent) :
    (unbound_tx.writeIntents intents).tx_data.standard.isSome = unbound_tx.tx_data.standard.isSome := by
  rw [tx_data_writeIntents, Option.isSome_map]

/-- Writing the intents that are there changes nothing. -/
theorem writeIntents_self {unbound_tx : UnboundTx} {intents : Dict IntLike Intent}
    (h : unbound_tx.standard.intents = some intents) : unbound_tx.writeIntents intents = unbound_tx := by
  obtain ⟨tx_data, raw⟩ := unbound_tx
  unfold writeIntents
  cases hs : tx_data.standard with
  | some stx =>
    have hstx : stx.intents = some intents := by simpa [standard, hs] using h
    simp only [← hstx, ← hs]
  | none =>
    have hraw : raw.intents = some intents := by simpa [standard, hs] using h
    simp only [← hraw]

end UnboundTx

namespace UtxoRecord

/-- `utxo.get("token_type") or utxo.get("tokenType") or ("00" * 32)`, or the `hex` of an object; compared as it is. -/
def listedToken (utxo : UtxoRecord) : Option String :=
  match utxo.rawToken with
  | .obj fields => fields.getD "hex" (some zeroHex)
  | .str s => some s
  | .null => none

end UtxoRecord

namespace DAppConnector

/-- The objects that steps 1 and 2 leave for the rest: the intents, and of segment 0 its key, intent and offer. -/
structure Opened where
  intents : Dict IntLike Intent
  key : IntLike
  intent : Intent
  offer : UnshieldedOffer

/-- The intent written for a missing one. -/
def newIntent (ttl_seconds : Int) : Intent := { ttl := some ttl_seconds, actions := some [] }

/-- Steps 1 and 2: every level that is missing or empty is created. -/
def openZero (ttl_seconds : Int) (stx : StandardTransaction) : Opened :=
  let intents := (stx.intents.filter (fun intents => intents.entries ≠ [])).getD
    (Dict.ofList [(.str "0", newIntent ttl_seconds)])
  let zero := (StandardTransaction.segmentZero intents).getD (.str "0", newIntent ttl_seconds)
  { intents := intents
    key := zero.1
    intent := zero.2
    offer := (present zero.2.guaranteed_unshielded_offer).getD ⟨some [], some [], some []⟩ }

/-- Segment 0 is worked on where it was found, or under "0" when it was not. -/
theorem openZero_zeroSegment (ttl_seconds : Int) (stx : StandardTransaction) :
    ((openZero ttl_seconds stx).key, (openZero ttl_seconds stx).intent) =
      stx.zeroSegment.getD (.str "0", newIntent ttl_seconds) := by
  have hfresh : StandardTransaction.segmentZero (Dict.ofList [(.str "0", newIntent ttl_seconds)]) =
      some (.str "0", newIntent ttl_seconds) := rfl
  unfold openZero StandardTransaction.zeroSegment
  dsimp only
  cases hintents : stx.intents with
  | none =>
    rw [Option.filter_none, Option.getD_none, hfresh]
    rfl
  | some intents =>
    rw [Option.filter_some, Option.bind_some]
    split_ifs with hfull
    · rfl
    · have hnone : StandardTransaction.segmentZero intents = none := by
        have hnil : intents.entries = [] := by simpa using hfull
        unfold StandardTransaction.segmentZero Dict.get?
        rw [hnil]
        rfl
      rw [Option.getD_none, hfresh, hnone]
      rfl

theorem openZero_offer (ttl_seconds : Int) (stx : StandardTransaction) :
    (openZero ttl_seconds stx).offer =
      (present (openZero ttl_seconds stx).intent.guaranteed_unshielded_offer).getD ⟨some [], some [], some []⟩ := rfl

/-- `sum(int(i["value"]) for i in offer.get("inputs", []))` -/
def inputsVal (offer : UnshieldedOffer) : Int := total UtxoSpend.value (offer.inputs.getD [])

def outputsVal (offer : UnshieldedOffer) : Int := total UtxoOutput.value (offer.outputs.getD [])

def usedOutpoints (inputs : List UtxoSpend) : List (String × IntLike) :=
  inputs.map (fun i => (hexOf i.intent_hash, .int i.output_no))

/-- NIGHT records whose outpoint, as it is written, is not that of an input. -/
def isEligible (inputs : List UtxoSpend) (utxo : UtxoRecord) : Bool :=
  (utxo.hashText, utxo.outputNumber) ∉ usedOutpoints inputs ∧ utxo.listedToken = some zeroHex

/-- `eligible.sort(key=lambda x: int(x.get("value", 0)), reverse=True)` -/
def sortDescending (eligible : List UtxoRecord) : Except PyError (List UtxoRecord) := do
  let keyed ← traverse (fun (utxo : UtxoRecord) => do
    let value ← utxo.intValue
    return (value, utxo)) eligible
  return (descending Prod.fst keyed).map Prod.snd

/-- Step 4 up to its loop: the inputs so far and the records to take more from. -/
def candidates (client : NoxipherClient) (wallet : MidnightWallet) (offer : UnshieldedOffer) :
    Except PyError (List UtxoSpend × List UtxoRecord) := do
  let utxos ← wallet.unshielded.getUtxos client.indexer
  let inputs ← required "inputs" offer.inputs
  let eligible ← sortDescending (utxos.filter (isEligible inputs))
  return (inputs, eligible)

/-- The loop of step 4, where `inputs_val` includes what was added. What was appended stays when a record
cannot be read. -/
def appendInputs (owner_pk : Bytes) (required : Int) :
    List UtxoRecord → List UtxoSpend → Int → List UtxoSpend × Except PyError Int
  | [], inputs, inputs_val => (inputs, .ok inputs_val)
  | utxo::utxos, inputs, inputs_val =>
    match TransactionBuilder.utxoSpend owner_pk utxo with
    | .error e => (inputs, .error e)
    | .ok spend =>
      if required ≤ inputs_val+spend.value then (inputs++[spend], .ok (inputs_val+spend.value))
      else appendInputs owner_pk required utxos (inputs++[spend]) (inputs_val+spend.value)

/-- Step 4: the offer as it is left, with the new total or the error. -/
def addInputs (client : NoxipherClient) (wallet : MidnightWallet) (required : Int) (offer : UnshieldedOffer) :
    UnshieldedOffer × Except PyError Int :=
  match candidates client wallet offer with
  | .error e => (offer, .error e)
  | .ok (inputs, eligible) =>
    let appended := appendInputs wallet.unshielded.publicKey required eligible inputs (inputsVal offer)
    ({ offer with inputs := some appended.1 }, do
      let inputs_val ← appended.2
      if inputs_val < required then
        .error (.transactionError
          s!"Insufficient funds to balance transaction. Need {required}, have {inputs_val}")
      else return inputs_val)

/-- Step 5: any excess goes back to the wallet. -/
def addChange (owner_pk : Bytes) (required inputs_val : Int) (offer : UnshieldedOffer) :
    UnshieldedOffer × Except PyError Unit :=
  if required < inputs_val then
    match offer.outputs with
    | some outputs => ({ offer with outputs := some (outputs++[⟨inputs_val-required, owner_pk, 0⟩]) }, .ok ())
    | none => (offer, .error (.keyError "outputs"))
  else (offer, .ok ())

/-- Steps 3 to 5 on the offer. -/
def balanceOffer (client : NoxipherClient) (wallet : MidnightWallet) (offer : UnshieldedOffer) :
    UnshieldedOffer × Except PyError Unit :=
  let required := outputsVal offer+client.config.min_fee
  if inputsVal offer < required then
    match addInputs client wallet required offer with
    | (offer, .error e) => (offer, .error e)
    | (offer, .ok inputs_val) => addChange wallet.unshielded.publicKey required inputs_val offer
  else addChange wallet.unshielded.publicKey required (inputsVal offer) offer

/-- `balance_transaction`: the caller's dictionary as the method leaves it, and the error it raised if any. -/
def balanceTransaction (client : NoxipherClient) (wallet : MidnightWallet) (ttl_seconds : Int)
    (unbound_tx : UnboundTx) : UnboundTx × Except PyError Unit :=
  let opened := openZero ttl_seconds unbound_tx.standard
  let store (intent : Intent) := unbound_tx.writeIntents (opened.intents.set opened.key intent)
  match balanceOffer client wallet opened.offer with
  | (offer, .error e) => (store { opened.intent with guaranteed_unshielded_offer := some offer }, .error e)
  | (offer, .ok _) =>
    (store { opened.intent with guaranteed_unshielded_offer := some offer, ttl := some ttl_seconds }, .ok ())

/-- The sort needs every value to be a number, and is then by these. -/
theorem sortDescending_ok_iff {eligible sorted : List UtxoRecord} :
    sortDescending eligible = .ok sorted ↔
      (∀ utxo ∈ eligible, ∃ n, utxo.intValue = .ok n) ∧ sorted = descending UtxoRecord.amount eligible := by
  let key (utxo : UtxoRecord) : Except PyError (Int × UtxoRecord) := do
    let value ← utxo.intValue
    return (value, utxo)
  have hkey {utxo : UtxoRecord} {n : Int} (h : utxo.intValue = .ok n) : key utxo = .ok (utxo.amount, utxo) := by
    show (utxo.intValue >>= fun value => .ok (value, utxo)) = _
    rw [UtxoRecord.amount, h]
    rfl
  have hsorted : (descending Prod.fst (eligible.map (fun utxo => (utxo.amount, utxo)))).map Prod.snd =
      descending UtxoRecord.amount eligible := by
    have hpairs : descending Prod.fst (eligible.map (fun utxo => (utxo.amount, utxo))) =
        (descending UtxoRecord.amount eligible).map (fun utxo => (utxo.amount, utxo)) :=
      descending_map UtxoRecord.amount (by intro utxo; rfl) eligible
    rw [hpairs, List.map_map]
    exact List.map_id _
  have hall (h : ∀ utxo ∈ eligible, ∃ n, utxo.intValue = .ok n) :
      sortDescending eligible = .ok (descending UtxoRecord.amount eligible) := by
    have hkeyed : traverse key eligible = .ok (eligible.map (fun utxo => (utxo.amount, utxo))) := by
      apply traverse_eq_map
      intro utxo hu
      obtain ⟨n, hn⟩ := h utxo hu
      exact hkey hn
    show (traverse key eligible >>= fun keyed => .ok ((descending Prod.fst keyed).map Prod.snd)) = _
    rw [hkeyed, ok_bind, hsorted]
  constructor
  · intro h
    have hnumbers : ∀ utxo ∈ eligible, ∃ n, utxo.intValue = .ok n := by
      obtain ⟨keyed, hkeyed, -⟩ := bind_ok_iff.mp h
      intro utxo hu
      obtain ⟨pair, -, hpair⟩ := traverse_all hkeyed utxo hu
      obtain ⟨n, hn, -⟩ := bind_ok_iff.mp hpair
      exact ⟨n, hn⟩
    refine ⟨hnumbers, ?_⟩
    rw [hall hnumbers] at h
    exact (Except.ok.inj h).symm
  · intro h
    obtain ⟨hnumbers, hs⟩ := h
    rw [hall hnumbers, hs]

/-- The loop appends inputs made of the records it takes from the front of the list. When it returns it has either
taken them all without reaching the total, or stopped at the first record that reaches it. -/
theorem appendInputs_made (owner_pk : Bytes) (required : Int) (sorted : List UtxoRecord) (inputs : List UtxoSpend)
    (inputs_val : Int) :
    ∃ taken rest spends, sorted = taken++rest ∧ traverse (TransactionBuilder.utxoSpend owner_pk) taken = .ok spends ∧
      (appendInputs owner_pk required sorted inputs inputs_val).1 = inputs++spends ∧
      ∀ found, (appendInputs owner_pk required sorted inputs inputs_val).2 = .ok found →
        found = inputs_val+total UtxoRecord.amount taken ∧
        (Short UtxoRecord.amount required taken inputs_val ∨
          ∃ before last, taken = before++[last] ∧ Short UtxoRecord.amount required before inputs_val ∧
            required ≤ found) := by
  induction sorted generalizing inputs inputs_val with
  | nil =>
    refine ⟨[], [], [], rfl, rfl, (List.append_nil inputs).symm, ?_⟩
    intro found h
    cases h
    exact ⟨by simp, Or.inl trivial⟩
  | cons utxo sorted ih =>
    cases hspend : TransactionBuilder.utxoSpend owner_pk utxo with
    | error e =>
      refine ⟨[], utxo::sorted, [], rfl, rfl, ?_, ?_⟩
      · simp only [appendInputs, hspend, List.append_nil]
      · intro found h
        simp only [appendInputs, hspend] at h
        cases h
    | ok spend =>
      have hvalue := (TransactionBuilder.utxoSpend_fields hspend).1
      by_cases hreach : required ≤ inputs_val+spend.value
      · refine ⟨[utxo], sorted, [spend], rfl, traverse_cons_ok.mpr ⟨spend, [], hspend, rfl, rfl⟩, ?_, ?_⟩
        · simp only [appendInputs, hspend, if_pos hreach]
        · intro found h
          simp only [appendInputs, hspend, if_pos hreach] at h
          cases h
          exact ⟨by simp [hvalue], Or.inr ⟨[], utxo, rfl, trivial, hreach⟩⟩
      · obtain ⟨taken, rest, spends, hsplit, htraverse, hgrown, hfound⟩ :=
          ih (inputs++[spend]) (inputs_val+spend.value)
        refine ⟨utxo::taken, rest, spend::spends, by rw [hsplit]; rfl,
          traverse_cons_ok.mpr ⟨spend, spends, hspend, htraverse, rfl⟩, ?_, ?_⟩
        · simp only [appendInputs, hspend, if_neg hreach, hgrown, List.append_assoc, List.singleton_append]
        · intro found h
          simp only [appendInputs, hspend, if_neg hreach] at h
          obtain ⟨htotal, hwhere⟩ := hfound found h
          rw [hvalue] at htotal hwhere hreach
          refine ⟨by rw [htotal, total_cons, add_assoc], ?_⟩
          rcases hwhere with hshort | ⟨before, last, rfl, hshort, hlast⟩
          · exact Or.inl ⟨not_le.mp hreach, hshort⟩
          · exact Or.inr ⟨utxo::before, last, rfl, ⟨not_le.mp hreach, hshort⟩, hlast⟩

theorem candidates_ok_iff {client : NoxipherClient} {wallet : MidnightWallet} {offer : UnshieldedOffer}
    {inputs : List UtxoSpend} {sorted : List UtxoRecord} :
    candidates client wallet offer = .ok (inputs, sorted) ↔
      ∃ utxos, wallet.unshielded.getUtxos client.indexer = .ok utxos ∧ offer.inputs = some inputs ∧
        (∀ utxo ∈ utxos.filter (isEligible inputs), ∃ n, utxo.intValue = .ok n) ∧
        sorted = descending UtxoRecord.amount (utxos.filter (isEligible inputs)) := by
  constructor
  · intro h
    obtain ⟨utxos, hutxos, h⟩ := bind_ok_iff.mp h
    obtain ⟨found, hfound, h⟩ := bind_ok_iff.mp h
    obtain ⟨eligible, heligible, h⟩ := bind_ok_iff.mp h
    cases h
    exact ⟨utxos, hutxos, required_ok_iff.mp hfound, sortDescending_ok_iff.mp heligible⟩
  · intro h
    obtain ⟨utxos, hutxos, hinputs, hsorted⟩ := h
    have heligible := sortDescending_ok_iff.mpr hsorted
    unfold candidates
    rw [hutxos, ok_bind, hinputs, required_some, ok_bind, heligible, ok_bind]
    rfl

section Offers

variable (client : NoxipherClient) (wallet : MidnightWallet) (ttl_seconds : Int)

theorem openZero_key (stx : StandardTransaction) :
    StandardTransaction.ZeroKey (openZero ttl_seconds stx).intents (openZero ttl_seconds stx).key := by
  let intents := (openZero ttl_seconds stx).intents
  show StandardTransaction.ZeroKey intents ((StandardTransaction.segmentZero intents).getD _).1
  cases hzero : StandardTransaction.segmentZero intents with
  | none => exact Or.inl rfl
  | some zero => exact StandardTransaction.segmentZero_key hzero

/-- A table in which segment 0 was found is worked on itself. -/
theorem openZero_intents {stx : StandardTransaction} {zero : IntLike × Intent} (h : stx.zeroSegment = some zero) :
    stx.intents = some (openZero ttl_seconds stx).intents := by
  obtain ⟨intents, hintents, hzero⟩ := Option.bind_eq_some_iff.mp h
  have hfull : intents.entries ≠ [] := by
    intro hnil
    have hmem := Dict.mem_of_get? _ (StandardTransaction.segmentZero_get? hzero)
    rw [hnil] at hmem
    cases hmem
  show stx.intents = some ((stx.intents.filter _).getD _)
  rw [hintents, Option.filter_some, if_pos (by simpa using hfull), Option.getD_some]

/-- An offer that is there is the one worked on, in its place. -/
theorem openZero_of_zeroOffer {stx : StandardTransaction} {offer : UnshieldedOffer} (h : stx.zeroOffer = some offer) :
    let opened := openZero ttl_seconds stx
    stx.intents = some opened.intents ∧ opened.intents.get? opened.key = some opened.intent ∧
      present opened.intent.guaranteed_unshielded_offer = some offer ∧ opened.offer = offer := by
  rw [StandardTransaction.zeroOffer_eq] at h
  obtain ⟨⟨key, intent⟩, hsegment, hpresent⟩ := Option.bind_eq_some_iff.mp h
  have hpair := openZero_zeroSegment ttl_seconds stx
  rw [hsegment, Option.getD_some] at hpair
  obtain ⟨hkey, hintent⟩ := Prod.mk.inj hpair
  have hintents := openZero_intents ttl_seconds hsegment
  obtain ⟨intents, hthere, hzero⟩ := Option.bind_eq_some_iff.mp hsegment
  rw [hintents] at hthere
  cases hthere
  intro opened
  refine ⟨hintents, ?_, ?_, ?_⟩
  · rw [hkey, hintent]
    exact StandardTransaction.segmentZero_get? hzero
  · rw [hintent]
    exact hpresent
  · rw [openZero_offer, hintent, hpresent, Option.getD_some]

/-- Without an offer an empty one is worked on. -/
theorem openZero_of_none {stx : StandardTransaction} (h : stx.zeroOffer = none) :
    (openZero ttl_seconds stx).offer = ⟨some [], some [], some []⟩ := by
  have hintent : (openZero ttl_seconds stx).intent = (stx.zeroSegment.getD (.str "0", newIntent ttl_seconds)).2 :=
    congrArg Prod.snd (openZero_zeroSegment ttl_seconds stx)
  rw [StandardTransaction.zeroOffer_eq] at h
  rw [openZero_offer]
  cases hsegment : stx.zeroSegment with
  | none =>
    rw [hsegment, Option.getD_none] at hintent
    rw [hintent]
    rfl
  | some zero =>
    rw [hsegment, Option.getD_some] at hintent
    rw [hsegment, Option.bind_some] at h
    rw [hintent, h, Option.getD_none]

theorem openZero_truthy (stx : StandardTransaction) : (openZero ttl_seconds stx).offer.truthy = true := by
  cases h : stx.zeroOffer with
  | none =>
    rw [openZero_of_none ttl_seconds h]
    rfl
  | some offer =>
    obtain ⟨-, -, hpresent, hoffer⟩ := openZero_of_zeroOffer ttl_seconds h
    rw [hoffer]
    exact (Option.filter_eq_some_iff.mp hpresent).2

/-- A change output does not empty the offer. -/
theorem addChange_truthy {owner_pk : Bytes} {required inputs_val : Int} {offer : UnshieldedOffer}
    (h : offer.truthy = true) : (addChange owner_pk required inputs_val offer).1.truthy = true := by
  unfold addChange
  split_ifs
  · cases offer.outputs with
    | none => exact h
    | some outputs => simp [UnshieldedOffer.truthy]
  · exact h

theorem balanceOffer_covered {offer : UnshieldedOffer} (h : outputsVal offer+client.config.min_fee ≤ inputsVal offer) :
    balanceOffer client wallet offer =
      addChange wallet.unshielded.publicKey (outputsVal offer+client.config.min_fee) (inputsVal offer) offer := by
  unfold balanceOffer
  exact if_neg (not_lt.mpr h)

theorem balanceOffer_error {offer added : UnshieldedOffer} {e : PyError}
    (h : inputsVal offer < outputsVal offer+client.config.min_fee)
    (hadd : addInputs client wallet (outputsVal offer+client.config.min_fee) offer = (added, .error e)) :
    balanceOffer client wallet offer = (added, .error e) := by
  simp only [balanceOffer, if_pos h, hadd]

theorem balanceOffer_added {offer added : UnshieldedOffer} {inputs_val : Int}
    (h : inputsVal offer < outputsVal offer+client.config.min_fee)
    (hadd : addInputs client wallet (outputsVal offer+client.config.min_fee) offer = (added, .ok inputs_val)) :
    balanceOffer client wallet offer =
      addChange wallet.unshielded.publicKey (outputsVal offer+client.config.min_fee) inputs_val added := by
  simp only [balanceOffer, if_pos h, hadd]

theorem addInputs_truthy (required : Int) {offer : UnshieldedOffer} (h : offer.truthy = true) :
    (addInputs client wallet required offer).1.truthy = true := by
  unfold addInputs
  cases candidates client wallet offer with
  | error e => exact h
  | ok found => simp [UnshieldedOffer.truthy]

theorem balanceOffer_truthy {offer : UnshieldedOffer} (h : offer.truthy = true) :
    (balanceOffer client wallet offer).1.truthy = true := by
  rcases lt_or_ge (inputsVal offer) (outputsVal offer+client.config.min_fee) with hless | hcovered
  · have hadded := addInputs_truthy client wallet (outputsVal offer+client.config.min_fee) h
    rcases hadd : addInputs client wallet (outputsVal offer+client.config.min_fee) offer with ⟨added, e | inputs_val⟩
    · rw [hadd] at hadded
      rw [balanceOffer_error client wallet hless hadd]
      exact hadded
    · rw [hadd] at hadded
      rw [balanceOffer_added client wallet hless hadd]
      exact addChange_truthy hadded
  · rw [balanceOffer_covered client wallet hcovered]
    exact addChange_truthy h

theorem balanceTransaction_error {unbound_tx : UnboundTx} {offer : UnshieldedOffer} {e : PyError}
    (h : balanceOffer client wallet (openZero ttl_seconds unbound_tx.standard).offer = (offer, .error e)) :
    let opened := openZero ttl_seconds unbound_tx.standard
    balanceTransaction client wallet ttl_seconds unbound_tx =
      (unbound_tx.writeIntents
        (opened.intents.set opened.key { opened.intent with guaranteed_unshielded_offer := some offer }),
        .error e) := by
  simp only [balanceTransaction, h]

theorem balanceTransaction_ok {unbound_tx : UnboundTx} {offer : UnshieldedOffer}
    (h : balanceOffer client wallet (openZero ttl_seconds unbound_tx.standard).offer = (offer, .ok ())) :
    let opened := openZero ttl_seconds unbound_tx.standard
    balanceTransaction client wallet ttl_seconds unbound_tx =
      (unbound_tx.writeIntents (opened.intents.set opened.key
        { opened.intent with guaranteed_unshielded_offer := some offer, ttl := some ttl_seconds }), .ok ()) := by
  simp only [balanceTransaction, h]

theorem balanceTransaction_result (unbound_tx : UnboundTx) :
    (balanceTransaction client wallet ttl_seconds unbound_tx).2 =
      (balanceOffer client wallet (openZero ttl_seconds unbound_tx.standard).offer).2 := by
  rcases h : balanceOffer client wallet (openZero ttl_seconds unbound_tx.standard).offer with ⟨offer, e | ⟨⟩⟩
  · rw [balanceTransaction_error client wallet ttl_seconds h]
  · rw [balanceTransaction_ok client wallet ttl_seconds h]

/-- What is written under the key of segment 0 is found there. -/
theorem zeroOffer_writeIntents (unbound_tx : UnboundTx) {intent : Intent} {offer : UnshieldedOffer}
    (hoffer : intent.guaranteed_unshielded_offer = some offer) (htruthy : offer.truthy = true) :
    let opened := openZero ttl_seconds unbound_tx.standard
    (unbound_tx.writeIntents (opened.intents.set opened.key intent)).standard.zeroOffer = some offer := by
  have hkey := openZero_key ttl_seconds unbound_tx.standard
  have hintent : intent.truthy = true := by
    unfold Intent.truthy
    rw [hoffer]
    rfl
  intro opened
  rw [UnboundTx.standard_writeIntents, StandardTransaction.zeroOffer, Option.bind_some,
    StandardTransaction.segmentZero_set hkey hintent, Option.bind_some, hoffer, present, Option.filter_some,
    if_pos htruthy]

/-- The balanced offer is found where the offer was looked for. -/
theorem balanceTransaction_zeroOffer (unbound_tx : UnboundTx) :
    (balanceTransaction client wallet ttl_seconds unbound_tx).1.standard.zeroOffer =
      some (balanceOffer client wallet (openZero ttl_seconds unbound_tx.standard).offer).1 := by
  have htruthy := balanceOffer_truthy client wallet (openZero_truthy ttl_seconds unbound_tx.standard)
  rcases h : balanceOffer client wallet (openZero ttl_seconds unbound_tx.standard).offer with ⟨offer, e | ⟨⟩⟩
  · rw [h] at htruthy
    rw [balanceTransaction_error client wallet ttl_seconds h]
    exact zeroOffer_writeIntents ttl_seconds unbound_tx rfl htruthy
  · rw [h] at htruthy
    rw [balanceTransaction_ok client wallet ttl_seconds h]
    exact zeroOffer_writeIntents ttl_seconds unbound_tx rfl htruthy

/-- Balancing that succeeds has balanced the offer that stands in segment 0 afterwards. -/
theorem balanceTransaction_ok_offer {unbound_tx : UnboundTx}
    (hok : (balanceTransaction client wallet ttl_seconds unbound_tx).2 = .ok ()) :
    ∃ settled, balanceOffer client wallet (openZero ttl_seconds unbound_tx.standard).offer = (settled, .ok ()) ∧
      (balanceTransaction client wallet ttl_seconds unbound_tx).1.standard.zeroOffer = some settled := by
  rw [balanceTransaction_result] at hok
  refine ⟨_, Prod.ext rfl hok, ?_⟩
  exact balanceTransaction_zeroOffer client wallet ttl_seconds unbound_tx

end Offers

/-- A client whose indexer knows the given records. -/
def clientWith (utxos : List UtxoRecord) : NoxipherClient := ⟨⟨"preprod", .preprod, 10000⟩, ⟨fun _ => .ok utxos⟩⟩

end DAppConnector

end Noxipher
