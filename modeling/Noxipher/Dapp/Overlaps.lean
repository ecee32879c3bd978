import Noxipher.Dapp.Outpoints
import Noxipher.Library.Runs

namespace Noxipher

open Greedy TransactionBuilder

namespace DAppConnector

/-- What the inputs of an offer are worth beyond its outputs. -/
def surplus (offer : UnshieldedOffer) : Int := inputsVal offer-outputsVal offer

/-- Where a task in `balance_transaction` is; it waits in step 4, holding the two sums of step 3. -/
inductive BalancePhase where
  | idle
  | waiting (inputs_val required : Int)
  | done (outcome : Except PyError Unit)

inductive BalanceMove where
  | start
  | answer (utxos : Except PyError (List UtxoRecord))

/-- Steps 4 and 5 once the indexer has answered, on the offer as it is then. -/
def resume (client : NoxipherClient) (wallet : MidnightWallet) (utxos : Except PyError (List UtxoRecord))
    (inputs_val required : Int) (offer : UnshieldedOffer) : UnshieldedOffer × Except PyError Unit :=
  match candidates { client with indexer := ⟨fun _ => utxos⟩ } wallet offer with
  | .error e => (offer, .error e)
  | .ok (inputs, eligible) =>
    let appended := appendInputs wallet.unshielded.publicKey required eligible inputs inputs_val
    let grown := { offer with inputs := some appended.1 }
    match appended.2 with
    | .error e => (grown, .error e)
    | .ok found =>
      if found < required then
        (grown, .error (.transactionError s!"Insufficient funds to balance transaction. Need {required}, have {found}"))
      else addChange wallet.unshielded.publicKey required found grown

/-- Tasks that balance one offer at the same time. Of those that returned the shortfall they had found is noted, of those
that raised what they left in the inputs. -/
structure Balancings (Task : Type) where
  offer : UnshieldedOffer
  phase : Task → BalancePhase
  returned : List Int
  stranded : List Int

namespace Balancings

variable {Task : Type} [DecidableEq Task]

def begin (offer : UnshieldedOffer) : Balancings Task := ⟨offer, fun _ => .idle, [], []⟩

/-- A task that finds the inputs short asks for records, and keeps its two sums. -/
def ask (s : Balancings Task) (task : Task) (required : Int) : Balancings Task :=
  { s with phase := Function.update s.phase task (.waiting (inputsVal s.offer) required) }

/-- The end of a task. -/
def settle (s : Balancings Task) (task : Task) (shortfall : Int) (result : UnshieldedOffer × Except PyError Unit) :
    Balancings Task :=
  match result.2 with
  | .ok _ => ⟨result.1, Function.update s.phase task (.done result.2), shortfall::s.returned, s.stranded⟩
  | .error _ => ⟨result.1, Function.update s.phase task (.done result.2), s.returned,
      (inputsVal result.1-inputsVal s.offer)::s.stranded⟩

/-- One task goes on to its next wait, or to its end. -/
def step (client : NoxipherClient) (wallet : MidnightWallet) (s : Balancings Task) (move : Task × BalanceMove) :
    Option (Balancings Task) :=
  match s.phase move.1, move.2 with
  | .idle, .start =>
    let required := outputsVal s.offer+client.config.min_fee
    if inputsVal s.offer < required then
      some (s.ask move.1 required)
    else
      some (s.settle move.1 (required-inputsVal s.offer)
        (addChange wallet.unshielded.publicKey required (inputsVal s.offer) s.offer))
  | .waiting inputs_val required, .answer utxos =>
    some (s.settle move.1 (required-inputs_val) (resume client wallet utxos inputs_val required s.offer))
  | _, _ => none

end Balancings

/-- A task that nothing comes between does what `balanceOffer` does. -/
theorem balanceOffer_resume {client : NoxipherClient} {wallet : MidnightWallet} {offer : UnshieldedOffer}
    (h : inputsVal offer < outputsVal offer+client.config.min_fee) :
    balanceOffer client wallet offer = resume client wallet (wallet.unshielded.getUtxos client.indexer)
      (inputsVal offer) (outputsVal offer+client.config.min_fee) offer := by
  have hcandidates : candidates { client with indexer := ⟨fun _ => wallet.unshielded.getUtxos client.indexer⟩ } wallet
      offer = candidates client wallet offer := rfl
  rw [balanceOffer, if_pos h, addInputs, resume, hcandidates]
  cases candidates client wallet offer with
  | error e => rfl
  | ok found =>
    obtain ⟨inputs, eligible⟩ := found
    simp only
    cases happended : (appendInputs wallet.unshielded.publicKey (outputsVal offer+client.config.min_fee) eligible inputs
        (inputsVal offer)).2 with
    | error e => rfl
    | ok found =>
      by_cases hshort : found < outputsVal offer+client.config.min_fee
      · simp only [ok_bind, if_pos hshort]
      · simp only [ok_bind, if_neg hshort, pure_ok]

section Steps

variable {client : NoxipherClient} {wallet : MidnightWallet}

/-- Step 5 keeps the inputs, and when it raises the outputs too. -/
theorem addChange_kept (owner_pk : Bytes) (required inputs_val : Int) (offer : UnshieldedOffer) :
    (addChange owner_pk required inputs_val offer).1.inputs = offer.inputs ∧
      ((addChange owner_pk required inputs_val offer).2 ≠ .ok () →
        (addChange owner_pk required inputs_val offer).1 = offer) := by
  unfold addChange
  split_ifs
  · cases offer.outputs with
    | none => exact ⟨rfl, fun _ => rfl⟩
    | some outputs => exact ⟨rfl, fun h => absurd rfl h⟩
  · exact ⟨rfl, fun h => absurd rfl h⟩

/-- When it returns the outputs have grown by what the inputs leave over. -/
theorem addChange_ended {owner_pk : Bytes} {required inputs_val : Int} {offer : UnshieldedOffer}
    (hok : (addChange owner_pk required inputs_val offer).2 = .ok ()) (hcover : required ≤ inputs_val) :
    outputsVal (addChange owner_pk required inputs_val offer).1 = outputsVal offer+(inputs_val-required) := by
  have hsettled : addChange owner_pk required inputs_val offer =
      ((addChange owner_pk required inputs_val offer).1, .ok ()) :=
    Prod.ext rfl hok
  exact addChange_sum hsettled hcover

/-- What a task does when it goes on: it appends inputs made of the records it tries first, and if it returns the
outputs have grown by what its sums leave over. -/
structure Resumed (wallet : MidnightWallet) (utxos : Except PyError (List UtxoRecord)) (inputs_val required : Int)
    (offer : UnshieldedOffer) (result : UnshieldedOffer × Except PyError Unit) (taken : List UtxoRecord)
    (added : List UtxoSpend) : Prop where
  made : traverse (utxoSpend wallet.unshielded.publicKey) taken = .ok added
  fetched : taken = [] ∨ ∃ listed rest, utxos = .ok listed ∧ tried (offer.inputs.getD []) listed = taken++rest
  inputs : result.1.inputs.getD [] = offer.inputs.getD []++added
  raised : result.2 ≠ .ok () → outputsVal result.1 = outputsVal offer
  ended : result.2 = .ok () →
    outputsVal result.1 = outputsVal offer+(inputs_val+total UtxoSpend.value added-required)

variable (client wallet) in
theorem resume_resumed (utxos : Except PyError (List UtxoRecord)) (inputs_val required : Int) (offer : UnshieldedOffer) :
    ∃ taken added, Resumed wallet utxos inputs_val required offer (resume client wallet utxos inputs_val required offer)
      taken added := by
  unfold resume
  cases hfound : candidates { client with indexer := ⟨fun _ => utxos⟩ } wallet offer with
  | error e =>
    refine ⟨[], [], rfl, Or.inl rfl, (List.append_nil _).symm, fun _ => rfl, ?_⟩
    intro h
    cases h
  | ok found =>
    obtain ⟨inputs, sorted⟩ := found
    obtain ⟨listed, hlisted, hgiven, -, hsorted⟩ := candidates_ok_iff.mp hfound
    have hlisted : utxos = .ok listed := hlisted
    obtain ⟨taken, rest, added, hsplit, hmade, hgrown, hcount⟩ := appendInputs_made wallet.unshielded.publicKey required
      sorted inputs inputs_val
    have htried : tried (offer.inputs.getD []) listed = taken++rest := by
      rw [hgiven, Option.getD_some, tried, ← hsorted, hsplit]
    have hinputs : (appendInputs wallet.unshielded.publicKey required sorted inputs inputs_val).1 =
        offer.inputs.getD []++added := by
      rw [hgrown, hgiven, Option.getD_some]
    refine ⟨taken, added, ?_⟩
    simp only
    cases hval : (appendInputs wallet.unshielded.publicKey required sorted inputs inputs_val).2 with
    | error e =>
      refine ⟨hmade, Or.inr ⟨listed, rest, hlisted, htried⟩, hinputs, fun _ => rfl, ?_⟩
      intro h
      cases h
    | ok found =>
      obtain ⟨htotal, -⟩ := hcount found hval
      simp only
      split_ifs with hshort
      · refine ⟨hmade, Or.inr ⟨listed, rest, hlisted, htried⟩, hinputs, fun _ => rfl, ?_⟩
        intro h
        cases h
      · obtain ⟨hkept, hraised⟩ := addChange_kept wallet.unshielded.publicKey required found
          { offer with inputs := some (appendInputs wallet.unshielded.publicKey required sorted inputs inputs_val).1 }
        refine ⟨hmade, Or.inr ⟨listed, rest, hlisted, htried⟩, ?_, ?_, ?_⟩
        · rw [hkept]
          exact hinputs
        · intro hne
          rw [hraised hne]
          rfl
        · intro hok
          rw [addChange_ended hok (not_lt.mp hshort), utxoSpends_total hmade, ← htotal]
          rfl

/-- The appended inputs are worth something if the records are. -/
theorem Resumed.added_nonneg {utxos : Except PyError (List UtxoRecord)} {inputs_val required : Int}
    {offer : UnshieldedOffer} {result : UnshieldedOffer × Except PyError Unit} {taken : List UtxoRecord}
    {added : List UtxoSpend} (h : Resumed wallet utxos inputs_val required offer result taken added)
    (hworth : ∀ listed, utxos = .ok listed → ∀ utxo ∈ listed, 0 ≤ utxo.amount) :
    0 ≤ total UtxoSpend.value added := by
  rw [utxoSpends_total h.made]
  apply total_nonneg
  intro utxo hutxo
  rcases h.fetched with rfl | ⟨listed, rest, hlisted, htried⟩
  · cases hutxo
  · have hmem : utxo ∈ tried (offer.inputs.getD []) listed := by
      rw [htried]
      exact List.mem_append_left rest hutxo
    exact hworth listed hlisted utxo (of_mem_tried hmem).1

/-- A record that writes its outpoint as `hex` and `int` do. -/
def Canonical (utxo : UtxoRecord) : Prop :=
  ∃ intent_hash output_no, utxo.hashText = hexOf intent_hash ∧ utxo.outputNumber = .int output_no

/-- Such a record is never mistaken for another outpoint than its own. -/
theorem Canonical.not_spent {utxo : UtxoRecord} (h : Canonical utxo) {inputs : List UtxoSpend}
    (heligible : isEligible inputs utxo = true) : ¬ utxo.Spent inputs := by
  intro hspent
  obtain ⟨intent_hash, output_no, hhash, hno⟩ := h
  obtain ⟨i, hi, hpoint⟩ := hspent
  rw [UtxoRecord.outpoint, hhash, hno, fromhex_hexOf, ok_bind, IntLike.toInt_int, ok_bind] at hpoint
  cases hpoint
  apply (of_decide_eq_true heligible).1
  rw [hhash, hno]
  exact List.mem_map_of_mem hi

/-- The outpoints in the offer when the answer is there are looked up, not those of step 3. -/
theorem Resumed.nodup {utxos : Except PyError (List UtxoRecord)} {inputs_val required : Int}
    {offer : UnshieldedOffer} {result : UnshieldedOffer × Except PyError Unit} {taken : List UtxoRecord}
    {added : List UtxoSpend} (h : Resumed wallet utxos inputs_val required offer result taken added)
    (hrecords : ∀ listed, utxos = .ok listed →
      UtxoRecord.DistinctOutpoints listed ∧ ∀ utxo ∈ listed, Canonical utxo)
    (hdistinct : (outpoints (offer.inputs.getD [])).Nodup) : (outpoints (result.1.inputs.getD [])).Nodup := by
  rw [h.inputs]
  rcases h.fetched with rfl | ⟨listed, rest, hlisted, htried⟩
  · cases h.made
    rwa [List.append_nil]
  · obtain ⟨houtpoints, hcanonical⟩ := hrecords listed hlisted
    have htaken := distinctOutpoints_tried (offer.inputs.getD []) houtpoints
    rw [htried] at htaken
    apply (nodup_grown_iff h.made hdistinct (List.pairwise_append.mp htaken).1).mpr
    intro utxo hutxo hspent
    have hmem : utxo ∈ tried (offer.inputs.getD []) listed := by
      rw [htried]
      exact List.mem_append_left rest hutxo
    obtain ⟨hu, heligible⟩ := of_mem_tried hmem
    exact (hcanonical utxo hu).not_spent heligible hspent

end Steps

namespace Balancings

variable {Task : Type} [DecidableEq Task] {client : NoxipherClient} {wallet : MidnightWallet}
  {s s' : Balancings Task} {move : Task × BalanceMove}

/-- A task that ends: where it was, and what its end does to the surplus. -/
structure Ends (client : NoxipherClient) (wallet : MidnightWallet) (s : Balancings Task) (move : Task × BalanceMove)
    (shortfall : Int) (result : UnshieldedOffer × Except PyError Unit) : Prop where
  returned : result.2 = .ok () → surplus result.1 = surplus s.offer+shortfall
  raised : result.2 ≠ .ok () → surplus result.1 = surplus s.offer+(inputsVal result.1-inputsVal s.offer)
  was : (move.2 = .start ∧ shortfall = client.config.min_fee-surplus s.offer ∧ shortfall ≤ 0 ∧
      result.1.inputs = s.offer.inputs) ∨
    ∃ utxos inputs_val required taken added, move.2 = .answer utxos ∧ s.phase move.1 = .waiting inputs_val required ∧
      shortfall = required-inputs_val ∧ Resumed wallet utxos inputs_val required s.offer result taken added

/-- A step begins a wait, or ends a task. -/
theorem step_cases (h : step client wallet s move = some s') :
    (move.2 = .start ∧ surplus s.offer < client.config.min_fee ∧
      s' = s.ask move.1 (outputsVal s.offer+client.config.min_fee)) ∨
    ∃ shortfall result, Ends client wallet s move shortfall result ∧ s' = s.settle move.1 shortfall result := by
  unfold step at h
  split at h
  · rename_i hidle hstart
    simp only at h
    split_ifs at h with hless
    · cases h
      refine Or.inl ⟨hstart, ?_, rfl⟩
      unfold surplus
      omega
    · cases h
      have hcover := not_lt.mp hless
      obtain ⟨hkept, hraised⟩ := addChange_kept wallet.unshielded.publicKey
        (outputsVal s.offer+client.config.min_fee) (inputsVal s.offer) s.offer
      have hinputs : inputsVal (addChange wallet.unshielded.publicKey (outputsVal s.offer+client.config.min_fee)
          (inputsVal s.offer) s.offer).1 = inputsVal s.offer := by
        rw [inputsVal, hkept, inputsVal]
      refine Or.inr ⟨_, _, ⟨?_, ?_, Or.inl ⟨hstart, ?_, ?_, hkept⟩⟩, rfl⟩
      · intro hok
        rw [surplus, hinputs, addChange_ended hok hcover, surplus]
        omega
      · intro hne
        rw [hraised hne, sub_self, add_zero]
      · unfold surplus
        omega
      · omega
  · rename_i inputs_val required utxos hwaiting hanswer
    cases h
    obtain ⟨taken, added, hresumed⟩ := resume_resumed client wallet utxos inputs_val required s.offer
    have hinputs : inputsVal (resume client wallet utxos inputs_val required s.offer).1 =
        inputsVal s.offer+total UtxoSpend.value added := by
      rw [inputsVal, hresumed.inputs, total_append, inputsVal]
    refine Or.inr ⟨_, _, ⟨?_, ?_, Or.inr ⟨utxos, inputs_val, required, taken, added, hanswer, hwaiting, rfl, hresumed⟩⟩,
      rfl⟩
    · intro hok
      rw [surplus, hinputs, hresumed.ended hok, surplus]
      omega
    · intro hne
      rw [surplus, hinputs, hresumed.raised hne, surplus]
      omega
  · cases h

/-- Every surplus that was not there is a shortfall paid or an input stranded. -/
theorem surplus_accounted {offer : UnshieldedOffer} {moves : List (Task × BalanceMove)} {final : Balancings Task}
    (h : runs (step client wallet) (begin offer) moves = some final) :
    surplus final.offer = surplus offer+final.returned.sum+final.stranded.sum := by
  apply runs_invariant _ (fun s : Balancings Task => surplus s.offer = surplus offer+s.returned.sum+s.stranded.sum)
    _ _ h
  · simp [begin]
  · intro s move s' hinv hstep
    rcases step_cases hstep with ⟨-, -, rfl⟩ | ⟨shortfall, result, hends, rfl⟩
    · exact hinv
    · unfold settle
      split
      · rename_i hok
        simp only [hends.returned hok, hinv, List.sum_cons]
        omega
      · rename_i e herror
        have hne : result.2 ≠ .ok () := by simp [herror]
        simp only [hends.raised hne, hinv, List.sum_cons]
        omega

theorem ask_waiting {task other : Task} {required inputs_val asked : Int}
    (h : (s.ask task required).phase other = .waiting inputs_val asked) :
    (inputs_val = inputsVal s.offer ∧ asked = required) ∨ s.phase other = .waiting inputs_val asked := by
  rcases eq_or_ne other task with rfl | hne
  · simp only [ask, Function.update_self] at h
    cases h
    exact Or.inl ⟨rfl, rfl⟩
  · simp only [ask, Function.update_of_ne hne] at h
    exact Or.inr h

/-- Whoever waits after a task ended waited before. -/
theorem settle_waiting {task other : Task} {shortfall : Int} {result : UnshieldedOffer × Except PyError Unit}
    {inputs_val required : Int} (h : (s.settle task shortfall result).phase other = .waiting inputs_val required) :
    s.phase other = .waiting inputs_val required := by
  have hphase : (s.settle task shortfall result).phase = Function.update s.phase task (.done result.2) := by
    unfold settle
    split <;> rfl
  rw [hphase] at h
  rcases eq_or_ne other task with rfl | hne
  · rw [Function.update_self] at h
    cases h
  · rwa [Function.update_of_ne hne] at h

theorem settle_offer (task : Task) (shortfall : Int) (result : UnshieldedOffer × Except PyError Unit) :
    (s.settle task shortfall result).offer = result.1 := by
  unfold settle
  split <;> rfl

/-- What pays for the fee: a wait holds sums that were short of it, and as long as no task returned its shortfall still
reaches the fee. -/
structure Paid (min_fee : Int) (s : Balancings Task) : Prop where
  short : ∀ task inputs_val required, s.phase task = .waiting inputs_val required → inputs_val < required
  reaches : s.returned = [] → ∀ task inputs_val required, s.phase task = .waiting inputs_val required →
    min_fee ≤ surplus s.offer+(required-inputs_val)
  paid : s.returned ≠ [] → min_fee ≤ surplus s.offer

/-- No answer lists a record of a negative amount. -/
def NonNegative (moves : List (Task × BalanceMove)) : Prop :=
  ∀ task listed, (task, .answer (.ok listed)) ∈ moves → ∀ utxo ∈ listed, 0 ≤ utxo.amount

omit [DecidableEq Task] in
theorem Ends.inputs_grow {shortfall : Int} {result : UnshieldedOffer × Except PyError Unit}
    (h : Ends client wallet s move shortfall result) (hworth : NonNegative [move]) :
    inputsVal s.offer ≤ inputsVal result.1 := by
  rcases h.was with ⟨-, -, -, hkept⟩ | ⟨utxos, inputs_val, required, taken, added, hanswer, -, -, hresumed⟩
  · rw [inputsVal, inputsVal, hkept]
  · have hadded := hresumed.added_nonneg (fun listed hlisted => hworth move.1 listed (by
      rw [← hlisted, ← hanswer]
      exact List.mem_singleton.mpr rfl))
    rw [inputsVal, inputsVal, hresumed.inputs, total_append]
    omega

theorem Paid.step (h : Paid client.config.min_fee s) (hworth : NonNegative [move])
    (hstep : step client wallet s move = some s') : Paid client.config.min_fee s' := by
  rcases step_cases hstep with ⟨-, hshort, rfl⟩ | ⟨shortfall, result, hends, rfl⟩
  · refine ⟨?_, ?_, h.paid⟩
    · intro task inputs_val required hwait
      rcases ask_waiting hwait with ⟨rfl, rfl⟩ | hwait
      · unfold surplus at hshort
        omega
      · exact h.short task inputs_val required hwait
    · intro hnone task inputs_val required hwait
      rcases ask_waiting hwait with ⟨rfl, rfl⟩ | hwait
      · show _ ≤ surplus s.offer+_
        unfold surplus
        omega
      · exact h.reaches hnone task inputs_val required hwait
  · have hgrow := hends.inputs_grow hworth
    refine ⟨fun task inputs_val required hwait => h.short task inputs_val required (settle_waiting hwait), ?_, ?_⟩
    · -- no task returned, so this one raised, and the surplus has not fallen
      intro hnone task inputs_val required hwait
      rw [settle_offer]
      unfold settle at hnone
      split at hnone
      · cases hnone
      · rename_i e herror
        have hraised := hends.raised (by simp [herror])
        have hreach := h.reaches hnone task inputs_val required (settle_waiting hwait)
        omega
    · intro hsome
      rw [settle_offer]
      unfold settle at hsome
      split at hsome
      · rename_i hok
        rw [hends.returned hok]
        rcases hends.was with ⟨-, hfee, -, -⟩ | ⟨utxos, inputs_val, required, taken, added, -, hwait, hfee, -⟩
        · omega
        · rcases eq_or_ne s.returned [] with hnone | hpaid
          · have hreach := h.reaches hnone move.1 inputs_val required hwait
            omega
          · have hless := h.short move.1 inputs_val required hwait
            have hfee := h.paid hpaid
            omega
      · rename_i e herror
        have hraised := hends.raised (by simp [herror])
        have hfee := h.paid hsome
        omega

theorem runs_paid {offer : UnshieldedOffer} {moves : List (Task × BalanceMove)} {final : Balancings Task}
    (h : runs (step client wallet) (begin offer) moves = some final) (hworth : NonNegative moves) :
    Paid client.config.min_fee final := by
  refine runs_history _ (fun past s => NonNegative past → Paid client.config.min_fee s) ?_ ?_ h hworth
  · intro _
    exact ⟨fun _ _ _ h => (nomatch h), fun _ _ _ _ h => (nomatch h), fun h => absurd rfl h⟩
  · intro past s move s' ih hstep hworth
    refine (ih ?_).step ?_ hstep
    · intro task listed hmem
      exact hworth task listed (List.mem_append_left _ hmem)
    · intro task listed hmem
      exact hworth task listed (List.mem_append_right _ hmem)

/-- Every answer lists outpoints once each, written as `hex` and `int` write them. -/
def Listed (moves : List (Task × BalanceMove)) : Prop :=
  ∀ task listed, (task, .answer (.ok listed)) ∈ moves →
    UtxoRecord.DistinctOutpoints listed ∧ ∀ utxo ∈ listed, Canonical utxo

theorem runs_nodup {offer : UnshieldedOffer} {moves : List (Task × BalanceMove)} {final : Balancings Task}
    (h : runs (step client wallet) (begin offer) moves = some final) (hlisted : Listed moves)
    (hdistinct : (outpoints (offer.inputs.getD [])).Nodup) : (outpoints (final.offer.inputs.getD [])).Nodup := by
  refine runs_history _ (fun past s => Listed past → (outpoints (s.offer.inputs.getD [])).Nodup) ?_ ?_ h hlisted
  · intro _
    exact hdistinct
  · intro past s move s' ih hstep hlisted
    have hbefore := ih (fun task listed hmem => hlisted task listed (List.mem_append_left _ hmem))
    rcases step_cases hstep with ⟨-, -, rfl⟩ | ⟨shortfall, result, hends, rfl⟩
    · exact hbefore
    · rw [settle_offer]
      rcases hends.was with ⟨-, -, -, hkept⟩ | ⟨utxos, inputs_val, required, taken, added, hanswer, -, -, hresumed⟩
      · rwa [hkept]
      · refine hresumed.nodup (fun listed hfetched => hlisted move.1 listed ?_) hbefore
        rw [← hfetched, ← hanswer]
        exact List.mem_append_right _ (List.mem_singleton.mpr rfl)

/-- Tasks that found one and the same shortfall, and those that returned paid it. -/
structure Alike (shortfall : Int) (s : Balancings Task) : Prop where
  waiting : ∀ task inputs_val required, s.phase task = .waiting inputs_val required → required-inputs_val = shortfall
  returned : ∀ paid ∈ s.returned, paid = shortfall

theorem Alike.answer {shortfall : Int} (h : Alike shortfall s) (hanswer : move.2 ≠ .start)
    (hstep : step client wallet s move = some s') : Alike shortfall s' := by
  rcases step_cases hstep with ⟨hstart, -, -⟩ | ⟨paid, result, hends, rfl⟩
  · exact absurd hstart hanswer
  · refine ⟨fun task inputs_val required hwait => h.waiting task inputs_val required (settle_waiting hwait), ?_⟩
    rcases hends.was with ⟨hstart, -, -, -⟩ | ⟨utxos, inputs_val, required, taken, added, -, hwait, rfl, -⟩
    · exact absurd hstart hanswer
    · have hpaid := h.waiting move.1 inputs_val required hwait
      unfold settle
      split
      · exact List.forall_mem_cons.mpr ⟨hpaid, h.returned⟩
      · exact h.returned

/-- Tasks that all begin on the offer as it was find the same shortfall. -/
theorem runs_started {offer : UnshieldedOffer} (hshort : surplus offer < client.config.min_fee)
    {starts : List (Task × BalanceMove)} (hstarts : ∀ move ∈ starts, move.2 = .start) {begun : Balancings Task}
    (h : runs (step client wallet) (begin offer) starts = some begun) :
    Alike (client.config.min_fee-surplus offer) begun := by
  have hall := runs_history (step client wallet) (fun past s => (∀ move ∈ past, move.2 = .start) →
    s.offer = offer ∧ Alike (client.config.min_fee-surplus offer) s) ?_ ?_ h hstarts
  · exact hall.2
  · intro _
    exact ⟨rfl, fun _ _ _ h => (nomatch h), fun _ h => (nomatch h)⟩
  · intro past s move s' ih hstep hpast
    obtain ⟨hoffer, hwaiting, hreturned⟩ := ih (fun m hm => hpast m (List.mem_append_left _ hm))
    have hstart := hpast move (List.mem_append_right _ (List.mem_singleton.mpr rfl))
    rcases step_cases hstep with ⟨-, -, rfl⟩ | ⟨paid, result, hends, -⟩
    · refine ⟨hoffer, ?_, hreturned⟩
      intro task inputs_val required hwait
      rcases ask_waiting hwait with ⟨rfl, rfl⟩ | hwait
      · rw [hoffer, surplus]
        omega
      · exact hwaiting task inputs_val required hwait
    · rcases hends.was with ⟨-, hfee, hcovers, -⟩ | ⟨utxos, _, _, _, _, hanswer, -⟩
      · rw [hoffer] at hfee
        omega
      · rw [hstart] at hanswer
        cases hanswer

/-- Balancings of one offer that overlap: the surplus is what was there and every shortfall paid and every input
stranded, it reaches the fee once a task returned, no outpoint is spent twice, and tasks that all began first each pay
the whole shortfall again. -/
theorem overlapping_balancings {offer : UnshieldedOffer} {moves : List (Task × BalanceMove)} {final : Balancings Task}
    (h : runs (step client wallet) (begin offer) moves = some final) :
    surplus final.offer = surplus offer+final.returned.sum+final.stranded.sum ∧
    (NonNegative moves → final.returned ≠ [] → client.config.min_fee ≤ surplus final.offer) ∧
    (Listed moves → (outpoints (offer.inputs.getD [])).Nodup → (outpoints (final.offer.inputs.getD [])).Nodup) ∧
    ∀ starts answers, moves = starts++answers → (∀ move ∈ starts, move.2 = .start) →
      (∀ move ∈ answers, move.2 ≠ .start) → surplus offer < client.config.min_fee →
      surplus final.offer =
        surplus offer+final.returned.length*(client.config.min_fee-surplus offer)+final.stranded.sum := by
  refine ⟨surplus_accounted h, fun hworth => (runs_paid h hworth).paid, runs_nodup h, ?_⟩
  intro starts answers hmoves hstarts hanswers hshort
  have hruns := h
  rw [hmoves, runs_append] at hruns
  obtain ⟨begun, hbegun, hanswered⟩ := Option.bind_eq_some_iff.mp hruns
  have halike := runs_history (step client wallet)
    (fun past s => (∀ move ∈ past, move.2 ≠ .start) → Alike (client.config.min_fee-surplus offer) s)
    (fun _ => runs_started hshort hstarts hbegun) (by
      intro past s move s' ih hstep hpast
      exact (ih (fun m hm => hpast m (List.mem_append_left _ hm))).answer
        (hpast move (List.mem_append_right _ (List.mem_singleton.mpr rfl))) hstep) hanswered hanswers
  rw [surplus_accounted h, List.sum_eq_card_nsmul final.returned _ halike.returned, nsmul_eq_mul]

/-- Two tasks begin on an offer without inputs, and each adds the whole fee. -/
theorem overlapping_balancings_sample :
    let offer : UnshieldedOffer := { inputs := some [], outputs := some [] }
    let listed : List UtxoRecord := [{ value := some (.int 20000) }, { value := some (.int 15000), outputNo := some (.int 1) }]
    let starts : List (Bool × BalanceMove) := [(true, .start), (false, .start)]
    let answers : List (Bool × BalanceMove) := [(true, .answer (.ok listed)), (false, .answer (.ok listed))]
    ∃ final, runs (step (clientWith []) sampleWallet) (begin offer) (starts++answers) = some final ∧
      final.returned.length = 2 ∧ surplus final.offer = 20000 ∧ (outpoints (final.offer.inputs.getD [])).Nodup := by
  intro offer listed starts answers
  have hsome : (runs (step (clientWith []) sampleWallet) (begin offer) (starts++answers)).isSome = true := by
    decide +kernel
  have hreturned : (runs (step (clientWith []) sampleWallet) (begin offer) (starts++answers)).map
      (fun s => (s.returned, s.stranded)) = some ([10000, 10000], []) := by
    decide +kernel
  obtain ⟨final, hfinal⟩ := Option.isSome_iff_exists.mp hsome
  rw [hfinal, Option.map_some] at hreturned
  obtain ⟨hpaid, hstranded⟩ := Prod.mk.inj (Option.some.inj hreturned)
  obtain ⟨-, -, hnodup, hall⟩ := overlapping_balancings hfinal
  have hlength : final.returned.length = 2 := by
    rw [hpaid]
    rfl
  have hsurplus := hall starts answers rfl (by simp [starts]) (by simp [answers]) (by decide +kernel)
  refine ⟨final, hfinal, hlength, ?_, hnodup ?_ List.nodup_nil⟩
  · rw [hsurplus, hlength, hstranded]
    decide +kernel
  · intro task records hmem
    have hrecords : records = listed := by
      simp only [starts, answers, List.cons_append, List.nil_append, List.mem_cons, Prod.mk.injEq, List.not_mem_nil,
        BalanceMove.answer.injEq, Except.ok.injEq, reduceCtorEq, and_false, false_or, or_false] at hmem
      exact hmem.elim And.right And.right
    rw [hrecords]
    refine ⟨List.pairwise_pair.mpr ?_, ?_⟩
    · intro outpoint hfirst hsecond
      have hne : (listed.map UtxoRecord.outpoint).Nodup := by decide +kernel
      simp [listed, hfirst, hsecond] at hne
    · intro utxo hutxo
      rcases List.mem_pair.mp hutxo with rfl | rfl
      · exact ⟨List.replicate 32 0, 0, by decide +kernel, rfl⟩
      · exact ⟨List.replicate 32 0, 1, by decide +kernel, rfl⟩

end Balancings

end DAppConnector

end Noxipher
