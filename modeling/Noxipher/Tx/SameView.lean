import Noxipher.Dapp.Outpoints
import Noxipher.Library.SpendOnce
import Noxipher.Tx.Selection

namespace Noxipher

open Greedy TransactionBuilder

/-- The arguments of a transfer, with the randomness it draws. -/
structure TransferRequest where
  rnd : Bytes
  to_address : String
  amount : Int
  fee : Option Int
  ttl : Int

/-- The outpoints that the guaranteed offer of a transaction spends. -/
def TxData.spends (tx : TxData) : List (Bytes × Int) :=
  outpoints ((tx.guaranteedOffer.bind UnshieldedOffer.inputs).getD [])

namespace TransferRequest

variable (client : NoxipherClient) (wallet : MidnightWallet) (token_type : Bytes) (use_dust : Bool)

def build (request : TransferRequest) : Except PyError TxData :=
  buildUnshieldedTransfer client request.rnd wallet request.to_address request.amount request.fee request.ttl
    token_type use_dust

def required (request : TransferRequest) : Int := request.amount+request.fee.getD client.config.min_fee

/-- One of the coins in view pays the transfer to the unit. -/
def paidExactly (eligible : List UtxoRecord) (request : TransferRequest) : Bool :=
  eligible.any (fun utxo => utxo.amount = request.required client)

variable {client wallet token_type use_dust} {request other : TransferRequest} {tx other_tx : TxData}
  {eligible : List UtxoRecord}

/-- Without such a coin a transfer spends the beginning of the list sorted by value. -/
theorem selects_prefix (hlisted : spendable client wallet token_type use_dust = .ok eligible)
    (h : request.build client wallet token_type use_dust = .ok tx)
    (hnone : request.paidExactly client eligible = false) :
    ∃ selected inputs, selected <+: descending UtxoRecord.amount eligible ∧
      traverse (utxoSpend (ownerKey wallet use_dust)) selected = .ok inputs ∧ tx.spends = outpoints inputs ∧
      (inputs = [] ↔ eligible = []) := by
  obtain ⟨stages⟩ := buildUnshieldedTransfer_stages h
  have hsame : stages.eligible = eligible := Except.ok.inj (stages.listed.symm.trans hlisted)
  have hempty := stages.inputs_eq_nil
  rw [hsame] at hempty
  refine ⟨stages.selected, stages.inputs, ?_, stages.spent, ?_, hempty⟩
  · have hpicked := stages.picked
    rw [hsame] at hpicked
    rcases selectUtxos_cases hpicked with ⟨utxo, hmem, hvalue, -⟩ | ⟨-, hlargest⟩
    · rw [paidExactly, List.any_eq_false] at hnone
      exact absurd (decide_eq_true hvalue) (hnone utxo hmem)
    · have hselected := congrArg Prod.fst hlargest
      rw [show stages.selected = _ from hselected]
      exact largestFirst_initial UtxoRecord.amount _ eligible
  · rw [TxData.spends, stages.offer]
    rfl

/-- The outpoints of two such transfers are nested. -/
theorem spends_nested (hlisted : spendable client wallet token_type use_dust = .ok eligible)
    (h : request.build client wallet token_type use_dust = .ok tx)
    (hother : other.build client wallet token_type use_dust = .ok other_tx)
    (hnone : request.paidExactly client eligible = false) (hnone' : other.paidExactly client eligible = false) :
    tx.spends <+: other_tx.spends ∨ other_tx.spends <+: tx.spends := by
  obtain ⟨selected, inputs, hprefix, hinputs, hspends, -⟩ := selects_prefix hlisted h hnone
  obtain ⟨selected', inputs', hprefix', hinputs', hspends', -⟩ := selects_prefix hlisted hother hnone'
  rw [hspends, hspends']
  rcases List.prefix_or_prefix_of_prefix hprefix hprefix' with hnested | hnested
  · exact Or.inl ((traverse_initial hnested hinputs hinputs').map _)
  · exact Or.inr ((traverse_initial hnested hinputs' hinputs).map _)

end TransferRequest

open TransferRequest in
/-- Transfers built from one view of the coins compete for them: the inputs of two that no single coin pays exactly are
nested, and a ledger that spends each outpoint once accepts at most one such transfer of any list, in any order. -/
theorem same_view_competes {client : NoxipherClient} {wallet : MidnightWallet} {token_type : Bytes} {use_dust : Bool}
    {eligible : List UtxoRecord} (hlisted : spendable client wallet token_type use_dust = .ok eligible)
    (hcoins : eligible ≠ []) {built : List (TransferRequest × TxData)}
    (hbuilt : ∀ b ∈ built, b.1.build client wallet token_type use_dust = .ok b.2) :
    (∀ a ∈ built, ∀ b ∈ built, a.1.paidExactly client eligible = false → b.1.paidExactly client eligible = false →
      a.2.spends <+: b.2.spends ∨ b.2.spends <+: a.2.spends) ∧
    ∀ order, order.Perm built → ∀ spent,
      ((SpendOnce.accepted (fun b : TransferRequest × TxData => b.2.spends) spent order).filter
        (fun b => !b.1.paidExactly client eligible)).length ≤ 1 := by
  refine ⟨fun a ha b hb hnone hnone' => spends_nested hlisted (hbuilt a ha) (hbuilt b hb) hnone hnone', ?_⟩
  intro order hperm spent
  apply SpendOnce.accepted_le_one
  intro a ha b hb hnone hnone'
  have hnone : a.1.paidExactly client eligible = false := by simpa using hnone
  have hnone' : b.1.paidExactly client eligible = false := by simpa using hnone'
  have hbuilt_a := hbuilt a (hperm.subset ha)
  have hbuilt_b := hbuilt b (hperm.subset hb)
  have hspent {request : TransferRequest} {tx : TxData} (h : request.build client wallet token_type use_dust = .ok tx)
      (hnone : request.paidExactly client eligible = false) : tx.spends ≠ [] := by
    obtain ⟨-, inputs, -, -, hspends, hempty⟩ := selects_prefix hlisted h hnone
    rw [hspends, outpoints, Ne, List.map_eq_nil_iff, hempty]
    exact hcoins
  have hshare {p q : List (Bytes × Int)} (hne : p ≠ []) (hnested : p <+: q) : ∃ x ∈ p, x ∈ q := by
    obtain ⟨x, hx⟩ := List.exists_mem_of_ne_nil p hne
    exact ⟨x, hx, hnested.subset hx⟩
  rcases spends_nested hlisted hbuilt_a hbuilt_b hnone hnone' with hnested | hnested
  · exact hshare (hspent hbuilt_a hnone) hnested
  · obtain ⟨x, hx, hx'⟩ := hshare (hspent hbuilt_b hnone') hnested
    exact ⟨x, hx', hx⟩

/-- Two payments of 500 to different addresses both spend the larger record, and a ledger takes one of them. -/
theorem same_view_competes_sample :
    ∃ first second : TransferRequest × TxData, first ≠ second ∧ first.2.spends = second.2.spends ∧
      (∀ b ∈ [first, second], b.1.build sampleClient sampleWallet RawTokenType.NATIVE_NIGHT false = .ok b.2) ∧
      ((SpendOnce.accepted (fun b : TransferRequest × TxData => b.2.spends) [] [second, first]).filter
        (fun b => !b.1.paidExactly sampleClient sampleUtxos)).length ≤ 1 := by
  obtain ⟨to_address, -, hdecode⟩ := encodeAddress_decodes (List.replicate 32 7) .unshielded .preprod (by decide)
  obtain ⟨to_address', -, hdecode'⟩ := encodeAddress_decodes (List.replicate 32 8) .unshielded .preprod (by decide)
  obtain ⟨tx, htx, hoffer⟩ := sample_transfer sampleWallet hdecode
  obtain ⟨tx', htx', hoffer'⟩ := sample_transfer sampleWallet hdecode'
  have hbuilt : ∀ b ∈ [((⟨List.replicate 32 9, to_address, 500, some 100, 1800⟩, tx) : TransferRequest × TxData),
      (⟨List.replicate 32 9, to_address', 500, some 100, 1800⟩, tx')],
      b.1.build sampleClient sampleWallet RawTokenType.NATIVE_NIGHT false = .ok b.2 := by
    intro b hb
    rcases List.mem_pair.mp hb with rfl | rfl
    · exact htx
    · exact htx'
  have hlisted : spendable sampleClient sampleWallet RawTokenType.NATIVE_NIGHT false = .ok sampleUtxos := by decide
  refine ⟨_, _, ?_, ?_, hbuilt, (same_view_competes hlisted (by decide) hbuilt).2 _ (List.Perm.swap _ _ []) []⟩
  · intro hsame
    have hto : to_address = to_address' := congrArg (fun b => b.1.to_address) hsame
    rw [hto, hdecode'] at hdecode
    exact absurd hdecode (by decide)
  · simp only [TxData.spends, hoffer, hoffer']
    rfl

end Noxipher
