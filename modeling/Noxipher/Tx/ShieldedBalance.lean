import Noxipher.Library.GreedyOptimal
import Noxipher.Tx.Recipients
import Noxipher.Wallet.Accounts
import Noxipher.Wallet.Owners
import Noxipher.Zswap.StoreRuns

namespace Noxipher

open Greedy

/-- The value of the coin a spend circuit takes in. -/
def Circuit.spentValue (circuit : Circuit) : Int :=
  match circuit.private_inputs with
  | some (.spend coin _ _) => coin.value
  | _ => 0

/-- The value an output circuit gives out. -/
def Circuit.createdValue (circuit : Circuit) : Int :=
  match circuit.private_inputs with
  | some (.output value _ _) => value
  | _ => 0

/-- The private inputs of an output describe a note of the token: its value, its nonce, and the coin key of the
recipient it names. -/
def Circuit.Describes (token_type : Bytes) (circuit : Circuit) (note : ShieldedCoinNote) : Prop :=
  note.token_type = token_type ∧ ∃ recipient kind network payload,
    circuit.private_inputs = some (.output note.value recipient (hexOf note.nonce)) ∧
    decodeAddress recipient = .ok (kind, network, payload) ∧ note.owner_pk = payload.take 32

/-- The public input of an output is the commitment of the note that its private inputs describe. -/
def Circuit.Commits (transientHash : List Fr → Fr) (token_type : Bytes) (circuit : Circuit) : Prop :=
  (∃ note, circuit.Describes token_type note) ∧ ∀ note, circuit.Describes token_type note →
    circuit.public_inputs = some (.output (hexOf (note.computeCommitment transientHash)))

/-- The own shielded address names the own coin key. -/
theorem ShieldedWallet.new_address {keys : KeyFunctions} {seed : Bytes} {network : Network} {wallet : ShieldedWallet}
    (h : ShieldedWallet.new keys seed network = .ok wallet) :
    ∃ payload, decodeAddress wallet.address = .ok (.shielded, network, payload) ∧
      payload.take 32 = wallet.coin_public_key := by
  obtain ⟨secret, -, h⟩ := bind_ok_iff.mp h
  obtain ⟨address, haddress, h⟩ := bind_ok_iff.mp h
  rw [← Except.ok.inj h]
  refine ⟨_, encodeAddress_ok haddress, ?_⟩
  have hlen : (secret.coinPublicKey keys).length = 32 := (keys.sha256 _).property
  exact List.take_left' hlen

namespace TransactionBuilder

variable (transientHash : List Fr → Fr)

theorem outputCircuit_commits {token_type coin_pk nonce payload : Bytes} {value : Int} {recipient : String}
    {kind : AddrType} {network : Network} (hdecode : decodeAddress recipient = .ok (kind, network, payload))
    (hkey : payload.take 32 = coin_pk) :
    (outputCircuit transientHash token_type coin_pk nonce value recipient).Commits transientHash token_type := by
  constructor
  · exact ⟨⟨token_type, value, nonce, coin_pk, 0, none⟩, rfl, recipient, kind, network, payload, rfl, hdecode, hkey.symm⟩
  · intro note hnote
    obtain ⟨htoken, recipient', kind', network', payload', hprivate, hdecode', howner⟩ := hnote
    obtain ⟨hvalue, hrecipient, hnonce⟩ := PrivateInputs.output.inj (Option.some.inj hprivate)
    rw [← hrecipient, hdecode] at hdecode'
    have hpayload : payload = payload' := (Prod.mk.inj (Prod.mk.inj (Except.ok.inj hdecode')).2).2
    have hbytes : nonce = note.nonce := by
      have hback := congrArg fromhex hnonce
      simpa using hback
    rw [ShieldedCoinNote.computeCommitment, htoken, ← hvalue, howner, ← hpayload, hkey, ← hbytes]
    rfl

theorem spendCircuit_value {wallet : MidnightWallet} {coin : ShieldedCoinNote} {circuit : Circuit}
    (h : spendCircuit transientHash wallet coin = .ok circuit) :
    circuit.id = some "zswap_spend" ∧ circuit.spentValue = coin.value ∧ circuit.createdValue = 0 := by
  obtain ⟨path, root, -, -, rfl⟩ := of_spendCircuit h
  exact ⟨rfl, rfl, rfl⟩

/-- Spend circuits take in what their coins are worth, and give nothing out. -/
theorem spendCircuits_total {wallet : MidnightWallet} {coins : List ShieldedCoinNote} {spends : List Circuit}
    (h : traverse (spendCircuit transientHash wallet) coins = .ok spends) :
    total Circuit.spentValue spends = total ShieldedCoinNote.value coins ∧ total Circuit.createdValue spends = 0 := by
  induction coins generalizing spends with
  | nil =>
    cases h
    exact ⟨rfl, rfl⟩
  | cons coin coins ih =>
    obtain ⟨circuit, rest, hcircuit, hrest, rfl⟩ := traverse_cons_ok.mp h
    obtain ⟨-, hspent, hcreated⟩ := spendCircuit_value transientHash hcircuit
    obtain ⟨htotal, hnone⟩ := ih hrest
    simp only [total_cons, hspent, hcreated, htotal, hnone, add_zero, and_self]

/-- The own output is there for an excess, gives it back and commits to its note. -/
theorem changeCircuits_spec (token_type change_nonce : Bytes) {wallet : MidnightWallet} {own_payload : Bytes}
    {amount total_selected : Int} {kind : AddrType} {network : Network}
    (hdecode : decodeAddress wallet.shielded.address = .ok (kind, network, own_payload))
    (hkey : own_payload.take 32 = wallet.shielded.coin_public_key) (hcover : amount ≤ total_selected) :
    let change := changeCircuits transientHash wallet token_type change_nonce amount total_selected
    ((total_selected = amount ∧ change = []) ∨
      (amount < total_selected ∧ ∃ own : Circuit, change = [own] ∧ own.private_inputs =
        some (.output (total_selected-amount) wallet.shielded.address (hexOf change_nonce)))) ∧
    total Circuit.spentValue change = 0 ∧ total Circuit.createdValue change = total_selected-amount ∧
    ∀ output ∈ change, output.id = some "zswap_output" ∧ output.Commits transientHash token_type := by
  intro change
  have hcommits (output : Circuit) (houtput : output ∈ change) :
      output.id = some "zswap_output" ∧ output.Commits transientHash token_type := by
    rw [mem_changeCircuits houtput]
    exact ⟨rfl, outputCircuit_commits transientHash hdecode hkey⟩
  by_cases hmore : amount < total_selected
  · have hchange : change = [outputCircuit transientHash token_type wallet.shielded.coin_public_key change_nonce
        (total_selected-amount) wallet.shielded.address] := if_pos hmore
    refine ⟨Or.inr ⟨hmore, _, hchange, rfl⟩, ?_, ?_, hcommits⟩
    · rw [hchange, total_cons, total_nil]
      rfl
    · rw [hchange, total_cons, total_nil, add_zero]
      rfl
  · have hchange : change = [] := if_neg hmore
    refine ⟨Or.inl ⟨by omega, hchange⟩, ?_, ?_, hcommits⟩
    · rw [hchange, total_nil]
    · rw [hchange, total_nil]
      omega

/-- What a built shielded transfer does with the coins it was allowed to spend: each selected coin has a spend circuit,
one output pays the amount, the excess comes back in a second one, and the outputs commit to their notes. -/
def ConservesShielded (wallet : MidnightWallet) (to_address : String) (amount : Int)
    (token_type out_nonce change_nonce : Bytes) (coins : List ShieldedCoinNote) (tx : TxData) : Prop :=
  ∃ (selected : List ShieldedCoinNote) (spends : List Circuit) (recipient : Circuit) (change : List Circuit),
    tx.circuits = some (spends++recipient::change) ∧ selected.Subperm coins ∧
    List.Forall₂ (fun coin circuit => spendCircuit transientHash wallet coin = .ok circuit) selected spends ∧
    total Circuit.spentValue spends = total ShieldedCoinNote.value selected ∧
    recipient.private_inputs = some (.output amount to_address (hexOf out_nonce)) ∧
    ((total ShieldedCoinNote.value selected = amount ∧ change = []) ∨
      (amount < total ShieldedCoinNote.value selected ∧ ∃ own : Circuit, change = [own] ∧ own.private_inputs =
        some (.output (total ShieldedCoinNote.value selected-amount) wallet.shielded.address (hexOf change_nonce)))) ∧
    total Circuit.spentValue (spends++recipient::change) = total Circuit.createdValue (spends++recipient::change) ∧
    ∀ output ∈ recipient::change, output.id = some "zswap_output" ∧ output.Commits transientHash token_type

section Build

variable {wallet : MidnightWallet} {to_address : String} {kind : AddrType} {network : Network} {payload : Bytes}
  {keys : KeyFunctions} {seed : Bytes} {own_network : Network}

/-- A selection that covers the amount is settled without loss. -/
theorem buildShieldedTransfer_covers (amount : Int) (token_type out_nonce change_nonce : Bytes)
    (hcoins : ∀ coin ∈ wallet.shielded_state.unspent_coins, wallet.CanProve coin)
    (hrec : decodeAddress to_address = .ok (kind, network, payload))
    (hown : ShieldedWallet.new keys seed own_network = .ok wallet.shielded)
    (hcover : amount ≤ (selectCoins wallet.shielded_state.unspent_coins token_type amount).2) :
    ∃ tx, buildShieldedTransfer transientHash wallet to_address amount token_type out_nonce change_nonce = .ok tx ∧
      ConservesShielded transientHash wallet to_address amount token_type out_nonce change_nonce
        (wallet.shielded_state.unspent_coins.filter (fun c => c.token_type = token_type)) tx := by
  obtain ⟨selected, rest, hselect, hperm, -⟩ := largestFirst_spec ShieldedCoinNote.value amount
    (wallet.shielded_state.unspent_coins.filter (fun c => c.token_type = token_type))
  have hpicked : selectCoins wallet.shielded_state.unspent_coins token_type amount =
      (selected, total ShieldedCoinNote.value selected) := hselect
  have hsub : selected.Subperm (wallet.shielded_state.unspent_coins.filter (fun c => c.token_type = token_type)) :=
    (List.sublist_append_left selected rest).subperm.trans hperm.subperm
  obtain ⟨spends, hspends⟩ := spendCircuits_ok transientHash
    (fun coin hcoin => hcoins coin (List.mem_of_mem_filter (hsub.subset hcoin)))
  obtain ⟨hspent, hnone⟩ := spendCircuits_total transientHash hspends
  obtain ⟨own_payload, hown_decode, hown_key⟩ := ShieldedWallet.new_address hown
  rw [hpicked] at hcover
  have hcover : amount ≤ total ShieldedCoinNote.value selected := hcover
  let recipient := outputCircuit transientHash token_type (payload.take 32) out_nonce amount to_address
  obtain ⟨hexcess, hchange_spent, hchange_created, hchange⟩ :=
    changeCircuits_spec transientHash token_type change_nonce hown_decode hown_key hcover
  have hbuild : ∃ tx,
      buildShieldedTransfer transientHash wallet to_address amount token_type out_nonce change_nonce = .ok tx ∧
      tx.circuits = some (spends++recipient::changeCircuits transientHash wallet token_type change_nonce amount
        (total ShieldedCoinNote.value selected)) := by
    simp only [buildShieldedTransfer, hpicked, if_neg (not_lt.mpr hcover), hspends, ok_bind, hrec]
    exact ⟨_, rfl, rfl⟩
  obtain ⟨tx, htx, hcircuits⟩ := hbuild
  refine ⟨tx, htx, selected, spends, recipient, _, hcircuits, hsub, traverse_forall₂ hspends, hspent, rfl, hexcess,
    ?_, ?_⟩
  · have hzero : recipient.spentValue = 0 := rfl
    have hvalue : recipient.createdValue = amount := rfl
    rw [total_append, total_append, total_cons, total_cons, hspent, hnone, hzero, hvalue, hchange_spent,
      hchange_created]
    omega
  · intro output houtput
    rcases List.mem_cons.mp houtput with rfl | hmem
    · exact ⟨rfl, outputCircuit_commits transientHash hrec rfl⟩
    · exact hchange output hmem

/-- A shielded transfer fails for lack of funds exactly when the coins of the token fall short of the amount, and
otherwise it conserves value. -/
theorem buildShieldedTransfer_conserves (amount : Int) (token_type out_nonce change_nonce : Bytes)
    (hcoins : ∀ coin ∈ wallet.shielded_state.unspent_coins, 0 ≤ coin.value ∧ wallet.CanProve coin)
    (hrec : decodeAddress to_address = .ok (kind, network, payload))
    (hown : ShieldedWallet.new keys seed own_network = .ok wallet.shielded) :
    let built := buildShieldedTransfer transientHash wallet to_address amount token_type out_nonce change_nonce
    let coins := wallet.shielded_state.unspent_coins.filter (fun c => c.token_type = token_type)
    ((∃ e, built = .error e ∧ e.isTransactionError = true) ↔ total ShieldedCoinNote.value coins < amount) ∧
    (amount ≤ total ShieldedCoinNote.value coins → ∃ tx, built = .ok tx ∧
      ConservesShielded transientHash wallet to_address amount token_type out_nonce change_nonce coins tx) := by
  intro built coins
  have hnonneg : ∀ coin ∈ coins, 0 ≤ coin.value := fun coin hcoin => (hcoins coin (List.mem_of_mem_filter hcoin)).1
  have hshort : (selectCoins wallet.shielded_state.unspent_coins token_type amount).2 < amount ↔
      total ShieldedCoinNote.value coins < amount := by
    rw [← unreachable_iff_of_nonneg ShieldedCoinNote.value hnonneg, ← largestFirst_short_iff]
    rfl
  have hsettled (hcover : ¬ total ShieldedCoinNote.value coins < amount) : ∃ tx, built = .ok tx ∧
      ConservesShielded transientHash wallet to_address amount token_type out_nonce change_nonce coins tx := by
    rw [← hshort, not_lt] at hcover
    exact buildShieldedTransfer_covers transientHash amount token_type out_nonce change_nonce
      (fun coin hcoin => (hcoins coin hcoin).2) hrec hown hcover
  refine ⟨?_, fun hcover => hsettled (not_lt.mpr hcover)⟩
  constructor
  · intro hraised
    obtain ⟨e, he, -⟩ := hraised
    by_contra hcover
    obtain ⟨tx, htx, -⟩ := hsettled hcover
    rw [htx] at he
    cases he
  · intro hless
    exact ⟨_, if_pos (hshort.mpr hless), rfl⟩

end Build

end TransactionBuilder

/-- Coins in range can be proved in a tree whose stored indices are in range. -/
theorem MidnightWallet.canProve_of_inRange {wallet : MidnightWallet} {coin : ShieldedCoinNote}
    (htree : wallet.shielded_state.merkle_tree.InRange)
    (hindex : coin.merkle_tree_index < 2^wallet.shielded_state.merkle_tree.depth) : wallet.CanProve coin := by
  refine ⟨hindex, ?_⟩
  by_cases hempty : wallet.shielded_state.merkle_tree.leaves.entries = []
  · exact Or.inl hempty
  · obtain ⟨p, hp⟩ := List.exists_mem_of_ne_nil _ hempty
    have hkey : p.1 ∈ wallet.shielded_state.merkle_tree.leaves.keys := List.mem_map.mpr ⟨p, hp, rfl⟩
    exact Or.inr ⟨p.1, hkey, htree p.1 hkey⟩

/-- The sample coin of 1000 in the store that it was added to. -/
def storedCoin : ZswapState := (ZswapState.run digitHash ZswapState.new [.addCoin sampleCoin]).2

namespace TransactionBuilder

theorem buildShieldedTransfer_conserves_sample :
    ∃ wallet to_address tx, wallet.shielded_state = storedCoin ∧
      buildShieldedTransfer digitHash wallet to_address 400 sampleCoin.token_type [1] [2] = .ok tx ∧
      ConservesShielded digitHash wallet to_address 400 sampleCoin.token_type [1] [2] [sampleCoin] tx := by
  obtain ⟨to_address, -, hrec⟩ := encodeAddress_decodes (List.replicate 64 7) .shielded .preprod (by decide)
  have hown : ∃ own, ShieldedWallet.new plainKeys (List.replicate 32 0) .preprod = .ok own := by
    obtain ⟨secret, hsecret⟩ : ∃ secret, ZswapSecretKeys.fromSeed plainKeys (List.replicate 32 0) = .ok secret :=
      ⟨_, rfl⟩
    obtain ⟨address, haddress, -⟩ := encodeAddress_decodes
      (secret.coinPublicKey plainKeys++secret.encryptionPublicKey) .shielded .preprod (by decide)
    rw [ShieldedWallet.new, hsecret, ok_bind, haddress]
    exact ⟨_, rfl⟩
  obtain ⟨own, hown⟩ := hown
  let wallet : MidnightWallet := { sampleWallet with shielded := own, shielded_state := storedCoin }
  have htree : wallet.shielded_state.merkle_tree.InRange := by
    show ∀ i ∈ [(5 : Int)], 0 ≤ i ∧ i < 2^32
    decide
  have hcoins : ∀ coin ∈ wallet.shielded_state.unspent_coins, 0 ≤ coin.value ∧ wallet.CanProve coin := by
    intro coin hcoin
    have hsample : coin = sampleCoin := List.mem_singleton.mp hcoin
    have hindex : sampleCoin.merkle_tree_index < 2^storedCoin.merkle_tree.depth := by decide
    rw [hsample]
    exact ⟨by decide, MidnightWallet.canProve_of_inRange htree hindex⟩
  have hall : storedCoin.unspent_coins.filter (fun c => c.token_type = sampleCoin.token_type) = [sampleCoin] := by
    decide
  have h := (buildShieldedTransfer_conserves digitHash 400 sampleCoin.token_type [1] [2] hcoins hrec hown).2
  change (400 ≤ total ShieldedCoinNote.value (storedCoin.unspent_coins.filter _) → _) at h
  rw [hall] at h
  obtain ⟨tx, htx, hconserves⟩ := h (by decide)
  exact ⟨wallet, to_address, tx, rfl, htx, hconserves⟩

end TransactionBuilder

end Noxipher
