import Noxipher.Tx.Submission

namespace Noxipher

/-- A shielded transfer: spend circuits that all publish one root, then output circuits. -/
structure ShieldedCircuits (tx : TxData) (spends outputs : List Circuit) (root : String) : Prop where
  type : tx.type = some "shielded_transfer"
  circuits : tx.circuits = some (spends++outputs)
  some_spend : spends ≠ []
  some_output : outputs ≠ []
  spend : ∀ circuit ∈ spends, circuit.id = some "zswap_spend" ∧ circuit.proving_key_hex = none ∧
    ∃ nullifier, circuit.public_inputs = some (.spend nullifier root)
  output : ∀ circuit ∈ outputs, circuit.id = some "zswap_output" ∧ circuit.proving_key_hex = none

/-- A healthy server that answers the requests in turn. -/
def answering (answers : Nat → Bytes) : ProofServer := ⟨.ok true, fun n _ => .ok (answers n)⟩

open Greedy

namespace TransactionBuilder

/-- What `transfer` builds for a positive amount has this shape, with the root of the wallet's tree. -/
theorem unsignedShielded_circuits {transientHash : List Fr → Fr} {client : NoxipherClient}
    {rnd out_nonce change_nonce : Bytes} {wallet : MidnightWallet} {to_address : String} {amount : Int}
    {token_type : Bytes} {fee : Option Int} {ttl : Int} {tx : TxData} (hamount : 0 < amount)
    (h : unsignedShielded transientHash client rnd out_nonce change_nonce wallet to_address amount token_type fee ttl =
      .ok tx) :
    ∃ spends outputs root, wallet.shielded_state.merkle_tree.root transientHash = .ok root ∧
      ShieldedCircuits tx spends outputs (hexOf root) := by
  obtain ⟨shielded_tx, hbuilt, h⟩ := bind_ok_iff.mp h
  obtain ⟨part, -, h⟩ := bind_ok_iff.mp h
  cases h
  obtain ⟨spends, decoded, hcover, hspends, -, rfl⟩ := of_buildShieldedTransfer hbuilt
  have hpicked : (selectCoins wallet.shielded_state.unspent_coins token_type amount).1 ≠ [] := by
    intro hnil
    obtain ⟨selected, rest, hselect, -, -⟩ := largestFirst_spec ShieldedCoinNote.value amount
      (wallet.shielded_state.unspent_coins.filter (fun c => c.token_type = token_type))
    rw [selectCoins, hselect] at hnil hcover
    rw [show selected = [] from hnil, total_nil] at hcover
    exact absurd hamount (not_lt.mpr hcover)
  obtain ⟨coin, hcoin⟩ := List.exists_mem_of_ne_nil _ hpicked
  have hspend (circuit : Circuit) (hmem : circuit ∈ spends) : ∃ root nullifier,
      wallet.shielded_state.merkle_tree.root transientHash = .ok root ∧ circuit.id = some "zswap_spend" ∧
      circuit.proving_key_hex = none ∧ circuit.public_inputs = some (.spend nullifier (hexOf root)) := by
    obtain ⟨source, -, hsource⟩ := traverse_mem hspends hmem
    obtain ⟨path, root, -, hroot, rfl⟩ := of_spendCircuit hsource
    exact ⟨root, _, hroot, rfl, rfl, rfl⟩
  obtain ⟨first, -, hfirst⟩ := traverse_all hspends coin hcoin
  obtain ⟨path, root, -, hroot, -⟩ := of_spendCircuit hfirst
  refine ⟨spends, _, root, hroot, rfl, rfl, ?_, List.cons_ne_nil _ _, ?_, ?_⟩
  · intro hnil
    rw [hnil] at hspends
    obtain ⟨as, hpick⟩ := List.exists_cons_of_ne_nil hpicked
    obtain ⟨rest, hpick⟩ := hpick
    rw [hpick] at hspends
    obtain ⟨b, bs, -, -, hcons⟩ := traverse_cons_ok.mp hspends
    cases hcons
  · intro circuit hmem
    obtain ⟨root', nullifier, hroot', hid, hkey, hpublic⟩ := hspend circuit hmem
    rw [hroot] at hroot'
    cases hroot'
    exact ⟨hid, hkey, nullifier, hpublic⟩
  · intro circuit hmem
    rcases List.mem_cons.mp hmem with rfl | hmem
    · exact ⟨rfl, rfl⟩
    · rw [mem_changeCircuits hmem]
      exact ⟨rfl, rfl⟩

section Slots

variable (network_id : String) (rnd : Bytes) (wallet : MidnightWallet) (draw : Nat)

/-- Serializing returns, and the offer of segment 0 holds the proofs in their slots and the root. -/
def SlotsProofs (proven : TxData) (spend_proofs output_proofs : List Bytes) (root : String) : Prop :=
  ∃ out stx coins offer merkle_root, serializeTransaction network_id rnd wallet draw proven = .ok out ∧
    out.tx_data.standard = some stx ∧ stx.fallible_coins = some coins ∧ coins.get? (.str "0") = some offer ∧
    offer.spend_proofs = spend_proofs ∧ offer.output_proofs = output_proofs ∧
    offer.merkle_root = some merkle_root ∧ merkle_root.toBytes = fromhex root

end Slots

/-- With answers to all requests every circuit gets its proof. -/
theorem proveCircuits_answering (answers : Nat → Bytes) (n : Nat) (circuits : List Circuit)
    (h : ∀ circuit ∈ circuits, ∃ request, ZKProver.proveRequest circuit = .ok request) :
    ZKProver.proveCircuits (answering answers) n circuits =
      .ok ((List.range circuits.length).map (fun i => hexOf (answers (n+i)))) := by
  induction circuits generalizing n with
  | nil => rfl
  | cons circuit circuits ih =>
    obtain ⟨request, hrequest⟩ := h circuit (by simp)
    have hrest := ih (n+1) (fun c hc => h c (by simp [hc]))
    have hanswer : (answering answers).prove n request = .ok (answers n) := rfl
    have hshift : (fun i => hexOf (answers (n+(i+1)))) = fun i => hexOf (answers (n+1+i)) := by
      funext i
      rw [Nat.add_assoc, Nat.add_comm 1 i]
    rw [ZKProver.proveCircuits, hrequest, ok_bind, hanswer, ok_bind, hrest, ok_bind, List.length_cons,
      List.range_succ_eq_map, List.map_cons, List.map_map]
    change Except.ok _ = Except.ok (_::List.map (fun i => hexOf (answers (n+(i+1)))) _)
    rw [hshift]
    rfl

section Proving

variable {tx proven : TxData} {spends outputs : List Circuit} {root : String} {server : ProofServer}

theorem ShieldedCircuits.request (h : ShieldedCircuits tx spends outputs root) :
    ∀ circuit ∈ spends++outputs, ∃ request, ZKProver.proveRequest circuit = .ok request := by
  have hready (circuit : Circuit) (id : String) (hid : circuit.id = some id) (hkey : circuit.proving_key_hex = none) :
      ∃ request, ZKProver.proveRequest circuit = .ok request := by
    have hempty : fromhex "" = .ok [] := by decide
    rw [ZKProver.proveRequest, hid, required_some, ok_bind, hkey, Option.getD_none, hempty]
    exact ⟨_, rfl⟩
  intro circuit hmem
  rcases List.mem_append.mp hmem with hmem | hmem
  · obtain ⟨hid, hkey, -⟩ := h.spend circuit hmem
    exact hready circuit _ hid hkey
  · obtain ⟨hid, hkey⟩ := h.output circuit hmem
    exact hready circuit _ hid hkey

/-- The answers come back as one flat list over both kinds of circuits. -/
theorem proveTransaction_answering (h : ShieldedCircuits tx spends outputs root) (answers : Nat → Bytes) :
    ∃ proven, proveTransaction (answering answers) tx = .ok proven ∧
      proven.proof_hexes = some (.list
        ((List.range (spends.length+outputs.length)).map (fun i => hexOf (answers i)))) := by
  have hne : spends++outputs ≠ [] := by
    intro hnil
    exact h.some_spend (List.append_eq_nil_iff.mp hnil).1
  have hproofs := proveCircuits_answering answers 0 (spends++outputs) (ShieldedCircuits.request h)
  have hvalid : UnsignedTransaction.modelValidate tx = .ok {
      type := "shielded_transfer"
      requires_unshielded_signature := tx.requires_unshielded_signature.getD false
      signing_payload_hex := tx.signing_payload_hex.getD ""
      circuits := spends++outputs
      guaranteed_hex := tx.guaranteed_hex.getD ""
      fallible_hexes := tx.fallible_hexes.getD [] } := by
    rw [UnsignedTransaction.modelValidate, h.type, h.circuits]
    rfl
  have hhealth : (answering answers).health = .ok true := rfl
  rw [proveTransaction, ZKProver.proveTransaction, hvalid, ok_bind, hhealth, ok_bind, if_neg (by simp), if_neg hne,
    hproofs]
  refine ⟨_, rfl, ?_⟩
  simp only [ProvenTransaction.modelDump, List.length_append, Nat.zero_add]

/-- The proven dictionary has no root, so even with grouped proofs the offer gets the default one. -/
theorem regrouped_root (hproven : proveTransaction server tx = .ok proven) (spend_hexes output_hexes : List HexOrBytes)
    {offer : ZswapOffer}
    (hoffer : zswapOfferOf { proven with proof_hexes := some (.dict (some spend_hexes) (some output_hexes)) } = .ok offer) :
    offer.merkle_root = some (.bytes (List.replicate 32 0)) := by
  obtain ⟨p, -, hproven⟩ := bind_ok_iff.mp hproven
  cases hproven
  obtain ⟨spend_proofs, -, hoffer⟩ := bind_ok_iff.mp hoffer
  obtain ⟨output_proofs, -, hoffer⟩ := bind_ok_iff.mp hoffer
  cases hoffer
  rfl

/-- No proof of a shielded transfer reaches its slot: the prover answers with one flat list, of which the
serializer asks its two groups, and the root is not handed on at all. -/
theorem proofs_never_slotted (h : ShieldedCircuits tx spends outputs root) :
    (∀ server proven, proveTransaction server tx = .ok proven →
      (∀ network_id rnd wallet draw,
        serializeTransaction network_id rnd wallet draw proven =
          .error (.attributeError "'list' object has no attribute 'get'") ∧
        ∀ spend_proofs output_proofs,
          ¬ SlotsProofs network_id rnd wallet draw proven spend_proofs output_proofs root) ∧
      ∀ spend_hexes output_hexes offer,
        zswapOfferOf { proven with proof_hexes := some (.dict (some spend_hexes) (some output_hexes)) } = .ok offer →
        offer.merkle_root = some (.bytes (List.replicate 32 0))) ∧
    ∀ answers, ∃ proven, proveTransaction (answering answers) tx = .ok proven ∧
      proven.proof_hexes = some (.list
        ((List.range (spends.length+outputs.length)).map (fun i => hexOf (answers i)))) := by
  refine ⟨?_, proveTransaction_answering h⟩
  intro server proven hproven
  constructor
  · intro network_id rnd wallet draw
    have hrefused : serializeTransaction network_id rnd wallet draw proven =
        .error (.attributeError "'list' object has no attribute 'get'") :=
      (proveTransaction_bare hproven).shielded_refused h.type
    refine ⟨hrefused, ?_⟩
    intro spend_proofs output_proofs ⟨out, stx, coins, offer, merkle_root, hout, _⟩
    rw [hrefused] at hout
    cases hout
  · intro spend_hexes output_hexes offer hoffer
    exact regrouped_root hproven spend_hexes output_hexes hoffer

end Proving

/-- One spend and one output under a root of 32 bytes. -/
def smallShielded : TxData where
  type := some "shielded_transfer"
  circuits := some [
    { id := some "zswap_spend", public_inputs := some (.spend zeroHex (hexOf (List.replicate 32 5))) },
    { id := some "zswap_output", public_inputs := some (.output zeroHex) }]

theorem smallShielded_circuits :
    ∃ spends outputs, ShieldedCircuits smallShielded spends outputs (hexOf (List.replicate 32 5)) := by
  refine ⟨[_], [_], rfl, rfl, by simp, by simp, ?_, ?_⟩
  · intro circuit hmem
    rw [List.mem_singleton.mp hmem]
    exact ⟨rfl, rfl, _, rfl⟩
  · intro circuit hmem
    rw [List.mem_singleton.mp hmem]
    exact ⟨rfl, rfl⟩

theorem proofs_never_slotted_sample :
    ∃ proven, proveTransaction (answering (fun i => [UInt8.ofNat i])) smallShielded = .ok proven ∧
      serializeTransaction "preprod" [] sampleWallet 0 proven =
        .error (.attributeError "'list' object has no attribute 'get'") := by
  obtain ⟨spends, outputs, h⟩ := smallShielded_circuits
  obtain ⟨proven, hproven, -⟩ := (proofs_never_slotted h).2 (fun i => [UInt8.ofNat i])
  exact ⟨proven, hproven, (((proofs_never_slotted h).1 _ _ hproven).1 "preprod" [] sampleWallet 0).1⟩

/-- Two proofs that were made for one spend and one output end in no slot. -/
theorem two_proofs_lost :
    ∃ proven, proveTransaction (answering (fun i => [UInt8.ofNat i])) smallShielded = .ok proven ∧
      proven.proof_hexes = some (.list ["00", "01"]) ∧
      ¬ SlotsProofs "preprod" [] sampleWallet 0 proven [[0]] [[1]] (hexOf (List.replicate 32 5)) := by
  obtain ⟨spends, outputs, h⟩ := smallShielded_circuits
  refine ⟨_, rfl, by decide, ?_⟩
  intro ⟨out, stx, coins, offer, merkle_root, hout, _⟩
  have hproven : proveTransaction (answering (fun i => [UInt8.ofNat i])) smallShielded = .ok _ := rfl
  rw [(proveTransaction_bare hproven).shielded_refused h.type] at hout
  cases hout

end TransactionBuilder

end Noxipher
