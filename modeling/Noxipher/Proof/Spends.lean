import Noxipher.Proof.Client
import Noxipher.Tx.ShieldedBalance
import Noxipher.Tx.Submission
import Noxipher.Wallet.ViewingKeys

namespace Noxipher

open Retrying TransactionBuilder

/-- What `json.dumps` raises on the dump of a coin. -/
def notSerializable : Failure := .raised (.typeError "Object of type bytes is not JSON serializable")

/-- The private inputs of a spend hold the dump of its coin. -/
def Circuit.Spends (circuit : Circuit) : Prop := ∃ coin sk_coin merkle_proof,
  circuit.private_inputs = some (.spend coin sk_coin merkle_proof)

namespace ZKProver

/-- The requests of a log that leave the client. -/
def posted (log : List (ProveRequest × Except Failure Bytes)) : List ProveRequest :=
  (log.map Prod.fst).filter (fun request => request.payload.isOk)

variable {client : ProofServerClient}

theorem proveRequest_private {circuit : Circuit} {request : ProveRequest} (h : proveRequest circuit = .ok request) :
    request.private_inputs = circuit.private_inputs := by
  obtain ⟨circuit_id, -, h⟩ := bind_ok_iff.mp h
  obtain ⟨proving_key, -, h⟩ := bind_ok_iff.mp h
  cases h
  rfl

/-- The request of a spend has no payload, whatever the server would answer. -/
theorem payload_of_spends {circuit : Circuit} {request : ProveRequest} (hspends : circuit.Spends)
    (h : proveRequest circuit = .ok request) : request.payload = .error notSerializable := by
  obtain ⟨coin, sk_coin, merkle_proof, hprivate⟩ := hspends
  rw [ProveRequest.payload, proveRequest_private h, hprivate]
  rfl

theorem proveOnce_of_payload {request : ProveRequest} {e : Failure} (h : request.payload = .error e) (n : Nat) :
    client.proveOnce n request = .error e := by
  rw [ProofServerClient.proveOnce, h]
  rfl

variable (client) in
/-- A spend stops the loop: nothing is returned, and what is posted belongs to the circuits before it. -/
theorem proveEach_stopped (before rest : List Circuit) {circuit : Circuit} (hspends : circuit.Spends) :
    (∀ proofs, (proveEach client (before++circuit::rest)).1 ≠ .ok proofs) ∧
      ∀ request ∈ posted (proveEach client (before++circuit::rest)).2, .ok request ∈ requests before := by
  have hitems : requests (before++circuit::rest) =
      requests before++(proveRequest circuit).mapError Failure.raised::requests rest := by
    rw [requests, List.map_append, List.map_cons]
    rfl
  have hnever : ∀ request proof_bytes, (proveRequest circuit).mapError Failure.raised = .ok request →
      (request, .ok proof_bytes) ∉ (proveEach client (before++circuit::rest)).2 := by
    intro request proof_bytes hrequest hmem
    obtain ⟨i, hi⟩ := List.getElem?_of_mem hmem
    have hanswer := calls_answers _ 0 _ i _ hi
    rw [proveOnce_of_payload (payload_of_spends hspends (mapError_ok.mp hrequest))] at hanswer
    cases hanswer
  obtain ⟨hout, hlog⟩ := (proveEach_served client (before++circuit::rest)).stopped hitems hnever
  refine ⟨hout, ?_⟩
  intro request hrequest
  obtain ⟨hmem, hpayload⟩ := List.mem_filter.mp hrequest
  obtain ⟨entry, hentry, rfl⟩ := List.mem_map.mp hmem
  rcases hlog entry hentry with hbefore | hown
  · exact hbefore
  · rw [payload_of_spends hspends (mapError_ok.mp hown.symm)] at hpayload
    cases hpayload

theorem proveLogged_stopped {unsigned_tx : TxData} {before rest : List Circuit} {circuit : Circuit}
    (hcircuits : unsigned_tx.circuits = some (before++circuit::rest)) (hspends : circuit.Spends) :
    (∀ proven, (proveLogged client unsigned_tx).1 ≠ .ok proven) ∧
      ∀ request ∈ posted (proveLogged client unsigned_tx).2, .ok request ∈ requests before := by
  cases hchecked : checked client unsigned_tx with
  | error e =>
    rw [proveLogged_refused hchecked]
    exact ⟨fun proven h => (nomatch h), fun request h => (nomatch h)⟩
  | ok tx =>
    have hlist := (checked_ok hchecked).2
    rw [hcircuits, Option.getD_some] at hlist
    obtain ⟨hout, hposted⟩ := proveEach_stopped client before rest hspends
    rw [proveLogged_eq hchecked, hlist]
    refine ⟨?_, hposted⟩
    intro proven h
    cases hproofs : (proveEach client (before++circuit::rest)).1 with
    | error gave =>
      rw [hproofs] at h
      cases h
    | ok proofs => exact hout proofs hproofs

/-- A loop that begins with a spend makes two attempts for it, and that is all. -/
theorem proveEach_spend {circuit : Circuit} {request : ProveRequest} (hspends : circuit.Spends)
    (hrequest : proveRequest circuit = .ok request) (rest : List Circuit) :
    proveEach client (circuit::rest) = (.error (.exhausted notSerializable),
      [(request, .error notSerializable), (request, .error notSerializable)]) := by
  have hanswer (n : Nat) : client.proveOnce n request = .error notSerializable :=
    proveOnce_of_payload (payload_of_spends hspends hrequest) n
  have hcall : attempt ProofServerClient.retried (fun i => client.proveOnce i request)
      ProofServerClient.moreAttempts 0 = (.error (.exhausted notSerializable), 2) := by
    have hagain := @attempt_again _ _ ProofServerClient.retried (fun i => client.proveOnce i request) 0 _ _ (hanswer 0) rfl
    exact hagain.trans (attempt_exhausted (hanswer 1) rfl)
  have hnext : (attempt ProofServerClient.retried (fun i => client.proveOnce i request)
      ProofServerClient.moreAttempts 0).2 = 0+[notSerializable].length+1 := by
    rw [hcall]
    rfl
  have hrequests : requests (circuit::rest) = .ok request::requests rest := by
    rw [requests, List.map_cons, hrequest]
    rfl
  rw [proveEach, hrequests, calls_cons hnext, hcall]
  show (_, [(request, client.proveOnce 0 request), (request, client.proveOnce 1 request)]) = _
  rw [hanswer, hanswer]

end ZKProver

namespace TransactionBuilder

variable {transientHash : List Fr → Fr} {client : NoxipherClient} {rnd out_nonce change_nonce : Bytes}
  {wallet : MidnightWallet} {to_address : String} {amount : Int} {token_type : Bytes} {fee : Option Int} {ttl : Int}
  {unsigned_tx : TxData}

/-- The first circuit of a transfer of something is a spend that can be asked for. -/
theorem unsignedShielded_spends (hbuilt : unsignedShielded transientHash client rnd out_nonce change_nonce wallet
    to_address amount token_type fee ttl = .ok unsigned_tx) (hpos : 0 < amount) :
    ∃ circuit rest request, unsigned_tx.circuits = some (circuit::rest) ∧ circuit.Spends ∧
      ZKProver.proveRequest circuit = .ok request := by
  obtain ⟨tx, htx, hbuilt⟩ := bind_ok_iff.mp hbuilt
  obtain ⟨part, -, hbuilt⟩ := bind_ok_iff.mp hbuilt
  cases hbuilt
  obtain ⟨spends, decoded, hcover, hspends, -, rfl⟩ := of_buildShieldedTransfer htx
  obtain ⟨selected, rest, hpicked, -, -⟩ := Greedy.largestFirst_spec ShieldedCoinNote.value amount
    (wallet.shielded_state.unspent_coins.filter (fun c => c.token_type = token_type))
  have hselected : selectCoins wallet.shielded_state.unspent_coins token_type amount =
      (selected, Greedy.total ShieldedCoinNote.value selected) := hpicked
  rw [hselected] at hcover hspends
  cases selected with
  | nil => exact absurd hcover (not_le.mpr hpos)
  | cons coin selected =>
    obtain ⟨circuit, circuits, hcircuit, -, rfl⟩ := traverse_cons_ok.mp hspends
    obtain ⟨path, root, -, -, rfl⟩ := of_spendCircuit hcircuit
    exact ⟨_, _, _, rfl, ⟨coin, _, _, rfl⟩, rfl⟩

/-- A shielded transfer of something is never proven: the request of its first spend holds the bytes of the coin, which
cannot be written as JSON, so both attempts fail before anything is posted. -/
theorem spends_never_posted (hbuilt : unsignedShielded transientHash client rnd out_nonce change_nonce wallet to_address
    amount token_type fee ttl = .ok unsigned_tx) (hpos : 0 < amount) (server : ProofServerClient) :
    (∀ proven, (ZKProver.proveLogged server unsigned_tx).1 ≠ .ok proven) ∧
    ZKProver.posted (ZKProver.proveLogged server unsigned_tx).2 = [] ∧
    ∀ health, server.health = .ok health → health.truthy = true →
      ∃ request, ZKProver.proveLogged server unsigned_tx = (.error (.exhausted notSerializable),
        [(request, .error notSerializable), (request, .error notSerializable)]) := by
  obtain ⟨circuit, rest, request, hcircuits, hspends, hrequest⟩ := unsignedShielded_spends hbuilt hpos
  obtain ⟨hout, hposted⟩ := @ZKProver.proveLogged_stopped server _ [] _ _ hcircuits hspends
  refine ⟨hout, List.eq_nil_iff_forall_not_mem.mpr (fun request h => (nomatch hposted request h)), ?_⟩
  intro health hhealth htruthy
  obtain ⟨tx, hvalid⟩ : ∃ tx, UnsignedTransaction.modelValidate unsigned_tx = .ok tx := by
    have htype := (unsignedShielded_ok _ _ _ _ _ _ _ _ _ _ _ hbuilt).1
    rw [UnsignedTransaction.modelValidate, htype]
    exact ⟨_, rfl⟩
  have hchecked := ZKProver.checked_of_healthy hvalid hhealth htruthy
  have hlist := (ZKProver.checked_ok hchecked).2
  rw [hcircuits, Option.getD_some] at hlist
  refine ⟨request, ?_⟩
  rw [ZKProver.proveLogged_eq hchecked, hlist, ZKProver.proveEach_spend hspends hrequest]
  rfl

/-- A Proof Server that is up and answers every POST. -/
def answeringClient : ProofServerClient := ⟨.ok (.obj [("status", .str "ok")]), fun _ _ => .ok [1]⟩

/-- A funded transfer of 400 of a coin of 1000 is built, and stops at its first circuit. -/
theorem spends_never_posted_sample :
    ∃ wallet to_address unsigned_tx request, unsignedShielded digitHash feeClient (List.replicate 32 9) [1] [2] wallet
        to_address 400 sampleCoin.token_type none 1800 = .ok unsigned_tx ∧
      ZKProver.posted (ZKProver.proveLogged answeringClient unsigned_tx).2 = [] ∧
      ZKProver.proveLogged answeringClient unsigned_tx = (.error (.exhausted notSerializable),
        [(request, .error notSerializable), (request, .error notSerializable)]) := by
  obtain ⟨to_address, -, hrec⟩ := encodeAddress_decodes (List.replicate 64 7) .shielded .preprod (by decide)
  obtain ⟨address, -, hpaid⟩ := encodeAddress_decodes (List.replicate 32 7) .unshielded .preprod (by decide)
  have hown : ∃ own, ShieldedWallet.new plainKeys (List.replicate 32 0) .preprod = .ok own :=
    ShieldedWallet.new_returns (by decide) (by decide)
  obtain ⟨own, hown⟩ := hown
  let wallet : MidnightWallet := { walletAt address with shielded := own, shielded_state := storedCoin }
  have htree : wallet.shielded_state.merkle_tree.InRange := by
    show ∀ i ∈ [(5 : Int)], 0 ≤ i ∧ i < 2^32
    decide
  have hcoins : ∀ coin ∈ wallet.shielded_state.unspent_coins, wallet.CanProve coin := by
    intro coin hcoin
    have hsample : coin = sampleCoin := List.mem_singleton.mp hcoin
    have hindex : sampleCoin.merkle_tree_index < 2^storedCoin.merkle_tree.depth := by decide
    rw [hsample]
    exact MidnightWallet.canProve_of_inRange htree hindex
  have hcover : 400 ≤ (selectCoins wallet.shielded_state.unspent_coins sampleCoin.token_type 400).2 := by
    show 400 ≤ (selectCoins storedCoin.unspent_coins sampleCoin.token_type 400).2
    decide +kernel
  obtain ⟨tx, htx, -⟩ := buildShieldedTransfer_covers digitHash 400 sampleCoin.token_type [1] [2] hcoins hrec hown hcover
  obtain ⟨part, hpart, -⟩ := (buildUnshieldedTransfer_outcome feeClient (List.replicate 32 9) wallet address 0 none 1800
    RawTokenType.NATIVE_NIGHT true .unshielded .preprod (List.replicate 32 7) dustUtxos hpaid (feeClient_fetch address)
    dustUtxos_wellFormed le_rfl).2 (by decide)
  have hbuilt : ∃ unsigned_tx, unsignedShielded digitHash feeClient (List.replicate 32 9) [1] [2] wallet to_address 400
      sampleCoin.token_type none 1800 = .ok unsigned_tx := by
    have hfee : feePart feeClient (List.replicate 32 9) wallet none 1800 = .ok part := hpart
    rw [unsignedShielded, htx, ok_bind, hfee]
    exact ⟨_, rfl⟩
  obtain ⟨unsigned_tx, hbuilt⟩ := hbuilt
  obtain ⟨-, hposted, hrun⟩ := spends_never_posted hbuilt (by decide) answeringClient
  obtain ⟨request, hrequest⟩ := hrun _ rfl (by decide)
  exact ⟨wallet, to_address, unsigned_tx, request, hbuilt, hposted, hrequest⟩

end TransactionBuilder

end Noxipher
