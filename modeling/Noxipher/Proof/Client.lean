import Noxipher.Core.Failures
import Noxipher.Indexer.Models
import Noxipher.Library.Retrying
import Noxipher.Proof.Prover
import Noxipher.Tx.Shielded

namespace Noxipher

open Retrying

/-- How a request of `httpx` fails: with an `httpx.HTTPError`, of the transport or of `raise_for_status`, or with
another exception. -/
inductive HttpFailure where
  | httpError (msg : String)
  | other (e : Failure)
  deriving DecidableEq

/-- `except httpx.HTTPError as e: raise ProofError(...)` -/
def HttpFailure.proofFailure (context : String) : HttpFailure → Failure
  | httpError msg => .raised (.proofError (context++msg))
  | other e => e

/-- `bool(v)` of a decoded document -/
def Json.truthy : Json → Bool
  | null => false
  | bool b => b
  | int n => n ≠ 0
  | str s => s ≠ ""
  | arr items => !items.isEmpty
  | obj fields => !fields.isEmpty

/-- The body of a POST as `json.dumps` writes it: the dump of a coin holds bytes, which it refuses. -/
def ProveRequest.payload (request : ProveRequest) : Except Failure ProveRequest :=
  match request.private_inputs with
  | some (.spend ..) => .error (.raised (.typeError "Object of type bytes is not JSON serializable"))
  | _ => .ok request

/-- The Proof Server behind its client: the document of `/health`, and what a POST to `/prove` is answered in each
numbered attempt. -/
structure ProofServerClient where
  get : Except HttpFailure Json
  post : Nat → ProveRequest → Except HttpFailure Bytes

namespace ProofServerClient

variable (client : ProofServerClient)

def health : Except Failure Json := client.get.mapError (HttpFailure.proofFailure "Proof server health check failed: ")

/-- One attempt of `prove`. -/
def proveOnce (n : Nat) (request : ProveRequest) : Except Failure Bytes := do
  let payload ← request.payload
  (client.post n payload).mapError (HttpFailure.proofFailure "Proof generation failed: ")

/-- The decorator retries on `Exception`, which a cancellation is not. -/
def retried (e : Failure) : Bool := e ≠ .cancelledError

/-- `stop_after_attempt(2)`: one attempt more. -/
def moreAttempts : Nat := 1

/-- `prove`, its attempts numbered from `n` on. -/
def prove (request : ProveRequest) (n : Nat) : Except (GaveUp Failure) Bytes × Nat :=
  attempt retried (fun i => client.proveOnce i request) moreAttempts n

end ProofServerClient

namespace ZKProver

/-- The requests of the circuits; an error of the prover itself is not retried. -/
def requests (circuits : List Circuit) : List (Except Failure ProveRequest) :=
  circuits.map (fun circuit => (proveRequest circuit).mapError Failure.raised)

/-- The loop over the circuits, and all attempts it makes. -/
def proveEach (client : ProofServerClient) (circuits : List Circuit) :
    Except (GaveUp Failure) (List Bytes) × List (ProveRequest × Except Failure Bytes) :=
  calls ProofServerClient.retried ProofServerClient.moreAttempts client.proveOnce 0 (requests circuits)

/-- `prove_transaction` up to the circuits. -/
def checked (client : ProofServerClient) (unsigned_tx : TxData) : Except Failure UnsignedTransaction := do
  let tx ← (UnsignedTransaction.modelValidate unsigned_tx).mapError Failure.raised
  let health ← client.health
  if health.truthy = false then .error (.raised (.proofError "Proof Server is unreachable"))
  else .ok tx

def provenOf (tx : UnsignedTransaction) (proof_hexes : List String) : ProvenTransaction where
  type := tx.type
  guaranteed_hex := tx.guaranteed_hex
  fallible_hexes := tx.fallible_hexes
  proof_hexes := proof_hexes
  requires_unshielded_signature := tx.requires_unshielded_signature
  signing_payload_hex := tx.signing_payload_hex

/-- `prove_transaction` over the client with its retries. -/
def proveLogged (client : ProofServerClient) (unsigned_tx : TxData) :
    Except (GaveUp Failure) ProvenTransaction × List (ProveRequest × Except Failure Bytes) :=
  match checked client unsigned_tx with
  | .error e => (.error (.raised e), [])
  | .ok tx =>
    if tx.circuits = [] then (.ok (provenOf tx []), [])
    else
      let (proofs, log) := proveEach client tx.circuits
      (proofs.map (fun proofs => provenOf tx (proofs.map hexOf)), log)

end ZKProver

/-- What a call that gave up raised last. -/
def failureOf : GaveUp Failure → Failure
  | .exhausted e | .raised e => e

/-- An exception of the clients as one of the exceptions of the model. -/
def Failure.asPyError : Failure → PyError
  | raised e => e
  | e => .proofError e.str

/-- The client with its retries as a server that is asked once for each circuit: a call begins behind the attempts of
the calls before it. -/
def ProofServerClient.asServer (client : ProofServerClient) (circuits : List Circuit) : ProofServer where
  health := (client.health.map Json.truthy).mapError Failure.asPyError
  prove := fun k request => (client.prove request (ZKProver.proveEach client (circuits.take k)).2.length).1.mapError
    (fun gave => (failureOf gave).asPyError)

namespace ZKProver

variable {client : ProofServerClient}

theorem requests_concat {circuits : List Circuit} {circuit : Circuit} {request : ProveRequest}
    (h : proveRequest circuit = .ok request) : requests (circuits++[circuit]) = requests circuits++[.ok request] := by
  rw [requests, List.map_append, List.map_singleton, h]
  rfl

/-- From any circuit on the loop over the client and the loop over the server return the same proofs. -/
theorem proveCircuits_asServer {before rest : List Circuit} {earlier : List Bytes}
    (hbefore : (proveEach client before).1 = .ok earlier) (proof_hexes : List String) :
    proveCircuits (client.asServer (before++rest)) before.length rest = .ok proof_hexes ↔
      ∃ proofs, (calls ProofServerClient.retried ProofServerClient.moreAttempts client.proveOnce
        (proveEach client before).2.length (requests rest)).1 = .ok proofs ∧ proof_hexes = proofs.map hexOf := by
  induction rest generalizing before earlier proof_hexes with
  | nil =>
    constructor
    · intro h
      cases h
      exact ⟨[], rfl, rfl⟩
    · rintro ⟨proofs, h, rfl⟩
      cases h
      rfl
  | cons circuit rest ih =>
    cases hrequest : proveRequest circuit with
    | error e =>
      rw [proveCircuits, hrequest, requests, List.map_cons, hrequest]
      constructor
      · intro h
        cases h
      · rintro ⟨proofs, h, -⟩
        cases h
    | ok request =>
      have hserver : (client.asServer (before++circuit::rest)).prove before.length request =
          (client.prove request (proveEach client before).2.length).1.mapError
            (fun gave => (failureOf gave).asPyError) := by
        simp only [ProofServerClient.asServer, List.take_left]
      have hrequests : requests (circuit::rest) = .ok request::requests rest := by
        rw [requests, List.map_cons, hrequest]
        rfl
      rw [proveCircuits, hrequest, ok_bind, hserver, hrequests]
      cases hcall : client.prove request (proveEach client before).2.length with
      | mk outcome next =>
        rw [calls_outcome hcall]
        cases outcome with
        | error gave =>
          constructor
          · intro h
            cases h
          · rintro ⟨proofs, h, -⟩
            cases h
        | ok proof_bytes =>
          have hmore := calls_concat hbefore (b := request) (by rw [Nat.zero_add]; exact hcall)
          rw [← requests_concat hrequest, Nat.zero_add] at hmore
          obtain ⟨hearlier, hnext⟩ := hmore
          have hrest := ih hearlier
          rw [List.append_assoc, List.singleton_append, List.length_append, List.length_singleton] at hrest
          rw [show (proveEach client (before++[circuit])).2.length = next from hnext] at hrest
          show (proveCircuits _ _ rest >>= fun proof_hexes => .ok (hexOf proof_bytes::proof_hexes)) = _ ↔ _
          constructor
          · intro h
            obtain ⟨hexes, hhexes, h⟩ := bind_ok_iff.mp h
            obtain ⟨proofs, hproofs, rfl⟩ := (hrest hexes).mp hhexes
            cases h
            exact ⟨proof_bytes::proofs, by rw [hproofs]; rfl, rfl⟩
          · rintro ⟨proofs, h, rfl⟩
            obtain ⟨later, hlater, rfl⟩ : ∃ later, (calls ProofServerClient.retried ProofServerClient.moreAttempts
                client.proveOnce next (requests rest)).1 = .ok later ∧ proofs = proof_bytes::later := by
              cases hlater : (calls ProofServerClient.retried ProofServerClient.moreAttempts client.proveOnce next
                (requests rest)).1 with
              | error gave =>
                rw [hlater] at h
                cases h
              | ok later =>
                rw [hlater] at h
                cases h
                exact ⟨later, rfl, rfl⟩
            rw [(hrest _).mpr ⟨later, hlater, rfl⟩]
            rfl

variable (client) in
theorem proveEach_served (circuits : List Circuit) :
    Served ProofServerClient.retried ProofServerClient.moreAttempts (requests circuits) (proveEach client circuits).2
      (proveEach client circuits).1 :=
  calls_served _ 0 (requests circuits)

theorem checked_ok {unsigned_tx : TxData} {tx : UnsignedTransaction} (h : checked client unsigned_tx = .ok tx) :
    UnsignedTransaction.modelValidate unsigned_tx = .ok tx ∧ tx.circuits = unsigned_tx.circuits.getD [] := by
  obtain ⟨tx', htx, h⟩ := bind_ok_iff.mp h
  obtain ⟨health, -, h⟩ := bind_ok_iff.mp h
  split_ifs at h
  cases h
  have hvalid := mapError_ok.mp htx
  refine ⟨hvalid, ?_⟩
  obtain ⟨type, -, hvalid⟩ := bind_ok_iff.mp hvalid
  cases hvalid
  rfl

theorem checked_of_healthy {unsigned_tx : TxData} {tx : UnsignedTransaction} {health : Json}
    (hvalid : UnsignedTransaction.modelValidate unsigned_tx = .ok tx) (hhealth : client.health = .ok health)
    (htruthy : health.truthy = true) : checked client unsigned_tx = .ok tx := by
  simp only [checked, hvalid, hhealth, Except.mapError, ok_bind, htruthy, Bool.true_eq_false, if_false]

/-- The loop tells how a run ends that passes the checks. -/
theorem proveLogged_eq {unsigned_tx : TxData} {tx : UnsignedTransaction} (h : checked client unsigned_tx = .ok tx) :
    proveLogged client unsigned_tx =
      ((proveEach client tx.circuits).1.map (fun proofs => provenOf tx (proofs.map hexOf)),
        (proveEach client tx.circuits).2) := by
  unfold proveLogged
  rw [h]
  by_cases hnone : tx.circuits = []
  · simp only [hnone, if_true]
    rfl
  · simp only [hnone, if_false]

theorem proveLogged_refused {unsigned_tx : TxData} {e : Failure} (h : checked client unsigned_tx = .error e) :
    proveLogged client unsigned_tx = (.error (.raised e), []) := by
  unfold proveLogged
  rw [h]

/-- The server is asked for its health in the same place. -/
theorem proveTransaction_asServer {circuits : List Circuit} {unsigned_tx : TxData} :
    (∀ e, checked client unsigned_tx = .error e →
      ∃ e', proveTransaction (client.asServer circuits) unsigned_tx = .error e') ∧
    ∀ tx, checked client unsigned_tx = .ok tx →
      proveTransaction (client.asServer circuits) unsigned_tx =
        proveCircuits (client.asServer circuits) 0 tx.circuits >>= fun proof_hexes => .ok (provenOf tx proof_hexes) := by
  unfold checked proveTransaction
  cases hvalid : UnsignedTransaction.modelValidate unsigned_tx with
  | error e => exact ⟨fun _ _ => ⟨e, rfl⟩, fun tx h => nomatch h⟩
  | ok tx =>
    have hserver : (client.asServer circuits).health = (client.health.map Json.truthy).mapError Failure.asPyError := rfl
    rw [ok_bind, hserver]
    cases hhealth : client.health with
    | error e => exact ⟨fun _ _ => ⟨e.asPyError, rfl⟩, fun tx h => nomatch h⟩
    | ok health =>
      cases htruthy : health.truthy with
      | false =>
        constructor
        · intro e h
          refine ⟨.proofError "Proof Server is unreachable", ?_⟩
          simp only [Except.map, Except.mapError, htruthy, ok_bind, if_true]
        · intro tx' h
          simp only [Except.mapError, ok_bind, htruthy, if_true] at h
          cases h
      | true =>
        constructor
        · intro e h
          simp only [Except.mapError, ok_bind, htruthy, Bool.true_eq_false, if_false] at h
          cases h
        · intro tx' h
          simp only [Except.mapError, ok_bind, htruthy, Bool.true_eq_false, if_false] at h
          cases h
          simp only [Except.map, Except.mapError, htruthy, ok_bind, Bool.true_eq_false, if_false]
          by_cases hnone : tx.circuits = []
          · rw [if_pos hnone, hnone]
            rfl
          · rw [if_neg hnone]
            rfl

variable (client) in
/-- A run over the client returns what a run over the server returns. -/
theorem proveLogged_refines (unsigned_tx : TxData) (proven : ProvenTransaction) :
    (proveLogged client unsigned_tx).1 = .ok proven ↔
      proveTransaction (client.asServer (unsigned_tx.circuits.getD [])) unsigned_tx = .ok proven := by
  cases hchecked : checked client unsigned_tx with
  | error e =>
    obtain ⟨e', hserver⟩ := proveTransaction_asServer.1 e hchecked
    rw [proveLogged_refused hchecked, hserver]
    constructor
    · intro h
      cases h
    · intro h
      cases h
  | ok tx =>
    have hcircuits := (checked_ok hchecked).2
    rw [proveLogged_eq hchecked, proveTransaction_asServer.2 tx hchecked, ← hcircuits]
    have hloop := @proveCircuits_asServer client [] tx.circuits [] rfl
    constructor
    · intro h
      cases hproofs : (proveEach client tx.circuits).1 with
      | error gave =>
        rw [hproofs] at h
        cases h
      | ok proofs =>
        rw [hproofs] at h
        cases h
        exact bind_ok_iff.mpr ⟨_, (hloop _).mpr ⟨proofs, hproofs, rfl⟩, rfl⟩
    · intro h
      obtain ⟨proof_hexes, hhexes, h⟩ := bind_ok_iff.mp h
      obtain ⟨proofs, hproofs, rfl⟩ := (hloop _).mp hhexes
      cases h
      rw [show (proveEach client tx.circuits).1 = .ok proofs from hproofs]
      rfl

theorem requests_take (circuits : List Circuit) (i : Nat) : requests (circuits.take i) = (requests circuits).take i :=
  List.map_take

end ZKProver

end Noxipher
