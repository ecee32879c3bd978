import Noxipher.Indexer.Models
import Noxipher.Library.Polling

namespace Noxipher

structure TransactionReceipt where
  hash : String
  block_height : Option Int := none
  block_hash : Option String := none
  status : String
  fee_paid : Int := 0
  contract_address : Option String := none
  events : List JsonObject := []

/-- One poll: how long it and what overran the sleep after it took, in milliseconds, and the nodes of the last
attempt the client made. -/
structure Poll where
  duration : Nat
  answer : Except PyError (List JsonObject)

/-- `int(v)` -/
def Json.toInt : Json → Except PyError Int
  | int n => .ok n
  | bool b => .ok (if b then 1 else 0)
  | str s => intOfStr s
  | _ => .error (.typeError "int() argument must be a string, a bytes-like object or a real number")

namespace TransactionBuilder

/-- The nodes of an answer, all validated. -/
def getTransactions (answer : Except PyError (List JsonObject)) : Except PyError (List Transaction) := do
  let nodes ← answer
  traverse Transaction.modelValidate nodes

/-- The address of the first deployment among the events. -/
def deployedAddress : List JsonObject → Except PyError (Option Json)
  | [] => .ok none
  | event::events =>
    match event.lookup "type" with
    | some (.str "ContractDeployed") =>
      match (event.lookup "data").getD (.obj []) with
      | .obj data => .ok (data.lookup "address")
      | _ => .error (.attributeError "object has no attribute 'get'")
    | _ => deployedAddress events

/-- `contract_address: str | None` -/
def addressField : Option Json → Except PyError (Option String)
  | none | some .null => .ok none
  | some (.str s) => .ok (some s)
  | some _ => .error (.validationError "TransactionReceipt" "contract_address")

/-- `int(tx.fees.get("paid_fees", 0)) if tx.fees else 0` -/
def feePaid (fees : Option JsonObject) : Except PyError Int :=
  match fees with
  | none | some [] => .ok 0
  | some fields => ((fields.lookup "paid_fees").getD (.int 0)).toInt

def receiptOf (tx : Transaction) : Except PyError (Option TransactionReceipt) :=
  match tx.transaction_result with
  | none => .ok none
  | some result => do
    let contract_addr ← deployedAddress tx.events
    let fee_paid ← feePaid tx.fees
    let contract_address ← addressField contract_addr
    return some {
      hash := tx.hash
      block_height := tx.block.map Block.height
      block_hash := tx.block.map Block.hash
      status := result.status
      fee_paid := fee_paid
      contract_address := contract_address
      events := tx.events }

/-- The body of the loop; every exception is swallowed. -/
def pollReceipt (answer : Except PyError (List JsonObject)) : Option TransactionReceipt :=
  match getTransactions answer with
  | .ok (tx::_) =>
    match receiptOf tx with
    | .ok receipt => receipt
    | .error _ => none
  | _ => none

/-- `min(10, 2 * (retry_count + 1))` -/
def delay (retry_count : Nat) : Nat := min 10 (2*(retry_count+1))

/-- What one round of the loop takes, in milliseconds. -/
def roundTime (polls : Nat → Poll) (retry_count : Nat) : Nat := (polls retry_count).duration+1000*delay retry_count

/-- `_wait_for_receipt`, started at `start` with a timeout in seconds; a round takes a second at least. -/
def waitForReceipt (tx_hash : String) (polls : Nat → Poll) (start timeout : Nat) : Except PyError TransactionReceipt :=
  match Polling.run (roundTime polls) (fun k => pollReceipt (polls k).answer) (start+1000*timeout) timeout 0 start with
  | some receipt => .ok receipt
  | none => .error (.transactionTimeoutError s!"Timeout waiting for tx {tx_hash}")

theorem roundTime_ge (polls : Nat → Poll) (k : Nat) : 1000 ≤ roundTime polls k := by
  have hd : 1 ≤ delay k := by
    unfold delay
    omega
  unfold roundTime
  omega

/-- The loop returns what the first poll before the deadline gave a receipt for. -/
theorem waitForReceipt_ok_iff {tx_hash : String} {polls : Nat → Poll} {start timeout : Nat}
    {receipt : TransactionReceipt} :
    waitForReceipt tx_hash polls start timeout = .ok receipt ↔
      ∃ k, Polling.First (roundTime polls) (fun k => pollReceipt (polls k).answer) (start+1000*timeout) start k
        receipt := by
  rw [← Polling.run_eq_some_iff _ _ _ _ (roundTime_ge polls) (le_refl (start+1000*timeout))]
  unfold waitForReceipt
  cases Polling.run (roundTime polls) (fun k => pollReceipt (polls k).answer) (start+1000*timeout) timeout 0 start <;>
    simp

theorem waitForReceipt_timeout_iff {tx_hash : String} {polls : Nat → Poll} {start timeout : Nat} :
    waitForReceipt tx_hash polls start timeout =
        .error (.transactionTimeoutError s!"Timeout waiting for tx {tx_hash}") ↔
      ∀ k, Polling.time (roundTime polls) start k < start+1000*timeout → pollReceipt (polls k).answer = none := by
  rw [← Polling.run_eq_none_iff _ _ _ _ (roundTime_ge polls) (le_refl (start+1000*timeout))]
  unfold waitForReceipt
  cases Polling.run (roundTime polls) (fun k => pollReceipt (polls k).answer) (start+1000*timeout) timeout 0 start <;>
    simp

end TransactionBuilder

/-- A poll whose nodes have the shape the query selects. -/
structure QueryPoll where
  duration : Nat
  answer : Except PyError (List TransactionNode)

def QueryPoll.toPoll (poll : QueryPoll) : Poll where
  duration := poll.duration
  answer := poll.answer >>= fun nodes => .ok (nodes.map TransactionNode.toData)

/-- What a receipt for a node has to say. -/
structure TransactionReceipt.Reports (receipt : TransactionReceipt) (node : TransactionNode) : Prop where
  hash : receipt.hash = node.hash
  block_height : receipt.block_height = node.block.map BlockNode.height
  block_hash : receipt.block_hash = node.block.map BlockNode.hash
  status : ∀ result ∈ node.transactionResult, receipt.status = upper result.status
  fee_paid : ∀ fees ∈ node.fees, ∀ paidFees ∈ fees.paidFees, paidFees.toInt = .ok receipt.fee_paid

namespace TransactionBuilder

section Query

variable (polls : Nat → QueryPoll) (start timeout : Nat)

/-- When the loop makes its polls, as long as none of them ends it. -/
def pollTime (k : Nat) : Nat := Polling.time (roundTime (fun k => (polls k).toPoll)) start k

/-- No poll before the deadline returns a node with a result. -/
def NothingFinalized : Prop :=
  ∀ k, pollTime polls start k < start+1000*timeout → ∀ nodes, (polls k).answer = .ok nodes →
    ∀ node ∈ nodes, node.transactionResult = none

/-- The first node with a result among the polls before the deadline. -/
def FirstFinalized (node : TransactionNode) : Prop :=
  ∃ k nodes, pollTime polls start k < start+1000*timeout ∧ (polls k).answer = .ok nodes ∧
    nodes.find? (fun node => node.transactionResult.isSome) = some node ∧
    ∀ i, i < k → ∀ nodes, (polls i).answer = .ok nodes → ∀ node ∈ nodes, node.transactionResult = none

/-- The first finalized node gets its receipt, and only without one there is a timeout. -/
def AlwaysReported (tx_hash : String) : Prop :=
  (∀ node, FirstFinalized polls start timeout node →
    ∃ receipt, waitForReceipt tx_hash (fun k => (polls k).toPoll) start timeout = .ok receipt ∧
      receipt.Reports node) ∧
  (waitForReceipt tx_hash (fun k => (polls k).toPoll) start timeout =
      .error (.transactionTimeoutError s!"Timeout waiting for tx {tx_hash}") →
    ¬ ∃ node, FirstFinalized polls start timeout node)

/-- The result of a node is lost in the validation, so no answer of the query ends the loop. -/
theorem pollReceipt_query (poll : QueryPoll) : pollReceipt poll.toPoll.answer = none := by
  unfold QueryPoll.toPoll
  cases poll.answer with
  | error e => rfl
  | ok nodes =>
    cases nodes with
    | nil => rfl
    | cons node rest =>
      unfold pollReceipt
      rw [ok_bind]
      cases h : getTransactions (.ok ((node::rest).map TransactionNode.toData)) with
      | error e => rfl
      | ok txs =>
        obtain ⟨tx, txs', htx, -, rfl⟩ := traverse_cons_ok.mp h
        rw [node.modelValidate_toData] at htx
        cases htx
        rfl

theorem waitForReceipt_query (tx_hash : String) :
    waitForReceipt tx_hash (fun k => (polls k).toPoll) start timeout =
      .error (.transactionTimeoutError s!"Timeout waiting for tx {tx_hash}") := by
  apply waitForReceipt_timeout_iff.mpr
  intro k _
  exact pollReceipt_query (polls k)

/-- If some poll before the deadline returns a finalized node, one of them is the first. -/
theorem exists_first {polls : Nat → QueryPoll} {start timeout : Nat} (h : ¬ NothingFinalized polls start timeout) :
    ∃ node, FirstFinalized polls start timeout node := by
  classical
  have hsome : ∃ k, pollTime polls start k < start+1000*timeout ∧ ∃ nodes, (polls k).answer = .ok nodes ∧
      ∃ node ∈ nodes, node.transactionResult.isSome := by
    by_contra hno
    apply h
    intro k hk nodes ha node hn
    by_contra hs
    exact hno ⟨k, hk, nodes, ha, node, hn, Option.ne_none_iff_isSome.mp hs⟩
  obtain ⟨hk, nodes, ha, node, hn, hs⟩ := Nat.find_spec hsome
  obtain ⟨first, hfirst⟩ : ∃ first, nodes.find? (fun node => node.transactionResult.isSome) = some first :=
    Option.isSome_iff_exists.mp (List.find?_isSome.mpr ⟨node, hn, hs⟩)
  refine ⟨first, Nat.find hsome, nodes, hk, ha, hfirst, ?_⟩
  intro i hi nodes' ha' node' hn'
  have hmin := Nat.find_min hsome hi
  by_contra hs'
  have htime : pollTime polls start i < start+1000*timeout :=
    Nat.lt_of_le_of_lt (Polling.time_mono _ start (Nat.le_of_lt hi)) hk
  exact hmin ⟨htime, nodes', ha', node', hn', Option.ne_none_iff_isSome.mp hs'⟩

/-- Finalized transactions are never reported: the wait does what it should only while there is nothing to
report. -/
theorem waitForReceipt_reports_iff (tx_hash : String) :
    AlwaysReported polls start timeout tx_hash ↔ NothingFinalized polls start timeout := by
  constructor
  · intro h
    by_contra hsome
    exact h.2 (waitForReceipt_query polls start timeout tx_hash) (exists_first hsome)
  · intro hnone
    have hno : ¬ ∃ node, FirstFinalized polls start timeout node := by
      intro ⟨node, k, nodes, hk, ha, hfind, _⟩
      have hs := List.find?_some (p := fun node : TransactionNode => node.transactionResult.isSome) hfind
      rw [hnone k hk nodes ha node (List.mem_of_find?_eq_some hfind)] at hs
      cases hs
    exact ⟨fun node hnode => absurd ⟨node, hnode⟩ hno, fun _ => hno⟩

end Query

/-- The fee is asked for under a key that the query does not select. -/
theorem feePaid_query (fees : Option FeesNode) :
    feePaid (fees.map (fun fees => [("paidFees", nullable bigJson fees.paidFees)])) = .ok 0 := by
  cases fees <;> rfl

/-- A transaction that is finalized at the first poll. -/
def finalizedNode : TransactionNode where
  hash := "ab"
  block := some ⟨7, "cd"⟩
  transactionResult := some ⟨"success", []⟩
  fees := some ⟨some (.str "1500")⟩
  raw := none
  unshieldedCreatedOutputs := []
  unshieldedSpentOutputs := []

theorem finalized_unreported :
    FirstFinalized (fun _ => ⟨100, .ok [finalizedNode]⟩) 0 120 finalizedNode ∧
    waitForReceipt "ab" (fun _ => QueryPoll.toPoll ⟨100, .ok [finalizedNode]⟩) 0 120 =
      .error (.transactionTimeoutError "Timeout waiting for tx ab") ∧
    ¬ AlwaysReported (fun _ => ⟨100, .ok [finalizedNode]⟩) 0 120 "ab" := by
  have hfirst : FirstFinalized (fun _ => ⟨100, .ok [finalizedNode]⟩) 0 120 finalizedNode :=
    ⟨0, [finalizedNode], by decide, rfl, rfl, fun i hi => absurd hi (Nat.not_lt_zero i)⟩
  have htimeout := waitForReceipt_query (fun _ => ⟨100, .ok [finalizedNode]⟩) 0 120 "ab"
  exact ⟨hfirst, htimeout, fun h => h.2 htimeout ⟨finalizedNode, hfirst⟩⟩

end TransactionBuilder

end Noxipher
