import Noxipher.Tx.Receipt
import Noxipher.Tx.Submission

namespace Noxipher

/-- A compiled contract: its name, and the file that `get_circuit_path` finds for a circuit, read. -/
structure CompactContract where
  name : String
  circuit_bytes : String → Except PyError Bytes

structure ContractInstance where
  address : String
  contract : CompactContract

/-- What the client meets on the chain after a build: the hash the node gives the bytes, the polls for the receipt and
the time of the first, in milliseconds. -/
structure Chain where
  submit_extrinsic : Bytes → Except PyError String
  polls : Nat → Poll
  start : Nat

namespace TransactionBuilder

/-- `deploy_contract` to its end. -/
def deployReceipt (client : NoxipherClient) (chain : Chain) (rnd rnd' : Bytes) (draw : Nat) (wallet : MidnightWallet)
    (bytecode : Bytes) (initial_state : PyValue) (fee : Option Int) (ttl : Int) : Except PyError TransactionReceipt := do
  let raw_bytes ← deployContract client rnd rnd' draw wallet bytecode initial_state fee ttl
  let tx_hash ← chain.submit_extrinsic raw_bytes
  waitForReceipt tx_hash chain.polls chain.start 120

end TransactionBuilder

namespace ContractService

open TransactionBuilder

/-- The address from the events, or for want of one `f"0x{receipt.hash[:64]}"`. -/
def addressOf (receipt : TransactionReceipt) : String :=
  orElse (· ≠ "") receipt.contract_address ("0x"++String.ofList (receipt.hash.toList.take 64))

def atAddress (address : String) (contract : CompactContract) : ContractInstance := ⟨address, contract⟩

def deploy (client : NoxipherClient) (chain : Chain) (rnd rnd' : Bytes) (draw : Nat) (contract : CompactContract)
    (wallet : MidnightWallet) (initial_state : Option PyValue) : Except PyError ContractInstance := do
  let bytecode ← contract.circuit_bytes contract.name
  let receipt ← deployReceipt client chain rnd rnd' draw wallet bytecode (initial_state.getD (.dict [])) none 1800
  return atAddress (addressOf receipt) contract

end ContractService

/-- 64 hex digits. -/
def HexAddress (address : String) : Prop :=
  address.toList.length = 64 ∧ ∀ c ∈ address.toList, (hexDigit c).isSome

/-- The hex text of 32 bytes is one. -/
theorem hexAddress_hexOf {bs : Bytes} (h : bs.length = 32) : HexAddress (hexOf bs) := by
  refine ⟨by rw [hexOf_length, h], ?_⟩
  intro c hc
  obtain ⟨n, hn, rfl⟩ := mem_hexOf hc
  rw [(hexDigit_hexChar hn).1]
  rfl

theorem HexAddress.parsed {address : String} (h : HexAddress address) :
    ∃ bs, fromhex address = .ok bs ∧ bs.length = 32 := by
  obtain ⟨bs, hbs, hlen⟩ := hexPairs_digits 32 h.1 h.2
  exact ⟨bs, by rw [fromhex, hbs], hlen⟩

namespace ContractInstance

open TransactionBuilder

/-- The dictionary that `_call_impure` has `call_contract` build. -/
def callData (client : NoxipherClient) (rnd : Bytes) (deployed : ContractInstance) (entry_point : String)
    (args : PyValue) (wallet : MidnightWallet) : Except PyError TxData :=
  unsignedCall client rnd wallet deployed.address entry_point args none 1800

/-- Every call of the instance is serialized with the 32 bytes its address stands for, behind the discriminant. -/
def Callable (deployed : ContractInstance) : Prop :=
  ∃ address, fromhex deployed.address = .ok address ∧ address.length = 32 ∧
    ∀ client rnd entry_point args wallet tx_data, deployed.callData client rnd entry_point args wallet = .ok tx_data →
      contractAction tx_data =
        (serializeContractArgs args >>= fun args => .ok (.call address entry_point (some args))) ∧
      ∀ args payload, serializeContractAction (.call address entry_point args) = .ok payload →
        ∃ rest, payload = 1::address++rest

theorem callData_ok {client : NoxipherClient} {rnd : Bytes} {deployed : ContractInstance} {entry_point : String}
    {args : PyValue} {wallet : MidnightWallet} {tx_data : TxData}
    (h : deployed.callData client rnd entry_point args wallet = .ok tx_data) :
    tx_data.type = some "contract_call" ∧ tx_data.contract_address = some deployed.address ∧
      tx_data.entry_point = some entry_point ∧ tx_data.args = some args := by
  obtain ⟨part, -, h⟩ := bind_ok_iff.mp h
  cases h
  exact ⟨rfl, rfl, rfl, rfl⟩

/-- The parser is the only obstacle between an address of 32 bytes and the action. -/
theorem callable_iff (deployed : ContractInstance) :
    deployed.Callable ↔ ∃ address, fromhex deployed.address = .ok address ∧ address.length = 32 := by
  constructor
  · rintro ⟨address, hparsed, hlen, -⟩
    exact ⟨address, hparsed, hlen⟩
  · rintro ⟨address, hparsed, hlen⟩
    refine ⟨address, hparsed, hlen, ?_⟩
    intro client rnd entry_point args wallet tx_data h
    obtain ⟨htype, haddress, hentry, hargs⟩ := callData_ok h
    constructor
    · have hcall : tx_data.type ≠ some "contract_deploy" := by
        rw [htype]
        decide
      simp only [contractAction, if_neg hcall, haddress, hentry, hargs, required_some, ok_bind, hparsed,
        Option.getD_some, pure_ok]
    · intro args payload hpayload
      obtain ⟨discriminant, tail, hdiscriminant, htail, rfl⟩ := gather_cons_ok.mp hpayload
      obtain ⟨written, rest, hwritten, -, rfl⟩ := gather_cons_ok.mp htail
      cases hdiscriminant
      cases hwritten
      exact ⟨rest, rfl⟩

end ContractInstance

namespace ContractService

open TransactionBuilder

/-- The fallback is text that no call can parse. -/
theorem fallback_not_callable {receipt : TransactionReceipt} (h : receipt.contract_address = none)
    (contract : CompactContract) : ¬ (atAddress (addressOf receipt) contract).Callable := by
  rintro ⟨address, hparsed, -, -⟩
  rw [atAddress, addressOf, h, orElse, fromhex_prefixed] at hparsed
  cases hparsed

/-- An address from the events is kept as it is. -/
theorem addressOf_reported {receipt : TransactionReceipt} {address : String}
    (h : receipt.contract_address = some address) (haddress : HexAddress address) : addressOf receipt = address := by
  have hne : address ≠ "" := by
    rintro rfl
    cases haddress.1
  rw [addressOf, h, orElse, if_pos (decide_eq_true hne)]

theorem deploy_eq {client : NoxipherClient} {chain : Chain} {rnd rnd' : Bytes} {draw : Nat}
    {contract : CompactContract} {wallet : MidnightWallet} {initial_state : Option PyValue} {bytecode : Bytes}
    {receipt : TransactionReceipt} (hbytecode : contract.circuit_bytes contract.name = .ok bytecode)
    (hreceipt : deployReceipt client chain rnd rnd' draw wallet bytecode (initial_state.getD (.dict [])) none 1800 =
      .ok receipt) :
    deploy client chain rnd rnd' draw contract wallet initial_state = .ok (atAddress (addressOf receipt) contract) := by
  rw [deploy, hbytecode, ok_bind, hreceipt]
  rfl

/-- Whatever receipt a deployment ends with, its contract can be called exactly when the receipt names the address. -/
theorem deploy_callable_iff {client : NoxipherClient} {chain : Chain} {rnd rnd' : Bytes} {draw : Nat}
    {contract : CompactContract} {wallet : MidnightWallet} (initial_state : Option PyValue) {bytecode : Bytes}
    {receipt : TransactionReceipt} (hbytecode : contract.circuit_bytes contract.name = .ok bytecode)
    (hreceipt : deployReceipt client chain rnd rnd' draw wallet bytecode (initial_state.getD (.dict [])) none 1800 =
      .ok receipt)
    (haddress : ∀ address ∈ receipt.contract_address, HexAddress address) :
    ∃ deployed, deploy client chain rnd rnd' draw contract wallet initial_state = .ok deployed ∧
      (deployed.Callable ↔ receipt.contract_address.isSome) := by
  refine ⟨_, deploy_eq hbytecode hreceipt, ?_⟩
  cases hreported : receipt.contract_address with
  | none =>
    constructor
    · intro hcallable
      exact absurd hcallable (fallback_not_callable hreported contract)
    · intro hsome
      cases hsome
  | some address =>
    have hhex := haddress address hreported
    rw [addressOf_reported hreported hhex]
    constructor
    · intro _
      rfl
    · intro _
      exact (ContractInstance.callable_iff _).mpr hhex.parsed

/-- A node whose events name the given data of a deployment. -/
def deployedNode (events : List Json) : JsonObject :=
  [("hash", .str (hexOf (List.replicate 32 0xab))), ("transaction_result", .obj [("status", .str "SUCCESS")]),
    ("events", .arr events)]

/-- A chain that takes every transaction and answers the first poll. -/
def answeringChain (node : JsonObject) : Chain := ⟨fun _ => .ok "ab", fun _ => ⟨100, .ok [node]⟩, 0⟩

def counterContract : CompactContract := ⟨"counter", fun _ => .ok [1, 2]⟩

/-- A wallet that can pay for a deployment. -/
def payingWallet : MidnightWallet :=
  walletAt "mn_addr_preprod1qurswpc8qurswpc8qurswpc8qurswpc8qurswpc8qurswpc8qursfw7h6g"

/-- Its deployment is built, and ends with what the first poll reports. -/
theorem deployReceipt_answered {events : List Json} {receipt : TransactionReceipt}
    (hpoll : pollReceipt (.ok [deployedNode events]) = some receipt) :
    deployReceipt feeClient (answeringChain (deployedNode events)) (1::List.replicate 31 0) (List.replicate 32 8) 0
      payingWallet [1, 2] (.dict []) none 1800 = .ok receipt := by
  have hbuilt : ∃ raw_bytes, deployContract feeClient (1::List.replicate 31 0) (List.replicate 32 8) 0 payingWallet
      [1, 2] (.dict []) none 1800 = .ok raw_bytes := exists_ok (by decide +kernel)
  obtain ⟨raw_bytes, hraw⟩ := hbuilt
  have hwait : waitForReceipt "ab" (answeringChain (deployedNode events)).polls 0 120 = .ok receipt := by
    apply waitForReceipt_ok_iff.mpr
    exact ⟨0, by simp [Polling.time], hpoll, fun i hi => absurd hi (Nat.not_lt_zero i)⟩
  rw [deployReceipt, hraw, ok_bind]
  exact hwait

/-- The event of a deployment. -/
def deployment (address : String) : Json :=
  .obj [("type", .str "ContractDeployed"), ("data", .obj [("address", .str address)])]

theorem pollReceipt_deployment (address : String) :
    ∃ receipt, pollReceipt (.ok [deployedNode [deployment address]]) = some receipt ∧
      receipt.contract_address = some address :=
  ⟨_, rfl, rfl⟩

theorem deploy_callable_sample :
    ∃ deployed, deploy feeClient (answeringChain (deployedNode [deployment (hexOf (List.replicate 32 6))]))
        (1::List.replicate 31 0) (List.replicate 32 8) 0 counterContract payingWallet none = .ok deployed ∧
      deployed.Callable := by
  obtain ⟨receipt, hpoll, hreported⟩ := pollReceipt_deployment (hexOf (List.replicate 32 6))
  have haddress : ∀ address ∈ receipt.contract_address, HexAddress address := by
    rw [hreported]
    rintro address ⟨⟩
    exact hexAddress_hexOf (by simp)
  have hbytecode : counterContract.circuit_bytes counterContract.name = .ok [1, 2] := rfl
  have hreceipt := deployReceipt_answered hpoll
  obtain ⟨deployed, hdeployed, hiff⟩ := deploy_callable_iff none hbytecode hreceipt haddress
  exact ⟨deployed, hdeployed, hiff.mpr (by rw [hreported]; rfl)⟩

/-- The events of a deployment are missing: the instance gets the hash behind "0x", which the call path refuses. -/
theorem deployed_without_events :
    ∃ deployed, deploy feeClient (answeringChain (deployedNode [])) (1::List.replicate 31 0)
        (List.replicate 32 8) 0 counterContract payingWallet none = .ok deployed ∧
      deployed.address = "0x"++hexOf (List.replicate 32 0xab) ∧
      fromhex deployed.address = .error (.valueError "non-hexadecimal number found in fromhex() arg") ∧
      ¬ deployed.Callable := by
  obtain ⟨receipt, hpoll, hnone, hhash⟩ : ∃ receipt, pollReceipt (.ok [deployedNode []]) = some receipt ∧
    receipt.contract_address = none ∧ receipt.hash = hexOf (List.replicate 32 0xab) := ⟨_, rfl, rfl, rfl⟩
  have haddress : addressOf receipt = "0x"++hexOf (List.replicate 32 0xab) := by
    rw [addressOf, hnone, hhash]
    decide
  refine ⟨_, deploy_eq rfl (deployReceipt_answered hpoll), haddress, ?_, fallback_not_callable hnone counterContract⟩
  rw [atAddress, haddress, fromhex_prefixed]

end ContractService

end Noxipher
