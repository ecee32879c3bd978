import Noxipher.Contract.Service
import Noxipher.Tx.ReceiptAttempts

namespace Noxipher

open Retrying TransactionBuilder

structure ContractEntryPoint where
  name : String
  is_impure : Bool
  param_types : List String
  return_type : Option String
  deriving DecidableEq

structure ContractABI where
  name : String
  version : Option String
  circuits : List JsonObject
  entry_points : List ContractEntryPoint

/-- What the contract package raises and lets through. -/
inductive ContractFailure where
  | contractError (msg : String)
  | raised (e : PyError)
  | gaveUp (e : GaveUp PyError)

namespace Json

/-- `type(v).__name__` -/
def typeName : Json → String
  | null => "NoneType"
  | bool _ => "bool"
  | int _ => "int"
  | str _ => "str"
  | arr _ => "list"
  | obj _ => "dict"

/-- What `v.get` is looked up on. -/
def mapping : Json → Except PyError JsonObject
  | obj fields => .ok fields
  | v => .error (.attributeError s!"'{v.typeName}' object has no attribute 'get'")

/-- `for item in v` -/
def items : Json → Except PyError (List Json)
  | arr items => .ok items
  | obj fields => .ok (fields.map (fun field => .str field.1))
  | str s => .ok (s.toList.map (fun c => .str (String.singleton c)))
  | v => .error (.typeError s!"'{v.typeName}' object is not iterable")

/-- A field of type `bool`. -/
def asBool (model field : String) : Json → Except PyError Bool
  | bool b => .ok b
  | int 0 => .ok false
  | int 1 => .ok true
  | str s =>
    if s.map Char.toLower ∈ ["0", "off", "f", "false", "n", "no"] then .ok false
    else if s.map Char.toLower ∈ ["1", "on", "t", "true", "y", "yes"] then .ok true
    else .error (.validationError model field)
  | _ => .error (.validationError model field)

/-- A field of type `list[str]`. -/
def asStrs (model field : String) : Json → Except PyError (List String)
  | arr items => traverse (asStr model field) items
  | _ => .error (.validationError model field)

/-- A field of type `str | None`. -/
def asStrOrNone (model field : String) : Json → Except PyError (Option String)
  | null => .ok none
  | v => v.asStr model field >>= fun s => .ok (some s)

end Json

/-- `fields.get(key, fields.get(other, dflt))` -/
def JsonObject.either (fields : JsonObject) (key other : String) (dflt : Json) : Json :=
  (fields.lookup key).getD ((fields.lookup other).getD dflt)

/-- One entry of the loop of `from_json_file`. -/
def ContractEntryPoint.ofJson (ep : Json) : Except PyError ContractEntryPoint := do
  let fields ← ep.mapping
  let name ← ((fields.lookup "name").getD (.str "")).asStr "ContractEntryPoint" "name"
  let is_impure ← (JsonObject.either fields "impure" "is_impure" (.bool false)).asBool "ContractEntryPoint" "is_impure"
  let param_types ← (JsonObject.either fields "params" "param_types" (.arr [])).asStrs "ContractEntryPoint" "param_types"
  let return_type ← (JsonObject.either fields "returns" "return_type" .null).asStrOrNone "ContractEntryPoint" "return_type"
  return ⟨name, is_impure, param_types, return_type⟩

namespace ContractABI

def ofJson (raw : Json) : Except PyError ContractABI := do
  let fields ← raw.mapping
  let eps ← (JsonObject.either fields "entryPoints" "entry_points" (.arr [])).items
  let entry_points ← traverse ContractEntryPoint.ofJson eps
  let name ← ((fields.lookup "name").getD (.str "")).asStr "ContractABI" "name"
  let version ← ((fields.lookup "version").getD .null).asStrOrNone "ContractABI" "version"
  let circuits ← ((fields.lookup "circuits").getD (.arr [])).asDicts "ContractABI" "circuits"
  return ⟨name, version, circuits, entry_points⟩

/-- `from_json_file`, with what reading and decoding the file comes to. -/
def fromJsonFile (path : String) (text : Except String Json) : Except ContractFailure ContractABI :=
  match text with
  | .error e => .error (.contractError s!"Cannot load ABI from {path}: {e}")
  | .ok raw => (ofJson raw).mapError .raised

end ContractABI

/-- A contract directory: the ABI files that the glob finds, in its order. -/
structure CircuitDir where
  path : String
  json_files : List (String × Except String Json)

/-- The ABI part of `from_directory`. -/
def CircuitDir.loadABI (circuit_dir : CircuitDir) : Except ContractFailure ContractABI :=
  match circuit_dir.json_files with
  | [] => .error (.contractError s!"No .contract.json found in {circuit_dir.path}")
  | (path, text)::_ => ContractABI.fromJsonFile path text

/-- What a call of an instance returns. -/
structure CallResult where
  result : Option (List Transaction)
  tx_hash : Option String

/-- `call_contract` to its end, with the bytes handed to the node. -/
def TransactionBuilder.callReceipt (client : NoxipherClient) (server : ProofServer) (chain : Chain) (rnd rnd' : Bytes)
    (draw : Nat) (wallet : MidnightWallet) (contract_address entry_point : String) (args : PyValue) :
    Except PyError TransactionReceipt × List Bytes :=
  match callContract client server rnd rnd' draw wallet contract_address entry_point args none 1800 with
  | .error e => (.error e, [])
  | .ok raw_bytes => (chain.submit_extrinsic raw_bytes >>= fun tx_hash =>
      waitForReceipt tx_hash chain.polls chain.start 120, [raw_bytes])

/-- The variables of the query of `get_transactions`. -/
structure TransactionsQuery where
  hash : Option String
  address : Option String
  limit : Nat
  deriving DecidableEq

/-- What an instance finds around it: the client, the proof server, the chain, the attempts of each query of the indexer
and the random bytes. -/
structure CallEnv where
  client : NoxipherClient
  server : ProofServer
  chain : Chain
  attempts : TransactionsQuery → Nat → Attempt
  rnd : Bytes
  rnd' : Bytes
  draw : Nat

namespace ContractInstance

variable (env : CallEnv) (deployed : ContractInstance)

/-- The transactions at the address, whatever the entry point and the arguments are. -/
def callPure : Except ContractFailure CallResult :=
  let query : TransactionsQuery := ⟨none, some deployed.address, 1⟩
  ((getTransactionsRetried (env.attempts query) 0).1.mapError .gaveUp).map (fun state => ⟨some state, none⟩)

def callImpure (entry_point : String) (args : PyValue) (wallet : MidnightWallet) :
    Except ContractFailure CallResult × List Bytes :=
  let (receipt, sent) := callReceipt env.client env.server env.chain env.rnd env.rnd' env.draw wallet deployed.address
    entry_point args
  ((receipt.mapError .raised).map (fun tx_receipt => ⟨none, some tx_receipt.hash⟩), sent)

/-- `call`, with the bytes handed to the node. -/
def call (abi : ContractABI) (entry_point : String) (args : Option PyValue) (wallet : Option MidnightWallet) :
    Except ContractFailure CallResult × List Bytes :=
  match abi.entry_points.find? (fun e => e.name = entry_point) with
  | none => (.error (.contractError s!"Entry point not found: {entry_point}"), [])
  | some ep =>
    if ep.is_impure then
      match wallet with
      | none => (.error (.contractError s!"Impure entry point '{entry_point}' requires wallet"), [])
      | some wallet => callImpure env deployed entry_point (args.getD (.dict [])) wallet
    else (callPure env deployed, [])

end ContractInstance

/-- The document of an entry point with this name. -/
def Json.named (entry_point : String) : Json → Bool
  | obj fields =>
    match (fields.lookup "name").getD (.str "") with
    | .str s => s = entry_point
    | _ => false
  | _ => false

/-- What the document of an entry point says of it. -/
def Json.impure : Json → Except PyError Bool
  | obj fields => (JsonObject.either fields "impure" "is_impure" (.bool false)).asBool "ContractEntryPoint" "is_impure"
  | v => v.mapping >>= fun _ => .ok false

theorem Json.mapping_ok {v : Json} {fields : JsonObject} (h : v.mapping = .ok fields) : v = .obj fields := by
  cases v <;> cases h
  rfl

theorem Json.asStr_ok {model field s : String} {v : Json} (h : v.asStr model field = .ok s) : v = .str s := by
  cases v <;> cases h
  rfl

theorem ContractEntryPoint.ofJson_ok {ep : Json} {e : ContractEntryPoint} (h : ofJson ep = .ok e) (entry_point : String) :
    ep.named entry_point = decide (e.name = entry_point) ∧ ep.impure = .ok e.is_impure := by
  obtain ⟨fields, hfields, h⟩ := bind_ok_iff.mp h
  obtain ⟨name, hname, h⟩ := bind_ok_iff.mp h
  obtain ⟨is_impure, himpure, h⟩ := bind_ok_iff.mp h
  obtain ⟨param_types, -, h⟩ := bind_ok_iff.mp h
  obtain ⟨return_type, -, h⟩ := bind_ok_iff.mp h
  cases h
  rw [Json.mapping_ok hfields]
  refine ⟨?_, himpure⟩
  simp only [Json.named, Json.asStr_ok hname]

theorem CircuitDir.loadABI_ok {circuit_dir : CircuitDir} {abi : ContractABI} (h : circuit_dir.loadABI = .ok abi) :
    ∃ path fields rest eps, circuit_dir.json_files = (path, .ok (.obj fields))::rest ∧
      (JsonObject.either fields "entryPoints" "entry_points" (.arr [])).items = .ok eps ∧
      traverse ContractEntryPoint.ofJson eps = .ok abi.entry_points := by
  unfold loadABI at h
  split at h
  · cases h
  · rename_i path text rest hfiles
    unfold ContractABI.fromJsonFile at h
    split at h
    · cases h
    · rename_i raw
      obtain ⟨fields, hfields, h⟩ := bind_ok_iff.mp (mapError_ok.mp h)
      obtain ⟨eps, heps, h⟩ := bind_ok_iff.mp h
      obtain ⟨entry_points, hentries, h⟩ := bind_ok_iff.mp h
      obtain ⟨name, -, h⟩ := bind_ok_iff.mp h
      obtain ⟨version, -, h⟩ := bind_ok_iff.mp h
      obtain ⟨circuits, -, h⟩ := bind_ok_iff.mp h
      cases h
      exact ⟨path, fields, rest, eps, by rw [hfiles, Json.mapping_ok hfields], heps, hentries⟩

namespace ContractInstance

/-- No call reaches the node. -/
theorem callImpure_fails (env : CallEnv) (deployed : ContractInstance) (entry_point : String) (args : PyValue)
    (wallet : MidnightWallet) :
    ∃ e, callImpure env deployed entry_point args wallet = (.error (.raised e), []) := by
  have hfails : ∃ e, callContract env.client env.server env.rnd env.rnd' env.draw wallet deployed.address entry_point
      args none 1800 = .error e := by
    rw [callContract_outcome]
    cases unsignedCall env.client env.rnd wallet deployed.address entry_point args none 1800 with
    | error e => exact ⟨e, rfl⟩
    | ok unsigned_tx =>
      rw [ok_bind]
      cases proveTransaction env.server unsigned_tx with
      | error e => exact ⟨e, rfl⟩
      | ok proven_tx => exact ⟨_, rfl⟩
  obtain ⟨e, he⟩ := hfails
  refine ⟨e, ?_⟩
  rw [callImpure, callReceipt, he]
  rfl

/-- A counter whose second entry point does not say what it is. -/
def counterDir : CircuitDir where
  path := "counter"
  json_files := [("counter.contract.json", .ok (.obj [("name", .str "counter"), ("entryPoints", .arr [
    .obj [("name", .str "increment"), ("impure", .bool true)], .obj [("name", .str "reset")]])]))]

end ContractInstance

end Noxipher
