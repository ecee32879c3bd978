import Noxipher.Core.Text
import Noxipher.Library.Outcome

namespace Noxipher

/-- A JSON value as the GraphQL client decodes it. -/
inductive Json where
  | null
  | bool (b : Bool)
  | int (n : Int)
  | str (s : String)
  | arr (items : List Json)
  | obj (fields : List (String × Json))

/-- A decoded JSON object. -/
abbrev JsonObject := List (String × Json)

namespace Json

/-- A field of type `str`. -/
def asStr (model field : String) : Json → Except PyError String
  | str s => .ok s
  | _ => .error (.validationError model field)

/-- A field of type `int`; the schema's `Int` is sent as a number. -/
def asInt (model field : String) : Json → Except PyError Int
  | int n => .ok n
  | _ => .error (.validationError model field)

/-- A field of type `dict[str, Any]`. -/
def asDict (model field : String) : Json → Except PyError JsonObject
  | obj fields => .ok fields
  | _ => .error (.validationError model field)

/-- A field of type `list[dict[str, Any]]`. -/
def asDicts (model field : String) : Json → Except PyError (List JsonObject)
  | arr items => traverse (asDict model field) items
  | _ => .error (.validationError model field)

end Json

/-- `field: T` -/
def requiredField {α : Type} (model field : String) (convert : Json → Except PyError α) (data : JsonObject) :
    Except PyError α :=
  validated model field (data.lookup field) >>= convert

/-- `field: T | None = None` -/
def optionalField {α : Type} (field : String) (convert : Json → Except PyError α) (data : JsonObject) :
    Except PyError (Option α) :=
  match data.lookup field with
  | none | some .null => .ok none
  | some v => convert v >>= fun a => .ok (some a)

/-- `field: T = default` -/
def defaultField {α : Type} (field : String) (convert : Json → Except PyError α) (dflt : α) (data : JsonObject) :
    Except PyError α :=
  match data.lookup field with
  | none => .ok dflt
  | some v => convert v

structure Block where
  height : Int
  hash : String
  parent_hash : Option String
  timestamp : Option String
  deriving DecidableEq

structure TransactionResult where
  status : String
  segments : List JsonObject

structure Transaction where
  hash : String
  block : Option Block
  transaction_result : Option TransactionResult
  fees : Option JsonObject
  raw : Option String
  unshielded_created_outputs : List JsonObject
  unshielded_spent_outputs : List JsonObject
  events : List JsonObject

/-- `v.upper()`, on the ASCII words of a status -/
def upper (s : String) : String := s.map Char.toUpper

def Block.modelValidate (json : Json) : Except PyError Block := do
  let data ← json.asDict "Block" ""
  let height ← requiredField "Block" "height" (Json.asInt "Block" "height") data
  let hash ← requiredField "Block" "hash" (Json.asStr "Block" "hash") data
  let parent_hash ← optionalField "parent_hash" (Json.asStr "Block" "parent_hash") data
  let timestamp ← optionalField "timestamp" (Json.asStr "Block" "timestamp") data
  return ⟨height, hash, parent_hash, timestamp⟩

/-- The status is normalised before it is stored. -/
def TransactionResult.modelValidate (json : Json) : Except PyError TransactionResult := do
  let data ← json.asDict "TransactionResult" ""
  let status ← requiredField "TransactionResult" "status" (Json.asStr "TransactionResult" "status") data
  let segments ← defaultField "segments" (Json.asDicts "TransactionResult" "segments") [] data
  return ⟨upper status, segments⟩

/-- `Transaction.model_validate(tx)`: the fields are found under their own names only. -/
def Transaction.modelValidate (data : JsonObject) : Except PyError Transaction := do
  let hash ← requiredField "Transaction" "hash" (Json.asStr "Transaction" "hash") data
  let block ← optionalField "block" Block.modelValidate data
  let transaction_result ← optionalField "transaction_result" TransactionResult.modelValidate data
  let fees ← optionalField "fees" (Json.asDict "Transaction" "fees") data
  let raw ← optionalField "raw" (Json.asStr "Transaction" "raw") data
  let unshielded_created_outputs ← defaultField "unshielded_created_outputs"
    (Json.asDicts "Transaction" "unshielded_created_outputs") [] data
  let unshielded_spent_outputs ← defaultField "unshielded_spent_outputs"
    (Json.asDicts "Transaction" "unshielded_spent_outputs") [] data
  let events ← defaultField "events" (Json.asDicts "Transaction" "events") [] data
  return ⟨hash, block, transaction_result, fees, raw, unshielded_created_outputs, unshielded_spent_outputs, events⟩

/-- The selection sets of GET_TRANSACTIONS, with the types of the schema. -/
structure SegmentNode where
  segmentId : Int
  status : String

structure ResultNode where
  status : String
  segments : List SegmentNode

structure OutputNode where
  utxoId : String
  address : String
  value : String
  tokenType : String

structure BlockNode where
  height : Int
  hash : String
  deriving DecidableEq

structure FeesNode where
  paidFees : Option IntLike

structure TransactionNode where
  hash : String
  block : Option BlockNode
  transactionResult : Option ResultNode
  fees : Option FeesNode
  raw : Option String
  unshieldedCreatedOutputs : List OutputNode
  unshieldedSpentOutputs : List OutputNode

def nullable {α : Type} (toJson : α → Json) : Option α → Json
  | some a => toJson a
  | none => .null

def SegmentNode.toJson (node : SegmentNode) : Json :=
  .obj [("segmentId", .int node.segmentId), ("status", .str node.status)]

def ResultNode.toJson (node : ResultNode) : Json :=
  .obj [("status", .str node.status), ("segments", .arr (node.segments.map SegmentNode.toJson))]

def OutputNode.toJson (node : OutputNode) : Json :=
  .obj [("utxoId", .str node.utxoId), ("address", .str node.address), ("value", .str node.value),
    ("tokenType", .str node.tokenType)]

def BlockNode.toJson (node : BlockNode) : Json := .obj [("height", .int node.height), ("hash", .str node.hash)]

def bigJson : IntLike → Json
  | .int n => .int n
  | .str s => .str s

def FeesNode.toJson (node : FeesNode) : Json := .obj [("paidFees", nullable bigJson node.paidFees)]

/-- A node of the answer: the keys are the ones the query selects. -/
def TransactionNode.toData (node : TransactionNode) : JsonObject :=
  [("hash", .str node.hash),
   ("block", nullable BlockNode.toJson node.block),
   ("transactionResult", nullable ResultNode.toJson node.transactionResult),
   ("fees", nullable FeesNode.toJson node.fees),
   ("raw", nullable .str node.raw),
   ("unshieldedCreatedOutputs", .arr (node.unshieldedCreatedOutputs.map OutputNode.toJson)),
   ("unshieldedSpentOutputs", .arr (node.unshieldedSpentOutputs.map OutputNode.toJson))]

/-- Every node of the query is accepted, without its result and its outputs. -/
theorem TransactionNode.modelValidate_toData (node : TransactionNode) :
    Transaction.modelValidate node.toData = .ok {
      hash := node.hash
      block := node.block.map (fun block => ⟨block.height, block.hash, none, none⟩)
      transaction_result := none
      fees := node.fees.map (fun fees => [("paidFees", nullable bigJson fees.paidFees)])
      raw := node.raw
      unshielded_created_outputs := []
      unshielded_spent_outputs := []
      events := [] } := by
  obtain ⟨hash, block, result, fees, raw, created, spent⟩ := node
  cases block <;> cases fees <;> cases raw <;> rfl

end Noxipher
