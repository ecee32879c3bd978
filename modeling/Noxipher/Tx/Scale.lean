import Noxipher.Core.Text
import Noxipher.Library.Dict
import Noxipher.Library.KeySort
import Noxipher.Library.Outcome

namespace Noxipher

/-- `bytes([n])` -/
def byteOf (n : Int) : Except PyError Bytes :=
  if 0 ≤ n ∧ n < 256 then .ok [UInt8.ofNat n.toNat]
  else .error (.valueError "bytes must be in range(0, 256)")

/-- `struct.pack` of one unsigned little-endian field of `n` bytes. -/
def structPack (n : Nat) (val : Int) : Except PyError Bytes :=
  if 0 ≤ val ∧ val < 256^n then .ok (leBytes n val.toNat)
  else .error (.structError "argument out of range")

/-- `while val > 0`: the bytes of `val`, lowest first; the fuel bounds their number. -/
def shiftOut : Nat → Nat → Bytes
  | 0, _ => []
  | fuel+1, val => if val > 0 then UInt8.ofNat (val % 256) :: shiftOut fuel (val/256) else []

/-- SCALE compact integers in their four modes. -/
def encodeScaleInt (val : Int) : Except PyError Bytes :=
  if val < 64 then byteOf (val*4)
  else if val < 16384 then structPack 2 (val*4+1)
  else if val < 1073741824 then structPack 4 (val*4+2)
  else
    let out := shiftOut (val.toNat.log2/8+1) val.toNat
    gather [byteOf ((out.length-4)*4+3), .ok out]

/-- The tag with its length, then the payload. -/
def taggedSerialize (tag : String) (payload : Bytes) : Except PyError Bytes :=
  let tag_bytes := encodeStr tag
  gather [encodeScaleInt tag_bytes.length, .ok tag_bytes, .ok payload]

def serializeU32 (val : Int) : Except PyError Bytes := structPack 4 val

def serializeU128 (val : Int) : Except PyError Bytes :=
  gather [structPack 8 (val % 2^64), structPack 8 (val/2^64)]

/-- Bytes with their compact length in front. -/
def serializeBytes (data : Bytes) : Except PyError Bytes := gather [encodeScaleInt data.length, .ok data]

/-- `encode_scale_int(len(items))`, then every item. -/
def serializeVec {α : Type} (item : α → Except PyError Bytes) (items : List α) : Except PyError Bytes :=
  gather [encodeScaleInt items.length, gather (items.map item)]

structure UtxoSpend where
  value : Int
  owner : Bytes
  type_ : Int
  intent_hash : Bytes
  output_no : Int
  deriving DecidableEq

structure UtxoOutput where
  value : Int
  owner : Bytes
  type_ : Int
  deriving DecidableEq

/-- An offer dictionary; `none` is a missing key. -/
structure UnshieldedOffer where
  inputs : Option (List UtxoSpend) := none
  outputs : Option (List UtxoOutput) := none
  signatures : Option (List Bytes) := none
  deriving DecidableEq

inductive ContractAction where
  | deploy (bytecode : Bytes) (initial_state : Option Bytes)
  | call (address : Bytes) (entry_point : String) (args : Option Bytes)
  deriving DecidableEq

structure Intent where
  guaranteed_unshielded_offer : Option UnshieldedOffer := none
  fallible_unshielded_offer : Option UnshieldedOffer := none
  ttl : Option Int := none
  actions : Option (List ContractAction) := none
  binding_commitment : Option Bytes := none
  deriving DecidableEq

/-- A merkle root is given as bytes or as hex text. -/
inductive HexOrBytes where
  | bytes (b : Bytes)
  | hex (s : String)
  deriving DecidableEq

structure ZswapOffer where
  spend_proofs : List Bytes
  output_proofs : List Bytes
  zswap_memos : Option (List Bytes) := none
  merkle_root : Option HexOrBytes := none
  deriving DecidableEq

structure StandardTransaction where
  network_id : Option String := none
  intents : Option (Dict IntLike Intent) := none
  fallible_coins : Option (Dict IntLike ZswapOffer) := none
  binding_randomness : Option Bytes := none
  deriving DecidableEq

/-- An empty dictionary is falsy, so an empty offer counts as none. -/
def UnshieldedOffer.truthy (offer : UnshieldedOffer) : Bool :=
  offer.inputs.isSome || offer.outputs.isSome || offer.signatures.isSome

def present (offer : Option UnshieldedOffer) : Option UnshieldedOffer := offer.filter UnshieldedOffer.truthy

def serializeUtxoSpend (spend : UtxoSpend) : Except PyError Bytes :=
  gather [serializeU128 spend.value, .ok spend.owner, byteOf spend.type_, .ok spend.intent_hash,
    serializeU32 spend.output_no]

def serializeUtxoOutput (output : UtxoOutput) : Except PyError Bytes :=
  gather [serializeU128 output.value, .ok output.owner, byteOf output.type_]

def serializeUnshieldedOffer (offer : UnshieldedOffer) : Except PyError Bytes :=
  gather [required "inputs" offer.inputs >>= serializeVec serializeUtxoSpend,
    required "outputs" offer.outputs >>= serializeVec serializeUtxoOutput,
    serializeVec .ok (offer.signatures.getD [])]

def serializeContractAction : ContractAction → Except PyError Bytes
  | .deploy bytecode initial_state =>
    gather [.ok [0], serializeBytes bytecode, serializeBytes (initial_state.getD [])]
  | .call address entry_point args =>
    gather [.ok [1], .ok address, serializeBytes (encodeStr entry_point), serializeBytes (args.getD [])]

/-- The option byte, then the offer when there is one. -/
def serializeOptionalOffer (offer : Option UnshieldedOffer) : Except PyError Bytes :=
  match present offer with
  | some o => gather [.ok [1], serializeUnshieldedOffer o]
  | none => .ok [0]

def serializeIntent (intent : Intent) : Except PyError Bytes :=
  gather [serializeOptionalOffer intent.guaranteed_unshielded_offer,
    serializeOptionalOffer intent.fallible_unshielded_offer,
    required "ttl" intent.ttl >>= serializeU32,
    serializeVec serializeContractAction (intent.actions.getD []),
    required "binding_commitment" intent.binding_commitment]

def HexOrBytes.toBytes : HexOrBytes → Except PyError Bytes
  | bytes b => .ok b
  | hex s => fromhex s

/-- `root[:32].ljust(32, b"\x00")` -/
def normalizeRoot (root : Bytes) : Bytes := root.take 32 ++ List.replicate (32-root.length) 0

def serializeZswapOffer (offer : ZswapOffer) : Except PyError Bytes := do
  let payload ← gather [serializeVec .ok offer.spend_proofs, serializeVec .ok offer.output_proofs,
    serializeVec .ok (offer.zswap_memos.getD []),
    (offer.merkle_root.getD (.bytes (List.replicate 32 0))).toBytes >>= fun root => .ok (normalizeRoot root)]
  taggedSerialize "zswap-offer[v1]" payload

/-- `sorted(d.keys(), key=int)` with the values: the sort is stable. -/
def sortedByInt {ν : Type} (d : Dict IntLike ν) : Except PyError (List (Int × ν)) := do
  let keyed ← traverse (fun (p : IntLike × ν) => do
    let seg_id ← p.1.toInt
    return (seg_id, p.2)) d.entries
  return sortOn Prod.fst keyed

/-- A map from segment ids: the number of entries, then each id with its value. -/
def serializeSegments {ν : Type} (item : ν → Except PyError Bytes) (d : Dict IntLike ν) :
    Except PyError Bytes := do
  let count ← encodeScaleInt d.entries.length
  let entries ← sortedByInt d
  gather (.ok count :: entries.map (fun p => gather [serializeU32 p.1, item p.2]))

def serializeStandardTransaction (stx : StandardTransaction) : Except PyError Bytes := do
  let payload ← gather [required "network_id" stx.network_id >>= fun net => serializeBytes (encodeStr net),
    required "intents" stx.intents >>= serializeSegments serializeIntent,
    serializeSegments serializeZswapOffer (stx.fallible_coins.getD Dict.empty),
    required "binding_randomness" stx.binding_randomness]
  taggedSerialize "standard-tx[v1]" payload

/-- b"midnight:unshielded-sig[v1]", the segment id, the intent. -/
def getUnshieldedSigningPayload (segment_id : Int) (intent : Intent) : Except PyError Bytes :=
  gather [.ok (encodeStr "midnight:unshielded-sig[v1]"), serializeU32 segment_id, serializeIntent intent]

/-- Pallet 5, call 0, then the transaction with its length. -/
def serializeRawMidnightTx (midnight_bytes : Bytes) : Except PyError Bytes :=
  gather [.ok [5, 0], encodeScaleInt midnight_bytes.length, .ok midnight_bytes]

/-- The argument values `serialize_contract_args` tells apart. -/
inductive PyValue where
  | none
  | bytes (b : Bytes)
  | str (s : String)
  | bool (b : Bool)
  | int (n : Int)
  | list (xs : List PyValue)
  | dict (items : List (String × PyValue))
  | other

mutual

/-- Lists carry their length; dictionaries are the bare sequence of their values. -/
def serializeContractArgs : PyValue → Except PyError Bytes
  | .none => .ok []
  | .bytes b => serializeBytes b
  | .str s => serializeBytes (encodeStr s)
  | .bool b => .ok [if b then 1 else 0]
  | .int n => encodeScaleInt n
  | .list xs => do
    let count ← encodeScaleInt xs.length
    let items ← serializeArgList xs
    return count++items
  | .dict items => serializeArgItems items
  | .other => .ok []

def serializeArgList : List PyValue → Except PyError Bytes
  | [] => .ok []
  | x::xs => do
    let a ← serializeContractArgs x
    let r ← serializeArgList xs
    return a++r

def serializeArgItems : List (String × PyValue) → Except PyError Bytes
  | [] => .ok []
  | p::ps => do
    let a ← serializeContractArgs p.2
    let r ← serializeArgItems ps
    return a++r

end

end Noxipher
