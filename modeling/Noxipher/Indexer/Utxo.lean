import Noxipher.Core.Text
import Noxipher.Library.Dict
import Noxipher.Library.Outcome

namespace Noxipher

/-- A token type as the indexer gives it: null, text, or an object that may have a `hex` field. -/
inductive TokenField where
  | null
  | str (s : String)
  | obj (fields : Dict String (Option String))
  deriving DecidableEq

def TokenField.truthy : TokenField → Bool
  | null => false
  | str s => s ≠ ""
  | obj fields => fields.entries ≠ []

/-- The fields of an unshielded UTXO record the SDK reads, in both spellings. -/
structure UtxoRecord where
  value : Option IntLike := none
  token_type : Option TokenField := none
  tokenType : Option TokenField := none
  intentHash : Option String := none
  intent_hash : Option String := none
  outputNo : Option IntLike := none
  output_no : Option IntLike := none
  deriving DecidableEq

namespace UtxoRecord

/-- `int(utxo.get("value", 0))` -/
def intValue (utxo : UtxoRecord) : Except PyError Int := (utxo.value.getD (.int 0)).toInt

/-- `utxo.get("token_type") or utxo.get("tokenType") or ("00" * 32)` -/
def rawToken (utxo : UtxoRecord) : TokenField :=
  orElse TokenField.truthy utxo.token_type (orElse TokenField.truthy utxo.tokenType (.str zeroHex))

/-- The text compared with the wanted token type, in lower case and without "0x". -/
def tokenHex (utxo : UtxoRecord) : Except PyError (List Char) := do
  let u_token ← match utxo.rawToken with
    | .obj fields => .ok (fields.getD "hex" (some zeroHex))
    | .str s => .ok (some s)
    | .null => .ok none
  match u_token with
  | some s => return lower (removeHexPrefix s.toList)
  | none => .error (.attributeError "'NoneType' object has no attribute 'replace'")

/-- `utxo.get("intentHash") or utxo.get("intent_hash") or ("00" * 32)` -/
def hashText (utxo : UtxoRecord) : String :=
  orElse (· ≠ "") utxo.intentHash (orElse (· ≠ "") utxo.intent_hash zeroHex)

/-- `utxo.get("outputNo") or utxo.get("output_no") or 0` -/
def outputNumber (utxo : UtxoRecord) : IntLike :=
  orElse IntLike.truthy utxo.outputNo (orElse IntLike.truthy utxo.output_no (.int 0))

end UtxoRecord

/-- The part of the indexer the wallets and the builder ask for UTXOs. -/
structure IndexerUtxos where
  getUtxos : String → Except PyError (List UtxoRecord)

end Noxipher
