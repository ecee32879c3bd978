import Noxipher.Core.Config
import Noxipher.Library.Dict
import Noxipher.Library.LittleEndian
import Noxipher.Library.Outcome

namespace Noxipher.Bech32m

def BECH32M_CONST : Nat := 0x2BC830A3

/-- "qpzry9x8gf2tvdw0s3jn54khce6mua7l" -/
def CHARSET : List Char :=
  ['q', 'p', 'z', 'r', 'y', '9', 'x', '8', 'g', 'f', '2', 't', 'v', 'd', 'w', '0',
   's', '3', 'j', 'n', '5', '4', 'k', 'h', 'c', 'e', '6', 'm', 'u', 'a', '7', 'l']

def GENERATOR : List Nat := [0x3B6A57B2, 0x26508E6D, 0x1EA119FA, 0x3D4233DD, 0x2A1462B3]

/-- One symbol shifted into the 30-bit register. -/
def polymodStep (chk v : Nat) : Nat :=
  let top := chk >>> 25
  (List.range 5).foldl (fun chk i => chk ^^^ if top.testBit i then GENERATOR.getD i 0 else 0)
    ((chk &&& 0x1FFFFFF) <<< 5 ^^^ v)

def polymod (values : List Nat) : Nat := values.foldl polymodStep 1

def hrpExpand (hrp : List Char) : List Nat :=
  hrp.map (fun x => x.toNat >>> 5) ++ [0] ++ hrp.map (fun x => x.toNat &&& 31)

def createChecksum (hrp : List Char) (data : List Nat) : List Nat :=
  let values := hrpExpand hrp ++ data
  let poly := polymod (values ++ [0, 0, 0, 0, 0, 0]) ^^^ BECH32M_CONST
  (List.range 6).map (fun i => poly >>> (5*(5-i)) &&& 31)

def verifyChecksum (hrp : List Char) (data : List Nat) : Bool :=
  polymod (hrpExpand hrp ++ data) = BECH32M_CONST

/-- `while bits >= tobits`; the fuel is the number of pending bits. -/
def drainBits (tobits acc : Nat) : Nat → Nat → List Nat → Nat × List Nat
  | 0, bits, ret => (bits, ret)
  | fuel+1, bits, ret =>
    if tobits ≤ bits then
      let bits := bits-tobits
      drainBits tobits acc fuel bits (ret ++ [acc >>> bits &&& (2^tobits-1)])
    else (bits, ret)

/-- The loop over the input: accumulator, pending bits and digits written so far. -/
def convertLoop (frombits tobits : Nat) : List Nat → Nat → Nat → List Nat →
    Except PyError (Nat × Nat × List Nat)
  | [], acc, bits, ret => .ok (acc, bits, ret)
  | value::data, acc, bits, ret =>
    if value >>> frombits ≠ 0 then
      .error (.addressError s!"Invalid value in convertbits: {value}")
    else
      let max_acc := 2^(frombits+tobits-1)-1
      let acc := (acc <<< frombits ||| value) &&& max_acc
      let drained := drainBits tobits acc (bits+frombits) (bits+frombits) ret
      convertLoop frombits tobits data acc drained.1 drained.2

def convertbits (data : List Nat) (frombits tobits : Nat) (pad : Bool) : Except PyError (List Nat) := do
  let (acc, bits, ret) ← convertLoop frombits tobits data 0 0 []
  let maxv := 2^tobits-1
  if pad then
    if bits ≠ 0 then return ret ++ [acc <<< (tobits-bits) &&& maxv]
    else return ret
  else if frombits ≤ bits ∨ acc <<< (tobits-bits) &&& maxv ≠ 0 then
    .error (.addressError "Invalid padding in convertbits")
  else return ret

/-- `CHARSET[d]` -/
def charsetGet (d : Nat) : Except PyError Char :=
  match CHARSET[d]? with
  | some c => .ok c
  | none => .error (.indexError "string index out of range")

def bech32mEncode (hrp : List Char) (data5 : List Nat) : Except PyError (List Char) := do
  let checksum := createChecksum hrp data5
  let symbols ← traverse charsetGet (data5 ++ checksum)
  return hrp ++ ['1'] ++ symbols

/-- `bech.rfind(c)`: the last position of a character, or -1. -/
def rfind (c : Char) (s : List Char) : Int :=
  match s.reverse.idxOf? c with
  | some k => s.length-1-k
  | none => -1

def bech32mDecode (bech : List Char) : Except PyError (List Char × List Nat) :=
  if bech.any (fun x => x.toNat < 33 || x.toNat > 126) then
    .error (.addressError "Invalid character in Bech32m string")
  else if bech.map Char.toLower ≠ bech ∧ bech.map Char.toUpper ≠ bech then
    .error (.addressError "Mixed case in Bech32m string")
  else
    let bech := bech.map Char.toLower
    let pos := rfind '1' bech
    if pos < 1 ∨ pos+7 > bech.length then
      .error (.addressError "Invalid separator position in Bech32m string")
    else
      let hrp := bech.take pos.toNat
      let data_part := bech.drop (pos.toNat+1)
      if ¬ data_part.all (fun x => x ∈ CHARSET) then
        .error (.addressError "Invalid character in Bech32m data part")
      else
        let data := data_part.map CHARSET.idxOf
        if ¬ verifyChecksum hrp data then .error (.addressError "Invalid Bech32m checksum")
        else .ok (hrp, data.take (data.length-6))

end Bech32m

inductive AddrType where
  | unshielded | shielded | dust
  deriving DecidableEq, Repr

def AddrType.str : AddrType → String
  | unshielded => "unshielded"
  | shielded => "shielded"
  | dust => "dust"

def Network.str : Network → String
  | mainnet => "mainnet"
  | testnet => "testnet"
  | preprod => "preprod"
  | preview => "preview"
  | devnet => "devnet"
  | local_ => "local"
  | undeployed => "undeployed"

def HRP_TABLE : Dict (AddrType × Network) String := Dict.ofList
  [((.unshielded, .mainnet), "mn_addr"),
   ((.unshielded, .preprod), "mn_addr_preprod"),
   ((.unshielded, .preview), "mn_addr_preview"),
   ((.unshielded, .undeployed), "mn_addr_undeployed"),
   ((.shielded, .mainnet), "mn_shield-addr"),
   ((.shielded, .preprod), "mn_shield-addr_preprod"),
   ((.shielded, .preview), "mn_shield-addr_preview"),
   ((.shielded, .undeployed), "mn_shield-addr_undeployed"),
   ((.dust, .mainnet), "mn_dust"),
   ((.dust, .preprod), "mn_dust_preprod"),
   ((.dust, .preview), "mn_dust_preview"),
   ((.dust, .undeployed), "mn_dust_undeployed")]

def HRP_REVERSE : Dict String (AddrType × Network) :=
  Dict.ofList (HRP_TABLE.entries.map (fun p => (p.2, p.1)))

open Bech32m

def encodeAddress (payload : Bytes) (addr_type : AddrType) (network : Network) : Except PyError String :=
  match HRP_TABLE.get? (addr_type, network) with
  | none => .error (.addressError ("Unknown address type/network: " ++ addr_type.str ++ "/" ++ network.str))
  | some hrp => do
    let data5 ← convertbits (payload.map UInt8.toNat) 8 5 true
    let chars ← bech32mEncode hrp.toList data5
    return String.ofList chars

def decodeAddress (address : String) : Except PyError (AddrType × Network × Bytes) := do
  let (hrp, data5) ← bech32mDecode address.toList
  match HRP_REVERSE.get? (String.ofList hrp) with
  | none => .error (.addressError ("Unknown HRP: " ++ String.ofList hrp))
  | some (addr_type, network) =>
    let payload ← convertbits data5 5 8 false
    return (addr_type, network, payload.map UInt8.ofNat)

end Noxipher
