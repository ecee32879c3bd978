import Noxipher.Address.Bech32m
import Noxipher.Indexer.Utxo
import Noxipher.Zswap.State

namespace Noxipher

/-- A signing key; a randomized scheme may use the number of the draw. -/
structure Sr25519Signer where
  public_key : Bytes
  sign : Nat → Bytes → Bytes

/-- The address names the SHA-256 digest of the public key. -/
def Sr25519Signer.computeAddress (sha256 : Bytes → Bytes) (signer : Sr25519Signer) (network : Network) :
    Except PyError String :=
  encodeAddress (sha256 signer.public_key) .unshielded network

structure UnshieldedWallet where
  signer : Sr25519Signer
  address : String

structure DustWallet where
  signer : Sr25519Signer
  network : Network

structure ShieldedWallet where
  coin_secret_key : Bytes
  coin_public_key : Bytes
  address : String

structure MidnightWallet where
  unshielded : UnshieldedWallet
  shielded : ShieldedWallet
  dust : DustWallet
  shielded_state : ZswapState

namespace UnshieldedWallet

/-- `UnshieldedWallet.__init__` -/
def new (sha256 : Bytes → Bytes) (signer : Sr25519Signer) (network : Network) : Except PyError UnshieldedWallet := do
  let address ← signer.computeAddress sha256 network
  return ⟨signer, address⟩

def publicKey (wallet : UnshieldedWallet) : Bytes := wallet.signer.public_key

def getUtxos (wallet : UnshieldedWallet) (indexer : IndexerUtxos) : Except PyError (List UtxoRecord) :=
  indexer.getUtxos wallet.address

/-- The key of the balance table: the field as it stands, with the `hex` of an object. -/
def balanceKey (utxo : UtxoRecord) : Option String :=
  match utxo.token_type.getD (.str zeroHex) with
  | .obj fields => fields.getD "hex" (some zeroHex)
  | .str s => some s
  | .null => none

def balanceLoop : List UtxoRecord → Dict (Option String) Int → Except PyError (Dict (Option String) Int)
  | [], balances => .ok balances
  | utxo::utxos, balances => do
    let tt := balanceKey utxo
    let val ← utxo.intValue
    balanceLoop utxos (balances.set tt (balances.getD tt 0+val))

def getBalance (wallet : UnshieldedWallet) (indexer : IndexerUtxos) :
    Except PyError (Dict (Option String) Int) := do
  let utxos ← wallet.getUtxos indexer
  balanceLoop utxos Dict.empty

end UnshieldedWallet

namespace DustWallet

def publicKey (wallet : DustWallet) : Bytes := wallet.signer.public_key

/-- 0x73 and the public key, under the dust prefix of the network. -/
def address (wallet : DustWallet) : Except PyError String :=
  encodeAddress (0x73 :: wallet.signer.public_key) .dust wallet.network

def getUtxos (wallet : DustWallet) (indexer : IndexerUtxos) : Except PyError (List UtxoRecord) := do
  let address ← wallet.address
  indexer.getUtxos address

end DustWallet

end Noxipher
