import Noxipher.Core.Errors

namespace Noxipher

inductive Network where
  | mainnet | testnet | preprod | preview | devnet | local_ | undeployed
  deriving DecidableEq, Repr

/-- The configuration fields the transaction code reads. -/
structure NetworkConfig where
  name : String
  network : Network
  min_fee : Int := 10000

end Noxipher
