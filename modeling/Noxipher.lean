import Noxipher.Library.Outcome
import Noxipher.Library.LittleEndian
import Noxipher.Library.Dict
import Noxipher.Library.HashTree
import Noxipher.Core.Errors
import Noxipher.Crypto.Fields
import Noxipher.Zswap.Notes
import Noxipher.Zswap.State
import Noxipher.Zswap.Membership
import Noxipher.Zswap.Upkeep
import Noxipher.Zswap.Nullifiers
import Noxipher.Zswap.MerkleProof
import Noxipher.Zswap.Bounds
import Noxipher.Zswap.StoreRuns
import Noxipher.Zswap.Atomicity
import Noxipher.Zswap.CommitmentBinding
import Noxipher.Zswap.RootBinding
import Noxipher.Zswap.DenseRoot
import Noxipher.Address.Bech32m
import Noxipher.Library.Radix
import Noxipher.Library.XorFold
import Noxipher.Address.Checksum
import Noxipher.Address.Regroup
import Noxipher.Address.RoundTrip
import Noxipher.Address.Canonical
import Noxipher.Address.Slips
import Noxipher.Address.Bursts
import Noxipher.Address.Validator
import Noxipher.Core.Text
import Noxipher.Crypto.Curves
import Noxipher.Library.Edwards
import Noxipher.Crypto.Residues
import Noxipher.Library.DoubleAndAdd
import Noxipher.Crypto.CurveGroup
import Noxipher.Crypto.Projective
import Noxipher.Crypto.Completeness
import Noxipher.Crypto.Compression
import Noxipher.Crypto.PoseidonConstants
import Noxipher.Crypto.Poseidon
import Noxipher.Library.SubstitutionNetwork
import Noxipher.Crypto.Permutation
import Noxipher.Crypto.Binding
import Noxipher.Crypto.Keys
import Noxipher.Library.Blocks
import Noxipher.Library.Runs
import Noxipher.Core.Failures
import Noxipher.Crypto.Digests
import Noxipher.Crypto.GroupOrder
import Noxipher.Crypto.Openings
import Noxipher.Library.Ratchet
import Noxipher.Crypto.KeyPaths
import Noxipher.Library.PrefixCode
import Noxipher.Tx.Scale
import Noxipher.Tx.ScalarFields
import Noxipher.Tx.CompactIntegers
import Noxipher.Tx.ArgumentSchemas
import Noxipher.Tx.Unambiguous
import Noxipher.Tx.ZswapOffers
import Noxipher.Indexer.Utxo
import Noxipher.Library.Greedy
import Noxipher.Tx.Models
import Noxipher.Wallet.Wallets
import Noxipher.Wallet.DustAddress
import Noxipher.Tx.Builder
import Noxipher.Tx.Transfer
import Noxipher.Tx.Outputs
import Noxipher.Library.GreedyOptimal
import Noxipher.Tx.Selection
import Noxipher.Wallet.Owners
import Noxipher.Wallet.Accounts
import Noxipher.Wallet.KeyUses
import Noxipher.Wallet.ViewingKeys
import Noxipher.Wallet.Sessions
import Noxipher.Library.Tally
import Noxipher.Wallet.Balance
import Noxipher.Tx.Serialize
import Noxipher.Tx.Signing
import Noxipher.Tx.SigningRuns
import Noxipher.Tx.Retry
import Noxipher.Tx.Coverage
import Noxipher.Tx.Routing
import Noxipher.Tx.SegmentZero
import Noxipher.Tx.Writable
import Noxipher.Proof.Prover
import Noxipher.Tx.Shielded
import Noxipher.Tx.Witnesses
import Noxipher.Tx.Recipients
import Noxipher.Tx.ShieldedBalance
import Noxipher.Tx.Shortfall
import Noxipher.Tx.Submission
import Noxipher.Tx.DustOwnership
import Noxipher.Tx.ProofSlots
import Noxipher.Library.Polling
import Noxipher.Indexer.Models
import Noxipher.Tx.Receipt
import Noxipher.Dapp.Connector
import Noxipher.Dapp.AllOrNothing
import Noxipher.Dapp.Balancing
import Noxipher.Dapp.Additions
import Noxipher.Dapp.Handover
import Noxipher.Dapp.Outpoints
import Noxipher.Dapp.NightCoins
import Noxipher.Dapp.Change
import Noxipher.Tx.TokenBytes
import Noxipher.Contract.Service
import Noxipher.Library.SpendOnce
import Noxipher.Tx.SameView
import Noxipher.Library.Retrying
import Noxipher.Proof.Client
import Noxipher.Proof.Spends
import Noxipher.Library.Rounds
import Noxipher.Tx.ReceiptAttempts
import Noxipher.Dapp.Overlaps
import Noxipher.Node.Connections
import Noxipher.Crypto.FieldHashes
import Noxipher.Contract.Instance
import Noxipher.Tx.Submitted
import Noxipher.Dapp.Submittable
