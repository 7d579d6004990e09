import HoneNode.ForkChoice
import HoneNode.Pool
import HoneNode.Rotation
import HoneNode.Inference.Suspension
import HoneNode.Rewards.Progress
import HoneNode.Rewards.Payouts
import HoneNode.Rewards.Averages
import HoneNode.Bridge.Queue
import HoneNode.Bridge.Supply
import HoneNode.Agents.Commits
import HoneNode.Panics
import HoneNode.Auction.Escrow
import HoneNode.Auction.Names
import HoneNode.Transport
import HoneNode.Ensemble.Escrow
import HoneNode.Beacon.Deposits
import HoneNode.Identity.Authority
import HoneNode.Identity.Sales
import HoneNode.PrivateAuth
import HoneNode.Sessions
import HoneNode.Inference.Daemon
import HoneNode.Replicas
import HoneNode.Capabilities
import HoneNode.Unstaking
import HoneNode.Timelock
import HoneNode.SecondFactor
import HoneNode.ClockNodes.Membership
import HoneNode.Rewards.Backers
import HoneNode.Runtimes
import HoneNode.Devices
import HoneNode.Signers.SignData
import HoneNode.Governance
import HoneNode.Trackers
import HoneNode.Blocks.TransactionRoot
import HoneNode.Blocks.BalanceProofs
import HoneNode.Blocks.Codec
import HoneNode.Links
import HoneNode.ChainCore
import HoneNode.Announcements
import HoneNode.TonRelay
import HoneNode.Secrets
import HoneNode.LinkGit.Access
import HoneNode.Solidity.BridgeLock
import HoneNode.Solidity.WhoneBridge
import HoneNode.Oracle
import HoneNode.Hosting
import HoneNode.Wallet
import HoneNode.Rewards.FeeBoost
import HoneNode.Rewards.HalfLife
import HoneNode.Rewards.Pruning
import HoneNode.Market.Lifecycle
import HoneNode.Market.Restart
import HoneNode.Rewards.SquareRoot
import HoneNode.Base32
import HoneNode.Utc
import HoneNode.Tx.BaseFee
import HoneNode.Timeline
import HoneNode.StorageProofs
import HoneNode.LinkGit.Push
import HoneNode.LinkGit.Fetch
import HoneNode.Contracts.Hosted
import HoneNode.Entropy
import HoneNode.Solidity.TokenSale
import HoneNode.Contracts.Ft
import HoneNode.Solidity.Whone
