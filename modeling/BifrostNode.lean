import BifrostNode.Lib.StorageMap
import BifrostNode.Lib.Tally
import BifrostNode.Lib.RankedList
import BifrostNode.Lib.Leaderboard
import BifrostNode.Lib.Transition
import BifrostNode.Lib.Pairing
import BifrostNode.Lib.Text
import BifrostNode.Lib.Sublists
import BifrostNode.Lib.Median
import BifrostNode.Lib.Words
import BifrostNode.Staking.Types
import BifrostNode.Staking.Nominator
import BifrostNode.Staking.Ledger
import BifrostNode.Staking.Insertion
import BifrostNode.Staking.Board
import BifrostNode.Staking.BoardSpec
import BifrostNode.Staking.NominatorCalls
import BifrostNode.Staking.State
import BifrostNode.Staking.CandidateCalls
import BifrostNode.Staking.Payouts
import BifrostNode.Staking.Rounds
import BifrostNode.Staking.Books
import BifrostNode.Staking.NominatorSpec
import BifrostNode.Staking.CandidateSpec
import BifrostNode.Staking.HookSpec
import BifrostNode.Staking.RosterSpec
import BifrostNode.Staking.Machine
import BifrostNode.Staking.StepSpec
import BifrostNode.Staking.Turns
import BifrostNode.Staking.Shifts
import BifrostNode.Staking.Safety
import BifrostNode.Staking.Dispatch
import BifrostNode.Staking.Roster
import BifrostNode.Staking.Terms
import BifrostNode.Staking.Penalties
import BifrostNode.Staking.Controllers
import BifrostNode.Staking.SessionKeys
import BifrostNode.Staking.Audit
import BifrostNode.Staking.PayoutSpec
import BifrostNode.Staking.Shares
import BifrostNode.Staking.PastRewards
import BifrostNode.Staking.SnapshotSpec
import BifrostNode.Relay.Manager
import BifrostNode.Relay.Renaming
import BifrostNode.Relay.Network
import BifrostNode.Relay.Bonds
import BifrostNode.Relay.Driver
import BifrostNode.Relay.Authorities
import BifrostNode.Relay.Requesters
import BifrostNode.Cccp.Message
import BifrostNode.Cccp.Queue
import BifrostNode.Cccp.QueueSpec
import BifrostNode.Cccp.Caps
import BifrostNode.Cccp.Lifecycle
import BifrostNode.Cccp.Quota
import BifrostNode.Cccp.Registry
import BifrostNode.Btc.Coins
import BifrostNode.Btc.Selection
import BifrostNode.Btc.Exact
import BifrostNode.Btc.Optimal
import BifrostNode.Btc.Registration
import BifrostNode.Btc.Blaze
import BifrostNode.Btc.FeeRates
import BifrostNode.Btc.Vaults
import BifrostNode.Btc.Records
import BifrostNode.Btc.Keys
import BifrostNode.Btc.Refunds
import BifrostNode.Btc.Approvals
import BifrostNode.Btc.SocketQueue
import BifrostNode.Btc.Bridge
import BifrostNode.Btc.Bumps
import BifrostNode.Btc.Docket
import BifrostNode.Btc.CoinMoves
import BifrostNode.Btc.CoinQuota
import BifrostNode.Btc.Phases
import BifrostNode.Btc.Rollbacks
import BifrostNode.Btc.Outbound
import BifrostNode.Btc.Solvency
import BifrostNode.Btc.Sizes
import BifrostNode.Btc.Outputs
import BifrostNode.Btc.Payloads
import BifrostNode.Btc.Migration
import BifrostNode.Btc.Handover
import BifrostNode.Btc.Operators
import BifrostNode.Fees.Registry
import BifrostNode.Fees.Oracle
import BifrostNode.Fees.Payment
import BifrostNode.Fees.Transfers
import BifrostNode.Fees.Receipts
import BifrostNode.Fees.Prices
import BifrostNode.Lib.Locks
import BifrostNode.Lib.Filing
import BifrostNode.Btc.Cargo
import BifrostNode.Btc.Payments
import BifrostNode.Btc.Locks
import BifrostNode.Btc.CoinLocks
import BifrostNode.Staking.TopCandidates
import BifrostNode.Staking.Minting
import BifrostNode.Cccp.Abi
import BifrostNode.Cccp.Linkage
import BifrostNode.Lib.Ballots
import BifrostNode.Cccp.Votes
import BifrostNode.Btc.Votes
import BifrostNode.Relay.Pallets
import BifrostNode.Relay.Voters
import BifrostNode.Relay.Votes
import BifrostNode.Relay.Progress
import BifrostNode.Btc.Journey
import BifrostNode.Btc.History
import BifrostNode.Staking.Notice
import BifrostNode.Lib.Windows
import BifrostNode.Staking.Caches
import BifrostNode.Relay.Archive
import BifrostNode.Staking.Wealth
import BifrostNode.Staking.Completeness
import BifrostNode.Relay.Quorums
import BifrostNode.Relay.Heartbeats
import BifrostNode.Fees.Collector
