import AgencCoordination.Effects.Bidding
import AgencCoordination.Effects.Books
import AgencCoordination.Effects.Claiming
import AgencCoordination.Effects.Community
import AgencCoordination.Effects.Deposits
import AgencCoordination.Effects.Disputes
import AgencCoordination.Effects.Escrow
import AgencCoordination.Effects.Expiry
import AgencCoordination.Effects.Frames
import AgencCoordination.Effects.Government
import AgencCoordination.Effects.Market
import AgencCoordination.Effects.Payments
import AgencCoordination.Effects.Review
import AgencCoordination.Effects.Steps
import AgencCoordination.Foundations.AddressText
import AgencCoordination.Foundations.Binary64
import AgencCoordination.Foundations.Borsh
import AgencCoordination.Foundations.Bytes
import AgencCoordination.Foundations.CallLog
import AgencCoordination.Foundations.Champion
import AgencCoordination.Foundations.EqualShares
import AgencCoordination.Foundations.Follows
import AgencCoordination.Foundations.Guard
import AgencCoordination.Foundations.HexText
import AgencCoordination.Foundations.Json
import AgencCoordination.Foundations.JsonCanonical
import AgencCoordination.Foundations.JsonLines
import AgencCoordination.Foundations.JsonObject
import AgencCoordination.Foundations.JsonText
import AgencCoordination.Foundations.Ledger
import AgencCoordination.Foundations.NumberText
import AgencCoordination.Foundations.Paging
import AgencCoordination.Foundations.Recent
import AgencCoordination.Foundations.Roster
import AgencCoordination.Foundations.Run
import AgencCoordination.Foundations.SafeInteger
import AgencCoordination.Foundations.SealedBox
import AgencCoordination.Foundations.Tally
import AgencCoordination.Foundations.TextCuts
import AgencCoordination.Foundations.Utf16
import AgencCoordination.Foundations.Utf8
import AgencCoordination.Foundations.Versions
import AgencCoordination.Foundations.WorkList
import AgencCoordination.Invariants.Attestors
import AgencCoordination.Invariants.BidAccounts
import AgencCoordination.Invariants.Budget
import AgencCoordination.Invariants.Cancellation
import AgencCoordination.Invariants.ClaimGeneration
import AgencCoordination.Invariants.Conservation
import AgencCoordination.Invariants.Contest
import AgencCoordination.Invariants.ContestWindow
import AgencCoordination.Invariants.CounterRepair
import AgencCoordination.Invariants.Counters
import AgencCoordination.Invariants.Disputes
import AgencCoordination.Invariants.Election
import AgencCoordination.Invariants.EntryDeposits
import AgencCoordination.Invariants.FeeTerms
import AgencCoordination.Invariants.Feed
import AgencCoordination.Invariants.Fees
import AgencCoordination.Invariants.Finished
import AgencCoordination.Invariants.GhostSplit
import AgencCoordination.Invariants.Goods
import AgencCoordination.Invariants.Governance
import AgencCoordination.Invariants.HireRatings
import AgencCoordination.Invariants.Listings
import AgencCoordination.Invariants.Mandates
import AgencCoordination.Invariants.Migration
import AgencCoordination.Invariants.Occupancy
import AgencCoordination.Invariants.OneShare
import AgencCoordination.Invariants.Outcomes
import AgencCoordination.Invariants.Payloads
import AgencCoordination.Invariants.PeerSettlement
import AgencCoordination.Invariants.Pinned
import AgencCoordination.Invariants.PrivateSpends
import AgencCoordination.Invariants.Ranking
import AgencCoordination.Invariants.RentFloor
import AgencCoordination.Invariants.ReputationStakes
import AgencCoordination.Invariants.Retirement
import AgencCoordination.Invariants.Review
import AgencCoordination.Invariants.Seats
import AgencCoordination.Invariants.SettlementMath
import AgencCoordination.Invariants.Skills
import AgencCoordination.Invariants.Solvency
import AgencCoordination.Invariants.Stake
import AgencCoordination.Invariants.Terminal
import AgencCoordination.Invariants.TokenBooks
import AgencCoordination.Invariants.TokenEscrow
import AgencCoordination.Invariants.TokenMoves
import AgencCoordination.Invariants.VoteLocks
import AgencCoordination.Invariants.Winners
import AgencCoordination.Invariants.WorkTerms
import AgencCoordination.Program.Agents
import AgencCoordination.Program.Bidding
import AgencCoordination.Program.Bonds
import AgencCoordination.Program.CancelAccounts
import AgencCoordination.Program.Claiming
import AgencCoordination.Program.Community
import AgencCoordination.Program.Completion
import AgencCoordination.Program.Creation
import AgencCoordination.Program.Disputes
import AgencCoordination.Program.Expiry
import AgencCoordination.Program.Goods
import AgencCoordination.Program.Governance
import AgencCoordination.Program.Government
import AgencCoordination.Program.Listings
import AgencCoordination.Program.Market
import AgencCoordination.Program.Migration
import AgencCoordination.Program.Moderation
import AgencCoordination.Program.Prelude
import AgencCoordination.Program.PrivateCompletion
import AgencCoordination.Program.Program
import AgencCoordination.Program.Review
import AgencCoordination.Program.SettlementMath
import AgencCoordination.Program.State
import AgencCoordination.Program.TaskReserved
import AgencCoordination.Program.TaskValidation
import AgencCoordination.Sdk.CanonicalJson
import AgencCoordination.Sdk.ClaimGates
import AgencCoordination.Sdk.Claimable
import AgencCoordination.Sdk.DeliveryCrypto
import AgencCoordination.Sdk.DeliveryManifest
import AgencCoordination.Sdk.DeliverySafety
import AgencCoordination.Sdk.EventAttribution
import AgencCoordination.Sdk.EventPolling
import AgencCoordination.Sdk.Events
import AgencCoordination.Sdk.HistoryExact
import AgencCoordination.Sdk.ListingCodecs
import AgencCoordination.Sdk.ListingMetadata
import AgencCoordination.Sdk.MarketplaceWrite
import AgencCoordination.Sdk.PollingExact
import AgencCoordination.Sdk.SnapshotSafety
import AgencCoordination.Sdk.StructuredClone
import AgencCoordination.Sdk.TaskThread
import AgencCoordination.Sdk.Watch
import AgencCoordination.Sdk.WatchDelivery
import AgencCoordination.Sdk.WebhookAuthentication
import AgencCoordination.Sdk.Webhooks
import AgencCoordination.Worker.AddressBlocks
import AgencCoordination.Worker.AddressReading
import AgencCoordination.Worker.FetchSafety
import AgencCoordination.Worker.JobSpecEnvelope
import AgencCoordination.Worker.JobSpecFetch
import AgencCoordination.Worker.LockSafety
import AgencCoordination.Worker.Prompt
import AgencCoordination.Worker.PromptFences
import AgencCoordination.Worker.PublicAddress
import AgencCoordination.Worker.State
import AgencCoordination.Worker.StateFile
import AgencCoordination.Worker.StateLock
