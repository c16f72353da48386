import MergedMining.AuxPow
import MergedMining.Bans
import MergedMining.Decimal.Layout
import MergedMining.Decimal.Reading
import MergedMining.Extranonces
import MergedMining.Daemon.Http
import MergedMining.Jobs
import MergedMining.Pool.Connect
import MergedMining.Pool.Service
import MergedMining.Share
import MergedMining.Share.Flusher
import MergedMining.Store.Journal
import MergedMining.Store.Ledger
import MergedMining.Stratum.Params
import MergedMining.Daemon.Script
import MergedMining.Unlock.Schedule
import MergedMining.Conversion
import MergedMining.Toml.Document
import MergedMining.Url
import MergedMining.Settings.Basic
import MergedMining.Settings.Check
import MergedMining.Settings.Config
import MergedMining.Settings.Load
import MergedMining.CommandLine
import MergedMining.Main
import MergedMining.Proofs.Coinbase
import MergedMining.Proofs.Daemon.Replies
import MergedMining.Proofs.Daemon.Upkeep
import MergedMining.Proofs.Merkle
import MergedMining.Proofs.Pool.Announcements
import MergedMining.Proofs.Pool.Coinbase
import MergedMining.Proofs.Pool.Duplicates
import MergedMining.Proofs.Pool.CurrentJob
import MergedMining.Proofs.Pool.Disjoint
import MergedMining.Proofs.Pool.Earnings
import MergedMining.Proofs.Pool.History
import MergedMining.Proofs.Pool.Outward
import MergedMining.Proofs.Pool.Refresh
import MergedMining.Proofs.Pool.Request
import MergedMining.Proofs.Recency
import MergedMining.Proofs.Registry
import MergedMining.Proofs.Work.Miner
import MergedMining.Proofs.Work.Submission
import MergedMining.Proofs.Hex.Digits
import MergedMining.Proofs.Target
import MergedMining.Proofs.Daemon.Log
import MergedMining.Proofs.Extranonces
import MergedMining.Proofs.Share.Flushing
import MergedMining.Proofs.Pool.Alone
import MergedMining.Proofs.Work.AuxPow
import MergedMining.Proofs.Store.History
import MergedMining.Proofs.Pool.Storing
import MergedMining.Proofs.Pool.Transcript
import MergedMining.Proofs.Unlock.Progress
import MergedMining.Proofs.Pool.Repeats
import MergedMining.Proofs.Pool.Losses
import MergedMining.Proofs.Pool.Shutdown
import MergedMining.Proofs.Target.Difficulty
import MergedMining.Proofs.Target.Compact
import MergedMining.Proofs.Pool.Banned
import MergedMining.Proofs.Coinbase.Height
import MergedMining.Proofs.Daemon.Failover
import MergedMining.Proofs.Work.Rebuilding
import MergedMining.Proofs.Jobs
import MergedMining.Proofs.Target.Text
import MergedMining.Proofs.Stratum.Message
import MergedMining.Proofs.Stratum.Positional
import MergedMining.Proofs.Login.Addresses
import MergedMining.Proofs.Login.Text
import MergedMining.Proofs.Daemon.Acceptance
import MergedMining.Proofs.Settings.Usable
import MergedMining.Proofs.CompactSize
import MergedMining.Proofs.Hex.Reversal
