import MergedMining.BlockNotice
import MergedMining.Extranonces
import MergedMining.Settings.Fault
import MergedMining.Store.Basic

/-!
# Failures

A failure is a cause and what was going on when it came up.  Its text is that of the outermost activity, and it
counts as a fault of the work engine when there is one at the bottom.
-/

namespace MergedMining

/-- What can be going on when something fails. -/
inductive Activity
  | loadingPending
  | updatingBlock (chain : String) (height : UInt64)
  | flushing (count : Nat)
  | connecting (chain : String)
  | fetchingTemplate (chain : String)
  | supporting (chain : String)
  | openingStore (path : String)
  | initialWork
  deriving Repr, DecidableEq

/-- The text of an activity that failed. -/
def Activity.message : Activity → String
  | .loadingPending => "failed to load pending blocks"
  | .updatingBlock chain height => s!"failed to update {chain} block {height.toNat}"
  | .flushing count => s!"failed to flush {count} shares"
  | .connecting chain => s!"failed to connect to {chain}"
  | .fetchingTemplate chain => s!"failed to fetch {chain} block template"
  | .supporting chain => s!"unsupported chain `{chain}`"
  | .openingStore path => s!"failed to open store file {path}"
  | .initialWork => "failed to build initial work"

/-- A failure. -/
inductive Failure
  | fault (cause : Fault)
  | store (cause : StoreFault)
  | sizes (cause : SizeFault)
  | notice (cause : NoticeFault)
  | settings (cause : SettingsFault)
  | listening (address : String) (port : UInt16)
  | noticeEndpoint (endpoint : String)
  | database (url : String)
  | unknownStatus (name : String)
  | noNodes (chain : String)
  | noTransactions (hash : String)
  | noPrimary
  | noAuxChain
  | noAuxBlock (job : Stratum.JobId)
  | notConvertible (value : String)
  | rewardAddress (chain : String) (network : Network) (address : String)
  | during (activity : Activity) (cause : Failure)
  deriving Repr

namespace Failure

/-- The text of a failure. -/
def message : Failure → String
  | .fault cause => cause.message
  | .store cause => cause.message
  | .sizes cause => cause.message
  | .notice cause => cause.message
  | .settings cause => cause.message
  | .listening address port => s!"failed to listen on {address}:{port.toNat}"
  | .noticeEndpoint endpoint => s!"failed to connect to ZMQ endpoint `{endpoint}`"
  | .database url => s!"failed to connect to database at {url}"
  | .unknownStatus name => s!"unknown block status `{name}`"
  | .noNodes chain => s!"no rpc nodes for {chain}"
  | .noTransactions hash => s!"block {hash} has no transactions"
  | .noPrimary => "no primary chain configured"
  | .noAuxChain => "no aux chain configured"
  | .noAuxBlock job => s!"job {job.toText} carries no aux block"
  | .notConvertible value => s!"`{value}` is neither bits, a target nor a difficulty"
  | .rewardAddress chain network address => s!"invalid {chain} {network.name}net reward address `{address}`"
  | .during activity _ => activity.message

/-- The texts of what lies behind a failure, the nearest first. -/
def causes : Failure → List String
  | .during _ cause => cause.message :: cause.causes
  | _ => []

/-- The fault of the work engine at the bottom of a failure. -/
def fault? : Failure → Option Fault
  | .fault cause => some cause
  | .during _ cause => cause.fault?
  | _ => none

/-- An encoding fault as a failure. -/
def ofEncoding (cause : EncodingFault) : Failure := .fault (.encoding cause)

/-- A state fault as a failure. -/
def ofState (cause : StateFault) : Failure := .fault (.state cause)

/-- A validation fault as a failure. -/
def ofValidation (cause : ValidationFault) : Failure := .fault (.validation cause)

end Failure

end MergedMining
