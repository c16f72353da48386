import MergedMining.Decimal.Layout

/-!
# Faults of settings

Why settings cannot be read, or cannot be worked with.
-/

namespace MergedMining

/-- The kinds of numbers among the settings. -/
inductive NumberKind
  | word16
  | word32
  | word64
  | size
  | double
  deriving Repr, DecidableEq

/-- The name of a kind of numbers. -/
def NumberKind.name : NumberKind → String
  | .word16 => "u16"
  | .word32 => "u32"
  | .word64 => "u64"
  | .size => "usize"
  | .double => "f64"

/-- Why settings are not acceptable. -/
inductive SettingsFault
  | variableUnreadable (key : String) (kind : NumberKind)
  | configUnreadable (path : String)
  | configMalformed (path : String)
  | noDataDirectory
  | noChains
  | tooManyChains (count : Nat)
  | repeatedChain (name : String)
  | noRewardAddress (chain : String)
  | noNodes (chain : String)
  | nodeUrl (url chain : String)
  | nodeTimeout (url : String)
  | difficulty (d : Float)
  | noConnections
  | zero (what : String)
  deriving Repr

/-- The text of a fault of settings. -/
def SettingsFault.message : SettingsFault → String
  | .variableUnreadable key kind => s!"failed to parse environment variable SCRYPTPOOL_{key} as {kind.name}"
  | .configUnreadable path => s!"failed to open config file `{path}`"
  | .configMalformed path => s!"failed to deserialize config file `{path}`"
  | .noDataDirectory => "could not get data dir"
  | .noChains => "no chains configured"
  | .tooManyChains count => s!"at most one primary and one aux chain are supported, got {count} chains"
  | .repeatedChain name => s!"chain `{name}` configured twice"
  | .noRewardAddress chain => s!"chain `{chain}` has no reward address"
  | .noNodes chain => s!"chain `{chain}` has no rpc nodes"
  | .nodeUrl url chain => s!"invalid rpc url `{url}` for chain `{chain}`"
  | .nodeTimeout url => s!"rpc timeout for `{url}` must be positive"
  | .difficulty d => s!"pool difficulty must be positive, got {Decimal.toText d}"
  | .noConnections => "max connections must be positive"
  | .zero what => s!"{what} must be positive"

end MergedMining
