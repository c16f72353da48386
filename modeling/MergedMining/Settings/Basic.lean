import MergedMining.Failure
import MergedMining.Pool.Basic

/-!
# Settings

`Choices` are what one source of settings says; what it does not speak of is absent.  `Settings` leave nothing
open.  Of two sources that speak of the same thing the one in front counts, and what no source speaks of has a
default.
-/

namespace MergedMining

/-- How a daemon is reached; the timeout is in seconds. -/
structure NodeSettings where
  url : String
  username : String
  password : String
  timeout : UInt64
  deriving Repr, DecidableEq

/-- A chain, the address its rewards go to, where its block notices come from, and its daemons. -/
structure ChainSettings where
  name : String
  rewardAddress : String
  noticeUrl : Option String
  nodes : List NodeSettings
  deriving Repr, DecidableEq

/-- What one source of settings says. -/
structure Choices where
  config : Option String := none
  configDirectory : Option String := none
  poolName : Option String := none
  blockSignature : Option String := none
  address : Option String := none
  port : Option UInt16 := none
  maxConnections : Option UInt64 := none
  connectionTimeout : Option UInt64 := none
  poolDifficulty : Option Float := none
  shareFlushInterval : Option UInt64 := none
  updateInterval : Option UInt64 := none
  primaryCheckInterval : Option UInt64 := none
  unlockInterval : Option UInt64 := none
  malformedLimit : Option UInt32 := none
  chains : List ChainSettings := []
  databaseUrl : Option String := none
  storePath : Option String := none
  deriving Repr

/-- Settings that leave nothing open; all times are in seconds. -/
structure Settings where
  config : Option String
  configDirectory : Option String
  poolName : String
  blockSignature : String
  address : String
  port : UInt16
  maxConnections : UInt64
  connectionTimeout : UInt64
  poolDifficulty : Float
  shareFlushInterval : UInt64
  updateInterval : UInt64
  primaryCheckInterval : UInt64
  unlockInterval : UInt64
  malformedLimit : UInt32
  chains : List ChainSettings
  databaseUrl : Option String
  storePath : String
  deriving Repr

namespace Choices

/-- The choices of two sources, of which the first one counts. -/
def orElse (a b : Choices) : Choices where
  config := a.config <|> b.config
  configDirectory := a.configDirectory <|> b.configDirectory
  poolName := a.poolName <|> b.poolName
  blockSignature := a.blockSignature <|> b.blockSignature
  address := a.address <|> b.address
  port := a.port <|> b.port
  maxConnections := a.maxConnections <|> b.maxConnections
  connectionTimeout := a.connectionTimeout <|> b.connectionTimeout
  poolDifficulty := a.poolDifficulty <|> b.poolDifficulty
  shareFlushInterval := a.shareFlushInterval <|> b.shareFlushInterval
  updateInterval := a.updateInterval <|> b.updateInterval
  primaryCheckInterval := a.primaryCheckInterval <|> b.primaryCheckInterval
  unlockInterval := a.unlockInterval <|> b.unlockInterval
  malformedLimit := a.malformedLimit <|> b.malformedLimit
  chains := if a.chains.isEmpty then b.chains else a.chains
  databaseUrl := a.databaseUrl <|> b.databaseUrl
  storePath := a.storePath <|> b.storePath

/-- The choices with defaults for all that they leave open; `dataDirectory` is where a user's data lies. -/
def resolve (c : Choices) (dataDirectory : Option String) : Except SettingsFault Settings :=
  match c.storePath <|> dataDirectory.map (· ++ "/scryptpool/store.jsonl") with
  | none => .error .noDataDirectory
  | some storePath =>
    .ok {
      config := c.config
      configDirectory := c.configDirectory
      poolName := c.poolName.getD "scryptpool"
      blockSignature := c.blockSignature.getD "/scryptpool/"
      address := c.address.getD "0.0.0.0"
      port := c.port.getD 3333
      maxConnections := c.maxConnections.getD 10000
      connectionTimeout := c.connectionTimeout.getD 600
      poolDifficulty := c.poolDifficulty.getD 16
      shareFlushInterval := c.shareFlushInterval.getD 5
      updateInterval := c.updateInterval.getD 30
      primaryCheckInterval := c.primaryCheckInterval.getD 60
      unlockInterval := c.unlockInterval.getD 600
      malformedLimit := c.malformedLimit.getD 3
      chains := c.chains
      databaseUrl := c.databaseUrl
      storePath }

end Choices

/-- Writes how a daemon is reached. -/
def NodeSettings.toJson (n : NodeSettings) : Json :=
  .obj [("url", .str n.url), ("username", .str n.username), ("password", .str n.password),
    ("timeout", .ofNat n.timeout.toNat)]

/-- Writes the settings of a chain. -/
def ChainSettings.toJson (c : ChainSettings) : Json :=
  .obj [("name", .str c.name), ("reward_address", .str c.rewardAddress),
    ("block_notify_url", .ofOption .str c.noticeUrl), ("nodes", .arr (c.nodes.map NodeSettings.toJson))]

namespace Settings

/-- Writes settings. -/
def toJson (s : Settings) : Json :=
  .obj [("config", .ofOption .str s.config), ("config_dir", .ofOption .str s.configDirectory),
    ("pool_name", .str s.poolName), ("block_signature", .str s.blockSignature), ("address", .str s.address),
    ("port", .ofNat s.port.toNat), ("max_connections", .ofNat s.maxConnections.toNat),
    ("connection_timeout", .ofNat s.connectionTimeout.toNat), ("pool_difficulty", .float s.poolDifficulty),
    ("share_flush_interval", .ofNat s.shareFlushInterval.toNat), ("update_interval", .ofNat s.updateInterval.toNat),
    ("primary_check_interval", .ofNat s.primaryCheckInterval.toNat),
    ("unlock_interval", .ofNat s.unlockInterval.toNat), ("malformed_limit", .ofNat s.malformedLimit.toNat),
    ("chains", .arr (s.chains.map ChainSettings.toJson)), ("database_url", .ofOption .str s.databaseUrl),
    ("store_path", .str s.storePath)]

/-- What a pool is told of the settings. -/
def pool (s : Settings) : PoolSettings where
  name := s.poolName
  signature := Bytes.ofText s.blockSignature
  difficulty := s.poolDifficulty
  malformedLimit := s.malformedLimit.toNat
  connectionTimeout := s.connectionTimeout.toNat
  maxConnections := s.maxConnections.toNat

end Settings

end MergedMining
