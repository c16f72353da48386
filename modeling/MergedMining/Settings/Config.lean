import MergedMining.Json.Members
import MergedMining.Settings.Basic
import MergedMining.Toml.Document

/-!
# Settings from a file

A configuration file is a TOML text.  Nothing in it may be unknown, and every value has to fit its setting:
whole numbers count as decimals, but not the other way round.
-/

namespace MergedMining

/-- A whole number of sixteen bits. -/
def Json.toUInt16? (v : Json) : Option UInt16 := (toNat? UInt16.size v).map UInt16.ofNat

/-- Reads how a daemon is reached. -/
def NodeSettings.ofJson? (v : Json) : Option NodeSettings := do
  let m ← Json.closedMembers ["url", "username", "password", "timeout"] v
  return {
    url := ← m.required "url" Json.toStr?
    username := ← m.withDefault "username" "" Json.toStr?
    password := ← m.withDefault "password" "" Json.toStr?
    timeout := ← m.withDefault "timeout" 10 Json.toUInt64? }

/-- Reads the settings of a chain. -/
def ChainSettings.ofJson? (v : Json) : Option ChainSettings := do
  let m ← Json.closedMembers ["name", "reward_address", "block_notify_url", "nodes"] v
  return {
    name := ← m.required "name" Json.toStr?
    rewardAddress := ← m.required "reward_address" Json.toStr?
    noticeUrl := ← m.optionalWithDefault "block_notify_url" Json.toStr?
    nodes := ← m.required "nodes" (Json.toList? NodeSettings.ofJson?) }

namespace Choices

/-- The database and the file that shares and blocks may be kept in. -/
def storeOf? (v : Json) : Option (Option String × Option String) := do
  let m ← Json.closedMembers ["database_url", "path"] v
  return (← m.optionalWithDefault "database_url" Json.toStr?, ← m.optionalWithDefault "path" Json.toStr?)

/-- The choices of a configuration. -/
def ofJson? (v : Json) : Option Choices := do
  let m ← Json.closedMembers ["pool_name", "block_signature", "address", "port", "max_connections",
    "connection_timeout", "pool_difficulty", "share_flush_interval", "update_interval", "primary_check_interval",
    "unlock_interval", "malformed_limit", "chains", "store"] v
  let store ← m.withDefault "store" (none, none) storeOf?
  return {
    poolName := ← m.optionalWithDefault "pool_name" Json.toStr?
    blockSignature := ← m.optionalWithDefault "block_signature" Json.toStr?
    address := ← m.optionalWithDefault "address" Json.toStr?
    port := ← m.optionalWithDefault "port" Json.toUInt16?
    maxConnections := ← m.optionalWithDefault "max_connections" Json.toUInt64?
    connectionTimeout := ← m.optionalWithDefault "connection_timeout" Json.toUInt64?
    poolDifficulty := ← m.optionalWithDefault "pool_difficulty" Json.toFloat?
    shareFlushInterval := ← m.optionalWithDefault "share_flush_interval" Json.toUInt64?
    updateInterval := ← m.optionalWithDefault "update_interval" Json.toUInt64?
    primaryCheckInterval := ← m.optionalWithDefault "primary_check_interval" Json.toUInt64?
    unlockInterval := ← m.optionalWithDefault "unlock_interval" Json.toUInt64?
    malformedLimit := ← m.optionalWithDefault "malformed_limit" Json.toUInt32?
    chains := ← m.withDefault "chains" [] (Json.toList? ChainSettings.ofJson?)
    databaseUrl := store.1
    storePath := store.2 }

/-- The choices of a configuration text. -/
def ofText? (text : String) : Option Choices := (Toml.parse? text).bind ofJson?

end Choices

end MergedMining
