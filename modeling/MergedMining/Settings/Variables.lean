import MergedMining.Decimal.Reading
import MergedMining.Settings.Basic

/-!
# Settings from the environment

Each setting but the chains has a variable.  Texts are taken as they are; of several numbers that do not read,
the first in the order below is at fault.
-/

namespace MergedMining

namespace Choices

/-- The number of a variable. -/
def numberOf {α : Type} (vs : List (String × String)) (key : String) (kind : NumberKind)
    (read : String → Option α) : Except SettingsFault (Option α) :=
  match vs.lookup key with
  | none => .ok none
  | some text =>
    match read text with
    | some a => .ok (some a)
    | none => .error (.variableUnreadable key kind)

/-- A whole number below a limit. -/
def natural? (limit : Nat) (text : String) : Option Nat := (Numeral.parse 10 limit text).toOption

/-- A whole number of sixty-four bits. -/
def word64? (text : String) : Option UInt64 := (natural? UInt64.size text).map UInt64.ofNat

/-- The choices that variables of the environment make; their names are given without what they have in common. -/
def ofVariables (vs : List (String × String)) : Except SettingsFault Choices := do
  let port ← numberOf vs "PORT" .word16 fun s => (natural? UInt16.size s).map UInt16.ofNat
  let maxConnections ← numberOf vs "MAX_CONNECTIONS" .size word64?
  let connectionTimeout ← numberOf vs "CONNECTION_TIMEOUT" .word64 word64?
  let poolDifficulty ← numberOf vs "POOL_DIFFICULTY" .double Decimal.parse?
  let shareFlushInterval ← numberOf vs "SHARE_FLUSH_INTERVAL" .word64 word64?
  let updateInterval ← numberOf vs "UPDATE_INTERVAL" .word64 word64?
  let primaryCheckInterval ← numberOf vs "PRIMARY_CHECK_INTERVAL" .word64 word64?
  let unlockInterval ← numberOf vs "UNLOCK_INTERVAL" .word64 word64?
  let malformedLimit ← numberOf vs "MALFORMED_LIMIT" .word32 fun s => (natural? UInt32.size s).map UInt32.ofNat
  return {
    config := vs.lookup "CONFIG"
    configDirectory := vs.lookup "CONFIG_DIR"
    poolName := vs.lookup "POOL_NAME"
    blockSignature := vs.lookup "BLOCK_SIGNATURE"
    address := vs.lookup "ADDRESS"
    databaseUrl := vs.lookup "DATABASE_URL"
    storePath := vs.lookup "STORE_PATH"
    port, maxConnections, connectionTimeout, poolDifficulty, shareFlushInterval, updateInterval,
    primaryCheckInterval, unlockInterval, malformedLimit }

end Choices

end MergedMining
