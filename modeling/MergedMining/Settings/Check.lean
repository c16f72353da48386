import MergedMining.Chain
import MergedMining.Settings.Basic
import MergedMining.Url

/-!
# Settings that can be worked with

One chain is mined and at most one more is merge-mined; every chain is known, has a reward address and at least
one daemon with a URL; difficulty, times and the number of connections are positive.  The first fault in this
order is told.
-/

namespace MergedMining

namespace NodeSettings

/-- Whether a daemon of a chain can be called. -/
def check (chain : String) (n : NodeSettings) : Except SettingsFault Unit :=
  if !Url.isUrl n.url then .error (.nodeUrl n.url chain)
  else if n.timeout = 0 then .error (.nodeTimeout n.url)
  else .ok ()

end NodeSettings

namespace ChainSettings

/-- Whether a chain can be mined, given the names of the chains in front of it. -/
def check (earlier : List String) (c : ChainSettings) : Except Failure Unit := do
  match Chain.ofName c.name with
  | .error e => throw (.during (.supporting c.name) (.ofValidation e))
  | .ok _ => pure ()
  if earlier.contains c.name then throw (.settings (.repeatedChain c.name))
  if c.rewardAddress = "" then throw (.settings (.noRewardAddress c.name))
  if c.nodes.isEmpty then throw (.settings (.noNodes c.name))
  (c.nodes.forM (NodeSettings.check c.name)).mapError .settings

/-- Whether chains can be mined together. -/
def checkAll : List String → List ChainSettings → Except Failure Unit
  | _, [] => .ok ()
  | earlier, c :: rest => do
    c.check earlier
    checkAll (c.name :: earlier) rest

end ChainSettings

namespace Settings

/-- The times among the settings, with what they are called. -/
def times (s : Settings) : List (String × UInt64) :=
  [("connection timeout", s.connectionTimeout), ("share flush interval", s.shareFlushInterval),
    ("update interval", s.updateInterval), ("primary check interval", s.primaryCheckInterval),
    ("unlock interval", s.unlockInterval)]

/-- Whether settings can be worked with. -/
def check (s : Settings) : Except Failure Unit := do
  if s.chains.isEmpty then throw (.settings .noChains)
  if 2 < s.chains.length then throw (.settings (.tooManyChains s.chains.length))
  ChainSettings.checkAll [] s.chains
  if !(s.poolDifficulty.isFinite && s.poolDifficulty > 0) then throw (.settings (.difficulty s.poolDifficulty))
  if s.maxConnections = 0 then throw (.settings .noConnections)
  match s.times.find? (·.2 = 0) with
  | some (what, _) => throw (.settings (.zero what))
  | none => pure ()

end Settings

end MergedMining
