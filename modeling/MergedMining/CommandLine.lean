import MergedMining.CommandLine.Help
import MergedMining.CommandLine.Scan
import MergedMining.Settings.Basic

/-!
# The command line

Options of the settings come first, then one of the subcommands: to run the pool, to show a job built from the
daemons' templates, or to convert a difficulty.
-/

namespace MergedMining

/-- What the program is asked to do. -/
inductive Task
  | pool
  | template (raw : Bool)
  | difficulty (value chain : String)
  deriving Repr, DecidableEq

namespace CommandLine

/-- The name of the program. -/
def programName : String := "scryptpool"

/-- The version of the program. -/
def programVersion : String := "0.1.0"

/-- The options that settings can be given by. -/
def settingOptions : List CommandOption := [
  option "config" .path "Load configuration from <CONFIG>.",
  option "config-dir" .path "Load configuration from <CONFIG_DIR>/scryptpool.toml.",
  option "address" .text "Listen for miners on <ADDRESS>.",
  option "port" .port "Listen for miners on <PORT>.",
  option "max-connections" .count "Drop connections beyond <MAX_CONNECTIONS>.",
  option "pool-difficulty" .double "Require shares of at least <POOL_DIFFICULTY>.",
  option "database-url" .text "Store shares and blocks in the Postgres database at <DATABASE_URL>.",
  option "store-path" .path "Store shares and blocks as JSON lines in <STORE_PATH>."]

/-- The program itself. -/
def program : Command := ⟨programName, "", settingOptions ++ [helpOption, versionOption], none⟩

/-- The options of the settings on their own. -/
def settingsOnly : Command := ⟨programName, "", settingOptions ++ [helpOption], none⟩

/-- The subcommands. -/
def subcommands : List Command := [
  ⟨"pool", "Run the merged-mining Stratum pool", [helpOption], none⟩,
  ⟨"template", "Build one job from the configured daemons and print it",
    [⟨"raw", none, .switch, "Print only the raw mining.notify params."⟩, helpOption], none⟩,
  ⟨"difficulty", "Convert between compact bits, targets and difficulty",
    [option "chain" .text "Scale share difficulty for <CHAIN>. [default: dogecoin]", helpOption],
    some ⟨"VALUE", "<VALUE>", "Compact bits, hex target or difficulty."⟩⟩]

/-- The subcommand that shows help. -/
def helpCommand : Command :=
  ⟨helpName, "Print this message or the help of the given subcommand(s)", [],
    some ⟨"COMMAND", "[COMMAND]...", "Print help for the subcommand(s)"⟩⟩

/-- The help text of the program or of a subcommand. -/
def helpText (name : Option String) : String :=
  let all := subcommands ++ [helpCommand]
  match all.find? (some ·.name = name) with
  | some c => c.helpText [programName, c.name] []
  | none => program.helpText [programName] (all.map fun c => ⟨c.name, c.about⟩)

/-- The settings that options make. -/
def choicesOf (g : Given) : Choices where
  config := g.lookup "config"
  configDirectory := g.lookup "config-dir"
  address := g.lookup "address"
  port := (g.lookup "port").bind port?
  maxConnections := (g.lookup "max-connections").bind count?
  poolDifficulty := (g.lookup "pool-difficulty").bind Decimal.parse?
  databaseUrl := g.lookup "database-url"
  storePath := g.lookup "store-path"

/-- The task of a subcommand. -/
def taskOf (name : String) (g : Given) : Task :=
  if name = "template" then .template (g.lookup "raw").isSome
  else if name = "difficulty" then
    .difficulty ((g.lookup "VALUE").getD "") ((g.lookup "chain").getD Chain.dogecoin.name)
  else .pool

/-- Reads a command line: settings and a task. -/
def parse (args : List String) : Except Halt (Choices × Task) := do
  let r ← program.readWith subcommands .start false args
  match r.subcommand with
  | some (name, given) => return (choicesOf r.given, taskOf name given)
  | none => throw .missingSubcommand

/-- Reads options of the settings only. -/
def parseChoices (args : List String) : Except Halt Choices :=
  choicesOf <$> settingsOnly.read .start false args

end CommandLine

end MergedMining
