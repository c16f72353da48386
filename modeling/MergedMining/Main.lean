import MergedMining.Program

/-!
# The executable

Variables and files are read, the program is run, and what it comes to is printed.  There is no network here:
daemons do not answer, and no miner can connect.
-/

namespace MergedMining

namespace Main

/-- The variables that may be set. -/
def variableNames : List String :=
  ["CONFIG", "CONFIG_DIR", "POOL_NAME", "BLOCK_SIGNATURE", "ADDRESS", "PORT", "MAX_CONNECTIONS", "CONNECTION_TIMEOUT",
    "POOL_DIFFICULTY", "SHARE_FLUSH_INTERVAL", "UPDATE_INTERVAL", "PRIMARY_CHECK_INTERVAL", "UNLOCK_INTERVAL",
    "MALFORMED_LIMIT", "DATABASE_URL", "STORE_PATH"]

/-- The variables that are set. -/
def setVariables : IO (List (String × String)) :=
  variableNames.filterMapM fun name => do
    return (← IO.getEnv (Program.variableMark ++ name)).map (name, ·)

/-- A directory of the user, given by a variable or as a place at home. -/
def userDirectory (key place : String) : IO (Option String) := do
  match ← IO.getEnv key with
  | some directory => return some directory
  | none => return (← IO.getEnv "HOME").map (pathIn · place)

/-- The texts of those files that can be read. -/
def readFiles (paths : List String) : IO (List (String × String)) :=
  paths.filterMapM fun (path : String) => do
    match ← (IO.FS.readFile path).toBaseIO with
    | .ok text => return some (path, text)
    | .error _ => return none

/-- The files that settings may come from. -/
def configFiles (vs : List (String × String)) (configDirectory : Option String) (options : Choices) :
    List String :=
  (options.config <|> vs.lookup "CONFIG").toList ++
    ((options.configDirectory <|> vs.lookup "CONFIG_DIR").map (pathIn · "scryptpool.toml")).toList ++
    (configDirectory.map (pathIn · "scryptpool/scryptpool.toml")).toList

/-- The world, with the files that a command line may need. -/
def world (args : List String) : IO World := do
  let vs ← setVariables
  let configDirectory ← userDirectory "XDG_CONFIG_HOME" ".config"
  let dataDirectory ← userDirectory "XDG_DATA_HOME" ".local/share"
  let options := match CommandLine.parse args with
    | .ok (options, _) => options
    | .error _ => {}
  let files ← readFiles (configFiles vs configDirectory options)
  let surroundings : Surroundings := ⟨vs, (List.lookup · files), configDirectory, dataDirectory⟩
  let store := match surroundings.merge options with
    | .ok settings => [settings.storePath]
    | .error _ => []
  let files := files ++ (← readFiles store)
  return ⟨{ surroundings with file := (List.lookup · files) }, fun _ => none, fun _ _ => true,
    fun k size => Bytes.ofNatBE size (k + 1), toString, ⟨0, 0⟩⟩

end Main

end MergedMining

/-- Runs the program. -/
def main (args : List String) : IO UInt32 := do
  let course := MergedMining.Program.run (← MergedMining.Main.world args) args
  IO.print course.output
  IO.eprint course.trouble
  return UInt32.ofNat course.code
