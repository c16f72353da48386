import MergedMining.Settings.Check
import MergedMining.Settings.Config
import MergedMining.Settings.Variables

/-!
# Loading settings

Options count before variables, variables before the configuration file, and the file before the defaults.  The
file is the one that is named, or else the first that exists of `scryptpool.toml` in the named directory and in
the user's own one.
-/

namespace MergedMining

/-- What settings are loaded from, next to the options: variables, the text of every file that can be read, and
where a user's configuration and data lie. -/
structure Surroundings where
  «variables» : List (String × String)
  file : String → Option String
  configDirectory : Option String
  dataDirectory : Option String

/-- A path inside a directory. -/
def pathIn (directory name : String) : String :=
  if directory = "" ∨ directory.toList.getLast? = some '/' then directory ++ name else directory ++ "/" ++ name

namespace Surroundings

/-- Whether there is a file. -/
def hasFile (w : Surroundings) (path : String) : Bool := (w.file path).isSome

/-- The configuration file to be read. -/
def configFile? (w : Surroundings) (c : Choices) : Option String :=
  c.config <|>
    [c.configDirectory.map (pathIn · "scryptpool.toml"),
      w.configDirectory.map (pathIn · "scryptpool/scryptpool.toml")].reduceOption.find? w.hasFile

/-- The choices of the configuration file, if there is one. -/
def configured (w : Surroundings) (c : Choices) : Except SettingsFault Choices :=
  match w.configFile? c with
  | none => .ok {}
  | some path =>
    match w.file path with
    | none => .error (.configUnreadable path)
    | some text =>
      match Choices.ofText? text with
      | none => .error (.configMalformed path)
      | some choices => .ok choices

/-- The settings that options make in their surroundings. -/
def merge (w : Surroundings) (options : Choices) : Except SettingsFault Settings := do
  let choices := options.orElse (← Choices.ofVariables w.«variables»)
  (choices.orElse (← w.configured choices)).resolve w.dataDirectory

end Surroundings

/-- Settings that can be worked with. -/
def Settings.load (w : Surroundings) (options : Choices) : Except Failure Settings := do
  let settings ← (w.merge options).mapError .settings
  settings.check
  return settings

end MergedMining
