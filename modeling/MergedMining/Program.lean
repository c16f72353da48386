import MergedMining.CommandLine
import MergedMining.Conversion
import MergedMining.Pool.Service
import MergedMining.Program.Connect
import MergedMining.Program.JobReport
import MergedMining.Store.Journal

/-!
# The program

`Program.run` says what a command line comes to in a given world.  Everything but a running pool ends with an
exit code: zero for a text that was asked for, one for a failure, two for a command line that cannot be carried
out.
-/

namespace MergedMining

/-- The world that the program runs in. -/
structure World where
  surroundings : Surroundings
  transport : HttpTransport
  listens : String → UInt16 → Bool
  draws : Draws
  sessionName : SessionId → String
  clock : Timestamp

/-- What a command line comes to. -/
inductive Course
  | finished (output : String)
  | failed (cause : Failure)
  | halted (halt : CommandLine.Halt)
  | serving (service : Service Journal)

namespace Program

/-- What the names of the program's variables begin with. -/
def variableMark : String := "SCRYPTPOOL_"

/-- The program's variables, without what their names have in common. -/
def variablesOf (all : List (String × String)) : List (String × String) :=
  all.filterMap fun (key, value) =>
    if key.toList.take variableMark.length = variableMark.toList then
      some (String.ofList (key.toList.drop variableMark.length), value)
    else none

/-- Opens the store of the settings; no database can be reached from here. -/
def openStore (w : World) (s : Settings) : Except Failure Journal :=
  match s.databaseUrl with
  | some url => .error (.database url)
  | none =>
    (Journal.ofText ((w.surroundings.file s.storePath).getD "")).mapError fun e =>
      .during (.openingStore s.storePath) (.store e)

/-- Runs a pool up to the point where miners can connect. -/
def startPool (w : World) (s : Settings) : Except Failure (Service Journal) := do
  if !w.listens s.address s.port then throw (.listening s.address s.port)
  let (nodes, d) := s.connect (s.daemons w.transport)
  let nodes ← nodes
  let store ← openStore w s
  let pool ← Pool.start s.pool nodes d store w.draws w.sessionName w.clock
  let service := Service.ofPool pool (s.chains.map fun _ => s.primaryCheckInterval.toNat)
  match service.refresh true with
  | (.error e, _) => throw (.during .initialWork e)
  | (.ok _, service) =>
    return (service.start .generator s.updateInterval.toNat).start .flusher s.shareFlushInterval.toNat

/-- Shows a job built from the templates of the daemons. -/
def showTemplate (w : World) (s : Settings) (raw : Bool) : Except Failure String := do
  let (nodes, d) := s.connect (s.daemons w.transport)
  return (← JobReport.ofChains (← nodes) s.pool.signature d).render raw

/-- Shows a target in every form. -/
def showDifficulty (value chain : String) : Except Failure String := do
  let chain ← (Chain.ofName chain).mapError .ofValidation
  return (← Conversion.ofText chain value).toJson.pretty ++ "\n"

/-- Carries out a task. -/
def perform (w : World) (options : Choices) : Task → Except Failure Course
  | .pool => do return .serving (← startPool w (← Settings.load w.surroundings options))
  | .template raw => do return .finished (← showTemplate w (← Settings.load w.surroundings options) raw)
  | .difficulty value chain => .finished <$> showDifficulty value chain

/-- What a command line comes to. -/
def run (w : World) (args : List String) : Course :=
  match CommandLine.parse args with
  | .error halt => .halted halt
  | .ok (options, task) =>
    match perform w options task with
    | .error cause => .failed cause
    | .ok course => course

end Program

namespace Course

/-- The exit code. -/
def code : Course → Nat
  | .failed _ => 1
  | .halted (.help _) => 0
  | .halted .version => 0
  | .halted _ => 2
  | _ => 0

/-- What is printed. -/
def output : Course → String
  | .finished text => text
  | .halted (.help name) => CommandLine.helpText name
  | .halted .version => CommandLine.programName ++ " " ++ CommandLine.programVersion ++ "\n"
  | _ => ""

/-- What is told of trouble: its text, and then its causes. -/
def trouble : Course → String
  | .failed cause =>
    let causes := cause.causes
    "\n".intercalate (("error: " ++ cause.message) ::
      (if causes.isEmpty then [] else "" :: "because:" :: causes.map ("- " ++ ·))) ++ "\n"
  | .halted halt => if code (.halted halt) = 0 then "" else CommandLine.helpText none
  | _ => ""

end Course

end MergedMining
