import MergedMining.Decimal.Reading
import MergedMining.Numeral

/-!
# Grammars of command lines

A command has options, which are given by name, and may have one operand, which is given by its place.  An
option takes a value of some form, is a switch, or asks for help or for the version.
-/

namespace MergedMining

namespace CommandLine

/-- Why a command line is answered without being carried out. -/
inductive Halt
  | help (command : Option String)
  | version
  | helpForNothing
  | unknownArgument
  | invalidValue
  | valueValidation
  | tooManyValues
  | invalidSubcommand
  | missingSubcommand
  | missingArgument
  | conflict
  deriving Repr, DecidableEq

/-- The name of a reason to halt. -/
def Halt.name : Halt → String
  | .help _ => "DisplayHelp"
  | .version => "DisplayVersion"
  | .helpForNothing => "DisplayHelpOnMissingArgumentOrSubcommand"
  | .unknownArgument => "UnknownArgument"
  | .invalidValue => "InvalidValue"
  | .valueValidation => "ValueValidation"
  | .tooManyValues => "TooManyValues"
  | .invalidSubcommand => "InvalidSubcommand"
  | .missingSubcommand => "MissingSubcommand"
  | .missingArgument => "MissingRequiredArgument"
  | .conflict => "ArgumentConflict"

/-! ### Values -/

/-- What the value of an option has to be. -/
inductive Form
  | text
  | path
  | port
  | count
  | double
  deriving Repr, DecidableEq

/-- A port; zero may have a minus sign. -/
def port? (s : String) : Option UInt16 :=
  match s.toList with
  | '-' :: c :: digits => if (c :: digits).all (· = '0') then some 0 else none
  | _ => (Numeral.parse 10 UInt16.size s).toOption.map UInt16.ofNat

/-- A count. -/
def count? (s : String) : Option UInt64 := (Numeral.parse 10 UInt64.size s).toOption.map UInt64.ofNat

/-- Whether a text is a value of the form. -/
def Form.check (f : Form) (s : String) : Except Halt Unit :=
  match f with
  | .text => .ok ()
  | .path => if s = "" then .error .invalidValue else .ok ()
  | .port => if (port? s).isSome then .ok () else .error .valueValidation
  | .count => if (count? s).isSome then .ok () else .error .valueValidation
  | .double => if (Decimal.parse? s).isSome then .ok () else .error .valueValidation

/-! ### Commands -/

/-- What an option does. -/
inductive Effect
  | value (form : Form)
  | switch
  | help
  | version
  deriving Repr, DecidableEq

/-- An option: its long name, its letter if it has one, what it does, and a line about it. -/
structure CommandOption where
  name : String
  letter : Option Char
  effect : Effect
  about : String
  deriving Repr

/-- An operand: its name, how help shows it, and a line about it. -/
structure Operand where
  name : String
  shape : String
  about : String
  deriving Repr

/-- A command: its options and its operand, which then has to be given. -/
structure Command where
  name : String
  about : String
  options : List CommandOption
  operand : Option Operand
  deriving Repr

/-- An option with a value. -/
def option (name : String) (form : Form) (about : String) : CommandOption := ⟨name, none, .value form, about⟩

/-- The option that asks for help. -/
def helpOption : CommandOption := ⟨"help", some 'h', .help, "Print help"⟩

/-- The option that asks for the version. -/
def versionOption : CommandOption := ⟨"version", some 'V', .version, "Print version"⟩

/-- The name of the command that asks for help. -/
def helpName : String := "help"

end CommandLine

end MergedMining
