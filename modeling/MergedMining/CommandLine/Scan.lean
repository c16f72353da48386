import MergedMining.CommandLine.Grammar

/-!
# Reading command lines

Arguments are read from left to right.  An option's value stands behind an equals sign, or is the next argument
unless that looks like an option itself; it is looked at when the next thing begins.  Behind two dashes nothing
is an option.  The name of a subcommand ends the options in front of it, and what follows is the subcommand's
own.
-/

namespace MergedMining

namespace CommandLine

/-- What was given: texts by the names of options and operands. -/
abbrev Given := List (String × String)

/-- A place in a command line: what has been given, and the option or operand that was given last with its text,
if that has come yet. -/
structure Place where
  given : Given
  last : Option (String × Form × Option String)

/-- What a command line gives, for itself and for its subcommand. -/
structure Reading where
  given : Given
  subcommand : Option (String × Given)

namespace Place

/-- The beginning. -/
def start : Place := ⟨[], none⟩

/-- Takes in a text under a name that is not taken. -/
def add (given : Given) (name : String) (form : Form) (text : String) : Except Halt Given := do
  if (given.lookup name).isSome then throw .conflict
  form.check text
  return given ++ [(name, text)]

/-- Takes in what was given last. -/
def settle (p : Place) : Except Halt Given :=
  match p.last with
  | none => .ok p.given
  | some (_, _, none) => .error .invalidValue
  | some (name, form, some text) => add p.given name form text

/-- Whether a value has to come next. -/
def waits (p : Place) : Bool :=
  match p.last with
  | some (_, _, none) => true
  | _ => false

/-- Whether something of the name was given. -/
def has (p : Place) (name : String) : Bool :=
  (p.given.lookup name).isSome || p.last.any (·.1 = name)

end Place

namespace Command

/-- An option without a value is met. -/
def meet (c : Command) (p : Place) (o : CommandOption) : Except Halt Place := do
  let given ← p.settle
  match o.effect with
  | .help => throw (.help (some c.name))
  | .version => throw .version
  | .switch => return ⟨← Place.add given o.name .text "true", none⟩
  | .value form => return ⟨given, some (o.name, form, none)⟩

/-- An option with its long name, and with what stands behind an equals sign. -/
def longOption (c : Command) (p : Place) (text : List Char) : Except Halt Place :=
  let (name, value) := text.span (· ≠ '=')
  match c.options.find? (·.name = String.ofList name), value with
  | none, _ => .error .unknownArgument
  | some o, [] => c.meet p o
  | some o, _ :: value =>
    match o.effect with
    | .value form => do
      let given ← p.settle
      return ⟨← Place.add given o.name form (String.ofList value), none⟩
    | _ => .error .tooManyValues

/-- Options by their letters; all letters there are ask for something that ends the reading. -/
def letters (c : Command) (p : Place) (letter : Char) : Except Halt Place :=
  match c.options.find? (·.letter = some letter) with
  | some o => c.meet p o
  | none => .error .unknownArgument

/-- Something that is no option and no value of one. -/
def operandAt (c : Command) (subcommands : List String) (p : Place) (trailing : Bool) (arg : String) :
    Except Halt Place :=
  match c.operand with
  | some operand =>
    if p.has operand.name then .error .unknownArgument
    else do return ⟨← p.settle, some (operand.name, .text, some arg)⟩
  | none =>
    if subcommands.isEmpty ∨ (trailing ∧ subcommands.contains arg) then .error .unknownArgument
    else .error .invalidSubcommand

/-- One argument that is no subcommand. -/
def argument (c : Command) (subcommands : List String) (p : Place) (arg : String) : Except Halt Place :=
  match arg.toList, p.last with
  | '-' :: '-' :: text, _ => c.longOption p text
  | '-' :: letter :: _, _ => c.letters p letter
  | _, some (name, form, none) => .ok { p with last := some (name, form, some arg) }
  | _, _ => c.operandAt subcommands p false arg

/-- What has to be there at the end. -/
def finish (c : Command) (subcommands : List String) (p : Place) : Except Halt Given := do
  let given ← p.settle
  if !subcommands.isEmpty then throw (if given.isEmpty then .helpForNothing else .missingSubcommand)
  match c.operand with
  | some operand => if (given.lookup operand.name).isNone then throw .missingArgument
  | none => pure ()
  return given

/-- Reads the arguments of a command without subcommands. -/
def read (c : Command) : Place → Bool → List String → Except Halt Given
  | p, _, [] => c.finish [] p
  | p, true, arg :: rest => do c.read (← c.operandAt [] p true arg) true rest
  | p, false, arg :: rest => do
    if arg = "--" then c.read p true rest
    else c.read (← c.argument [] p arg) false rest

/-- The help that a command line asks for by a subcommand. -/
def helpFor (subcommands : List Command) (rest : List String) : Halt :=
  match rest with
  | [] => .help none
  | [name] => if name = helpName ∨ subcommands.any (·.name = name) then .help (some name) else .invalidSubcommand
  | _ => .invalidSubcommand

/-- Reads the arguments of a command with subcommands, of which one has to be given. -/
def readWith (c : Command) (subcommands : List Command) : Place → Bool → List String → Except Halt Reading
  | p, _, [] => do return ⟨← c.finish (subcommands.map (·.name)) p, none⟩
  | p, true, arg :: rest => do
    c.readWith subcommands (← c.operandAt (helpName :: subcommands.map (·.name)) p true arg) true rest
  | p, false, arg :: rest =>
    if arg = "--" then c.readWith subcommands p true rest
    else
      match subcommands.find? (·.name = arg), p.waits with
      | some sub, false => do
        let inner ← sub.read .start false rest
        return ⟨← p.settle, some (sub.name, inner)⟩
      | _, waits =>
        if arg = helpName ∧ !waits then .error (helpFor subcommands rest)
        else do c.readWith subcommands (← c.argument (subcommands.map (·.name)) p arg) false rest

end Command

end CommandLine

end MergedMining
