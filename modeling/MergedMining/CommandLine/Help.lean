import MergedMining.CommandLine.Grammar

/-!
# Help texts

A help text says what a command is about and how it is used, and lists subcommands, operands and options, each
with a line about it.  The lines stand behind the names in one column, unless a long one would be left too
little room on a line of a hundred characters: then each stands below its name.
-/

namespace MergedMining

namespace CommandLine

/-- An entry of a list: its name and a line about it. -/
structure HelpEntry where
  name : String
  about : String

namespace HelpEntry

/-- The width of a line. -/
def width : Nat := 100

/-- Whether the line about an entry is too long for the room behind the longest name. -/
def overflows (longest : Nat) (e : HelpEntry) : Bool :=
  width * 2 < longest * 5 && width < longest + e.about.length

/-- The length of the longest name. -/
def longest (entries : List HelpEntry) : Nat := entries.foldl (fun n e => max n e.name.length) 0

/-- A text made longer with spaces. -/
def padded (n : Nat) (s : String) : String := s ++ String.ofList (List.replicate (n - s.length) ' ')

/-- A list under its title, if there is something in it. -/
def section? (title : String) (entries : List HelpEntry) : Option String :=
  if entries.isEmpty then none
  else
    let n := longest entries
    let below := entries.any (overflows (n + 4))
    some <| title ++ ":\n" ++ "\n".intercalate (entries.map fun e =>
      if below then "  " ++ e.name ++ "\n          " ++ e.about else "  " ++ padded (n + 2) e.name ++ e.about)

end HelpEntry

namespace CommandOption

/-- The name of the value that an option takes. -/
def valueName (o : CommandOption) : String :=
  String.ofList (o.name.toList.map fun c => if c = '-' then '_' else c.toUpper)

/-- How an option is given. -/
def shape (o : CommandOption) : String :=
  let long := match o.effect with
    | .value _ => s!"--{o.name} <" ++ o.valueName ++ ">"
    | _ => s!"--{o.name}"
  match o.letter with
  | some c => String.ofList ['-', c, ',', ' '] ++ long
  | none => "    " ++ long

/-- Whether an option is one that every command has. -/
def isCommon (o : CommandOption) : Bool :=
  match o.effect with
  | .help => true
  | .version => true
  | _ => false

end CommandOption

namespace Command

/-- How a command is used. -/
def usage (path : List String) (c : Command) (hasSubcommands : Bool) : String :=
  " ".intercalate (["Usage:"] ++ path ++
    (if c.options.all (·.isCommon) then [] else ["[OPTIONS]"]) ++
    c.operand.toList.map (·.shape) ++
    (if hasSubcommands then ["<COMMAND>"] else []))

/-- The help text of a command. -/
def helpText (path : List String) (c : Command) (subcommands : List HelpEntry) : String :=
  let about := if c.about = "" then [] else [c.about]
  let lists := [HelpEntry.section? "Commands" subcommands,
    HelpEntry.section? "Arguments" (c.operand.toList.map fun o => ⟨o.shape, o.about⟩),
    HelpEntry.section? "Options" (c.options.map fun o => ⟨o.shape, o.about⟩)]
  "\n\n".intercalate (about ++ [c.usage path (!subcommands.isEmpty)] ++ lists.filterMap id) ++ "\n"

end Command

end CommandLine

end MergedMining
