import MergedMining.Toml.Scalar
import MergedMining.Toml.Table

/-!
# TOML texts

A text is a list of statements: headers, and keys with their values.  `parse?` gives its value, tables as objects, or
nothing when the text is malformed or its tables contradict each other.  Dates and times are not among the values.
-/

namespace MergedMining

namespace Toml

/-! ### Keys -/

/-- One key: bare, or a string on one line. -/
def simpleKey? (cs : List Char) : Option (String × List Char) :=
  match cs with
  | '"' :: rest => basic? cs.length rest []
  | '\'' :: rest => literal? rest
  | _ =>
    let (key, rest) := cs.span isBare
    if key.isEmpty then none else some (String.ofList key, rest)

/-- Keys with dots between them: those in front of the last, the last, and the text behind. -/
def key? : Nat → List Char → Option (List String × String × List Char)
  | 0, _ => none
  | fuel + 1, cs => do
    let (key, rest) ← simpleKey? (skipBlanks cs)
    match skipBlanks rest with
    | '.' :: rest =>
      let (path, last, rest) ← key? fuel rest
      return (key :: path, last, rest)
    | rest => return ([], key, rest)

/-! ### Values -/

/-- The text behind blanks, newlines and comments; `comment` says whether it begins inside a comment. -/
def skipLines : Bool → List Char → List Char
  | _, '\n' :: rest => skipLines false rest
  | _, '\r' :: '\n' :: rest => skipLines false rest
  | true, c :: rest => if isText c then skipLines true rest else c :: rest
  | false, '#' :: rest => skipLines true rest
  | false, c :: rest => if isBlank c then skipLines false rest else c :: rest
  | _, [] => []

mutual

/-- A value; `fuel` bounds the number of values and keys in it. -/
def value? : Nat → List Char → Option (Json × List Char)
  | 0, _ => none
  | fuel + 1, '[' :: rest => (items? fuel rest []).map fun (items, rest) => (.arr items, rest)
  | fuel + 1, '\x7b' :: rest =>
    match skipBlanks rest with
    | '\x7d' :: rest => some (.obj [], rest)
    | rest => (pairs? fuel rest []).map fun (t, rest) => (t.toJson, rest)
  | _ + 1, cs => scalar? cs

/-- The items of an array up to its closing bracket, in front of which a comma may stand. -/
def items? : Nat → List Char → List Json → Option (List Json × List Char)
  | 0, _, _ => none
  | fuel + 1, cs, acc =>
    match skipLines false cs with
    | ']' :: rest => some (acc.reverse, rest)
    | cs =>
      match value? fuel cs with
      | none => none
      | some (v, rest) =>
        match skipLines false rest with
        | ',' :: rest => items? fuel rest (v :: acc)
        | ']' :: rest => some ((v :: acc).reverse, rest)
        | _ => none

/-- The keys and values of a table on one line up to its closing brace. -/
def pairs? : Nat → List Char → Table → Option (Table × List Char)
  | 0, _, _ => none
  | fuel + 1, cs, t =>
    match key? cs.length cs with
    | some (path, key, '=' :: rest) =>
      match value? fuel (skipBlanks rest) with
      | none => none
      | some (v, rest) =>
        match t.assign? path key v, skipBlanks rest with
        | some t, ',' :: rest => pairs? fuel rest t
        | some t, '\x7d' :: rest => some (t, rest)
        | _, _ => none
    | _ => none

end

/-! ### Statements -/

/-- A key with its value. -/
structure Assignment where
  path : List String
  key : String
  value : Json

/-- The header of a table; a repeated one stands in two pairs of brackets. -/
structure Header where
  repeated : Bool
  path : List String

/-- A statement. -/
inductive Statement
  | assignment (a : Assignment)
  | header (h : Header)

/-- The text behind the end of a line, in front of which blanks and a comment may stand. -/
def endOfLine? (cs : List Char) : Option (List Char) :=
  let rest := match skipBlanks cs with
    | '#' :: rest => rest.dropWhile isText
    | rest => rest
  if rest.isEmpty then some [] else newline? rest

/-- The path of a header behind its opening brackets. -/
def headerPath? (cs : List Char) : Option (List String × List Char) := do
  let (path, last, rest) ← key? cs.length cs
  return (path ++ [last], rest)

/-- A statement, without the end of its line. -/
def statement? (cs : List Char) : Option (Statement × List Char) :=
  match cs with
  | '[' :: '[' :: rest =>
    match headerPath? rest with
    | some (path, ']' :: ']' :: rest) => some (.header ⟨true, path⟩, rest)
    | _ => none
  | '[' :: rest =>
    match headerPath? rest with
    | some (path, ']' :: rest) => some (.header ⟨false, path⟩, rest)
    | _ => none
  | _ =>
    match key? cs.length cs with
    | some (path, key, '=' :: rest) =>
      (value? (2 * rest.length + 2) (skipBlanks rest)).map fun (v, rest) => (.assignment ⟨path, key, v⟩, rest)
    | _ => none

/-- The statements of a text. -/
def statements? : Nat → List Char → Option (List Statement)
  | 0, _ => none
  | fuel + 1, cs =>
    match skipBlanks cs with
    | [] => some []
    | cs =>
      match (endOfLine? cs) with
      | some rest => statements? fuel rest
      | none => do
        let (s, rest) ← statement? cs
        let rest ← endOfLine? rest
        return s :: (← statements? fuel rest)

/-- The assignments in front of the first header, and each header with the assignments behind it. -/
def sections : List Statement → List Assignment × List (Header × List Assignment)
  | [] => ([], [])
  | .assignment a :: rest => ((a :: (sections rest).1), (sections rest).2)
  | .header h :: rest => ([], (h, (sections rest).1) :: (sections rest).2)

/-- Makes assignments in a table. -/
def fill? (as : List Assignment) (t : Table) : Option Table :=
  as.foldlM (fun t a => t.assign? a.path a.key a.value) t

/-- Makes the assignments behind a header. -/
def enter? (t : Table) (s : Header × List Assignment) : Option Table :=
  t.descend? ((if s.1.repeated then Table.nextTable? else Table.openTable?) (fill? s.2)) s.1.path

/-- The value of a TOML text. -/
def parse? (text : String) : Option Json := do
  let cs := match text.toList with
    | '\ufeff' :: cs => cs
    | cs => cs
  let (top, rest) := sections (← statements? (cs.length + 1) cs)
  let t ← rest.foldlM enter? (← fill? top [])
  return t.toJson

end Toml

end MergedMining
