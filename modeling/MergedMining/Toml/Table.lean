import MergedMining.Json.Basic

/-!
# Tables of TOML

A table is given by its header, comes about on the way to a longer header, or comes about on the way of a dotted
key.  A header may name a table of the second kind only, a dotted key may go through one of the third kind only,
and no key is given twice.  A repeated header begins the next table of a list, and longer headers go on with the
last one.
-/

namespace MergedMining

namespace Toml

/-- How a table came about. -/
inductive Origin
  | header
  | longerHeader
  | dottedKey
  deriving Repr, DecidableEq

/-- What stands under a key: a value, a table, or a list of tables of which the last is still open. -/
inductive Entry
  | value (v : Json)
  | table (origin : Origin) (members : List (String × Entry))
  | tables (closed : List Json) (last : List (String × Entry))

/-- The entries of a table, in the order in which they were given. -/
abbrev Table := List (String × Entry)

mutual

/-- The value of an entry. -/
def Entry.toJson : Entry → Json
  | .value v => v
  | .table _ members => .obj (membersToJson members)
  | .tables closed last => .arr (closed ++ [.obj (membersToJson last)])

/-- The values of entries, in key order. -/
def membersToJson : List (String × Entry) → List (String × Json)
  | [] => []
  | (k, e) :: rest => Json.insertMember k e.toJson (membersToJson rest)

end

namespace Table

/-- The value of a table. -/
def toJson (t : Table) : Json := .obj (membersToJson t)

/-- Replaces an entry. -/
def replace (t : Table) (key : String) (entry : Entry) : Table :=
  t.map fun (k, e) => if k = key then (k, entry) else (k, e)

/-- Adds a value under a key, behind a path of dotted keys. -/
def assign? : List String → String → Json → Table → Option Table
  | [], key, v, t => if (t.lookup key).isSome then none else some (t ++ [(key, .value v)])
  | k :: path, key, v, t =>
    match t.lookup k with
    | none => (assign? path key v []).map fun inner => t ++ [(k, .table .dottedKey inner)]
    | some (.value _) => none
    | some (.table origin inner) =>
      if origin = .header ∨ (origin = .longerHeader ∧ path.isEmpty) then none
      else (assign? path key v inner).map fun inner => t.replace k (.table origin inner)
    | some (.tables closed last) =>
      if path.isEmpty then none
      else (assign? path key v last).map fun last => t.replace k (.tables closed last)

/-- Fills the table that a header names. -/
def openTable? (fill : Table → Option Table) (key : String) (t : Table) : Option Table :=
  match t.lookup key with
  | none => (fill []).map fun inner => t ++ [(key, .table .header inner)]
  | some (.table .longerHeader inner) => (fill inner).map fun inner => t.replace key (.table .header inner)
  | some _ => none

/-- Fills the next table of the list that a repeated header names. -/
def nextTable? (fill : Table → Option Table) (key : String) (t : Table) : Option Table :=
  match t.lookup key with
  | none => (fill []).map fun inner => t ++ [(key, .tables [] inner)]
  | some (.tables closed last) =>
    (fill []).map fun inner => t.replace key (.tables (closed ++ [toJson last]) inner)
  | some _ => none

/-- Changes the table at the end of a path of headers; `atEnd` says how, given the last key. -/
def descend? (atEnd : String → Table → Option Table) : List String → Table → Option Table
  | [], _ => none
  | [key], t => atEnd key t
  | k :: path, t =>
    match t.lookup k with
    | none => (descend? atEnd path []).map fun inner => t ++ [(k, .table .longerHeader inner)]
    | some (.value _) => none
    | some (.table origin inner) =>
      (descend? atEnd path inner).map fun inner => t.replace k (.table origin inner)
    | some (.tables closed last) =>
      (descend? atEnd path last).map fun last => t.replace k (.tables closed last)

end Table

end Toml

end MergedMining
