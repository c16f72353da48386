import MergedMining.Blank
import MergedMining.Json.Document
import MergedMining.Store.Basic

/-!
# A store in a text

A `Journal` is a text of one record a line, to which records are only ever added.  The latest record of a block is its
state.  Reading fails at the first line that is neither blank nor a record.
-/

namespace MergedMining

/-- A line of the journal. -/
inductive Record
  | share (share : Share)
  | foundBlock (block : FoundBlock)
  | blockUpdate (block : FoundBlock)
  deriving Repr

namespace Record

/-- Writes a record: the members of what it holds, behind a member that says what it is. -/
def toJson : Record → Json
  | .share s => .obj (("record", .str "share") :: s.toMembers)
  | .foundBlock b => .obj (("record", .str "found_block") :: b.toMembers)
  | .blockUpdate b => .obj (("record", .str "block_update") :: b.toMembers)

/-- The line of a record. -/
def toLine (r : Record) : String := r.toJson.compact ++ "\n"

/-- The members of a document behind the one that says what it is. -/
def membersOf? (d : Json.Document) (fields : List Json.Field) : Option Json.Members :=
  d.members (Json.field "record" :: fields)

/-- What a document says that it is. -/
def tag? : Json.Document → Option String
  | .arr (d :: _) => (d.value? Json.maxDepth).bind Json.toStr?
  | .obj members => do
    match members.filter (·.1 = some "record") with
    | [(_, d)] => (d.value? Json.maxDepth).bind Json.toStr?
    | _ => none
  | _ => none

/-- Reads a record from a line; every part of it has to have a value. -/
def parse? (line : String) : Option Record := do
  let d ← Json.Document.parse? line
  let _ ← d.value? Json.maxDepth
  match ← tag? d with
  | "share" => return .share (← (membersOf? d Share.fields).bind Share.ofMembers?)
  | "found_block" => return .foundBlock (← (membersOf? d FoundBlock.fields).bind FoundBlock.ofMembers?)
  | "block_update" => return .blockUpdate (← (membersOf? d FoundBlock.fields).bind FoundBlock.ofMembers?)
  | _ => none

/-- The block that a record is about. -/
def block? : Record → Option FoundBlock
  | .share _ => none
  | .foundBlock b => some b
  | .blockUpdate b => some b

end Record

/-- A journal: its text, and the id that the next block gets. -/
structure Journal where
  text : String
  nextId : Int
  deriving Repr

namespace Journal

/-- The lines of a text without their line ends; an empty text behind the last line end is no line. -/
def lines : List Char → List (List Char)
  | [] => []
  | c :: cs =>
    if c = '\n' then [] :: lines cs
    else
      match lines cs with
      | [] => [[c]]
      | first :: rest =>
        if cs.head? = some '\n' then (if c = '\r' then [] else [c]) :: rest else (c :: first) :: rest

/-- The records of lines, counted from `number`. -/
def readLines (number : Nat) : List (List Char) → Except StoreFault (List Record)
  | [] => .ok []
  | line :: rest =>
    if line.all Blank.isBlank then readLines (number + 1) rest
    else
      match Record.parse? (String.ofList line) with
      | none => .error (.malformed number)
      | some r =>
        match readLines (number + 1) rest with
        | .error e => .error e
        | .ok rs => .ok (r :: rs)

/-- The records of a text. -/
def records (text : String) : Except StoreFault (List Record) :=
  readLines 1 (lines text.toList)

/-- The ids that were given to found blocks. -/
def issuedIds (records : List Record) : List Int :=
  records.filterMap fun r => match r with
    | .foundBlock b => some b.id
    | _ => none

/-- The greatest of some ids, zero when there are none. -/
def greatest : List Int → Int
  | [] => 0
  | id :: ids => ids.foldl max id

/-- Opens the journal with the given text. -/
def ofText (text : String) : Except StoreFault Journal :=
  (records text).map fun rs => ⟨text, greatest (issuedIds rs) + 1⟩

/-- Adds records. -/
def append (j : Journal) (records : List Record) : Journal :=
  { j with text := j.text ++ String.join (records.map Record.toLine) }

/-- Puts a block in its place in id order, instead of one with the same id. -/
def put (block : FoundBlock) : List FoundBlock → List FoundBlock
  | [] => [block]
  | b :: rest =>
    if block.id = b.id then block :: rest
    else if block.id < b.id then block :: b :: rest
    else b :: put block rest

/-- The latest state of every block, in id order. -/
def blocks (records : List Record) : List FoundBlock :=
  (records.filterMap Record.block?).foldl (fun bs b => put b bs) []

instance : Store Journal where
  insertShares j shares := (.ok (), j.append (shares.map .share))
  insertBlock j block :=
    (.ok j.nextId, { j.append [.foundBlock { block with id := j.nextId }] with nextId := j.nextId + 1 })
  updateBlock j block :=
    if 0 < block.id ∧ block.id < j.nextId then (.ok (), j.append [.blockUpdate block])
    else (.error (.notUpdatable block.id), j)
  pendingBlocks j poolId :=
    match records j.text with
    | .error e => (.error e, j)
    | .ok rs => (.ok ((blocks rs).filter fun b => b.poolId = poolId ∧ b.status = .pending), j)

end Journal

end MergedMining
