import MergedMining.Json.Members
import MergedMining.Json.Printer

/-!
# Messages between miner and pool

A line holds one message: a request, which has an id and is answered; a notification, which has none; or a
response.  The members that tell them apart may be missing or null, which is the same.
-/

namespace MergedMining

namespace Stratum

/-- What an answer names its question by. -/
inductive Id
  | null
  | number (n : UInt64)
  | text (s : String)
  deriving Repr, DecidableEq

namespace Id

/-- Reads an id. -/
def ofJson? : Json → Option Id
  | .null => some .null
  | .str s => some (.text s)
  | v => v.toUInt64?.map .number

/-- Writes an id. -/
def toJson : Id → Json
  | .null => .null
  | .number n => .ofNat n.toNat
  | .text s => .str s

/-- An id as plain text. -/
def toText : Id → String
  | .null => "null"
  | .number n => toString n.toNat
  | .text s => s

end Id

/-- The reasons for which the pool refuses a request. -/
inductive Reason
  | other
  | stale
  | duplicate
  | lowDifficulty
  | unauthorized
  | notSubscribed
  deriving Repr, DecidableEq

namespace Reason

/-- The number of a reason. -/
def code : Reason → Int
  | .other => 20
  | .stale => 21
  | .duplicate => 22
  | .lowDifficulty => 23
  | .unauthorized => 24
  | .notSubscribed => 25

/-- The usual text of a reason. -/
def text : Reason → String
  | .other => "Other/Unknown"
  | .stale => "Stale job"
  | .duplicate => "Duplicate share"
  | .lowDifficulty => "Low difficulty share"
  | .unauthorized => "Unauthorized"
  | .notSubscribed => "Not subscribed"

end Reason

/-- What a response says when it refuses. -/
structure Refusal where
  code : Int
  message : String
  detail : Option Json
  deriving Repr

namespace Refusal

/-- A refusal with the usual text of its reason. -/
def of (r : Reason) : Refusal := ⟨r.code, r.text, none⟩

/-- A refusal with a text of its own. -/
def withText (r : Reason) (message : String) : Refusal := ⟨r.code, message, none⟩

/-- Reads a refusal. -/
def ofJson? : Json → Option Refusal
  | .arr [code, message, detail] => do
    return ⟨← code.toInt32?, ← message.toStr?, detail.toSome?⟩
  | _ => none

/-- Writes a refusal. -/
def toJson (r : Refusal) : Json :=
  .arr [.int r.code, .str r.message, r.detail.getD .null]

/-- A refusal as plain text. -/
def toText (r : Refusal) : String :=
  s!"stratum error {r.code}: {r.message}"

end Refusal

/-- A message. -/
inductive Message
  | request (id : Id) (method : String) (params : Json)
  | response (id : Id) (result : Option Json) (error : Option Refusal)
  | notification (method : String) (params : Json)
  deriving Repr

namespace Message

/-- The members of a message. -/
def fields : List Json.Field :=
  ["id", "method", "params", "result", "error"].map Json.field

/-- The message with the given members. -/
def ofMembers? (m : Json.Members) : Option Message := do
  let id := (← m.optionalWithDefault "id" Id.ofJson?).getD .null
  let method ← m.optional "method" Json.toStr?
  let params ← m.optionalWithDefault "params" some
  let result ← m.optionalWithDefault "result" some
  let error ← m.optionalWithDefault "error" Refusal.ofJson?
  match method with
  | some method =>
    let params := params.getD (.arr [])
    match id with
    | .null => some (.notification method params)
    | id => some (.request id method params)
  | none => if result.isSome || error.isSome then some (.response id result error) else none

/-- Reads a message given as a value. -/
def ofJson? (v : Json) : Option Message :=
  (Json.members fields v).bind ofMembers?

/-- Reads a message from a line. -/
def parse? (line : String) : Option Message :=
  ((Json.Document.parse? line).bind (Json.Document.members fields)).bind ofMembers?

/-- Writes a message. -/
def toJson : Message → Json
  | .request id method params => .obj [("id", id.toJson), ("method", .str method), ("params", params)]
  | .response id result error =>
    .obj [("id", id.toJson), ("result", result.getD .null), ("error", .ofOption Refusal.toJson error)]
  | .notification method params =>
    .obj [("id", .null), ("method", .str method), ("params", params)]

/-- The id of a message. -/
def id : Message → Id
  | .request id _ _ => id
  | .response id _ _ => id
  | .notification _ _ => .null

/-- The line of a message. -/
def toLine (m : Message) : String := m.toJson.compact

/-- An answer that grants a request. -/
def result (id : Id) (value : Json) : Message := .response id (some value) none

/-- An answer that refuses a request. -/
def refusal (id : Id) (error : Refusal) : Message := .response id none (some error)

end Message

end Stratum

end MergedMining
