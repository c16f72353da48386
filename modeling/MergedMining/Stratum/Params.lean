import MergedMining.Json.Printer
import MergedMining.Stratum.Field

/-!
# What miners ask for

The parameters of the three requests of a miner.  A list that does not fit is answered with a text that says
why, so the faults are told apart: of several the one further left wins, and a wrong item wins over a wrong
number of items.
-/

namespace MergedMining

namespace Stratum

/-- Why parameters do not fit. -/
inductive ParamFault
  | wrongType (got : Json) (expected : String)
  | tooFew (count : Nat)
  | tooMany (count : Nat)
  | field (cause : FieldFault)
  | userAgent (got : Json)
  | login
  deriving Repr

namespace ParamFault

/-- The kind of a value, and the value itself where it is short. -/
def describe : Json → String
  | .null => "null"
  | .bool b => if b then "boolean `true`" else "boolean `false`"
  | .int n => s!"integer `{n}`"
  | .float x => s!"floating point `{Json.renderFloat x}`"
  | .str s => s!"string {Quoted.text s}"
  | .arr _ => "sequence"
  | .obj _ => "map"

/-- The text of a fault. -/
def message : ParamFault → String
  | .wrongType got expected => s!"invalid type: {describe got}, expected {expected}"
  | .tooFew count => s!"invalid length {count}, expected a tuple of size 5"
  | .tooMany count => s!"invalid length {count}, expected fewer elements in array"
  | .field cause => cause.message
  | .userAgent got => s!"user agent must be a string, got {got.compact}"
  | .login => "data did not match any variant of untagged enum Raw"

end ParamFault

/-- The request to be given an extranonce.  What follows the name of the program is ignored. -/
structure Subscribe where
  userAgent : String
  deriving Repr, DecidableEq

namespace Subscribe

/-- Reads the parameters of a subscription. -/
def ofJson : Json → Except ParamFault Subscribe
  | .arr [] => .ok ⟨""⟩
  | .arr (.null :: _) => .ok ⟨""⟩
  | .arr (.str s :: _) => .ok ⟨s⟩
  | .arr (v :: _) => .error (.userAgent v)
  | v => .error (.wrongType v "a sequence")

/-- Writes the parameters of a subscription. -/
def toJson (s : Subscribe) : Json := .arr [.str s.userAgent]

end Subscribe

/-- The request to work for a login. -/
structure Authorize where
  username : String
  password : Option String
  deriving Repr, DecidableEq

namespace Authorize

/-- Reads the parameters of an authorization. -/
def ofJson : Json → Except ParamFault Authorize
  | .arr [.str username] => .ok ⟨username, none⟩
  | .arr [.str username, .null] => .ok ⟨username, none⟩
  | .arr [.str username, .str password] => .ok ⟨username, some password⟩
  | _ => .error .login

/-- Writes the parameters of an authorization. -/
def toJson (a : Authorize) : Json :=
  .arr (.str a.username :: (a.password.map Json.str).toList)

end Authorize

/-- The request to have a proof of work counted. -/
structure Submit where
  worker : String
  jobId : JobId
  extranonce2 : Extranonce
  ntime : Ntime
  nonce : Nonce
  deriving Repr, DecidableEq

namespace Submit

/-- The text at a position of a list of five. -/
def item (items : List Json) (position : Nat) : Except ParamFault String :=
  match items[position]? with
  | none => .error (.tooFew items.length)
  | some (.str s) => .ok s
  | some v => .error (.wrongType v "a string")

/-- The field at a position of a list of five. -/
def fieldAt {α : Type} (items : List Json) (position : Nat) (parse : String → Except FieldFault α) :
    Except ParamFault α :=
  match item items position with
  | .error e => .error e
  | .ok s => (parse s).mapError .field

/-- Reads the parameters of a submission. -/
def ofJson : Json → Except ParamFault Submit
  | .arr items => do
    let worker ← item items 0
    let jobId ← fieldAt items 1 JobId.parse
    let extranonce2 ← fieldAt items 2 Extranonce.parse
    let ntime ← fieldAt items 3 (Word.parse .ntime)
    let nonce ← fieldAt items 4 (Word.parse .nonce)
    if 5 < items.length then .error (.tooMany items.length)
    else .ok ⟨worker, jobId, extranonce2, ntime, nonce⟩
  | v => .error (.wrongType v "a tuple of size 5")

/-- Writes the parameters of a submission. -/
def toJson (s : Submit) : Json :=
  .arr [.str s.worker, .str s.jobId.toText, .str s.extranonce2.toText, .str s.ntime.toText,
    .str s.nonce.toText]

end Submit

end Stratum

end MergedMining
