import MergedMining.Json.Document

/-!
# Reading records

A record is given as an object, or as an array of its fields in their order.  In an object unknown members are
ignored and a known one may occur once; in an array no item may be left over.  A missing field is a fault unless
it has a default, and in an object also an absent optional field is fine.
-/

namespace MergedMining

namespace Json

/-- The fields of a record as they were found. -/
structure Members where
  positional : Bool
  values : List (String × Option Json)

/-- A field of a record: its name and the other names it is accepted under. -/
structure Field where
  name : String
  aliases : List String

/-- A field with one name. -/
def field (name : String) : Field := ⟨name, []⟩

/-- Whether a key names the field. -/
def Field.accepts (f : Field) (key : String) : Bool :=
  f.name = key || f.aliases.contains key

/-- The fields of an object, none when one of them occurs twice. -/
def Members.named? (fields : List Field) (members : List (String × Json)) : Option Members :=
  let found := fields.map fun f => (f.name, members.filter fun m => f.accepts m.1)
  if found.all fun m => decide (m.2.length ≤ 1) then
    some ⟨false, found.map fun m => (m.1, m.2.head?.map Prod.snd)⟩
  else none

/-- The fields of an array, none when an item is left over. -/
def Members.positional? (fields : List Field) (items : List Json) : Option Members :=
  if items.length ≤ fields.length then
    some ⟨true, (fields.zip (items.map some ++ List.replicate (fields.length - items.length) none)).map
      fun (f, v) => (f.name, v)⟩
  else none

/-- The fields of a record given as a value. -/
def members (fields : List Field) : Json → Option Members
  | .obj ms => Members.named? fields ms
  | .arr items => Members.positional? fields items
  | _ => none

/-- The fields of a record given as a text; what is not a field needs no value. -/
def Document.members (fields : List Field) : Document → Option Members
  | .obj ms => do
    let keyed ← ms.mapM fun (k, d) => k.map (·, d)
    let known ← (keyed.filter fun m => fields.any (·.accepts m.1)).mapM fun (k, d) =>
      (d.value? (maxDepth - 1)).map (k, ·)
    Members.named? fields known
  | .arr ds => do
    let items ← itemValues? (maxDepth - 1) ds
    Members.positional? fields items
  | .leaf _ => none

/-- The fields of a record next to which an object may hold nothing else; of an array, items that are left over do not
count. -/
def closedMembers (names : List String) : Json → Option Members
  | .obj ms => if ms.all (names.contains ·.1) then Members.named? (names.map field) ms else none
  | .arr items => Members.positional? (names.map field) (items.take names.length)
  | _ => none

namespace Members

/-- What was found for a field. -/
def get (m : Members) (name : String) : Option Json :=
  (m.values.lookup name).join

/-- A field that has to be there. -/
def required {α : Type} (m : Members) (name : String) (read : Json → Option α) : Option α :=
  (m.get name).bind read

/-- A field that takes a default when it is not there. -/
def withDefault {α : Type} (m : Members) (name : String) (default : α) (read : Json → Option α) :
    Option α :=
  match m.get name with
  | none => some default
  | some v => read v

/-- A field that may be null, and absent from an object. -/
def optional {α : Type} (m : Members) (name : String) (read : Json → Option α) :
    Option (Option α) :=
  match m.get name with
  | none => if m.positional then none else some none
  | some v => toOption? read v

/-- A field that may be null or absent. -/
def optionalWithDefault {α : Type} (m : Members) (name : String) (read : Json → Option α) :
    Option (Option α) :=
  m.withDefault name none (toOption? read)

end Members

end Json

end MergedMining
