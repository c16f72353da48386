/-!
# JSON values

A value holds its object members sorted by key, each key once: `normal` brings any value into this form, the last of
several members with one key winning.  Whole numbers between `-2 ^ 63` and `2 ^ 64 - 1` are kept apart from doubles.
-/

namespace MergedMining

/-- A JSON value. -/
inductive Json
  | null
  | bool (b : Bool)
  | int (n : Int)
  | float (x : Float)
  | str (s : String)
  | arr (items : List Json)
  | obj (members : List (String × Json))
  deriving Repr, Inhabited, BEq

namespace Json

/-- Adds a member in front of members with other keys, in key order; a key that is there already is kept as it is. -/
def insertMember (key : String) (value : Json) : List (String × Json) → List (String × Json)
  | [] => [(key, value)]
  | (k, v) :: rest =>
    if key = k then (k, v) :: rest
    else if key < k then (key, value) :: (k, v) :: rest
    else (k, v) :: insertMember key value rest

mutual

/-- The value with the members of all its objects sorted by key, the last of equal keys kept. -/
def normal : Json → Json
  | .arr items => .arr (normalItems items)
  | .obj members => .obj (normalMembers members)
  | v => v

/-- `normal` of each item. -/
def normalItems : List Json → List Json
  | [] => []
  | v :: vs => normal v :: normalItems vs

/-- `normal` of each member, in key order. -/
def normalMembers : List (String × Json) → List (String × Json)
  | [] => []
  | (k, v) :: rest => insertMember k (normal v) (normalMembers rest)

end

/-! ### Reading one value -/

/-- A whole number from `0` to below `limit`. -/
def toNat? (limit : Nat) : Json → Option Nat
  | .int n => if 0 ≤ n ∧ n < limit then some n.toNat else none
  | _ => none

/-- A whole number from `low` to `high`. -/
def toInt? (low high : Int) : Json → Option Int
  | .int n => if low ≤ n ∧ n ≤ high then some n else none
  | _ => none

/-- An unsigned number of 64 bits. -/
def toUInt64? (v : Json) : Option UInt64 := (toNat? UInt64.size v).map UInt64.ofNat

/-- An unsigned number of 32 bits. -/
def toUInt32? (v : Json) : Option UInt32 := (toNat? UInt32.size v).map UInt32.ofNat

/-- A signed number of 64 bits. -/
def toInt64? : Json → Option Int := toInt? (-0x8000000000000000) 0x7fffffffffffffff

/-- A signed number of 32 bits. -/
def toInt32? : Json → Option Int := toInt? (-0x80000000) 0x7fffffff

/-- The double nearest to a whole number of 64 bits. -/
def floatOfInt (n : Int) : Float :=
  if n < 0 then -(UInt64.ofNat n.natAbs).toFloat else (UInt64.ofNat n.natAbs).toFloat

/-- Any number as a double. -/
def toFloat? : Json → Option Float
  | .int n => some (floatOfInt n)
  | .float x => some x
  | _ => none

/-- A string. -/
def toStr? : Json → Option String
  | .str s => some s
  | _ => none

/-- A truth value. -/
def toBool? : Json → Option Bool
  | .bool b => some b
  | _ => none

/-- Any value but null. -/
def toSome? : Json → Option Json
  | .null => none
  | v => some v

/-- A list whose items all read. -/
def toList? {α : Type} (read : Json → Option α) : Json → Option (List α)
  | .arr items => items.mapM read
  | _ => none

/-- Null, or a value that reads. -/
def toOption? {α : Type} (read : Json → Option α) : Json → Option (Option α)
  | .null => some none
  | v => (read v).map some

/-- The member of an object with a key. -/
def member? (key : String) : Json → Option Json
  | .obj members => members.lookup key
  | _ => none

/-- A natural number as a value. -/
def ofNat (n : Nat) : Json := .int n

/-- Null for nothing. -/
def ofOption {α : Type} (write : α → Json) : Option α → Json
  | none => .null
  | some a => write a

end Json

end MergedMining
