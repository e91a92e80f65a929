import HostAbi.Json.Basic
import HostAbi.Json.Number

/-!
# Reading records

How a value of a known shape is read off a JSON value. A record is an object, whose members come in
any order, each known name at most once and others ignored, or an array with exactly the record's
fields in order. A variant is its name, or an object whose only member is that name with null.
-/

namespace HostAbi.Json

variable {α : Type}

/-- The members of an object that has a text for every name. -/
def named? (members : List (Points × Json)) : Option (List (String × Json)) :=
  members.mapM fun (k, v) => k.text?.map (·, v)

/-- The value of a name that occurs at most once, if it occurs. -/
def member? (members : List (String × Json)) (name : String) : Option (Option Json) :=
  match members.filter (·.1 == name) with
  | [] => some none
  | [(_, v)] => some (some v)
  | _ => none

/-- The values of a record's fields, in the order of their names. -/
def fields? (names : List String) : Json → Option (List (Option Json))
  | .obj members => do names.mapM (member? (← named? members))
  | .arr items => if items.length = names.length then some (items.map some) else none
  | _ => none

/-- A field that has to be there. -/
def required? (read : Json → Option α) (field : Option Json) : Option α := field.bind read

/-- A field that may be absent or null. -/
def optional? (read : Json → Option α) : Option Json → Option (Option α)
  | none | some .null => some none
  | some v => (read v).map some

/-- A text that spells a string. -/
def text? : Json → Option String
  | .str points => points.text?
  | _ => none

/-- A truth value. -/
def bool? : Json → Option Bool
  | .bool b => some b
  | _ => none

/-- An array, of which every item can be read. -/
def list? (read : Json → Option α) : Json → Option (List α)
  | .arr items => items.mapM read
  | _ => none

/-- The name of a variant. -/
def variant? : Json → Option String
  | .str points => points.text?
  | .obj [(k, .null)] => k.text?
  | _ => none

/-- An integer of at least `lo` and below `hi`. -/
def intWithin? (lo hi : Int) : Json → Option Int
  | .num literal => do
    let n ← Number.toInt? literal
    if lo ≤ n ∧ n < hi then some n else none
  | _ => none

/-- A signed integer of 64 bits. -/
def int64? (v : Json) : Option Int64 :=
  (v.intWithin? (-0x8000000000000000) 0x8000000000000000).map .ofInt

/-- A signed integer of 32 bits. -/
def int32? (v : Json) : Option Int32 := (v.intWithin? (-0x80000000) 0x80000000).map .ofInt

/-- An unsigned integer of 64 bits. -/
def uint64? (v : Json) : Option UInt64 :=
  (v.intWithin? 0 0x10000000000000000).map fun n => .ofNat n.toNat

/-- An unsigned integer of 32 bits. -/
def uint32? (v : Json) : Option UInt32 :=
  (v.intWithin? 0 0x100000000).map fun n => .ofNat n.toNat

end HostAbi.Json
