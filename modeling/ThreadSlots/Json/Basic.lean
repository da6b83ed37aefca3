import ThreadSlots.Decimal.Binary

/-!
# JSON values

A number is an integer when it is written as one and fits 64 bits, with or without a sign; every
other number is a floating-point number. An object is a list of fields; reading yields them sorted
by name without repetition, while a record that is written keeps the order of its own fields.
-/

namespace ThreadSlots

/-- A JSON value. -/
inductive Json where
  | null
  | bool (b : Bool)
  | int (i : Int)
  /-- A floating-point number: its sign and magnitude. -/
  | float (negative : Bool) (magnitude : Decimal.Magnitude)
  | str (s : String)
  | arr (elements : List Json)
  | obj (fields : List (String × Json))
  deriving Inhabited, Repr

namespace Json

/-- A natural number as a value. -/
def nat (n : Nat) : Json := .int n

/-- The largest integer that is kept as one. -/
def maxInteger : Nat := 18446744073709551615

/-- The fields with `name` set to `v`: in place of an older field of that name, or before the first
field with a later name. -/
def setField (name : String) (v : Json) : List (String × Json) → List (String × Json)
  | [] => [(name, v)]
  | (k, w) :: rest =>
    if name = k then (k, v) :: rest
    else if name < k then (name, v) :: (k, w) :: rest
    else (k, w) :: setField name v rest

/-- The fields sorted by name; of several fields of one name the last counts. -/
def sortFields (fields : List (String × Json)) : List (String × Json) :=
  fields.foldl (fun sorted (k, v) => setField k v sorted) []

/-- The object with the given fields, sorted by name. -/
def record (fields : List (String × Json)) : Json := .obj (sortFields fields)

/-- The value of a field of an object. -/
def field? (name : String) : Json → Option Json
  | .obj fields => fields.lookup name
  | _ => none

/-- The text of a string. -/
def text? : Json → Option String
  | .str s => some s
  | _ => none

/-- The integer of a number that was kept as one. -/
def int? : Json → Option Int
  | .int i => some i
  | _ => none

/-- The number of a natural number. -/
def nat? : Json → Option Nat
  | .int i => if i < 0 then none else some i.toNat
  | _ => none

/-- The truth value. -/
def bool? : Json → Option Bool
  | .bool b => some b
  | _ => none

/-- The elements of an array. -/
def elements? : Json → Option (List Json)
  | .arr elements => some elements
  | _ => none

/-- The value is null. -/
def isNull : Json → Bool
  | .null => true
  | _ => false

end Json

end ThreadSlots
