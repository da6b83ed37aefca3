import ThreadSlots.Json.Basic

/-!
# Enumerations as JSON

A value of a small enumeration is written as its name. It is read from its name, or from an object
with that name as its only field and null as the field's value.
-/

namespace ThreadSlots.Json

/-- The name that a value of an enumeration stands for, in either form. -/
def enumName? : Json → Option String
  | .str s => some s
  | .obj [(name, .null)] => some name
  | _ => none

/-- The member of `all` that a value stands for. -/
def oneOf? {α : Type} (all : List α) (name : α → String) (v : Json) : Option α :=
  v.enumName?.bind fun s => all.find? fun a => name a == s

end ThreadSlots.Json
