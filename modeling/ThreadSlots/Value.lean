/-!
# Values and their types

A slot holds values of any type behind one interface; each variable reads its slot at one type, its
`Kind`. A `Literal` is a constant as a program writes it, which takes the kind of the variable it is
stored in: `3` is a number for a variable of numbers and a present number for a variable of
optional numbers.
-/

namespace ThreadSlots

/-- The types of values. -/
inductive Kind where
  /-- Integers. -/
  | int
  /-- Texts. -/
  | text
  /-- Integers that may be absent. -/
  | opt
  /-- Lists of integers. -/
  | list
  /-- The type with one value. -/
  | unit
  deriving DecidableEq, Repr

/-- A value together with its type. -/
inductive Value where
  | int (i : Int)
  | text (s : String)
  | opt (o : Option Int)
  | list (l : List Int)
  | unit
  deriving DecidableEq, Repr

/-- The type of a value. -/
def Value.kind : Value → Kind
  | .int _ => .int
  | .text _ => .text
  | .opt _ => .opt
  | .list _ => .list
  | .unit => .unit

/-- A constant as a program writes it. -/
inductive Literal where
  | int (i : Int)
  | text (s : String)
  | list (l : List Int)
  | null
  deriving DecidableEq, Repr

namespace Kind

/-- The value a variable of this type starts from when nothing else is asked for. -/
def zero : Kind → Value
  | .int => .int 0
  | .text => .text ""
  | .opt => .opt none
  | .list => .list []
  | .unit => .unit

/-- The constant read at this type, if it fits. -/
def read? : Kind → Literal → Option Value
  | .int, .int i => some (.int i)
  | .text, .text s => some (.text s)
  | .opt, .int i => some (.opt (some i))
  | .opt, .null => some (.opt none)
  | .list, .list l => some (.list l)
  | _, _ => none

/-- The constant read at this type; one that does not fit reads as the type's `zero`. -/
def read (k : Kind) (l : Literal) : Value := (k.read? l).getD k.zero

/-- The value itself if it is of this type, and the type's `zero` otherwise. -/
def fit (k : Kind) (v : Value) : Value := if v.kind = k then v else k.zero

/-- The number `i` as a value of this type: its decimal text, or the list that holds it alone. -/
def ofInt : Kind → Int → Value
  | .int, i => .int i
  | .text, i => .text (toString i)
  | .opt, i => .opt (some i)
  | .list, i => .list [i]
  | .unit, _ => .unit

@[simp] theorem kind_zero (k : Kind) : k.zero.kind = k := by cases k <;> rfl

@[simp] theorem kind_read (k : Kind) (l : Literal) : (k.read l).kind = k := by
  cases k <;> cases l <;> rfl

@[simp] theorem kind_fit (k : Kind) (v : Value) : (k.fit v).kind = k := by
  unfold fit
  split
  · assumption
  · exact kind_zero k

@[simp] theorem kind_ofInt (k : Kind) (i : Int) : (k.ofInt i).kind = k := by cases k <;> rfl

end Kind

end ThreadSlots
