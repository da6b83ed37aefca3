import ThreadSlots.StorageError
import ThreadSlots.Text.Padding

/-!
# Allocation of slot indices

Each variable receives one slot index when it is made. Indices are handed out in increasing order
and never taken back: a slot that once had a meaning must not be read as another variable's while
old values may still sit in some thread's table. Slot 0 is reserved for bookkeeping, so the
process's own supply starts at 1.
-/

namespace ThreadSlots

/-- The largest slot index that is ever handed out. -/
def maxSlot : Nat := 2147483647

/-- The slot that holds a table's live set. -/
def reservedSlot : Nat := 0

/-- A supply of increasing slot indices. -/
structure SlotSupply where
  /-- The first index the supply hands out. -/
  first : Nat := 1
  /-- The index it hands out next. -/
  next : Nat := first
  deriving DecidableEq, Repr

namespace SlotSupply

/-- A supply whose first index is `first`. -/
def startingAt (first : Nat) : SlotSupply := { first := first, next := first }

/-- The refusal of a supply that has handed out every index. -/
def exhausted : StorageError := .exhausted .slotIndices maxSlot

/-- Hand out the next index. A refusal changes nothing, so every later request is refused too. -/
def take (s : SlotSupply) : Except StorageError Nat × SlotSupply :=
  if s.next ≤ maxSlot then (.ok s.next, { s with next := s.next + 1 }) else (.error exhausted, s)

/-- The answers to `n` requests, in order. -/
def takeMany (s : SlotSupply) : Nat → List (Except StorageError Nat) × SlotSupply
  | 0 => ([], s)
  | n + 1 =>
    let (answer, s) := s.take
    let (answers, s) := takeMany s n
    (answer :: answers, s)

/-- The answer to the last of `n` requests, if there was one. -/
def takeLast (s : SlotSupply) (n : Nat) : Option (Except StorageError Nat) × SlotSupply :=
  let (answers, s) := s.takeMany n
  (answers.getLast?, s)

/-- The index handed out last, if any. -/
def last? (s : SlotSupply) : Option Nat :=
  if s.first < s.next then some (s.next - 1) else none

/-- How many indices have been handed out. -/
def taken (s : SlotSupply) : Nat := s.next - s.first

/-- The slot with the given number. A number above the largest slot is refused as the supply
refuses to hand it out. -/
def slot (n : Nat) : Except StorageError Nat :=
  ((startingAt n).take).1

end SlotSupply

/-- What several threads saw that took indices from one supply at the same time. It does not
depend on whose turn it was: the answers are those of one sequence of requests. -/
structure Race where
  /-- How many different indices were handed out. -/
  distinct : Nat
  /-- How many requests were refused. -/
  failed : Nat
  /-- The smallest index handed out. -/
  least : Option Nat
  /-- The largest index handed out. -/
  greatest : Option Nat
  deriving DecidableEq, Repr

/-- `threads` threads request `n` indices each. -/
def SlotSupply.race (s : SlotSupply) (threads n : Nat) : Race × SlotSupply :=
  let (answers, s) := s.takeMany (threads * n)
  let slots := answers.filterMap Except.toOption
  ({ distinct := slots.length
     failed := answers.length - slots.length
     least := slots.min?
     greatest := slots.max? }, s)

/-- A slot index as the columns of a report show it: to the right of six places, to the left of
six places, and with zeros up to three places. -/
def slotColumns (slot : Nat) : String :=
  let digits := toString slot
  let right := Text.padStart 6 ' ' digits
  s!"{right}|{Text.padEnd 6 digits}|{Text.zeroPadded 3 slot}"

end ThreadSlots
