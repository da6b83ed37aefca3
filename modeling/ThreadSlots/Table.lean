import ThreadSlots.Settings
import ThreadSlots.Tally
import ThreadSlots.SlotSupply

/-!
# Slot tables

A slot table belongs to one thread. It is a vector of optional entries, indexed by slot, whose length
is the table's capacity: the number of slots that can be addressed without growing. Reading past the
capacity is no error, it finds nothing. Storing past it makes the table grow by doubling, and the new
part of the vector is unset.

A call that writes returns the table also when it is refused.
-/

namespace ThreadSlots

/-- The capacity of a new table. -/
def initialCapacity : Nat := 32

/-- The largest capacity a table may have. It covers every slot a supply hands out. -/
def maxCapacity : Nat := 2147483648

theorem nonempty_blank {α : Type} :
    0 < (Array.replicate initialCapacity (none : Option α)).size := by
  rw [Array.size_replicate]
  decide

/-- A growable vector of entries of type `α`, indexed by slot. -/
structure Table (α : Type) where
  /-- One entry, or none, for each slot that can be addressed. -/
  entries : Array (Option α) := Array.replicate initialCapacity none
  /-- What storing the unset sentinel means here. -/
  policy : SentinelPolicy := .strict
  /-- The reserved slot can be addressed. -/
  nonempty : 0 < entries.size := by exact nonempty_blank

namespace Table

variable {α : Type}

/-- What a write did. -/
structure Outcome (α : Type) where
  /-- The slot went from unset to set. -/
  newlySet : Bool
  /-- What the slot held before. -/
  previous : Option α

/-- What a write did, with the table after it. -/
structure Stored (α : Type) extends Outcome α where
  table : Table α

/-- The number of slots that can be addressed without growing. -/
def capacity (t : Table α) : Nat := t.entries.size

/-- The entry of a slot. A slot beyond the capacity holds nothing. -/
def get? (t : Table α) (slot : Nat) : Option α := t.entries[slot]?.join

/-- Whether the slot holds an entry. -/
def contains (t : Table α) (slot : Nat) : Bool := (t.get? slot).isSome

/-- The set slots in increasing order. -/
def slots (t : Table α) : List Nat := (List.range t.capacity).filter t.contains

/-- The number of set slots, the reserved one not counted. -/
def size (t : Table α) : Nat := (List.range t.capacity).countP fun slot =>
  slot != reservedSlot && t.contains slot

/-- The refusal of a table that cannot grow far enough. -/
def outOfCapacity : StorageError := .exhausted .tableCapacity maxCapacity

/-- The least capacity above `index` that `capacity` reaches by doubling, unless that passes
`maxCapacity`. -/
def doubledPast (index capacity : Nat) : Option Nat :=
  if index < capacity then some capacity
  else if 0 < capacity ∧ 2 * capacity ≤ maxCapacity then doubledPast index (2 * capacity)
  else none
termination_by maxCapacity - capacity

/-- The table with unset slots at its end, up to the given capacity if that is a larger one. -/
def resize (t : Table α) (capacity : Nat) : Table α where
  entries := t.entries ++ Array.replicate (capacity - t.capacity) none
  policy := t.policy
  nonempty := by
    rw [Array.size_append]
    exact Nat.lt_of_lt_of_le t.nonempty (Nat.le_add_right _ _)

/-- Grow until `index` can be addressed. -/
def expand (t : Table α) (index : Nat) : Except StorageError Unit × Table α :=
  match doubledPast index (max t.capacity 1) with
  | some capacity => (.ok (), t.resize capacity)
  | none => (.error outOfCapacity, t)

/-- Write a slot that can be addressed. -/
def replace (t : Table α) (slot : Nat) (entry : Option α) : Table α where
  entries := t.entries.setIfInBounds slot entry
  policy := t.policy
  nonempty := by
    rw [Array.size_setIfInBounds]
    exact t.nonempty

/-- Store an entry into a slot that can be addressed. -/
def put (t : Table α) (slot : Nat) (entry : α) : Stored α :=
  let previous := t.get? slot
  { table := t.replace slot (some entry), newlySet := !previous.isSome, previous := previous }

/-- Unset a slot. -/
def erase (t : Table α) (slot : Nat) : Stored α :=
  let previous := t.get? slot
  { table := t.replace slot none, newlySet := false, previous := previous }

/-- A write that is not refused. -/
def Stored.done (s : Stored α) : Except StorageError (Outcome α) × Table α :=
  (.ok s.toOutcome, s.table)

/-- Store an entry, growing first if the slot cannot be addressed. -/
def set (t : Table α) (slot : Nat) (entry : α) : Except StorageError (Outcome α) × Table α :=
  if slot < t.capacity then (t.put slot entry).done
  else match t.expand slot with
    | (.ok (), t) => (t.put slot entry).done
    | (.error e, t) => (.error e, t)

/-- Store an entry or the unset sentinel (`none`). The sentinel is refused under the strict policy
and removes the entry under the lenient one. -/
def setEntry (t : Table α) (slot : Nat) : Option α → Except StorageError (Outcome α) × Table α
  | some entry => t.set slot entry
  | none =>
    if t.policy.rejectsSentinel then (.error (.sentinelStored slot), t) else (t.erase slot).done

/-- The table in words: its capacity, size and policy. -/
def describe (t : Table α) : String :=
  s!"SlotTable \x7b capacity: {t.capacity}, size: {t.size}, policy: {t.policy.title} \x7d"

end Table

end ThreadSlots
